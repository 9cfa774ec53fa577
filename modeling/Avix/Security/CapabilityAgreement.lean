/-
  SECURITY — the router's and the executor's view of an agent's tools.

  Two checks guard a tool call: `check_capability` in the router reads `granted_tools` of the
  process table entry, `validate_tool_call` in the executor reads the token.

  `kernel_executor_disagree`: in every run of spawns, restores, aborts, status changes
  and token operations the entry of every agent grants no tool, whatever the token grants. So
  the entry and the token agree on the tools only for a token without tools, and the two checks
  never make the same decisions.

  Nothing outside tests calls `ProcessTable::set_token`, although the entry is documented to be
  kept in sync with the token, and the checks have different lists of tools that need no grant.
-/
import Avix.Security.TokenInvariant

namespace Avix

open Lib KernelState

/-- The kernel and the executors of the launched agents. -/
structure AgentSystem (D : Type) where
  kernel : KernelState D
  executors : HashMap Pid RuntimeExecutor

/-- What happens to the process table and the tokens. -/
inductive AgentEvent (D : Type) where
  | spawn (a : SpawnArgs) (env : SpawnEnv)
  | restore (inv : InvocationRecord) (now : DateTime) (storeFails : StoreCall → Bool)
  | abort (pid : Pid) (storeFails : Bool)
  /-- A pause or resume by the kernel, or a status an executor reports. -/
  | setStatus (pid : Pid) (status : ProcessStatus)
  /-- The task of a launched agent builds its executor. -/
  | start (pid : Pid)
  | token (pid : Pid) (e : RuntimeExecutor.TokenEvent D)

namespace AgentSystem

variable {D : Type} (x : ExecutorExternals D)

def setStatus (s : AgentSystem D) (pid : Pid) (status : ProcessStatus) : AgentSystem D :=
  match s.kernel.processTable.setStatus pid status with
  | .ok table => { s with kernel := { s.kernel with processTable := table } }
  | .error _ => s

def start (s : AgentSystem D) (pid : Pid) : AgentSystem D :=
  match s.kernel.tasks.lookup pid with
  | some params =>
    let ex := RuntimeExecutor.ofParams params (.new s.kernel.masterKey)
    { s with executors := s.executors.insert pid ex }
  | none => s

def changeToken (s : AgentSystem D) (pid : Pid) (e : RuntimeExecutor.TokenEvent D) :
    AgentSystem D :=
  match s.executors.lookup pid with
  | some ex => { s with executors := s.executors.insert pid (ex.tokenStep x e) }
  | none => s

def step (s : AgentSystem D) : AgentEvent D → AgentSystem D
  | .spawn a env => { s with kernel := (s.kernel.spawn x.toExternals a env).1 }
  | .restore inv now storeFails =>
    { s with kernel := (s.kernel.restoreFromInvocation x.toExternals inv now storeFails).1 }
  | .abort pid storeFails =>
    { kernel := s.kernel.abortAgent pid storeFails, executors := s.executors.erase pid }
  | .setStatus pid status => s.setStatus pid status
  | .start pid => s.start pid
  | .token pid e => s.changeToken x pid e

theorem start_kernel (s : AgentSystem D) (pid : Pid) : (s.start pid).kernel = s.kernel := by
  unfold start
  split <;> rfl

theorem start_executors {s : AgentSystem D} {pid : Pid} {params : SpawnParams}
    (h : s.kernel.tasks.lookup pid = some params) :
    (s.start pid).executors.lookup pid =
      some (RuntimeExecutor.ofParams params (.new s.kernel.masterKey)) := by
  unfold start
  rw [h]
  exact AList.lookup_insert _

end AgentSystem

namespace Security

section Agreement

variable {D : Type} (x : ExecutorExternals D)

/-- The router admits a call by the agent exactly when the executor does, for an unexpired
    token and a tool without a budget. -/
def SameDecisions (table : ProcessTable) (pid : Pid) (token : CapabilityToken) : Prop :=
  ∀ (call : AvixToolCall) (now : DateTime) (budgets : ToolBudgets),
    token.isExpired now = false → budgets.remaining call.name = none →
      (checkCapability call.name pid table = .ok () ↔
        (validateToolCall now token call budgets).2 = .ok ())

def NoGrants (table : ProcessTable) : Prop :=
  ∀ p entry, table.get p = some entry → entry.grantedTools = []

variable {table : ProcessTable} {s : KernelState D}

theorem noGrants_insert (h : NoGrants table) {entry : ProcessEntry}
    (hentry : entry.grantedTools = []) : NoGrants (table.insert entry) := by
  intro p e he
  rw [ProcessTable.get_insert] at he
  split_ifs at he
  · rw [← Option.some.inj he, hentry]
  · exact h p e he

theorem noGrants_spawn (h : NoGrants s.processTable) (a : SpawnArgs) (env : SpawnEnv) :
    NoGrants (s.spawn x.toExternals a env).1.processTable := by
  rcases hspawn : s.spawn x.toExternals a env with ⟨s', result⟩
  cases result with
  | error e => exact spawn_eq_error hspawn ▸ h
  | ok c =>
    obtain ⟨-, hs⟩ := spawn_eq_ok hspawn
    intro p entry hentry
    rw [hs.entry] at hentry
    split_ifs at hentry
    · rw [← Option.some.inj hentry, spawnedEntry]
    · exact h p entry hentry

theorem noGrants_abort (h : NoGrants s.processTable) (pid : Pid) (storeFails : Bool) :
    NoGrants (s.abortAgent pid storeFails).processTable := by
  intro p entry hentry
  rw [abortAgent_get] at hentry
  split_ifs at hentry
  · obtain ⟨old, hold, rfl⟩ := Option.map_eq_some_iff.mp hentry
    exact h p old hold
  · exact h p entry hentry

theorem noGrants_setStatus {table' : ProcessTable} (h : NoGrants table) {pid : Pid}
    {status : ProcessStatus} (hset : table.setStatus pid status = .ok table') :
    NoGrants table' := by
  intro p entry hentry
  rw [ProcessTable.get_of_modify _ hset] at hentry
  split_ifs at hentry
  · obtain ⟨old, hold, rfl⟩ := Option.map_eq_some_iff.mp hentry
    exact h _ old hold
  · exact h p entry hentry

theorem noGrants_step (s : AgentSystem D) (e : AgentEvent D) (h : NoGrants s.kernel.processTable) :
    NoGrants (s.step x e).kernel.processTable := by
  cases e with
  | spawn a env => exact noGrants_spawn x h a env
  | restore inv now storeFails =>
    change NoGrants (s.kernel.restoreFromInvocation x.toExternals inv now storeFails).1.processTable
    rw [restoreFromInvocation_processTable]
    split_ifs
    · exact noGrants_insert h rfl
    · exact h
  | abort pid storeFails => exact noGrants_abort h pid storeFails
  | setStatus pid status =>
    rw [AgentSystem.step, AgentSystem.setStatus]
    split
    next table hset => exact noGrants_setStatus h hset
    next => exact h
  | start pid =>
    rw [AgentSystem.step, AgentSystem.start_kernel]
    exact h
  | token pid e =>
    rw [AgentSystem.step, AgentSystem.changeToken]
    split <;> exact h

/-- `sys/tools` needs no grant in the executor, and one in the router that no entry has. -/
theorem not_sameDecisions (h : NoGrants table) (pid : Pid) (token : CapabilityToken) :
    ¬ SameDecisions table pid token := by
  intro hsame
  have hfresh : token.isExpired token.expiresAt = false := by
    rw [CapabilityToken.isExpired, decide_eq_false_iff_not]
    exact lt_irrefl token.expiresAt.nanos
  have hexec : (validateToolCall token.expiresAt token ⟨"", "sys/tools", .null⟩ ∅).2 = .ok () :=
    (validateToolCall_ok_iff hfresh rfl).mpr (.inr (.inr (by decide)))
  have hrout := (hsame ⟨"", "sys/tools", .null⟩ token.expiresAt ∅ hfresh rfl).mpr hexec
  unfold checkCapability at hrout
  rw [if_neg (by decide)] at hrout
  cases hentry : table.get pid with
  | none =>
    rw [hentry] at hrout
    cases hrout
  | some entry =>
    rw [hentry] at hrout
    dsimp only at hrout
    rw [h pid entry hentry, List.any_nil, if_neg (by decide)] at hrout
    cases hrout

theorem kernel_executor_disagree (s : AgentSystem D) (es : List (AgentEvent D))
    (hboot : Booted s.kernel) (pid : Pid) (entry : ProcessEntry) (ex : RuntimeExecutor)
    (hentry : (run (AgentSystem.step x) s es).kernel.processTable.get pid = some entry)
    (_hex : (run (AgentSystem.step x) s es).executors.lookup pid = some ex) :
    (entry.grantedTools = ex.token.grantedTools ↔ ex.token.grantedTools = []) ∧
      ¬ SameDecisions (run (AgentSystem.step x) s es).kernel.processTable pid ex.token := by
  have hfirst : NoGrants s.kernel.processTable := by
    intro p e he
    rw [Booted] at hboot
    rw [hboot] at he
    cases he
  have hlast : NoGrants (run (AgentSystem.step x) s es).kernel.processTable :=
    run_invariant (noGrants_step x) hfirst es
  refine ⟨?_, not_sameDecisions hlast pid ex.token⟩
  rw [hlast pid entry hentry]
  exact eq_comm

end Agreement

/-! ## The agent `lead` -/

def officeAgentExternals : ExecutorExternals Unit := agentExternals officeMac

/-- `lead` has been spawned as pid 1 and its task has started. -/
def leadEvents : List (AgentEvent Unit) := [.spawn (spawnOf "lead" none) (envOf 1), .start 1]

def leadSystem : AgentSystem Unit :=
  run (AgentSystem.step officeAgentExternals) ⟨officeKernel, ∅⟩ leadEvents

theorem leadSystem_eq : leadSystem = AgentSystem.start ⟨leadKernel, ∅⟩ 1 := rfl

/-- The executor of `lead` holds the token minted for it. -/
theorem lead_executor : ∃ ex, leadSystem.executors.lookup 1 = some ex ∧ ex.token = leadToken := by
  obtain ⟨-, hs⟩ := spawn_eq_ok lead_spawned
  obtain ⟨params, hpar, htoken⟩ := hs.launched rfl
  rw [leadSystem_eq]
  exact ⟨_, AgentSystem.start_executors hpar, htoken⟩

theorem lead_entry : leadSystem.kernel.processTable.get 1 =
    some (KernelState.spawnedEntry (spawnOf "lead" none) 1) := by
  obtain ⟨-, hs⟩ := spawn_eq_ok lead_spawned
  rw [leadSystem_eq, AgentSystem.start_kernel, hs.entry]
  exact if_pos rfl

theorem kernel_executor_disagree_lead : ∃ ex, leadSystem.executors.lookup 1 = some ex ∧
    ([] = ex.token.grantedTools ↔ ex.token.grantedTools = []) ∧
    ¬ SameDecisions leadSystem.kernel.processTable 1 ex.token := by
  obtain ⟨ex, hex, -⟩ := lead_executor
  exact ⟨ex, hex, kernel_executor_disagree officeAgentExternals ⟨officeKernel, ∅⟩ leadEvents rfl 1 _
    ex lead_entry hex⟩

set_option maxRecDepth 2000 in
/-- The token of `lead` grants `net/fetch`. Its executor admits a call, the router does not. -/
theorem lead_call_refused_by_router :
    ∃ entry ex, leadSystem.kernel.processTable.get 1 = some entry ∧
      leadSystem.executors.lookup 1 = some ex ∧
      entry.grantedTools ≠ ex.token.grantedTools ∧
      ex.token.isExpired ⟨0⟩ = false ∧
      (validateToolCall ⟨0⟩ ex.token ⟨"", "net/fetch", .null⟩ ∅).2 = .ok () ∧
      checkCapability "net/fetch" 1 leadSystem.kernel.processTable =
        .error (.capabilityDenied "tool 'net/fetch' not granted to pid 1") := by
  obtain ⟨ex, hex, htoken⟩ := lead_executor
  have hfetch : "net/fetch" ∈ ex.token.grantedTools := by
    rw [htoken, leadToken_tools]
    decide
  have hfresh : ex.token.isExpired ⟨0⟩ = false := by
    rw [htoken]
    rfl
  refine ⟨_, ex, lead_entry, hex, ?_, hfresh, ?_, ?_⟩
  · intro h
    rw [← h] at hfetch
    cases hfetch
  · exact (validateToolCall_ok_iff hfresh rfl).mpr (.inr (.inl hfetch))
  · rw [checkCapability, if_neg (by decide), lead_entry]
    rfl

end Security

end Avix
