/-
  SECURITY — a killed agent stays dead.

  `killed_stays_dead`: in every run of the kernel and its executors whose steps meet
  `CleanKill`: once the executor of an agent has taken a Kill or Stop from its channel, it starts
  no call of the language model and no tool; and when its task has ended or can only wait, its
  process is stopped or crashed, its invocation has a terminal status, and
  `restore_interrupted_agents` does not restore it after a restart.

  `CleanKill` asks of a step that
  * the signal is taken in the wait after a failed turn. During a turn it only makes the turn
    fail, and the executor waits for the next goal; while idle and in restore mode the task
    ends without a word (`killed_agent_continues`);
  * the database does not fail when the kill is recorded;
  * neither a pause or resume, of the agent or its session, nor the end of its spawn writes a
    status of the agent afterwards. `set_status` and `update_status` overwrite any status;
  * a new agent has a new pid and a new invocation id.
-/
import Avix.Kernel.SignalHandler
import Avix.Security.TokenInvariant

namespace Avix.Security

open KernelState hiding spawn step

open Lib LiveKernel List Option

section Killed

variable {D : Type} {x : ExecutorExternals D} {s : LiveKernel D}

/-! ## Statement -/

/-- The event starts work. -/
def Starts : TaskEvent → Prop
  | .took _ => False
  | .llmCall _ => True
  | .toolDispatch _ => True

/-- Nothing is started after a Kill or Stop was taken. -/
def QuietAfterKill (log : List TaskEvent) : Prop :=
  ∀ l₁ sig l₂, log = l₁ ++ .took sig :: l₂ → sig.kills = true → ∀ e ∈ l₂, ¬ Starts e

/-- The task has ended or can only wait. -/
def Rests (t : ExecutorTask) : Prop :=
  match t.pc with
  | .ended => True
  | .waiting _ => t.signalRx = []
  | .pausedWait _ => t.signalRx = []
  | _ => False

def ProcessEnded (k : KernelState D) (p : Pid) : Prop :=
  ∀ entry, k.processTable.get p = some entry → entry.status = .stopped ∨ entry.status = .crashed

def InvocationEnded (k : KernelState D) (id : String) : Prop :=
  ∀ r, k.record id = some r → r.status.isTerminal = true

def NotRestored (x : ExecutorExternals D) (k : KernelState D) (id : String) : Prop :=
  ∀ now listFails storeFails p params,
    (k.restart.restoreInterruptedAgents x.toExternals now listFails storeFails).tasks.lookup p =
      some params → params.invocationId ≠ id

def Fresh (s : LiveKernel D) (pid : Pid) (id : String) : Prop :=
  s.executors.lookup pid = none ∧ id ≠ "" ∧
    ∀ q t, s.executors.lookup q = some t → t.params.invocationId ≠ id

/-- What is asked of an access of the signal handler. -/
def SparesKilled (s : LiveKernel D) : KernelAction → Prop
  | .setStatus pid _ => ∀ t, s.executors.lookup pid = some t → t.tookKill = false
  | .writeInvocation id _ =>
    ∀ q t, s.executors.lookup q = some t → t.params.invocationId = id → t.tookKill = false
  | _ => True

/-- What is asked of a step, in the state it starts from. -/
def CleanKill (s : LiveKernel D) : KernelInput → Prop
  | .spawn _ env => Fresh s env.pid env.invocationUuid
  | .restore inv _ _ => Fresh s inv.pid inv.id
  | .signal _ _ _ => True
  | .act call _ =>
    match s.calls[call]? with
    | some (action :: _) => SparesKilled s action
    | _ => True
  | .step pid env =>
    ∀ t, s.executors.lookup pid = some t →
      (∀ sig, t.takes env = some sig → sig.kills = true → t.pc = .waiting .failed) ∧
        (t.pc = .finalizing → env.storeFails = false)

/-! ## The invariant -/

/-- How far the shutdown of a killed agent has got. -/
def ShutDown (k : KernelState D) (p : Pid) (t : ExecutorTask) : Prop :=
  match t.pc with
  | .finalizing => True
  | .crashing => InvocationEnded k t.params.invocationId
  | .unregistering => InvocationEnded k t.params.invocationId ∧ ProcessEnded k p
  | .ended => InvocationEnded k t.params.invocationId ∧ ProcessEnded k p
  | _ => False

structure Sound (s : LiveKernel D) : Prop where
  pids : ∀ p t, s.executors.lookup p = some t → t.params.pid = p
  ids : ∀ p t q u, s.executors.lookup p = some t → s.executors.lookup q = some u →
    t.params.invocationId = u.params.invocationId → p = q
  named : ∀ p t, s.executors.lookup p = some t → t.params.invocationId ≠ ""
  keyed : ∀ store, s.kernel.invocationStore = some store → store.WellKeyed
  killed : ∀ p t, s.executors.lookup p = some t → t.tookKill = true →
    QuietAfterKill t.log ∧ ShutDown s.kernel p t

/-- Two kernels that agree on an agent. -/
structure Agrees (k k' : KernelState D) (p : Pid) (id : String) : Prop where
  entry : k'.processTable.get p = k.processTable.get p
  record : k'.record id = k.record id

theorem Agrees.refl (k : KernelState D) (p : Pid) (id : String) : Agrees k k p id := ⟨rfl, rfl⟩

variable {k k' : KernelState D} {params : SpawnParams} {env : TurnEnv} {t : ExecutorTask}
  {id : String} {p q pid : Pid}

theorem ShutDown.of_agrees (h : ShutDown k p t) (hk : Agrees k k' p t.params.invocationId) :
    ShutDown k' p t := by
  unfold ShutDown InvocationEnded ProcessEnded at *
  rw [hk.entry, hk.record]
  exact h

/-- The kernel changes, but not for a killed agent, and no store loses its keys. -/
structure Spares (s : LiveKernel D) (k : KernelState D) : Prop where
  agrees : ∀ p t, s.executors.lookup p = some t → t.tookKill = true →
    Agrees s.kernel k p t.params.invocationId
  keyed : ∀ store, k.invocationStore = some store → store.WellKeyed

variable {s' : LiveKernel D} {fails : Bool}

/-- A step of the kernel alone. -/
theorem Sound.of_spares (h : Sound s) (hk : Spares s s'.kernel)
    (hexec : s'.executors = s.executors) : Sound s' where
  pids := hexec ▸ h.pids
  ids := hexec ▸ h.ids
  named := hexec ▸ h.named
  keyed := hk.keyed
  killed p t ht hkill := by
    rw [hexec] at ht
    obtain ⟨hquiet, hdown⟩ := h.killed p t ht hkill
    exact ⟨hquiet, hdown.of_agrees (hk.agrees p t ht hkill)⟩

/-! ## Changes of the kernel -/

theorem agrees_setStatus (h : p ≠ q) (status : ProcessStatus) (id : String) :
    Agrees k (k.setStatus q status) p id :=
  ⟨(k.setStatus_get q status p).trans (if_neg h), rfl⟩

theorem agrees_modify {id' : String} (h : id ≠ id') (p : Pid) (fails : Bool)
    (f : InvocationRecord → InvocationRecord) :
    Agrees k { k with invocationStore := k.invocationStore.map (·.modify fails id' f) } p id := by
  exact ⟨rfl, (k.record_modify fails id' id f).trans (if_neg fun hboth => h hboth.1)⟩

theorem keyed_modify (h : ∀ store, k.invocationStore = some store → store.WellKeyed) (fails : Bool)
    (id : String) {f : InvocationRecord → InvocationRecord} (hf : ∀ r, (f r).id = r.id)
    {store : InvocationStore} (hstore : k.invocationStore.map (·.modify fails id f) = some store) :
    store.WellKeyed := by
  obtain ⟨store', hstore', rfl⟩ := map_eq_some_iff.mp hstore
  exact (h store' hstore').modify id hf

/-- The changes of the kernel that an executor's step can make. -/
inductive OwnChange (k : KernelState D) (params : SpawnParams) (fails : Bool) : KernelState D → Prop
  | session (store : Option SessionStore) :
    OwnChange k params fails { k with sessionStore := store }
  | status (status : ProcessStatus) : OwnChange k params fails (k.setStatus params.pid status)
  | record (f : InvocationRecord → InvocationRecord) (hf : ∀ r, (f r).id = r.id) :
      OwnChange k params fails { k with
        invocationStore := k.invocationStore.map (·.modify fails params.invocationId f) }

/-- The effect of a step is on the entry, the invocation or the session of the executor. -/
theorem ownChange_apply (params : SpawnParams) (env : TurnEnv) (effect : ExecutorEffect) :
    OwnChange s.kernel params env.storeFails (s.apply x params env effect).kernel ∧
      (s.apply x params env effect).executors = s.executors := by
  have hrec : ∀ f : InvocationRecord → InvocationRecord, (∀ r, (f r).id = r.id) →
      OwnChange s.kernel params env.storeFails (s.changeInvocation params.invocationId
        (·.modify env.storeFails params.invocationId f)).kernel ∧
      (s.changeInvocation params.invocationId
        (·.modify env.storeFails params.invocationId f)).executors = s.executors := by
    intro f hf
    unfold changeInvocation
    split_ifs
    · exact ⟨.session s.kernel.sessionStore, rfl⟩
    · exact ⟨.record f hf, rfl⟩
  cases effect with
  | setStatus status => exact ⟨.status status, rfl⟩
  | updateStatus status => exact hrec (fun r => { r with status }) fun _ => rfl
  | updateGoal goal => exact hrec (fun r => { r with goal }) fun _ => rfl
  | finalize status exitReason => exact hrec (fun r => { r with status, exitReason }) fun _ => rfl
  | markSessionIdle =>
    unfold apply markSessionIdle
    dsimp only
    split_ifs
    · exact ⟨.session s.kernel.sessionStore, rfl⟩
    · exact ⟨.session _, rfl⟩
  | _ => exact ⟨.session s.kernel.sessionStore, rfl⟩

theorem OwnChange.agrees (h : OwnChange k params fails k') (hq : q ≠ params.pid)
    (hid : id ≠ params.invocationId) : Agrees k k' q id := by
  cases h with
  | session store => exact ⟨rfl, rfl⟩
  | status status => exact agrees_setStatus hq status id
  | record f hf => exact agrees_modify hid q fails f

theorem OwnChange.keyed (h : OwnChange k params fails k')
    (hkeyed : ∀ store, k.invocationStore = some store → store.WellKeyed) :
    ∀ store, k'.invocationStore = some store → store.WellKeyed := by
  cases h with
  | record f hf => exact fun _ hstore => keyed_modify hkeyed fails _ hf hstore
  | _ => exact hkeyed

/-! ## Changes of an executor -/

/-- One executor starts or goes on, and the others see nothing of it. -/
theorem Sound.insert {t' : ExecutorTask} (h : Sound s)
    (hexec : s'.executors = s.executors.insert p t') (hpid : t'.params.pid = p)
    (hnamed : t'.params.invocationId ≠ "")
    (hid : ∀ q u, q ≠ p → s.executors.lookup q = some u →
      u.params.invocationId ≠ t'.params.invocationId)
    (hagr : ∀ q u, q ≠ p → s.executors.lookup q = some u →
      Agrees s.kernel s'.kernel q u.params.invocationId)
    (hkeyed : ∀ store, s'.kernel.invocationStore = some store → store.WellKeyed)
    (hkilled : t'.tookKill = true → QuietAfterKill t'.log ∧ ShutDown s'.kernel p t') :
    Sound s' := by
  have hcases : ∀ {q u}, s'.executors.lookup q = some u →
      q = p ∧ u = t' ∨ q ≠ p ∧ s.executors.lookup q = some u := by
    intro q u hu
    rw [hexec] at hu
    exact HashMap.of_lookup_insert hu
  refine ⟨?_, ?_, ?_, hkeyed, ?_⟩
  · intro q u hu
    rcases hcases hu with ⟨rfl, rfl⟩ | ⟨-, hold⟩
    · exact hpid
    · exact h.pids q u hold
  · intro q u q' u' hu hu' heq
    rcases hcases hu with ⟨rfl, rfl⟩ | ⟨hq, hold⟩ <;>
      rcases hcases hu' with ⟨rfl, rfl⟩ | ⟨hq', hold'⟩
    · rfl
    · exact absurd heq.symm (hid q' u' hq' hold')
    · exact absurd heq (hid q u hq hold)
    · exact h.ids q u q' u' hold hold' heq
  · intro q u hu
    rcases hcases hu with ⟨rfl, rfl⟩ | ⟨-, hold⟩
    · exact hnamed
    · exact h.named q u hold
  · intro q u hu hkill
    rcases hcases hu with ⟨rfl, rfl⟩ | ⟨hq, hold⟩
    · exact hkilled hkill
    · obtain ⟨hquiet, hdown⟩ := h.killed q u hold hkill
      exact ⟨hquiet, hdown.of_agrees (hagr q u hq hold)⟩

theorem quietAfterKill_take (h : t.tookKill = false) (sig : Signal) :
    QuietAfterKill (t.log ++ [.took sig]) := by
  intro l₁ sig' l₂ hlog hkills
  rcases eq_nil_or_concat l₂ with rfl | ⟨l, e, rfl⟩
  · exact nofun
  -- the signal would be in the log from before
  rw [concat_eq_append, ← cons_append, ← append_assoc] at hlog
  have hold : t.log = l₁ ++ .took sig' :: l := (append_inj' hlog rfl).1
  have hmem : TaskEvent.took sig' ∈ t.log := by
    rw [hold]
    exact mem_append_right _ mem_cons_self
  have htook : t.tookKill = true := any_eq_true.mpr ⟨_, hmem, hkills⟩
  rw [h] at htook
  cases htook

theorem invocationEnded_finalize (hfails : env.storeFails = false)
    (hnamed : params.invocationId ≠ "") :
    InvocationEnded (s.apply x params env (.finalize .killed none)).kernel params.invocationId := by
  intro r hr
  rw [apply, changeInvocation, if_neg hnamed, hfails] at hr
  have hrec := (s.kernel.record_modify false params.invocationId params.invocationId
    fun r => { r with status := .killed, exitReason := none }).trans (if_pos ⟨rfl, rfl⟩)
  obtain ⟨r', -, rfl⟩ := map_eq_some_iff.mp (hrec.symm.trans hr)
  rfl

theorem processEnded_crash (k : KernelState D) (p : Pid) :
    ProcessEnded (k.setStatus p .crashed) p := by
  intro entry hentry
  rw [setStatus_get, if_pos rfl] at hentry
  obtain ⟨entry', -, rfl⟩ := map_eq_some_iff.mp hentry
  exact Or.inr rfl

/-- A killed executor only goes on with its shutdown. -/
theorem shutDown_step (hpid : t.params.pid = p) (hnamed : t.params.invocationId ≠ "")
    (hdown : ShutDown s.kernel p t) (hfails : t.pc = .finalizing → env.storeFails = false) :
    (t.step x env).1.log = t.log ∧
      ShutDown (s.apply x t.params env (t.step x env).2).kernel p (t.step x env).1 := by
  unfold ShutDown at hdown
  unfold ExecutorTask.step
  cases hpc : t.pc with
  | finalizing => exact ⟨rfl, invocationEnded_finalize (hfails hpc) hnamed⟩
  | crashing =>
    rw [hpc] at hdown
    subst hpid
    exact ⟨rfl, hdown, processEnded_crash s.kernel t.params.pid⟩
  | unregistering =>
    rw [hpc] at hdown
    exact ⟨rfl, hdown⟩
  | ended =>
    rw [hpc] at hdown
    dsimp only
    refine ⟨rfl, ?_⟩
    unfold ShutDown
    rw [hpc]
    exact hdown
  | _ =>
    rw [hpc] at hdown
    exact hdown.elim

/-! ## Steps -/

section

variable (h : Sound s)

include h

theorem sound_stepExecutor (hg : CleanKill s (.step pid env)) :
    Sound (s.stepExecutor x pid env) := by
  unfold stepExecutor
  cases ht : s.executors.lookup pid with
  | none => exact h
  | some t =>
    obtain ⟨hclean, hfails⟩ := hg t ht
    have hpid := h.pids pid t ht
    have hfoll : ExecutorTask.Follows t (t.step x env).1 (t.takes env) := ExecutorTask.follows_step
    obtain ⟨hchan, hexec⟩ := ownChange_apply
      (s := { s with executors := s.executors.insert pid (t.step x env).1 }) t.params env
      (t.step x env).2
    refine h.insert hexec (hfoll.params ▸ hpid) (hfoll.params ▸ h.named pid t ht)
      ?_ ?_ (hchan.keyed h.keyed) ?_
    · intro q u hq hu hid
      rw [hfoll.params] at hid
      exact hq (h.ids q u pid t hu ht hid)
    · intro q u hq hu
      exact hchan.agrees (hpid ▸ hq) fun hid => hq (h.ids q u pid t hu ht hid)
    · intro hkill
      by_cases hbef : t.tookKill = true
      · obtain ⟨hquiet, hdown⟩ := h.killed pid t ht hbef
        obtain ⟨hlog, hdown'⟩ := shutDown_step
          (s := { s with executors := s.executors.insert pid (t.step x env).1 }) hpid
          (h.named pid t ht) hdown hfails
        exact ⟨hlog ▸ hquiet, hdown'⟩
      · -- the signal is taken by this step
        rcases hfoll.tookKill hkill with habs | ⟨sig, htakes, hkills⟩
        · exact absurd habs hbef
        have hpc := hclean sig htakes hkills
        obtain ⟨-, hpc', hlog⟩ := ExecutorTask.step_of_kill hpc htakes hkills
        refine ⟨?_, ?_⟩
        · rw [hlog]
          exact quietAfterKill_take (Bool.eq_false_iff.mpr hbef) sig
        · unfold ShutDown
          rw [hpc']
          trivial

/-- A signal that arrives changes only the channel. -/
theorem sound_send (sig : Signal) : Sound (s.send sig) := by
  unfold send
  split_ifs
  · cases ht : s.executors.lookup sig.target with
    | none => exact h
    | some t =>
      refine h.insert rfl (h.pids _ t ht) (h.named _ t ht) ?_ (fun q u _ _ => .refl _ _ _) h.keyed
        (h.killed _ t ht)
      intro q u hq hu hid
      exact hq (h.ids q u _ t hu ht hid)
  · exact h

/-- An access of the signal handler. -/
theorem sound_access (storeFails : Bool) {action : KernelAction} (hg : SparesKilled s action) :
    Sound (s.access x storeFails action).1 := by
  cases action with
  | setStatus pid status =>
    refine h.of_spares ⟨fun p t ht hkill => agrees_setStatus ?_ status _, h.keyed⟩ rfl
    rintro rfl
    rw [hg t ht] at hkill
    cases hkill
  | writeInvocation id status =>
    refine h.of_spares ⟨fun p t ht hkill => agrees_modify ?_ p storeFails _, ?_⟩ rfl
    · intro hid
      rw [hg p t ht hid] at hkill
      cases hkill
    · exact fun _ hstore =>
        keyed_modify (f := fun r => { r with status }) h.keyed storeFails id (fun _ => rfl) hstore
  | deliver sig => exact sound_send h sig
  | putSession session =>
    exact h.of_spares ⟨fun p t _ _ => ⟨rfl, rfl⟩, h.keyed⟩ rfl
  | _ => exact h

theorem sound_act {call : Nat} {storeFails : Bool} (hg : CleanKill s (.act call storeFails)) :
    Sound (s.act x call storeFails) := by
  unfold CleanKill at hg
  unfold act
  split
  · next action rest hcall =>
    simp only [hcall] at hg
    have hacc : Sound (s.access x storeFails action).1 := sound_access h storeFails hg
    exact ⟨hacc.pids, hacc.ids, hacc.named, hacc.keyed, hacc.killed⟩
  · exact h

/-- The launch of an executor, in a kernel that has not changed for the others. -/
theorem sound_launch (hfresh : Fresh s params.pid params.invocationId)
    (hagr : ∀ q u, s.executors.lookup q = some u → Agrees s.kernel k q u.params.invocationId)
    (hkeyed : ∀ store, k.invocationStore = some store → store.WellKeyed) :
    Sound (s.launch k params) := by
  obtain ⟨-, hnamed, hids⟩ := hfresh
  by_cases hfact : k.hasFactory = true
  · refine h.insert (if_pos hfact) rfl hnamed (fun q u _ hu => hids q u hu)
      (fun q u _ hu => hagr q u hu) hkeyed ?_
    intro hkill
    cases hkill
  · exact h.of_spares ⟨fun q u hu _ => hagr q u hu, hkeyed⟩ (if_neg hfact)

end

theorem ne_of_fresh (h : Fresh s pid id) {u : ExecutorTask} (hu : s.executors.lookup q = some u) :
    q ≠ pid := by
  rintro rfl
  rw [h.1] at hu
  cases hu

theorem sound_spawn (h : Sound s) {a : SpawnArgs} {env : SpawnEnv}
    (hg : CleanKill s (.spawn a env)) : Sound (s.spawn x a env) := by
  unfold spawn
  split
  · exact h
  next k params hbegin =>
  have hbegun := beginSpawn_eq_ok hbegin
  obtain ⟨r, hr, hstore⟩ := hbegun.records
  have hfresh : Fresh s params.pid params.invocationId := by
    rw [hbegun.pid, hbegun.invocationId]
    exact hg
  have hlaun : Sound (s.launch k params) := by
    refine sound_launch h hfresh (fun q u hu => ⟨hbegun.entry q (ne_of_fresh hg hu), ?_⟩) ?_
    · have hid : u.params.invocationId ≠ r.id := hr ▸ hg.2.2 q u hu
      exact (record_create hstore _).trans (if_neg fun hboth => hid hboth.1)
    · intro store hsome
      rw [hstore] at hsome
      obtain ⟨store', hstore', rfl⟩ := map_eq_some_iff.mp hsome
      exact (h.keyed store' hstore').create r
  exact ⟨hlaun.pids, hlaun.ids, hlaun.named, hlaun.keyed, hlaun.killed⟩

theorem sound_restore (h : Sound s) {inv : InvocationRecord} {now : DateTime}
    {storeFails : StoreCall → Bool} (hg : CleanKill s (.restore inv now storeFails)) :
    Sound (s.restore x inv now storeFails) := by
  obtain ⟨hstore, hfact, htasks⟩ := restoreFromInvocation_tasks
    inv now storeFails
  have hagr : ∀ q u, s.executors.lookup q = some u → Agrees s.kernel
      (s.kernel.restoreFromInvocation x.toExternals inv now storeFails).1 q
      u.params.invocationId := by
    intro q u hu
    refine ⟨?_, by rw [record, hstore, record]⟩
    rw [restoreFromInvocation_processTable]
    split_ifs
    · exact (ProcessTable.get_insert _ _ _).trans (if_neg (ne_of_fresh hg hu))
    · rfl
  have hkeyed := h.keyed
  rw [← hstore] at hkeyed
  unfold restore
  dsimp only
  split
  · next params hpar =>
    by_cases hf : s.kernel.hasFactory = true
    · rw [htasks, if_pos hf, AList.lookup_insert] at hpar
      cases hpar
      exact sound_launch h hg hagr hkeyed
    · refine h.of_spares ⟨fun q u hu _ => hagr q u hu, hkeyed⟩ (if_neg ?_)
      rw [hfact]
      exact hf
  · exact h.of_spares ⟨fun q u hu _ => hagr q u hu, hkeyed⟩ rfl

theorem sound_step (s : LiveKernel D) (input : KernelInput) (h : Sound s)
    (hg : CleanKill s input) : Sound (s.step x input) := by
  cases input with
  | spawn a env => exact sound_spawn h hg
  | restore inv now storeFails => exact sound_restore h hg
  | signal pid name payload =>
    rw [step]
    split
    · exact ⟨h.pids, h.ids, h.named, h.keyed, h.killed⟩
    · exact h
  | act call storeFails => exact sound_act h hg
  | step pid env => exact sound_stepExecutor h hg

section

variable (hkeyed : ∀ store, k.invocationStore = some store → store.WellKeyed)

include hkeyed

theorem sound_init : Sound (init k) where
  pids p t ht := by cases ht
  ids p t q u ht := by cases ht
  named p t ht := by cases ht
  keyed := hkeyed
  killed p t ht := by cases ht

/-! ## Restart -/

theorem notRestored (hended : InvocationEnded k id) : NotRestored x k id := by
  intro now listFails storeFails p params hpar hid
  rcases restoreInterruptedAgents_tasks now listFails storeFails hpar with
    hold | ⟨inv, hinv, hpar'⟩
  · cases hold
  obtain ⟨hmem, hstat⟩ := mem_filter.mp hinv
  have hstore : k.restart.invocationStore = k.invocationStore := rfl
  rw [hstore] at hmem
  cases hk : k.invocationStore with
  | none =>
    rw [hk] at hmem
    cases hmem
  | some store =>
    rw [hk] at hmem
    have hlook := InvocationStore.lookup_of_mem_listAll (hkeyed store hk) hmem
    have hterm : inv.status.isTerminal = true := by
      refine hended inv ?_
      rw [record, hk, ← hid, hpar']
      exact hlook
    simp only [Bool.or_eq_true, decide_eq_true_eq] at hstat
    rcases hstat with (hrunn | hpaus) | hidle
    · rw [hrunn] at hterm
      cases hterm
    · rw [hpaus] at hterm
      cases hterm
    · rw [hidle] at hterm
      cases hterm

end

theorem killed_stays_dead (k : KernelState D)
    (hkeyed : ∀ store, k.invocationStore = some store → store.WellKeyed)
    (es : List KernelInput) (h : Guarded (LiveKernel.step x) CleanKill (.init k) es) (p : Pid)
    (t : ExecutorTask) (ht : (run (LiveKernel.step x) (.init k) es).executors.lookup p = some t) :
    QuietAfterKill t.log ∧ (t.tookKill = true → Rests t →
        ProcessEnded (run (LiveKernel.step x) (.init k) es).kernel p ∧
          InvocationEnded (run (LiveKernel.step x) (.init k) es).kernel t.params.invocationId ∧
          NotRestored x (run (LiveKernel.step x) (.init k) es).kernel t.params.invocationId) := by
  have hsound : Sound (run (LiveKernel.step x) (.init k) es) :=
    guarded_invariant sound_step (sound_init hkeyed) h
  refine ⟨?_, fun hkill hrests => ?_⟩
  · by_cases hkill : t.tookKill = true
    · exact (hsound.killed p t ht hkill).1
    · -- no Kill or Stop is in the log
      intro l₁ sig l₂ hlog hkills
      refine absurd (any_eq_true.mpr ⟨.took sig, ?_, hkills⟩) hkill
      rw [hlog]
      exact mem_append_right _ mem_cons_self
  · obtain ⟨-, hdown⟩ := hsound.killed p t ht hkill
    unfold ShutDown at hdown
    unfold Rests at hrests
    cases hpc : t.pc with
    | ended =>
      rw [hpc] at hdown
      exact ⟨hdown.2, hdown.1, notRestored hsound.keyed hdown.1⟩
    | waiting reason | pausedWait turn =>
      rw [hpc] at hdown
      exact hdown.elim
    | _ =>
      rw [hpc] at hrests
      exact hrests.elim

/-! ## Agents that are killed -/

/-- A step that takes no signal. -/
theorem cleanKill_of_takes (htakes : (s.executors.lookup pid).bind (·.takes env) = none)
    (hfails : env.storeFails = false) : CleanKill s (.step pid env) := by
  intro t ht
  rw [ht] at htakes
  refine ⟨fun sig hsig _ => ?_, fun _ => hfails⟩
  rw [bind_some, hsig] at htakes
  cases htakes

theorem cleanKill_of_waiting (hpc : (s.executors.lookup pid).map (·.pc) = some (.waiting .failed))
    (hfails : env.storeFails = false) : CleanKill s (.step pid env) := by
  intro t ht
  rw [ht] at hpc
  exact ⟨fun _ _ _ => some.inj hpc, fun _ => hfails⟩

end Killed

/-- The kernel of the office with a database. -/
def deskKernel : KernelState Unit := { officeKernel with invocationStore := some ∅ }

def deskExternals : ExecutorExternals Unit := agentExternals officeMac

/-- A step at 0 s, with what the language model does. -/
def deskEnv (llm : LlmEvent) : TurnEnv where
  now := ⟨0⟩
  later := ⟨0⟩
  latest := ⟨0⟩
  uuid := ""
  spawnFails := false
  history := []
  llm := llm
  upgrade := approvedUpgrade
  toolResult := .ok .null
  storeFails := false
  updateFails := false

/-- The executor of the agent `lead` where it handles waiting signals. -/
def leadTask : ExecutorTask :=
  ⟨⟨1, "lead", "", "alice", "", "", readerExecutor.token, [], "", none⟩, readerExecutor, [],
    .draining ⟨[], 0⟩, []⟩

/-- Steps of the executor of pid 1; a call of the language model fails. -/
def leadSteps (n : Nat) : List KernelInput :=
  List.replicate n (.step 1 (deskEnv (.failed (.noProviderAvailable "text"))))

/-- The agent `lead` is spawned as pid 1 and calls the language model. -/
def leadCalls : List KernelInput :=
  [.spawn (spawnOf "lead" none) (envOf 1), .act 0 false] ++ leadSteps 5

/-- A SIGKILL is sent and delivered. -/
def sigkill : List KernelInput := [.signal 1 "SIGKILL" .null, .act 1 false]

def desk (es : List KernelInput) : LiveKernel Unit :=
  run (LiveKernel.step deskExternals) (.init deskKernel) es

/-- The call fails, the agent waits and is killed. -/
def killedAfterFailure : List KernelInput := leadCalls ++ leadSteps 4 ++ sigkill ++ leadSteps 4

theorem killedAfterFailure_clean :
    Guarded (step deskExternals) CleanKill (.init deskKernel) killedAfterFailure := by
  have hquiet : ∀ {s : LiveKernel Unit} {llm : LlmEvent},
      (s.executors.lookup 1).bind (·.takes (deskEnv llm)) = none →
      CleanKill s (.step 1 (deskEnv llm)) := fun h => cleanKill_of_takes h rfl
  refine ⟨⟨rfl, by decide, fun q t ht => ?_⟩, fun t ht => ?_, hquiet rfl, hquiet rfl, hquiet rfl,
    hquiet rfl, hquiet rfl, hquiet rfl, hquiet rfl, hquiet rfl, hquiet rfl, trivial, trivial,
    cleanKill_of_waiting rfl rfl, hquiet rfl, hquiet rfl, hquiet rfl, trivial⟩
  · cases ht
  · cases ht
    rfl

theorem killed_stays_dead_lead : ProcessEnded (desk killedAfterFailure).kernel 1 ∧
    InvocationEnded (desk killedAfterFailure).kernel (envOf 1).invocationUuid ∧
    NotRestored deskExternals (desk killedAfterFailure).kernel (envOf 1).invocationUuid :=
  (killed_stays_dead deskKernel (fun store hstore id r hr => by
    rw [← some.inj hstore] at hr
    cases hr) killedAfterFailure killedAfterFailure_clean 1 _ rfl).2 rfl trivial

/-- The agent is killed during the call. -/
def killedInTurn : List KernelInput :=
  leadCalls ++ sigkill ++ [.step 1 (deskEnv .signal)] ++ leadSteps 3

/-- The user sends the next goal. -/
def nextGoal : List KernelInput :=
  [.signal 1 "SIGSTART" (.ofMembers [("goal", .string "go on")]), .act 2 false] ++ leadSteps 6

/-- The call succeeds, and the agent is killed while idle. -/
def killedIdle : List KernelInput :=
  leadCalls ++ [.step 1 (deskEnv (.response ⟨[], .endTurn⟩))] ++ leadSteps 3 ++ sigkill ++
    leadSteps 2

/-- An agent killed during a turn waits, is restored after a restart, and calls the language
    model again when the next goal comes; one killed while idle ends as if it were waiting. -/
theorem killed_agent_continues :
    (∃ t, (desk killedInTurn).executors.lookup 1 = some t ∧ t.tookKill = true ∧ Rests t) ∧
    ((desk killedInTurn).kernel.processTable.get 1).map (·.status) = some .waiting ∧
    ((desk killedInTurn).kernel.record (envOf 1).invocationUuid).map (·.status) = some .idle ∧
    ((desk killedInTurn).kernel.restart.restoreInterruptedAgents deskExternals.toExternals ⟨0⟩
      false (envOf 1).storeFails).tasks.lookup 1 ≠ none ∧
    (∃ call kill start call', ((desk (killedInTurn ++ nextGoal)).executors.lookup 1).map (·.log) =
      some [.llmCall call, .took ⟨1, .kill, kill⟩, .took ⟨1, .start, start⟩, .llmCall call']) ∧
    (∃ t, (desk killedIdle).executors.lookup 1 = some t ∧ t.tookKill = true ∧ Rests t) ∧
    ((desk killedIdle).kernel.processTable.get 1).map (·.status) = some .waiting ∧
    ((desk killedIdle).kernel.record (envOf 1).invocationUuid).map (·.status) = some .idle :=
  ⟨⟨_, rfl, rfl, rfl⟩, rfl, rfl, nofun, ⟨_, _, _, _, rfl⟩, ⟨_, rfl, rfl, trivial⟩, rfl, rfl⟩

end Avix.Security
