/-
  PROTOCOL — the budget of a tool and its calls (`executor/validation.rs` and the tool loop of
  `executor/runtime_executor/dispatch_manager.rs`).

  A call that passes `validate_tool_call` takes one from the budget of its tool, if it has one.
  Then comes the gate for tools that need a human: a call that it stops is not dispatched, and
  nothing gives back what it took.

  `tool_budget_conserved_iff`: in every run of an executor, over any number of turns and
  with any signals, a tool with a budget is dispatched at most as often as the budget says; and
  the budget it had is what is left plus the calls dispatched exactly when the gate has stopped
  no call of the tool that had passed the check.

  Otherwise see `stopped_call_spends_budget`. The account of a tool is what is left of its budget
  plus its dispatches. One step never raises it and lowers it exactly if the gate stops a call
  (`account_step`).
-/
import Avix.Executor.DeliverSignal
import Avix.Security.KilledStaysDead

namespace Avix.Protocol

open Lib SignalledTask

/-! ## Budgets and dispatches -/

def isDispatchOf (tool : String) : TaskEvent → Bool
  | .toolDispatch call => call.name = tool
  | _ => false

/-- How often a tool has been dispatched. -/
def dispatchesOf (tool : String) (log : List TaskEvent) : ℕ := log.countP (isDispatchOf tool)

/-- What is left of the budget of a tool that has one. -/
def budgetOf (tool : String) (t : ExecutorTask) : Option UInt32 :=
  t.executor.toolBudgets.remaining tool

/-- The next call of a task, if it is in the loop over the calls of a response. -/
def nextCall (t : ExecutorTask) : Option AvixToolCall :=
  match t.pc with
  | .tools _ round => round.calls.head?
  | _ => none

/-- The gate for tools that need a human lets no call of this tool through. -/
def GateCloses (t : ExecutorTask) (call : AvixToolCall) : Prop :=
  call.name ∈ t.executor.hilRequiredTools ∧ t.executor.kernel ≠ some true

/-- A call of the tool passes the check and is then stopped by the gate. -/
def GateStops (tool : String) (t : ExecutorTask) (env : TurnEnv) : Prop :=
  ∃ call, nextCall t = some call ∧ call.name = tool ∧
    (validateToolCall env.now t.executor.token call t.executor.toolBudgets).2 = .ok () ∧
    GateCloses t call

/-- No step of the run loses a call of the tool at the gate. -/
def PassesGate (tool : String) (s : SignalledTask) : SignalInput → Prop
  | .step env => ¬GateStops tool s.task env
  | _ => True

/-- What is left of the budget plus the dispatches. -/
def account (tool : String) (t : ExecutorTask) : ℕ :=
  ((budgetOf tool t).map UInt32.toNat).getD 0 + dispatchesOf tool t.log

/-! ## What a step does to the budgets -/

structure KeepsBudgets (t t' : ExecutorTask) : Prop where
  budgets : t'.executor.toolBudgets = t.executor.toolBudgets
  dispatches : ∀ tool, dispatchesOf tool t'.log = dispatchesOf tool t.log

/-- A step leaves the budgets, or works off a call: it is refused, stopped at the gate or
    dispatched. -/
inductive BudgetMove (env : TurnEnv) (t t' : ExecutorTask) : Prop
  | keep (hcall : nextCall t = none) (hkeeps : KeepsBudgets t t')
  | refuse {call : AvixToolCall} {e : AvixError} (hcall : nextCall t = some call)
      (hcheck : validateToolCall env.now t.executor.token call t.executor.toolBudgets =
        (t'.executor.toolBudgets, .error e)) (hlog : t'.log = t.log)
  | stop {call : AvixToolCall} (hcall : nextCall t = some call)
      (hcheck : validateToolCall env.now t.executor.token call t.executor.toolBudgets =
        (t'.executor.toolBudgets, .ok ())) (hcloses : GateCloses t call) (hlog : t'.log = t.log)
  | dispatch {call : AvixToolCall} (hcall : nextCall t = some call)
      (hcheck : validateToolCall env.now t.executor.token call t.executor.toolBudgets =
        (t'.executor.toolBudgets, .ok ())) (hopen : ¬GateCloses t call)
      (hlog : t'.log = t.log ++ [.toolDispatch call])

section Task

variable {D : Type} {x : ExecutorExternals D} {env : TurnEnv} {t : ExecutorTask}

theorem dispatchesOf_append (tool : String) (log : List TaskEvent) (e : TaskEvent) :
    dispatchesOf tool (log ++ [e]) =
      dispatchesOf tool log + if isDispatchOf tool e then 1 else 0 := by
  rw [dispatchesOf, List.countP_append, List.countP_singleton]
  rfl

variable {call : AvixToolCall} {tool : String} {t' : ExecutorTask} {budgets : ToolBudgets}
  {b : UInt32}

section

variable (hbudgets : t'.executor.toolBudgets = t.executor.toolBudgets)

include hbudgets

theorem KeepsBudgets.of_eq (hlog : t'.log = t.log) :
    KeepsBudgets t t' := ⟨hbudgets, fun tool => by rw [hlog]⟩

theorem KeepsBudgets.of_append {e : TaskEvent} (hlog : t'.log = t.log ++ [e])
    (he : ∀ call, e ≠ .toolDispatch call) : KeepsBudgets t t' := by
  refine ⟨hbudgets, fun tool => ?_⟩
  rw [hlog, dispatchesOf_append]
  cases e with
  | toolDispatch call => exact absurd rfl (he call)
  | took sig | llmCall messages => rfl

end

theorem nextCall_of_stays (h : t.Stays) : nextCall t = none := by
  unfold ExecutorTask.Stays at h
  unfold nextCall
  cases hpc : t.pc <;> simp_all

theorem nextCall_of_cons {turn : Turn} {round : ToolRound} {rest : List AvixToolCall}
    (hpc : t.pc = .tools turn round) (hcalls : round.calls = call :: rest) :
    nextCall t = some call := by
  rw [nextCall, hpc]
  dsimp only
  rw [hcalls, List.head?_cons]

theorem budgetMove_stepsTo {taken : Option Signal} {r : ExecutorTask × ExecutorEffect}
    (h : ExecutorTask.StepsTo x env t taken r) : BudgetMove env t r.1 := by
  have hrenew : (t.executor.maybeRenewToken x env.now env.later env.uuid).toolBudgets =
      t.executor.toolBudgets := by
    obtain ⟨token, heq⟩ := t.executor.maybeRenewToken_eq x env.now env.later env.uuid
    rw [heq]
  have hhand : ∀ sig, (t.handled sig).1.toolBudgets = t.executor.toolBudgets := by
    intro sig
    obtain ⟨⟨_, _, _, _, heq⟩, -⟩ := t.handled_eq sig
    rw [heq]
  have hpcs : ∀ {pc}, t.pc = pc → nextCall ({ t with pc } : ExecutorTask) = none →
      nextCall t = none := by
    rintro pc rfl hnone
    exact hnone
  cases h with
  | expires hpc _ | iterates hpc => exact .keep (hpcs hpc rfl) (.of_eq hrenew rfl)
  | rests hstays _ _ => exact .keep (nextCall_of_stays hstays) (.of_eq rfl rfl)
  | dies _ hstays _ | heeds _ hstays _ =>
    exact .keep (nextCall_of_stays hstays) (.of_append (hhand _) rfl nofun)
  | unpauses _ hpc | retries _ hpc => exact .keep (hpcs hpc rfl) (.of_append (hhand _) rfl nofun)
  | @takesGoal reason sig _ _ hpc _ | @stopsWaiting reason sig _ _ hpc _ =>
    cases reason <;> exact .keep (hpcs hpc rfl) (.of_append (hhand sig) rfl nofun)
  | requests hpc => exact .keep (hpcs hpc rfl) (.of_append rfl rfl nofun)
  | endsRound hpc hcalls =>
    refine .keep ?_ (.of_eq rfl rfl)
    rw [nextCall, hpc]
    dsimp only
    rw [hcalls, List.head?_nil]
  | refuses hpc hcalls hcheck => exact .refuse (nextCall_of_cons hpc hcalls) hcheck rfl
  | gates hpc hcalls hcheck hhil hkern =>
    exact .stop (nextCall_of_cons hpc hcalls) hcheck ⟨hhil, hkern⟩ rfl
  | @dispatches _ _ call _ toolBudgets _ _ hpc hcalls hcheck hopen =>
    obtain ⟨_, _, _, _, heq⟩ := t.dispatch_eq x env toolBudgets call
    refine .dispatch (nextCall_of_cons hpc hcalls) ?_ (fun h => h.2 (hopen h.1)) rfl
    dsimp only
    rw [heq]
    exact hcheck
  | passes hpc hpass => cases hpass <;> exact .keep (hpcs hpc rfl) (.of_eq rfl rfl)
  | _ =>
    have hnone := hpcs ‹t.pc = _›
    exact .keep (hnone rfl) (.of_eq rfl rfl)

/-! ## A tool call -/

variable (x env)

theorem remaining_decrement {name : String} {r : UInt32} (hr : budgets.remaining name = some r)
    (hpos : r ≠ 0) (tool : String) (b : UInt32) (hb : budgets.remaining tool = some b) :
    ∃ b', (budgets.decrement name).remaining tool = some b' ∧
      b.toNat = b'.toNat + if name = tool then 1 else 0 := by
  unfold ToolBudgets.remaining at hr hb
  unfold ToolBudgets.remaining ToolBudgets.decrement
  rw [hr]
  dsimp only
  rw [if_neg hpos, HashMap.lookup_insert_eq_ite]
  by_cases htool : name = tool
  · subst htool
    obtain rfl := Option.some.inj (hr.symm.trans hb)
    refine ⟨r - 1, if_pos rfl, ?_⟩
    have hone : 1 ≤ r.toNat := Nat.one_le_iff_ne_zero.mpr fun h => hpos (UInt32.toNat.inj h)
    have hle : (1 : UInt32) ≤ r := UInt32.le_iff_toNat_le.mpr hone
    rw [if_pos rfl, UInt32.toNat_sub_of_le _ _ hle]
    exact (Nat.sub_add_cancel hone).symm
  · exact ⟨b, by rw [if_neg (Ne.symm htool), hb], by rw [if_neg htool, Nat.add_zero]⟩

variable {token : CapabilityToken} {spent : ToolBudgets} {now : DateTime}

theorem toolBudgets_of_refused {e : AvixError}
    (h : validateToolCall now token call budgets = (spent, .error e)) : spent = budgets := by
  unfold validateToolCall at h
  split_ifs at h
  · exact (Prod.mk.inj h).1.symm
  · exact (Prod.mk.inj h).1.symm
  split at h
  · split_ifs at h
    · exact (Prod.mk.inj h).1.symm
    · cases h
  · cases h

/-- A call that passes takes one from the budget of its tool. -/
theorem remaining_of_valid (h : validateToolCall now token call budgets = (spent, .ok ()))
    (hb : budgets.remaining tool = some b) :
    ∃ b', spent.remaining tool = some b' ∧
      b.toNat = b'.toNat + if call.name = tool then 1 else 0 := by
  unfold validateToolCall at h
  split_ifs at h
  · cases h
  · cases h
  split at h
  · next r hr =>
    split_ifs at h with hzero
    · cases h
    · rw [← (Prod.mk.inj h).1]
      exact remaining_decrement hr hzero tool b hb
  · next hnone =>
    rw [← (Prod.mk.inj h).1]
    refine ⟨b, hb, ?_⟩
    have hother : call.name ≠ tool := by
      rintro rfl
      rw [hnone] at hb
      cases hb
    rw [if_neg hother, Nat.add_zero]

theorem account_eq (hb : budgetOf tool t = some b) :
    account tool t = b.toNat + dispatchesOf tool t.log := by
  rw [account, hb]
  rfl

theorem KeepsBudgets.account (h : KeepsBudgets t t') (tool : String) :
    account tool t' = account tool t := by
  unfold Protocol.account budgetOf
  rw [h.budgets, h.dispatches]

theorem account_step (hb : budgetOf tool t = some b) :
    (∃ b', budgetOf tool (t.step x env).1 = some b') ∧
      (GateStops tool t env ∧ account tool (t.step x env).1 + 1 = account tool t ∨
        ¬GateStops tool t env ∧ account tool (t.step x env).1 = account tool t) := by
  have hstops : ∀ {call}, nextCall t = some call → (GateStops tool t env ↔ call.name = tool ∧
      (validateToolCall env.now t.executor.token call t.executor.toolBudgets).2 = .ok () ∧
      GateCloses t call) := by
    intro call hcall
    unfold GateStops
    rw [hcall]
    simp
  have hmove : BudgetMove env t (t.step x env).1 := budgetMove_stepsTo ExecutorTask.stepsTo_step
  cases hmove with
  | keep hcall hkeeps =>
    refine ⟨⟨b, by rw [budgetOf, hkeeps.budgets]; exact hb⟩, .inr ⟨?_, hkeeps.account tool⟩⟩
    rintro ⟨call, hsome, -⟩
    rw [hcall] at hsome
    cases hsome
  | refuse hcall hcheck hlog =>
    have hkeeps : KeepsBudgets t (t.step x env).1 := .of_eq (toolBudgets_of_refused hcheck) hlog
    refine ⟨⟨b, by rw [budgetOf, hkeeps.budgets]; exact hb⟩, .inr ⟨?_, hkeeps.account tool⟩⟩
    rw [hstops hcall, hcheck]
    exact fun h => nomatch h.2.1
  | stop hcall hcheck hclos hlog =>
    obtain ⟨b', hb', hsum⟩ := remaining_of_valid hcheck hb
    refine ⟨⟨b', hb'⟩, ?_⟩
    rw [hstops hcall, hcheck, account_eq hb, account_eq hb', hsum, hlog]
    split_ifs with htool
    · exact .inl ⟨⟨htool, rfl, hclos⟩, by omega⟩
    · exact .inr ⟨fun h => htool h.1, rfl⟩
  | dispatch hcall hcheck hopen hlog =>
    obtain ⟨b', hb', hsum⟩ := remaining_of_valid hcheck hb
    refine ⟨⟨b', hb'⟩, .inr ⟨fun h => hopen ((hstops hcall).mp h).2.2, ?_⟩⟩
    rw [account_eq hb, account_eq hb', hsum, hlog, dispatchesOf_append]
    simp only [isDispatchOf, decide_eq_true_eq]
    omega

/-! ## Runs -/

theorem keepsBudgets_signal (s : SignalledTask) {input : SignalInput}
    (h : ∀ env, input ≠ .step env) : KeepsBudgets s.task (s.step x input).task := by
  cases input with
  | step env => exact absurd rfl (h env)
  | deliver signal =>
    unfold step
    dsimp only
    split
    · exact .of_eq rfl rfl
    unfold ExecutorTask.trySend
    dsimp only
    split_ifs <;> exact .of_eq rfl rfl
  | store =>
    unfold step
    dsimp only
    split
    · next kind _ => cases kind <;> exact .of_eq rfl rfl
    · exact .of_eq rfl rfl

theorem budget_step (s : SignalledTask) (input : SignalInput)
    (h : ∃ b, budgetOf tool s.task = some b) :
    (∃ b, budgetOf tool (s.step x input).task = some b) ∧
      account tool (s.step x input).task ≤ account tool s.task ∧
      (account tool (s.step x input).task = account tool s.task ↔ PassesGate tool s input) := by
  obtain ⟨b, hb⟩ := h
  have hsign : (∀ env, input ≠ .step env) → (∃ b, budgetOf tool (s.step x input).task = some b) ∧
        account tool (s.step x input).task = account tool s.task := by
    intro hinput
    have hkeeps := keepsBudgets_signal x s hinput
    exact ⟨⟨b, by rw [budgetOf, hkeeps.budgets]; exact hb⟩, hkeeps.account tool⟩
  cases input with
  | step env =>
    obtain ⟨hbudg, ⟨hstops, hacc⟩ | ⟨hpass, hacc⟩⟩ := account_step x env hb
    · refine ⟨hbudg, ?_, ?_⟩
      · exact Nat.le_of_succ_le (Nat.le_of_eq hacc)
      · exact iff_of_false (fun heq => by
          rw [step] at heq
          dsimp only at heq
          omega) (not_not_intro hstops)
    · exact ⟨hbudg, Nat.le_of_eq hacc, iff_of_true hacc hpass⟩
  | _ =>
    obtain ⟨hbudg, hacc⟩ := hsign fun _ h => by cases h
    exact ⟨hbudg, Nat.le_of_eq hacc, iff_of_true hacc trivial⟩

end Task

section Result

variable {D : Type} (x : ExecutorExternals D)

theorem tool_budget_conserved_iff (s : SignalledTask) (es : List SignalInput) (tool : String)
    (b : UInt32) (hb : budgetOf tool s.task = some b) :
    let s' := run (step x) s es
    dispatchesOf tool s'.task.log ≤ b.toNat + dispatchesOf tool s.task.log ∧
      ((∃ left, budgetOf tool s'.task = some left ∧ b.toNat + dispatchesOf tool s.task.log =
            left.toNat + dispatchesOf tool s'.task.log) ↔
        Guarded (step x) (PassesGate tool) s es) := by
  have hbudg : ∃ left, budgetOf tool (run (step x) s es).task = some left :=
    run_invariant (fun s e h => (budget_step x s e h).1) ⟨b, hb⟩ es
  obtain ⟨hle, hiff⟩ := measure_run_eq_iff (m := fun s => account tool s.task)
    (fun s e h => (budget_step x s e h).1) (fun s e h => (budget_step x s e h).2.1)
    (fun s e h => (budget_step x s e h).2.2) ⟨b, hb⟩ es
  obtain ⟨left, hleft⟩ := hbudg
  dsimp only at hle hiff ⊢
  rw [account_eq hb, account_eq hleft] at hle
  rw [account_eq hb, account_eq hleft] at hiff
  refine ⟨by omega, ?_⟩
  rw [← hiff]
  constructor
  · rintro ⟨left', hleft', heq⟩
    obtain rfl := Option.some.inj (hleft.symm.trans hleft')
    exact heq.symm
  · exact fun heq => ⟨left, hleft, heq.symm⟩

end Result

/-! ## One call -/

open Security

/-- A call of `fs/read` waits, two calls of it are left, and some tools need a human. -/
def readCalled (hilRequiredTools : List String) : SignalledTask where
  task := { leadTask with
    executor := { readerExecutor with
      toolBudgets := AList.insert "fs/read" 2 ∅
      hilRequiredTools }
    pc := .tools ⟨[], 0⟩ ⟨[], [⟨"call-1", "fs/read", .null⟩], [], []⟩ }
  storing := none
  delivered := []

/-- A step of the executor, in which a tool succeeds. -/
def oneStep : List SignalInput := [.step (deskEnv .signal)]

theorem tool_budget_conserved_read :
    ∃ left, budgetOf "fs/read" (run (SignalledTask.step deskExternals) (readCalled [])
        oneStep).task = some left ∧
      2 + 0 = left.toNat + dispatchesOf "fs/read"
        (run (SignalledTask.step deskExternals) (readCalled []) oneStep).task.log :=
  (tool_budget_conserved_iff deskExternals (readCalled []) oneStep "fs/read" 2 rfl).2.mpr
    ⟨fun ⟨_, _, _, _, hmem, _⟩ => absurd hmem List.not_mem_nil, trivial⟩

/-- A call of a tool that needs a human takes one from the budget and is not dispatched. -/
theorem stopped_call_spends_budget :
    let s := run (step deskExternals) (readCalled ["fs/read"]) oneStep
    budgetOf "fs/read" (readCalled ["fs/read"]).task = some 2 ∧
      budgetOf "fs/read" s.task = some 1 ∧ dispatchesOf "fs/read" s.task.log = 0 :=
  ⟨rfl, rfl, rfl⟩

end Avix.Protocol
