/-
  PROTOCOL — the flags of an executor and the signals delivered to it.

  `signal_state`: in every run of deliveries and steps of the executor:
  * once a Kill or Stop has been delivered, `killed` is set and stays set;
  * if `KeepsUp` holds of the steps, then whenever the channel is empty and no delivery is under
    way, `paused` is set exactly when the last Pause or Resume delivered was a Pause.

  A signal sets its flag when it is delivered and again when the executor takes it from the
  channel. `KeepsUp` asks that a Pause or Resume that does not fit into the channel finds no
  opposite one waiting last in it. Otherwise the older one is handled later and wins
  (`stale_pause_wins`).

  What carries the second part is `settled_step`. In every run the signals are taken in the order of
  their delivery (`signals_in_order`).
-/
import Avix.Executor.DeliverSignal
import Avix.Lib.LastWrite
import Avix.Security.KilledStaysDead

namespace Avix.Protocol

open Lib Option SignalledTask

section SignalState

variable {D : Type} {x : ExecutorExternals D} {s : SignalledTask}

/-! ## Statement -/

/-- The value of `paused` after the waiting signals have been handled, from `b`. -/
def afterChannel (b : Bool) (t : ExecutorTask) : Bool :=
  lastWrite (fun sig : Signal => sig.kind.suspends) b t.signalRx

/-- A delivered Pause or Resume finds room in the channel, or no opposite signal last in it. -/
def KeepsUp (s : SignalledTask) : SignalInput → Prop
  | .deliver signal => s.task.signalRx.length < signalCapacity ∨
      ∀ b, (SignalKind.ofName signal).suspends = some b → afterChannel b s.task = b
  | _ => True

/-- `b` is what the last Pause or Resume delivered asks for. -/
def LastDelivered (delivered : List SignalKind) (b : Bool) : Prop :=
  (delivered.filterMap SignalKind.suspends).getLast? = some b

/-! ## `killed` -/

/-- A delivered Kill or Stop has set its flag or is about to. -/
def KillKept (s : SignalledTask) : Prop :=
  (∃ kind ∈ s.delivered, kind.ends = true) →
    s.task.executor.killed = true ∨ ∃ kind, s.storing = some kind ∧ kind.ends = true

theorem killKept_deliver (h : KillKept s) (signal : String) :
    KillKept (s.step x (.deliver signal)) := by
  unfold step
  cases hstor : s.storing with
  | some kind =>
    dsimp only
    exact h
  | none =>
    dsimp only
    rintro ⟨kind, hmem, hends⟩
    rcases List.mem_append.mp hmem with hold | hnew
    · -- no call was under way, so the flag was set before
      rcases h ⟨kind, hold, hends⟩ with hkill | ⟨k, hk, -⟩
      · refine .inl ?_
        unfold ExecutorTask.trySend
        split_ifs <;> exact hkill
      · rw [hstor] at hk
        cases hk
    · rw [List.mem_singleton.mp hnew] at hends
      exact .inr ⟨_, rfl, hends⟩

theorem killKept_store (h : KillKept s) : KillKept (s.step x .store) := by
  unfold step
  cases hstor : s.storing with
  | none => exact h
  | some kind =>
    dsimp only
    intro hmem
    have hflags := s.task.executor.flagsAfter_setFlags kind
    refine .inl (hflags.2.trans ?_)
    rcases h hmem with hkill | ⟨k, hk, hends⟩
    · rw [hkill, Bool.or_true]
    · rw [hstor] at hk
      rw [some.inj hk, hends, Bool.true_or]

theorem killKept_executor (h : KillKept s) (env : TurnEnv) : KillKept (s.step x (.step env)) := by
  intro hmem
  refine (h hmem).imp (fun hkill => ?_) id
  obtain ⟨taken, hdra⟩ : ∃ taken, s.task.Drained (s.task.step x env).1 taken :=
    ⟨_, ExecutorTask.drained_step⟩
  cases hdra with
  | nothing hrx hflags => exact hflags.2.1.trans hkill
  | signal sig hrx hflags => exact hflags.2.trans (by rw [hkill, Bool.or_true])

theorem killKept_step (s : SignalledTask) (input : SignalInput) (h : KillKept s) :
    KillKept (s.step x input) := by
  cases input with
  | deliver signal => exact killKept_deliver h signal
  | store => exact killKept_store h
  | step env => exact killKept_executor h env

/-! ## `paused` -/

/-- The value delivered last is the one the flag ends up with: during a call that writes it,
    because the call will, and otherwise from the flag as it is. -/
def Settled (s : SignalledTask) : Prop :=
  match s.storing.bind SignalKind.suspends with
  | some b => lastWrite SignalKind.suspends false s.delivered = b ∧ afterChannel b s.task = b
  | none => afterChannel s.task.executor.paused s.task =
      lastWrite SignalKind.suspends false s.delivered

theorem afterChannel_trySend (b : Bool) (t : ExecutorTask) (sig : Signal) :
    afterChannel b (t.trySend sig) =
      if t.signalRx.length < signalCapacity then sig.kind.suspends.getD (afterChannel b t)
      else afterChannel b t := by
  unfold ExecutorTask.trySend afterChannel
  split_ifs
  · rw [lastWrite_concat]
  · rfl

theorem settled_deliver (h : Settled s) {signal : String} (hroom : KeepsUp s (.deliver signal)) :
    Settled (s.step x (.deliver signal)) := by
  unfold step
  cases hstor : s.storing with
  | some kind =>
    dsimp only
    exact h
  | none =>
    unfold Settled at h ⊢
    rw [hstor] at h
    dsimp only [bind_some, bind_none] at h ⊢
    cases hkind : (SignalKind.ofName signal).suspends with
    | some b =>
      dsimp only
      rw [lastWrite_concat, hkind, afterChannel_trySend]
      refine ⟨rfl, ?_⟩
      split_ifs with hlt
      · exact congrArg (getD · _) hkind
      · exact hroom.resolve_left hlt b hkind
    | none =>
      dsimp only
      rw [lastWrite_concat, hkind, afterChannel_trySend, getD_none, ← h]
      have hpaus : ∀ t : ExecutorTask, ∀ sig, (t.trySend sig).executor = t.executor := by
        intro t sig
        unfold ExecutorTask.trySend
        split_ifs <;> rfl
      rw [hpaus, hkind, getD_none, ite_self]

theorem settled_store (h : Settled s) : Settled (s.step x .store) := by
  unfold step
  cases hstor : s.storing with
  | none =>
    dsimp only
    exact h
  | some kind =>
    have hflags := s.task.executor.flagsAfter_setFlags kind
    unfold Settled at h ⊢
    rw [hstor, bind_some] at h
    dsimp only [bind_none]
    rw [hflags.1]
    cases hkind : kind.suspends with
    | some b =>
      rw [hkind] at h
      exact h.2.trans h.1.symm
    | none =>
      rw [hkind] at h
      exact h

theorem settled_executor (h : Settled s) (env : TurnEnv) : Settled (s.step x (.step env)) := by
  obtain ⟨taken, hdra⟩ : ∃ taken, s.task.Drained (s.task.step x env).1 taken :=
    ⟨_, ExecutorTask.drained_step⟩
  unfold step Settled afterChannel at *
  dsimp only
  cases hdra with
  | nothing hrx hflags =>
    rw [hrx, hflags.1]
    exact h
  | signal sig hrx hflags =>
    rw [hrx] at h
    cases hstor : s.storing.bind SignalKind.suspends with
    | some b =>
      rw [hstor] at h
      exact ⟨h.1, lastWrite_tail _ h.2⟩
    | none =>
      rw [hstor] at h
      dsimp only at h ⊢
      rw [hflags.1, ← h, lastWrite_cons]

theorem settled_step (s : SignalledTask) (input : SignalInput) (h : Settled s)
    (hroom : KeepsUp s input) : Settled (s.step x input) := by
  cases input with
  | deliver signal => exact settled_deliver h hroom
  | store => exact settled_store h
  | step env => exact settled_executor h env

theorem lastWrite_eq_true_iff {delivered : List SignalKind} :
    lastWrite SignalKind.suspends false delivered = true ↔ LastDelivered delivered true := by
  unfold lastWrite LastDelivered
  cases (delivered.filterMap SignalKind.suspends).getLast? <;> simp

/-! ## Main statement -/

theorem signal_state (t : ExecutorTask) (es : List SignalInput) (hrx : t.signalRx = [])
    (hpaused : t.executor.paused = false) :
    let s := run (step x) ⟨t, none, []⟩ es
    ((∃ kind ∈ s.delivered, kind.ends = true) → s.storing = none → s.task.executor.killed = true) ∧
    (Guarded (step x) KeepsUp ⟨t, none, []⟩ es → s.storing = none →
      s.task.signalRx = [] → (s.task.executor.paused = true ↔ LastDelivered s.delivered true)) := by
  intro s
  constructor
  · intro hkill hstor
    have hkept : KillKept s := by
      refine run_invariant killKept_step ?_ es
      rintro ⟨kind, hmem, -⟩
      cases hmem
    refine (hkept hkill).resolve_right ?_
    rintro ⟨kind, hkind, -⟩
    rw [hstor] at hkind
    cases hkind
  · intro hguard hstor hempty
    have hsett : Settled s := by
      refine guarded_invariant settled_step ?_ hguard
      unfold Settled afterChannel
      dsimp only [bind_none]
      rw [hrx, hpaused]
      rfl
    unfold Settled afterChannel at hsett
    rw [hstor, hempty] at hsett
    dsimp only [bind_none] at hsett
    rw [lastWrite_nil] at hsett
    rw [hsett, lastWrite_eq_true_iff]

/-! ## The order of the signals -/

def taken? : TaskEvent → Option Signal
  | .took sig => some sig
  | _ => none

/-- The signals that the executor has taken, and then those that wait. -/
def received (t : ExecutorTask) : List Signal := t.log.filterMap taken? ++ t.signalRx

theorem received_eq {env : TurnEnv} {t : ExecutorTask} {taken : Option Signal}
    {r : ExecutorTask × ExecutorEffect} (h : t.StepsTo x env taken r) :
    received r.1 = received t := by
  have htook : ∀ {t' : ExecutorTask} {sig : Signal}, t.signalRx = sig :: t'.signalRx →
      t'.log = t.log ++ [.took sig] → received t' = received t := by
    intro t' sig hrx hlog
    simp [received, hrx, hlog, taken?]
  cases h with
  | dies hrx _ _ | heeds hrx _ _ | unpauses hrx _ | retries hrx _ => exact htook hrx rfl
  | @takesGoal reason _ _ hrx | @stopsWaiting reason _ _ hrx =>
    cases reason <;> exact htook hrx rfl
  | requests _ | dispatches _ _ _ _ => simp [received, taken?, ExecutorTask.request]
  | _ => rfl

/-- What was received was received before or delivered, in this order. -/
def SignalsInOrder (t : ExecutorTask) (s : SignalledTask) : Prop :=
  ((received s.task).map (·.kind)).Sublist ((received t).map (·.kind) ++ s.delivered)

theorem signalsInOrder_step {t : ExecutorTask} (s : SignalledTask) (e : SignalInput)
    (h : SignalsInOrder t s) : SignalsInOrder t (s.step x e) := by
  unfold SignalsInOrder step at *
  cases e with
  | deliver signal =>
    dsimp only
    split
    · exact h
    · unfold ExecutorTask.trySend
      rw [← List.append_assoc]
      split_ifs
      · simpa [received] using h.append_right [SignalKind.ofName signal]
      · exact h.trans (List.sublist_append_left _ _)
  | store =>
    dsimp only
    split <;> exact h
  | step env =>
    dsimp only
    rwa [received_eq ExecutorTask.stepsTo_step]

/-- Signals are taken in the order of their delivery, and none twice. -/
theorem signals_in_order (t : ExecutorTask) (es : List SignalInput) :
    SignalsInOrder t (run (step x) ⟨t, none, []⟩ es) :=
  run_invariant signalsInOrder_step (List.sublist_append_left _ _) es

end SignalState

/-! ## A full channel -/

open Security

/-- A call of `deliver_signal` with no step of the executor in between. -/
def delivery (signal : String) : List SignalInput := [.deliver signal, .store]

/-- Steps of the executor. -/
def takeSteps (n : Nat) : List SignalInput := List.replicate n (.step (deskEnv .signal))

/-- A Pause and a Resume are delivered and handled, then a Pause. -/
def pausedAgain : List SignalInput :=
  delivery "SIGPAUSE" ++ delivery "SIGRESUME" ++ takeSteps 2 ++ delivery "SIGPAUSE" ++ takeSteps 1

theorem pausedAgain_keepsUp :
    Guarded (SignalledTask.step deskExternals) KeepsUp ⟨leadTask, none, []⟩ pausedAgain := by
  refine ⟨.inl ?_, trivial, .inl ?_, trivial, trivial, trivial, .inl ?_, trivial, trivial,
    trivial⟩ <;> decide

theorem signal_state_paused :
    (run (SignalledTask.step deskExternals) ⟨leadTask, none, []⟩ pausedAgain).task.executor.paused =
      true :=
  ((signal_state leadTask pausedAgain rfl rfl).2 pausedAgain_keepsUp rfl
    rfl).mpr rfl

/-- A Pause and 63 Saves fill the channel, a Resume is delivered, and the executor handles what
    is in the channel. -/
def resumeDropped : List SignalInput :=
  delivery "SIGPAUSE" ++ (List.replicate 63 (delivery "SIGSAVE")).flatten ++
    delivery "SIGRESUME" ++ takeSteps 64

set_option maxRecDepth 4000 in
/-- The last signal delivered was a Resume, and the executor stays paused. -/
theorem stale_pause_wins :
    let s := run (step deskExternals) ⟨leadTask, none, []⟩ resumeDropped
    s.storing = none ∧ s.task.signalRx = [] ∧ LastDelivered s.delivered false ∧
      s.task.executor.paused = true :=
  ⟨rfl, rfl, rfl, rfl⟩

end Avix.Protocol
