/-
  Delivery of a signal to an executor (`executor/runtime_executor/dispatch_manager.rs`,
  `executor/runtime_executor.rs`).

  `deliver_signal` puts the signal into the channel of the executor, which holds 64 signals, and
  then sets the flag of the signal itself. A signal that finds the channel full is dropped from
  it. The executor handles what is in the channel in its own time.

  Model. Calls of `deliver_signal` follow one another, and between the two halves of a call the
  executor can take steps of its own. `delivered` records the calls; it is not in the source.
-/
import Avix.Executor.TurnLoop

namespace Avix

/-- The kind `deliver_signal` makes of the name of a signal. -/
def SignalKind.ofName : String → SignalKind
  | "SIGKILL" => .kill
  | "SIGSTOP" => .stop
  | "SIGPAUSE" => .pause
  | "SIGRESUME" => .resume
  | "SIGSAVE" => .save
  | "SIGPIPE" => .pipe
  | "SIGESCALATE" => .escalate
  | "SIGSTART" => .start
  | _ => .usr1

/-- What a signal writes to `paused`. -/
def SignalKind.suspends : SignalKind → Option Bool
  | .pause => some true
  | .resume => some false
  | _ => none

/-- The signal writes `killed`. -/
def SignalKind.ends : SignalKind → Bool
  | .kill => true
  | .stop => true
  | _ => false

/-- The flags `deliver_signal` sets. -/
def RuntimeExecutor.setFlags (s : RuntimeExecutor) : SignalKind → RuntimeExecutor
  | .stop => { s with killed := true }
  | .kill => { s with killed := true }
  | .pause => { s with paused := true }
  | .resume => { s with paused := false }
  | _ => s

/-- `mpsc::channel::<Signal>(64)`. -/
def signalCapacity : Nat := 64

/-- `signal_tx.try_send`, where a failure is ignored. -/
def ExecutorTask.trySend (t : ExecutorTask) (sig : Signal) : ExecutorTask :=
  if t.signalRx.length < signalCapacity then { t with signalRx := t.signalRx ++ [sig] } else t

structure SignalledTask where
  task : ExecutorTask
  /-- The call of `deliver_signal` that has not set its flag yet. -/
  storing : Option SignalKind
  delivered : List SignalKind

inductive SignalInput where
  /-- `deliver_signal`, up to `try_send`. -/
  | deliver (signal : String)
  /-- The rest of the call. -/
  | store
  /-- A step of the executor. -/
  | step (env : TurnEnv)

namespace SignalledTask

variable {D : Type} (x : ExecutorExternals D) (s : SignalledTask)

def step : SignalInput → SignalledTask
  | .deliver signal =>
    match s.storing with
    | some _ => s
    | none =>
      let kind := SignalKind.ofName signal
      { task := s.task.trySend ⟨s.task.executor.pid, kind, .null⟩
        storing := some kind
        delivered := s.delivered ++ [kind] }
  | .store =>
    match s.storing with
    | some kind =>
      { s with
        task := { s.task with executor := s.task.executor.setFlags kind }
        storing := none }
    | none => s
  | .step env => { s with task := (s.task.step x env).1 }

end SignalledTask

/-! ## What a step of the executor does to its flags and its channel -/

namespace RuntimeExecutor

/-- The same flags, and the same limit on the tool calls of a turn. -/
def SameControls (s s' : RuntimeExecutor) : Prop :=
  s'.paused = s.paused ∧ s'.killed = s.killed ∧ s'.maxToolChainLength = s.maxToolChainLength

variable (s : RuntimeExecutor)

/-- The flags after a signal of this kind has been handled. -/
def FlagsAfter (s s' : RuntimeExecutor) (kind : SignalKind) : Prop :=
  s'.paused = kind.suspends.getD s.paused ∧ s'.killed = (kind.ends || s.killed)

theorem flagsAfter_setFlags (kind : SignalKind) : FlagsAfter s (s.setFlags kind) kind := by
  cases kind <;> exact ⟨rfl, rfl⟩

theorem flagsAfter_handleSignalBetweenTurns (sig : Signal) :
    FlagsAfter s (s.handleSignalBetweenTurns sig).1 sig.kind := by
  unfold handleSignalBetweenTurns
  cases sig.kind <;> exact ⟨rfl, rfl⟩

theorem flagsAfter_handleSignalDuringLlm (sig : Signal) :
    FlagsAfter s (s.handleSignalDuringLlm sig).1 sig.kind := by
  unfold handleSignalDuringLlm
  cases sig.kind <;> exact ⟨rfl, rfl⟩

end RuntimeExecutor

namespace ExecutorTask

open RuntimeExecutor

/-- `t'` is the task after a step that has taken the signal `taken` from the channel. -/
inductive Drained (t t' : ExecutorTask) : Option Signal → Prop
  | nothing (hrx : t'.signalRx = t.signalRx) (hflags : SameControls t.executor t'.executor) :
      Drained t t' none
  | signal (sig : Signal) (hrx : t.signalRx = sig :: t'.signalRx)
      (hflags : FlagsAfter t.executor t'.executor sig.kind) : Drained t t' (some sig)

variable {D : Type} {x : ExecutorExternals D} {env : TurnEnv} {t : ExecutorTask}

theorem flagsAfter_handled (t : ExecutorTask) (sig : Signal) :
    FlagsAfter t.executor (t.handled sig).1 sig.kind := by
  unfold handled
  split
  · exact flagsAfter_handleSignalDuringLlm t.executor sig
  · exact flagsAfter_handleSignalBetweenTurns t.executor sig

theorem StepsTo.toDrained {taken : Option Signal} {r : ExecutorTask × ExecutorEffect}
    (h : StepsTo x env t taken r) : Drained t r.1 taken := by
  have hrenew : SameControls t.executor
      (t.executor.maybeRenewToken x env.now env.later env.uuid) := by
    obtain ⟨token, heq⟩ := t.executor.maybeRenewToken_eq x env.now env.later env.uuid
    rw [heq]
    exact ⟨rfl, rfl, rfl⟩
  cases h with
  | @dies sig _ _ hrx _ _ | @heeds sig _ hrx _ _ | @unpauses _ sig _ hrx _
  | @retries _ sig _ hrx _ => exact .signal sig hrx (t.flagsAfter_handled sig)
  | @takesGoal reason sig _ hrx _ _ | @stopsWaiting reason sig _ hrx _ _ =>
    cases reason <;> exact .signal sig hrx (t.flagsAfter_handled sig)
  | expires _ _ | iterates _ => exact .nothing rfl hrenew
  | @dispatches _ _ call _ toolBudgets _ _ _ _ _ _ =>
    obtain ⟨_, _, _, _, heq⟩ := t.dispatch_eq x env toolBudgets call
    refine .nothing rfl ?_
    dsimp only
    rw [heq]
    exact ⟨rfl, rfl, rfl⟩
  | _ => exact .nothing rfl ⟨rfl, rfl, rfl⟩

/-- The flags and the channel change only by the signal a step takes. -/
theorem drained_step : Drained t (t.step x env).1 (t.takes env) := stepsTo_step.toDrained

end ExecutorTask

end Avix
