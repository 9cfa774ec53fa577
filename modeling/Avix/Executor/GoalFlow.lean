/-
  The way of a goal through an executor (`executor/runtime_executor.rs`,
  `executor/runtime_executor/dispatch_manager.rs`, `bootstrap/executor_factory.rs`).

  A goal comes as a SIGSTART and waits in the signal channel (`queued`). `wait_for_next_goal`
  takes it, and until `run_with_client` is called the turn loop has it in hand (`current`). All
  other places that take a signal from the channel ignore a SIGSTART.

  * `goalMove_step`: what a step does with the goals of an executor, if it `KeepsGoals`.
-/
import Avix.Executor.TurnLoop

namespace Avix

open Lib

/-- The goal a SIGSTART brings. -/
def Signal.goal? (sig : Signal) : Option String :=
  if sig.kind = .start then some (((sig.payload.index "goal").asStr).getD "") else none

namespace ExecutorTask

/-! ## Goals in the channel and in hand -/

variable {D : Type} {x : ExecutorExternals D} {env : TurnEnv} {t : ExecutorTask}

/-- The goals that wait in the channel. -/
def queued (t : ExecutorTask) : List String := t.signalRx.filterMap Signal.goal?

/-- The goal that the turn loop has and that is not run yet. -/
def current (t : ExecutorTask) : Option String :=
  match t.pc with
  | .starting => if t.params.restoreFromPid.isSome then none else some t.params.goal
  | .settingRunning goal => some goal
  | .recordGoal goal => some goal
  | _ => none

/-- The goal `run_with_client` is called with in the next step. -/
def begins (t : ExecutorTask) : Option String :=
  match t.pc with
  | .settingRunning goal => some goal
  | _ => none

/-- The goal that the executor has recorded, where `ran` are the goals it has run. -/
def announced (t : ExecutorTask) (ran : List String) : Option String :=
  match t.pc with
  | .starting => some t.params.goal
  | .settingRunning goal => some goal
  | _ => ran.getLast?

/-- The turn loop has no goal in hand. -/
def EmptyHanded (t : ExecutorTask) : Prop :=
  match t.pc with
  | .starting => False
  | .settingRunning _ => False
  | .recordGoal _ => False
  | _ => True

theorem EmptyHanded.current (h : t.EmptyHanded) : t.current = none := by
  unfold EmptyHanded at h
  unfold ExecutorTask.current
  cases hpc : t.pc <;> simp_all

theorem EmptyHanded.begins (h : t.EmptyHanded) : t.begins = none := by
  unfold EmptyHanded at h
  unfold ExecutorTask.begins
  cases hpc : t.pc <;> simp_all

theorem EmptyHanded.announced (h : t.EmptyHanded) (ran : List String) :
    t.announced ran = ran.getLast? := by
  unfold EmptyHanded at h
  unfold ExecutorTask.announced
  cases hpc : t.pc <;> simp_all

variable {rest : List Signal} {sig : Signal}

theorem queued_of_cons (hrx : t.signalRx = sig :: rest) :
    t.queued = sig.goal?.toList ++ rest.filterMap Signal.goal? := by
  unfold queued
  rw [hrx, List.filterMap_cons]
  cases sig.goal? <;> rfl

/-! ## Steps -/

/-- What is asked of a step, so that no goal is lost in it: the executor can be built; a SIGSTART
    is taken by `wait_for_next_goal` only, and the first one after a restore brings the old goal;
    the database does not fail when a goal is recorded. -/
structure KeepsGoals (t : ExecutorTask) (env : TurnEnv) : Prop where
  starts : t.pc = .starting → env.spawnFails = false
  waits : ∀ sig goal, t.takes env = some sig → sig.goal? = some goal →
    ∃ reason, t.pc = .waiting reason ∧ (reason = .restored → goal = t.executor.goal)
  stores : ∀ goal, t.pc = .recordGoal goal → env.storeFails = false

/-- A step that has nothing to do with goals, by its result. -/
structure Spares (t : ExecutorTask) (result : ExecutorTask × ExecutorEffect) : Prop where
  after : result.1.EmptyHanded
  goal : result.1.executor.goal = t.executor.goal
  queued : result.1.queued = t.queued
  effect : ∀ goal, result.2 ≠ .updateGoal goal

/-- The ways a step can change what goals an executor has. -/
inductive GoalMove (t : ExecutorTask) (result : ExecutorTask × ExecutorEffect) : Prop
  | start (before : t.pc = .starting) (new : t.params.restoreFromPid.isSome = false)
      (after : result.1.pc = .settingRunning t.params.goal)
      (goal : result.1.executor.goal = t.executor.goal) (queued : result.1.queued = t.queued)
      (effect : ∀ goal, result.2 ≠ .updateGoal goal)
  | restore (before : t.pc = .starting) (old : t.params.restoreFromPid.isSome = true)
      (spares : Spares t result)
  | run (goal : String) (before : t.pc = .settingRunning goal) (spares : Spares t result)
  | take (goal : String) (before : t.EmptyHanded)
      (after : result.1.pc = .recordGoal goal ∨
        result.1.pc = .settingRunning goal ∧ goal = t.executor.goal)
      (same : result.1.executor.goal = t.executor.goal)
      (queued : t.queued = goal :: result.1.queued)
      (effect : ∀ goal, result.2 ≠ .updateGoal goal)
  | record (goal : String) (before : t.pc = .recordGoal goal)
      (after : result.1.pc = .settingRunning goal) (recorded : result.1.executor.goal = goal)
      (queued : result.1.queued = t.queued) (effect : result.2 = .updateGoal goal)
  | other (before : t.EmptyHanded) (spares : Spares t result)

/-- Where a task stays, it has no goal in hand. -/
theorem emptyHanded_of_stays (h : t.Stays) : t.EmptyHanded := by
  unfold Stays at h
  unfold EmptyHanded
  cases hpc : t.pc <;> simp_all

/-- A signal that is no SIGSTART brings no goal. -/
theorem spares_of_signal {result : ExecutorTask × ExecutorEffect} (hrx : t.signalRx = sig :: rest)
    (hsig : sig.goal? = none) (hafter : result.1.EmptyHanded)
    (hexec : result.1.executor.goal = (t.handled sig).1.goal) (hrest : result.1.signalRx = rest)
    (heff : result.2 = (t.handled sig).2) : Spares t result := by
  obtain ⟨⟨_, _, _, _, heq⟩, hgoals⟩ := t.handled_eq sig
  refine ⟨hafter, by rw [hexec, heq], ?_, heff ▸ hgoals⟩
  rw [queued_of_cons hrx, hsig, queued, hrest]
  rfl

theorem StepsTo.goalMove {taken : Option Signal} {r : ExecutorTask × ExecutorEffect}
    (h : StepsTo x env t taken r) (hkeeps : t.KeepsGoals env) (htaken : t.takes env = taken) :
    GoalMove t r := by
  -- a SIGSTART that is taken is taken in the wait for the next goal
  have hsign : ∀ {sig}, t.takes env = some sig → (∀ reason, t.pc = .waiting reason →
      sig.kind ≠ .start) → sig.goal? = none := by
    intro sig htakes hpc
    by_contra hsome
    obtain ⟨goal, hgoal⟩ := Option.ne_none_iff_exists'.mp hsome
    obtain ⟨reason, hwait, -⟩ := hkeeps.waits sig goal htakes hgoal
    exact hsome (if_neg (hpc reason hwait))
  have hplain : ∀ {pc}, t.pc = pc → ({ t with pc } : ExecutorTask).EmptyHanded → t.EmptyHanded := by
    rintro pc rfl hempty
    exact hempty
  have hrenew : (t.executor.maybeRenewToken x env.now env.later env.uuid).goal =
      t.executor.goal := by
    obtain ⟨token, heq⟩ := t.executor.maybeRenewToken_eq x env.now env.later env.uuid
    rw [heq]
  cases h with
  | crashes hpc hfails =>
    rw [hkeeps.starts hpc] at hfails
    cases hfails
  | restores hpc hold => exact .restore hpc hold ⟨trivial, rfl, rfl, nofun⟩
  | launches hpc hnew => exact .start hpc hnew rfl rfl rfl nofun
  | begins hpc => exact .run _ hpc ⟨trivial, rfl, rfl, nofun⟩
  | records hpc => exact .record _ hpc rfl rfl rfl rfl
  | @takesGoal reason sig rest hrx hpc hstart =>
    -- the goal goes from the channel to the turn loop
    have hsig : sig.goal? = some (((sig.payload.index "goal").asStr).getD "") := if_pos hstart
    have hque := queued_of_cons hrx
    rw [hsig] at hque
    obtain ⟨⟨_, _, _, _, heq⟩, -⟩ := t.handled_eq sig
    have hgoal : (t.handled sig).1.goal = t.executor.goal := by rw [heq]
    obtain ⟨reason', hwait, hsame⟩ := hkeeps.waits sig _ htaken hsig
    obtain rfl := TurnPc.waiting.inj (hpc.symm.trans hwait)
    have ht := hplain hpc trivial
    cases reason with
    | restored => exact .take _ ht (.inr ⟨rfl, hsame rfl⟩) hgoal hque nofun
    | _ => exact .take _ ht (.inl rfl) hgoal hque nofun
  | @stopsWaiting reason sig rest hrx hpc hstart =>
    refine .other (hplain hpc trivial) ?_
    cases reason <;> exact spares_of_signal hrx (if_neg hstart) trivial rfl rfl rfl
  | dies hrx hstays hpc =>
    exact .other (emptyHanded_of_stays hstays) (spares_of_signal hrx
      (hsign htaken fun reason hwait => absurd hwait (hpc reason)) trivial rfl rfl rfl)
  | heeds hrx hstays hstart =>
    have ht := emptyHanded_of_stays hstays
    exact .other ht (spares_of_signal hrx (hsign htaken hstart) ht rfl rfl rfl)
  | unpauses hrx hpc | retries hrx hpc =>
    exact .other (hplain hpc trivial) (spares_of_signal hrx
      (hsign htaken (by rw [hpc]; nofun)) trivial rfl rfl rfl)
  | rests hstays _ _ =>
    have ht := emptyHanded_of_stays hstays
    exact .other ht ⟨ht, rfl, rfl, nofun⟩
  | passes hpc h =>
    cases h <;> exact .other (hplain hpc trivial) ⟨trivial, rfl, rfl, nofun⟩
  | expires hpc _ | iterates hpc => exact .other (hplain hpc trivial) ⟨trivial, hrenew, rfl, nofun⟩
  | drained hpc =>
    refine .other (hplain hpc trivial) ⟨?_, rfl, rfl, nofun⟩
    dsimp only [goto]
    split_ifs <;> trivial
  | @dispatches _ _ call _ toolBudgets _ _ hpc _ _ _ =>
    obtain ⟨_, _, _, _, heq⟩ := t.dispatch_eq x env toolBudgets call
    exact .other (hplain hpc trivial) ⟨trivial, by dsimp only; rw [heq], rfl, nofun⟩
  | _ =>
    have ht := hplain ‹t.pc = _›
    exact .other (ht trivial) ⟨trivial, rfl, rfl, nofun⟩

theorem goalMove_step (h : t.KeepsGoals env) : GoalMove t (t.step x env) :=
  stepsTo_step.goalMove h rfl

end ExecutorTask

end Avix
