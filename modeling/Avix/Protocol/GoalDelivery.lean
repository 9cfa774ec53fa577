/-
  PROTOCOL — goals reach their executor and are run.

  `goals_delivered`: take any run of the kernel with its executors, signals,
  `session/resume` requests and store calls, whose steps are all `GoalSafe`. Then every accepted
  goal was given to an executor, and for each executor that only waits with an empty channel
  * the goals it has run are the goals it has accepted, each once and in the same order, and
  * its goal and the goal of its invocation record are the last goal it ran.

  `GoalSafe` asks of a step that
  * a SIGSTART is taken from the channel in `wait_for_next_goal` only,
  * the first goal after a restore is the goal the executor was restored with,
  * a resume with an input finds no paused session that has agents,
  * executors can be built, `update_goal` does not fail, and no store call writes back an
    invocation record that it read before a new goal was recorded,
  * pids and invocation ids of new agents are not in use.

  Elsewhere a SIGSTART is taken and ignored, a resume of a paused session ignores its input, and a
  restored executor runs its first goal without recording it.
-/
import Avix.Kernel.SessionResume
import Avix.Security.KilledStaysDead

namespace Avix.Protocol

open KernelState hiding spawn step launch

open LiveKernel hiding step

open Lib Security ExecutorTask List Option

section Goals

variable {D : Type} {x : ExecutorExternals D} {s : GoalSystem D}

/-! ## Statement -/

/-- The goals of one executor in a log. -/
def goalsOf (p : Pid) (log : List (Pid × String)) : List String :=
  log.filterMap fun e => if e.1 = p then some e.2 else none

/-- The goal in the record of an invocation. -/
def recordedGoal (k : KernelState D) (id : String) : Option String := (k.record id).map (·.goal)

/-- The executor can do nothing until a signal comes. -/
def OnlyWaits (t : ExecutorTask) : Prop :=
  t.signalRx = [] ∧
    match t.pc with
    | .waiting _ => True
    | .pausedWait _ => True
    | _ => False

/-- What holds of the goals of an executor that only waits. -/
structure GoalsRun (s : GoalSystem D) (p : Pid) (t : ExecutorTask) : Prop where
  ran : goalsOf p s.ran = goalsOf p s.accepted
  goal : ∀ goal, (goalsOf p s.ran).getLast? = some goal → t.executor.goal = goal
  record : ∀ goal, (goalsOf p s.ran).getLast? = some goal →
    ∀ r, s.live.kernel.record t.params.invocationId = some r → r.goal = goal

/-- A new agent: an executor is launched, and pid and invocation id are not in use. -/
structure NewAgent (s : GoalSystem D) (env : SpawnEnv) : Prop where
  factory : s.live.kernel.hasFactory = true
  fresh : Fresh s.live env.pid env.invocationUuid
  record : s.live.kernel.record env.invocationUuid = none

/-- What is asked of a step, in the state it starts from. -/
def GoalSafe (s : GoalSystem D) : GoalInput → Prop
  | .kernel (.spawn _ env) => NewAgent s env
  | .kernel (.restore inv _ _) =>
    Fresh s.live inv.pid inv.id ∧ ∀ r, s.live.kernel.record inv.id = some r → r.goal = inv.goal
  | .kernel (.step pid env) => ∀ t, s.live.executors.lookup pid = some t → t.KeepsGoals env
  | .proceed call env =>
    match s.requests[call]? with
    | some (.check r) =>
      r.input.isSome → ∀ session, s.readSession env.storeFails r.sessionId = some session →
        ¬(session.status = .paused ∧ session.pids ≠ [])
    | some (.respawn _) => NewAgent s env.spawn
    | _ => True
  | .writeRecord copy _ _ =>
    ∀ r, s.copies[copy]? = some r → recordedGoal s.live.kernel r.id = some r.goal
  | _ => True

/-! ## Logs -/

@[simp]
theorem goalsOf_append (p : Pid) (log log' : List (Pid × String)) :
    goalsOf p (log ++ log') = goalsOf p log ++ goalsOf p log' := filterMap_append

theorem goalsOf_self (p : Pid) (goal : Option String) :
    goalsOf p (goal.toList.map fun goal => (p, goal)) = goal.toList := by
  cases goal with
  | none => rfl
  | some goal => simp [goalsOf]

variable {t : ExecutorTask} {result : ExecutorTask × ExecutorEffect} {live : LiveKernel D}
  {env : TurnEnv} {params : SpawnParams} {id goal : String} {p pid : Pid} {k k' : KernelState D}

theorem goalsOf_of_ne {q : Pid} (h : q ≠ p) (goal : Option String) :
    goalsOf q (goal.toList.map fun goal => (p, goal)) = [] := by
  cases goal with
  | none => rfl
  | some goal => simp [goalsOf, h.symm]

variable {f : InvocationRecord → InvocationRecord} {log : List (Pid × String)}
  {r : InvocationRecord} {s' : GoalSystem D} {ran : List String} {fails : Bool}

theorem goalsOf_eq_nil (h : ∀ e ∈ log, e.1 ≠ p) : goalsOf p log = [] := by
  refine filterMap_eq_nil_iff.mpr fun e he => ?_
  exact if_neg (h e he)

/-! ## The goal in a record -/

theorem recordedGoal_modify (fails : Bool) (id : String) (hf : ∀ r, (f r).goal = r.goal)
    (id' : String) :
    recordedGoal { k with invocationStore := k.invocationStore.map (·.modify fails id f) } id' =
      recordedGoal k id' := by
  unfold recordedGoal
  rw [k.record_modify]
  split_ifs
  · rw [Option.map_map]
    exact congrArg (Option.map · _) (funext hf)
  · rfl

theorem recordedGoal_changeInvocation (fails : Bool) (id : String) (hf : ∀ r, (f r).goal = r.goal)
    (id' : String) :
    recordedGoal (live.changeInvocation id (·.modify fails id f)).kernel id' =
      recordedGoal live.kernel id' := by
  unfold changeInvocation
  split_ifs
  · rfl
  · exact recordedGoal_modify fails id hf id'

/-- The effect of a step is on no goal, unless it records one. -/
theorem recordedGoal_apply {effect : ExecutorEffect} (heff : ∀ goal, effect ≠ .updateGoal goal)
    (id : String) :
    recordedGoal (live.apply x params env effect).kernel id = recordedGoal live.kernel id := by
  cases effect with
  | updateGoal goal => exact absurd rfl (heff goal)
  | updateStatus status =>
    exact recordedGoal_changeInvocation env.storeFails params.invocationId
      (f := fun r => { r with status }) (fun _ => rfl) id
  | finalize status exitReason =>
    exact recordedGoal_changeInvocation env.storeFails params.invocationId
      (f := fun r => { r with status, exitReason }) (fun _ => rfl) id
  | markSessionIdle =>
    unfold apply markSessionIdle
    dsimp only
    split_ifs <;> rfl
  | _ => rfl

theorem recordedGoal_updateGoal_ne (hid : id ≠ params.invocationId) (goal : String) :
    recordedGoal (live.apply x params env (.updateGoal goal)).kernel id =
      recordedGoal live.kernel id := by
  unfold apply changeInvocation
  dsimp only
  split_ifs
  · rfl
  · exact congrArg (Option.map (·.goal))
      (agrees_modify hid 0 env.storeFails fun r => { r with goal }).record

theorem recordedGoal_updateGoal_self (hfails : env.storeFails = false)
    (hnamed : params.invocationId ≠ "") {goal' : String}
    (h : recordedGoal (live.apply x params env (.updateGoal goal)).kernel params.invocationId =
      some goal') :
    goal' = goal := by
  rw [apply, changeInvocation, if_neg hnamed, hfails] at h
  have hrec := (live.kernel.record_modify false params.invocationId params.invocationId
    fun r => { r with goal }).trans (if_pos ⟨rfl, rfl⟩)
  obtain ⟨r, hr, rfl⟩ := map_eq_some_iff.mp h
  obtain ⟨r', -, rfl⟩ := map_eq_some_iff.mp (hrec.symm.trans hr)
  rfl

/-! ## The invariant -/

/-- The goals of one executor: what it has accepted is run, in hand or in the channel, and it and
    its record have the last goal. An executor without a receiver is past that. -/
structure Accounts (k : KernelState D) (accepted ran : List String) (p : Pid) (t : ExecutorTask) :
    Prop where
  pid : t.params.pid = p
  named : t.params.invocationId ≠ ""
  new : t.pc = .starting → ran = []
  flow : t.listens = true → ran ++ t.current.toList ++ t.queued = accepted
  goal : ∀ goal, t.announced ran = some goal → t.executor.goal = goal
  record : ∀ goal, recordedGoal k t.params.invocationId = some goal → goal = t.executor.goal

structure Delivers (s : GoalSystem D) : Prop where
  dropped : s.dropped = []
  accepted : ∀ e ∈ s.accepted, s.live.executors.lookup e.1 ≠ none
  ran : ∀ e ∈ s.ran, s.live.executors.lookup e.1 ≠ none
  ids : ∀ p t q u, s.live.executors.lookup p = some t → s.live.executors.lookup q = some u →
    t.params.invocationId = u.params.invocationId → p = q
  accounts : ∀ p t, s.live.executors.lookup p = some t →
    Accounts s.live.kernel (goalsOf p s.accepted) (goalsOf p s.ran) p t

theorem Accounts.of_recordedGoal {accepted : List String} (h : Accounts k accepted ran p t)
    (hk : recordedGoal k' t.params.invocationId = recordedGoal k t.params.invocationId) :
    Accounts k' accepted ran p t :=
  ⟨h.pid, h.named, h.new, h.flow, h.goal, hk ▸ h.record⟩

theorem Delivers.of_recordedGoal (h : Delivers s)
    (hexec : s'.live.executors = s.live.executors) (hacc : s'.accepted = s.accepted)
    (hran : s'.ran = s.ran) (hdrop : s'.dropped = s.dropped)
    (hk : ∀ p t, s.live.executors.lookup p = some t →
      recordedGoal s'.live.kernel t.params.invocationId =
      recordedGoal s.live.kernel t.params.invocationId) :
    Delivers s' where
  dropped := hdrop.trans h.dropped
  accepted := by
    rw [hacc, hexec]
    exact h.accepted
  ran := by
    rw [hran, hexec]
    exact h.ran
  ids := hexec ▸ h.ids
  accounts p t ht := by
    rw [hexec] at ht
    rw [hacc, hran]
    exact (h.accounts p t ht).of_recordedGoal (hk p t ht)

/-- One executor starts or goes on: it may accept a goal or run one, and the others see nothing
    of it. -/
theorem Delivers.insert {t' : ExecutorTask} (h : Delivers s) (new begun : Option String)
    (hexec : s'.live.executors = s.live.executors.insert p t')
    (hacc : s'.accepted = s.accepted ++ new.toList.map fun goal => (p, goal))
    (hran : s'.ran = s.ran ++ begun.toList.map fun goal => (p, goal))
    (hdrop : s'.dropped = s.dropped)
    (hid : ∀ q u, q ≠ p → s.live.executors.lookup q = some u →
      u.params.invocationId ≠ t'.params.invocationId)
    (hk : ∀ q u, q ≠ p → s.live.executors.lookup q = some u →
      recordedGoal s'.live.kernel u.params.invocationId =
      recordedGoal s.live.kernel u.params.invocationId)
    (hself : Accounts s'.live.kernel (goalsOf p s.accepted ++ new.toList)
      (goalsOf p s.ran ++ begun.toList) p t') : Delivers s' := by
  have hcases : ∀ {q u}, s'.live.executors.lookup q = some u →
      q = p ∧ u = t' ∨ q ≠ p ∧ s.live.executors.lookup q = some u := by
    intro q u hu
    rw [hexec] at hu
    exact HashMap.of_lookup_insert hu
  have hthere : ∀ (log : List (Pid × String)) (goal : Option String),
      (∀ e ∈ log, s.live.executors.lookup e.1 ≠ none) →
      ∀ e ∈ log ++ goal.toList.map fun goal => (p, goal), s'.live.executors.lookup e.1 ≠ none := by
    intro log goal hlog e he
    rw [hexec]
    by_cases hp : e.1 = p
    · rw [hp, AList.lookup_insert]
      nofun
    rw [AList.lookup_insert_ne hp]
    rcases mem_append.mp he with hold | hnew
    · exact hlog e hold
    · obtain ⟨goal, -, rfl⟩ := mem_map.mp hnew
      exact absurd rfl hp
  refine ⟨hdrop.trans h.dropped, ?_, ?_, ?_, ?_⟩
  · rw [hacc]
    exact hthere s.accepted new h.accepted
  · rw [hran]
    exact hthere s.ran begun h.ran
  · intro q u q' u' hu hu' heq
    rcases hcases hu with ⟨rfl, rfl⟩ | ⟨hq, hold⟩ <;>
      rcases hcases hu' with ⟨rfl, rfl⟩ | ⟨hq', hold'⟩
    · rfl
    · exact absurd heq.symm (hid q' u' hq' hold')
    · exact absurd heq (hid q u hq hold)
    · exact h.ids q u q' u' hold hold' heq
  · intro q u hu
    rw [hacc, hran, goalsOf_append, goalsOf_append]
    rcases hcases hu with ⟨rfl, rfl⟩ | ⟨hq, hold⟩
    · rw [goalsOf_self, goalsOf_self]
      exact hself
    · rw [goalsOf_of_ne hq, goalsOf_of_ne hq, append_nil, append_nil]
      exact (h.accounts q u hold).of_recordedGoal (hk q u hq hold)

/-! ## Steps of an executor -/

theorem listens_of_step (h : (t.step x env).1.listens = true) :
    t.pc ≠ .unregistering ∧ t.listens = true := by
  have hpc : t.pc ≠ .unregistering ∧ t.pc ≠ .ended := by
    refine ⟨fun hpc => ?_, fun hpc => ?_⟩
    · rw [step, hpc] at h
      cases h
    · rw [step, hpc, listens, hpc] at h
      cases h
  refine ⟨hpc.1, ?_⟩
  unfold listens
  split
  · next h => exact absurd h hpc.1
  · next h => exact absurd h hpc.2
  · rfl

theorem announced_of_starting (hpc : t.pc = .starting) (ran : List String) :
    t.announced ran = some t.params.goal := by
  unfold announced
  rw [hpc]

theorem announced_of_settingRunning (hpc : t.pc = .settingRunning goal) (ran : List String) :
    t.announced ran = some goal := by
  unfold announced
  rw [hpc]

theorem current_of_settingRunning (hpc : t.pc = .settingRunning goal) : t.current = some goal := by
  unfold current
  rw [hpc]

theorem current_of_recordGoal (hpc : t.pc = .recordGoal goal) : t.current = some goal := by
  unfold current
  rw [hpc]

section

variable (h : t.GoalMove result)

include h

/-- A step moves goals from the channel to the turn loop and from there into a turn. -/
theorem flow_of_goalMove : t.begins.toList ++ result.1.current.toList ++ result.1.queued =
    t.current.toList ++ t.queued := by
  cases h with
  | start before new after goal queued effect =>
    have hbeg : t.begins = none := by rw [begins, before]
    have hcurr : t.current = some t.params.goal := by
      rw [current, before, new]
      rfl
    rw [hbeg, hcurr, current_of_settingRunning after, queued]
    rfl
  | restore before old spares =>
    have hbeg : t.begins = none := by rw [begins, before]
    have hcurr : t.current = none := by
      rw [current, before, old]
      rfl
    rw [hbeg, hcurr, spares.after.current, spares.queued]
    rfl
  | run goal before spares =>
    have hbeg : t.begins = some goal := by rw [begins, before]
    rw [hbeg, current_of_settingRunning before, spares.after.current, spares.queued]
    rfl
  | take goal before after same queued effect =>
    have hcurr : result.1.current = some goal := by
      rcases after with hpc | ⟨hpc, -⟩
      · exact current_of_recordGoal hpc
      · exact current_of_settingRunning hpc
    rw [before.begins, before.current, hcurr, queued]
    rfl
  | record goal before after recorded queued effect =>
    have hbeg : t.begins = none := by rw [begins, before]
    rw [hbeg, current_of_recordGoal before, current_of_settingRunning after, queued]
    rfl
  | other before spares =>
    rw [before.begins, before.current, spares.after.current, spares.queued]
    rfl

/-- After a step the executor still has the last goal. -/
theorem goal_of_goalMove (hnew : t.pc = .starting → ran = [])
    (hgoal : ∀ goal, t.announced ran = some goal → t.executor.goal = goal) :
    ∀ goal, result.1.announced (ran ++ t.begins.toList) = some goal →
      result.1.executor.goal = goal := by
  intro goal' hgoal'
  cases h with
  | start before new after goal queued effect =>
    rw [announced_of_settingRunning after] at hgoal'
    rw [goal]
    exact hgoal goal' ((announced_of_starting before ran).trans hgoal')
  | restore before old spares =>
    -- a restored executor has run nothing yet
    have hbeg : t.begins = none := by rw [begins, before]
    rw [spares.after.announced, hbeg, hnew before] at hgoal'
    cases hgoal'
  | run goal before spares =>
    have hbeg : t.begins = some goal := by rw [begins, before]
    rw [spares.after.announced, hbeg, toList_some, getLast?_append] at hgoal'
    rw [spares.goal]
    exact hgoal goal' ((announced_of_settingRunning before ran).trans hgoal')
  | take goal before after same queued effect =>
    rw [before.begins, toList_none, append_nil] at hgoal'
    rw [same]
    rcases after with hpc | ⟨hpc, hsame⟩
    · refine hgoal goal' ((before.announced ran).trans ?_)
      rw [announced, hpc] at hgoal'
      exact hgoal'
    · rw [announced_of_settingRunning hpc] at hgoal'
      exact hsame.symm.trans (some.inj hgoal')
  | record goal before after recorded queued effect =>
    rw [announced_of_settingRunning after] at hgoal'
    exact recorded.trans (some.inj hgoal')
  | other before spares =>
    rw [before.begins, toList_none, append_nil, spares.after.announced] at hgoal'
    rw [spares.goal]
    exact hgoal goal' ((before.announced ran).trans hgoal')

theorem not_starting_of_goalMove : result.1.pc ≠ .starting := by
  have hempty : result.1.EmptyHanded → result.1.pc ≠ .starting := by
    intro hempty hpc
    unfold ExecutorTask.EmptyHanded at hempty
    rw [hpc] at hempty
    exact hempty
  cases h with
  | start before new after goal queued effect | record goal before after recorded queued effect =>
    rw [after]; nofun
  | restore before old spares | run goal before spares | other before spares =>
    exact hempty spares.after
  | take goal before after same queued effect =>
    rcases after with hpc | ⟨hpc, -⟩ <;> rw [hpc] <;> nofun

/-- A goal is written to the record of the executor exactly when it gets a new one. -/
theorem record_of_goalMove (hstor : ∀ goal, t.pc = .recordGoal goal → env.storeFails = false)
    (hnamed : t.params.invocationId ≠ "")
    (hrecord : ∀ goal, recordedGoal live.kernel t.params.invocationId = some goal →
      goal = t.executor.goal) :
    ∀ goal, recordedGoal (live.apply x t.params env result.2).kernel t.params.invocationId =
      some goal → goal = result.1.executor.goal := by
  have hsame : result.1.executor.goal = t.executor.goal →
      (∀ goal, result.2 ≠ .updateGoal goal) → ∀ goal,
        recordedGoal (live.apply x t.params env result.2).kernel t.params.invocationId =
          some goal → goal = result.1.executor.goal := by
    intro hgoal heff goal hrec
    rw [recordedGoal_apply heff] at hrec
    rw [hgoal]
    exact hrecord goal hrec
  cases h with
  | start before new after goal queued effect => exact hsame goal effect
  | restore before old spares | run goal before spares | other before spares =>
    exact hsame spares.goal spares.effect
  | take goal before after same queued effect => exact hsame same effect
  | record goal before after recorded queued effect =>
    intro goal' hrec
    rw [effect] at hrec
    rw [recorded]
    exact recordedGoal_updateGoal_self (hstor goal before) hnamed hrec

end

/-- A step of an executor does not write the goal of another invocation. -/
theorem recordedGoal_apply_ne (effect : ExecutorEffect) (hid : id ≠ params.invocationId) :
    recordedGoal (live.apply x params env effect).kernel id = recordedGoal live.kernel id := by
  cases effect with
  | updateGoal goal => exact recordedGoal_updateGoal_ne hid goal
  | _ =>
    refine recordedGoal_apply (fun goal heff => ?_) id
    cases heff

theorem delivers_stepExecutor (h : Delivers s) (hg : GoalSafe s (.kernel (.step pid env))) :
    Delivers (s.stepExecutor x pid env) := by
  unfold GoalSystem.stepExecutor stepExecutor
  cases ht : s.live.executors.lookup pid with
  | none => exact h.of_recordedGoal rfl rfl (append_nil _) rfl fun _ _ _ => rfl
  | some t =>
    have hkeeps := hg t ht
    have hold := h.accounts pid t ht
    have hmove : t.GoalMove (t.step x env) := goalMove_step hkeeps
    have hpar : (t.step x env).1.params = t.params := follows_step.params
    obtain ⟨-, hexec⟩ := ownChange_apply
      (s := { s.live with executors := s.live.executors.insert pid (t.step x env).1 }) t.params env
      (t.step x env).2
    have hoth : ∀ q u, q ≠ pid → s.live.executors.lookup q = some u →
        u.params.invocationId ≠ t.params.invocationId :=
      fun q u hq hu hid => hq (h.ids q u pid t hu ht hid)
    refine h.insert none t.begins hexec (append_nil _).symm rfl rfl
      (hpar ▸ hoth) (fun q u hq hu => recordedGoal_apply_ne _ (hoth q u hq hu)) ?_
    refine ⟨hpar ▸ hold.pid, hpar ▸ hold.named, ?_, ?_, ?_, ?_⟩
    · exact fun hpc => absurd hpc (not_starting_of_goalMove hmove)
    · intro hlist
      have hflow := hold.flow (listens_of_step hlist).2
      rw [toList_none, append_nil, ← hflow, append_assoc, append_assoc,
        append_assoc, ← flow_of_goalMove hmove, append_assoc]
    · exact goal_of_goalMove hmove hold.new hold.goal
    · rw [hpar]
      exact record_of_goalMove hmove hkeeps.stores hold.named hold.record

/-! ## Signals -/

/-- What the arrival of a signal does to the goals of its target. -/
theorem queued_append (t : ExecutorTask) (sig : Signal) :
    ({ t with signalRx := t.signalRx ++ [sig] } : ExecutorTask).queued =
      t.queued ++ sig.goal?.toList := by
  unfold queued
  rw [filterMap_append]
  cases hgoal : sig.goal? <;> simp [hgoal]

theorem accepts_eq (s : GoalSystem D) (sig : Signal) : s.accepts sig = { s with
    accepted := s.accepted ++ (if s.live.reaches sig.target then sig.goal? else none).toList.map
      fun goal => (sig.target, goal) } := by
  unfold GoalSystem.accepts
  cases sig.goal? with
  | none => simp
  | some goal => cases s.live.reaches sig.target <;> simp

/-- A signal arrives; a SIGSTART that reaches its executor is accepted. -/
theorem delivers_send (h : Delivers s) (sig : Signal) :
    Delivers { s.accepts sig with live := s.live.send sig } := by
  rw [accepts_eq]
  unfold send
  by_cases hreg : s.live.registered.contains sig.target = true
  · rw [if_pos hreg]
    cases ht : s.live.executors.lookup sig.target with
    | none =>
      have hreac : s.live.reaches sig.target = false := by
        rw [reaches, ht, hreg]
        rfl
      rw [hreac]
      exact h.of_recordedGoal rfl (append_nil _) rfl rfl fun _ _ _ => rfl
    | some t =>
      have hreac : s.live.reaches sig.target = t.listens := by
        rw [reaches, ht, hreg]
        rfl
      have hold := h.accounts _ t ht
      refine h.insert _ none rfl rfl (append_nil _).symm rfl
        (fun q u hq hu hid => hq (h.ids q u _ t hu ht hid)) (fun _ _ _ _ => rfl) ?_
      rw [toList_none, append_nil, hreac]
      refine ⟨hold.pid, hold.named, hold.new, fun hlist => ?_, hold.goal, hold.record⟩
      -- a goal goes to the end of the channel
      have hlist : t.listens = true := hlist
      rw [hlist, if_pos rfl, ← hold.flow hlist, queued_append, append_assoc]
      simp only [append_assoc]
      rfl
  · rw [if_neg hreg]
    have hreac : s.live.reaches sig.target = false := by
      rw [reaches, Bool.eq_false_iff.mpr hreg, Bool.false_and]
    rw [hreac]
    exact h.of_recordedGoal rfl (append_nil _) rfl rfl fun _ _ _ => rfl

/-- An access that sends no signal changes no goal. -/
theorem access_keeps (storeFails : Bool) {action : KernelAction}
    (hact : ∀ sig, action ≠ .deliver sig) (id : String) :
    (live.access x storeFails action).1.executors = live.executors ∧
      recordedGoal (live.access x storeFails action).1.kernel id = recordedGoal live.kernel id := by
  cases action with
  | deliver sig => exact absurd rfl (hact sig)
  | writeInvocation id' status =>
    exact ⟨rfl, recordedGoal_modify storeFails id' (f := fun r => { r with status })
      (fun _ => rfl) id⟩
  | _ => exact ⟨rfl, rfl⟩

theorem delivers_act (h : Delivers s) (call : Nat) (storeFails : Bool) :
    Delivers (s.act x call storeFails) := by
  unfold GoalSystem.act act
  rcases hcall : s.live.calls[call]? with _ | (_ | ⟨action, rest⟩)
  · exact h
  · exact h
  dsimp only
  cases action with
  | deliver sig =>
    exact (delivers_send h sig).of_recordedGoal rfl rfl rfl rfl fun _ _ _ => rfl
  | _ =>
    refine h.of_recordedGoal (access_keeps storeFails ?_ "").1 rfl rfl rfl fun p t _ =>
      (access_keeps storeFails ?_ _).2
    all_goals
      intro sig hsig
      cases hsig

/-! ## New executors -/

theorem goalsOf_of_lookup (hlog : ∀ e ∈ log, s.live.executors.lookup e.1 ≠ none)
    (hp : s.live.executors.lookup p = none) : goalsOf p log = [] := by
  refine goalsOf_eq_nil fun e he heq => hlog e he ?_
  rw [heq]
  exact hp

section

variable (hstore : k'.invocationStore = k.invocationStore.map (·.create fails r))

include hstore

theorem recordedGoal_create_ne (hid : id ≠ r.id) : recordedGoal k' id = recordedGoal k id := by
  unfold recordedGoal
  rw [record_create hstore, if_neg fun h => hid h.1]

theorem recordedGoal_create_self (hnone : k.record r.id = none)
    (h : recordedGoal k' r.id = some goal) : goal = r.goal := by
  unfold recordedGoal at h
  rw [record_create hstore, hnone] at h
  split_ifs at h
  · obtain ⟨r', hr', rfl⟩ := map_eq_some_iff.mp h
    obtain ⟨_, -, rfl⟩ := map_eq_some_iff.mp hr'
    rfl
  · cases h

end

section

variable (h : Delivers s)

include h

theorem delivers_spawn {a : SpawnArgs} {env : SpawnEnv} (hnew : NewAgent s env) :
    Delivers (s.spawn x a env) := by
  obtain ⟨hnone, hnamed, hids⟩ := hnew.fresh
  unfold GoalSystem.spawn
  split
  · exact h
  next k params hbegin =>
  have hbegun := beginSpawn_eq_ok hbegin
  obtain ⟨hgoal, hrest, hfact, r, hr, hrgoal, -, hstore⟩ :=
    beginSpawn_goal hbegin
  have hk : k.hasFactory = true := hfact.trans hnew.factory
  dsimp only
  rw [if_pos hk, spawn, hbegin]
  have hexec : (s.live.launch k params).executors =
      s.live.executors.insert env.pid (.new params (.new k.masterKey)) := by
    dsimp only [launch]
    rw [if_pos hk, hbegun.pid]
  refine h.insert (some a.goal) none hexec rfl (append_nil _).symm rfl ?_ ?_ ?_
  · intro q u _ hu
    rw [new, hbegun.invocationId]
    exact hids q u hu
  · intro q u _ hu
    exact recordedGoal_create_ne hstore (hr ▸ hids q u hu)
  · rw [goalsOf_of_lookup h.accepted hnone, goalsOf_of_lookup h.ran hnone]
    refine ⟨hbegun.pid, ?_, fun _ => rfl, fun _ => ?_, fun goal hann => ?_, ?_⟩
    · rw [new, hbegun.invocationId]
      exact hnamed
    · rw [current, new]
      dsimp only
      rw [hrest, hgoal]
      rfl
    · exact some.inj hann
    · intro goal hrec
      have hid : (new params (.new k.masterKey)).params.invocationId = r.id :=
        hbegun.invocationId.trans hr.symm
      rw [hid] at hrec
      rw [recordedGoal_create_self hstore (hr ▸ hnew.record) hrec, hrgoal]
      exact hgoal.symm

theorem delivers_restore {inv : InvocationRecord} {now : DateTime} {storeFails : StoreCall → Bool}
    (hg : GoalSafe s (.kernel (.restore inv now storeFails))) :
    Delivers { s with live := s.live.restore x inv now storeFails } := by
  obtain ⟨⟨hnone, hnamed, hids⟩, hgoal⟩ := hg
  obtain ⟨hstore, hfact, htasks⟩ := restoreFromInvocation_tasks
    inv now storeFails
  have hk : ∀ id, recordedGoal
      (s.live.kernel.restoreFromInvocation x.toExternals inv now storeFails).1 id =
      recordedGoal s.live.kernel id := by
    intro id
    unfold recordedGoal record
    rw [hstore]
  unfold restore
  dsimp only
  split
  · next params hpar =>
    by_cases hf : s.live.kernel.hasFactory = true
    · rw [htasks, if_pos hf, AList.lookup_insert] at hpar
      cases hpar
      refine h.insert (p := inv.pid) none none (if_pos (hfact.trans hf))
        (append_nil _).symm (append_nil _).symm rfl (fun q u _ hu => hids q u hu)
        (fun q u _ _ => hk _) ?_
      rw [goalsOf_of_lookup h.accepted hnone, goalsOf_of_lookup h.ran hnone]
      refine ⟨rfl, hnamed, fun _ => rfl, fun _ => rfl, fun goal hann => ?_, ?_⟩
      · exact some.inj hann
      intro goal hrec
      obtain ⟨r, hr, rfl⟩ := map_eq_some_iff.mp ((hk inv.id).symm.trans hrec)
      exact hgoal r hr
    · refine h.of_recordedGoal (if_neg ?_) rfl rfl rfl fun p t _ => hk _
      rw [hfact]
      exact hf
  · exact h.of_recordedGoal rfl rfl rfl rfl fun p t _ => hk _

/-! ## Requests and store calls -/

theorem Delivers.reply (call : Nat) (stage : ResumeCall) : Delivers (s.reply call stage) :=
  h.of_recordedGoal rfl rfl rfl rfl fun _ _ _ => rfl

theorem delivers_proceed {call : Nat} {env : ResumeEnv} (hg : GoalSafe s (.proceed call env)) :
    Delivers (s.proceed x call env) := by
  unfold GoalSafe at hg
  unfold GoalSystem.proceed
  split
  · next r hcall =>
    simp only [hcall] at hg
    split
    · exact h.reply call .replied
    next session hread =>
    split_ifs
    · split
      · next pids hpath =>
        -- only a request without an input gets here
        have hpaus : session.status = .paused ∧ session.pids ≠ [] := by
          unfold SessionRecord.resumePath at hpath
          split_ifs at hpath with hpaus
          exact hpaus
        have hinput : r.input = none := by
          by_contra hsome
          exact hg (isSome_iff_ne_none.mpr hsome) session hread hpaus
        rw [hinput]
        exact h.of_recordedGoal rfl rfl rfl (append_nil _) fun _ _ _ => rfl
      all_goals exact h.reply call _
    · exact h.reply call .replied
  · next r owner goal hcall =>
    dsimp only
    split_ifs
    · exact (delivers_send h _).reply call .replied
    · exact h.reply call _
  · next r hcall =>
    simp only [hcall] at hg
    split
    · exact h.reply call .replied
    · exact (delivers_spawn h hg).reply call .replied
  · exact h

theorem delivers_writeRecord {copy : Nat} {status : InvocationStatus} {exitReason : Option String}
    (hg : GoalSafe s (.writeRecord copy status exitReason)) :
    Delivers (s.step x (.writeRecord copy status exitReason)) := by
  rw [GoalSystem.step]
  split
  · next r hcopy =>
    have hgoal := hg r hcopy
    refine h.of_recordedGoal rfl rfl rfl rfl fun p t _ => ?_
    unfold recordedGoal record GoalSystem.withKernel at *
    dsimp only
    cases hstore : s.live.kernel.invocationStore with
    | none => rfl
    | some store =>
      rw [hstore] at hgoal
      change ((AList.insert r.id _ store).lookup _).map _ = (store.lookup _).map _
      by_cases hid : t.params.invocationId = r.id
      · rw [hid, AList.lookup_insert]
        exact hgoal.symm
      · rw [AList.lookup_insert_ne hid]
  · exact h

end

/-- A signal is sent by the calls that follow. -/
theorem signal_keeps (live : LiveKernel D) (pid : Pid) (name : String) (payload : Json) :
    (live.step x (.signal pid name payload)).executors = live.executors ∧
      (live.step x (.signal pid name payload)).kernel = live.kernel := by
  rw [LiveKernel.step]
  split <;> exact ⟨rfl, rfl⟩

theorem delivers_step (s : GoalSystem D) (input : GoalInput) (h : Delivers s)
    (hg : GoalSafe s input) : Delivers (s.step x input) := by
  cases input with
  | kernel input =>
    cases input with
    | spawn a env => exact delivers_spawn h hg
    | restore inv now storeFails => exact delivers_restore h hg
    | signal pid name payload =>
      obtain ⟨hexec, hkern⟩ := signal_keeps (x := x) s.live pid name payload
      refine h.of_recordedGoal hexec rfl rfl rfl fun p t _ => ?_
      exact congrArg (recordedGoal · _) hkern
    | act call storeFails => exact delivers_act h call storeFails
    | step pid env => exact delivers_stepExecutor h hg
  | proceed call env => exact delivers_proceed h hg
  | writeRecord copy status exitReason => exact delivers_writeRecord h hg
  | _ => exact h.of_recordedGoal rfl rfl rfl rfl fun _ _ _ => rfl

theorem delivers_init (k : KernelState D) : Delivers (GoalSystem.init k) where
  dropped := rfl
  accepted e he := by cases he
  ran e he := by cases he
  ids p t q u ht := by cases ht
  accounts p t ht := by cases ht

/-! ## Runs -/

theorem goalsRun_of_accounts
    (h : Accounts s.live.kernel (goalsOf p s.accepted) (goalsOf p s.ran) p t)
    (hwaits : OnlyWaits t) : GoalsRun s p t := by
  obtain ⟨hrx, hpc⟩ := hwaits
  have hempty : t.EmptyHanded ∧ t.listens = true := by
    unfold ExecutorTask.EmptyHanded listens
    cases hcase : t.pc <;> rw [hcase] at hpc <;> first | exact ⟨trivial, rfl⟩ | exact hpc.elim
  have hflow := h.flow hempty.2
  have hque : t.queued = [] := by
    unfold queued
    rw [hrx]
    rfl
  rw [hempty.1.current, hque, toList_none, append_nil, append_nil] at hflow
  have hgoal : ∀ goal, (goalsOf p s.ran).getLast? = some goal → t.executor.goal = goal :=
    fun goal hlast => h.goal goal ((hempty.1.announced _).trans hlast)
  refine ⟨hflow, hgoal, fun goal hlast r hr => ?_⟩
  rw [← hgoal goal hlast]
  refine h.record r.goal ?_
  rw [recordedGoal, hr]
  rfl

theorem goals_delivered (k : KernelState D) (es : List GoalInput)
    (h : Guarded (GoalSystem.step x) GoalSafe (.init k) es) :
    (run (GoalSystem.step x) (.init k) es).dropped = [] ∧
      (∀ e ∈ (run (GoalSystem.step x) (.init k) es).accepted,
        ∃ t, (run (GoalSystem.step x) (.init k) es).live.executors.lookup e.1 = some t) ∧
      ∀ p t, (run (GoalSystem.step x) (.init k) es).live.executors.lookup p = some t →
        OnlyWaits t → GoalsRun (run (GoalSystem.step x) (.init k) es) p t := by
  have hdel : Delivers (run (GoalSystem.step x) (.init k) es) :=
    guarded_invariant delivers_step (delivers_init k) h
  refine ⟨hdel.dropped, fun e he => ?_, fun p t ht hwaits => ?_⟩
  · exact ne_none_iff_exists'.mp (hdel.accepted e he)
  · exact goalsRun_of_accounts (hdel.accounts p t ht) hwaits

/-! ## Goals of an agent -/

theorem goalSafe_of_takes (htakes : (s.live.executors.lookup pid).bind (·.takes env) = none)
    (hspawn : env.spawnFails = false) (hstore : env.storeFails = false) :
    GoalSafe s (.kernel (.step pid env)) := by
  intro t ht
  rw [ht] at htakes
  refine ⟨fun _ => hspawn, fun sig goal hsig _ => ?_, fun _ _ => hstore⟩
  rw [bind_some, hsig] at htakes
  cases htakes

theorem goalSafe_of_waiting
    (hpc : (s.live.executors.lookup pid).map (·.pc) = some (.waiting .failed))
    (hspawn : env.spawnFails = false) (hstore : env.storeFails = false) :
    GoalSafe s (.kernel (.step pid env)) := by
  intro t ht
  rw [ht] at hpc
  exact ⟨fun _ => hspawn, fun sig goal _ _ => ⟨.failed, some.inj hpc, nofun⟩, fun _ _ => hstore⟩

end Goals

def goalKernel : KernelState Unit := { deskKernel with sessionStore := some ∅ }

def goalDesk (k : KernelState Unit) (es : List GoalInput) : GoalSystem Unit :=
  run (GoalSystem.step deskExternals) (.init k) es

/-- A SIGSTART is sent to pid 1, as call `call` of the signal handler. -/
def sigstart (call : Nat) (goal : String) : List GoalInput :=
  [.kernel (.signal 1 "SIGSTART" (.ofMembers [("goal", .string goal)])), .kernel (.act call false)]

/-- Steps of the executor of pid 1; a call of the language model fails. -/
def goalSteps (n : Nat) : List GoalInput := (leadSteps n).map .kernel

/-- The call of the language model fails, the agent waits, and the next goal comes. -/
def startedIdle : List GoalInput :=
  leadCalls.map .kernel ++ goalSteps 4 ++ sigstart 1 "go on" ++ goalSteps 10

/-- The next goal comes while the language model is called. -/
def startedInCall : List GoalInput :=
  leadCalls.map .kernel ++ sigstart 1 "go on" ++ [.kernel (.step 1 (deskEnv .signal))] ++
    goalSteps 7

/-- The session of the agent is paused while it waits, and resumed with an input. -/
def resumedPaused : List GoalInput :=
  leadCalls.map .kernel ++ goalSteps 4 ++ [.kernel (.signal 1 "SIGPAUSE" .null)] ++
    List.replicate 6 (.kernel (.act 1 false)) ++
    [.request ⟨(envOf 1).sessionUuid, some "go on", "alice", false⟩, .proceed 0 ⟨false, envOf 2⟩] ++
    List.replicate 6 (.kernel (.act 2 false)) ++ goalSteps 2

/-- The record of an agent that was idle when the kernel ended. -/
def idleRecord : InvocationRecord :=
  { id := (envOf 1).invocationUuid, agentName := "lead", username := "alice", pid := 1
    goal := "tidy up", sessionId := (envOf 1).sessionUuid, status := .idle }

def restartedKernel : KernelState Unit :=
  { goalKernel with
    invocationStore := some ((∅ : InvocationStore).insert idleRecord.id idleRecord) }

/-- The agent is restored, and a new goal comes. -/
def startedRestored : List GoalInput :=
  [.kernel (.restore idleRecord ⟨0⟩ fun _ => false)] ++ goalSteps 4 ++ sigstart 0 "go on" ++
    goalSteps 9

theorem startedIdle_safe :
    Guarded (GoalSystem.step deskExternals) GoalSafe (.init goalKernel) startedIdle := by
  have hquiet : ∀ {s : GoalSystem Unit} {llm : LlmEvent},
      (s.live.executors.lookup 1).bind (·.takes (deskEnv llm)) = none →
      GoalSafe s (.kernel (.step 1 (deskEnv llm))) := fun h => goalSafe_of_takes h rfl rfl
  refine ⟨⟨rfl, ⟨rfl, by decide, fun q t ht => ?_⟩, rfl⟩, trivial, hquiet rfl, hquiet rfl,
    hquiet rfl, hquiet rfl, hquiet rfl, hquiet rfl, hquiet rfl, hquiet rfl, hquiet rfl, trivial,
    trivial, goalSafe_of_waiting rfl rfl rfl, hquiet rfl, hquiet rfl, hquiet rfl, hquiet rfl,
    hquiet rfl, hquiet rfl, hquiet rfl, hquiet rfl, hquiet rfl, trivial⟩
  cases ht

/-- A goal that comes after a failed turn is run. -/
theorem goals_delivered_idle :
    ∃ t, (goalDesk goalKernel startedIdle).live.executors.lookup 1 = some t ∧ OnlyWaits t ∧
      goalsOf 1 (goalDesk goalKernel startedIdle).accepted = ["", "go on"] ∧
      GoalsRun (goalDesk goalKernel startedIdle) 1 t :=
  ⟨_, rfl, ⟨rfl, trivial⟩, rfl,
    (goals_delivered goalKernel startedIdle startedIdle_safe).2.2 1 _ rfl ⟨rfl, trivial⟩⟩

/-- A goal that comes during the call of the language model is accepted and never run; the input
    of a resumed session that was paused is dropped; a restored executor keeps its old goal. -/
theorem goals_lost :
    (∃ t, (goalDesk goalKernel startedInCall).live.executors.lookup 1 = some t ∧ OnlyWaits t ∧
      (goalDesk goalKernel startedInCall).accepted = [(1, ""), (1, "go on")] ∧
      (goalDesk goalKernel startedInCall).ran = [(1, "")]) ∧
    (∃ t, (goalDesk goalKernel resumedPaused).live.executors.lookup 1 = some t ∧ OnlyWaits t ∧
      (goalDesk goalKernel resumedPaused).dropped = ["go on"] ∧
      (goalDesk goalKernel resumedPaused).ran = [(1, "")]) ∧
    (∃ t, (goalDesk restartedKernel startedRestored).live.executors.lookup 1 = some t ∧
      OnlyWaits t ∧ (goalDesk restartedKernel startedRestored).ran = [(1, "go on")] ∧
      t.executor.goal = "tidy up") :=
  ⟨⟨_, rfl, ⟨rfl, trivial⟩, rfl, rfl⟩, ⟨_, rfl, ⟨rfl, trivial⟩, rfl, rfl⟩,
    ⟨_, rfl, ⟨rfl, trivial⟩, rfl, rfl⟩⟩

end Avix.Protocol
