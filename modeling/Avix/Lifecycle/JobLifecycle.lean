/-
  PROTOCOL — the life cycle of a job (`jobs/registry.rs`, `jobs/job.rs`).

  The id of a job is a fresh UUID: the `n`-th job has the number `n`, and a number not yet given
  stands for an unknown id. `follow` checks the events of one job against the documented
  transitions.

  `job_life_cycle_iff`: after every run, the events of every job are a documented path to
  its state, its result and error belong to that state, and a refused operation changes nothing,
  exactly if no pending job was completed, failed or cancelled.

  Reason. The three operations refuse terminal states only (`pending_job_completed`).
-/
import Avix.Lib.Run
import Avix.Types.Json

namespace Avix.Jobs

open Lib List

inductive JobState where
  | pending
  | running
  | paused
  | done
  | failed
  | cancelled
  deriving DecidableEq, Repr

def JobState.isTerminal : JobState → Bool
  | .done | .failed | .cancelled => true
  | _ => false

/-- `{:?}` -/
def JobState.debug : JobState → String
  | .pending => "Pending"
  | .running => "Running"
  | .paused => "Paused"
  | .done => "Done"
  | .failed => "Failed"
  | .cancelled => "Cancelled"

structure JobError where
  code : Int32
  message : String

structure Job where
  state : JobState := .pending
  result : Option Json := none
  error : Option JobError := none

inductive LogStream where
  | stdout
  | stderr

/-- A `JobEvent` without the id. -/
inductive JobNote where
  | statusChange (old new : JobState)
  | progress (percent : Option UInt8) (stage detail : Option String)
  | log (stream : LogStream) (line : String)
  | complete (result : Json)
  | fail (error : JobError)

structure JobRegistry where
  jobs : List Job := []
  events : List (Nat × JobNote) := []

/-- The operations on a job. -/
inductive JobOp where
  | start
  | progress (percent : Option UInt8) (stage detail : Option String)
  | log (stream : LogStream) (line : String)
  | complete (result : Json)
  | fail (error : JobError)
  | cancel

section Operations

variable (id : String) (job : Job)

/-- The body of `progress` and `log`. -/
def emitRunning (what : String) (note : JobNote) : Except String (Job × List JobNote) :=
  if job.state ≠ .running then
    .error ("cannot emit " ++ what ++ " for job '" ++ id ++ "': not running")
  else .ok (job, [note])

/-- The body of `complete`, `fail` and `cancel`, with the outcome in the job. -/
def finish (verb : String) (state : JobState) (more : List JobNote) :
    Except String (Job × List JobNote) :=
  if job.state.isTerminal then
    .error ("cannot " ++ verb ++ " job '" ++ id ++ "': already in terminal state " ++
      job.state.debug)
  else .ok ({ job with state }, .statusChange job.state state :: more)

def JobOp.run : JobOp → Except String (Job × List JobNote)
  | .start =>
    if job.state ≠ .pending then
      .error ("cannot start job '" ++ id ++ "': state is " ++ job.state.debug)
    else .ok ({ job with state := .running }, [.statusChange job.state .running])
  | .progress percent stage detail => emitRunning id job "progress" (.progress percent stage detail)
  | .log stream line => emitRunning id job "log" (.log stream line)
  | .complete v => finish id { job with result := some v } "complete" .done [.complete v]
  | .fail e => finish id { job with error := some e } "fail" .failed [.fail e]
  | .cancel => finish id job "cancel" .cancelled []

def JobOp.finishes : JobOp → Bool
  | .complete _ | .fail _ | .cancel => true
  | _ => false

end Operations

inductive JobCall where
  | create
  | op (i : Nat) (op : JobOp)

/-! ## The documented life cycle -/

def documented : JobState → JobState → Bool
  | .pending, .running | .running, .done | .running, .failed | .running, .cancelled
  | .paused, .cancelled => true
  | _, _ => false

/-- The state after an event; `none` if it is out of place. -/
def follow (s : JobState) : JobNote → Option JobState
  | .statusChange old new => if old = s ∧ documented old new then some new else none
  | .progress .. | .log .. => if s = .running then some s else none
  | _ => some s

/-- The outcome belongs to the state, and no job is paused. -/
def Settled (job : Job) : Prop :=
  (job.result.isSome ↔ job.state = .done) ∧ (job.error.isSome ↔ job.state = .failed) ∧
    job.state ≠ .paused

namespace JobRegistry

variable (jobId : Nat → String) (r : JobRegistry)

def call : JobCall → JobRegistry × Except AvixError Unit
  | .create => ({ r with jobs := r.jobs ++ [{}] }, .ok ())
  | .op i op =>
    match r.jobs[i]? with
    | none => (r, .error (.notFound ("job '" ++ jobId i ++ "' not found")))
    | some job =>
      match op.run (jobId i) job with
      | .error e => (r, .error (.configParse e))
      | .ok (job', new) => (⟨r.jobs.set i job', r.events ++ new.map (i, ·)⟩, .ok ())

def step (c : JobCall) : JobRegistry := (r.call jobId c).1

def stateOf (i : Nat) : JobState := (r.jobs[i]?.map (·.state)).getD .pending

/-- Where the events of job `i` lead. -/
def followed (i : Nat) : Option JobState :=
  ((r.events.filter (·.1 = i)).map (·.2)).foldlM follow .pending

structure LifeCycle : Prop where
  path : ∀ i, r.followed i = some (r.stateOf i)
  outcome : ∀ job ∈ r.jobs, Settled job

/-- No pending job is completed, failed or cancelled. -/
def Started (c : JobCall) : Prop :=
  ∀ i op job, c = .op i op → op.finishes = true → r.jobs[i]? = some job → job.state ≠ .pending

end JobRegistry

open JobRegistry

section Steps

variable {jobId : Nat → String} {r : JobRegistry} {c : JobCall} {op : JobOp} {i : Nat}
  {job job' : Job} {id : String} {new : List JobNote}

theorem foldlM_run (h : Settled job) (hok : op.run id job = .ok (job', new))
    (hs : op.finishes = true → job.state ≠ .pending) :
    Settled job' ∧ new.foldlM follow job.state = some job'.state := by
  cases op with
  | start =>
    simp only [JobOp.run] at hok
    split_ifs at hok with hp
    cases hok
    simp_all [Settled, follow, documented]
  | progress | log =>
    simp only [JobOp.run, emitRunning] at hok
    split_ifs at hok with hp
    cases hok
    simp_all [follow]
  | complete | fail | cancel =>
    simp only [JobOp.run, finish] at hok
    split_ifs at hok with hp
    cases hok
    have hnot := hs rfl
    cases hst : job.state <;> simp_all [Settled, follow, documented, JobState.isTerminal]

/-- A pending job is finished all the same. -/
theorem run_of_pending (id : String) (h : job.state = .pending) (hop : op.finishes = true) :
    ∃ job' new, op.run id job = .ok (job', new) ∧ new.foldlM follow .pending = none := by
  cases op with
  | start | progress | log => cases hop
  | complete | fail | cancel =>
    simp [JobOp.run, finish, h, JobState.isTerminal, follow, documented]

theorem call_cases (jobId : Nat → String) (r : JobRegistry) (c : JobCall) :
    (∃ e, r.call jobId c = (r, .error e)) ∨ c = .create ∨
      ∃ i op job job' new, c = .op i op ∧ r.jobs[i]? = some job ∧
        op.run (jobId i) job = .ok (job', new) ∧
        r.call jobId c = (⟨r.jobs.set i job', r.events ++ new.map (i, ·)⟩, .ok ()) := by
  cases c with
  | create => exact .inr (.inl rfl)
  | op i op =>
    unfold call
    dsimp only
    split
    · exact .inl ⟨_, rfl⟩
    next job hjob =>
      split
      · exact .inl ⟨_, rfl⟩
      next job' new hok => exact .inr (.inr ⟨i, op, job, job', new, rfl, hjob, hok, rfl⟩)

theorem followed_op (j : Nat) :
    followed ⟨r.jobs.set i job', r.events ++ new.map (i, ·)⟩ j =
      (r.followed j).bind fun s => (if i = j then new else []).foldlM follow s := by
  have hnew : ((new.map (i, ·)).filter (·.1 = j)).map (·.2) = if i = j then new else [] := by
    split_ifs with hj <;> simp [filter_map, Function.comp_def, hj]
  rw [followed, filter_append, map_append, hnew, foldlM_append]
  rfl

theorem lifeCycle_step (h : r.LifeCycle) (hs : r.Started c) : (r.step jobId c).LifeCycle := by
  unfold step
  rcases call_cases jobId r c with ⟨e, he⟩ | rfl | ⟨i, op, job, job', new, rfl, hjob, hok, hcall⟩
  · rwa [he]
  · refine ⟨fun j => ?_, fun job hjob => ?_⟩
    · have hsame : (r.call jobId .create).1.stateOf j = r.stateOf j := by grind [stateOf, call]
      rw [hsame]
      exact h.path j
    · rcases mem_append.mp hjob with hjob | hjob
      · exact h.outcome job hjob
      · rw [mem_singleton.mp hjob]
        simp [Settled]
  · obtain ⟨hset, hnew⟩ := foldlM_run (h.outcome job (mem_of_getElem? hjob)) hok fun hop =>
      hs i op job rfl hop hjob
    obtain ⟨hi, hget⟩ := List.getElem?_eq_some_iff.mp hjob
    rw [hcall]
    refine ⟨fun j => ?_, fun k hk => ?_⟩
    · rw [followed_op, h.path, stateOf, stateOf, getElem?_set]
      by_cases hj : i = j
      · subst hj
        simpa [hi, hget] using hnew
      · simp [hj]
    · rcases mem_or_eq_of_mem_set hk with hk | rfl
      · exact h.outcome k hk
      · exact hset

/-- The documented path cannot be resumed. -/
theorem followed_step (h : r.followed i = none) : (r.step jobId c).followed i = none := by
  unfold step
  rcases call_cases jobId r c with ⟨e, he⟩ | rfl | ⟨j, op, job, job', new, -, -, -, hcall⟩
  · rwa [he]
  · exact h
  · rw [hcall, followed_op, h, Option.bind_none]

theorem followed_of_not_started (h : r.LifeCycle) (hs : ¬r.Started c) :
    ∃ i, (r.step jobId c).followed i = none := by
  unfold Started at hs
  push Not at hs
  obtain ⟨i, op, job, rfl, hop, hjob, hp⟩ := hs
  obtain ⟨job', new, hrun, hnew⟩ := run_of_pending (jobId i) hp hop
  refine ⟨i, ?_⟩
  simp only [step, call, hjob, hrun]
  rw [followed_op, h.path]
  simpa [stateOf, hjob, hp] using hnew

theorem guarded_of_lifeCycle {calls : List JobCall} (h0 : r.LifeCycle)
    (h : LifeCycle (run (step jobId) r calls)) : Guarded (step jobId) Started r calls := by
  induction calls generalizing r with
  | nil => trivial
  | cons c calls ih =>
    have hc : r.Started c := by
      by_contra hnot
      obtain ⟨i, hi⟩ := followed_of_not_started h0 hnot
      have hend : followed (run (step jobId) (r.step jobId c) calls) i = none :=
        run_invariant (I := fun s => followed s i = none) (fun _ _ => followed_step) hi calls
      cases hend.symm.trans (h.path i)
    exact ⟨hc, ih (lifeCycle_step h0 hc) h⟩

theorem job_life_cycle_iff (calls : List JobCall) :
    (LifeCycle (run (step jobId) {} calls) ∧ ∀ c e,
        ((run (step jobId) {} calls).call jobId c).2 = .error e →
          ((run (step jobId) {} calls).call jobId c).1 = run (step jobId) {} calls) ↔
      Guarded (step jobId) Started {} calls := by
  have h0 : LifeCycle {} := ⟨fun _ => rfl, nofun⟩
  constructor
  · exact fun h => guarded_of_lifeCycle h0 h.1
  · refine fun h => ⟨guarded_invariant (fun _ _ => lifeCycle_step) h0 h, fun c e he => ?_⟩
    rcases call_cases jobId (run (step jobId) {} calls) c with
      ⟨e, hcall⟩ | rfl | ⟨i, op, job, job', new, -, -, -, hcall⟩
    · rw [hcall]
    · cases he
    · rw [hcall] at he
      cases he

/-- A job is completed before it is started. -/
theorem pending_job_completed :
    ¬LifeCycle (run (step fun _ => "job-1") {} [.create, .op 0 (.complete .null)]) := by
  intro h
  cases h.path 0

end Steps

end Avix.Jobs
