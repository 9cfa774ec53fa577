/-
  Cron: the crontab, its validation, the scheduler and the runner's tick loop
  (`cron_svc/schema.rs`, `cron_svc/loader.rs`, `cron_svc/scheduler.rs`, `cron_svc/runner.rs`).

  Model. The `cron` crate is a parameter: `fromStr` is `Schedule::from_str`, and a `Schedule` is
  the set of its instants together with `after(t).next()`, which is the least of them strictly
  after `t` (the contract is a field, so no other schedule can be built). `Uuid::new_v4` is the
  sequence `newV4` of the ids it returns. A tick takes its two clock readings as an argument:
  the tick time, and the `now` inside `due_jobs`. What a tick launches is its output; `run_job`
  then runs in a task of its own and touches neither the scheduler nor the runner.

  A `HashMap` is iterated in the order of its list; only the order in which the due jobs of one tick
  are launched depends on it.
-/
import Avix.Lib.Str
import Avix.Types.Json

namespace Avix

open Lib

/-! ## The cron crate -/

/-- `cron::Schedule`. -/
structure Schedule where
  instants : Set DateTime
  /-- `schedule.after(&t).next()`. -/
  next : DateTime → Option DateTime
  next_eq_some : ∀ t n, next t = some n →
    n ∈ instants ∧ t.nanos < n.nanos ∧ ∀ m ∈ instants, t.nanos < m.nanos → n.nanos ≤ m.nanos
  next_eq_none : ∀ t, next t = none → ∀ m ∈ instants, ¬t.nanos < m.nanos

/-! ## The crontab -/

/-- `schema::CrontabJob`, with the fields that are read before a job runs. -/
structure CrontabJob where
  id : String
  schedule : String

/-- `loader::CrontabError`, as far as `validate` returns it. -/
inductive CrontabError where
  | invalidExpression (expr jobId reason : String)
  | duplicateJobId (jobId : String)
  deriving DecidableEq, Repr

/-- `scheduler::CronError`, as far as `add_job` returns it, with its text. -/
inductive CronError where
  | invalidExpression (expression : String)
  deriving DecidableEq, Repr

def CronError.display : CronError → String
  | .invalidExpression expression => "invalid cron expression: " ++ expression

/-- `normalise_expression`: the crate wants six fields, the crontab has five. -/
def normaliseExpression (expr : String) : String :=
  if (splitWhitespace expr).length = 5 then "0 " ++ expr else expr

/-! ## The scheduler -/

inductive MissedRunPolicy where
  | skip
  | fireOnce
  deriving DecidableEq, Repr

structure CronJob where
  id : String
  name : String
  expression : String
  missedRunPolicy : MissedRunPolicy
  lastRun : Option DateTime
  enabled : Bool

/-- `scheduler::CronScheduler`: the jobs by their ids. -/
abbrev CronScheduler := HashMap String CronJob

section CronCrate

variable (fromStr : String → Except String Schedule)

def validateSchedule (job : CrontabJob) : Except CrontabError Unit :=
  match fromStr (normaliseExpression job.schedule) with
  | .ok _ => .ok ()
  | .error reason => .error (.invalidExpression job.schedule job.id reason)

/-- The loop of `loader::validate`. -/
def validateJobs (seenIds : List String) : List CrontabJob → Except CrontabError Unit
  | [] => .ok ()
  | job :: rest =>
    if job.id ∈ seenIds then .error (.duplicateJobId job.id)
    else do
      validateSchedule fromStr job
      validateJobs (job.id :: seenIds) rest

/-- `loader::validate`. -/
def validateCrontab (jobs : List CrontabJob) : Except CrontabError Unit :=
  validateJobs fromStr [] jobs

def CronJob.nextRunAfter (job : CronJob) (after : DateTime) : Option DateTime :=
  match fromStr job.expression with
  | .ok schedule => schedule.next after
  | .error _ => none

namespace CronScheduler

/-- `CronScheduler::add_job`; `id` is the fresh uuid. -/
def addJob (s : CronScheduler) (id name expression : String) (missedRunPolicy : MissedRunPolicy) :
    Except CronError CronScheduler :=
  match fromStr expression with
  | .error _ => .error (.invalidExpression expression)
  | .ok _ =>
    .ok (AList.insert id
      { id, name, expression, missedRunPolicy, lastRun := none, enabled := true } s)

def updateLastRun (s : CronScheduler) (id : String) (time : DateTime) : CronScheduler :=
  match s.lookup id with
  | some job => AList.insert id { job with lastRun := some time } s
  | none => s

/-- The job is due: it is scheduled after `since` and not after `now`. -/
def isDue (job : CronJob) (since now : DateTime) : Bool :=
  job.enabled && (job.nextRunAfter fromStr since).any fun next => decide (next.nanos ≤ now.nanos)

def dueJobs (s : CronScheduler) (since now : DateTime) : List String :=
  (s.entries.filter fun e => isDue fromStr e.2 since now).map (·.2.id)

end CronScheduler

/-! ## The runner -/

structure CronRunner where
  scheduler : CronScheduler
  jobs : HashMap String CrontabJob

/-- The clock readings of one pass of the loop in `run`. -/
structure CronTick where
  tickTime : DateTime
  /-- Read inside `due_jobs`. -/
  now : DateTime

/-- A pass of the loop: its interval, and the jobs it launches. -/
structure TickReport where
  lastTick : DateTime
  tick : CronTick
  launched : List CrontabJob

namespace CronRunner

/-- The loop of `from_crontab` from its `n`-th job on. -/
def register (newV4 : Nat → String) : Nat → List CrontabJob → CronRunner → Except String CronRunner
  | _, [], r => .ok r
  | n, job :: rest, r =>
    match CronScheduler.addJob fromStr r.scheduler (newV4 n) job.id
        (normaliseExpression job.schedule) .skip with
    | .error e => .error ("job '" ++ job.id ++ "': " ++ e.display)
    | .ok scheduler =>
      register newV4 (n + 1) rest { r with scheduler, jobs := r.jobs.insert job.id job }

def fromCrontab (newV4 : Nat → String) (jobs : List CrontabJob) : Except String CronRunner :=
  register fromStr newV4 0 jobs ⟨∅, ∅⟩

/-- The loop of one tick over the due ids. -/
def launch (r : CronRunner) (tickTime : DateTime) : List String → CronRunner × List CrontabJob
  | [] => (r, [])
  | id :: rest =>
    let r' := { r with scheduler := CronScheduler.updateLastRun r.scheduler id tickTime }
    let (r'', launched) := launch r' tickTime rest
    (r'', (r.jobs.lookup id).toList ++ launched)

/-- One pass of the loop in `CronRunner::run`. -/
def tick (r : CronRunner) (lastTick : DateTime) (t : CronTick) : CronRunner × List CrontabJob :=
  r.launch t.tickTime (CronScheduler.dueJobs fromStr r.scheduler lastTick t.now)

/-- `CronRunner::run`, for any number of ticks. -/
def run (r : CronRunner) (lastTick : DateTime) : List CronTick → List TickReport
  | [] => []
  | t :: rest =>
    let (r', launched) := r.tick fromStr lastTick t
    ⟨lastTick, t, launched⟩ :: run r' t.tickTime rest

end CronRunner

end CronCrate

end Avix
