/-
  PROTOCOL — the cron runner launches what is due.

  `cron_fires_iff`: take any crontab that `validate` accepts and any ticks, with any two
  clock readings each. `from_crontab` succeeds. Then in each tick interval (last_tick, tick_time]
  every job with a scheduled instant in it is launched exactly once and no other job is launched,
  and no instant causes launches in two ticks, if and only if no job has a scheduled instant in
  any of the intervals: no job is ever launched.

  Reason. `add_job` stores a job under a fresh UUID and `due_jobs` returns that UUID; the tick
  loop looks it up in the runner's own map, which is keyed by the job ids of the crontab. The
  return value of `add_job` is dropped. The theorem assumes that `Uuid::new_v4` does not return
  a string that stands in the crontab as an id.
-/
import Avix.Cron.Scheduler

namespace Avix.Protocol

open Lib List

section CronCrate

variable (fromStr : String → Except String Schedule)

/-! ## Instants and launches -/

/-- The instants at which a job is to run. -/
def instantsOf (job : CrontabJob) : Set DateTime :=
  match fromStr (normaliseExpression job.schedule) with
  | .ok schedule => schedule.instants
  | .error _ => ∅

/-- The job has an instant in the interval of the tick. -/
def ScheduledIn (job : CrontabJob) (rep : TickReport) : Prop :=
  ∃ t ∈ instantsOf fromStr job, rep.lastTick.nanos < t.nanos ∧ t.nanos ≤ rep.tick.tickTime.nanos

/-- How often a tick has launched a job. -/
def launches (job : CrontabJob) (rep : TickReport) : Nat :=
  rep.launched.countP (·.id == job.id)

/-- The instant made the tick launch the job: it is the next one after the last tick. -/
def Causes (t : DateTime) (job : CrontabJob) (rep : TickReport) : Prop :=
  0 < launches job rep ∧ t ∈ instantsOf fromStr job ∧ rep.lastTick.nanos < t.nanos ∧
    ∀ u ∈ instantsOf fromStr job, rep.lastTick.nanos < u.nanos → t.nanos ≤ u.nanos

structure FiresExactly (jobs : List CrontabJob) (reports : List TickReport) : Prop where
  once : ∀ rep ∈ reports, ∀ job ∈ jobs, ScheduledIn fromStr job rep → launches job rep = 1
  notAtAll : ∀ rep ∈ reports, ∀ job ∈ jobs, ¬ScheduledIn fromStr job rep → launches job rep = 0
  oneTick : reports.Pairwise fun rep rep' =>
    ∀ job ∈ jobs, ∀ t, Causes fromStr t job rep → ¬Causes fromStr t job rep'

end CronCrate

/-! ## Registering the jobs -/

/-- The scheduler knows the jobs by generated ids, the runner by those of the crontab. -/
structure Registered (newV4 : Nat → String) (jobs : List CrontabJob) (r : CronRunner) : Prop where
  generated : ∀ key job, r.scheduler.lookup key = some job → ∃ n, job.id = newV4 n
  named : ∀ id job, r.jobs.lookup id = some job → ∃ j ∈ jobs, j.id = id

section CronCrate

variable {fromStr : String → Except String Schedule} {newV4 : Nat → String}
  {jobs : List CrontabJob}

/-- Every expression of an accepted crontab parses. -/
theorem exists_schedule_of_validateJobs {seen : List String} {jobs : List CrontabJob}
    (h : validateJobs fromStr seen jobs = .ok ()) :
    ∀ job ∈ jobs, ∃ schedule, fromStr (normaliseExpression job.schedule) = .ok schedule := by
  induction jobs generalizing seen with
  | nil => exact nofun
  | cons job rest ih =>
    rw [validateJobs] at h
    split_ifs at h
    obtain ⟨_, hsched, hrest⟩ := bind_eq_ok_iff.mp h
    intro j hj
    rcases mem_cons.mp hj with rfl | hj
    · unfold validateSchedule at hsched
      split at hsched
      · next schedule hs => exact ⟨schedule, hs⟩
      · cases hsched
    · exact ih hrest j hj

variable {r : CronRunner}

theorem register_ok {n : Nat} {rest : List CrontabJob}
    (hparse : ∀ job ∈ rest, ∃ schedule, fromStr (normaliseExpression job.schedule) = .ok schedule)
    (hsub : ∀ job ∈ rest, job ∈ jobs) (hr : Registered newV4 jobs r) :
    ∃ r', CronRunner.register fromStr newV4 n rest r = .ok r' ∧ Registered newV4 jobs r' := by
  induction rest generalizing n r with
  | nil => exact ⟨r, rfl, hr⟩
  | cons job rest ih =>
    obtain ⟨schedule, hs⟩ := hparse job mem_cons_self
    rw [CronRunner.register, CronScheduler.addJob, hs]
    refine ih (fun j hj => hparse j (mem_cons_of_mem _ hj))
      (fun j hj => hsub j (mem_cons_of_mem _ hj)) ⟨fun key cj hl => ?_, fun id j hl => ?_⟩
    · rcases HashMap.of_lookup_insert hl with ⟨-, rfl⟩ | ⟨-, hold⟩
      · exact ⟨n, rfl⟩
      · exact hr.generated key cj hold
    · rcases HashMap.of_lookup_insert hl with ⟨rfl, -⟩ | ⟨-, hold⟩
      · exact ⟨job, hsub job mem_cons_self, rfl⟩
      · exact hr.named id j hold

theorem fromCrontab_ok (newV4 : Nat → String) (h : validateCrontab fromStr jobs = .ok ()) :
    ∃ r, CronRunner.fromCrontab fromStr newV4 jobs = .ok r ∧ Registered newV4 jobs r :=
  register_ok (exists_schedule_of_validateJobs h) (fun _ hj => hj)
    ⟨nofun, nofun⟩

/-! ## Ticks -/

theorem registered_updateLastRun (hr : Registered newV4 jobs r) (id : String) (time : DateTime) :
    Registered newV4 jobs
      { r with scheduler := CronScheduler.updateLastRun r.scheduler id time } := by
  refine ⟨fun key cj hl => ?_, hr.named⟩
  dsimp only at hl
  unfold CronScheduler.updateLastRun at hl
  split at hl
  · next job hjob =>
    rcases HashMap.of_lookup_insert hl with ⟨-, rfl⟩ | ⟨-, hold⟩
    · exact hr.generated id job hjob
    · exact hr.generated key cj hold
  · exact hr.generated key cj hl

/-- An id that the runner does not know launches nothing. -/
theorem launch_unknown (hr : Registered newV4 jobs r) (tickTime : DateTime) {ids : List String}
    (hids : ∀ id ∈ ids, r.jobs.lookup id = none) :
    Registered newV4 jobs (r.launch tickTime ids).1 ∧ (r.launch tickTime ids).2 = [] := by
  induction ids generalizing r with
  | nil => exact ⟨hr, rfl⟩
  | cons id rest ih =>
    obtain ⟨hr', hnil⟩ := ih (registered_updateLastRun hr id tickTime)
      fun id' hid' => hids id' (mem_cons_of_mem _ hid')
    refine ⟨hr', ?_⟩
    rw [CronRunner.launch]
    dsimp only
    rw [hnil, hids id mem_cons_self]
    rfl

/-- The runner does not know a generated id. -/
theorem lookup_due_eq_none (fromStr : String → Except String Schedule)
    (hfresh : ∀ n, ∀ job ∈ jobs, newV4 n ≠ job.id) (hr : Registered newV4 jobs r)
    (since now : DateTime) :
    ∀ id ∈ CronScheduler.dueJobs fromStr r.scheduler since now, r.jobs.lookup id = none := by
  intro id hid
  obtain ⟨e, he, rfl⟩ := mem_map.mp hid
  obtain ⟨n, hn⟩ := hr.generated e.1 e.2 (AList.mem_lookup_iff.mpr (mem_filter.mp he).1)
  cases hl : r.jobs.lookup e.2.id with
  | none => rfl
  | some job =>
    obtain ⟨j, hj, hjid⟩ := hr.named _ job hl
    exact absurd (hn.symm.trans hjid.symm) (hfresh n j hj)

theorem launched_eq_nil (hfresh : ∀ n, ∀ job ∈ jobs, newV4 n ≠ job.id)
    (hr : Registered newV4 jobs r) (lastTick : DateTime) (ticks : List CronTick) :
    ∀ rep ∈ r.run fromStr lastTick ticks, rep.launched = [] := by
  induction ticks generalizing r lastTick with
  | nil => exact nofun
  | cons t rest ih =>
    obtain ⟨hr', hnil⟩ :=
      launch_unknown hr t.tickTime (lookup_due_eq_none fromStr hfresh hr lastTick t.now)
    intro rep hrep
    rw [CronRunner.run] at hrep
    rcases mem_cons.mp hrep with rfl | hrep
    · exact hnil
    · exact ih hr' t.tickTime rep hrep

theorem launches_eq_zero {rep : TickReport} (h : rep.launched = []) (job : CrontabJob) :
    launches job rep = 0 := by
  rw [launches, h]
  rfl

theorem cron_fires_iff (fromStr : String → Except String Schedule) (newV4 : Nat → String)
    (jobs : List CrontabJob) (hvalid : validateCrontab fromStr jobs = .ok ())
    (hfresh : ∀ n, ∀ job ∈ jobs, newV4 n ≠ job.id) (lastTick : DateTime)
    (ticks : List CronTick) :
    ∃ r, CronRunner.fromCrontab fromStr newV4 jobs = .ok r ∧
      (FiresExactly fromStr jobs (r.run fromStr lastTick ticks) ↔
        ∀ rep ∈ r.run fromStr lastTick ticks, ∀ job ∈ jobs, ¬ScheduledIn fromStr job rep) := by
  obtain ⟨r, hr, hreg⟩ := fromCrontab_ok newV4 hvalid
  have hzero : ∀ rep ∈ r.run fromStr lastTick ticks, ∀ job, launches job rep = 0 :=
    fun rep hrep => launches_eq_zero (launched_eq_nil hfresh hreg lastTick ticks rep hrep)
  refine ⟨r, hr, fun h rep hrep job hjob hsched => ?_, fun h => ⟨?_, ?_, ?_⟩⟩
  · have hone := h.once rep hrep job hjob hsched
    rw [hzero rep hrep job] at hone
    cases hone
  · intro rep hrep job hjob hsched
    exact absurd hsched (h rep hrep job hjob)
  · intro rep hrep job _ _
    exact hzero rep hrep job
  · refine List.Pairwise.imp_of_mem (fun hrep _ _ job _ t hcause => ?_)
      (pairwise_of_forall fun _ _ => trivial)
    exact absurd hcause.1 (by rw [hzero _ hrep job]; exact Nat.lt_irrefl 0)

end CronCrate

/-! ## A crontab with one job -/

/-- A schedule with a single instant, one minute after the epoch. -/
def onceSchedule : Schedule where
  instants := {⟨60000000000⟩}
  next t := if t.nanos < 60000000000 then some ⟨60000000000⟩ else none
  next_eq_some t n h := by
    split_ifs at h with ht
    cases h
    exact ⟨rfl, ht, fun m hm _ => by rw [Set.mem_singleton_iff.mp hm]⟩
  next_eq_none t h m hm := by
    split_ifs at h with ht
    rw [Set.mem_singleton_iff.mp hm]
    exact ht

def nightlyJob : CrontabJob where
  id := "nightly"
  schedule := "0 3 * * *"

/-- Ids that do not occur in the crontab. -/
def sampleUuids (n : Nat) : String := "uuid-" ++ toString n

theorem sampleUuids_fresh : ∀ n, ∀ job ∈ [nightlyJob], sampleUuids n ≠ job.id := by
  intro n job hjob h
  rw [mem_singleton.mp hjob] at h
  -- the one begins with a "u", the other with an "n"
  have hhead := congrArg (fun s => s.toList.head?) h
  simp [sampleUuids, nightlyJob] at hhead

/-- Ticks at 30 s, and before the instant of the job. -/
theorem cron_fires_before_due :
    ∃ r, CronRunner.fromCrontab (fun _ => .ok onceSchedule) sampleUuids [nightlyJob] = .ok r ∧
      FiresExactly (fun _ => .ok onceSchedule) [nightlyJob]
        (r.run (fun _ => .ok onceSchedule) ⟨0⟩ [⟨⟨30000000000⟩, ⟨30000000001⟩⟩]) := by
  obtain ⟨r, hr, hiff⟩ := cron_fires_iff (fun _ => .ok onceSchedule) sampleUuids [nightlyJob] rfl
    sampleUuids_fresh ⟨0⟩ [⟨⟨30000000000⟩, ⟨30000000001⟩⟩]
  refine ⟨r, hr, hiff.mpr fun rep hrep job _ => ?_⟩
  have hone : rep ∈ [(⟨⟨0⟩, ⟨⟨30000000000⟩, ⟨30000000001⟩⟩, _⟩ : TickReport)] := hrep
  rw [mem_singleton.mp hone]
  rintro ⟨t, ht, -, hle⟩
  obtain rfl := Set.mem_singleton_iff.mp ht
  have hlate : (60000000000 : Int) ≤ 30000000000 := hle
  omega

/-- The job is due at one minute, and the tick at 90 s launches nothing. -/
theorem due_job_not_launched :
    ∃ r, validateCrontab (fun _ => .ok onceSchedule) [nightlyJob] = .ok () ∧
      CronRunner.fromCrontab (fun _ => .ok onceSchedule) sampleUuids [nightlyJob] = .ok r ∧
      ∃ rep, r.run (fun _ => .ok onceSchedule) ⟨0⟩ [⟨⟨90000000000⟩, ⟨90000000001⟩⟩] = [rep] ∧
        ScheduledIn (fun _ => .ok onceSchedule) nightlyJob rep ∧ launches nightlyJob rep = 0 :=
  ⟨_, rfl, rfl, _, rfl, ⟨⟨60000000000⟩, rfl, by decide, by decide⟩, rfl⟩

end Avix.Protocol
