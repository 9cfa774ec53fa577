/-
  LIFECYCLE — a failed spawn and what it leaves behind.

  `spawn_atomic_iff`: `ProcHandler::spawn` leaves the process table, the maps of active
  agents, the executor tasks, the session store and `agents.yaml` as they were whenever it
  fails, if the session id is rejected or the record of the agent can be saved. For a new pid
  these are the only cases: when `agents.yaml` cannot be saved, the agent has already been
  registered and its executor runs, and the error is returned without undoing any of it
  (`spawned_but_reported_failed`).
-/
import Avix.Kernel.ProcHandler
import Avix.Security.Attenuation

namespace Avix.Lifecycle

open Lib KernelState

variable {D : Type}

/-! ## Statement -/

/-- The parts of the kernel a spawn changes are the same. -/
structure Unchanged (h h' : ProcHandler D) : Prop where
  processTable : h'.manager.processTable = h.manager.processTable
  activeInvocations : h'.manager.activeInvocations = h.manager.activeInvocations
  activeSessions : h'.manager.activeSessions = h.manager.activeSessions
  tasks : h'.manager.tasks = h.manager.tasks
  sessionStore : h'.manager.sessionStore = h.manager.sessionStore
  agentsYaml : h'.agentsYaml = h.agentsYaml

/-- A call that fails changes nothing. -/
def AllOrNothing (h : ProcHandler D) (r : ProcHandler D × Except AvixError Pid) : Prop :=
  ∀ e, r.2 = .error e → Unchanged h r.1

/-- The record of the new agent cannot be saved. -/
def RecordFails (codec : AgentsCodec) (h : ProcHandler D) (a : SpawnArgs) (env : ProcSpawnEnv) :
    Prop :=
  SaveFails codec env.file
    (agentsWith codec env.file h.agentsYaml env.spawn.pid a.name a.goal a.sessionId)

/-! ## The two ways to fail -/

section Cases

variable {x : Externals D} (codec : AgentsCodec) {h : ProcHandler D} {a : SpawnArgs}
  (env : ProcSpawnEnv)

/-- A rejected session id is noticed before anything is done. -/
theorem spawn_of_rejectsSession (hrej : h.manager.RejectsSession x a) :
    ∃ e, h.spawn x codec a env = (h, .error e) := by
  obtain ⟨e, he⟩ := (effectiveSession_eq_error_iff env.spawn).mpr hrej
  refine ⟨e, ?_⟩
  unfold ProcHandler.spawn
  rw [spawn_of_effectiveSession_error he]

/-- With any other session id the agent is spawned, and the result is that of saving. -/
theorem spawn_of_not_rejectsSession (hrej : ¬ h.manager.RejectsSession x a) :
    ∃ s', h.manager.Spawned x a env.spawn s' ∧ h.spawn x codec a env =
      let saved := persistAgentRecord codec env.file h.agentsYaml env.spawn.pid a.name a.goal
        a.sessionId
      (⟨s', saved.1⟩, saved.2.map fun _ => env.spawn.pid) := by
  cases hsess : h.manager.effectiveSession x a env.spawn with
  | error e => exact absurd ((effectiveSession_eq_error_iff _).mp ⟨e, hsess⟩) hrej
  | ok r =>
    obtain ⟨s', hspawn, hs'⟩ := spawn_of_effectiveSession hsess
    refine ⟨s', hs', ?_⟩
    unfold ProcHandler.spawn
    rw [hspawn]

theorem map_eq_error_iff {α β : Type} {r : Except AvixError α} {f : α → β} {e : AvixError} :
    r.map f = .error e ↔ r = .error e := by
  cases r <;> simp [Except.map]

end Cases

/-! ## Main statement -/

theorem spawn_atomic_iff (x : Externals D) (codec : AgentsCodec) (h : ProcHandler D)
    (a : SpawnArgs) (env : ProcSpawnEnv) :
    ((h.manager.RejectsSession x a ∨ ¬ RecordFails codec h a env) →
      AllOrNothing h (h.spawn x codec a env)) ∧
    (h.manager.processTable.get env.spawn.pid = none → AllOrNothing h (h.spawn x codec a env) →
      h.manager.RejectsSession x a ∨ ¬ RecordFails codec h a env) := by
  by_cases hrej : h.manager.RejectsSession x a
  · obtain ⟨e, hspawn⟩ := spawn_of_rejectsSession codec env hrej
    refine ⟨fun _ e' _ => ?_, fun _ _ => .inl hrej⟩
    rw [hspawn]
    exact ⟨rfl, rfl, rfl, rfl, rfl, rfl⟩
  · obtain ⟨s', hs', hspawn⟩ := spawn_of_not_rejectsSession codec env hrej
    have hfails : RecordFails codec h a env ↔ ∃ e, (h.spawn x codec a env).2 = .error e := by
      rw [hspawn]
      unfold RecordFails
      rw [saveFails_iff codec env.file h.agentsYaml]
      exact exists_congr fun e => map_eq_error_iff.symm
    constructor
    · rintro (hno | hsaved) e he
      · exact absurd hno hrej
      · exact absurd (hfails.mpr ⟨e, he⟩) hsaved
    · intro hfresh hall
      refine .inr fun hrec => ?_
      -- the entry of the new agent is in the table although the call has failed
      obtain ⟨e, he⟩ := hfails.mp hrec
      have htable := (hall e he).processTable
      have hentry := hs'.entry env.spawn.pid
      rw [if_pos rfl] at hentry
      rw [hspawn] at htable
      rw [htable, hfresh] at hentry
      cases hentry

/-! ## A full disk -/

open Security

/-- The text of `agents.yaml` with the one agent of the example. -/
def leadYaml : String :=
  "agents:\n- pid: 1\n  name: lead\n  goal: ''\n  session_id: ''\n" ++
    "  spawned_at: 1970-01-01T00:00:00Z\n"

def leadCodec : AgentsCodec := ⟨fun _ => .ok [], fun _ => .ok leadYaml⟩

/-- A kernel with a session store and no agents. -/
def idleHandler : ProcHandler Unit := ⟨{ officeKernel with sessionStore := some ∅ }, none⟩

/-- The disk is full when the agent `lead` is spawned. -/
def fullDisk : ProcSpawnEnv :=
  ⟨envOf 1, ⟨⟨0⟩, none, some "No space left on device (os error 28)", none⟩⟩

/-- The caller is told that the spawn has failed, and the agent runs. -/
theorem spawned_but_reported_failed :
    let r := idleHandler.spawn officeExternals leadCodec (spawnOf "lead" none) fullDisk
    r.2 = .error (.io "No space left on device (os error 28)") ∧ ¬ AllOrNothing idleHandler r ∧
      (r.1.manager.processTable.get 1).map (·.status) = some .running ∧
      (r.1.manager.tasks.lookup 1).isSome = true := by
  have hspawn : ∃ s', (idleHandler.manager.spawn officeExternals (spawnOf "lead" none) (envOf 1)) =
      (s', .ok 1) ∧
        idleHandler.manager.Spawned officeExternals (spawnOf "lead" none) (envOf 1) s' :=
    spawn_of_effectiveSession rfl
  obtain ⟨s', hs', hspaw⟩ := hspawn
  have hr : idleHandler.spawn officeExternals leadCodec (spawnOf "lead" none) fullDisk =
      (⟨s', none⟩, .error (.io "No space left on device (os error 28)")) := by
    unfold ProcHandler.spawn
    rw [show fullDisk.spawn = envOf 1 from rfl, hs']
    rfl
  have hentry : s'.processTable.get 1 = some (spawnedEntry (spawnOf "lead" none) 1) :=
    (hspaw.entry 1).trans (if_pos rfl)
  intro r
  rw [show r = _ from hr]
  refine ⟨rfl, fun hall => ?_, by rw [hentry]; rfl, ?_⟩
  · have htable := (hall _ rfl).processTable
    rw [show s'.processTable = idleHandler.manager.processTable from htable] at hentry
    cases hentry
  · obtain ⟨params, hpar, -⟩ := hspaw.launched rfl
    exact Option.isSome_iff_exists.mpr ⟨params, hpar⟩

end Avix.Lifecycle
