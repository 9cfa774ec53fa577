/-
  The agents of a session under concurrent calls (`kernel/proc/agent.rs`,
  `kernel/proc/signals.rs`, `kernel/proc/mod.rs`, `executor/runtime_executor.rs`,
  `session/persistence.rs`).

  Everything that changes a session record gets all of it from the store, changes the copy and
  puts all of it back with `update`. A call is the list of such accesses that it still has to
  make, in order; between any two of them other calls come in. Accesses to other tables do not
  matter here: a pause or resume starts with its look at `active_sessions`.

  Ghost state: the agents that were spawned or restored into a session and not finalised
  (`members`), and the ones that were ever spawned into it (`spawned`).

  The kernel has a factory and a session store.
-/
import Avix.Kernel.Suspend
import Avix.Lib.ReadWrite

namespace Avix

open Lib

/-! ## Changes of a session -/

/-- What a call does to the session it has read. -/
inductive SessionChange where
  | addParticipant (name : String)
  | addPid (pid : Pid)
  | addInvocationPid (info : PidInvocationMeta)
  /-- `pause_agent` or `resume_agent`, if the session follows. -/
  | suspend (how : Suspension) (pid : Pid)
  | markIdle
  /-- `finalize_session_for_pid`. -/
  | finalize (pid : Pid) (status : InvocationStatus)

namespace SessionChange

/-- The status of a session whose owner is finalised. -/
def ownerStatus (status : InvocationStatus) (old : SessionStatus) : SessionStatus :=
  match status with
  | .completed => .completed
  | .failed => .failed
  | .killed => .failed
  | _ => old

/-- The record to write, if any. -/
def apply (r : SessionRecord) : SessionChange → Option SessionRecord
  | .addParticipant name => some (r.addParticipant name true)
  | .addPid pid => some (r.addPid pid)
  | .addInvocationPid info => some (r.addInvocationPid info)
  | .suspend how pid => if how.cascades pid r then some (r.mark how.session) else none
  | .markIdle => some (r.mark .idle)
  | .finalize pid status =>
    let r := r.removePid pid
    some (if pid = r.ownerPid then r.mark (ownerStatus status r.status) else r)

end SessionChange

/-! ## Calls -/

/-- An access that a call has still to make. -/
inductive SessionAccess where
  /-- Get the session, and write it back changed. -/
  | edit (id : Uuid) (change : SessionChange)
  /-- Insert into `active_sessions`. -/
  | activate (pid : Pid) (sid : String)

/-- A session that was read and is to be written back. -/
structure HeldSession where
  id : Uuid
  copy : SessionRecord
  change : SessionChange

structure SessionCall where
  held : Option HeldSession := none
  rest : List SessionAccess

namespace SessionCall

/-- The session whose copy the call holds. -/
def claim (call : SessionCall) : Option Uuid := call.held.map (·.id)

def copy (call : SessionCall) : Option SessionRecord := call.held.map (·.copy)

def Finished (call : SessionCall) : Prop := call.held = none ∧ call.rest = []

end SessionCall

structure SessionSystem where
  store : SessionStore
  activeSessions : HashMap Pid String := ∅
  calls : List SessionCall := []
  /-- Ghost: spawned or restored into the session and not finalised. -/
  members : List (Uuid × Pid) := []
  /-- Ghost: ever spawned into the session. -/
  spawned : List (Uuid × Pid) := []

inductive SessionInput where
  | spawn (a : SpawnArgs) (env : SpawnEnv)
  | restoreFromInvocation (inv : InvocationRecord)
  | pauseAgent (pid : Pid)
  | resumeAgent (pid : Pid)
  /-- An executor of the session goes idle. -/
  | idle (sessionId : String)
  | finalizeSessionForPid (pid : Pid) (status : InvocationStatus)
  /-- A call makes its next access; the database may fail. -/
  | act (call : Nat) (fails : Bool)

namespace SessionSystem

variable {D : Type} (x : Externals D) (s : SessionSystem)

/-- Agents and sessions of earlier runs of the kernel are only in the store. -/
def boot (store : SessionStore) : SessionSystem :=
  { store
    spawned := store.entries.flatMap fun e => e.2.invocationPids.map fun info => (e.1, info.pid) }

def call (rest : List SessionAccess) : SessionSystem :=
  { s with calls := s.calls ++ [{ rest }] }

/-- The accesses of `spawn` after the session has been chosen. -/
def registerAccesses (a : SpawnArgs) (env : SpawnEnv) (sid : String) : List SessionAccess :=
  match x.parseUuid sid with
  | .ok id =>
    [.edit id (.addPid env.pid), .activate env.pid sid,
      .edit id (.addInvocationPid ⟨env.pid, env.invocationUuid, a.name, ""⟩)]
  | .error _ => [.activate env.pid sid]

/-- Spawn into an existing session; an id that does not parse is an error. -/
def spawnInto (a : SpawnArgs) (env : SpawnEnv) (sid : String) : SessionSystem :=
  match x.parseUuid sid with
  | .ok id =>
    { s with members := (id, env.pid) :: s.members, spawned := (id, env.pid) :: s.spawned }.call
      (.edit id (.addParticipant a.name) :: registerAccesses x a env sid)
  | .error _ => s

/-- Spawn into a new session, which is created at once. -/
def spawnNew (a : SpawnArgs) (env : SpawnEnv) : SessionSystem :=
  let record := SessionRecord.new env.sessionUuid a.callerIdentity a.name a.name a.goal env.pid
  { s with
    store := s.store.put (env.storeFails .createSession) record
    members := (env.sessionUuid, env.pid) :: s.members
    spawned := (env.sessionUuid, env.pid) :: s.spawned }.call
      (registerAccesses x a env env.sessionUuid)

/-- The session of the parent, if it is active, or the one asked for. -/
def joined (a : SpawnArgs) : Option String :=
  match a.parentPid.bind fun ppid => s.activeSessions.lookup ppid with
  | some sid => some sid
  | none => if a.sessionId = "" then none else some a.sessionId

def spawn (a : SpawnArgs) (env : SpawnEnv) : SessionSystem :=
  match s.joined a with
  | some sid => s.spawnInto x a env sid
  | none => s.spawnNew x a env

def restoreFromInvocation (inv : InvocationRecord) : SessionSystem :=
  match x.parseUuid inv.sessionId with
  | .ok id =>
    { s with members := (id, inv.pid) :: s.members }.call
      [.edit id (.addPid inv.pid), .activate inv.pid inv.sessionId]
  | .error _ => s.call [.activate inv.pid inv.sessionId]

/-- The part of a pause or resume that is about the session. -/
def suspend (how : Suspension) (pid : Pid) : SessionSystem :=
  match s.activeSessions.lookup pid with
  | some sid =>
    match x.parseUuid sid with
    | .ok id => s.call [.edit id (.suspend how pid)]
    | .error _ => s
  | none => s

/-- The last part of `RuntimeExecutor::idle`. -/
def idle (sessionId : String) : SessionSystem :=
  if sessionId = "" then s
  else s.call [.edit ((x.parseUuid sessionId).toOption.getD LiveKernel.nilUuid) .markIdle]

def finalizeSessionForPid (pid : Pid) (status : InvocationStatus) : SessionSystem :=
  let left := { s with
    activeSessions := s.activeSessions.erase pid
    members := s.members.filter (·.2 ≠ pid) }
  match s.activeSessions.lookup pid with
  | some sid =>
    match x.parseUuid sid with
    | .ok id => left.call [.edit id (.finalize pid status)]
    | .error _ => left
  | none => left

/-- The next access of a call. -/
def act (i : Nat) (fails : Bool) : SessionSystem :=
  match s.calls[i]? with
  | none => s
  | some call =>
    match call.held with
    | some e =>
      { s with
        store := ((e.change.apply e.copy).map (s.store.put fails)).getD s.store
        calls := s.calls.set i { rest := call.rest } }
    | none =>
      match call.rest with
      | .edit id change :: rest =>
        let held := (s.store.get fails id).bind fun copy =>
          (change.apply copy).map fun _ => HeldSession.mk id copy change
        { s with calls := s.calls.set i { held, rest } }
      | .activate pid sid :: rest =>
        { s with
          activeSessions := s.activeSessions.insert pid sid
          calls := s.calls.set i { rest } }
      | [] => s

def step : SessionInput → SessionSystem
  | .spawn a env => s.spawn x a env
  | .restoreFromInvocation inv => s.restoreFromInvocation x inv
  | .pauseAgent pid => s.suspend x pausing pid
  | .resumeAgent pid => s.suspend x resuming pid
  | .idle sessionId => s.idle x sessionId
  | .finalizeSessionForPid pid status => s.finalizeSessionForPid x pid status
  | .act call fails => s.act call fails

section Act

variable {s : SessionSystem} {i : Nat} {call : SessionCall} {fails : Bool}
  {rest : List SessionAccess} (hcall : s.calls[i]? = some call)

include hcall

/-- A session is read. It is kept if it is to be written back. -/
theorem act_read (hheld : call.held = none) {id : Uuid} {change : SessionChange}
    (hrest : call.rest = .edit id change :: rest) :
    s.act i fails = { s with
      calls := s.calls.set i ⟨(s.store.get fails id).bind fun copy =>
        (change.apply copy).map fun _ => HeldSession.mk id copy change, rest⟩ } := by
  unfold act
  rw [hcall]
  dsimp only
  rw [hheld]
  dsimp only
  rw [hrest]

theorem act_activate (hheld : call.held = none) {pid : Pid} {sid : String}
    (hrest : call.rest = .activate pid sid :: rest) :
    s.act i fails = { s with
      activeSessions := s.activeSessions.insert pid sid
      calls := s.calls.set i { rest } } := by
  unfold act
  rw [hcall]
  dsimp only
  rw [hheld]
  dsimp only
  rw [hrest]

theorem act_write {e : HeldSession} (hheld : call.held = some e) : s.act i fails = { s with
    store := ((e.change.apply e.copy).map (s.store.put fails)).getD s.store
    calls := s.calls.set i { rest := call.rest } } := by
  unfold act
  rw [hcall]
  dsimp only
  rw [hheld]

end Act

end SessionSystem

end Avix
