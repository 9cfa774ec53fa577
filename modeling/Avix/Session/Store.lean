/-
  Session and invocation records with their stores (`session/record.rs`,
  `session/persistence.rs`, `invocation/record.rs`, `invocation/store.rs`).

  A store is a map from id to record behind a database that can fail. Each operation takes
  a flag that says whether the database fails this time.
-/
import Avix.Types.Basic

namespace Avix

/-- The canonical text of a `uuid::Uuid`. -/
abbrev Uuid := String

/-! ## Sessions -/

inductive SessionStatus where
  | running | idle | paused | completed | failed | archived
  deriving DecidableEq, Repr

structure PidInvocationMeta where
  pid : Pid
  invocationId : String
  agentName : String
  agentVersion : String := ""
  deriving DecidableEq, Repr

structure SessionRecord where
  id : Uuid
  title : String
  goal : String
  username : String
  status : SessionStatus := .running
  originAgent : String
  primaryAgent : String
  participants : List String := []
  ownerPid : Pid
  pids : List Pid
  invocationPids : List PidInvocationMeta := []
  deriving DecidableEq, Repr

namespace SessionRecord

def new (id : Uuid) (username originAgent title goal : String) (ownerPid : Pid) : SessionRecord :=
  { id, title, goal, username, originAgent, primaryAgent := originAgent, ownerPid
    pids := [ownerPid] }

def addPid (r : SessionRecord) (pid : Pid) : SessionRecord :=
  if r.pids.contains pid then r else { r with pids := r.pids ++ [pid] }

def removePid (r : SessionRecord) (pid : Pid) : SessionRecord :=
  { r with pids := r.pids.filter (· ≠ pid) }

def addParticipant (r : SessionRecord) (agentName : String) (makePrimary : Bool) : SessionRecord :=
  { r with
    participants :=
      if r.participants.contains agentName then r.participants else r.participants ++ [agentName]
    primaryAgent := if makePrimary then agentName else r.primaryAgent }

/-- `mark_idle`, `mark_running`, `mark_paused`. -/
def mark (r : SessionRecord) (status : SessionStatus) : SessionRecord := { r with status }

def addInvocationPid (r : SessionRecord) (info : PidInvocationMeta) : SessionRecord :=
  if r.invocationPids.any (·.pid = info.pid) then r
  else { r with invocationPids := r.invocationPids ++ [info] }

end SessionRecord

/-- `session::PersistentSessionStore`. -/
abbrev SessionStore := HashMap Uuid SessionRecord

/-- `SessionStore::get`, as its callers use it: a failure counts as not found. -/
def SessionStore.get (store : SessionStore) (fails : Bool) (id : Uuid) : Option SessionRecord :=
  if fails then none else store.lookup id

/-- `SessionStore::create` and `SessionStore::update`. -/
def SessionStore.put (store : SessionStore) (fails : Bool) (record : SessionRecord) :
    SessionStore :=
  if fails then store else store.insert record.id record

/-! ## Invocations -/

inductive InvocationStatus where
  | running | idle | paused | completed | failed | killed
  deriving DecidableEq, Repr

/-- The statuses no agent comes back from. -/
def InvocationStatus.isTerminal : InvocationStatus → Bool
  | completed | failed | killed => true
  | running | idle | paused => false

structure InvocationRecord where
  id : String
  agentName : String
  username : String
  pid : Pid
  goal : String
  sessionId : String
  status : InvocationStatus := .running
  exitReason : Option String := none
  deriving DecidableEq, Repr

abbrev InvocationStore := HashMap String InvocationRecord

namespace InvocationStore

def create (store : InvocationStore) (fails : Bool) (record : InvocationRecord) : InvocationStore :=
  if fails then store else store.insert record.id record

/-- The read-change-write operations below do nothing for an unknown id. -/
def modify (store : InvocationStore) (fails : Bool) (id : String)
    (f : InvocationRecord → InvocationRecord) : InvocationStore :=
  if fails then store
  else
    match store.lookup id with
    | some r => store.insert id (f r)
    | none => store

/-- `InvocationStore::finalize`: whatever the status was. -/
def finalize (store : InvocationStore) (fails : Bool) (id : String) (status : InvocationStatus)
    (exitReason : Option String) : InvocationStore :=
  store.modify fails id fun r => { r with status, exitReason }

/-- `InvocationStore::update_status`: whatever the status was. -/
def updateStatus (store : InvocationStore) (fails : Bool) (id : String)
    (status : InvocationStatus) : InvocationStore :=
  store.modify fails id fun r => { r with status }

def updateGoal (store : InvocationStore) (fails : Bool) (id : String) (goal : String) :
    InvocationStore :=
  store.modify fails id fun r => { r with goal }

def listAll (store : InvocationStore) : List InvocationRecord := store.entries.map (·.2)

variable {store : InvocationStore} {fails : Bool} {r : InvocationRecord} {id : String}

theorem lookup_modify_ne {id' : String} (h : id' ≠ id) (f : InvocationRecord → InvocationRecord) :
    (store.modify fails id f).lookup id' = store.lookup id' := by
  unfold modify
  split_ifs
  · rfl
  cases store.lookup id with
  | none => rfl
  | some r => exact AList.lookup_insert_ne h

theorem lookup_modify_self (id : String) (f : InvocationRecord → InvocationRecord) :
    (store.modify false id f).lookup id = (store.lookup id).map f := by
  unfold modify
  rw [if_neg Bool.false_ne_true]
  cases h : store.lookup id with
  | none => exact h
  | some r => exact AList.lookup_insert _

theorem lookup_create_ne {record : InvocationRecord} (h : id ≠ record.id) :
    (store.create fails record).lookup id = store.lookup id := by
  unfold create
  split_ifs
  · rfl
  · exact AList.lookup_insert_ne h

/-- Every record is stored under its id. -/
def WellKeyed (store : InvocationStore) : Prop :=
  ∀ id r, store.lookup id = some r → r.id = id

variable (h : WellKeyed store)

include h

theorem WellKeyed.insert (hr : r.id = id) : WellKeyed (AList.insert id r store) := by
  intro id' r' hr'
  rcases HashMap.of_lookup_insert hr' with ⟨rfl, rfl⟩ | ⟨-, hold⟩
  · exact hr
  · exact h id' r' hold

theorem WellKeyed.create (record : InvocationRecord) : WellKeyed (store.create fails record) := by
  unfold InvocationStore.create
  split_ifs
  · exact h
  · exact h.insert rfl

theorem WellKeyed.modify (id : String) {f : InvocationRecord → InvocationRecord}
    (hf : ∀ r, (f r).id = r.id) : WellKeyed (store.modify fails id f) := by
  unfold InvocationStore.modify
  split_ifs
  · exact h
  cases hr : store.lookup id with
  | none => exact h
  | some r => exact h.insert ((hf r).trans (h id r hr))

theorem lookup_of_mem_listAll (hr : r ∈ store.listAll) : store.lookup r.id = some r := by
  obtain ⟨⟨id, r'⟩, hmem, rfl⟩ := List.mem_map.mp hr
  have hlook : store.lookup id = some r' := AList.mem_lookup_iff.mpr hmem
  rw [show (⟨id, r'⟩ : (_ : String) × InvocationRecord).2.id = id from h id r' hlook]
  exact hlook

end InvocationStore

end Avix
