/-
  Spawning, restoring and aborting agents (`kernel/proc/agent.rs`,
  `agent_manifest/scanner.rs`).

  The kernel state holds the process table, the stores, the two maps of active agents, the
  tool registry, the file system the manifests are read from, and the parameters of every
  executor task that was launched. `minted` is not in the source: it keeps the last token
  minted for each pid, also when no executor factory is wired and the token is dropped.

  What a call takes from outside is an argument: the clock, the generated pid and ids, and for
  each access of a store whether the database fails. `Externals` holds the libraries: the MAC,
  the parsers for UUIDs and manifests, and the disk.

  * `mem_resolveGrantedTools`: which tools an agent is granted.
  * `spawn_eq_ok`: what a successful spawn changes.
-/
import Avix.Kernel.CapabilityResolver
import Avix.Memfs.Router
import Avix.Session.Store

namespace Avix

open Lib ProcessTable

/-! ## Manifests -/

/-- The part of `agent_manifest::AgentManifest` that spawning reads. -/
structure AgentManifest where
  kind : String
  name : String
  requestedCapabilities : List String
  deriving DecidableEq, Repr

/-- Library functions the kernel calls. -/
structure Externals (D : Type) where
  hmac : Hmac
  /-- `Uuid::parse_str`, to the canonical text or the error text. -/
  parseUuid : String → Except String Uuid
  /-- `AgentManifest::from_yaml`. -/
  parseManifest : String → Option AgentManifest
  fileSystem : FileSystem D
  yamlOfNames : List String → String

section Scanner

variable {D : Type} (x : Externals D) (vfs : VfsRouter D)

def vfsList (path : VfsPath) : Except AvixError (List String) :=
  match (vfs.operate x.fileSystem x.yamlOfNames (.list path)).2 with
  | .ok (.names entries) => .ok entries
  | .ok _ => .ok []
  | .error e => .error e

def vfsRead (path : VfsPath) : Except AvixError Bytes :=
  match (vfs.operate x.fileSystem x.yamlOfNames (.read path)).2 with
  | .ok (.bytes content) => .ok content
  | .ok _ => .ok []
  | .error e => .error e

/-- The manifest of one directory entry, if it is a valid one of the agent `name`. -/
def loadManifest (dirPath name entry : String) : Option AgentManifest := do
  let path ← (VfsPath.parse (dirPath ++ "/" ++ entry ++ "/manifest.yaml")).toOption
  let raw ← (vfsRead x vfs path).toOption
  let yaml ← fromUtf8 raw
  let manifest ← x.parseManifest yaml
  if manifest.kind = "Agent" ∧ manifest.name = name then some manifest else none

/-- `ManifestScanner::get_manifest_from_dir`: the first valid manifest among the entries that
    start with `<name>@`. -/
def getManifestFromDir (dirPath name : String) : Option AgentManifest := do
  let dir ← (VfsPath.parse dirPath).toOption
  let entries := (vfsList x vfs dir).toOption.getD []
  (entries.filter fun e => ! startsWith e "." && startsWith e (name ++ "@")).findSome?
    (loadManifest x vfs dirPath name)

/-- `ManifestScanner::get_manifest`: system agents first, then the user's. -/
def getManifest (name username : String) : Option AgentManifest :=
  (getManifestFromDir x vfs "/bin" name).or
    (getManifestFromDir x vfs ("/users/" ++ username ++ "/bin") name)

theorem loadManifest_of_read {dirPath name entry text : String} {path : VfsPath}
    (hpath : VfsPath.parse (dirPath ++ "/" ++ entry ++ "/manifest.yaml") = .ok path)
    (hread : vfsRead x vfs path = .ok (utf8 text)) :
    loadManifest x vfs dirPath name entry =
      (x.parseManifest text).filter fun m => m.kind = "Agent" ∧ m.name = name := by
  unfold loadManifest
  simp only [hpath, hread, Except.toOption, fromUtf8_utf8, Option.bind_eq_bind, Option.bind_some]
  cases x.parseManifest text with
  | none => rfl
  | some m => simp [Option.filter]

end Scanner

/-! ## Kernel state -/

/-- `executor::SpawnParams`. -/
structure SpawnParams where
  pid : Pid
  agentName : String
  goal : String
  spawnedBy : String
  sessionId : String
  atpSessionId : String
  token : CapabilityToken
  deniedTools : List String := []
  invocationId : String
  restoreFromPid : Option Pid := none
  deriving DecidableEq, Repr

/-- `kernel::proc::AgentManager` and what it shares with the rest of the kernel. -/
structure KernelState (D : Type) where
  processTable : ProcessTable
  masterKey : Bytes
  /-- `executor_factory` is wired. -/
  hasFactory : Bool
  /-- `task_handles`, with what the task was launched with. -/
  tasks : HashMap Pid SpawnParams
  invocationStore : Option InvocationStore
  sessionStore : Option SessionStore
  /-- The file system of the manifest scanner, if one is wired. -/
  manifestScanner : Option (VfsRouter D)
  activeInvocations : HashMap Pid String
  activeSessions : HashMap Pid String
  toolRegistry : Option ToolRegistry
  minted : HashMap Pid CapabilityToken

/-- The accesses to a store in `spawn` and `restore_from_invocation`. -/
inductive StoreCall where
  | joinGet | joinUpdate | createSession | addPidGet | addPidUpdate | createInvocation
  | recordMetaGet | recordMetaUpdate
  deriving DecidableEq, Repr

/-- What a spawn takes from outside the kernel. -/
structure SpawnEnv where
  now : DateTime
  /-- `Pid::generate()`. -/
  pid : Pid
  /-- The two `Uuid::new_v4()`. -/
  sessionUuid : Uuid
  invocationUuid : Uuid
  /-- The database fails at this access. -/
  storeFails : StoreCall → Bool

structure SpawnArgs where
  name : String
  goal : String
  sessionId : String
  atpSessionId : String
  callerIdentity : String
  parentPid : Option Pid

namespace KernelState

variable {D : Type} (x : Externals D) (s : KernelState D)

/-- Read a session, change it and write it back; a failure at either end is only logged. -/
def changeSession (getFails updateFails : Bool) (id : Uuid)
    (f : SessionRecord → SessionRecord) : KernelState D :=
  { s with sessionStore := s.sessionStore.map fun store =>
      match store.get getFails id with
      | some session => store.put updateFails (f session)
      | none => store }

/-- As `changeSession`, for a session id that may not parse. -/
def changeSessionStr (getFails updateFails : Bool) (id : String)
    (f : SessionRecord → SessionRecord) : KernelState D :=
  match x.parseUuid id with
  | .ok uuid => s.changeSession getFails updateFails uuid f
  | .error _ => s

/-- Join an existing session: an id that does not parse is an error when a store is wired. -/
def joinSession (a : SpawnArgs) (env : SpawnEnv) (sid : String) :
    Except AvixError (String × KernelState D) :=
  match s.sessionStore with
  | none => .ok (sid, s)
  | some _ =>
    match x.parseUuid sid with
    | .error e => .error (.invalidInput e)
    | .ok uuid => .ok (sid, s.changeSession (env.storeFails .joinGet) (env.storeFails .joinUpdate)
        uuid (·.addParticipant a.name true))

def resolveSessionFromId (a : SpawnArgs) (env : SpawnEnv) :
    Except AvixError (String × KernelState D) :=
  if a.sessionId = "" then
    let record :=
      SessionRecord.new env.sessionUuid a.callerIdentity a.name a.name a.goal env.pid
    .ok (env.sessionUuid, { s with
      sessionStore := s.sessionStore.map (·.put (env.storeFails .createSession) record) })
  else s.joinSession x a env a.sessionId

/-- The session a new agent belongs to: its parent's if that is active. -/
def effectiveSession (a : SpawnArgs) (env : SpawnEnv) : Except AvixError (String × KernelState D) :=
  match a.parentPid.bind fun ppid => s.activeSessions.lookup ppid with
  | some sid => s.joinSession x a env sid
  | none => s.resolveSessionFromId x a env

def resolveGrantedTools (agentName caller : String) : List String :=
  let capGroups :=
    match s.manifestScanner with
    | some vfs => ((getManifest x vfs agentName caller).map (·.requestedCapabilities)).getD []
    | none => []
  match s.toolRegistry with
  | some reg => resolveCapabilities reg capGroups
  | none => alwaysPresent

/-- Launch the executor task, if a factory is wired. -/
def launch (params : SpawnParams) : KernelState D :=
  { s with
    tasks := if s.hasFactory then s.tasks.insert params.pid params else s.tasks
    minted := s.minted.insert params.pid params.token }

/-- `AgentManager::spawn` after the session has been chosen, up to the last status change. -/
def registerAgent (a : SpawnArgs) (env : SpawnEnv) (sid : String) : KernelState D :=
  let entry : ProcessEntry :=
    { pid := env.pid, name := a.name, kind := .agent, status := .pending, parent := a.parentPid
      spawnedByUser := a.callerIdentity, goal := a.goal }
  let s := { s with processTable := ProcessTable.insert s.processTable entry }
  let s := s.changeSessionStr x (env.storeFails .addPidGet) (env.storeFails .addPidUpdate) sid
    (·.addPid env.pid)
  let s := { s with activeSessions := s.activeSessions.insert env.pid sid }
  let record : InvocationRecord :=
    { id := env.invocationUuid, agentName := a.name, username := a.callerIdentity, pid := env.pid
      goal := a.goal, sessionId := sid }
  let s := { s with
    invocationStore := s.invocationStore.map
      fun store : InvocationStore => store.create (env.storeFails .createInvocation) record }
  let s := s.changeSessionStr x (env.storeFails .recordMetaGet) (env.storeFails .recordMetaUpdate)
    sid (·.addInvocationPid ⟨env.pid, env.invocationUuid, a.name, ""⟩)
  { s with activeInvocations := s.activeInvocations.insert env.pid env.invocationUuid }

/-- `AgentManager::spawn`, up to the launch of the executor task. -/
def beginSpawn (a : SpawnArgs) (env : SpawnEnv) : Except AvixError (KernelState D × SpawnParams) :=
  match s.effectiveSession x a env with
  | .error e => .error e
  | .ok (sid, s) =>
    let s := s.registerAgent x a env sid
    let issuedTo : IssuedTo := ⟨env.pid, a.name, a.callerIdentity⟩
    let token := CapabilityToken.mint x.hmac env.now
      (s.resolveGrantedTools x a.name a.callerIdentity) (some issuedTo) 3600 s.masterKey
    let params : SpawnParams :=
      { pid := env.pid, agentName := a.name, goal := a.goal, spawnedBy := a.callerIdentity
        sessionId := sid, atpSessionId := a.atpSessionId, token
        invocationId := env.invocationUuid }
    .ok (s.launch params, params)

/-- `AgentManager::spawn`. -/
def spawn (a : SpawnArgs) (env : SpawnEnv) : KernelState D × Except AvixError Pid :=
  match s.beginSpawn x a env with
  | .error e => (s, .error e)
  | .ok (s, _) =>
    match s.processTable.setStatus env.pid .running with
    | .error e => (s, .error e)
    | .ok table => ({ s with processTable := table }, .ok env.pid)

/-- What a restored executor is launched with; it gets the old pid. -/
def restoreParams (inv : InvocationRecord) (now : DateTime) : SpawnParams :=
  let issuedTo : IssuedTo := ⟨inv.pid, inv.agentName, inv.username⟩
  let token := CapabilityToken.mint x.hmac now (s.resolveGrantedTools x inv.agentName inv.username)
    (some issuedTo) 3600 s.masterKey
  { pid := inv.pid, agentName := inv.agentName, goal := inv.goal, spawnedBy := inv.username
    sessionId := inv.sessionId, atpSessionId := "", token, invocationId := inv.id
    restoreFromPid := some inv.pid }

def restoreFromInvocation (inv : InvocationRecord) (now : DateTime)
    (storeFails : StoreCall → Bool) : KernelState D × Option Pid :=
  if s.hasFactory then
    let params := s.restoreParams x inv now
    let entry : ProcessEntry :=
      { pid := inv.pid, name := inv.agentName, kind := .agent, status := .waiting, parent := none
        spawnedByUser := inv.username, goal := inv.goal }
    let s := { s with processTable := ProcessTable.insert s.processTable entry }
    let s := s.changeSessionStr x (storeFails .addPidGet) (storeFails .addPidUpdate) inv.sessionId
      (·.addPid inv.pid)
    let s := { s with
      activeSessions := s.activeSessions.insert inv.pid inv.sessionId
      activeInvocations := s.activeInvocations.insert inv.pid inv.id }
    (s.launch params, some inv.pid)
  else (s, none)

/-- `AgentManager::finalize_invocation`. -/
def finalizeInvocation (pid : Pid) (status : InvocationStatus) (exitReason : Option String)
    (storeFails : Bool) : KernelState D :=
  match s.activeInvocations.lookup pid with
  | none => s
  | some id =>
    { s with
      activeInvocations := s.activeInvocations.erase pid
      invocationStore := s.invocationStore.map (·.finalize storeFails id status exitReason) }

/-- `ProcessTable::set_status` where a failure is ignored. -/
def setStatus (pid : Pid) (status : ProcessStatus) : KernelState D :=
  { s with processTable := (s.processTable.setStatus pid status).toOption.getD s.processTable }

def record (id : String) : Option InvocationRecord := s.invocationStore.bind (·.lookup id)

/-- `AgentManager::abort_agent`. -/
def abortAgent (pid : Pid) (storeFails : Bool) : KernelState D :=
  ({ s with tasks := s.tasks.erase pid }.setStatus pid .stopped).finalizeInvocation pid .killed
    (some "killed") storeFails

/-- The kernel after a restart: only what is on disk is left. -/
def restart : KernelState D :=
  { s with
    processTable := ∅, tasks := ∅, activeInvocations := ∅, activeSessions := ∅, minted := ∅ }

/-- The invocations `restore_interrupted_agents` restores. -/
def interrupted : List InvocationRecord :=
  ((s.invocationStore.map (·.listAll)).getD []).filter fun inv =>
    inv.status = .running || inv.status = .paused || inv.status = .idle

def restoreInterruptedAgents (now : DateTime) (listFails : Bool) (storeFails : StoreCall → Bool) :
    KernelState D :=
  if listFails then s
  else s.interrupted.foldl (fun s inv => (s.restoreFromInvocation x inv now storeFails).1) s

/-- A capability group of the agent's manifest, as it is read now, includes the tool. -/
def Requests (agentName caller tool : String) : Prop :=
  ∃ vfs reg manifest, s.manifestScanner = some vfs ∧ s.toolRegistry = some reg ∧
    getManifest x vfs agentName caller = some manifest ∧
    ∃ cap ∈ manifest.requestedCapabilities, tool ∈ capabilityGroup reg cap

theorem mem_resolveGrantedTools {agentName caller tool : String} :
    tool ∈ s.resolveGrantedTools x agentName caller ↔
      tool ∈ alwaysPresent ∨ s.Requests x agentName caller tool := by
  unfold resolveGrantedTools Requests
  cases hreg : s.toolRegistry with
  | none => simp
  | some reg =>
    cases hvfs : s.manifestScanner with
    | none => simp [mem_resolveCapabilities]
    | some vfs =>
      cases hman : getManifest x vfs agentName caller with
      | _ => simp [mem_resolveCapabilities, hman]

/-! ## What a spawn changes -/

section Frames

variable {x s}

/-- Registering an agent adds its entry and changes neither the tokens nor what they are
    computed from. -/
theorem registerAgent_frame (a : SpawnArgs) (env : SpawnEnv) (sid : String) :
    s.registerAgent x a env sid = { s with
        processTable := insert s.processTable
          { pid := env.pid, name := a.name, kind := .agent, status := .pending
            parent := a.parentPid, spawnedByUser := a.callerIdentity, goal := a.goal }
        sessionStore := (s.registerAgent x a env sid).sessionStore
        activeSessions := (s.registerAgent x a env sid).activeSessions
        invocationStore := (s.registerAgent x a env sid).invocationStore
        activeInvocations := (s.registerAgent x a env sid).activeInvocations } := by
  unfold registerAgent changeSessionStr
  cases x.parseUuid sid <;> rfl

variable {a : SpawnArgs}

/-- Choosing the session changes nothing but the session store. -/
theorem effectiveSession_frame {env : SpawnEnv} {sid : String} {s' : KernelState D}
    (h : s.effectiveSession x a env = .ok (sid, s')) :
    s' = { s with sessionStore := s'.sessionStore } := by
  have hjoin : ∀ id, s.joinSession x a env id = .ok (sid, s') →
      s' = { s with sessionStore := s'.sessionStore } := by
    intro id hid
    unfold joinSession at hid
    split at hid
    · obtain ⟨-, rfl⟩ := Prod.mk.inj (Except.ok.inj hid)
      rfl
    · split at hid
      · cases hid
      · obtain ⟨-, rfl⟩ := Prod.mk.inj (Except.ok.inj hid)
        rfl
  unfold effectiveSession at h
  split at h
  · exact hjoin _ h
  unfold resolveSessionFromId at h
  split_ifs at h
  · obtain ⟨-, rfl⟩ := Prod.mk.inj (Except.ok.inj h)
    rfl
  · exact hjoin _ h

/-- The id of an existing session the new agent is to join. -/
def joinedSession (s : KernelState D) (a : SpawnArgs) : Option String :=
  match a.parentPid.bind fun ppid => s.activeSessions.lookup ppid with
  | some sid => some sid
  | none => if a.sessionId = "" then none else some a.sessionId

/-- The agent is to join a session whose id is not a UUID. -/
def RejectsSession (x : Externals D) (s : KernelState D) (a : SpawnArgs) : Prop :=
  s.sessionStore.isSome = true ∧ ∃ sid e, s.joinedSession a = some sid ∧ x.parseUuid sid = .error e

theorem joinSession_eq_error_iff {env : SpawnEnv} {sid : String} :
    (∃ e, s.joinSession x a env sid = .error e) ↔
      s.sessionStore.isSome = true ∧ ∃ e, x.parseUuid sid = .error e := by
  unfold joinSession
  cases s.sessionStore with
  | none => simp
  | some store => cases x.parseUuid sid <;> simp

/-- Choosing the session fails exactly for a rejected id. -/
theorem effectiveSession_eq_error_iff (env : SpawnEnv) :
    (∃ e, s.effectiveSession x a env = .error e) ↔ RejectsSession x s a := by
  unfold effectiveSession RejectsSession joinedSession
  cases hpar : a.parentPid.bind fun ppid => s.activeSessions.lookup ppid with
  | some sid => simp [joinSession_eq_error_iff]
  | none =>
    unfold resolveSessionFromId
    by_cases hid : a.sessionId = ""
    · simp [hid]
    · simp [hid, joinSession_eq_error_iff]

end Frames

def spawnedEntry (a : SpawnArgs) (pid : Pid) : ProcessEntry :=
  { pid, name := a.name, kind := .agent, status := .running, parent := a.parentPid
    spawnedByUser := a.callerIdentity, goal := a.goal }

def spawnedToken (a : SpawnArgs) (env : SpawnEnv) : CapabilityToken :=
  CapabilityToken.mint x.hmac env.now (s.resolveGrantedTools x a.name a.callerIdentity)
    (some ⟨env.pid, a.name, a.callerIdentity⟩) 3600 s.masterKey

/-- A successful spawn returns the generated pid, adds its entry and mints its token; what the
    granted tools are read from stays. -/
structure Spawned (a : SpawnArgs) (env : SpawnEnv) (s' : KernelState D) : Prop where
  entry : ∀ p, s'.processTable.get p =
    if p = env.pid then some (spawnedEntry a env.pid) else s.processTable.get p
  minted : s'.minted = s.minted.insert env.pid (spawnedToken x s a env)
  scanner : s'.manifestScanner = s.manifestScanner
  registry : s'.toolRegistry = s.toolRegistry
  masterKey : s'.masterKey = s.masterKey
  launched : s.hasFactory = true → ∃ params, s'.tasks.lookup env.pid = some params ∧
    params.token = spawnedToken x s a env

variable {x s} {s' : KernelState D} {env : SpawnEnv} {a : SpawnArgs} {params : SpawnParams}

/-- A spawn whose session was chosen succeeds: the last status change finds the entry that was
    just inserted. -/
theorem spawn_of_effectiveSession {sid : String} {s₁ : KernelState D}
    (hsess : s.effectiveSession x a env = .ok (sid, s₁)) :
    ∃ s', s.spawn x a env = (s', .ok env.pid) ∧ Spawned x s a env s' := by
  unfold spawn beginSpawn
  rw [hsess]
  dsimp only
  rw [effectiveSession_frame hsess, registerAgent_frame]
  dsimp only [launch]
  split
  next e he =>
    have hnone := get_of_modify_error _ he
    rw [get_insert, if_pos rfl] at hnone
    cases hnone
  next table htable =>
    refine ⟨_, rfl, ?_, rfl, rfl, rfl, rfl, ?_⟩
    · intro p
      rw [get_of_modify _ htable, get_insert, get_insert]
      by_cases hp : p = env.pid
      · rw [if_pos hp, if_pos hp, if_pos rfl]
        rfl
      · rw [if_neg hp, if_neg hp]
        exact (if_neg hp).symm
    · intro hfact
      dsimp only
      rw [if_pos hfact, AList.lookup_insert]
      exact ⟨_, rfl, rfl⟩

/-- A spawn fails only where its session is chosen, and then nothing has been done. -/
theorem spawn_of_effectiveSession_error {e : AvixError}
    (hsess : s.effectiveSession x a env = .error e) : s.spawn x a env = (s, .error e) := by
  unfold spawn beginSpawn
  rw [hsess]

theorem spawn_eq_ok {c : Pid} (h : s.spawn x a env = (s', .ok c)) :
    c = env.pid ∧ Spawned x s a env s' := by
  cases hsess : s.effectiveSession x a env with
  | error e =>
    rw [spawn_of_effectiveSession_error hsess] at h
    cases (Prod.mk.inj h).2
  | ok r =>
    obtain ⟨s₂, hspawn, hs₂⟩ := spawn_of_effectiveSession hsess
    obtain ⟨rfl, hc⟩ := Prod.mk.inj (hspawn.symm.trans h)
    exact ⟨(Except.ok.inj hc).symm, hs₂⟩

/-- A failed spawn leaves the kernel as it was. -/
theorem spawn_eq_error {e : AvixError} (h : s.spawn x a env = (s', .error e)) : s' = s := by
  cases hsess : s.effectiveSession x a env with
  | error e =>
    rw [spawn_of_effectiveSession_error hsess] at h
    exact (Prod.mk.inj h).1.symm
  | ok r =>
    obtain ⟨s₂, hspawn, -⟩ := spawn_of_effectiveSession hsess
    rw [hspawn] at h
    cases (Prod.mk.inj h).2

/-- A spawn that has got to the launch has a new entry and a new invocation record. -/
structure Begun (env : SpawnEnv) (s' : KernelState D) (params : SpawnParams) : Prop where
  pid : params.pid = env.pid
  invocationId : params.invocationId = env.invocationUuid
  entry : ∀ p, p ≠ env.pid → s'.processTable.get p = s.processTable.get p
  records : ∃ r, r.id = env.invocationUuid ∧
    s'.invocationStore = s.invocationStore.map (·.create (env.storeFails .createInvocation) r)

theorem registerAgent_invocationStore (a : SpawnArgs) (env : SpawnEnv) (sid : String) :
    ∃ r, r.id = env.invocationUuid ∧ (s.registerAgent x a env sid).invocationStore =
      s.invocationStore.map (·.create (env.storeFails .createInvocation) r) := by
  unfold registerAgent changeSessionStr
  cases x.parseUuid sid <;> exact ⟨_, rfl, rfl⟩

section

variable (h : s.beginSpawn x a env = .ok (s', params))

include h

/-- A spawn has found a session, and has entered the agent into it and the tables. -/
theorem beginSpawn_cases : ∃ sid s₁ token, s.effectiveSession x a env = .ok (sid, s₁) ∧
    params = { pid := env.pid, agentName := a.name, goal := a.goal, spawnedBy := a.callerIdentity
               sessionId := sid, atpSessionId := a.atpSessionId, token
               invocationId := env.invocationUuid } ∧
    s' = (s₁.registerAgent x a env sid).launch params := by
  unfold beginSpawn at h
  split at h
  · cases h
  next sid s₁ hsess =>
  obtain ⟨rfl, rfl⟩ := Prod.mk.inj (Except.ok.inj h)
  exact ⟨sid, s₁, _, hsess, rfl, rfl⟩

theorem beginSpawn_eq_ok : s.Begun env s' params := by
  obtain ⟨sid, s₁, token, hsess, rfl, rfl⟩ := beginSpawn_cases h
  have hsessi := effectiveSession_frame hsess
  refine ⟨rfl, rfl, fun p hp => ?_, ?_⟩
  · rw [launch, registerAgent_frame, hsessi]
    exact (get_insert _ _ _).trans (if_neg hp)
  · obtain ⟨r, hr, hstore⟩ := registerAgent_invocationStore a env sid
    refine ⟨r, hr, hstore.trans ?_⟩
    rw [hsessi]

/-- The executor and the record of a new agent have the goal and the user of the spawn. -/
theorem beginSpawn_goal :
    params.goal = a.goal ∧ params.restoreFromPid = none ∧ s'.hasFactory = s.hasFactory ∧
      ∃ r, r.id = env.invocationUuid ∧ r.goal = a.goal ∧ r.username = a.callerIdentity ∧
        s'.invocationStore =
          s.invocationStore.map (·.create (env.storeFails .createInvocation) r) := by
  obtain ⟨sid, s₁, token, hsess, rfl, rfl⟩ := beginSpawn_cases h
  have hsessi := effectiveSession_frame hsess
  refine ⟨rfl, rfl, ?_, ?_⟩
  · rw [launch, registerAgent_frame, hsessi]
  rw [hsessi]
  unfold launch registerAgent changeSessionStr
  cases x.parseUuid sid <;> exact ⟨_, rfl, rfl, rfl, rfl⟩

/-- The launch of a new agent adds no other task. -/
theorem beginSpawn_tasks {p : Pid} (hp : p ≠ env.pid) : s'.tasks.lookup p = s.tasks.lookup p := by
  obtain ⟨sid, s₁, token, hsess, rfl, rfl⟩ := beginSpawn_cases h
  rw [launch, registerAgent_frame, effectiveSession_frame hsess]
  dsimp only
  split_ifs
  · exact AList.lookup_insert_ne hp
  · rfl

/-- A spawn is its beginning and the last status change. -/
theorem spawn_of_beginSpawn : s.spawn x a env = (s'.setStatus env.pid .running, .ok env.pid) := by
  obtain ⟨sid, s₁, -, hsess, -⟩ := beginSpawn_cases h
  obtain ⟨s₂, hspawn, -⟩ := spawn_of_effectiveSession hsess
  have hsec := congrArg Prod.snd hspawn
  unfold spawn at hsec ⊢
  rw [h] at hsec ⊢
  dsimp only at hsec ⊢
  unfold setStatus
  cases htable : s'.processTable.setStatus env.pid .running with
  | error e =>
    rw [htable] at hsec
    cases hsec
  | ok table => rfl

end

/-! ## What a restore changes -/

def restoredEntry (inv : InvocationRecord) : ProcessEntry :=
  { pid := inv.pid, name := inv.agentName, kind := .agent, status := .waiting, parent := none
    spawnedByUser := inv.username, goal := inv.goal }

/-- A restore adds the entry of the invocation, if an executor can be launched. -/
theorem restoreFromInvocation_processTable (inv : InvocationRecord) (now : DateTime)
    (storeFails : StoreCall → Bool) :
    (s.restoreFromInvocation x inv now storeFails).1.processTable =
      if s.hasFactory then insert s.processTable (restoredEntry inv)
      else s.processTable := by
  unfold restoreFromInvocation
  split_ifs
  · dsimp only [launch]
    unfold changeSessionStr
    cases x.parseUuid inv.sessionId <;> rfl
  · rfl

theorem restoreFromInvocation_tasks (inv : InvocationRecord) (now : DateTime)
    (storeFails : StoreCall → Bool) :
    (s.restoreFromInvocation x inv now storeFails).1.invocationStore = s.invocationStore ∧
      (s.restoreFromInvocation x inv now storeFails).1.hasFactory = s.hasFactory ∧
      (s.restoreFromInvocation x inv now storeFails).1.tasks =
        if s.hasFactory then s.tasks.insert inv.pid (s.restoreParams x inv now) else s.tasks := by
  unfold restoreFromInvocation
  split_ifs with hfact
  · unfold launch changeSessionStr
    cases x.parseUuid inv.sessionId <;> exact ⟨rfl, rfl, if_pos hfact⟩
  · exact ⟨rfl, rfl, rfl⟩

/-- Every task after `restore_interrupted_agents` was there before or belongs to an interrupted
    invocation. -/
theorem restoreInterruptedAgents_tasks (now : DateTime) (listFails : Bool)
    (storeFails : StoreCall → Bool) {p : Pid}
    (h : (s.restoreInterruptedAgents x now listFails storeFails).tasks.lookup p = some params) :
    s.tasks.lookup p = some params ∨ ∃ inv ∈ s.interrupted, params.invocationId = inv.id := by
  unfold restoreInterruptedAgents at h
  split_ifs at h
  · exact .inl h
  -- over any list of invocations, from any state
  generalize s.interrupted = invs at h ⊢
  induction invs generalizing s with
  | nil => exact .inl h
  | cons inv invs ih =>
    rcases ih h with hold | ⟨inv', hmem, hid⟩
    · obtain ⟨-, -, htasks⟩ := restoreFromInvocation_tasks inv now storeFails
      rw [htasks] at hold
      split_ifs at hold
      · rcases HashMap.of_lookup_insert hold with ⟨-, rfl⟩ | ⟨-, hold⟩
        · exact .inr ⟨inv, List.mem_cons_self, rfl⟩
        · exact .inl hold
      · exact .inl hold
    · exact .inr ⟨inv', List.mem_cons_of_mem _ hmem, hid⟩

/-! ## What an abort changes -/

@[simp]
theorem finalizeInvocation_processTable (pid : Pid) (status : InvocationStatus)
    (exitReason : Option String) (storeFails : Bool) :
    (s.finalizeInvocation pid status exitReason storeFails).processTable = s.processTable := by
  unfold finalizeInvocation
  cases s.activeInvocations.lookup pid <;> rfl

@[simp]
theorem finalizeInvocation_minted (pid : Pid) (status : InvocationStatus)
    (exitReason : Option String) (storeFails : Bool) :
    (s.finalizeInvocation pid status exitReason storeFails).minted = s.minted := by
  unfold finalizeInvocation
  cases s.activeInvocations.lookup pid <;> rfl

theorem abortAgent_minted (pid : Pid) (storeFails : Bool) :
    (s.abortAgent pid storeFails).minted = s.minted := by
  rw [abortAgent, finalizeInvocation_minted]
  rfl

/-- The record that a change of an invocation is about. -/
theorem record_modify (s : KernelState D) (fails : Bool) (id id' : String)
    (f : InvocationRecord → InvocationRecord) :
    ({ s with invocationStore := s.invocationStore.map (·.modify fails id f) } :
        KernelState D).record id' =
      if id' = id ∧ fails = false then (s.record id').map f else s.record id' := by
  unfold record
  cases s.invocationStore with
  | none => split_ifs <;> rfl
  | some store =>
    by_cases hid : id' = id
    · subst hid
      cases fails with
      | true => exact (if_neg (by simp)).symm
      | false => exact (InvocationStore.lookup_modify_self _ _).trans (if_pos ⟨rfl, rfl⟩).symm
    · rw [if_neg fun h => hid h.1]
      exact InvocationStore.lookup_modify_ne hid f

theorem record_create {s : KernelState D} {fails : Bool} {r : InvocationRecord}
    (hstore : s'.invocationStore = s.invocationStore.map (·.create fails r)) (id : String) :
    s'.record id =
      if id = r.id ∧ fails = false then s.invocationStore.map fun _ => r else s.record id := by
  unfold record
  rw [hstore]
  cases s.invocationStore with
  | none => split_ifs <;> rfl
  | some store =>
    by_cases hid : id = r.id
    · subst hid
      cases fails with
      | true => exact (if_neg (by simp)).symm
      | false => exact (AList.lookup_insert _).trans (if_pos ⟨rfl, rfl⟩).symm
    · rw [if_neg fun h => hid h.1]
      exact InvocationStore.lookup_create_ne hid

theorem setStatus_get (pid : Pid) (status : ProcessStatus) (p : Pid) :
    (s.setStatus pid status).processTable.get p =
      if p = pid then (s.processTable.get p).map fun e => { e with status }
      else s.processTable.get p := by
  unfold setStatus
  dsimp only
  cases h : s.processTable.setStatus pid status with
  | ok table =>
    change table.get p = _
    rw [get_of_modify _ h]
    split_ifs with hp
    · rw [hp]
    · rfl
  | error e =>
    have hnone := get_of_modify_error _ h
    change s.processTable.get p = _
    split_ifs with hp
    · rw [hp, hnone, Option.map_none]
    · rfl

/-- An abort only changes the status of one entry. -/
theorem abortAgent_get (pid : Pid) (storeFails : Bool) (p : Pid) :
    (s.abortAgent pid storeFails).processTable.get p =
      if p = pid then (s.processTable.get p).map fun e => { e with status := .stopped }
      else s.processTable.get p := by
  rw [abortAgent, finalizeInvocation_processTable]
  exact setStatus_get pid .stopped p

end KernelState

end Avix
