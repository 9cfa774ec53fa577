/-
  The IPC server of the kernel for processes, sessions, messages and signals
  (`kernel/ipc_server.rs`, `kernel/proc/mod.rs`, `history/record.rs`, `history/store.rs`), and the
  way of a command from the gateway to it.

  `kernelCall` reads method and params as `dispatch_request` does, with its defaults; `run` makes
  the call, with nothing else in between. A reply holds the records whose fields the server puts
  into its answer.

  The databases do not fail here: a failed access only makes a call do less. Left out: the
  timestamps and counters of the records, `agents.yaml`, the list of installed agents, and what
  package calls do (`Package/Syscall`). The methods `kernel/sys/*` and `fs/*` are not reached by
  the commands of this module.
-/
import Avix.Gateway.Handlers
import Avix.Kernel.SessionResume
import Avix.Session.Membership

namespace Avix

open SessionRecord hiding id

open Lib Option

/-! ## History -/

/-- `history::record::Role`. -/
inductive MessageRole where
  | user | assistant | tool | system
  deriving DecidableEq, Repr

structure MessageRecord where
  id : Uuid
  sessionId : Uuid
  sequence : UInt64
  role : MessageRole
  timestamp : DateTime
  content : String
  tokens : Option UInt64
  deriving DecidableEq, Repr

inductive PartType where
  | text | toolCall | fileDiff | codeBlock | thought | image | embedding | summary
  deriving DecidableEq, Repr

structure PartRecord where
  id : Uuid
  messageId : Uuid
  partIndex : UInt32
  partType : PartType
  data : Json

structure HistoryStore where
  messages : HashMap Uuid MessageRecord
  parts : HashMap Uuid PartRecord

namespace HistoryStore

variable (store : HistoryStore)

/-- `HistoryStore::create_message`: whatever was stored under the id. -/
def createMessage (m : MessageRecord) : HistoryStore :=
  { store with messages := store.messages.insert m.id m }

def listMessages (sessionId : Uuid) : List MessageRecord :=
  ((store.messages.entries.map (·.2)).filter (·.sessionId = sessionId)).mergeSort
    fun m m' => m.sequence ≤ m'.sequence

def createPart (p : PartRecord) : HistoryStore :=
  { store with parts := store.parts.insert p.id p }

def listParts (messageId : Uuid) : List PartRecord :=
  ((store.parts.entries.map (·.2)).filter (·.messageId = messageId)).mergeSort
    fun p p' => p.partIndex ≤ p'.partIndex

end HistoryStore

/-! ## Calls -/

/-- The error of a JSON-RPC response. -/
structure RpcError where
  code : Int
  message : String
  deriving DecidableEq, Repr

/-- A request on one session, with who asks. -/
structure SessionRequest where
  sessionId : Uuid
  callerIdentity : String
  isPrivileged : Bool

/-- A request that `dispatch_request` has read. -/
inductive KernelCall where
  | spawn (a : SpawnArgs)
  | list
  | kill (pid : Pid)
  | stat (pid : Pid)
  | pause (pid : Pid)
  | resume (pid : Pid)
  /-- `wait` and `setcap`. -/
  | stub
  | listInstalled (username : String)
  | sessionInvocations (sessionId : String)
  | userInvocations (username : String) (agentName : Option String) (live : Bool)
  | invocationConversation (id : String)
  | invocationGet (id : String)
  | invocationSnapshot (id : String)
  | messageCreate (m : MessageRecord)
  | messageGet (id : Uuid)
  | messageList (sessionId : Uuid)
  | partCreate (p : PartRecord)
  | partGet (id : Uuid)
  | partList (messageId : Uuid)
  | sessionList (username : String)
  | sessionGet (r : SessionRequest)
  | sessionPause (r : SessionRequest)
  | sessionResume (r : ResumeRequest)
  | sessionDelete (r : SessionRequest)
  | package (params : Json)
  | signal (pid : Pid) (name : String) (payload : Json)

/-- What the server and the gateway take from outside. -/
structure IpcExternals (D : Type) extends ExecutorExternals D where
  /-- `serde_json::from_value`, or the error text. -/
  messageOfJson : Json → Except String MessageRecord
  partOfJson : Json → Except String PartRecord
  pipePayload : PipePayload

section Dispatch

variable {D : Type} (x : IpcExternals D)

/-- `params[key].as_str().unwrap_or(default)`. -/
def strParam (params : Json) (key default : String) : String :=
  ((params.index key).asStr).getD default

def pidParam (params : Json) : Pid :=
  (((params.index "id").asU64).or ((params.index "pid").asU64)).getD 0

def uuidParam (params : Json) (key message : String) (call : Uuid → KernelCall) :
    Except RpcError KernelCall :=
  match x.parseUuid (strParam params key "") with
  | .ok uuid => .ok (call uuid)
  | .error _ => .error ⟨-32002, message⟩

def sessionParam (params : Json) (key : String) (call : SessionRequest → KernelCall) :
    Except RpcError KernelCall :=
  uuidParam x params key "invalid session ID" fun sessionId =>
    call ⟨sessionId, strParam params "caller_identity" "",
      ((params.index "is_privileged").asBool).getD false⟩

/-- The parameters of `kernel/proc/spawn`. -/
def spawnParams (params : Json) : SpawnArgs where
  name := strParam params "name" "unnamed"
  goal := strParam params "goal" ""
  sessionId := strParam params "session_id" ""
  atpSessionId := strParam params "atp_session_id" ""
  callerIdentity := strParam params "caller" "gateway"
  parentPid := (params.index "parent_pid").asU64

/-- The parameters of `kernel/proc/invocation-list`. -/
def invocationListParams (params : Json) : KernelCall :=
  if strParam params "session_id" "" ≠ "" then
    .sessionInvocations (strParam params "session_id" "")
  else
    .userInvocations (strParam params "username" "") ((params.index "agent_name").asStr)
      (((params.index "live").asBool).getD true)

/-- The parameters of `kernel/signal/send`. -/
def signalParams (params : Json) : Except RpcError KernelCall :=
  let pid := ((params.index "pid").asU64).getD 0
  let name := strParam params "signal" ""
  if pid = 0 then .error ⟨-32602, "missing pid"⟩
  else if name = "" then .error ⟨-32602, "missing signal"⟩
  else .ok (.signal pid name (params.index "payload"))

/-- The part of `dispatch_request` that reads a request. -/
def kernelCall (method : String) (params : Json) : Except RpcError KernelCall :=
  match method with
  | "kernel/proc/spawn" => .ok (.spawn (spawnParams params))
  | "kernel/proc/list" => .ok .list
  | "kernel/proc/kill" => .ok (.kill (pidParam params))
  | "kernel/proc/stat" => .ok (.stat (pidParam params))
  | "kernel/proc/pause" => .ok (.pause (pidParam params))
  | "kernel/proc/resume" => .ok (.resume (pidParam params))
  | "kernel/proc/wait" => .ok .stub
  | "kernel/proc/setcap" => .ok .stub
  | "kernel/proc/list-installed" => .ok (.listInstalled (strParam params "username" ""))
  | "kernel/proc/invocation-list" => .ok (invocationListParams params)
  | "kernel/proc/invocation-conversation" =>
    .ok (.invocationConversation (strParam params "id" ""))
  | "kernel/proc/invocation-get" => .ok (.invocationGet (strParam params "id" ""))
  | "kernel/proc/invocation-snapshot" => .ok (.invocationSnapshot (strParam params "id" ""))
  | "kernel/proc/message-create" =>
    match x.messageOfJson (params.index "message") with
    | .ok m => .ok (.messageCreate m)
    | .error e => .error ⟨-32002, "invalid message: " ++ e⟩
  | "kernel/proc/message-get" => uuidParam x params "id" "invalid message UUID" .messageGet
  | "kernel/proc/message-list" =>
    uuidParam x params "session_id" "invalid session UUID" .messageList
  | "kernel/proc/part-create" =>
    match x.partOfJson (params.index "part") with
    | .ok p => .ok (.partCreate p)
    | .error e => .error ⟨-32002, "invalid part: " ++ e⟩
  | "kernel/proc/part-get" => uuidParam x params "id" "invalid part UUID" .partGet
  | "kernel/proc/part-list" => uuidParam x params "message_id" "invalid message UUID" .partList
  | "kernel/proc/session/list" => .ok (.sessionList (strParam params "username" ""))
  | "kernel/proc/session/get" => sessionParam x params "id" .sessionGet
  | "kernel/proc/session/pause" => sessionParam x params "session_id" .sessionPause
  | "kernel/proc/session/resume" =>
    sessionParam x params "session_id" fun r => .sessionResume
      ⟨r.sessionId, (params.index "input").asStr, r.callerIdentity, r.isPrivileged⟩
  | "kernel/proc/session/delete" => sessionParam x params "session_id" .sessionDelete
  | "kernel/proc/package/install-agent" => .ok (.package params)
  | "kernel/proc/package/uninstall-agent" => .ok (.package params)
  | "kernel/proc/package/install-service" => .ok (.package params)
  | "kernel/proc/package/uninstall-service" => .ok (.package params)
  | "kernel/signal/send" => signalParams params
  | other => .error ⟨-32601, "unknown kernel method: " ++ other⟩

end Dispatch

/-! ## The server -/

/-- The result of a call. -/
inductive KernelReply where
  | error (e : RpcError)
  | done
  | pid (pid : Pid)
  | agents (entries : List ProcessEntry)
  | agent (entry : ProcessEntry)
  | invocations (records : List InvocationRecord)
  | conversation (username : String) (entries : List ConversationEntry)
  | messages (records : List MessageRecord)
  | parts (records : List PartRecord)
  | sessions (records : List SessionRecord)

/-- The kernel behind the server. -/
structure KernelServer (D : Type) where
  live : LiveKernel D
  history : Option HistoryStore
  /-- The conversation files, by user, session and pid. -/
  conversations : String → String → Pid → List ConversationEntry

/-- The time, the pid and the ids that a spawn takes from outside. -/
structure SpawnIds where
  now : DateTime
  pid : Pid
  sessionUuid : Uuid
  invocationUuid : Uuid

def SpawnIds.env (ids : SpawnIds) : SpawnEnv :=
  ⟨ids.now, ids.pid, ids.sessionUuid, ids.invocationUuid, fun _ => false⟩

namespace KernelState

variable {D : Type} (x : Externals D) (k : KernelState D)

/-- The session of an ended agent. -/
def leaveSession (pid : Pid) (status : InvocationStatus) (session : SessionRecord) :
    SessionRecord :=
  let session := session.removePid pid
  if pid = session.ownerPid then session.mark (SessionChange.ownerStatus status session.status)
  else session

def finalizeSessionForPid (pid : Pid) (status : InvocationStatus) : KernelState D :=
  match k.activeSessions.lookup pid with
  | none => k
  | some sid =>
    { k with activeSessions := k.activeSessions.erase pid }.changeSessionStr x false false sid
      (leaveSession pid status)

end KernelState

namespace KernelServer

variable {D : Type} (x : IpcExternals D) (ids : SpawnIds) (s : KernelServer D)

def withLive (live : LiveKernel D) : KernelServer D := { s with live }

def session (id : Uuid) : Option SessionRecord := s.live.kernel.session id

def record (id : String) : Option InvocationRecord := s.live.kernel.record id

def entry (pid : Pid) : Option ProcessEntry := s.live.kernel.processTable.get pid

def message (id : Uuid) : Option MessageRecord := s.history.bind (·.messages.lookup id)

def part (id : Uuid) : Option PartRecord := s.history.bind (·.parts.lookup id)

def failed (e : AvixError) : KernelServer D × KernelReply := (s, .error ⟨-32000, e.display⟩)

/-- `ProcHandler::spawn`. -/
def spawn (a : SpawnArgs) : KernelServer D × KernelReply :=
  match s.live.kernel.beginSpawn x.toExternals a ids.env with
  | .error e => s.failed e
  | .ok (k, params) =>
    (s.withLive { s.live.launch k params with kernel := k.setStatus ids.pid .running },
      .pid ids.pid)

/-- `AgentManager::list`. -/
def list : List ProcessEntry :=
  (s.live.kernel.processTable.entries.map (·.2)).filter (·.kind = .agent)

/-- `ProcHandler::abort_agent`, then `kill_proc`. An aborted task drops its executor. -/
def kill (pid : Pid) : KernelServer D × KernelReply :=
  let k := (s.live.kernel.abortAgent pid false).finalizeSessionForPid x.toExternals pid .killed
  let executors :=
    match s.live.kernel.tasks.lookup pid with
    | some _ => s.live.executors.erase pid
    | none => s.live.executors
  (s.withLive { s.live with kernel := k, executors },
    match s.entry pid with
    | some _ => .done
    | none => .error ⟨-32003, (AvixError.invalidPid pid.display).display⟩)

/-- `SignalHandler::pause_agent` or `SignalHandler::resume_agent`, for one agent after another. -/
def suspend (how : Suspension) (pids : List Pid) : KernelServer D :=
  s.withLive (s.live.perform x.toExecutorExternals (pids.flatMap how.actions))

def deliver (sig : Signal) : KernelServer D × KernelReply :=
  if s.live.reaches sig.target then (s.withLive (s.live.send sig), .done)
  else s.failed (.notFound ("no signal channel for pid " ++ toString sig.target.toNat))

/-- `SignalHandler::send_signal`. -/
def signal (pid : Pid) (name : String) (payload : Json) : KernelServer D × KernelReply :=
  match name with
  | "SIGPAUSE" => (s.suspend x pausing [pid], .done)
  | "SIGRESUME" => (s.suspend x resuming [pid], .done)
  | name =>
    match sendSignal pid name payload with
    | .ok [.deliver sig] => s.deliver sig
    | .ok _ => (s, .done)
    | .error e => s.failed e

/-- `InvocationStore::list_all`, if there is a store. -/
def invocations : List InvocationRecord :=
  (s.live.kernel.invocationStore.map (·.listAll)).getD []

/-- `ProcHandler::list_invocations`. -/
def userInvocations (username : String) (agentName : Option String) (live : Bool) :
    List InvocationRecord :=
  (s.invocations.filter fun r => r.username = username ∧ agentName.all (· = r.agentName)).filter
    fun r => live || r.status.isTerminal

/-- `ProcHandler::read_invocation_conversation`. -/
def invocationConversation (id : String) : KernelReply :=
  match s.record id with
  | some r => .conversation r.username (s.conversations r.username r.sessionId r.pid)
  | none => .conversation "" []

/-- `ProcHandler::snapshot_invocation`: the record is written back as it was read. -/
def invocationSnapshot (id : String) : KernelReply :=
  match s.record id with
  | some r =>
    if r.status.isTerminal then
      .error ⟨-32001, (AvixError.invalidInput "cannot snapshot a finalized invocation").display⟩
    else .invocations [r]
  | none => .error ⟨-32003, (AvixError.notFound ("invocation " ++ id ++ " not found")).display⟩

def changeHistory (f : HistoryStore → HistoryStore) : KernelServer D × KernelReply :=
  match s.history with
  | some store => ({ s with history := some (f store) }, .done)
  | none => s.failed (.notFound "history store not configured")

/-- A record that was looked up. -/
def found {α : Type} (what id : String) (reply : α → KernelReply) : Option α → KernelReply
  | some a => reply a
  | none => .error ⟨-32003, what ++ " " ++ id ++ " not found"⟩

/-- `PersistentSessionStore::list_for_user`, if there is a store. -/
def sessionList (username : String) : List SessionRecord :=
  ((s.live.kernel.sessionStore.map fun store => store.entries.map (·.2)).getD []).filter
    (·.username = username)

/-- Go on with a session that the caller may use. -/
def withSession (r : SessionRequest) (none : KernelServer D × KernelReply)
    (f : SessionRecord → KernelServer D × KernelReply) : KernelServer D × KernelReply :=
  match s.session r.sessionId with
  | some session =>
    if sessionOwnershipOk session.username r.callerIdentity r.isPrivileged then f session
    else (s, .error ⟨-32001, "EPERM: session belongs to another user"⟩)
  | .none => none

def sessionNotFound (id : Uuid) : KernelServer D × KernelReply :=
  (s, .error ⟨-32003, "session " ++ id ++ " not found"⟩)

/-- `kernel/proc/session/pause`. -/
def sessionPause (r : SessionRequest) : KernelServer D × KernelReply :=
  s.withSession r (s.sessionNotFound r.sessionId) fun session =>
    if session.ownerPid = 0 then (s, .error ⟨-32001, "session has no active owner pid"⟩)
    else (s.suspend x pausing [session.ownerPid], .done)

/-- `ProcHandler::resume_session`. -/
def resumeWith (r : ResumeRequest) : KernelServer D × KernelReply :=
  match resumeSession r.sessionId r.input (s.session r.sessionId) with
  | .ok a => s.spawn x ids a
  | .error e => s.failed e

/-- `kernel/proc/session/resume`. -/
def sessionResume (r : ResumeRequest) : KernelServer D × KernelReply :=
  s.withSession ⟨r.sessionId, r.callerIdentity, r.isPrivileged⟩ (s.sessionNotFound r.sessionId)
    fun session =>
      match session.resumePath r.input with
      | .resumeAgents pids => (s.suspend x resuming pids, .done)
      | .startOwner owner goal =>
        if s.live.reaches owner then
          (s.withLive (s.live.send (GoalSystem.startSignal owner goal)), .pid owner)
        else s.resumeWith x ids r
      | .newInvocation => s.resumeWith x ids r

/-- `PersistentSessionStore::delete`. -/
def deleteSession (id : Uuid) : LiveKernel D :=
  { s.live with kernel :=
      { s.live.kernel with sessionStore := s.live.kernel.sessionStore.map (·.erase id) } }

/-- `kernel/proc/session/delete`; a session that is not there counts as deleted. -/
def sessionDelete (r : SessionRequest) : KernelServer D × KernelReply :=
  s.withSession r (s, .done) fun _ => (s.withLive (s.deleteSession r.sessionId), .done)

/-- The part of `dispatch_request` that makes the call. -/
def run : KernelCall → KernelServer D × KernelReply
  | .spawn a => s.spawn x ids a
  | .list => (s, .agents s.list)
  | .kill pid => s.kill x pid
  | .stat pid => (s, found "pid" (toString pid.toNat) .agent (s.entry pid))
  | .pause pid => (s.suspend x pausing [pid], .done)
  | .resume pid => (s.suspend x resuming [pid], .done)
  | .stub => (s, .done)
  | .listInstalled _ => (s, .done)
  | .sessionInvocations sessionId =>
    (s, .invocations (s.invocations.filter (·.sessionId = sessionId)))
  | .userInvocations username agentName live =>
    (s, .invocations (s.userInvocations username agentName live))
  | .invocationConversation id => (s, s.invocationConversation id)
  | .invocationGet id => (s, found "invocation" id (fun r => .invocations [r]) (s.record id))
  | .invocationSnapshot id => (s, s.invocationSnapshot id)
  | .messageCreate m => s.changeHistory (·.createMessage m)
  | .messageGet id => (s, found "message" id (fun m => .messages [m]) (s.message id))
  | .messageList sessionId =>
    (s, .messages ((s.history.map (·.listMessages sessionId)).getD []))
  | .partCreate p => s.changeHistory (·.createPart p)
  | .partGet id => (s, found "part" id (fun p => .parts [p]) (s.part id))
  | .partList messageId => (s, .parts ((s.history.map (·.listParts messageId)).getD []))
  | .sessionList username => (s, .sessions (s.sessionList username))
  | .sessionGet r =>
    s.withSession r (s.sessionNotFound r.sessionId) fun session => (s, .sessions [session])
  | .sessionPause r => s.sessionPause x r
  | .sessionResume r => s.sessionResume x ids r
  | .sessionDelete r => s.sessionDelete r
  | .package _ => (s, .done)
  | .signal pid name payload => s.signal x pid name payload

/-! ## From the gateway to the server -/

/-- The handler of a process or signal command. -/
def route (v : ValidatedCmd) : Route :=
  if v.cmd.domain = .signal then signalRoute x.pipePayload v else procRoute v

/-- What the server is asked to do for a command. -/
def callOf (v : ValidatedCmd) : Option (Except RpcError KernelCall) :=
  match route x v with
  | .forward method params => some (kernelCall x method params)
  | _ => none

/-- A process or signal command of the gateway; without a reply if it is not forwarded. -/
def handle (v : ValidatedCmd) : KernelServer D × Option KernelReply :=
  match callOf x v with
  | some (.ok call) => ((s.run x ids call).1, some (s.run x ids call).2)
  | some (.error e) => (s, some (.error e))
  | none => (s, none)

end KernelServer

/-- The values of a map are those that a key finds. -/
theorem HashMap.mem_values {K V : Type} [DecidableEq K] {m : HashMap K V} {v : V} :
    v ∈ m.entries.map (·.2) ↔ ∃ k, m.lookup k = some v := by
  constructor
  · intro h
    obtain ⟨⟨k, w⟩, hmem, rfl⟩ := List.mem_map.mp h
    exact ⟨k, AList.mem_lookup_iff.mpr hmem⟩
  · rintro ⟨k, hk⟩
    exact List.mem_map.mpr ⟨⟨k, v⟩, AList.mem_lookup_iff.mp hk, rfl⟩

/-! ## What a spawn and a kill do to the sessions -/

namespace KernelState

variable {D : Type} {x : Externals D} {k k' : KernelState D} {f : SessionRecord → SessionRecord}
  {ids : SpawnIds} {a : SpawnArgs} {sid : String}

section

variable (hkeyed : SessionsKeyed k)

include hkeyed

theorem session_changeSession {id : Uuid} (hf : ∀ r, (f r).id = r.id) (id' : Uuid) :
    (k.changeSession false false id f).session id' =
      if id = id' then (k.session id').map f else k.session id' := by
  unfold changeSession session
  cases hstore : k.sessionStore with
  | none => split_ifs <;> rfl
  | some store =>
    simp only [map_some, bind_some]
    have hget : store.get false id = store.lookup id := rfl
    cases hold : store.lookup id with
    | none =>
      rw [hget, hold]
      dsimp only
      split_ifs with hid
      · rw [← hid, hold]
        rfl
      · rfl
    | some r =>
      have hr : r.id = id := hkeyed id r (by rw [session, hstore]; exact hold)
      have hput : store.put false (f r) = store.insert id (f r) := by
        rw [← hr, ← hf r]
        rfl
      rw [hget, hold]
      dsimp only
      rw [hput]
      split_ifs with hid
      · rw [← hid, hold]
        exact AList.lookup_insert _
      · exact AList.lookup_insert_ne (Ne.symm hid)

theorem session_changeSessionStr (sid : String) (hf : ∀ r, (f r).id = r.id) (id : Uuid) :
    (k.changeSessionStr x false false sid f).session id =
      if (x.parseUuid sid).toOption = some id then (k.session id).map f else k.session id := by
  unfold changeSessionStr
  cases x.parseUuid sid with
  | error e => rfl
  | ok uuid =>
    simp only [Except.toOption, some.injEq]
    exact session_changeSession hkeyed hf id

theorem sessionsKeyed_of_session {P : Uuid → Prop} [DecidablePred P] (hf : ∀ r, (f r).id = r.id)
    (h : ∀ id, k'.session id = if P id then (k.session id).map f else k.session id) :
    SessionsKeyed k' := by
  intro id r hr
  rw [h] at hr
  split_ifs at hr
  · obtain ⟨r', hr', rfl⟩ := map_eq_some_iff.mp hr
    exact (hf r').trans (hkeyed id r' hr')
  · exact hkeyed id r hr

end

/-- The session of a new agent, once the agent is registered. -/
def enterSession (a : SpawnArgs) (ids : SpawnIds) (session : SessionRecord) : SessionRecord :=
  (session.addPid ids.pid).addInvocationPid ⟨ids.pid, ids.invocationUuid, a.name, ""⟩

theorem enterSession_id (a : SpawnArgs) (ids : SpawnIds) (r : SessionRecord) :
    (enterSession a ids r).id = r.id ∧ (enterSession a ids r).username = r.username := by
  unfold enterSession addInvocationPid addPid
  split_ifs <;> exact ⟨rfl, rfl⟩

theorem mem_pids_enterSession (a : SpawnArgs) (ids : SpawnIds) (r : SessionRecord) :
    ids.pid ∈ (enterSession a ids r).pids := by
  have hadd : ids.pid ∈ (r.addPid ids.pid).pids := by
    unfold addPid
    split_ifs with h
    · exact List.contains_iff_mem.mp h
    · exact List.mem_append_right _ (List.mem_singleton.mpr rfl)
  unfold enterSession addInvocationPid
  split_ifs <;> exact hadd

section

variable (hkeyed : SessionsKeyed k)

include hkeyed

theorem session_registerAgent (a : SpawnArgs) (ids : SpawnIds) (sid : String) (id : Uuid) :
    (k.registerAgent x a ids.env sid).session id =
      if (x.parseUuid sid).toOption = some id then (k.session id).map (enterSession a ids)
      else k.session id := by
  have hpid : ∀ r : SessionRecord, (r.addPid ids.pid).id = r.id := by
    intro r
    unfold addPid
    split_ifs <;> rfl
  have hinfo : ∀ (info : PidInvocationMeta) (r : SessionRecord),
      (r.addInvocationPid info).id = r.id := by
    intro info r
    unfold addInvocationPid
    split_ifs <;> rfl
  have hfirst := session_changeSessionStr (x := x) hkeyed sid hpid
  have hsec := session_changeSessionStr (x := x)
    (sessionsKeyed_of_session hkeyed hpid hfirst) sid
    (hinfo ⟨ids.pid, ids.invocationUuid, a.name, ""⟩) id
  have hsame : (k.registerAgent x a ids.env sid).session id =
      ((k.changeSessionStr x false false sid (·.addPid ids.pid)).changeSessionStr x false false sid
        (·.addInvocationPid ⟨ids.pid, ids.invocationUuid, a.name, ""⟩)).session id := by
    unfold registerAgent changeSessionStr changeSession session
    cases x.parseUuid sid <;> rfl
  rw [hsame, hsec, hfirst]
  split_ifs
  · rw [map_map]
    rfl
  · rfl

theorem session_joinSession {sid' : String} (h : k.joinSession x a ids.env sid = .ok (sid', k')) :
    sid' = sid ∧ ∀ id, k'.session id =
      if (x.parseUuid sid).toOption = some id
      then (k.session id).map (·.addParticipant a.name true) else k.session id := by
  unfold joinSession at h
  split at h
  · next hstore =>
    obtain ⟨rfl, rfl⟩ := Prod.mk.inj (Except.ok.inj h)
    refine ⟨rfl, fun id => ?_⟩
    have hnone : k.session id = none := by rw [session, hstore, bind_none]
    rw [hnone, map_none, ite_self]
  · cases hparse : x.parseUuid sid with
    | error e =>
      rw [hparse] at h
      cases h
    | ok uuid =>
      rw [hparse] at h
      obtain ⟨rfl, rfl⟩ := Prod.mk.inj (Except.ok.inj h)
      simp only [Except.toOption, some.injEq, true_and]
      exact session_changeSession hkeyed fun _ => rfl

theorem session_beginSpawn_joined {params : SpawnParams} (hjoin : k.joinedSession a = some sid)
    (h : k.beginSpawn x a ids.env = .ok (k', params)) (id : Uuid) :
    k'.session id =
      if (x.parseUuid sid).toOption = some id
      then (k.session id).map fun r => enterSession a ids (r.addParticipant a.name true)
      else k.session id := by
  obtain ⟨sid', k₁, -, hsess, -, rfl⟩ := beginSpawn_cases h
  have hjoined : k.joinSession x a ids.env sid = .ok (sid', k₁) := by
    unfold effectiveSession at hsess
    unfold joinedSession at hjoin
    split at hjoin
    · next sid'' hpar =>
      rw [hpar] at hsess
      rw [← some.inj hjoin]
      exact hsess
    · next hpar =>
      rw [hpar] at hsess
      dsimp only at hsess
      unfold resolveSessionFromId at hsess
      split_ifs at hjoin with hid
      rw [if_neg hid] at hsess
      rw [← some.inj hjoin]
      exact hsess
  obtain ⟨rfl, hk₁⟩ := session_joinSession hkeyed hjoined
  have hreg := session_registerAgent (x := x)
    (sessionsKeyed_of_session (f := (·.addParticipant a.name true)) hkeyed (fun _ => rfl) hk₁)
    a ids sid' id
  refine hreg.trans ?_
  rw [hk₁]
  split_ifs
  · rw [map_map]
    rfl
  · rfl

end

theorem session_resolveSessionFromId (hid : a.sessionId = "")
    (h : k.resolveSessionFromId x a ids.env = .ok (sid, k')) :
    sid = ids.sessionUuid ∧ (∀ id ≠ ids.sessionUuid, k'.session id = k.session id) ∧
      ∀ r, k'.session ids.sessionUuid = some r →
        r.id = ids.sessionUuid ∧ r.username = a.callerIdentity := by
  unfold resolveSessionFromId at h
  rw [if_pos hid] at h
  obtain ⟨rfl, rfl⟩ := Prod.mk.inj (Except.ok.inj h)
  unfold session
  cases k.sessionStore with
  | none => exact ⟨rfl, fun _ _ => rfl, nofun⟩
  | some store =>
    refine ⟨rfl, fun id hne => AList.lookup_insert_ne hne, fun r hr => ?_⟩
    obtain rfl := some.inj ((AList.lookup_insert _).symm.trans hr)
    exact ⟨rfl, rfl⟩

/-- A spawn that starts a session changes no other session. -/
theorem session_beginSpawn_new {params : SpawnParams} (hkeyed : SessionsKeyed k)
    (hparse : x.parseUuid ids.sessionUuid = .ok ids.sessionUuid) (hjoin : k.joinedSession a = none)
    (h : k.beginSpawn x a ids.env = .ok (k', params)) :
    (∀ id ≠ ids.sessionUuid, k'.session id = k.session id) ∧
      ∀ r, k'.session ids.sessionUuid = some r → r.username = a.callerIdentity := by
  obtain ⟨sid, k₁, -, hsess, -, rfl⟩ := beginSpawn_cases h
  have hnew : k.resolveSessionFromId x a ids.env = .ok (sid, k₁) ∧ a.sessionId = "" := by
    unfold effectiveSession at hsess
    unfold joinedSession at hjoin
    split at hjoin
    · cases hjoin
    next hpar =>
    rw [hpar] at hsess
    split_ifs at hjoin with hid
    exact ⟨hsess, hid⟩
  obtain ⟨rfl, hold, hcre⟩ := session_resolveSessionFromId hnew.2 hnew.1
  have hkey₁ : SessionsKeyed k₁ := by
    intro id r hr
    by_cases hid : id = ids.sessionUuid
    · rw [hid] at hr ⊢
      exact (hcre r hr).1
    · exact hkeyed id r ((hold id hid).symm.trans hr)
  have hreg := session_registerAgent (x := x) hkey₁ a ids ids.sessionUuid
  rw [hparse] at hreg
  simp only [Except.toOption, some.injEq] at hreg
  refine ⟨fun id hid => ?_, fun r hr => ?_⟩
  · exact (hreg id).trans ((if_neg (Ne.symm hid)).trans (hold id hid))
  have hr' := (hreg ids.sessionUuid).symm.trans hr
  rw [if_pos rfl] at hr'
  obtain ⟨created, hmem, rfl⟩ := map_eq_some_iff.mp hr'
  exact (enterSession_id a ids created).2.trans (hcre created hmem).2

/-! ## What a kill changes -/

theorem leaveSession_id (pid : Pid) (status : InvocationStatus) (r : SessionRecord) :
    (leaveSession pid status r).id = r.id ∧ (leaveSession pid status r).username = r.username := by
  unfold leaveSession
  dsimp only
  split_ifs <;> exact ⟨rfl, rfl⟩

/-- The session of an agent, as the kernel finds it when the agent ends. -/
def sessionId (x : Externals D) (k : KernelState D) (pid : Pid) : Option Uuid :=
  (k.activeSessions.lookup pid).bind fun sid => (x.parseUuid sid).toOption

theorem session_finalizeSessionForPid (hkeyed : SessionsKeyed k) (pid : Pid)
    (status : InvocationStatus) (id : Uuid) :
    (k.finalizeSessionForPid x pid status).session id =
      if k.sessionId x pid = some id then (k.session id).map (leaveSession pid status)
      else k.session id := by
  unfold finalizeSessionForPid sessionId
  cases k.activeSessions.lookup pid with
  | none => rfl
  | some sid =>
    exact session_changeSessionStr (k := { k with activeSessions := k.activeSessions.erase pid })
      hkeyed sid (fun r => (leaveSession_id pid status r).1) id

theorem finalizeSessionForPid_frame (pid : Pid) (status : InvocationStatus) :
    k.finalizeSessionForPid x pid status = { k with
        sessionStore := (k.finalizeSessionForPid x pid status).sessionStore
        activeSessions := (k.finalizeSessionForPid x pid status).activeSessions } := by
  unfold finalizeSessionForPid changeSessionStr
  cases k.activeSessions.lookup pid with
  | none => rfl
  | some sid =>
    dsimp only
    cases x.parseUuid sid <;> rfl

theorem record_finalizeInvocation (pid : Pid) (status : InvocationStatus)
    (exitReason : Option String) (id : String) :
    (k.finalizeInvocation pid status exitReason false).record id =
      if k.activeInvocations.lookup pid = some id
      then (k.record id).map fun r => { r with status, exitReason } else k.record id := by
  unfold finalizeInvocation
  cases k.activeInvocations.lookup pid with
  | none => rfl
  | some id' =>
    refine (k.record_modify false id' id _).trans ?_
    simp [eq_comm]

theorem finalizeInvocation_frame (pid : Pid) (status : InvocationStatus)
    (exitReason : Option String) (storeFails : Bool) :
    k.finalizeInvocation pid status exitReason storeFails = { k with
        activeInvocations :=
          (k.finalizeInvocation pid status exitReason storeFails).activeInvocations
        invocationStore :=
          (k.finalizeInvocation pid status exitReason storeFails).invocationStore } := by
  unfold finalizeInvocation
  cases k.activeInvocations.lookup pid <;> rfl

end KernelState

end Avix
