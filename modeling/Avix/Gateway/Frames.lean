/-
  Text frames from their arrival to the reply (`gateway/atp/frame.rs`, `handle_text_frame` in
  `gateway/server.rs`, and `gateway/handlers/*.rs`).

  `AtpFrame.parse` reads a frame from a JSON value; the reader of the text itself is a parameter.
  `dispatch` hands an accepted command to the handler of its domain. A handler answers, or asks
  the kernel and answers with what it gets, or panics; `ipcCalls` keeps every call of the kernel,
  and `outgoing` everything sent to the writer of the connection.

  A frame is handled in one go here: nothing else changes the token store, the sessions and the
  HIL manager meanwhile, and the clock is read once.
-/
import Avix.Gateway.Connections
import Avix.Gateway.Handlers
import Avix.Kernel.HilManager

namespace Avix

open Lib

/-! ## Frames -/

namespace AtpDomain

def all : List AtpDomain :=
  [.auth, .proc, .signal, .fs, .snap, .cron, .users, .crews, .cap, .sys, .pipe, .session]

/-- The name on the wire. -/
def name : AtpDomain → String
  | auth => "auth"
  | proc => "proc"
  | signal => "signal"
  | fs => "fs"
  | snap => "snap"
  | cron => "cron"
  | users => "users"
  | crews => "crews"
  | cap => "cap"
  | sys => "sys"
  | pipe => "pipe"
  | session => "session"

/-- `serde` takes the name of a variant, or an object that maps the name to `null`. -/
def fromValue : Json → Option AtpDomain
  | .string s => all.find? (·.name = s)
  | .object [(s, .null)] => all.find? (·.name = s)
  | _ => none

end AtpDomain

/-- A string member that must be there. -/
def Json.strField (v : Json) (key : String) : Option String := (v.get? key).bind asStr

/-- A string member, `""` if it is not there. -/
def Json.strFieldOrEmpty (v : Json) (key : String) : Option String :=
  match v.get? key with
  | some value => value.asStr
  | none => some ""

/-- `AtpCmd` from a JSON object. -/
def AtpCmd.fromValue (v : Json) : Option AtpCmd := do
  let id ← v.strField "id"
  let token ← v.strField "token"
  let domain ← (v.get? "domain").bind AtpDomain.fromValue
  let op ← v.strField "op"
  return { id, token, domain, op, body := v.index "body" }

structure AtpSubscribe where
  id : String
  token : String
  events : List String
  sinceSeq : Option UInt64

/-- An `Option<u64>` member: `null` and no member are `None`. -/
def Json.optU64Field (v : Json) (key : String) : Option (Option UInt64) :=
  match v.index key with
  | .null => some none
  | value => value.asU64.map some

/-- `AtpSubscribe` from a JSON object. -/
def AtpSubscribe.fromValue (v : Json) : Option AtpSubscribe := do
  let id ← v.strFieldOrEmpty "id"
  let token ← v.strFieldOrEmpty "token"
  let events ← ((v.get? "events").bind Json.asArray).bind (·.mapM Json.asStr)
  let sinceSeq ← v.optU64Field "since_seq"
  return { id, token, events, sinceSeq }

inductive AtpFrame where
  | cmd (cmd : AtpCmd)
  | subscribe (sub : AtpSubscribe)

/-- `AtpFrame::parse`; `fromStr` is `serde_json::from_str`. The error is not kept: nothing
    reads it. -/
def AtpFrame.parse (fromStr : String → Option Json) (raw : String) : Option AtpFrame := do
  let v ← fromStr raw
  match (v.index "type").asStr with
  | some "cmd" => (AtpCmd.fromValue v).map .cmd
  | some "subscribe" => (AtpSubscribe.fromValue v).map .subscribe
  | _ => none

/-! ## Handlers -/

/-- A handler that forwards the body of some commands as it is. -/
def plainRoute (path : String) (ops : List String) (v : ValidatedCmd) : Route :=
  if v.cmd.op ∈ ops then .forward (path ++ v.cmd.op) v.cmd.body
  else .answer (unknownOp v.cmd.id v.cmd.op)

def snapOps : List String := ["create", "list", "restore", "delete"]

/-- `snap::handle`. -/
def snapRoute : ValidatedCmd → Route := plainRoute "kernel/snap/" snapOps

def cronOps : List String := ["list", "add", "remove", "pause", "resume"]

/-- `cron::handle`. -/
def cronRoute : ValidatedCmd → Route := plainRoute "kernel/cron/" cronOps

def crewsOps : List String := ["list", "get", "create", "update", "delete", "join", "leave"]

/-- `crews::handle`. -/
def crewsRoute : ValidatedCmd → Route := plainRoute "kernel/crews/" crewsOps

def sysOps : List String :=
  ["status", "reload", "shutdown", "restart", "logs", "install", "uninstall", "update",
    "service-list", "tool-list"]

/-- `sys::handle`. -/
def sysRoute : ValidatedCmd → Route := plainRoute "kernel/sys/" sysOps

def pipeOps : List String := ["open", "close", "list"]

/-- `pipe::handle`. -/
def pipesRoute : ValidatedCmd → Route := plainRoute "kernel/pipe/" pipeOps

def usersOps : List String := ["list", "create", "update", "delete", "passwd"]

/-- `users::handle`: a plain user may fetch their own record only. -/
def usersRoute (v : ValidatedCmd) : Route :=
  if v.cmd.op = "get" then
    match (v.cmd.body.index "username").asStr with
    | some requested =>
      if v.callerRole < .operator ∧ requested ≠ v.callerIdentity then
        .answer ⟨v.cmd.id, .error ⟨.eperm,
          "'" ++ v.callerIdentity ++ "' may not fetch user '" ++ requested ++ "'"⟩⟩
      else .forward "kernel/users/get" v.cmd.body
    | none => .forward "kernel/users/get" v.cmd.body
  else plainRoute "kernel/users/" usersOps v

def capOps : List String := ["inspect", "grant", "revoke"]

/-- `cap::handle`. -/
def capRoute (v : ValidatedCmd) : Route :=
  if v.cmd.op = "policy/get" then .forward "kernel/cap/policy_get" v.cmd.body
  else if v.cmd.op = "policy/set" then .forward "kernel/cap/policy_set" v.cmd.body
  else plainRoute "kernel/cap/" capOps v

/-- `session::handle`. -/
def sessionRoute (v : ValidatedCmd) : Route :=
  if v.cmd.op = "ready" then .answer ⟨v.cmd.id, .ok (.string "ack")⟩
  else .answer (unknownOp v.cmd.id v.cmd.op)

/-- What `fs::handle` does with a command. -/
def Route.ofFs : Except AtpReply (String × Json) → Route
  | .ok (method, params) => .forward method params
  | .error reply => .answer reply

/-! ## Dispatch -/

/-- What the gateway is given: `ipc` is the kernel, the others are functions of libraries. -/
structure GatewayEnv where
  codec : TokenCodec
  ipc : IpcRouter
  pipePayload : PipePayload
  toRfc3339 : DateTime → String
  fromStr : String → Option Json
  isAdminPort : Bool

/-- `server::WsOutMsg`, before it is serialised; pings are left out. -/
inductive WsOutMsg where
  | event (ev : AtpEvent)
  | reply (reply : AtpReply)

/-- What the handling of a frame reads and changes. -/
structure FrameState where
  tokenStore : ATPTokenStore
  authSvc : AuthService
  hilManager : Option HilManager
  replayGuard : ReplayGuard
  filter : EventFilter
  /-- The ring of the event bus. -/
  ring : List BusEvent
  /-- The calls of the kernel. -/
  ipcCalls : List (String × Json)
  /-- What was sent to the writer of the connection. -/
  outgoing : List WsOutMsg

/-- `HilManager::resolve`, from its begin to its end. -/
def HilManager.resolve (m : HilManager) (now : DateTime) (args : ResolveArgs) :
    HilManager × Except AvixError Unit :=
  match m.approvalStore.consume args.approvalToken with
  | .error e => (m, .error e)
  | .ok approvalStore =>
    let m := { m with approvalStore }
    let (m, dest) := match m.pending.lookup args.hilId with
      | some req => (m.writeFile { req with state := decidedState args.decision }, req.recipient)
      | none => (m, ⟨"", 0, ""⟩)
    let m := { m with pending := m.pending.erase args.hilId }
    (m.publish (resolvedEvent args.hilId args.decision args.resolvedBy dest now), .ok ())

def avixErrToAtp (e : AvixError) : AtpError :=
  if containsStr e.display "EUSED" then ⟨.eused, "approval token already consumed"⟩
  else ⟨.einternal, e.display⟩

namespace FrameState

variable (env : GatewayEnv) (now : DateTime) (s : FrameState)

/-- Do what the route of a command says. `none`: the task has panicked. -/
def follow (id : String) : Route → FrameState × Option AtpReply
  | .forward method params =>
    ({ s with ipcCalls := s.ipcCalls ++ [(method, params)] },
      some (ipcForward id method params env.ipc))
  | .answer reply => (s, some reply)
  | .resolve hilId approvalToken decision payload =>
    match s.hilManager with
    | some mgr =>
      let (mgr, result) := mgr.resolve now
        { hilId, approvalToken, decision, resolvedBy := "", payload }
      ({ s with hilManager := some mgr },
        some ⟨id, (result.map fun _ => .ofMembers [("ok", .bool true)]).mapError avixErrToAtp⟩)
    | none => (s, some ⟨id, .error ⟨.eunavail, "HIL manager not configured"⟩⟩)
  | .panics => (s, none)

/-- `auth::handle`. -/
def authHandle (v : ValidatedCmd) : FrameState × Option AtpReply :=
  let id := v.cmd.id
  match v.cmd.op with
  | "whoami" =>
    (s, some ⟨id, .ok (.ofMembers [("identity", .string v.callerIdentity),
      ("role", .string v.callerRole.display), ("sessionId", .string v.callerSessionId)])⟩)
  | "refresh" =>
    match s.authSvc.refreshToken env.codec s.tokenStore v.cmd.token now now now with
    | .ok (newToken, claims) =>
      (s, some ⟨id, .ok (.ofMembers [("token", .string newToken),
        ("expiresAt", .string (env.toRfc3339 claims.exp))])⟩)
    | .error e => (s, some ⟨id, .error ⟨.eauth, e.display⟩⟩)
  | "logout" =>
    ({ s with
        tokenStore := s.tokenStore.revoke v.callerSessionId
        authSvc := (s.authSvc.revokeSession v.callerSessionId).1 },
      some ⟨id, .ok (.ofMembers [])⟩)
  | "sessions" => s.follow env now id (.forward "kernel/auth/sessions" v.cmd.body)
  | "kick" => s.follow env now id (.forward "kernel/auth/kick" v.cmd.body)
  | op => (s, some (unknownOp id op))

/-- `handlers::dispatch`. -/
def dispatch (v : ValidatedCmd) : FrameState × Option AtpReply :=
  match v.cmd.domain with
  | .auth => s.authHandle env now v
  | .proc => s.follow env now v.cmd.id (procRoute v)
  | .signal => s.follow env now v.cmd.id (signalRoute env.pipePayload v)
  | .fs => s.follow env now v.cmd.id (.ofFs (fsRoute v))
  | .snap => s.follow env now v.cmd.id (snapRoute v)
  | .cron => s.follow env now v.cmd.id (cronRoute v)
  | .users => s.follow env now v.cmd.id (usersRoute v)
  | .crews => s.follow env now v.cmd.id (crewsRoute v)
  | .cap => s.follow env now v.cmd.id (capRoute v)
  | .sys => s.follow env now v.cmd.id (sysRoute v)
  | .pipe => s.follow env now v.cmd.id (pipesRoute v)
  | .session => s.follow env now v.cmd.id (sessionRoute v)

def send (msg : WsOutMsg) : FrameState := { s with outgoing := s.outgoing ++ [msg] }

def announceExpiry (sessionId token : String) : FrameState :=
  if s.tokenStore.isExpiringSoon env.codec token now then
    s.send (.event ⟨.tokenExpiring, sessionId, .ofMembers []⟩)
  else s

/-- `validate_cmd` on the stores of the state. -/
def validate (sessionId : String) (cmd : AtpCmd) : FrameState × Except AtpError ValidatedCmd :=
  let (replayGuard, result) :=
    validateCmd env.codec s.tokenStore s.replayGuard now cmd sessionId env.isAdminPort
  ({ s with replayGuard }, result)

/-- Handle a command. `true`: the task has panicked. -/
def handleCmd (sessionId : String) (cmd : AtpCmd) : FrameState × Bool :=
  match s.validate env now sessionId cmd with
  | (s, .error e) => (s.send (.reply ⟨cmd.id, .error e⟩), false)
  | (s, .ok v) =>
    match (s.announceExpiry env now sessionId v.cmd.token).dispatch env now v with
    | (s, some reply) => (s.send (.reply reply), false)
    | (s, none) => (s, true)

def handleSubscribe (sub : AtpSubscribe) : FrameState :=
  let s := { s with filter := { s.filter with subscribed := sub.events } }
  match sub.sinceSeq with
  | some seq =>
    ((s.ring.filter (seq < ·.seq)).filter s.filter.shouldReceive).foldl
      (fun s ev => s.send (.event ev.event)) s
  | none => s

def handleTextFrame (sessionId text : String) : FrameState × Bool :=
  match AtpFrame.parse env.fromStr text with
  | some (.cmd cmd) => s.handleCmd env now sessionId cmd
  | some (.subscribe sub) => (s.handleSubscribe sub, false)
  | none => (s, false)

end FrameState

end Avix
