/-
  The executor of one agent and its capability token (`executor/runtime_executor.rs`,
  `executor/runtime_executor/dispatch_manager.rs`, `snapshot/capture.rs`,
  `snapshot/checksum.rs`).

  Three operations replace the token of a running executor:
  * `maybeRenewToken`, at the start of a turn, within five minutes of expiry. With a resource
    handler the kernel mints a new token; without one, or when the handler refuses, only
    `expires_at` is moved and the old signature stays.
  * `capRequestTool`, the tool `cap/request-tool`, when a human has approved the upgrade and
    the answer carries a token.
  * `restoreFromSnapshot`, which builds an unsigned token from the tools in the snapshot.

  Fields of the executor that no function here reads are left out, and so are the list of tools
  for the language model and the log messages. The signals an upgrade receives before its
  timeout are an argument; where they come from is the subject of `Kernel/HilManager`.
-/
import Avix.Executor.HilWait
import Avix.Executor.Validation
import Avix.Kernel.AgentManager
import Avix.Kernel.Hil
import Avix.Kernel.ResourceRequest

namespace Avix

open Lib

/-! ## Snapshots -/

inductive SnapshotTrigger where
  | auto
  | crash
  | manual
  | sigsave
  deriving DecidableEq, Repr

inductive CapturedBy where
  | kernel
  | user (uid : UInt32)
  | agent (pid : Pid)
  deriving DecidableEq, Repr

structure SnapshotMetadata where
  name : String
  agentName : String
  sourcePid : Pid
  capturedAt : DateTime
  capturedBy : CapturedBy
  trigger : SnapshotTrigger

structure PendingRequest where
  requestId : String
  resource : String
  name : String
  status : String

structure SnapshotPipe where
  pipeId : String
  state : String

structure SnapshotEnvironment where
  temperature : ℚ
  capabilityToken : String
  grantedTools : List String

structure SnapshotSpec where
  goal : String
  contextSummary : String
  contextTokenCount : UInt32
  episodicEvents : UInt32
  semanticKeys : UInt32
  pendingRequests : List PendingRequest
  pipes : List SnapshotPipe
  environment : SnapshotEnvironment
  checksum : String

structure SnapshotFile where
  apiVersion : String
  kind : String
  metadata : SnapshotMetadata
  spec : SnapshotSpec

/-- Library functions the executor calls, beside those of the kernel. -/
structure ExecutorExternals (D : Type) extends Externals D where
  /-- `serde_json::from_value::<CapabilityToken>`. -/
  tokenOfJson : Json → Option CapabilityToken
  /-- `serde_json::to_string`. -/
  jsonText : Json → String
  /-- `serde_yaml::from_str::<SnapshotFile>`, or the error text. -/
  parseSnapshot : String → Except String SnapshotFile
  /-- `serde_yaml::to_string`; `none` when it fails. -/
  snapshotYaml : SnapshotFile → Option String
  /-- The text of the error of `String::from_utf8`. -/
  utf8Error : Bytes → String
  sha256 : Bytes → Bytes

section Checksum

variable {D : Type} (x : ExecutorExternals D)

def computeChecksum (file : SnapshotFile) : String :=
  let zeroed := { file with spec := { file.spec with checksum := "" } }
  String.ofList (hexEncode (x.sha256 (utf8 ((x.snapshotYaml zeroed).getD ""))))

/-- `checksum::verify_checksum`. -/
def verifyChecksum (file : SnapshotFile) : Except AvixError Unit :=
  if startsWith file.spec.checksum "sha256:" then
    let stored := dropPrefix file.spec.checksum "sha256:"
    let computed := computeChecksum x file
    if stored ≠ computed then
      .error (.configParse ("snapshot integrity check failed for '" ++ file.metadata.name ++
        "': stored=" ++ stored ++ " computed=" ++ computed))
    else .ok ()
  else .error (.configParse "invalid checksum format")

end Checksum

/-! ## The executor -/

/-- `invocation::conversation::Role`. -/
inductive ConversationRole where
  | user
  | assistant
  | tool
  | system
  | hilRequest
  | hilResponse
  deriving DecidableEq, Repr

structure ToolCallEntry where
  id : String
  name : String
  args : Json
  result : Option Json

structure ConversationEntry where
  role : ConversationRole
  content : String
  toolCalls : List ToolCallEntry := []

def ConversationEntry.fromRoleContent (role : ConversationRole) (content : String) :
    ConversationEntry := { role, content }

structure RestoreResult where
  snapshotName : String
  agentName : String
  reissuedRequests : List String
  reconnectedPipes : List String
  sigpipePipes : List String

structure RuntimeExecutor where
  pid : Pid
  agentName : String
  goal : String
  spawnedBy : String
  atpSessionId : String
  token : CapabilityToken
  /-- `kernel`: the mock kernel, if one is attached, and whether it approves by itself. -/
  kernel : Option Bool
  resourceHandler : Option KernelResourceHandler
  /-- Both `hil_manager` and `signal_bus` are attached. -/
  hasHil : Bool
  conversationHistory : List ConversationEntry
  deniedTools : List String
  pendingMessages : List String := []
  toolBudgets : ToolBudgets := ∅
  hilRequiredTools : List String := []
  maxToolChainLength : Nat := 50
  paused : Bool := false
  killed : Bool := false
  snapshotRequested : Bool := false

namespace RuntimeExecutor

/-- `spawn_with_registry_ref`, then the wiring of `IpcExecutorFactory::launch`. -/
def ofParams (params : SpawnParams) (handler : KernelResourceHandler) : RuntimeExecutor where
  pid := params.pid
  agentName := params.agentName
  goal := params.goal
  spawnedBy := params.spawnedBy
  atpSessionId := params.atpSessionId
  token := params.token
  kernel := none
  resourceHandler := some handler
  hasHil := true
  conversationHistory := []
  deniedTools := params.deniedTools

variable {D : Type} (x : ExecutorExternals D) (s : RuntimeExecutor)

/-! ## Renewal -/

/-- The token expires within the next five minutes. -/
def renewalDue (now : DateTime) : Bool :=
  let untilExpiry := s.token.expiresAt.nanos - now.nanos
  0 < untilExpiry && untilExpiry ≤ 5 * 60 * DateTime.nanosPerSec

/-- The request of `maybe_renew_token`. -/
def renewalRequest (now : DateTime) (uuid : String) : ResourceRequest where
  agentPid := s.pid
  requestId := "req-" ++ uuid
  timestamp := now
  capabilityTokenSignature := s.token.signature
  requests := [.tokenRenewal "auto-renewal within 5 min window"]

/-- The token a resource handler answers the renewal with, if it grants one. -/
def renewedToken (handler : KernelResourceHandler) (now : DateTime) (uuid : String) :
    Option CapabilityToken :=
  match handler.handle x.hmac now (fun _ => "") (s.renewalRequest now uuid) s.token with
  | .error _ => none
  | .ok resp =>
    match resp.grants.head? with
    | some (.tokenRenewal true newToken _ _) => newToken
    | _ => none

/-- `RuntimeExecutor::maybe_renew_token`; the clock is read again after the check. -/
def maybeRenewToken (now later : DateTime) (uuid : String) : RuntimeExecutor :=
  if s.renewalDue now then
    match s.resourceHandler.bind fun handler => s.renewedToken x handler later uuid with
    | some token => { s with token }
    | none => { s with token := { s.token with expiresAt := later.addSecs 3600 } }
  else s

/-! ## Upgrade -/

/-- What an upgrade takes from outside the executor. -/
structure UpgradeEnv where
  now : DateTime
  requestUuid : String
  hilId : String
  approvalToken : String
  /-- The result of `HilManager::open`. -/
  opened : Except AvixError Unit
  /-- The signals received from the subscription before the timeout of 600 s. -/
  received : List Signal
  /-- `Utc::now()` as it is serialised. -/
  resolvedAt : String

/-- The argument `key` of a call, as a string. -/
def strArg (args : Json) (key : String) : String := ((args.index key).asStr).getD ""

/-- The executor after a refused upgrade, and the answer for the language model. -/
def refuse (tool field reason : String) : RuntimeExecutor × Json :=
  ({ s with deniedTools := s.deniedTools ++ [tool] },
    .ofMembers [("approved", .bool false), ("tool", .string tool), (field, .string reason)])

/-- Append an entry whose content is a JSON text. -/
def record (role : ConversationRole) (members : List (String × Json)) : RuntimeExecutor :=
  { s with conversationHistory :=
      s.conversationHistory ++ [.fromRoleContent role (x.jsonText (.ofMembers members))] }

def recordRequest (args : Json) (env : UpgradeEnv) : RuntimeExecutor :=
  s.record x .hilRequest
    [("hilId", .string env.hilId), ("pid", .int s.pid.toNat), ("sessionId", .string s.atpSessionId),
      ("hilType", .string "capability_upgrade"), ("tool", .string (strArg args "tool")),
      ("reason", .string (strArg args "reason")), ("approvalToken", .string env.approvalToken)]

def recordResponse (env : UpgradeEnv) (outcome : String) : RuntimeExecutor :=
  s.record x .hilResponse
    [("hilId", .string env.hilId), ("pid", .int s.pid.toNat), ("outcome", .string outcome),
      ("resolvedAt", .string env.resolvedAt)]

/-- The wait for the decision on an opened upgrade, and what follows it. -/
def awaitUpgrade (args : Json) (env : UpgradeEnv) : RuntimeExecutor × Json :=
  let tool := strArg args "tool"
  match requestTool x.tokenOfJson s.token (awaitResume env.hilId env.received) with
  | (token, .ok ()) =>
    ({ s with token }.recordResponse x env "approved",
      .ofMembers [("approved", .bool true), ("tool", .string tool), ("scope", .string "session")])
  | (_, .error e) =>
    let outcome := if containsStr e.display "timeout" then "timeout" else "denied"
    let (s, answer) := s.refuse tool "reason" e.display
    (s.recordResponse x env outcome, answer)

/-- The arm `cap/request-tool` of `RuntimeExecutor::dispatch_category2`. -/
def capRequestTool (args : Json) (env : UpgradeEnv) : RuntimeExecutor × Json :=
  let tool := strArg args "tool"
  let reason := strArg args "reason"
  if s.kernel = some true then
    (s, .ofMembers [("approved", .bool true), ("tool", .string tool)])
  else
    match s.resourceHandler with
    | none =>
      s.refuse tool "error" "capability escalation unavailable: no resource handler configured"
    | some handler =>
      let req : ResourceRequest :=
        { agentPid := s.pid, requestId := "req-" ++ env.requestUuid, timestamp := env.now
          capabilityTokenSignature := s.token.signature, requests := [.tool tool .normal reason] }
      match handler.handle x.hmac env.now (fun _ => "") req s.token with
      | .error e => s.refuse tool "error" e.display
      | .ok _ =>
        if s.hasHil then
          match env.opened with
          | .error e => s.refuse tool "error" e.display
          | .ok () => (s.recordRequest x args env).awaitUpgrade x args env
        else
          s.refuse tool "error"
            "capability escalation unavailable: HIL infrastructure not configured"

/-! ## Restore -/

/-- Read, decode and check the snapshot of `restore_from_snapshot`; `vfs` is the attached file
    system as it is at the call. -/
def loadSnapshot (vfs : Option (VfsRouter D)) (snapshotName : String) :
    Except AvixError SnapshotFile := do
  let vfs ← match vfs with
    | some vfs => .ok vfs
    | none => .error (.configParse "no VFS attached")
  let path ← (VfsPath.parse ("/users/" ++ s.spawnedBy ++ "/snapshots/" ++ snapshotName ++
    ".yaml")).mapError fun e => .configParse e.display
  let bytes ← (vfsRead x.toExternals vfs path).mapError fun e =>
    .notFound ("snapshot '" ++ snapshotName ++ "': " ++ e.display)
  let yaml ← match fromUtf8 bytes with
    | some yaml => .ok yaml
    | none => .error (.configParse (x.utf8Error bytes))
  let file ← (x.parseSnapshot yaml).mapError .configParse
  verifyChecksum x file
  return file

def restoreFromSnapshot (vfs : Option (VfsRouter D)) (snapshotName : String) (now : DateTime) :
    RuntimeExecutor × Except AvixError RestoreResult :=
  match s.loadSnapshot x vfs snapshotName with
  | .error e => (s, .error e)
  | .ok file =>
    let summary := file.spec.contextSummary
    let restored : ConversationEntry :=
      .fromRoleContent .assistant ("[Restored from snapshot '" ++ file.metadata.name ++
        "']\n\nContext at capture:\n" ++ summary)
    ({ s with
        token := CapabilityToken.testToken now file.spec.environment.grantedTools
        goal := file.spec.goal
        conversationHistory := if summary = "" then s.conversationHistory else [restored] },
      .ok
        { snapshotName := file.metadata.name
          agentName := file.metadata.agentName
          reissuedRequests := (file.spec.pendingRequests.filter (·.status == "in-flight")).map
            (·.requestId)
          reconnectedPipes := []
          sigpipePipes := (file.spec.pipes.filter (·.state == "open")).map (·.pipeId) })

/-! ## What the operations do to the token -/

/-- An operation that may replace the token. -/
inductive TokenEvent (D : Type) where
  | renew (now later : DateTime) (uuid : String)
  | requestTool (args : Json) (env : UpgradeEnv)
  | restore (vfs : Option (VfsRouter D)) (snapshotName : String) (now : DateTime)

def tokenStep : TokenEvent D → RuntimeExecutor
  | .renew now later uuid => s.maybeRenewToken x now later uuid
  | .requestTool args env => (s.capRequestTool x args env).1
  | .restore vfs snapshotName now => (s.restoreFromSnapshot x vfs snapshotName now).1

variable {x s} {snapshotName : String} {now : DateTime}

/-- A handler whose key the token verifies under answers with a newly minted token. -/
theorem renewedToken_of_verifies {handler : KernelResourceHandler} {uuid : String}
    (h : s.token.verifySignature x.hmac handler.hmacKey = true) :
    s.renewedToken x handler now uuid = some (CapabilityToken.mint x.hmac now s.token.grantedTools
      s.token.issuedTo handler.renewalTtlSecs handler.hmacKey) := by
  unfold renewedToken
  rw [handler.handle_of_verifies x.hmac now h rfl]
  rfl

/-- `s'` has the token of `s`, or the one in an answer that approves the upgrade. -/
def Upgraded (x : ExecutorExternals D) (s : RuntimeExecutor) (env : UpgradeEnv)
    (s' : RuntimeExecutor) : Prop :=
  s'.token = s.token ∨
    ∃ payload token, awaitResume env.hilId env.received = some payload ∧ payload.approves ∧
      x.tokenOfJson (payload.index "new_capability_token") = some token ∧ s'.token = token

theorem upgraded_awaitUpgrade (args : Json) (env : UpgradeEnv) :
    Upgraded x s env (s.awaitUpgrade x args env).1 := by
  unfold awaitUpgrade
  rcases hreq : requestTool x.tokenOfJson s.token (awaitResume env.hilId env.received) with
    ⟨token, result⟩
  cases result with
  | error e => exact .inl rfl
  | ok u =>
    obtain ⟨payload, hpayl, happr, htoken⟩ := requestTool_eq_ok hreq
    cases hnew : x.tokenOfJson (payload.index "new_capability_token") with
    | none =>
      rw [hnew] at htoken
      exact .inl htoken
    | some token' =>
      rw [hnew] at htoken
      exact .inr ⟨payload, token', hpayl, happr, hnew, htoken⟩

theorem upgraded_capRequestTool (args : Json) (env : UpgradeEnv) :
    Upgraded x s env (s.capRequestTool x args env).1 := by
  have href : ∀ tool field reason, Upgraded x s env (s.refuse tool field reason).1 :=
    fun _ _ _ => .inl rfl
  unfold capRequestTool
  dsimp only
  split
  · exact .inl rfl
  split
  · exact href _ _ _
  split
  · exact href _ _ _
  split
  · split
    · exact href _ _ _
    · exact upgraded_awaitUpgrade args env
  · exact href _ _ _

/-- A renewal changes the token only. -/
theorem maybeRenewToken_eq (s : RuntimeExecutor) (x : ExecutorExternals D) (now later : DateTime)
    (uuid : String) : ∃ token, s.maybeRenewToken x now later uuid = { s with token } := by
  unfold maybeRenewToken
  split_ifs
  · split <;> exact ⟨_, rfl⟩
  · exact ⟨_, rfl⟩

theorem awaitUpgrade_eq (s : RuntimeExecutor) (x : ExecutorExternals D) (args : Json)
    (env : UpgradeEnv) :
    ∃ token entries deniedTools, (s.awaitUpgrade x args env).1 = { s with
        token, deniedTools
        conversationHistory := s.conversationHistory ++ entries } := by
  unfold awaitUpgrade
  dsimp only
  split <;> exact ⟨_, [_], _, rfl⟩

/-- A request for a tool changes the token and the denied tools, and adds to the conversation. -/
theorem capRequestTool_eq (s : RuntimeExecutor) (x : ExecutorExternals D) (args : Json)
    (env : UpgradeEnv) :
    ∃ token entries deniedTools, (s.capRequestTool x args env).1 = { s with
        token, deniedTools
        conversationHistory := s.conversationHistory ++ entries } := by
  have href : ∀ tool field reason, ∃ token entries deniedTools,
      (s.refuse tool field reason).1 = { s with
        token, deniedTools
        conversationHistory := s.conversationHistory ++ entries } :=
    fun _ _ _ => ⟨_, [], _, by rw [List.append_nil]; rfl⟩
  unfold capRequestTool
  dsimp only
  split
  · exact ⟨_, [], _, by rw [List.append_nil]⟩
  split
  · exact href _ _ _
  split
  · exact href _ _ _
  split
  · split
    · exact href _ _ _
    · obtain ⟨token, entries, deniedTools, h⟩ :=
        (s.recordRequest x args env).awaitUpgrade_eq x args env
      exact ⟨token, [_] ++ entries, deniedTools, h.trans (by rw [← List.append_assoc]; rfl)⟩
  · exact href _ _ _

/-- A text file that parses to a snapshot with the right checksum is loaded. -/
theorem loadSnapshot_of_read {vfs : VfsRouter D} {text : String} {path : VfsPath}
    {file : SnapshotFile}
    (hpath : VfsPath.parse ("/users/" ++ s.spawnedBy ++ "/snapshots/" ++ snapshotName ++ ".yaml") =
      .ok path)
    (hread : vfsRead x.toExternals vfs path = .ok (utf8 text))
    (hparse : x.parseSnapshot text = .ok file) (hcheck : verifyChecksum x file = .ok ()) :
    s.loadSnapshot x (some vfs) snapshotName = .ok file := by
  simp only [loadSnapshot, hpath, hread, fromUtf8_utf8, hparse, hcheck, Except.mapError, bind,
    Except.bind, pure, Except.pure]

/-- A restore that cannot load the snapshot changes nothing. -/
theorem restoreFromSnapshot_of_error {vfs : Option (VfsRouter D)}
    (h : ∀ file, s.loadSnapshot x vfs snapshotName ≠ .ok file) :
    (s.restoreFromSnapshot x vfs snapshotName now).1 = s := by
  unfold restoreFromSnapshot
  cases hload : s.loadSnapshot x vfs snapshotName with
  | error e => rfl
  | ok file => exact absurd hload (h file)

end RuntimeExecutor

end Avix
