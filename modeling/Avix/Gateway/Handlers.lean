/-
  The handlers of file system, process and signal commands (`gateway/handlers/mod.rs`,
  `gateway/handlers/fs.rs`, `gateway/handlers/proc.rs`, `gateway/handlers/signal.rs`).

  A handler answers at once or forwards the command to the kernel; `fsRoute`, `procRoute` and
  `signalRoute` say which. A body that is neither an object nor `null` makes a handler panic where
  it sets a member, and a SIGRESUME with an approval token goes to the HIL manager.

  * `forwards_procRoute`: which identity the kernel gets for a process command.
-/
import Avix.Gateway.Validator

namespace Avix

open Lib

/-- `atp::frame::AtpReply`: `ok` with a body, or an error. -/
structure AtpReply where
  id : String
  result : Except AtpError Json

/-- `IpcRouter::call`. -/
abbrev IpcRouter := String → Json → Except AtpError Json

def ipcForward (id method : String) (params : Json) (ipc : IpcRouter) : AtpReply :=
  ⟨id, ipc method params⟩

def unknownOp (id op : String) : AtpReply := ⟨id, .error ⟨.eparse, "unknown op '" ++ op ++ "'"⟩⟩

/-- The ban on reads of `/secrets/` in `fs::handle`. -/
def readsSecrets (op : String) (body : Json) : Bool :=
  decide (op ∈ ["read", "stat", "watch"]) &&
    match (body.index "path").asStr with
    | some path => startsWith path "/secrets/"
    | none => false

/-- What `fs::handle` forwards to the kernel, or its own reply. -/
def fsRoute (v : ValidatedCmd) : Except AtpReply (String × Json) :=
  if readsSecrets v.cmd.op v.cmd.body then
    .error ⟨v.cmd.id, .error ⟨.eperm, "reads from '/secrets/' are forbidden"⟩⟩
  else if v.cmd.op ∈ ["read", "write", "list", "stat", "watch", "unwatch"] then
    .ok ("kernel/fs/" ++ v.cmd.op, v.cmd.body)
  else .error (unknownOp v.cmd.id v.cmd.op)

variable {id method : String} {body params : Json} {v : ValidatedCmd} {pipePayload : PipePayload}

theorem fsRoute_eq_ok_iff : fsRoute v = .ok (method, params) ↔
    readsSecrets v.cmd.op v.cmd.body = false ∧
      v.cmd.op ∈ ["read", "write", "list", "stat", "watch", "unwatch"] ∧
      method = "kernel/fs/" ++ v.cmd.op ∧ params = v.cmd.body := by
  unfold fsRoute
  split_ifs with hban hop
  · simp [hban]
  · simp only [Except.ok.injEq, Prod.mk.injEq]
    constructor
    · rintro ⟨rfl, rfl⟩
      exact ⟨Bool.eq_false_of_not_eq_true hban, hop, rfl, rfl⟩
    · rintro ⟨-, -, rfl, rfl⟩
      exact ⟨rfl, rfl⟩
  · simp [hop]

/-! ## Processes -/

/-- What a handler does with a command. -/
inductive Route where
  | forward (method : String) (params : Json)
  | answer (reply : AtpReply)
  /-- `HilManager::resolve`. -/
  | resolve (hilId approvalToken decision : String) (payload : Json)
  | panics

/-- Forward a body whose members have been set. -/
def Route.ofBody (method : String) : Option Json → Route
  | some params => .forward method params
  | none => .panics

/-- Set a member to the identity of the caller unless it is a string that is not empty. -/
def injectIfEmpty (body : Json) (key identity : String) : Option Json :=
  if ((body.index key).asStr).getD "" = "" then body.setIndex key (.string identity)
  else some body

/-- `entry(key).or_insert(value)`. -/
def orInsert (body : Json) (key : String) (value : Json) : Option Json :=
  match body.get? key with
  | some _ => some body
  | none => body.setIndex key value

/-- The commands whose body is forwarded as it is. -/
def plainProcOps : List String :=
  ["kill", "list", "stat", "pause", "resume", "wait", "setcap", "invocation-get",
    "invocation-conversation", "invocation-snapshot", "message-create", "message-get",
    "message-list", "part-create", "part-get", "part-list"]

/-- The commands on one session, with their methods. -/
def sessionOps : List (String × String) :=
  [("session-get", "kernel/proc/session/get"), ("session-pause", "kernel/proc/session/pause"),
    ("session-resume", "kernel/proc/session/resume"),
    ("session-delete", "kernel/proc/session/delete")]

def packageOps : List String :=
  ["package/install-agent", "package/uninstall-agent", "package/install-service",
    "package/uninstall-service"]

/-- `proc::handle`. -/
def procRoute (v : ValidatedCmd) : Route :=
  let op := v.cmd.op
  let body := v.cmd.body
  if op = "list-installed" ∨ op = "invocation-list" then
    .ofBody ("kernel/proc/" ++ op) (injectIfEmpty body "username" v.callerIdentity)
  else if op = "spawn" then
    .ofBody "kernel/proc/spawn" do
      let body ← injectIfEmpty body "caller" v.callerIdentity
      let body ← orInsert body "session_id" (.string "")
      body.setIndex "atp_session_id" (.string v.callerSessionId)
  else if op ∈ plainProcOps then .forward ("kernel/proc/" ++ op) body
  else if op = "session-list" then
    .ofBody "kernel/proc/session/list" (injectIfEmpty body "username" v.callerIdentity)
  else
    match sessionOps.lookup op with
    | some method =>
      let isPrivileged := v.callerRole = .operator || v.callerRole = .admin
      .ofBody method do
        let body ← body.setIndex "caller_identity" (.string v.callerIdentity)
        body.setIndex "is_privileged" (.bool isPrivileged)
    | none =>
      if op ∈ packageOps then
        .ofBody ("kernel/proc/" ++ op)
          (body.setIndex "caller_identity" (.string v.callerIdentity))
      else .answer (unknownOp v.cmd.id op)

/-! ## Signals -/

def validSignals : List String :=
  ["SIGSTART", "SIGPAUSE", "SIGRESUME", "SIGKILL", "SIGSTOP", "SIGSAVE", "SIGPIPE", "SIGESCALATE"]

/-- `SigPipePayload`, decoded, validated and encoded again, or the text of the error. -/
abbrev PipePayload := Json → Except String Json

/-- The part of `signal::handle_send` for a SIGPIPE. -/
def pipeRoute (pipePayload : PipePayload) (id : String) (body : Json) : Route :=
  match pipePayload ((body.get? "payload").getD (.ofMembers [])) with
  | .error e => .answer ⟨id, .error ⟨.eparse, e⟩⟩
  | .ok payload =>
    let pid := if (body.index "pid").isNumber then body.index "pid" else .int 0
    .forward "kernel/signal/send"
      (.ofMembers [("signal", .string "SIGPIPE"), ("pid", pid), ("payload", payload)])

/-- The part of `signal::handle_send` for an approval, if there is one. -/
def approvalRoute (id : String) (body : Json) : Option Route :=
  let payload := (body.get? "payload").getD (.ofMembers [])
  match (payload.get? "approvalToken").bind Json.asStr with
  | none => none
  | some approvalToken =>
    match (payload.get? "hilId").bind Json.asStr with
    | none => some (.answer ⟨id, .error ⟨.eparse,
        "SIGRESUME with approvalToken requires 'hilId' in payload"⟩⟩)
    | some hilId =>
      some (.resolve hilId approvalToken (((payload.index "decision").asStr).getD "denied") payload)

/-- `signal::handle_send`. -/
def sendRoute (pipePayload : PipePayload) (id : String) (body : Json) : Route :=
  match (body.index "signal").asStr with
  | none => .answer ⟨id, .error ⟨.eparse, "missing 'signal' field"⟩⟩
  | some signal =>
    if signal ∉ validSignals then
      .answer ⟨id, .error ⟨.eparse, "unknown signal '" ++ signal ++ "'; valid: " ++
        String.intercalate ", " validSignals⟩⟩
    else
      match (if signal = "SIGRESUME" then approvalRoute id body else none) with
      | some route => route
      | none =>
        if signal = "SIGPIPE" then pipeRoute pipePayload id body
        else .forward "kernel/signal/send" body

/-- `signal::handle`. -/
def signalRoute (pipePayload : PipePayload) (v : ValidatedCmd) : Route :=
  if v.cmd.op = "send" then sendRoute pipePayload v.cmd.id v.cmd.body
  else if v.cmd.op ∈ ["subscribe", "unsubscribe", "list"] then
    .forward ("kernel/signal/" ++ v.cmd.op) v.cmd.body
  else .answer (unknownOp v.cmd.id v.cmd.op)

/-! ## What is forwarded -/

theorem setIdentity_eq {identity method' : String} {isPrivileged : Bool}
    (h : Route.ofBody method' (do
        let body ← body.setIndex "caller_identity" (.string identity)
        body.setIndex "is_privileged" (.bool isPrivileged)) = .forward method params) :
    params.index "caller_identity" = .string identity ∧
      params.index "is_privileged" = .bool isPrivileged := by
  cases hset : body.setIndex "caller_identity" (.string identity) with
  | none =>
    rw [hset] at h
    cases h
  | some body' =>
    simp only [hset, Option.bind_eq_bind, Option.bind_some] at h
    cases hset' : body'.setIndex "is_privileged" (.bool isPrivileged) with
    | none =>
      rw [hset'] at h
      cases h
    | some params' =>
      rw [hset'] at h
      obtain ⟨-, rfl⟩ := Route.forward.inj h
      have hfirst := Json.setIndex_eq_some hset
      have hsec := Json.setIndex_eq_some hset'
      exact ⟨(hsec.2 "caller_identity" (by decide)).trans hfirst.1, hsec.1⟩

/-- The methods that take the body as the gateway hands it on. -/
def bodyMethods : List String :=
  (plainProcOps ++ packageOps ++ ["list-installed", "invocation-list", "spawn", "session/list"]).map
    ("kernel/proc/" ++ ·)

theorem forwards_procRoute (h : procRoute v = .forward method params) :
    method ∈ bodyMethods ∨ method ∈ sessionOps.map (·.2) ∧
      params.index "caller_identity" = .string v.callerIdentity ∧
      params.index "is_privileged" = .bool (v.callerRole = .operator || v.callerRole = .admin) := by
  have hbody : ∀ {method' : String} {body : Option Json},
      Route.ofBody method' body = .forward method params → method = method' := by
    intro method' body hforw
    cases body with
    | none => cases hforw
    | some params' => exact (Route.forward.inj hforw).1.symm
  unfold procRoute at h
  dsimp only at h
  by_cases hlist : v.cmd.op = "list-installed" ∨ v.cmd.op = "invocation-list"
  · rw [if_pos hlist] at h
    rw [hbody h]
    exact .inl (List.mem_map_of_mem (by rcases hlist with hop | hop <;> simp [hop]))
  rw [if_neg hlist] at h
  by_cases hspawn : v.cmd.op = "spawn"
  · rw [if_pos hspawn] at h
    rw [hbody h]
    exact .inl (by decide)
  rw [if_neg hspawn] at h
  by_cases hplain : v.cmd.op ∈ plainProcOps
  · rw [if_pos hplain] at h
    rw [← (Route.forward.inj h).1]
    exact .inl (List.mem_map_of_mem (by simp [hplain]))
  rw [if_neg hplain] at h
  by_cases hsess : v.cmd.op = "session-list"
  · rw [if_pos hsess] at h
    rw [hbody h]
    exact .inl (by decide)
  rw [if_neg hsess] at h
  split at h
  · next method' hlook =>
    refine .inr ⟨?_, setIdentity_eq h⟩
    obtain ⟨l, l', hsplit, -⟩ := List.lookup_eq_some_iff.mp hlook
    rw [hbody h, hsplit]
    simp
  · split_ifs at h with hpack
    rw [hbody h]
    exact .inl (List.mem_map_of_mem (by simp [hpack]))

theorem approvalRoute_ne_forward {route : Route} (h : approvalRoute id body = some route) :
    route ≠ .forward method params := by
  rintro rfl
  unfold approvalRoute at h
  dsimp only at h
  split at h
  · cases h
  · split at h <;> cases h

/-- A signal that is forwarded is one of the known ones. -/
theorem forwards_sendRoute (h : sendRoute pipePayload id body = .forward method params) :
    method = "kernel/signal/send" ∧ ((params.index "signal").asStr).getD "" ∈ validSignals := by
  unfold sendRoute at h
  split at h
  · cases h
  next signal hname =>
  by_cases hvalid : signal ∉ validSignals
  · rw [if_pos hvalid] at h
    cases h
  rw [if_neg hvalid] at h
  split at h
  · next route hroute =>
    split_ifs at hroute
    exact absurd h (approvalRoute_ne_forward hroute)
  split_ifs at h
  · -- A SIGPIPE goes on with a body of its own.
    unfold pipeRoute at h
    split at h
    · cases h
    obtain ⟨rfl, rfl⟩ := Route.forward.inj h
    refine ⟨rfl, ?_⟩
    simp [Json.index_ofMembers, Json.asStr, List.lookup_cons, validSignals]
  · obtain ⟨rfl, rfl⟩ := Route.forward.inj h
    refine ⟨rfl, ?_⟩
    rw [hname]
    exact not_not.mp hvalid

theorem forwards_signalRoute (h : signalRoute pipePayload v = .forward method params) :
    method ∉ sessionOps.map (·.2) ∧
      (method = "kernel/signal/send" → ((params.index "signal").asStr).getD "" ∈ validSignals) := by
  unfold signalRoute at h
  split_ifs at h with hsend hother
  · obtain ⟨rfl, hvalid⟩ := forwards_sendRoute h
    exact ⟨by decide, fun _ => hvalid⟩
  · obtain ⟨rfl, -⟩ := Route.forward.inj h
    simp only [List.mem_cons, List.not_mem_nil, or_false] at hother
    rcases hother with hop | hop | hop <;> rw [hop] <;> exact ⟨by decide, nofun⟩

end Avix
