/-
  Tool call dispatch (`router/dispatcher.rs`, `router/registry.rs`, `router/caller.rs`,
  `router/capability.rs`, `ipc/message.rs`).

  `route` is `RouterDispatcher::dispatch` up to the call of the service: it answers with an
  error response or says which request goes to which endpoint. `dispatch` adds the call, with
  the IPC client as a parameter.

  Each lookup of one dispatch sees the same registries here. The in-flight guards and the
  release of the concurrency slot after the call have no effect on the result.
-/
import Avix.Process.Table
import Avix.Tools.Registry

namespace Avix

/-! ## Messages -/

structure JsonRpcRequest where
  jsonrpc : String
  id : String
  method : String
  params : Json

structure JsonRpcError where
  code : Int
  message : String
  data : Option Json

structure JsonRpcResponse where
  jsonrpc : String
  id : String
  result : Option Json
  error : Option JsonRpcError

def JsonRpcResponse.err (id : String) (code : Int) (message : String) (data : Option Json) :
    JsonRpcResponse :=
  { jsonrpc := "2.0", id, result := none, error := some { code, message, data } }

/-! ## Services -/

structure ServiceRegistry where
  services : HashMap String String
  tools : HashMap String String
  callerScoped : Finset String

namespace ServiceRegistry

variable (reg : ServiceRegistry)

def register (name endpoint : String) : ServiceRegistry :=
  { reg with services := reg.services.insert name endpoint }

/-- `ServiceRegistry::register_with_meta`: a false flag leaves an earlier one in place. -/
def registerWithMeta (name endpoint : String) (callerScoped : Bool) : ServiceRegistry :=
  { reg with
    services := reg.services.insert name endpoint
    callerScoped := if callerScoped then insert name reg.callerScoped else reg.callerScoped }

def deregister (name : String) : ServiceRegistry :=
  { reg with services := reg.services.erase name, callerScoped := reg.callerScoped.erase name }

def isCallerScoped (name : String) : Bool := decide (name ∈ reg.callerScoped)

def lookup (name : String) : Option String := reg.services.lookup name

def registerTool (tool service : String) : ServiceRegistry :=
  { reg with tools := reg.tools.insert tool service }

def serviceForTool (tool : String) : Option String := reg.tools.lookup tool

end ServiceRegistry

/-! ## The caller -/

structure CallerInfo where
  pid : Pid
  user : String
  token : String
  deriving DecidableEq, Repr

/-- `serde_json::to_value` of a `CallerInfo`. -/
def CallerInfo.toJson (c : CallerInfo) : Json :=
  .object [("pid", .int c.pid.toNat), ("token", .string c.token), ("user", .string c.user)]

/-- `CallerInfo::inject_into`: nothing happens to params that are not an object. -/
def CallerInfo.injectInto (c : CallerInfo) : Json → Json
  | .object members => .object (Json.insertKey "_caller" c.toJson members)
  | params => params

/-! ## Capabilities -/

/-- `router::ALWAYS_PRESENT`. -/
def alwaysPresent : List String := ["cap/request-tool", "cap/escalate", "cap/list", "job/watch"]

/-- `capability::check_capability`. -/
def checkCapability (tool : String) (callerPid : Pid) (table : ProcessTable) :
    Except AvixError Unit :=
  if alwaysPresent.contains tool then .ok ()
  else
    match table.get callerPid with
    | none => .error (.capabilityDenied ("no process entry for pid " ++ callerPid.display))
    | some entry =>
      if entry.grantedTools.any (· == tool) then .ok ()
      else .error (.capabilityDenied
        ("tool '" ++ tool ++ "' not granted to pid " ++ callerPid.display))

/-! ## Dispatch -/

def ENOTFOUND_METHOD : Int := -32601
def EPERM : Int := -32002
def EUNAVAIL : Int := -32005
def ETIMEOUT : Int := -32007
def EBUSY : Int := -32008

/-- `router::RouterDispatcher`; `active` of `maxConcurrent` slots are taken. -/
structure RouterDispatcher where
  serviceRegistry : ServiceRegistry
  toolRegistry : ToolRegistry
  processTable : ProcessTable
  maxConcurrent : Nat
  active : Nat

namespace RouterDispatcher

variable (d : RouterDispatcher)

/-- Step 6: the service the tool map names, then its endpoint. -/
def resolveEndpoint (id method : String) : Except JsonRpcResponse String :=
  match d.serviceRegistry.serviceForTool method with
  | some svc =>
    match d.serviceRegistry.lookup svc with
    | some ep => .ok ep
    | none => .error
        (.err id EUNAVAIL ("endpoint for service '" ++ svc ++ "' not registered") none)
  | none => .error
      (.err id ENOTFOUND_METHOD ("no service registered for tool '" ++ method ++ "'") none)

/-- Step 7: the flag is looked up for the owner in the tool's registry entry. -/
def injectCaller (owner : String) (caller : CallerInfo) (params : Json) : Json :=
  if d.serviceRegistry.isCallerScoped owner then caller.injectInto params else params

/-- Steps 1 to 7 of `RouterDispatcher::dispatch`. -/
def route (request : JsonRpcRequest) (callerPid : Pid) (callerUser callerToken : String) :
    Except JsonRpcResponse (String × JsonRpcRequest) := do
  let fail (code : Int) (message : String) : JsonRpcResponse := .err request.id code message none
  let toolEntry ← (d.toolRegistry.lookup request.method).mapError fun _ =>
    fail ENOTFOUND_METHOD ("tool '" ++ request.method ++ "' not found")
  refuseIf (toolEntry.state = .unavailable) (fail EUNAVAIL "tool is unavailable")
  (checkCapability request.method callerPid d.processTable).mapError fun e => fail EPERM e.display
  (d.toolRegistry.acquire request.method).mapError fun e => fail EUNAVAIL e.display
  refuseIf (d.maxConcurrent ≤ d.active) (fail EBUSY "dispatcher at max capacity")
  let endpoint ← d.resolveEndpoint request.id request.method
  let caller := { pid := callerPid, user := callerUser, token := callerToken }
  return (endpoint, { request with
    params := d.injectCaller toolEntry.owner caller request.params })

/-- `RouterDispatcher::dispatch`; `call` is the IPC client. -/
def dispatch (call : String → JsonRpcRequest → Except AvixError JsonRpcResponse)
    (request : JsonRpcRequest) (callerPid : Pid) (callerUser callerToken : String) :
    JsonRpcResponse :=
  match d.route request callerPid callerUser callerToken with
  | .error resp => resp
  | .ok (endpoint, request') =>
    match call endpoint request' with
    | .ok resp => resp
    | .error .ipcTimeout => .err request.id ETIMEOUT "call to service timed out" none
    | .error e => .err request.id EUNAVAIL e.display none

/-! ## What a forwarded request says -/

theorem resolveEndpoint_eq_ok {id method ep : String} (h : d.resolveEndpoint id method = .ok ep) :
    ∃ svc, d.serviceRegistry.serviceForTool method = some svc ∧
      d.serviceRegistry.lookup svc = some ep := by
  unfold resolveEndpoint at h
  split at h
  next svc hsvc =>
    split at h
    next ep' hep =>
      cases h
      exact ⟨svc, hsvc, hep⟩
    next => cases h
  next => cases h

/-- A forwarded request goes to the endpoint of the service in the tool map; its params are
    those of the caller, injected according to the owner in the tool's entry. -/
theorem route_eq_ok {request request' : JsonRpcRequest} {callerPid : Pid}
    {callerUser callerToken ep : String}
    (h : d.route request callerPid callerUser callerToken = .ok (ep, request')) :
    ∃ entry svc, d.toolRegistry.lookup request.method = .ok entry ∧
      d.serviceRegistry.serviceForTool request.method = some svc ∧
      d.serviceRegistry.lookup svc = some ep ∧
      request' = { request with
        params := d.injectCaller entry.owner ⟨callerPid, callerUser, callerToken⟩
          request.params } := by
  unfold route at h
  obtain ⟨entry, hentry, h⟩ := bind_eq_ok_iff.mp h
  obtain ⟨_, -, h⟩ := bind_eq_ok_iff.mp h
  obtain ⟨_, -, h⟩ := bind_eq_ok_iff.mp h
  obtain ⟨_, -, h⟩ := bind_eq_ok_iff.mp h
  obtain ⟨_, -, h⟩ := bind_eq_ok_iff.mp h
  obtain ⟨ep', hep, h⟩ := bind_eq_ok_iff.mp h
  obtain ⟨rfl, rfl⟩ := Prod.mk.inj (Except.ok.inj h)
  obtain ⟨svc, hsvc, hlook⟩ := d.resolveEndpoint_eq_ok hep
  exact ⟨entry, svc, mapError_eq_ok_iff.mp hentry, hsvc, hlook, rfl⟩

end RouterDispatcher

end Avix
