/-
  SECURITY — what a service can believe about the `_caller` member of a request's params.

  A caller-scoped service reads the identity of the calling agent from `params._caller`. The
  router writes it there (`RouterDispatcher.injectCaller`) over whatever the agent supplied.
  Two restrictions are by design. `inject_into` does nothing to params that are not an object.
  A service that is not caller-scoped gets the params as sent, with any `_caller` in them.

  `caller_injected_for_scoped_service`: whenever a request is forwarded to a caller-scoped
  service with an object as params, `_caller` names the real caller and all else is as sent.

  Not covered: the flag is looked up for the owner in the tool's registry entry, while the
  endpoint is that of the service in the router's tool map. The results are for the case that
  both are the same service.
-/
import Avix.Router.Dispatcher

namespace Avix.Security

open RouterDispatcher

def NamesCaller (params : Json) (pid : Pid) (user : String) : Prop :=
  ∃ c, params.get? "_caller" = some c ∧ c.index "pid" = .int pid.toNat ∧
    c.index "user" = .string user

theorem namesCaller_injectInto (c : CallerInfo) (members : List (String × Json)) :
    NamesCaller (c.injectInto (.object members)) c.pid c.user :=
  ⟨c.toJson, Json.lookup_insertKey _ _ _, rfl, rfl⟩

theorem get?_injectInto_ne (c : CallerInfo) (params : Json) {key : String} (h : key ≠ "_caller") :
    (c.injectInto params).get? key = params.get? key := by
  cases params with
  | object members => exact Json.lookup_insertKey_ne h _ _
  | _ => rfl

theorem injectInto_of_not_object (c : CallerInfo) {params : Json}
    (h : ∀ members, params ≠ .object members) : c.injectInto params = params := by
  cases params with
  | object members => exact absurd rfl (h members)
  | _ => rfl

theorem caller_injected_for_scoped_service {d : RouterDispatcher}
    {request request' : JsonRpcRequest} {callerPid : Pid} {callerUser callerToken ep : String}
    (h : d.route request callerPid callerUser callerToken = .ok (ep, request')) :
    ∃ entry svc, d.toolRegistry.lookup request.method = .ok entry ∧
      d.serviceRegistry.serviceForTool request.method = some svc ∧
      d.serviceRegistry.lookup svc = some ep ∧
      (entry.owner = svc →
        (d.serviceRegistry.isCallerScoped svc = true → ∀ members, request.params = .object members →
          NamesCaller request'.params callerPid callerUser ∧
            ∀ key ≠ "_caller", request'.params.get? key = request.params.get? key) ∧
        (d.serviceRegistry.isCallerScoped svc = false ∨
            (∀ members, request.params ≠ .object members) →
          request'.params = request.params)) := by
  obtain ⟨entry, svc, hentry, hsvc, hep, rfl⟩ := d.route_eq_ok h
  refine ⟨entry, svc, hentry, hsvc, hep, ?_⟩
  rintro rfl
  constructor
  · intro hscop members hpar
    simp only [injectCaller, hscop, if_true, hpar]
    exact ⟨namesCaller_injectInto _ _, fun key hkey => get?_injectInto_ne _ _ hkey⟩
  · rintro (hopen | hpar)
    · simp [injectCaller, hopen]
    · unfold injectCaller
      split_ifs
      · exact injectInto_of_not_object _ hpar
      · rfl

/-! ## One service -/

/-- Agent 42 is granted `workspace/read`, which one service owns and serves. -/
def workspaceDispatcher (callerScoped : Bool) : RouterDispatcher :=
  { serviceRegistry :=
      (ServiceRegistry.registerWithMeta ⟨∅, ∅, ∅⟩ "workspace" "/run/avix/services/workspace.sock"
        callerScoped).registerTool "workspace/read" "workspace"
    toolRegistry :=
      ToolRegistry.add ∅ [{
        name := ⟨"workspace/read", by decide, by decide⟩
        owner := "workspace"
        state := .available }]
    processTable := ProcessTable.insert ∅ { pid := 42, grantedTools := ["workspace/read"] }
    maxConcurrent := 20
    active := 0 }

def readRequest (params : Json) : JsonRpcRequest := ⟨"2.0", "1", "workspace/read", params⟩

/-- An identity the caller made up. -/
def forgedCaller : Json := .object [("pid", .int 1), ("user", .string "root")]

theorem caller_injected_for_scoped_service_workspace :
    ∃ request', (workspaceDispatcher true).route (readRequest (.object [("_caller", forgedCaller)]))
        42 "alice" "tok" = .ok ("/run/avix/services/workspace.sock", request') ∧
      NamesCaller request'.params 42 "alice" := by
  have h : (workspaceDispatcher true).route (readRequest (.object [("_caller", forgedCaller)]))
      42 "alice" "tok" = .ok ("/run/avix/services/workspace.sock", _) := rfl
  obtain ⟨entry, svc, hentry, hsvc, -, hall⟩ := caller_injected_for_scoped_service h
  cases hentry
  cases hsvc
  exact ⟨_, h, ((hall rfl).1 (by decide) _ rfl).1⟩

/-- Array params reach the caller-scoped service without `_caller`; a service that is not
    caller-scoped gets the made-up one. -/
theorem caller_lost_or_forged :
    (∃ request', (workspaceDispatcher true).route (readRequest (.array [.int 1])) 42 "alice" "tok" =
        .ok ("/run/avix/services/workspace.sock", request') ∧
      (workspaceDispatcher true).serviceRegistry.isCallerScoped "workspace" = true ∧
      request'.params.get? "_caller" = none) ∧
    (∃ request', (workspaceDispatcher false).route
        (readRequest (.object [("_caller", forgedCaller)])) 42 "alice" "tok" =
        .ok ("/run/avix/services/workspace.sock", request') ∧
      request'.params.get? "_caller" = some forgedCaller) :=
  ⟨⟨_, rfl, by decide, rfl⟩, _, rfl, rfl⟩

end Avix.Security
