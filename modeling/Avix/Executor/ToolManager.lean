/-
  The tools of an executor (`executor/tool_manager.rs`, `executor/tool_registration.rs`,
  `types/capability_map.rs`, and `refresh_tool_list` and the choice of the dispatcher in
  `executor/runtime_executor.rs` and `executor/runtime_executor/dispatch_manager.rs`).

  The executor serves Category-2 tools itself and sends all others to the router. The set of
  Category-2 tools is computed from the token twice: once at spawn, for the dispatcher
  (`registered_cat2`), and at every refresh, for the list that the language model gets.

  Model. Two hash maps are iterated, the capability map and the Category-1 descriptors; their order
  is an argument, any permutation (`MapOrder`). Of a Category-2 descriptor only the name is read;
  the other members are a parameter. A refresh sees one state of the registry.
-/
import Avix.Tools.Registry
import Avix.Types.Token

namespace Avix

open List

/-! ## Category-2 tools -/

/-- `CapabilityToolMap::default`. -/
def capabilityToolMap : List (String × List String) :=
  [("agent:spawn", ["agent/spawn", "agent/kill", "agent/list", "agent/wait", "agent/send-message"]),
    ("pipe:use", ["pipe/open", "pipe/write", "pipe/read", "pipe/close"]),
    ("memory:read", ["memory/retrieve", "memory/get-fact", "memory/get-preferences"]),
    ("memory:write",
      ["memory/retrieve", "memory/get-fact", "memory/get-preferences", "memory/log-event",
        "memory/store-fact", "memory/update-preference", "memory/forget"]),
    ("memory:share", ["memory/share-request"])]

/-- `CapabilityToolMap::always_present`. -/
def capabilityAlwaysPresent : List String :=
  ["cap/request-tool", "cap/escalate", "cap/list", "job/watch", "sys/tools"]

/-- `CapabilityToolMap::all_gated_cat2_tools`, for an order of the map. -/
def allGatedCat2Tools (groups : List (String × List String)) : List String :=
  groups.flatMap (·.2)

/-- How the hash maps are iterated. -/
structure MapOrder where
  groups : List (String × List String)
  groups_perm : groups.Perm capabilityToolMap
  iterate : List (String × Json) → List (String × Json)
  iterate_perm : ∀ entries, (iterate entries).Perm entries

/-- `compute_cat2_tools`: the first of equal names is kept. -/
def computeCat2Tools (order : MapOrder) (token : CapabilityToken) : List String :=
  (capabilityAlwaysPresent ++ (allGatedCat2Tools order.groups).filter token.hasTool).eraseDups

/-- `cat2_tool_descriptor`, with its other members. -/
def cat2ToolDescriptor (members : String → List (String × Json)) (name : String) : Json :=
  .ofMembers (members name ++ [("name", .string name)])

def descriptorName (descriptor : Json) : Option String := (descriptor.index "name").asStr

/-! ## The tool manager -/

structure ToolManager where
  toolList : List Json := []
  removedTools : List String := []
  registeredCat2 : List String
  cat1Descriptors : List (String × Json) := []

namespace ToolManager

variable (m : ToolManager)

def refreshToolList (order : MapOrder) (members : String → List (String × Json))
    (token : CapabilityToken) : ToolManager :=
  let cat2 := (computeCat2Tools order token).filter (!m.removedTools.contains ·)
  let cat1 := (order.iterate m.cat1Descriptors).filter (!m.removedTools.contains ·.1)
  { m with toolList := cat2.map (cat2ToolDescriptor members) ++ cat1.map (·.2) }

def currentToolList : List Json :=
  m.toolList.filter fun t =>
    match descriptorName t with
    | some name => !m.removedTools.any fun r => name = r || name = Lib.replaceChar '/' "__" r
    | none => true

def isCat2Tool (name : String) : Bool := m.registeredCat2.contains name

def handleToolChanged (op toolName : String) : ToolManager :=
  if op = "removed" then
    if m.removedTools.contains toolName then m
    else { m with removedTools := m.removedTools ++ [toolName] }
  else if op = "added" then { m with removedTools := m.removedTools.filter (· ≠ toolName) }
  else m

end ToolManager

/-! ## The executor -/

/-- `RegistryRef`, without the registries. -/
inductive RegistryRef where
  | mock
  | real
  deriving DecidableEq, Repr

/-- What an executor knows of tools. -/
structure ToolView where
  token : CapabilityToken
  registryRef : RegistryRef
  tools : ToolManager

namespace ToolView

variable (v : ToolView)

/-- The descriptor of a Category-1 tool; the mock registry has none. -/
def cat1Descriptor (reg : ToolRegistry) (name : String) : Option Json :=
  match v.registryRef with
  | .mock => none
  | .real => (AList.lookup name reg).map (·.descriptor)

/-- `RuntimeExecutor::refresh_tool_list`. -/
def refreshToolList (reg : ToolRegistry) (order : MapOrder)
    (members : String → List (String × Json)) : ToolView :=
  let cat1Descriptors := v.token.grantedTools.eraseDups.filterMap fun name =>
    if v.tools.registeredCat2.contains name then none
    else (v.cat1Descriptor reg name).map (name, ·)
  { v with tools :=
      { v.tools with cat1Descriptors }.refreshToolList order members v.token }

/-- The tools of `spawn_with_registry_ref`. -/
def spawn (token : CapabilityToken) (registryRef : RegistryRef) (reg : ToolRegistry)
    (order : MapOrder) (members : String → List (String × Json)) : ToolView :=
  refreshToolList ⟨token, registryRef, { registeredCat2 := computeCat2Tools order token }⟩ reg
    order members

end ToolView

/-- Where a call goes. -/
inductive ToolRoute where
  /-- `dispatch_category2`. -/
  | category2
  /-- `dispatch_via_router`. -/
  | router
  deriving DecidableEq, Repr

/-- The choice in the tool loop of `run_with_client`. -/
def ToolView.routeOf (v : ToolView) (name : String) : ToolRoute :=
  if v.tools.isCat2Tool name then .category2 else .router

/-! ## What is computed -/

theorem nodup_eraseDups {α : Type} [DecidableEq α] (l : List α) : l.eraseDups.Nodup := by
  induction h : l.length using Nat.strong_induction_on generalizing l with
  | _ n ih =>
    cases l with
    | nil => exact nodup_nil
    | cons a l =>
      rw [eraseDups_cons, nodup_cons]
      refine ⟨?_, ih _ ?_ _ rfl⟩
      · rw [mem_eraseDups, mem_filter]
        simp
      · have hle := length_filter_le (fun b => !b == a) l
        rw [← h, length_cons]
        omega

theorem mem_allGatedCat2Tools {order : MapOrder} {name : String} :
    name ∈ allGatedCat2Tools order.groups ↔ name ∈ allGatedCat2Tools capabilityToolMap := by
  unfold allGatedCat2Tools
  exact (order.groups_perm.flatMap_right _).mem_iff

theorem mem_computeCat2Tools {order : MapOrder} {token : CapabilityToken} {name : String} :
    name ∈ computeCat2Tools order token ↔ name ∈ capabilityAlwaysPresent ∨
      name ∈ allGatedCat2Tools capabilityToolMap ∧ name ∈ token.grantedTools := by
  rw [computeCat2Tools, mem_eraseDups, mem_append, mem_filter, token.hasTool_iff,
    mem_allGatedCat2Tools]

theorem nodup_computeCat2Tools (order : MapOrder) (token : CapabilityToken) :
    (computeCat2Tools order token).Nodup := nodup_eraseDups _

theorem descriptorName_cat2ToolDescriptor (members : String → List (String × Json))
    (name : String) : descriptorName (cat2ToolDescriptor members name) = some name := by
  rw [descriptorName, cat2ToolDescriptor, Json.index_ofMembers, reverse_append]
  simp [Json.asStr]

end Avix
