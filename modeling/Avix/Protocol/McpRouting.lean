/-
  PROTOCOL — calls of tools of MCP servers (`mcp_bridge/runner.rs`, `mcp_bridge/connection.rs`,
  `mcp_bridge/config.rs`).

  `mcp_routing_iff`: with any connected servers, and however the map of connections is
  iterated: a call of a tool that a server has registered goes to that server, with the name the
  server knows it by; and a call of another name goes to no server. This holds of a name exactly if
  it is not that of a meta-tool and no other server has a namespace in front of it, or, if no server
  has registered it, it is that of a meta-tool or no server has such a namespace.

  Reason. `handle_tool_call` looks for a namespace that is in front of the name, not for the tool.
  The call of `gh/x/list` may go to the server with the namespace `gh/`
  (`nested_namespace_misrouted`).

  All servers are connected.
-/
import Avix.Lib.Str
import Avix.Types.Json

namespace Avix

open Lib

structure McpServerConfig where
  mount : Option String

def McpServerConfig.toolNamespace (config : McpServerConfig) (serverName : String) : String :=
  match config.mount with
  | none => serverName ++ "/"
  | some mount =>
    let stripped := (stripStart "/tools/" mount).getD (trimStart '/' mount)
    if endsWith stripped "/" then stripped else stripped ++ "/"

structure McpServerConnection where
  serverName : String
  config : McpServerConfig
  /-- The names in the last list of tools. -/
  tools : List String

/-- The connections by the names of the servers. -/
structure McpConnections where
  conns : List McpServerConnection
  nodup : (conns.map (·.serverName)).Nodup

/-- What becomes of a call. -/
inductive McpOutcome where
  /-- The bridge answers itself. -/
  | metaTool
  | forwarded (serverName rawName : String) (params : Json)
  | refused (code : Int) (message : String)

namespace McpServerConnection

variable (c : McpServerConnection)

/-- `namespace`. -/
def nameSpace : String := c.config.toolNamespace c.serverName

/-- The tool is registered by `register_tools_with_avix` as `name`. -/
def Registers (rawName name : String) : Prop := rawName ∈ c.tools ∧ name = c.nameSpace ++ rawName

/-- The namespace is in front of the name. -/
def covers (name : String) : Bool := startsWith name c.nameSpace

def forwardCall (name : String) (params : Json) : McpOutcome :=
  match stripStart c.nameSpace name with
  | some rawName => .forwarded c.serverName rawName params
  | none => .refused (-32005) ("MCP call failed: MCP protocol error: tool '" ++ name ++
      "' does not belong to namespace '" ++ c.nameSpace ++ "'")

end McpServerConnection

/-- `ALL_META_TOOLS`. -/
def allMetaTools : List String := ["mcp/servers", "mcp/server-status", "mcp/tools"]

/-- `handle_tool_call` of a request, for an order of the connections. -/
def handleToolCall (order : List McpServerConnection) (name : String) (params : Json) :
    McpOutcome :=
  if name ∈ allMetaTools then .metaTool
  else
    match order.find? (·.covers name) with
    | some c => c.forwardCall name params
    | none => .refused (-32601) ("tool '" ++ name ++ "' not found in any MCP server")

/-- Calls of the name go where they should. -/
structure RoutesCalls (m : McpConnections) (name : String) : Prop where
  registered : ∀ c ∈ m.conns, ∀ rawName, c.Registers rawName name →
    ∀ order params, order.Perm m.conns →
      handleToolCall order name params = .forwarded c.serverName rawName params
  unregistered : (∀ c ∈ m.conns, ∀ rawName, ¬ c.Registers rawName name) →
    ∀ order params, order.Perm m.conns → ∀ serverName rawName params',
      handleToolCall order name params ≠ .forwarded serverName rawName params'

/-! ## Finding the server -/

variable {m : McpConnections} {c : McpServerConnection} {name rawName : String}

theorem covers_of_registers (h : c.Registers rawName name) : c.covers name := by
  have hstrip := stripStart_eq_some_iff.mpr h.2
  unfold stripStart at hstrip
  split_ifs at hstrip with hcov
  exact hcov

/-- Of the servers with a namespace in front of the name any one may be found. -/
theorem handleToolCall_of_covers (hmeta : name ∉ allMetaTools) (hc : c ∈ m.conns)
    (hcov : c.covers name) : ∃ order rawName, order.Perm m.conns ∧
      ∀ params, handleToolCall order name params = .forwarded c.serverName rawName params := by
  obtain ⟨before, rest, hconns⟩ := List.append_of_mem hc
  have hstrip : stripStart c.nameSpace name = some (dropPrefix name c.nameSpace) := if_pos hcov
  have hfind : (c :: (before ++ rest)).find? (·.covers name) = some c :=
    List.find?_cons_of_pos hcov
  refine ⟨c :: (before ++ rest), dropPrefix name c.nameSpace,
    hconns ▸ List.perm_middle.symm, fun params => ?_⟩
  unfold handleToolCall McpServerConnection.forwardCall
  rw [if_neg hmeta, hfind]
  dsimp only
  rw [hstrip]

theorem forwarded_of_registers (hmeta : name ∉ allMetaTools) (hc : c ∈ m.conns)
    (h : c.Registers rawName name)
    (honly : ∀ c' ∈ m.conns, c'.covers name → c'.serverName = c.serverName)
    {order : List McpServerConnection} (horder : order.Perm m.conns) (params : Json) :
    handleToolCall order name params = .forwarded c.serverName rawName params := by
  have hfind : order.find? (·.covers name) = some c := by
    have hsome : (order.find? (·.covers name)).isSome := by
      rw [List.find?_isSome]
      exact ⟨c, horder.mem_iff.mpr hc, covers_of_registers h⟩
    obtain ⟨c', hc'⟩ := Option.isSome_iff_exists.mp hsome
    have hmem := horder.mem_iff.mp (List.mem_of_find?_eq_some hc')
    have hcov := List.find?_some hc'
    have hsame := honly c' hmem hcov
    rw [hc', List.inj_on_of_nodup_map m.nodup hmem hc hsame]
  unfold handleToolCall McpServerConnection.forwardCall
  rw [if_neg hmeta, hfind]
  dsimp only
  rw [stripStart_eq_some_iff.mpr h.2]

/-! ## Main statement -/

theorem mcp_routing_iff (m : McpConnections) (name : String) : RoutesCalls m name ↔
    (∀ c ∈ m.conns, ∀ rawName, c.Registers rawName name → name ∉ allMetaTools ∧
      ∀ c' ∈ m.conns, c'.covers name → c'.serverName = c.serverName) ∧
    ((∀ c ∈ m.conns, ∀ rawName, ¬ c.Registers rawName name) →
      name ∈ allMetaTools ∨ ∀ c ∈ m.conns, c.covers name = false) := by
  constructor
  · intro h
    refine ⟨fun c hc rawName hreg => ?_, fun hnone => ?_⟩
    · have hmeta : name ∉ allMetaTools := by
        intro hmeta
        have hcall := h.registered c hc rawName hreg m.conns .null (List.Perm.refl _)
        unfold handleToolCall at hcall
        rw [if_pos hmeta] at hcall
        cases hcall
      refine ⟨hmeta, fun c' hc' hcov => ?_⟩
      obtain ⟨order, rawName', horder, hcall⟩ := handleToolCall_of_covers hmeta hc' hcov
      have hsame := (hcall .null).symm.trans (h.registered c hc rawName hreg order .null horder)
      exact (McpOutcome.forwarded.inj hsame).1
    · by_contra hnot
      push Not at hnot
      obtain ⟨hmeta, c, hc, hcov⟩ := hnot
      obtain ⟨order, rawName, horder, hcall⟩ :=
        handleToolCall_of_covers hmeta hc (Bool.eq_true_of_not_eq_false hcov)
      exact h.unregistered hnone order .null horder _ _ _ (hcall .null)
  · rintro ⟨hreg, hunreg⟩
    refine ⟨fun c hc rawName h order params horder => ?_, fun hnone order params horder => ?_⟩
    · obtain ⟨hmeta, honly⟩ := hreg c hc rawName h
      exact forwarded_of_registers hmeta hc h honly horder params
    · unfold handleToolCall
      rcases hunreg hnone with hmeta | hcov
      · rw [if_pos hmeta]
        exact nofun
      have hfind : order.find? (·.covers name) = none := by
        refine List.find?_eq_none.mpr fun c hc => ?_
        rw [hcov c (horder.mem_iff.mp hc)]
        exact Bool.false_ne_true
      rw [hfind]
      split_ifs <;> exact nofun

/-- The servers `gh` and `extra`, with the mount `/tools/gh/x`. -/
theorem nested_namespace_misrouted : ∃ m : McpConnections, ∃ c ∈ m.conns,
    c.Registers "list" "gh/x/list" ∧
      handleToolCall m.conns "gh/x/list" .null = .forwarded "gh" "x/list" .null :=
  ⟨⟨[⟨"gh", ⟨none⟩, []⟩, ⟨"extra", ⟨some "/tools/gh/x"⟩, ["list"]⟩], by decide⟩, _,
    List.mem_cons_of_mem _ List.mem_cons_self, ⟨by decide, by decide⟩, rfl⟩

end Avix
