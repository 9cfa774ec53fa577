/-
  Responses of the language model and what the turn loop does with them (`llm_client/mod.rs`,
  `executor/stop_reason.rs`).
-/
import Avix.Executor.Validation
import Avix.Tools.Registry

namespace Avix

open Lib

inductive StopReason where
  | endTurn
  | toolUse
  | maxTokens
  | stopSequence
  deriving DecidableEq, Repr

/-- `llm_client::LlmCompleteResponse`; the token counts only feed statistics. -/
structure LlmCompleteResponse where
  content : List Json
  stopReason : StopReason

inductive TurnAction where
  | returnResult (text : String)
  | dispatchTools (calls : List AvixToolCall)
  | summariseContext

/-- The text blocks of a response, joined. -/
def textOf (content : List Json) : String :=
  String.join (content.filterMap fun c => (c.index "text").asStr)

/-- The tool call of a `tool_use` block. -/
def toolCallOf (c : Json) : AvixToolCall :=
  let mangled := ((c.index "name").asStr).getD ""
  { callId := ((c.index "id").asStr).getD ""
    name :=
      match ToolName.unmangle mangled with
      | .ok name => name.asStr
      | .error _ => replacePair '_' '_' "/" mangled
    args := c.index "input" }

def interpretStopReason (resp : LlmCompleteResponse) : TurnAction :=
  match resp.stopReason with
  | .endTurn => .returnResult (textOf resp.content)
  | .stopSequence => .returnResult (textOf resp.content)
  | .toolUse => .dispatchTools
      ((resp.content.filter fun c => (c.index "type").asStr == some "tool_use").map toolCallOf)
  | .maxTokens => .summariseContext

end Avix
