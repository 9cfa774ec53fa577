/-
  Decoding the answers of the OpenAI and Anthropic providers (`llm_svc/adapter/openai.rs`,
  `llm_svc/adapter/anthropic.rs`).

  Model. `serde_json::from_str` is a parameter. The adapters index the decoded JSON as the source
  does: a missing member is null, and a value of the wrong type is as good as missing.
-/
import Avix.Executor.StopReason

namespace Avix

open Lib

/-- `value[i]` of an array. -/
def Json.at (j : Json) (i : Nat) : Json :=
  match j with
  | .array items => (items[i]?).getD .null
  | _ => .null

/-- `llm_svc::adapter::AdapterError`, the two that decoding returns. -/
inductive AdapterError where
  | missingField (field : String)
  | parseError (e : String)
  deriving DecidableEq, Repr

structure AvixCompleteResponse where
  content : List Json
  stopReason : String

inductive StreamChunk where
  | textDelta (text : String)
  | toolCallStart (callId name : String)
  | toolCallArgsDelta (callId argsDelta : String)
  | toolCallComplete (callId : String)
  | done (stopReason : StopReason)
  deriving DecidableEq, Repr

/-- `{"type": "text", ..}`. -/
def textBlock (text : String) : Json :=
  .ofMembers [("type", .string "text"), ("text", .string text)]

/-- `{"type": "tool_use", ..}`. -/
def toolUseBlock (id name : String) (input : Json) : Json :=
  .ofMembers [("type", .string "tool_use"), ("id", .string id), ("name", .string name),
    ("input", input)]

/-- `ToolName::unmangle(..)`, or the same replacement where the result is no tool name. -/
def unmangledName (mangled : String) : String :=
  match ToolName.unmangle mangled with
  | .ok name => name.asStr
  | .error _ => replacePair '_' '_' "/" mangled

theorem unmangledName_eq (mangled : String) :
    unmangledName mangled = replacePair '_' '_' "/" mangled := by
  unfold unmangledName ToolName.unmangle ToolName.parse
  split_ifs <;> rfl

/-! ## OpenAI -/

namespace OpenAiAdapter

section Parse

variable (fromStr : String → Option Json)

/-- A tool call of a whole message as a block. -/
def toolCallBlock (tc : Json) : Json :=
  let args := (((tc.index "function").index "arguments").asStr).getD "\x7b\x7d"
  toolUseBlock (((tc.index "id").asStr).getD "")
    (unmangledName ((((tc.index "function").index "name").asStr).getD ""))
    ((fromStr args).getD (.object []))

def parseCompleteResponse (raw : Json) : Except AdapterError AvixCompleteResponse :=
  match ((raw.index "choices").asArray).bind List.head? with
  | none => .error (.missingField "choices[0]")
  | some choice =>
    let message := choice.index "message"
    let text := match (message.index "content").asStr with
      | some text => if text = "" then [] else [textBlock text]
      | none => []
    match ((message.get? "tool_calls").bind Json.asArray).getD [] with
    | [] => .ok ⟨text, ((choice.index "finish_reason").asStr).getD "stop"⟩
    | tc :: rest => .ok ⟨text ++ (tc :: rest).map (toolCallBlock fromStr), "tool_use"⟩

end Parse

/-- The loop over the tool-call deltas of an event: it returns at the first start and at the
    first fragment that is not empty. -/
def toolCallChunk : List Json → Option StreamChunk
  | [] => none
  | tc :: rest =>
    match (tc.index "id").asStr with
    | some id => some (.toolCallStart id
        (unmangledName ((((tc.index "function").index "name").asStr).getD "")))
    | none =>
      match ((tc.index "function").index "arguments").asStr with
      | some args =>
        if args = "" then toolCallChunk rest
        else some (.toolCallArgsDelta
          (toString (((tc.index "index").asU64).getD 0).toNat) args)
      | none => toolCallChunk rest

def stopReasonOf : String → StopReason
  | "tool_calls" => .toolUse
  | "length" => .maxTokens
  | "stop_sequence" => .stopSequence
  | _ => .endTurn

/-- The last part of `parse_stream_event`. -/
def finishChunk (choice : Json) : Option StreamChunk :=
  let reason := ((choice.index "finish_reason").asStr).getD ""
  if reason = "" ∨ reason = "null" then none else some (.done (stopReasonOf reason))

/-- `OpenAiAdapter::parse_stream_event` on the decoded event. -/
def streamChunk (v : Json) : Option StreamChunk :=
  match ((v.index "choices").asArray).bind List.head? with
  | none => none
  | some choice =>
    let delta := choice.index "delta"
    let text := ((delta.index "content").asStr).getD ""
    if text ≠ "" then some (.textDelta text)
    else
      match toolCallChunk (((delta.index "tool_calls").asArray).getD []) with
      | some chunk => some chunk
      | none => finishChunk choice

end OpenAiAdapter

/-! ## Anthropic -/

namespace AnthropicAdapter

def parseCompleteResponse (raw : Json) : Except AdapterError AvixCompleteResponse :=
  .ok ⟨((raw.index "content").asArray).getD [], ((raw.index "stop_reason").asStr).getD "end_turn"⟩

def stopReasonOf : String → StopReason
  | "tool_use" => .toolUse
  | "max_tokens" => .maxTokens
  | "stop_sequence" => .stopSequence
  | _ => .endTurn

/-- The index of an event's block. -/
def indexOf (v : Json) : String := toString (((v.index "index").asU64).getD 0).toNat

/-- `content_block_start`. -/
def blockStart (v : Json) : Option StreamChunk :=
  let block := v.index "content_block"
  if (block.index "type").asStr = some "tool_use" then
    some (.toolCallStart (((block.index "id").asStr).getD "")
      (unmangledName (((block.index "name").asStr).getD "")))
  else none

/-- `content_block_delta`. -/
def blockDelta (v : Json) : Option StreamChunk :=
  let delta := v.index "delta"
  match (delta.index "type").asStr with
  | some "text_delta" =>
    let text := ((delta.index "text").asStr).getD ""
    if text = "" then none else some (.textDelta text)
  | some "input_json_delta" =>
    let args := ((delta.index "partial_json").asStr).getD ""
    if args = "" then none else some (.toolCallArgsDelta (indexOf v) args)
  | _ => none

/-- `AnthropicAdapter::parse_stream_event` on the decoded event. -/
def streamChunk (eventName : Option String) (v : Json) : Option StreamChunk :=
  match eventName with
  | some "content_block_start" => blockStart v
  | some "content_block_delta" => blockDelta v
  | some "content_block_stop" => some (.toolCallComplete (indexOf v))
  | some "message_delta" => some (.done (stopReasonOf
      ((((v.index "delta").index "stop_reason").asStr).getD "end_turn")))
  | _ => none

end AnthropicAdapter

/-! ## One interface -/

/-- The two providers. -/
inductive Provider where
  | openAi
  | anthropic
  deriving DecidableEq, Repr

namespace Provider

variable (fromStr : String → Option Json)

/-- `ProviderAdapter::parse_complete_response`. -/
def parseCompleteResponse (raw : Json) : Provider → Except AdapterError AvixCompleteResponse
  | .openAi => OpenAiAdapter.parseCompleteResponse fromStr raw
  | .anthropic => AnthropicAdapter.parseCompleteResponse raw

/-- `ProviderAdapter::parse_stream_event`. -/
def parseStreamEvent (eventName : Option String) (data : String) (p : Provider) :
    Except AdapterError (Option StreamChunk) :=
  match fromStr data with
  | none => .error (.parseError "expected value")
  | some v => .ok (match p with
    | .openAi => OpenAiAdapter.streamChunk v
    | .anthropic => AnthropicAdapter.streamChunk eventName v)

end Provider

end Avix
