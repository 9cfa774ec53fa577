/-
  The HTTP client's two ways to an answer (`llm_svc/http_client.rs`).

  Model. A response is the JSON of its body; a stream is the list of its server-sent events, each
  an event name and its data. The client keeps a map from the index of a tool call to its id and
  rewrites the argument fragments, which the adapters key by index.
-/
import Avix.Llm.Adapter

namespace Avix

open Lib

/-- The stop reasons that `complete` knows. -/
def completeStopReason : String → StopReason
  | "tool_use" => .toolUse
  | "max_tokens" => .maxTokens
  | "stop_sequence" => .stopSequence
  | _ => .endTurn

/-- A server-sent event. -/
structure SseEvent where
  name : Option String
  data : String

namespace DirectHttpLlmClient

variable (fromStr : String → Option Json) (provider : Provider)

/-- The end of `DirectHttpLlmClient::complete`, for a successful response. -/
def complete (raw : Json) : Except AdapterError LlmCompleteResponse :=
  (provider.parseCompleteResponse fromStr raw).map fun r =>
    ⟨r.content, completeStopReason r.stopReason⟩

/-- The index of a tool call is entered if its id is that of the start. -/
def enterIndex (callId : String) (id index : Json) (indexToId : HashMap String String) :
    HashMap String String :=
  if id.asStr = some callId then
    match index.asU64 with
    | some idx => indexToId.insert (toString idx.toNat) callId
    | none => indexToId
  else indexToId

/-- The map after a tool call's start, from the data of the event. -/
def enterStart (callId : String) (data : String) (indexToId : HashMap String String) :
    HashMap String String :=
  match fromStr data with
  | none => indexToId
  | some v =>
    let toolCalls :=
      (((((v.index "choices").at 0).index "delta").index "tool_calls").asArray).getD []
    let indexToId := toolCalls.foldl (fun m tc =>
      enterIndex callId (tc.index "id") (tc.index "index") m) indexToId
    if ((v.index "content_block").index "type").asStr = some "tool_use" then
      enterIndex callId ((v.index "content_block").index "id") (v.index "index") indexToId
    else indexToId

/-- The rewriting of one chunk. -/
def fixUp (indexToId : HashMap String String) (data : String) :
    StreamChunk → HashMap String String × StreamChunk
  | .toolCallStart callId name =>
    (enterStart fromStr callId data indexToId, .toolCallStart callId name)
  | .toolCallArgsDelta callId args =>
    (indexToId, .toolCallArgsDelta ((indexToId.lookup callId).getD callId) args)
  | chunk => (indexToId, chunk)

/-- The chunks of `DirectHttpLlmClient::stream_complete`. -/
def streamChunks (indexToId : HashMap String String) :
    List SseEvent → List (Except AdapterError StreamChunk)
  | [] => []
  | e :: rest =>
    match provider.parseStreamEvent fromStr e.name e.data with
    | .error err => .error err :: streamChunks indexToId rest
    | .ok none => streamChunks indexToId rest
    | .ok (some chunk) =>
      let fixed := fixUp fromStr indexToId e.data chunk
      .ok fixed.2 :: streamChunks fixed.1 rest

end DirectHttpLlmClient

end Avix
