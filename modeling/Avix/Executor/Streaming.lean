/-
  One streamed turn (`run_turn_streaming` in `executor/runtime_executor/dispatch_manager.rs`).

  Model. The turn takes what its `select!` yields: a chunk or an error of the stream, a tick of
  the flush timer, or the cancellation. `pending_calls` is a `HashMap`: its entries are kept in
  the order in which they were first inserted, and the order in which it is iterated is a
  parameter, any permutation (`HashOrder`). `serde_json::from_str` is a parameter.
-/
import Avix.Llm.Adapter

namespace Avix

open Lib

/-- A value of `pending_calls` with its key. -/
structure PendingCall where
  callId : String
  name : String
  args : String
  deriving DecidableEq, Repr

/-- How a hash map is iterated. -/
structure HashOrder where
  iterate : List PendingCall → List PendingCall
  perm : ∀ entries, (iterate entries).Perm entries

/-- A text sent to the event bus (`agent_output_chunk`). -/
structure OutputChunk where
  text : String
  seq : Nat
  isFinal : Bool
  deriving DecidableEq, Repr

/-- What the turn waits for. -/
inductive StreamInput where
  | chunk (result : Except AdapterError StreamChunk)
  | tick
  | cancelled

/-- The local variables of `run_turn_streaming`. -/
structure TurnStream where
  accumulatedText : String := ""
  pendingCalls : List PendingCall := []
  stopReason : StopReason := .endTurn
  seq : Nat := 0
  pendingText : String := ""
  published : List OutputChunk := []

/-- `pending_calls.insert`. -/
def insertCall (call : PendingCall) (calls : List PendingCall) : List PendingCall :=
  if ∃ c ∈ calls, c.callId = call.callId then
    calls.map fun c => if c.callId = call.callId then call else c
  else calls ++ [call]

/-- `pending_calls.get_mut` and `push_str`. -/
def appendArgs (callId args : String) (calls : List PendingCall) : List PendingCall :=
  calls.map fun c => if c.callId = callId then { c with args := c.args ++ args } else c

def AdapterError.display : AdapterError → String
  | .missingField field => "missing field: " ++ field
  | .parseError e => "parse error: " ++ e

namespace TurnStream

variable (hasBus : Bool)

def flushPending (s : TurnStream) : TurnStream :=
  if s.pendingText = "" then s
  else if hasBus then
    { s with published := s.published ++ [⟨s.pendingText, s.seq, false⟩], seq := s.seq + 1,
             pendingText := "" }
  else { s with pendingText := "" }

/-- The arms for a chunk. -/
def onChunk (s : TurnStream) : StreamChunk → TurnStream
  | .textDelta text =>
    let s := { s with accumulatedText := s.accumulatedText ++ text,
                      pendingText := s.pendingText ++ text }
    if 80 ≤ s.pendingText.utf8ByteSize then s.flushPending hasBus else s
  | .toolCallStart callId name =>
    let s := s.flushPending hasBus
    { s with pendingCalls := insertCall ⟨callId, name, ""⟩ s.pendingCalls }
  | .toolCallArgsDelta callId args =>
    { s with pendingCalls := appendArgs callId args s.pendingCalls }
  | .toolCallComplete _ => s
  | .done stopReason => { s with stopReason := stopReason }

/-- One round of the loop. -/
def step (s : TurnStream) : StreamInput → Except AvixError TurnStream
  | .cancelled => .error (.cancelled "LLM call cancelled by signal")
  | .chunk (.error e) => .error (.configParse ("SSE parse error: " ++ e.display))
  | .chunk (.ok c) => .ok (s.onChunk hasBus c)
  | .tick => .ok (s.flushPending hasBus)

/-- The loop ends with the stream. -/
def run (s : TurnStream) (inputs : List StreamInput) : Except AvixError TurnStream :=
  inputs.foldlM (step hasBus) s

/-- The content that is assembled after the loop. -/
def content (fromStr : String → Option Json) (order : HashOrder) (s : TurnStream) : List Json :=
  (if s.accumulatedText = "" then [] else [textBlock s.accumulatedText]) ++
    (order.iterate s.pendingCalls).map fun c =>
      toolUseBlock c.callId c.name ((fromStr c.args).getD (.object []))

/-- The last flush and the final chunk. -/
def finish (s : TurnStream) : List OutputChunk :=
  let s := s.flushPending hasBus
  if hasBus then s.published ++ [⟨"", s.seq, true⟩] else s.published

end TurnStream

/-- `run_turn_streaming` on a stream that was opened: what it publishes and what it returns. -/
def runTurnStreaming (fromStr : String → Option Json) (order : HashOrder) (hasBus : Bool)
    (inputs : List StreamInput) : Except AvixError (List OutputChunk × LlmCompleteResponse) :=
  (TurnStream.run hasBus {} inputs).map fun s =>
    (s.finish hasBus, ⟨s.content fromStr order, s.stopReason⟩)

end Avix
