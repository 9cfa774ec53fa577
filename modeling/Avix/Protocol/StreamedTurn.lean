/-
  PROTOCOL — a streamed turn and a whole message.

  `streamed_eq_complete_iff`: take any message of the OpenAI or the Anthropic provider, any
  way it is cut into stream events, any timer ticks between them and any iteration order of the
  hash map of pending calls. The streamed turn leads to the same action with the same text and
  the same calls as the whole message, if and only if `ReadAlike` holds:
  * OpenAI without tool calls: the finish reason is none that only one of the two ways knows,
    "tool_use" and "max_tokens" of `complete`, "tool_calls" and "length" of the stream; the last
    two count only if the stream hears them.
  * OpenAI with tool calls: the finish reason is "tool_calls" and stands in an event of its own,
    and the calls come through (`ComesThrough`): no start stands behind a text or another entry
    of its event, the ids differ, the arguments that are heard have the value of all arguments,
    and the hash map is iterated in the order of the starts.
  * Anthropic with the stop reason "tool_use": the ids differ, the hash map is iterated in the
    order of the starts, and an input that stands in the start itself is the empty object.

  Reason. The OpenAI adapter returns one chunk for an event and drops what else the event has. The
  two ways have different tables of finish reasons, and the calls are assembled from a `HashMap`.
-/
import Avix.Llm.WireFormat

namespace Avix.Protocol

open Json hiding index

open Lib DirectHttpLlmClient OpenAiAdapter List MeantCall

/-! ## Unmangling twice -/

/-- The streamed name is unmangled by the adapter and by `interpret_stop_reason`. -/
theorem unmangledName_unmangledName (name : String) :
    unmangledName (unmangledName name) = unmangledName name := by
  rw [unmangledName_eq, unmangledName_eq]
  exact replacePair_replacePair (by decide) (by decide) name

/-- What an outcome must be for a whole message with the stop reason. -/
def outcomeOf (text : String) (calls : List AvixToolCall) : StopReason → TurnAction × String
  | .endTurn => (.returnResult text, text)
  | .stopSequence => (.returnResult text, text)
  | .toolUse => (.dispatchTools calls, text)
  | .maxTokens => (.summariseContext, text)

theorem outcome_eq (r : LlmCompleteResponse) : r.outcome = outcomeOf (textOf r.content)
    ((r.content.filter fun c => (c.index "type").asStr == some "tool_use").map toolCallOf)
    r.stopReason := by
  rw [LlmCompleteResponse.outcome, interpretStopReason]
  cases r.stopReason <;> rfl

variable (fromStr : String → Option Json)

theorem action_eq (order : HashOrder) (a : StreamAnswer) :
    (a.action fromStr order, a.text) =
      outcomeOf a.text ((order.iterate a.calls).map (StreamAnswer.callOf fromStr)) a.stop := by
  rw [StreamAnswer.action]
  cases a.stop <;> rfl

theorem outcomeOf_eq_dispatch_iff {text : String} {calls calls' : List AvixToolCall}
    {stop : StopReason} :
    outcomeOf text calls stop = outcomeOf text calls' .toolUse ↔
      stop = .toolUse ∧ calls = calls' := by
  cases stop <;> simp [outcomeOf]

/-- Both ways agree. -/
def Agree (streamed : Except AvixError (TurnAction × String))
    (whole : Except AdapterError (TurnAction × String)) : Prop :=
  ∃ outcome, streamed = .ok outcome ∧ whole = .ok outcome

theorem agree_ok_iff {streamed whole : TurnAction × String} :
    Agree (.ok streamed) (.ok whole) ↔ streamed = whole := by
  constructor
  · rintro ⟨o, hs, hw⟩
    rw [Except.ok.inj hs, Except.ok.inj hw]
  · rintro rfl
    exact ⟨streamed, rfl, rfl⟩

/-! ## OpenAI -/

section OpenAi

open OpenAi

variable {reader : JsonReader} {m : OpenAi.Message} (s : OpenAi.Stream reader m)

/-- The events and what is heard of them. -/
def openAiWire : List WireEvent :=
  s.events.map fun e => ⟨⟨none, e.data⟩, e.event.heard⟩

/-- The calls of the message under the names that the adapter gives. -/
def openAiMeant : List MeantCall :=
  s.calls.map fun c =>
    ⟨c.1, c.2.id, unmangledName c.2.name, (reader.fromStr c.2.args).getD (.object [])⟩

/-- The condition for OpenAI. -/
def OpenAiAlike (order : HashOrder) : Prop :=
  if m.calls = [] then
    m.finishReason ≠ "tool_use" ∧ m.finishReason ≠ "max_tokens" ∧
      (s.last.Bare → m.finishReason ≠ "tool_calls" ∧ m.finishReason ≠ "length")
  else
    m.finishReason = "tool_calls" ∧ s.last.Bare ∧
      ComesThrough reader.fromStr order ((s.init ++ [s.last]).filterMap Delta.heard)
        (openAiMeant s)

variable {s}

theorem heard_openAiWire :
    (openAiWire s).filterMap WireEvent.heard = (s.init ++ [s.last]).filterMap Delta.heard := by
  rw [openAiWire, filterMap_map, ← s.deltas, filterMap_filterMap]
  rfl

theorem openAi_reads : ∀ w ∈ openAiWire s, w.Reads reader.fromStr .openAi := by
  intro w hw
  obtain ⟨e, -, rfl⟩ := mem_map.mp hw
  rw [WireEvent.Reads, Provider.parseStreamEvent, e.reads]
  exact congrArg Except.ok (streamChunk_toJson e.event)

theorem openAi_starts :
    (startsIn (s.init ++ [s.last])).map named = (openAiMeant s).map MeantCall.start := by
  rw [startsIn, s.starts, openAiMeant, map_map, map_map]
  rfl

theorem openAi_enters (hids : ((openAiMeant s).map MeantCall.id).Nodup) :
    ∀ w ∈ openAiWire s, w.Enters reader.fromStr := by
  intro w hw
  obtain ⟨e, he, rfl⟩ := mem_map.mp hw
  intro map index id name hheard
  obtain ⟨event, data, hreads⟩ := e
  cases event with
  | usage => cases hheard
  | delta d =>
    refine enterStart_toJson hreads ?_ hheard map
    -- the entries of the event are some of all entries
    have hmem : d ∈ s.init ++ [s.last] := by
      rw [← s.deltas]
      exact mem_filterMap.mpr ⟨_, he, rfl⟩
    obtain ⟨pre, post, heq⟩ := mem_iff_append.mp hmem
    have hsub : (d.toolCalls.filterMap ToolDelta.start?).Sublist
        (startsIn (s.init ++ [s.last])) := by
      rw [heq, startsIn, flatMap_append, flatMap_cons]
      exact ((sublist_append_left _ _).trans (sublist_append_right _ _)).filterMap _
    have hall : (startsIn (s.init ++ [s.last])).map (·.2.1) = (openAiMeant s).map MeantCall.id := by
      rw [startsIn, s.starts, openAiMeant, map_map, map_map]
      rfl
    exact (hall ▸ hids).sublist (hsub.map _)

theorem texts_filterMap_heard (ds : List Delta) :
    String.join ((ds.filterMap Delta.heard).filterMap Heard.text?) =
      String.join (ds.map (·.content.getD "")) := by
  rw [filterMap_filterMap, join_filterMap]
  exact congrArg String.join (map_congr_left fun d _ => d.text?_heard)

/-- The stop reason of the stream. -/
theorem openAi_stop :
    ((((s.init ++ [s.last]).filterMap Delta.heard).filterMap Heard.stop?).getLast?).getD .endTurn =
      if s.last.Bare then stopReasonOf m.finishReason else .endTurn := by
  have hinit : (s.init.filterMap Delta.heard).filterMap Heard.stop? = [] := by
    rw [filterMap_filterMap, filterMap_eq_nil_iff]
    exact fun d hd => Delta.stop?_of_unfinished (s.unfinished d hd)
  have hlast := s.last.stop?_heard
  rw [s.finished, Option.getD_some] at hlast
  rw [filterMap_append, filterMap_append, hinit, nil_append, ← hlast, filterMap_filterMap]
  cases h : s.last.heard.bind Heard.stop? <;> simp [h]

/-! ### The whole message -/

theorem toolCallBlock_toJson (c : OpenAi.ToolCall) :
    toolCallBlock fromStr c.toJson =
      toolUseBlock c.id (unmangledName c.name) ((fromStr c.args).getD (.object [])) := by
  have hid : c.toJson.index "id" = .string c.id := by
    rw [OpenAi.ToolCall.toJson, index_ofMembers]
    rfl
  have hfunc : c.toJson.index "function" = c.function := by
    rw [OpenAi.ToolCall.toJson, index_ofMembers]
    rfl
  have hname : c.function.index "name" = .string c.name := by
    rw [OpenAi.ToolCall.function, index_ofMembers]
    rfl
  have hargs : c.function.index "arguments" = .string c.args := by
    rw [OpenAi.ToolCall.function, index_ofMembers]
    rfl
  rw [toolCallBlock, hid, hfunc, hname, hargs]
  rfl

/-- `complete` on a message. -/
theorem openAi_complete (m : OpenAi.Message) :
    complete fromStr .openAi m.toJson = .ok ⟨contentBlocks (m.content.getD "") (m.calls.map fun c =>
          (c.id, unmangledName c.name, (fromStr c.args).getD (.object []))),
        if m.calls = [] then completeStopReason m.finishReason else .toolUse⟩ := by
  have hcho : m.toJson.index "choices" = .array [m.choice] := by
    rw [OpenAi.Message.toJson, index_ofMembers]
    rfl
  have hmess : m.choice.index "message" = m.body := by
    rw [OpenAi.Message.choice, index_ofMembers]
    rfl
  have hfin : m.choice.index "finish_reason" = .string m.finishReason := by
    rw [OpenAi.Message.choice, index_ofMembers]
    rfl
  have hcont : m.body.index "content" = .ofText m.content := by
    rw [OpenAi.Message.body, index_ofMembers]
    rfl
  have hcalls : m.body.get? "tool_calls" = some (.array (m.calls.map OpenAi.ToolCall.toJson)) := by
    rw [OpenAi.Message.body, get?_ofMembers]
    rfl
  have hbloc : (m.calls.map OpenAi.ToolCall.toJson).map (toolCallBlock fromStr) =
      (m.calls.map fun c => (c.id, unmangledName c.name, (fromStr c.args).getD (.object []))).map
        fun c => toolUseBlock c.1 c.2.1 c.2.2 := by
    rw [map_map, map_map]
    exact map_congr_left fun c _ => toolCallBlock_toJson fromStr c
  unfold complete Provider.parseCompleteResponse parseCompleteResponse
  simp only [hcho, asArray, Option.bind_some, head?_cons, hmess, hcont,
    asStr_ofText, hcalls, Option.getD_some, hfin]
  rw [contentBlocks, ← hbloc]
  cases m.calls with
  | nil => cases m.content <;> simp [Except.map, asStr]
  | cons c cs => cases m.content <;> rfl

/-- Without calls, only the finish reason counts. -/
theorem finish_agrees_iff {text : String} {calls calls' : List AvixToolCall} (bare : Prop)
    [Decidable bare] (reason : String) :
    outcomeOf text calls (if bare then stopReasonOf reason else .endTurn) =
        outcomeOf text calls' (completeStopReason reason) ↔
      reason ≠ "tool_use" ∧ reason ≠ "max_tokens" ∧
        (bare → reason ≠ "tool_calls" ∧ reason ≠ "length") := by
  unfold stopReasonOf completeStopReason
  by_cases hbare : bare
  · rw [if_pos hbare]
    split <;> split <;> simp_all [outcomeOf]
  · rw [if_neg hbare]
    split <;> simp_all [outcomeOf]

/-- The stream says that tools are to be called. -/
theorem stop_toolUse_iff (bare : Prop) [Decidable bare] (reason : String) :
    (if bare then stopReasonOf reason else .endTurn) = .toolUse ↔ reason = "tool_calls" ∧ bare := by
  unfold stopReasonOf
  split_ifs with hbare
  · split <;> simp_all
  · simp [hbare]

theorem openAi_dispatched_iff (order : HashOrder) {chunks : List StreamChunk}
    (hchun : streamChunks reader.fromStr .openAi ∅
      ((openAiWire s).map WireEvent.sse) = chunks.map .ok) :
    (order.iterate (chunks.foldl StreamAnswer.hear {}).calls).map
        (StreamAnswer.callOf reader.fromStr) = (openAiMeant s).map MeantCall.call ↔
      ComesThrough reader.fromStr order ((s.init ++ [s.last]).filterMap Delta.heard)
        (openAiMeant s) := by
  have hsub := startsOf_heard_sublist (s.init ++ [s.last])
  have hind : ((openAiMeant s).map index).Nodup := by
    rw [openAiMeant, map_map]
    exact s.indices
  have htim : startsOf ((s.init ++ [s.last]).filterMap Delta.heard) = (openAiMeant s).map start →
        Timely ((s.init ++ [s.last]).filterMap Delta.heard) := fun hstar =>
    timely_of_starts s.inTime (hstar.trans openAi_starts.symm)
  rw [openAi_starts] at hsub
  rw [← heard_openAiWire] at hsub htim ⊢
  exact dispatched_iff order openAi_reads openAi_enters hsub hind htim hchun

theorem openAi_agree_iff (order : HashOrder) (hasBus : Bool)
    (feed : TurnFeed (streamChunks reader.fromStr .openAi ∅ ((openAiWire s).map WireEvent.sse))) :
    Agree ((runTurnStreaming reader.fromStr order hasBus feed.inputs).map fun r => r.2.outcome)
        ((complete reader.fromStr .openAi m.toJson).map LlmCompleteResponse.outcome) ↔
      OpenAiAlike s order := by
  obtain ⟨chunks, hchun, hrun⟩ := outcome_streamed order hasBus openAi_reads feed
  have hmeant : (m.calls.map fun c =>
      (c.id, unmangledName c.name, (reader.fromStr c.args).getD (.object []))).map
        (fun c => (⟨c.1, unmangledName c.2.1, c.2.2⟩ : AvixToolCall)) =
      (openAiMeant s).map call := by
    rw [openAiMeant, ← s.calls_eq, map_map, map_map, map_map]
    rfl
  rw [hrun, openAi_complete, heard_openAiWire, texts_filterMap_heard, s.text, openAi_stop]
  simp only [Except.map]
  rw [agree_ok_iff, outcome_eq, textOf_contentBlocks, toolCalls_contentBlocks, hmeant]
  refine (Eq.congr_left (action_eq reader.fromStr order _)).trans ?_
  unfold OpenAiAlike
  dsimp only
  by_cases hcalls : m.calls = []
  · rw [if_pos hcalls, if_pos hcalls]
    exact finish_agrees_iff s.last.Bare m.finishReason
  · rw [if_neg hcalls, if_neg hcalls, outcomeOf_eq_dispatch_iff, stop_toolUse_iff, and_assoc,
      openAi_dispatched_iff order hchun]

end OpenAi

/-! ## Anthropic -/

section Anthropic

open Anthropic

variable {reader : JsonReader} {m : Anthropic.Message} (s : Anthropic.Stream reader m)

def anthropicWire : List WireEvent :=
  s.events.map fun e => ⟨⟨some e.event.name, e.data⟩, e.event.heard⟩

def anthropicMeant : List MeantCall :=
  s.calls.map fun c => ⟨c.index, c.id, unmangledName c.name, c.input⟩

/-- The fragments of a call's input. -/
def fragmentsFor (index : UInt64) : String :=
  String.join ((s.events.map Sent.event).filterMap (Event.inputFor index))

/-- The pending calls of the turn, in the order of their starts. -/
def pendingCalls : List PendingCall :=
  s.calls.map fun c => ⟨c.id, unmangledName c.name, fragmentsFor s c.index⟩

/-- The condition for Anthropic. -/
def AnthropicAlike (order : HashOrder) : Prop :=
  m.stopReason = "tool_use" →
    (s.calls.map SentCall.id).Nodup ∧ order.iterate (pendingCalls s) = pendingCalls s ∧
      ∀ c ∈ s.calls, fragmentsFor s c.index = "" → c.input = .object []

variable {s}

theorem heard_anthropicWire : (anthropicWire s).filterMap WireEvent.heard =
    (s.events.map Sent.event).filterMap Event.heard := by
  rw [anthropicWire, filterMap_map, filterMap_map]
  rfl

theorem anthropic_reads : ∀ w ∈ anthropicWire s, w.Reads reader.fromStr .anthropic := by
  intro w hw
  obtain ⟨e, -, rfl⟩ := mem_map.mp hw
  rw [WireEvent.Reads, Provider.parseStreamEvent, e.reads]
  exact congrArg Except.ok (streamChunk_toJson e.event)

theorem anthropic_enters : ∀ w ∈ anthropicWire s, w.Enters reader.fromStr := by
  intro w hw
  obtain ⟨⟨event, data, hreads⟩, -, rfl⟩ := mem_map.mp hw
  intro map index id name hheard
  have hheard' : event.heard = some (.start index id name) := hheard
  have hstart := event.start?_heard
  rw [hheard'] at hstart
  cases event with
  | toolStart i id' name' input =>
    obtain ⟨rfl, rfl, -⟩ := Heard.start.inj (Option.some.inj hheard)
    exact enterStart_toJson hreads map
  | _ => cases hstart

theorem anthropic_starts : startsOf ((s.events.map Sent.event).filterMap Event.heard) =
    (anthropicMeant s).map MeantCall.start := by
  rw [startsOf, filterMap_filterMap]
  simp only [Event.start?_heard]
  rw [← map_filterMap, s.starts, anthropicMeant, map_map, map_map]
  rfl

theorem anthropic_fragments (index : UInt64) :
    fragmentsOf ((s.events.map Sent.event).filterMap Event.heard) index = fragmentsFor s index := by
  rw [fragmentsOf, fragmentsFor, filterMap_filterMap, join_filterMap, join_filterMap]
  exact congrArg String.join (map_congr_left fun e _ => e.fragment?_heard index)

theorem anthropic_text :
    String.join (((s.events.map Sent.event).filterMap Event.heard).filterMap Heard.text?) =
      String.join (m.content.filterMap Block.text?) := by
  rw [filterMap_filterMap, join_filterMap, ← s.text, join_filterMap]
  exact congrArg String.join (map_congr_left fun e _ => e.text?_heard)

theorem anthropic_stop :
    ((((s.events.map Sent.event).filterMap Event.heard).filterMap Heard.stop?).getLast?).getD
      .endTurn = AnthropicAdapter.stopReasonOf m.stopReason := by
  rw [filterMap_filterMap]
  simp only [Event.stop?_heard]
  rw [← map_filterMap, s.stop]
  rfl

theorem anthropic_timely : Timely ((s.events.map Sent.event).filterMap Event.heard) := by
  intro p index args q heq
  obtain ⟨pre₁, rest, hsplit, hpre₁, hrest⟩ := filterMap_eq_append_iff.mp heq
  obtain ⟨pre₂, e, post, rfl, hpre₂, he, -⟩ := filterMap_eq_cons_iff.mp hrest
  cases e with
  | inputDelta i json =>
    have hi : i = index := by
      simp only [Event.heard] at he
      split_ifs at he
      exact (Heard.fragment.inj (Option.some.inj he)).1
    have hin := s.inTime (pre₁ ++ pre₂) i json post (by rw [hsplit, append_assoc])
    have hp : p = (pre₁ ++ pre₂).filterMap Event.heard := by
      rw [filterMap_append, hpre₁, filterMap_eq_nil_iff.mpr hpre₂, append_nil]
    rw [hp, startsOf, filterMap_filterMap]
    simp only [Event.start?_heard]
    rw [← map_filterMap, map_map, ← hi]
    exact hin
  | textDelta i text =>
    simp only [Event.heard] at he
    split_ifs at he
    cases he
  | _ => cases he

theorem anthropic_comesThrough_iff (order : HashOrder) :
    ComesThrough reader.fromStr order ((s.events.map Sent.event).filterMap Event.heard)
        (anthropicMeant s) ↔
      (s.calls.map SentCall.id).Nodup ∧ order.iterate (pendingCalls s) = pendingCalls s ∧
        ∀ c ∈ s.calls, fragmentsFor s c.index = "" → c.input = .object [] := by
  have hids : (anthropicMeant s).map MeantCall.id = s.calls.map SentCall.id := by
    rw [anthropicMeant, map_map]
    rfl
  have hpend : callsOfHeard ((s.events.map Sent.event).filterMap Event.heard) = pendingCalls s := by
    rw [callsOfHeard_eq anthropic_starts, anthropicMeant, map_map, pendingCalls]
    refine map_congr_left fun c _ => ?_
    rw [Function.comp_apply, anthropic_fragments]
  have hargs : (∀ c ∈ anthropicMeant s, (reader.fromStr (fragmentsOf
      ((s.events.map Sent.event).filterMap Event.heard) c.index)).getD (.object []) = c.input) ↔
      ∀ c ∈ s.calls, fragmentsFor s c.index = "" → c.input = .object [] := by
    simp only [anthropic_fragments, anthropicMeant, forall_mem_map]
    refine forall₂_congr fun c hc => ?_
    have hlaw := s.args c hc
    dsimp only at hlaw
    change if fragmentsFor s c.index = "" then _ else reader.fromStr (fragmentsFor s c.index) = _
      at hlaw
    split_ifs at hlaw with hempty
    · rw [hempty, reader.fromStr_empty]
      exact ⟨fun h _ => h.symm, fun h => (h rfl).symm⟩
    · rw [hlaw]
      exact ⟨fun _ h => absurd h hempty, fun _ => rfl⟩
  constructor
  · intro h
    exact ⟨hids ▸ h.ids, hpend ▸ h.order, hargs.mp h.args⟩
  · rintro ⟨hnodup, horder, hinput⟩
    exact ⟨anthropic_starts, hids ▸ hnodup, hpend ▸ horder, hargs.mpr hinput⟩

/-! ### The whole message -/

theorem textOf_blocks (blocks : List Block) :
    textOf (blocks.map Block.toJson) = String.join (blocks.filterMap Block.text?) := by
  rw [textOf, filterMap_map]
  refine congrArg String.join (filterMap_congr fun b _ => ?_)
  cases b with
  | text text =>
    show ((textBlock text).index "text").asStr = some text
    rw [(index_textBlock text).1]
    rfl
  | toolUse id name input =>
    show ((toolUseBlock id name input).index "text").asStr = none
    rw [(index_toolUseBlock id name input).1]
    rfl

theorem toolCalls_blocks (blocks : List Block) :
    ((blocks.map Block.toJson).filter fun c => (c.index "type").asStr == some "tool_use").map
        toolCallOf =
      (blocks.filterMap Block.toolUse?).map fun c => ⟨c.1, unmangledName c.2.1, c.2.2⟩ := by
  induction blocks with
  | nil => rfl
  | cons b blocks ih =>
    cases b with
    | text text =>
      have htype : ((Block.text text).toJson.index "type").asStr = some "text" := by
        rw [Block.toJson, (index_textBlock text).2]
        rfl
      rw [map_cons, filter_cons, htype]
      exact ih
    | toolUse id name input =>
      have htype : ((Block.toolUse id name input).toJson.index "type").asStr = some "tool_use" := by
        rw [Block.toJson, (index_toolUseBlock id name input).2]
        rfl
      rw [map_cons, filter_cons, htype, if_pos (by decide), map_cons, ih]
      exact congrArg (· :: _) (toolCallOf_toolUseBlock id name input)

theorem anthropic_complete (m : Anthropic.Message) :
    complete fromStr .anthropic m.toJson =
      .ok ⟨m.content.map Block.toJson, completeStopReason m.stopReason⟩ := by
  have hcont : m.toJson.index "content" = .array (m.content.map Block.toJson) := by
    rw [Anthropic.Message.toJson, index_ofMembers]
    rfl
  have hstop : m.toJson.index "stop_reason" = .string m.stopReason := by
    rw [Anthropic.Message.toJson, index_ofMembers]
    rfl
  unfold complete Provider.parseCompleteResponse AnthropicAdapter.parseCompleteResponse
  rw [hcont, hstop]
  rfl

/-- Here both ways have the same table. -/
theorem stopReasonOf_eq (reason : String) :
    AnthropicAdapter.stopReasonOf reason = completeStopReason reason := by
  unfold AnthropicAdapter.stopReasonOf completeStopReason
  split <;> simp_all

theorem completeStopReason_toolUse_iff (reason : String) :
    completeStopReason reason = .toolUse ↔ reason = "tool_use" := by
  unfold completeStopReason
  split <;> simp_all

theorem anthropic_agree_iff (order : HashOrder) (hasBus : Bool)
    (feed : TurnFeed (streamChunks reader.fromStr .anthropic ∅
      ((anthropicWire s).map WireEvent.sse))) :
    Agree ((runTurnStreaming reader.fromStr order hasBus feed.inputs).map fun r => r.2.outcome)
        ((complete reader.fromStr .anthropic m.toJson).map LlmCompleteResponse.outcome) ↔
      AnthropicAlike s order := by
  obtain ⟨chunks, hchun, hrun⟩ := outcome_streamed order hasBus anthropic_reads feed
  have hmeant : (m.content.filterMap Block.toolUse?).map
        (fun c => (⟨c.1, unmangledName c.2.1, c.2.2⟩ : AvixToolCall)) =
      (anthropicMeant s).map call := by
    rw [anthropicMeant, ← s.calls_eq, map_map, map_map]
    refine map_congr_left fun c _ => ?_
    simp [call, unmangledName_unmangledName]
  have hind : ((anthropicMeant s).map index).Nodup := by
    rw [anthropicMeant, map_map]
    exact s.indices
  have hstar := anthropic_starts (s := s)
  have htim := anthropic_timely (s := s)
  rw [← heard_anthropicWire] at hstar htim
  have hdisp := dispatched_iff order anthropic_reads (fun _ => anthropic_enters)
    (hstar ▸ List.Sublist.refl _) hind (fun _ => htim) hchun
  rw [heard_anthropicWire, anthropic_comesThrough_iff] at hdisp
  rw [hrun, anthropic_complete, heard_anthropicWire, anthropic_text, anthropic_stop,
    stopReasonOf_eq]
  simp only [Except.map]
  rw [agree_ok_iff, outcome_eq, textOf_blocks, toolCalls_blocks, hmeant]
  refine (Eq.congr_left (action_eq reader.fromStr order _)).trans ?_
  unfold AnthropicAlike
  rw [← hdisp, ← completeStopReason_toolUse_iff]
  dsimp only
  by_cases htool : completeStopReason m.stopReason = .toolUse
  · rw [htool, outcomeOf_eq_dispatch_iff]
    simp
  · refine ⟨fun _ h => absurd h htool, fun _ => ?_⟩
    cases hstop : completeStopReason m.stopReason with
    | toolUse => exact absurd hstop htool
    | _ => rfl

end Anthropic

/-! ## Both providers -/

/-- A message of a provider, cut into events. -/
inductive ProviderStream (reader : JsonReader) where
  | openAi (m : OpenAi.Message) (s : OpenAi.Stream reader m)
  | anthropic (m : Anthropic.Message) (s : Anthropic.Stream reader m)

namespace ProviderStream

variable {reader : JsonReader}

def provider : ProviderStream reader → Provider
  | .openAi .. => .openAi
  | .anthropic .. => .anthropic

/-- The whole message. -/
def message : ProviderStream reader → Json
  | .openAi m _ => m.toJson
  | .anthropic m _ => m.toJson

/-- The server-sent events. -/
def sse : ProviderStream reader → List SseEvent
  | .openAi _ s => s.events.map fun e => ⟨none, e.data⟩
  | .anthropic _ s => s.events.map fun e => ⟨some e.event.name, e.data⟩

/-- The chunks that the client yields. -/
def chunks (s : ProviderStream reader) : List (Except AdapterError StreamChunk) :=
  DirectHttpLlmClient.streamChunks reader.fromStr s.provider ∅ s.sse

def ReadAlike (s : ProviderStream reader) (order : HashOrder) : Prop :=
  match s with
  | .openAi _ s => OpenAiAlike s order
  | .anthropic _ s => AnthropicAlike s order

end ProviderStream

open ProviderStream

theorem streamed_eq_complete_iff (reader : JsonReader) (s : ProviderStream reader)
    (order : HashOrder) (hasBus : Bool) (feed : TurnFeed s.chunks) :
    Agree ((runTurnStreaming reader.fromStr order hasBus feed.inputs).map fun r => r.2.outcome)
        ((DirectHttpLlmClient.complete reader.fromStr s.provider s.message).map
          LlmCompleteResponse.outcome) ↔
      s.ReadAlike order := by
  cases s with
  | openAi m s =>
    have hsse : (openAiWire s).map WireEvent.sse = (openAi m s).sse := by
      rw [openAiWire, map_map]
      rfl
    exact openAi_agree_iff order hasBus ⟨feed.inputs, hsse ▸ feed.chunks, feed.uncancelled⟩
  | anthropic m s =>
    have hsse : (anthropicWire s).map WireEvent.sse = (anthropic m s).sse := by
      rw [anthropicWire, map_map]
      rfl
    exact anthropic_agree_iff order hasBus ⟨feed.inputs, hsse ▸ feed.chunks, feed.uncancelled⟩

/-! ## A call that is read alike -/

def pathText : String := "\x7b\"path\":\"/a\"\x7d"

/-- A hash map that is iterated in the order of insertion. -/
def insertionOrder : HashOrder := ⟨id, fun _ => .refl _⟩

def blockStartText : String :=
  "\x7b\"type\":\"content_block_start\",\"index\":0,\"content_block\":\x7b\"type\":\"tool_use\"," ++
  "\"id\":\"call_1\",\"name\":\"fs__read\",\"input\":\x7b\x7d\x7d\x7d"

def inputText : String :=
  "\x7b\"type\":\"content_block_delta\",\"index\":0,\"delta\":\x7b\"type\":" ++
  "\"input_json_delta\",\"partial_json\":\"\x7b\\\"path\\\":\\\"/a\\\"\x7d\"\x7d\x7d"

def stopText : String :=
  "\x7b\"type\":\"message_delta\",\"delta\":\x7b\"stop_reason\":\"tool_use\"\x7d\x7d"

def anthropicReader : JsonReader where
  fromStr text :=
    if text = pathText then some (.object [("path", .string "/a")])
    else if text = blockStartText then
      some (Anthropic.Event.toolStart 0 "call_1" "fs__read" (.object [])).toJson
    else if text = inputText then some (Anthropic.Event.inputDelta 0 pathText).toJson
    else if text = stopText then some (Anthropic.Event.messageDelta "tool_use").toJson
    else none
  fromStr_empty := rfl

/-- One call, with its input in a fragment. -/
def blockStream : Anthropic.Stream anthropicReader
    ⟨[.toolUse "call_1" "fs__read" (.object [("path", .string "/a")])], "tool_use"⟩ where
  events := [⟨.toolStart 0 "call_1" "fs__read" (.object []), blockStartText, rfl⟩,
    ⟨.inputDelta 0 pathText, inputText, rfl⟩, ⟨.messageDelta "tool_use", stopText, rfl⟩]
  calls := [⟨0, "call_1", "fs__read", .object [("path", .string "/a")], .object []⟩]
  text := rfl
  calls_eq := rfl
  indices := by decide
  starts := rfl
  inTime := by
    intro pre index json post h
    rcases pre with _ | ⟨_, _ | ⟨_, _ | ⟨_, pre⟩⟩⟩
    · cases h
    · cases h
      exact List.mem_singleton_self _
    · cases h
    · simp at h
  args := by
    intro c hc
    obtain rfl := List.mem_singleton.mp hc
    rfl
  stop := rfl

theorem streamed_eq_complete_call :
    (ProviderStream.anthropic _ blockStream).ReadAlike insertionOrder ∧
    ∀ feed : TurnFeed (ProviderStream.anthropic _ blockStream).chunks,
      Agree ((runTurnStreaming anthropicReader.fromStr insertionOrder true feed.inputs).map
          fun r => r.2.outcome)
        ((DirectHttpLlmClient.complete anthropicReader.fromStr .anthropic
          (ProviderStream.anthropic _ blockStream).message).map LlmCompleteResponse.outcome) := by
  have halike : (ProviderStream.anthropic _ blockStream).ReadAlike insertionOrder := by
    refine fun _ => ⟨by decide, rfl, fun c hc hnone => ?_⟩
    obtain rfl := List.mem_singleton.mp hc
    exact absurd hnone (by decide)
  exact ⟨halike, fun feed => (streamed_eq_complete_iff anthropicReader _ insertionOrder true
    feed).mpr halike⟩

/-! ## Two streams that are not read alike -/

/-- An event with one choice, from the texts of its members. -/
def choiceText (content calls reason : String) : String :=
  "\x7b\"choices\":[\x7b\"delta\":\x7b\"content\":" ++ content ++ ",\"tool_calls\":[" ++ calls ++
  "]\x7d,\"finish_reason\":" ++ reason ++ "\x7d]\x7d"

/-- An event with a start that carries its arguments. -/
def startDelta : OpenAi.Delta where
  toolCalls := [.start 0 "call_1" "fs__read" (some pathText)]

def startText : String := choiceText "null"
  ("\x7b\"index\":0,\"id\":\"call_1\",\"type\":\"function\",\"function\":" ++
  "\x7b\"name\":\"fs__read\",\"arguments\":\"\x7b\\\"path\\\":\\\"/a\\\"\x7d\"\x7d\x7d") "null"

def textDelta : OpenAi.Delta where
  content := some "Once upon"

def textText : String := choiceText "\"Once upon\"" "" "null"

def finishDelta (reason : String) : OpenAi.Delta where
  finishReason := some reason

def toolCallsText : String := choiceText "null" "" "\"tool_calls\""

def lengthText : String := choiceText "null" "" "\"length\""

/-- As much of `serde_json::from_str` as is needed here. -/
def sampleReader : JsonReader where
  fromStr text :=
    if text = pathText then some (.object [("path", .string "/a")])
    else if text = startText then some startDelta.toJson
    else if text = textText then some textDelta.toJson
    else if text = toolCallsText then some (finishDelta "tool_calls").toJson
    else if text = lengthText then some (finishDelta "length").toJson
    else none
  fromStr_empty := rfl

theorem reads_startText : sampleReader.fromStr startText = some startDelta.toJson := by
  have hne : startText ≠ pathText := by decide +kernel
  simp [sampleReader, if_neg hne]

/-- One call, with its arguments in the start. -/
def callStream : OpenAi.Stream sampleReader
    ⟨none, [⟨"call_1", "fs__read", pathText⟩], "tool_calls"⟩ where
  events := [⟨.delta startDelta, startText, reads_startText⟩,
    ⟨.delta (finishDelta "tool_calls"), toolCallsText, rfl⟩]
  calls := [(0, ⟨"call_1", "fs__read", pathText⟩)]
  init := [startDelta]
  last := finishDelta "tool_calls"
  deltas := rfl
  text := rfl
  calls_eq := rfl
  indices := by decide
  starts := rfl
  inTime := by
    intro pre index args post h
    have hlength := congrArg List.length h
    have hpre : pre = [] := by
      cases pre with
      | nil => rfl
      | cons d pre => simp [startDelta, finishDelta] at hlength
    rw [hpre] at h
    cases h
  args := by
    intro c hc
    obtain rfl := List.mem_singleton.mp hc
    rfl
  unfinished := by
    intro d hd
    obtain rfl := List.mem_singleton.mp hd
    rfl
  finished := rfl

/-- A text that was cut off at the limit. -/
def cutStream : OpenAi.Stream sampleReader ⟨some "Once upon", [], "length"⟩ where
  events := [⟨.delta textDelta, textText, rfl⟩, ⟨.delta (finishDelta "length"), lengthText, rfl⟩]
  calls := []
  init := [textDelta]
  last := finishDelta "length"
  deltas := rfl
  text := rfl
  calls_eq := rfl
  indices := List.nodup_nil
  starts := rfl
  inTime := by
    intro pre index args post h
    exact absurd h.symm (by simp [textDelta, finishDelta])
  args := nofun
  unfinished := by
    intro d hd
    obtain rfl := List.mem_singleton.mp hd
    rfl
  finished := rfl

/-- Where no fragment is heard, the client passes on what the adapter returns. -/
theorem streamChunks_eq_raw {reader : JsonReader} {m : OpenAi.Message}
    {s : OpenAi.Stream reader m} (hs : List Heard)
    (hheard : (openAiWire s).filterMap WireEvent.heard = hs)
    (hraw : ∀ h ∈ hs, ∀ map, h.chunk map = h.raw) :
    (ProviderStream.openAi m s).chunks = hs.map fun h => .ok h.raw := by
  have hsse : (openAiWire s).map WireEvent.sse = (openAi m s).sse := by
    rw [openAiWire, map_map]
    rfl
  obtain ⟨chunks, hchun, hall⟩ := streamChunks_of_reads (openAi_reads) ∅
  rw [hheard] at hall
  have heq : chunks = hs.map Heard.raw := by
    clear hheard hchun
    induction hall with
    | nil => rfl
    | cons hc _ ih =>
      obtain ⟨map, rfl⟩ := hc
      have hrest := ih fun h hh => hraw h (mem_cons_of_mem _ hh)
      rw [map_cons, hraw _ mem_cons_self, hrest]
  rw [ProviderStream.chunks, ← hsse]
  refine hchun.trans ?_
  rw [heq, map_map]
  rfl

/-- A turn without timer ticks. -/
def plainFeed (chunks : List StreamChunk) : TurnFeed (chunks.map .ok) where
  inputs := chunks.map fun c => .chunk (.ok c)
  chunks := by
    rw [List.filterMap_map]
    exact congrFun List.filterMap_eq_map chunks
  uncancelled := by simp

/-- What a whole message leads to. -/
theorem outcome_complete (m : OpenAi.Message) :
    ((complete fromStr .openAi m.toJson).map LlmCompleteResponse.outcome) =
      .ok (outcomeOf (m.content.getD "")
        (m.calls.map fun c => ⟨c.id, unmangledName (unmangledName c.name),
          (fromStr c.args).getD (.object [])⟩)
        (if m.calls = [] then completeStopReason m.finishReason else .toolUse)) := by
  rw [openAi_complete]
  simp only [Except.map]
  rw [outcome_eq, textOf_contentBlocks, toolCalls_contentBlocks, map_map]
  rfl

/-- The arguments in a start are dropped: the tool is called with an empty object. And a text that
    was cut off is a result as a whole message and a full context as a stream. -/
theorem start_arguments_dropped_and_length_differs :
    (∃ feed : TurnFeed (ProviderStream.openAi _ callStream).chunks,
      ((runTurnStreaming sampleReader.fromStr insertionOrder true feed.inputs).map
          fun r => r.2.outcome) =
        .ok (.dispatchTools [⟨"call_1", "fs/read", .object []⟩], "") ∧
      ((DirectHttpLlmClient.complete sampleReader.fromStr .openAi
          (ProviderStream.openAi _ callStream).message).map LlmCompleteResponse.outcome) =
        .ok (.dispatchTools [⟨"call_1", "fs/read", .object [("path", .string "/a")]⟩], "")) ∧
    (∃ feed : TurnFeed (ProviderStream.openAi _ cutStream).chunks,
      ((runTurnStreaming sampleReader.fromStr insertionOrder true feed.inputs).map
          fun r => r.2.outcome) = .ok (.summariseContext, "Once upon") ∧
      ((DirectHttpLlmClient.complete sampleReader.fromStr .openAi
          (ProviderStream.openAi _ cutStream).message).map LlmCompleteResponse.outcome) =
        .ok (.returnResult "Once upon", "Once upon")) := by
  constructor
  · have hchun : (openAi _ callStream).chunks =
        [StreamChunk.toolCallStart "call_1" "fs/read", .done .toolUse].map .ok :=
      streamChunks_eq_raw [.start 0 "call_1" "fs/read", .done .toolUse]
        (by decide +kernel) (by simp [Heard.chunk])
    have hrun := outcome_runTurnStreaming sampleReader.fromStr insertionOrder true
      (plainFeed [.toolCallStart "call_1" "fs/read", .done .toolUse])
    have hname : unmangledName "fs/read" = "fs/read" := by decide +kernel
    have hmang : unmangledName "fs__read" = "fs/read" := by decide +kernel
    have hpath : sampleReader.fromStr pathText = some (.object [("path", .string "/a")]) := by
      simp [sampleReader]
    refine ⟨⟨_, (plainFeed _).chunks.trans hchun.symm, (plainFeed _).uncancelled⟩,
      hrun.trans ?_, (outcome_complete _ _).trans ?_⟩
    · show Except.ok (TurnAction.dispatchTools [⟨"call_1", unmangledName "fs/read",
        (sampleReader.fromStr "").getD (.object [])⟩], "") = _
      rw [hname, sampleReader.fromStr_empty, Option.getD_none]
    · show Except.ok (TurnAction.dispatchTools [⟨"call_1", unmangledName (unmangledName "fs__read"),
        (sampleReader.fromStr pathText).getD (.object [])⟩], "") = _
      rw [hmang, hname, hpath, Option.getD_some]
  · have hchun : (openAi _ cutStream).chunks =
        [StreamChunk.textDelta "Once upon", .done .maxTokens].map .ok :=
      streamChunks_eq_raw [.text "Once upon", .done .maxTokens]
        (by decide +kernel) (by simp [Heard.chunk])
    have hrun := outcome_runTurnStreaming sampleReader.fromStr insertionOrder true
      (plainFeed [.textDelta "Once upon", .done .maxTokens])
    exact ⟨⟨_, (plainFeed _).chunks.trans hchun.symm, (plainFeed _).uncancelled⟩, hrun,
      outcome_complete _ _⟩

end Avix.Protocol
