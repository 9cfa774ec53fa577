/-
  What a streamed turn makes of the chunks it hears.

  The answer of a turn (`StreamAnswer`) is the text, the pending calls and the stop reason; the
  flush timer does not touch it (`answer_run`). The chunks of a stream come from what is heard on
  the wire (`Heard`): texts, starts of tool calls and fragments of their arguments by index, and
  the end.

  * `mem_calls_hear`: the pending calls are those that were started, each once.
  * `calls_listen`: where all ids and indices differ and fragments follow their starts, every call
    has exactly its own fragments.
-/
import Avix.Executor.Streaming
import Avix.Llm.HttpClient

namespace Avix

open Lib DirectHttpLlmClient StreamChunk List

/-! ## The answer -/

/-- The part of a turn's state that its response is made of. -/
structure StreamAnswer where
  text : String := ""
  calls : List PendingCall := []
  stop : StopReason := .endTurn

namespace StreamAnswer

def hear (a : StreamAnswer) : StreamChunk → StreamAnswer
  | .textDelta text => { a with text := a.text ++ text }
  | .toolCallStart callId name => { a with calls := insertCall ⟨callId, name, ""⟩ a.calls }
  | .toolCallArgsDelta callId args => { a with calls := appendArgs callId args a.calls }
  | .toolCallComplete _ => a
  | .done stop => { a with stop := stop }

/-- The call that is dispatched for a pending one. -/
def callOf (fromStr : String → Option Json) (c : PendingCall) : AvixToolCall :=
  ⟨c.callId, unmangledName c.name, (fromStr c.args).getD (.object [])⟩

/-- What `interpret_stop_reason` makes of the answer. -/
def action (fromStr : String → Option Json) (order : HashOrder) (a : StreamAnswer) : TurnAction :=
  match a.stop with
  | .endTurn => .returnResult a.text
  | .stopSequence => .returnResult a.text
  | .toolUse => .dispatchTools ((order.iterate a.calls).map (callOf fromStr))
  | .maxTokens => .summariseContext

end StreamAnswer

open StreamAnswer

namespace TurnStream

def answer (s : TurnStream) : StreamAnswer := ⟨s.accumulatedText, s.pendingCalls, s.stopReason⟩

theorem answer_flushPending (hasBus : Bool) (s : TurnStream) :
    (s.flushPending hasBus).answer = s.answer := by
  unfold flushPending
  split_ifs <;> rfl

theorem answer_onChunk (hasBus : Bool) (s : TurnStream) (c : StreamChunk) :
    (s.onChunk hasBus c).answer = s.answer.hear c := by
  cases c with
  | textDelta text =>
    unfold onChunk
    dsimp only
    split_ifs
    · rw [answer_flushPending]
      rfl
    · rfl
  | toolCallStart callId name =>
    have h := answer_flushPending hasBus s
    simp only [answer, StreamAnswer.mk.injEq] at h
    simp [onChunk, answer, StreamAnswer.hear, h.1, h.2.1, h.2.2]
  | _ => rfl

end TurnStream

/-- The chunks among the inputs of a turn. -/
def StreamInput.item : StreamInput → Option (Except AdapterError StreamChunk)
  | .chunk result => some result
  | _ => none

/-- A turn is fed with the chunks of a stream, and ticks of the timer between them. -/
structure TurnFeed (items : List (Except AdapterError StreamChunk)) where
  inputs : List StreamInput
  chunks : inputs.filterMap StreamInput.item = items
  uncancelled : StreamInput.cancelled ∉ inputs

variable {chunks : List StreamChunk} {h : Heard}

theorem TurnStream.answer_run (hasBus : Bool) {inputs : List StreamInput}
    (h : inputs.filterMap StreamInput.item = chunks.map .ok)
    (hcanc : StreamInput.cancelled ∉ inputs) (s : TurnStream) :
    ∃ s', TurnStream.run hasBus s inputs = .ok s' ∧
      s'.answer = chunks.foldl StreamAnswer.hear s.answer := by
  induction inputs generalizing s chunks with
  | nil =>
    obtain rfl := map_eq_nil_iff.mp h.symm
    exact ⟨s, rfl, rfl⟩
  | cons i rest ih =>
    have hrest : StreamInput.cancelled ∉ rest := fun hmem => hcanc (mem_cons_of_mem _ hmem)
    cases i with
    | cancelled => exact absurd mem_cons_self hcanc
    | tick =>
      obtain ⟨s', hrun, hansw⟩ := ih h hrest (s.flushPending hasBus)
      rw [TurnStream.answer_flushPending] at hansw
      exact ⟨s', hrun, hansw⟩
    | chunk result =>
      cases chunks with
      | nil => cases h
      | cons c chunks =>
        obtain ⟨rfl, htail⟩ := cons_eq_cons.mp h
        obtain ⟨s', hrun, hansw⟩ := ih htail hrest (s.onChunk hasBus c)
        rw [TurnStream.answer_onChunk] at hansw
        exact ⟨s', hrun, hansw⟩

/-! ## Blocks -/

section Blocks

variable (text id name : String) (input : Json)

theorem index_textBlock : (textBlock text).index "text" = .string text ∧
    (textBlock text).index "type" = .string "text" := by
  rw [textBlock, Json.index_ofMembers, Json.index_ofMembers]
  exact ⟨rfl, rfl⟩

theorem index_toolUseBlock : (toolUseBlock id name input).index "text" = .null ∧
    (toolUseBlock id name input).index "type" = .string "tool_use" := by
  rw [toolUseBlock, Json.index_ofMembers, Json.index_ofMembers]
  exact ⟨rfl, rfl⟩

theorem index_toolUseBlock_call : (toolUseBlock id name input).index "id" = .string id ∧
    (toolUseBlock id name input).index "name" = .string name ∧
    (toolUseBlock id name input).index "input" = input := by
  refine ⟨?_, ?_, ?_⟩ <;> rw [toolUseBlock, Json.index_ofMembers] <;> rfl

theorem toolCallOf_toolUseBlock :
    toolCallOf (toolUseBlock id name input) = ⟨id, unmangledName name, input⟩ := by
  obtain ⟨hid, hname, hinput⟩ := index_toolUseBlock_call id name input
  unfold toolCallOf
  rw [hname, hid, hinput]
  rfl

end Blocks

/-- A text, unless it is empty, and then tool calls. -/
def contentBlocks (text : String) (calls : List (String × String × Json)) : List Json :=
  (if text = "" then [] else [textBlock text]) ++ calls.map fun c => toolUseBlock c.1 c.2.1 c.2.2

theorem TurnStream.content_eq (fromStr : String → Option Json) (order : HashOrder)
    (s : TurnStream) : s.content fromStr order = contentBlocks s.accumulatedText
      ((order.iterate s.pendingCalls).map fun c =>
        (c.callId, c.name, (fromStr c.args).getD (.object []))) := by
  rw [contentBlocks, map_map]
  rfl

theorem textOf_contentBlocks (text : String) (calls : List (String × String × Json)) :
    textOf (contentBlocks text calls) = text := by
  have hcalls : (calls.map fun c => toolUseBlock c.1 c.2.1 c.2.2).filterMap
      (fun b => (b.index "text").asStr) = [] := by
    rw [filterMap_map, filterMap_eq_nil_iff]
    intro c _
    simp [(index_toolUseBlock c.1 c.2.1 c.2.2).1, Json.asStr]
  unfold textOf contentBlocks
  rw [filterMap_append, hcalls, append_nil]
  split_ifs with h
  · rw [h]
    rfl
  · simp only [filterMap_cons, (index_textBlock text).1, Json.asStr, filterMap_nil]
    simp [String.join]

theorem toolUse_contentBlocks (text : String) (calls : List (String × String × Json)) :
    ((contentBlocks text calls).filter fun c => (c.index "type").asStr == some "tool_use") =
      calls.map fun c => toolUseBlock c.1 c.2.1 c.2.2 := by
  have htext : ((if text = "" then [] else [textBlock text]).filter fun c =>
      (c.index "type").asStr == some "tool_use") = [] := by
    split_ifs
    · rfl
    · simp [(index_textBlock text).2, Json.asStr]
  have hcalls : ∀ c ∈ calls.map fun c => toolUseBlock c.1 c.2.1 c.2.2,
      ((c.index "type").asStr == some "tool_use") = true := by
    intro b hb
    obtain ⟨c, -, rfl⟩ := mem_map.mp hb
    simp [(index_toolUseBlock c.1 c.2.1 c.2.2).2, Json.asStr]
  rw [contentBlocks, filter_append, htext, nil_append, filter_eq_self.mpr hcalls]

theorem toolCalls_contentBlocks (text : String) (calls : List (String × String × Json)) :
    ((contentBlocks text calls).filter fun c => (c.index "type").asStr == some "tool_use").map
      toolCallOf = calls.map fun c => ⟨c.1, unmangledName c.2.1, c.2.2⟩ := by
  rw [toolUse_contentBlocks, map_map]
  refine map_congr_left fun c _ => ?_
  rw [Function.comp_apply, toolCallOf_toolUseBlock]

/-- What a response leads to: the action and the text. -/
def LlmCompleteResponse.outcome (r : LlmCompleteResponse) : TurnAction × String :=
  (interpretStopReason r, textOf r.content)

theorem outcome_runTurnStreaming (fromStr : String → Option Json) (order : HashOrder)
    (hasBus : Bool) (feed : TurnFeed (chunks.map .ok)) :
    ((runTurnStreaming fromStr order hasBus feed.inputs).map fun r => r.2.outcome) =
      .ok ((chunks.foldl StreamAnswer.hear {}).action fromStr order,
        (chunks.foldl StreamAnswer.hear {}).text) := by
  obtain ⟨s, hrun, hansw⟩ := TurnStream.answer_run hasBus feed.chunks feed.uncancelled {}
  have hstart : ({} : TurnStream).answer = {} := rfl
  rw [hstart] at hansw
  rw [runTurnStreaming, hrun, ← hansw]
  simp only [Except.map, Except.ok.injEq]
  unfold LlmCompleteResponse.outcome interpretStopReason action
  rw [TurnStream.content_eq, textOf_contentBlocks, toolCalls_contentBlocks, map_map]
  rfl

/-! ## What is known of every stream -/

namespace StreamChunk

def text? : StreamChunk → Option String
  | .textDelta text => some text
  | _ => none

def startId? : StreamChunk → Option String
  | .toolCallStart callId _ => some callId
  | _ => none

def stop? : StreamChunk → Option StopReason
  | .done stop => some stop
  | _ => none

end StreamChunk

theorem callIds_insertCall (call : PendingCall) (calls : List PendingCall) :
    (insertCall call calls).map PendingCall.callId =
      if ∃ c ∈ calls, c.callId = call.callId then calls.map PendingCall.callId
      else calls.map PendingCall.callId ++ [call.callId] := by
  unfold insertCall
  split_ifs
  · rw [map_map]
    refine map_congr_left fun c _ => ?_
    rw [Function.comp_apply]
    split_ifs with h
    · exact h.symm
    · rfl
  · rw [map_append, map_singleton]

theorem callIds_appendArgs (callId args : String) (calls : List PendingCall) :
    (appendArgs callId args calls).map PendingCall.callId = calls.map PendingCall.callId := by
  rw [appendArgs, map_map]
  refine map_congr_left fun c _ => ?_
  rw [Function.comp_apply]
  split_ifs <;> rfl

namespace StreamAnswer

theorem text_foldl_hear (chunks : List StreamChunk) (a : StreamAnswer) :
    (chunks.foldl hear a).text = a.text ++ String.join (chunks.filterMap text?) := by
  induction chunks generalizing a with
  | nil => simp
  | cons c chunks ih =>
    rw [foldl_cons, ih]
    cases c with
    | textDelta text => simp [hear, text?, String.join_cons, String.append_assoc]
    | _ => rfl

theorem stop_foldl_hear (chunks : List StreamChunk) (a : StreamAnswer) :
    (chunks.foldl hear a).stop = ((chunks.filterMap stop?).getLast?).getD a.stop := by
  induction chunks using reverseRecOn with
  | nil => rfl
  | append_singleton chunks c ih =>
    rw [foldl_append, filterMap_append]
    cases c <;> simp [hear, stop?, ih]

theorem callIds_hear (a : StreamAnswer) (c : StreamChunk)
    (h : (a.calls.map PendingCall.callId).Nodup) :
    ((a.hear c).calls.map PendingCall.callId).Nodup ∧
      ∀ id, id ∈ (a.hear c).calls.map PendingCall.callId ↔
        id ∈ a.calls.map PendingCall.callId ∨ c.startId? = some id := by
  cases c with
  | toolCallStart callId name =>
    have hids := callIds_insertCall ⟨callId, name, ""⟩ a.calls
    have hiff : (∃ c ∈ a.calls, c.callId = callId) ↔
        callId ∈ a.calls.map PendingCall.callId := mem_map.symm
    simp only [hear, hids, hiff, startId?, Option.some.injEq]
    split_ifs with hmem
    · refine ⟨h, fun id => ⟨Or.inl, ?_⟩⟩
      rintro (hid | rfl)
      · exact hid
      · exact hmem
    · refine ⟨nodup_append.mpr ⟨h, nodup_singleton _, ?_⟩, fun id => ?_⟩
      · rintro id hid _ hid' rfl
        exact hmem (mem_singleton.mp hid' ▸ hid)
      · rw [mem_append, mem_singleton, eq_comm]
  | toolCallArgsDelta callId args =>
    simp only [hear, callIds_appendArgs, startId?, reduceCtorEq, or_false, implies_true, and_true]
    exact h
  | _ => exact ⟨h, fun id => (or_iff_left nofun).symm⟩

theorem mem_calls_hear (chunks : List StreamChunk) :
    ((chunks.foldl hear {}).calls.map PendingCall.callId).Nodup ∧
      ∀ id, id ∈ (chunks.foldl hear {}).calls.map PendingCall.callId ↔
        id ∈ chunks.filterMap startId? := by
  induction chunks using reverseRecOn with
  | nil => exact ⟨nodup_nil, fun _ => Iff.rfl⟩
  | append_singleton chunks c ih =>
    rw [foldl_append, filterMap_append, foldl_cons, foldl_nil]
    obtain ⟨hnodup, hmem⟩ := callIds_hear (chunks.foldl hear {}) c ih.1
    refine ⟨hnodup, fun id => ?_⟩
    rw [hmem, ih.2, mem_append, mem_filterMap]
    simp

end StreamAnswer

/-! ## What is heard on the wire -/

/-- What an event brings. -/
inductive Heard where
  | text (text : String)
  | start (index : UInt64) (id name : String)
  | fragment (index : UInt64) (args : String)
  | blockStop (index : UInt64)
  | done (stop : StopReason)
  deriving DecidableEq, Repr

namespace Heard

/-- The decimal index that the adapters use. -/
def keyOf (index : UInt64) : String := toString index.toNat

theorem keyOf_inj {i j : UInt64} (h : keyOf i = keyOf j) : i = j :=
  UInt64.toNat_inj.mp (Nat.repr_injective h)

/-- The chunk of the adapter. -/
def raw : Heard → StreamChunk
  | .text t => .textDelta t
  | .start _ id name => .toolCallStart id name
  | .fragment index args => .toolCallArgsDelta (keyOf index) args
  | .blockStop index => .toolCallComplete (keyOf index)
  | .done stop => .done stop

/-- The chunk of the client, which knows some ids by their index. -/
def chunk (m : HashMap String String) : Heard → StreamChunk
  | .fragment index args => .toolCallArgsDelta ((m.lookup (keyOf index)).getD (keyOf index)) args
  | h => h.raw

/-- What the client learns. -/
def enter (m : HashMap String String) : Heard → HashMap String String
  | .start index id _ => m.insert (keyOf index) id
  | _ => m

def text? : Heard → Option String
  | .text t => some t
  | _ => none

def stop? : Heard → Option StopReason
  | .done stop => some stop
  | _ => none

def start? : Heard → Option (UInt64 × String × String)
  | .start index id name => some (index, id, name)
  | _ => none

def fragment? (index : UInt64) : Heard → Option String
  | .fragment i args => if i = index then some args else none
  | _ => none

end Heard

/-- The starts among what is heard. -/
def startsOf (hs : List Heard) : List (UInt64 × String × String) := hs.filterMap Heard.start?

/-- The arguments that are heard for an index. -/
def fragmentsOf (hs : List Heard) (index : UInt64) : String :=
  String.join (hs.filterMap (Heard.fragment? index))

/-- Every fragment comes after the start of its call. -/
def Timely (hs : List Heard) : Prop :=
  ∀ pre index args post, hs = pre ++ .fragment index args :: post →
    index ∈ (startsOf pre).map Prod.fst

/-- The pending calls that should be there. -/
def callsOfHeard (hs : List Heard) : List PendingCall :=
  (startsOf hs).map fun s => ⟨s.2.1, s.2.2, fragmentsOf hs s.1⟩

/-- The client's map and the turn's answer after something is heard. -/
def listen (s : HashMap String String × StreamAnswer) (h : Heard) :
    HashMap String String × StreamAnswer :=
  (h.enter s.1, s.2.hear (h.chunk s.1))

theorem startsOf_append (hs hs' : List Heard) :
    startsOf (hs ++ hs') = startsOf hs ++ startsOf hs' := filterMap_append

theorem fragmentsOf_append (hs hs' : List Heard) (index : UInt64) :
    fragmentsOf (hs ++ hs') index = fragmentsOf hs index ++ fragmentsOf hs' index := by
  rw [fragmentsOf, filterMap_append, String.join_append]
  rfl

variable {s : HashMap String String × StreamAnswer} {hs : List Heard} {index : UInt64}

theorem Timely.of_append (ht : Timely (hs ++ [h])) : Timely hs :=
  fun pre index args post heq => ht pre index args (post ++ [h]) (by rw [heq]; simp)

/-- Before its start nothing is heard of a call. -/
theorem fragmentsOf_eq_empty (ht : Timely hs) (hnew : index ∉ (startsOf hs).map Prod.fst) :
    fragmentsOf hs index = "" := by
  have hnone : hs.filterMap (Heard.fragment? index) = [] := by
    rw [filterMap_eq_nil_iff]
    intro h hmem
    cases h with
    | fragment i args =>
      refine if_neg fun hi => hnew ?_
      obtain ⟨pre, post, heq⟩ := mem_iff_append.mp hmem
      have hpre := ht pre i args post heq
      rw [heq, startsOf_append, map_append]
      exact mem_append_left _ (hi ▸ hpre)
    | _ => rfl
  rw [fragmentsOf, hnone, String.join_nil]

/-- What the client and the turn know of the calls that were started. -/
structure KnowsCalls (hs : List Heard) (s : HashMap String String × StreamAnswer) : Prop where
  index : ∀ c ∈ startsOf hs, s.1.lookup (Heard.keyOf c.1) = some c.2.1
  calls : s.2.calls = callsOfHeard hs

/-- A step that starts nothing and appends nothing. -/
theorem KnowsCalls.quiet {s' : HashMap String String × StreamAnswer} (hk : KnowsCalls hs s)
    (hstart : h.start? = none) (hfrag : ∀ i, h.fragment? i = none) (hmap : s'.1 = s.1)
    (hcalls : s'.2.calls = s.2.calls) : KnowsCalls (hs ++ [h]) s' := by
  have hstar : startsOf (hs ++ [h]) = startsOf hs := by
    simp [startsOf, filterMap_append, hstart]
  have hfrags : fragmentsOf (hs ++ [h]) = fragmentsOf hs := by
    funext i
    simp [fragmentsOf, filterMap_append, hfrag]
  refine ⟨fun c hc => ?_, ?_⟩
  · rw [hmap]
    exact hk.index c (hstar ▸ hc)
  · rw [hcalls, hk.calls, callsOfHeard, callsOfHeard, hstar, hfrags]

/-- A start of a new call with a new index. -/
theorem KnowsCalls.started (hk : KnowsCalls hs s) (ht : Timely hs) {id name : String}
    (hindex : index ∉ (startsOf hs).map Prod.fst) (hid : id ∉ (startsOf hs).map (·.2.1)) :
    KnowsCalls (hs ++ [.start index id name]) (listen s (.start index id name)) := by
  have hstar : startsOf (hs ++ [.start index id name]) = startsOf hs ++ [(index, id, name)] :=
    startsOf_append _ _
  have hfrags : fragmentsOf (hs ++ [.start index id name]) = fragmentsOf hs := by
    funext i
    rw [fragmentsOf_append]
    exact String.append_empty
  refine ⟨fun c hc => ?_, ?_⟩
  · rw [hstar, mem_append, mem_singleton] at hc
    rcases hc with hold | rfl
    · have hne : Heard.keyOf c.1 ≠ Heard.keyOf index := fun heq =>
        hindex (Heard.keyOf_inj heq ▸ mem_map_of_mem hold)
      exact (AList.lookup_insert_ne hne).trans (hk.index c hold)
    · exact AList.lookup_insert _
  · have hnew : ¬∃ c ∈ s.2.calls, c.callId = id := by
      rintro ⟨c, hc, rfl⟩
      rw [hk.calls, callsOfHeard, mem_map] at hc
      obtain ⟨st, hst, rfl⟩ := hc
      exact hid (mem_map_of_mem hst)
    have hins : (listen s (.start index id name)).2.calls =
        s.2.calls ++ [⟨id, name, ""⟩] := if_neg hnew
    rw [hins, hk.calls, callsOfHeard, callsOfHeard, hstar, hfrags, map_append,
      map_singleton, fragmentsOf_eq_empty ht hindex]

theorem KnowsCalls.continued (hk : KnowsCalls hs s) {args : String}
    (hindex : index ∈ (startsOf hs).map Prod.fst) (hind : ((startsOf hs).map Prod.fst).Nodup)
    (hids : ((startsOf hs).map (·.2.1)).Nodup) :
    KnowsCalls (hs ++ [.fragment index args]) (listen s (.fragment index args)) := by
  have hstarts : startsOf (hs ++ [.fragment index args]) = startsOf hs := by
    rw [startsOf_append]
    exact append_nil _
  obtain ⟨started, hstar, rfl⟩ := mem_map.mp hindex
  refine ⟨fun c hc => hk.index c (hstarts ▸ hc), ?_⟩
  have hcalls : (listen s (.fragment started.1 args)).2.calls =
      appendArgs started.2.1 args s.2.calls := by
    simp [listen, Heard.chunk, hear, hk.index started hstar]
  rw [hcalls, hk.calls, callsOfHeard, callsOfHeard, hstarts, appendArgs, map_map]
  refine map_congr_left fun c hc => ?_
  -- index and id single out the same call
  have hsame : c.2.1 = started.2.1 ↔ started.1 = c.1 := by
    constructor
    · exact fun heq => congrArg Prod.fst (inj_on_of_nodup_map hids hstar hc heq.symm)
    · exact fun heq => congrArg (·.2.1) (inj_on_of_nodup_map hind hc hstar heq.symm)
  rw [Function.comp_apply, fragmentsOf_append]
  by_cases h : started.1 = c.1
  · rw [if_pos (hsame.mpr h)]
    simp [fragmentsOf, Heard.fragment?, h, String.join_cons]
  · rw [if_neg (fun heq => h (hsame.mp heq))]
    simp [fragmentsOf, Heard.fragment?, h]

theorem calls_listen (ht : Timely hs) (hind : ((startsOf hs).map Prod.fst).Nodup)
    (hids : ((startsOf hs).map (·.2.1)).Nodup) : KnowsCalls hs (hs.foldl listen (∅, {})) := by
  induction hs using reverseRecOn with
  | nil => exact ⟨nofun, rfl⟩
  | append_singleton hs h ih =>
    rw [foldl_append, foldl_cons, foldl_nil]
    rw [startsOf_append, map_append] at hind hids
    have hk := ih ht.of_append (nodup_append.mp hind).1 (nodup_append.mp hids).1
    cases h with
    | start index id name =>
      refine hk.started ht.of_append (fun hmem => ?_) fun hmem => ?_
      · exact (nodup_append.mp hind).2.2 _ hmem _ mem_cons_self rfl
      · exact (nodup_append.mp hids).2.2 _ hmem _ mem_cons_self rfl
    | fragment index args =>
      exact hk.continued (ht hs index args [] rfl) (nodup_append.mp hind).1
        (nodup_append.mp hids).1
    | _ => exact hk.quiet rfl (fun _ => rfl) rfl rfl

/-! ## The client -/

structure WireEvent where
  sse : SseEvent
  heard : Option Heard

section Client

variable (fromStr : String → Option Json) (provider : Provider)

/-- The adapter hears what the event says. -/
def WireEvent.Reads (w : WireEvent) : Prop :=
  provider.parseStreamEvent fromStr w.sse.name w.sse.data = .ok (w.heard.map Heard.raw)

/-- From a start, the client learns the index of that call only. -/
def WireEvent.Enters (w : WireEvent) : Prop :=
  ∀ m index id name, w.heard = some (.start index id name) →
    DirectHttpLlmClient.enterStart fromStr id w.sse.data m = m.insert (Heard.keyOf index) id

variable {fromStr provider} {ws : List WireEvent} {meant : List MeantCall} {hs : List Heard}
  {chunks : List StreamChunk} {β : Type}

/-- What does not look at the ids of fragments is the same in both. -/
theorem filterMap_of_forall₂ {f : StreamChunk → Option β} {g : Heard → Option β}
    (h : List.Forall₂ (fun c h => ∃ m, c = Heard.chunk m h) chunks hs)
    (hfg : ∀ m h, f (Heard.chunk m h) = g h) : chunks.filterMap f = hs.filterMap g := by
  induction h with
  | nil => rfl
  | @cons c heard chunks hs hc _ ih =>
    obtain ⟨m, rfl⟩ := hc
    rw [filterMap_cons, filterMap_cons, hfg, ih]

open WireEvent

/-- The client changes nothing but the ids of fragments. -/
theorem streamChunks_of_reads (h : ∀ w ∈ ws, w.Reads fromStr provider) (m : HashMap String String) :
    ∃ chunks : List StreamChunk, streamChunks fromStr provider m (ws.map sse) = chunks.map .ok ∧
      List.Forall₂ (fun c h => ∃ m, c = Heard.chunk m h) chunks (ws.filterMap heard) := by
  induction ws generalizing m with
  | nil => exact ⟨[], rfl, .nil⟩
  | cons w ws ih =>
    have hread : w.Reads fromStr provider := h w mem_cons_self
    have hws := fun w' hw' => h w' (mem_cons_of_mem w hw')
    rw [map_cons, streamChunks, hread]
    cases hheard : w.heard with
    | none =>
      obtain ⟨chunks, hchun, hall⟩ := ih hws m
      exact ⟨chunks, hchun, by rwa [filterMap_cons_none hheard]⟩
    | some heard =>
      obtain ⟨chunks, hchun, hall⟩ := ih hws (fixUp fromStr m w.sse.data heard.raw).1
      refine ⟨heard.chunk m :: chunks, ?_, ?_⟩
      · simp only [Option.map_some, hchun, map_cons]
        cases heard <;> rfl
      · rw [filterMap_cons_some hheard]
        exact .cons ⟨m, rfl⟩ hall

/-- A client that learns every index hears as `listen` does. -/
theorem streamChunks_of_enters (h : ∀ w ∈ ws, w.Reads fromStr provider)
    (hent : ∀ w ∈ ws, w.Enters fromStr) (s : HashMap String String × StreamAnswer) :
    ∃ chunks : List StreamChunk, streamChunks fromStr provider s.1 (ws.map sse) = chunks.map .ok ∧
      chunks.foldl StreamAnswer.hear s.2 = ((ws.filterMap heard).foldl listen s).2 := by
  induction ws generalizing s with
  | nil => exact ⟨[], rfl, rfl⟩
  | cons w ws ih =>
    have hread : w.Reads fromStr provider := h w mem_cons_self
    have hws := fun w' hw' => h w' (mem_cons_of_mem w hw')
    have hws' := fun w' hw' => hent w' (mem_cons_of_mem w hw')
    rw [map_cons, streamChunks, hread]
    cases hheard : w.heard with
    | none =>
      obtain ⟨chunks, hchun, hfold⟩ := ih hws hws' s
      exact ⟨chunks, hchun, by rw [hfold, filterMap_cons_none hheard]⟩
    | some heard =>
      have hmap : fixUp fromStr s.1 w.sse.data heard.raw = (heard.enter s.1, heard.chunk s.1) := by
        cases heard with
        | start index id name =>
          exact Prod.ext (hent w mem_cons_self s.1 index id name hheard) rfl
        | _ => rfl
      obtain ⟨chunks, hchun, hfold⟩ := ih hws hws' (listen s heard)
      refine ⟨heard.chunk s.1 :: chunks, ?_, ?_⟩
      · simp only [Option.map_some, hmap, map_cons]
        rw [← hchun]
        rfl
      · rw [filterMap_cons_some hheard, foldl_cons, foldl_cons, ← hfold]
        rfl

/-- A streamed turn: its text and its stop reason are those that are heard. -/
theorem outcome_streamed (order : HashOrder) (hasBus : Bool)
    (hreads : ∀ w ∈ ws, w.Reads fromStr provider)
    (feed : TurnFeed (streamChunks fromStr provider ∅ (ws.map sse))) :
    ∃ chunks : List StreamChunk, streamChunks fromStr provider ∅ (ws.map sse) = chunks.map .ok ∧
      ((runTurnStreaming fromStr order hasBus feed.inputs).map fun r => r.2.outcome) =
        .ok (StreamAnswer.action fromStr order
            ⟨String.join ((ws.filterMap heard).filterMap Heard.text?),
              (chunks.foldl StreamAnswer.hear {}).calls,
              (((ws.filterMap heard).filterMap Heard.stop?).getLast?).getD .endTurn⟩,
          String.join ((ws.filterMap heard).filterMap Heard.text?)) := by
  obtain ⟨chunks, hchun, hall⟩ := streamChunks_of_reads hreads ∅
  have hrun := outcome_runTurnStreaming fromStr order hasBus
    ⟨feed.inputs, feed.chunks.trans hchun, feed.uncancelled⟩
  have htexts := filterMap_of_forall₂ (f := text?) (g := Heard.text?) hall
    fun m h => by cases h <;> rfl
  have hstops := filterMap_of_forall₂ (f := stop?) (g := Heard.stop?) hall
    fun m h => by cases h <;> rfl
  have htext := text_foldl_hear chunks {}
  have hstop := stop_foldl_hear chunks {}
  rw [htexts, String.empty_append] at htext
  rw [hstops] at hstop
  refine ⟨chunks, hchun, hrun.trans ?_⟩
  rw [← htext, ← hstop]

/-! ## The calls that were meant -/

/-- A call of the message, with the index it has in the stream. -/
structure MeantCall where
  index : UInt64
  id : String
  name : String
  input : Json

namespace MeantCall

def start (c : MeantCall) : UInt64 × String × String := (c.index, c.id, c.name)

def call (c : MeantCall) : AvixToolCall := ⟨c.id, unmangledName c.name, c.input⟩

end MeantCall

/-- The calls come through: all starts are heard, the ids differ, the hash map keeps the order of
    the starts, and what is heard of the arguments has the value that was meant. -/
structure ComesThrough (fromStr : String → Option Json) (order : HashOrder) (hs : List Heard)
    (meant : List MeantCall) : Prop where
  starts : startsOf hs = meant.map MeantCall.start
  ids : (meant.map MeantCall.id).Nodup
  order : order.iterate (callsOfHeard hs) = callsOfHeard hs
  args : ∀ c ∈ meant, (fromStr (fragmentsOf hs c.index)).getD (.object []) = c.input

/-- A permutation that keeps the values of an injective function is none. -/
theorem eq_of_perm_of_map_eq {α : Type} {f : α → β} {l l' : List α} (hperm : l.Perm l')
    (hmap : l.map f = l'.map f) (hnodup : (l'.map f).Nodup) : l = l' := by
  refine ext_getElem hperm.length_eq fun i hi hi' => ?_
  refine inj_on_of_nodup_map hnodup (hperm.subset (getElem_mem hi))
    (getElem_mem hi') ?_
  have h := congrArg (fun m : List β => m[i]?) hmap
  simpa [getElem?_eq_getElem hi, getElem?_eq_getElem hi'] using h

theorem callsOfHeard_eq (h : startsOf hs = meant.map MeantCall.start) :
    callsOfHeard hs = meant.map fun c => ⟨c.id, c.name, fragmentsOf hs c.index⟩ := by
  rw [callsOfHeard, h, map_map]
  rfl

/-- If each call that was meant is pending, then all starts are heard. -/
theorem starts_of_pending (hsub : (startsOf hs).Sublist (meant.map MeantCall.start))
    (hids : (meant.map MeantCall.id).Nodup)
    (hall : ∀ id ∈ meant.map MeantCall.id, id ∈ (startsOf hs).map (·.2.1)) :
    startsOf hs = meant.map MeantCall.start := by
  have hmeant : (meant.map MeantCall.start).map (·.2.1) = meant.map MeantCall.id := by
    rw [map_map]
    rfl
  refine hsub.eq_of_length (le_antisymm hsub.length_le ?_)
  have hle := (subperm_of_subset hids hall).length_le
  rwa [length_map, length_map, ← length_map] at hle

/-- The calls that are dispatched are those that were meant, exactly if they come through. -/
theorem dispatched_iff (order : HashOrder) (hreads : ∀ w ∈ ws, w.Reads fromStr provider)
    (hent : (meant.map MeantCall.id).Nodup → ∀ w ∈ ws, w.Enters fromStr)
    (hsub : (startsOf (ws.filterMap heard)).Sublist (meant.map MeantCall.start))
    (hind : (meant.map MeantCall.index).Nodup)
    (htim : startsOf (ws.filterMap heard) = meant.map MeantCall.start → Timely (ws.filterMap heard))
    (hchun : streamChunks fromStr provider ∅ (ws.map sse) = chunks.map .ok) :
    (order.iterate (chunks.foldl StreamAnswer.hear {}).calls).map (StreamAnswer.callOf fromStr) =
        meant.map MeantCall.call ↔
      ComesThrough fromStr order (ws.filterMap heard) meant := by
  -- with all starts heard and ids that differ, the pending calls are known
  have hknown : startsOf (ws.filterMap heard) = meant.map MeantCall.start →
      (meant.map MeantCall.id).Nodup →
      (chunks.foldl hear {}).calls = callsOfHeard (ws.filterMap heard) := by
    intro hstar hids
    obtain ⟨chunks', hchun', hfold⟩ := streamChunks_of_enters hreads (hent hids) (∅, {})
    have hsame : chunks' = chunks :=
      map_injective_iff.mpr (fun _ _ => Except.ok.inj) (hchun'.symm.trans hchun)
    rw [← hsame, hfold]
    refine (calls_listen (htim hstar) ?_ ?_).calls
    · rw [hstar, map_map]
      exact hind
    · rw [hstar, map_map]
      exact hids
  constructor
  · intro heq
    have hcall : (order.iterate (chunks.foldl hear {}).calls).map
        PendingCall.callId = meant.map MeantCall.id := by
      have h := congrArg (map AvixToolCall.callId) heq
      rwa [map_map, map_map] at h
    have hperm := (order.perm (chunks.foldl hear {}).calls).map PendingCall.callId
    rw [hcall] at hperm
    obtain ⟨hnodup, hmem⟩ := mem_calls_hear chunks
    have hids : (meant.map MeantCall.id).Nodup := hperm.nodup_iff.mpr hnodup
    obtain ⟨chunks', hchun', hall⟩ := streamChunks_of_reads hreads ∅
    have hsame : chunks' = chunks :=
      map_injective_iff.mpr (fun _ _ => Except.ok.inj) (hchun'.symm.trans hchun)
    have hstart : chunks.filterMap startId? = (startsOf (ws.filterMap heard)).map (·.2.1) := by
      rw [startsOf, map_filterMap, ← hsame]
      exact filterMap_of_forall₂ hall fun m h => by cases h <;> rfl
    have hstar := starts_of_pending hsub hids fun id hid => by
      rw [← hstart]
      exact (hmem id).mp (hperm.subset hid)
    have hcalls := hknown hstar hids
    have heqs := callsOfHeard_eq hstar
    have hcall' : (callsOfHeard (ws.filterMap heard)).map PendingCall.callId =
        meant.map MeantCall.id := by
      rw [heqs, map_map]
      rfl
    rw [hcalls] at heq hcall
    have horder := eq_of_perm_of_map_eq (order.perm _) (hcall.trans hcall'.symm)
      (hcall' ▸ hids)
    refine ⟨hstar, hids, horder, ?_⟩
    rw [horder, heqs, map_map] at heq
    exact fun c hc => congrArg AvixToolCall.args (map_inj_left.mp heq c hc)
  · intro h
    rw [hknown h.starts h.ids, h.order, callsOfHeard_eq h.starts, map_map]
    refine map_congr_left fun c hc => ?_
    rw [Function.comp_apply, callOf, h.args c hc]
    rfl

end Client

end Avix
