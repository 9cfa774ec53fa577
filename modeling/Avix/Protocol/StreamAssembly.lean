/-
  PROTOCOL — a stream is published and assembled (`run_turn_streaming` in
  `executor/runtime_executor/dispatch_manager.rs`).

  `streaming_assembly_iff`: for every finite stream of chunks and all ticks of the flush
  timer between them, the turn returns. The published texts are the text of the response, their
  numbers are 0, 1, 2 and so on, exactly the last chunk is final, and the `tool_use` blocks are
  one for each start, in the order of the starts, each with its own arguments, if and only if

  * an event bus is attached,
  * no two starts have the same call id,
  * the hash map is iterated in the order of the starts, and
  * the fragments of a call that come before its start do not matter to the value of its
    arguments: they are dropped.

  Reason. The published texts and the buffer are always the text so far (`Streamed`). A second start
  with an id replaces the first, and the order of the map is arbitrary (`starts_lost_or_swapped`).
-/
import Avix.Executor.StreamedAnswer
import Avix.Protocol.TurnProtocol

namespace Avix.Protocol

open Lib TurnStream List StreamAnswer

/-! ## Statement -/

section Statement

variable (fromStr : String → Option Json)

/-- The input an argument text stands for. -/
def parsedInput (args : String) : Json := (fromStr args).getD (.object [])

def start? : StreamChunk → Option (String × String)
  | .toolCallStart callId name => some (callId, name)
  | _ => none

/-- The fragment of the arguments of a call that a chunk carries. -/
def fragmentFor (id : String) : StreamChunk → Option String
  | .toolCallArgsDelta callId args => if callId = id then some args else none
  | _ => none

/-- All argument fragments of a call. -/
def ownArgs (chunks : List StreamChunk) (id : String) : String :=
  String.join (chunks.filterMap (fragmentFor id))

def meantBlocks (chunks : List StreamChunk) : List Json :=
  (chunks.filterMap start?).map fun s =>
    toolUseBlock s.1 s.2 (parsedInput fromStr (ownArgs chunks s.1))

/-- How it should be with the published chunks and the response. -/
structure Assembled (chunks : List StreamChunk) (published : List OutputChunk)
    (resp : LlmCompleteResponse) : Prop where
  text : String.join (published.map OutputChunk.text) = textOf resp.content
  seqs : published.map OutputChunk.seq = List.range published.length
  final : ∃ before last, published = before ++ [last] ∧ last.isFinal = true ∧
    ∀ c ∈ before, c.isFinal = false
  calls : blocksOf "tool_use" resp.content = meantBlocks fromStr chunks

/-- Every start with the fragments that follow it. -/
def heardCalls : List StreamChunk → List PendingCall
  | [] => []
  | .toolCallStart callId name :: rest => ⟨callId, name, ownArgs rest callId⟩ :: heardCalls rest
  | _ :: rest => heardCalls rest

/-- The calls can be told apart and keep their order and arguments. -/
structure Separable (order : HashOrder) (chunks : List StreamChunk) : Prop where
  ids : (chunks.filterMap StreamChunk.startId?).Nodup
  order : order.iterate (heardCalls chunks) = heardCalls chunks
  args : ∀ c ∈ heardCalls chunks,
    parsedInput fromStr c.args = parsedInput fromStr (ownArgs chunks c.callId)

end Statement

/-! ## Published text -/

/-- The published texts and the buffer are the text so far, in numbered chunks. -/
structure Streamed (s : TurnStream) : Prop where
  text : String.join (s.published.map OutputChunk.text) ++ s.pendingText = s.accumulatedText
  seqs : s.published.map OutputChunk.seq = List.range s.published.length
  seq : s.seq = s.published.length
  unfinished : ∀ c ∈ s.published, c.isFinal = false

section Published

variable {s : TurnStream}

theorem streamed_flushPending (h : Streamed s) : Streamed (s.flushPending true) := by
  unfold flushPending
  by_cases hempty : s.pendingText = ""
  · rw [if_pos hempty]
    exact h
  rw [if_neg hempty, if_pos rfl]
  refine ⟨?_, ?_, ?_, ?_⟩
  · simp [← h.text, String.join_append]
  · simp [h.seqs, h.seq, range_succ]
  · simp [h.seq]
  · intro c hc
    rcases mem_append.mp hc with hold | hnew
    · exact h.unfinished c hold
    · rw [mem_singleton.mp hnew]

theorem streamed_onChunk (h : Streamed s) (c : StreamChunk) : Streamed (s.onChunk true c) := by
  cases c with
  | textDelta text =>
    have hheard : Streamed { s with accumulatedText := s.accumulatedText ++ text,
                                    pendingText := s.pendingText ++ text } :=
      ⟨by rw [← h.text, String.append_assoc], h.seqs, h.seq, h.unfinished⟩
    unfold onChunk
    dsimp only
    split_ifs
    · exact streamed_flushPending hheard
    · exact hheard
  | toolCallStart callId name =>
    have hflus := streamed_flushPending h
    exact ⟨hflus.text, hflus.seqs, hflus.seq, hflus.unfinished⟩
  | toolCallComplete callId => exact h
  | _ => exact ⟨h.text, h.seqs, h.seq, h.unfinished⟩

variable {inputs : List StreamInput} {s' : TurnStream}

theorem streamed_run (h : Streamed s) (hrun : run true s inputs = .ok s') : Streamed s' := by
  induction inputs generalizing s with
  | nil =>
    cases hrun
    exact h
  | cons input inputs ih =>
    match input with
    | .cancelled => cases hrun
    | .chunk (.error e) => cases hrun
    | .chunk (.ok c) => exact ih (streamed_onChunk h c) hrun
    | .tick => exact ih (streamed_flushPending h) hrun

/-- Without a bus nothing is published. -/
theorem published_flushPending_false : (s.flushPending false).published = s.published := by
  unfold flushPending
  by_cases hempty : s.pendingText = ""
  · rw [if_pos hempty]
  · rw [if_neg hempty, if_neg Bool.false_ne_true]

theorem published_run_false (hrun : run false s inputs = .ok s') : s'.published = s.published := by
  induction inputs generalizing s with
  | nil => rw [Except.ok.inj hrun]
  | cons input inputs ih =>
    match input with
    | .cancelled => cases hrun
    | .chunk (.error e) => cases hrun
    | .tick => exact (ih hrun).trans published_flushPending_false
    | .chunk (.ok c) =>
      refine (ih hrun).trans ?_
      cases c with
      | textDelta text =>
        unfold onChunk
        dsimp only
        split_ifs
        · exact published_flushPending_false
        · rfl
      | toolCallStart callId name => exact published_flushPending_false
      | _ => rfl

end Published

/-! ## Assembled calls -/

section Calls

variable {chunks : List StreamChunk}

theorem ids_heardCalls (chunks : List StreamChunk) :
    (heardCalls chunks).map PendingCall.callId = chunks.filterMap StreamChunk.startId? := by
  induction chunks with
  | nil => rfl
  | cons c chunks ih =>
    cases c with
    | toolCallStart callId name =>
      rw [heardCalls, map_cons, ih]
      rfl
    | _ => exact ih

theorem starts_heardCalls (chunks : List StreamChunk) :
    chunks.filterMap start? = (heardCalls chunks).map fun c => (c.callId, c.name) := by
  induction chunks with
  | nil => rfl
  | cons c chunks ih =>
    cases c with
    | toolCallStart callId name =>
      rw [heardCalls, map_cons, ← ih]
      rfl
    | _ => exact ih

theorem ownArgs_delta (callId args : String) (chunks : List StreamChunk) (id : String) :
    ownArgs (.toolCallArgsDelta callId args :: chunks) id =
      (if id = callId then args else "") ++ ownArgs chunks id := by
  unfold ownArgs
  by_cases hid : callId = id
  · simp [fragmentFor, hid, String.join_cons]
  · simp [fragmentFor, hid, Ne.symm hid]

/-- The pending calls, where all ids differ: those of before get their fragments, and every start
    adds one. -/
theorem calls_foldl_hear (a : StreamAnswer)
    (hids : (a.calls.map PendingCall.callId ++ chunks.filterMap StreamChunk.startId?).Nodup) :
    (chunks.foldl StreamAnswer.hear a).calls =
      (a.calls.map fun c => { c with args := c.args ++ ownArgs chunks c.callId }) ++
        heardCalls chunks := by
  induction chunks generalizing a with
  | nil => simp [ownArgs, heardCalls]
  | cons c chunks ih =>
    rw [foldl_cons]
    cases c with
    | toolCallStart callId name =>
      have hids' : (a.calls.map PendingCall.callId ++
          callId :: chunks.filterMap StreamChunk.startId?).Nodup := hids
      have hnew : ¬∃ c ∈ a.calls, c.callId = callId := by
        rintro ⟨c, hc, rfl⟩
        exact (nodup_append.mp hids').2.2 _ (mem_map_of_mem hc) _ mem_cons_self rfl
      have hcalls : (a.hear (.toolCallStart callId name)).calls =
          a.calls ++ [⟨callId, name, ""⟩] := if_neg hnew
      rw [ih, hcalls, heardCalls, map_append, append_assoc]
      · simp only [map_cons, map_nil, singleton_append, String.empty_append]
        rfl
      · rw [hcalls, map_append, append_assoc]
        exact hids'
    | toolCallArgsDelta callId args =>
      have hcalls : (a.hear (.toolCallArgsDelta callId args)).calls =
          appendArgs callId args a.calls := rfl
      have hheard : heardCalls (.toolCallArgsDelta callId args :: chunks) = heardCalls chunks := rfl
      rw [ih, hcalls, hheard, appendArgs, map_map]
      · congr 1
        refine map_congr_left fun c _ => ?_
        rw [Function.comp_apply, ownArgs_delta]
        split_ifs with hid
        · rw [hid, String.append_assoc]
        · rw [String.empty_append]
      · rw [hcalls, callIds_appendArgs]
        exact hids
    | _ => exact ih _ hids

/-- The pending calls of a stream whose ids differ. -/
theorem calls_eq_heardCalls (hids : (chunks.filterMap StreamChunk.startId?).Nodup) :
    (chunks.foldl StreamAnswer.hear {}).calls = heardCalls chunks :=
  calls_foldl_hear {} hids

theorem toolUseBlock_inj {id id' name name' : String} {input input' : Json}
    (h : toolUseBlock id name input = toolUseBlock id' name' input') :
    id = id' ∧ name = name' ∧ input = input' := by
  obtain ⟨hid, hname, hinput⟩ := index_toolUseBlock_call id name input
  obtain ⟨hid', hname', hinput'⟩ := index_toolUseBlock_call id' name' input'
  rw [h] at hid hname hinput
  exact ⟨Json.string.inj (hid.symm.trans hid'), Json.string.inj (hname.symm.trans hname'),
    hinput.symm.trans hinput'⟩

variable (fromStr : String → Option Json)

def blockOf (c : PendingCall) : Json := toolUseBlock c.callId c.name (parsedInput fromStr c.args)

theorem id_blockOf (c : PendingCall) :
    (((blockOf fromStr c).index "id").asStr).getD "" = c.callId := by
  rw [blockOf, (index_toolUseBlock_call _ _ _).1]
  rfl

theorem meantBlocks_eq : meantBlocks fromStr chunks = (heardCalls chunks).map fun c =>
    blockOf fromStr { c with args := ownArgs chunks c.callId } := by
  rw [meantBlocks, starts_heardCalls, map_map]
  rfl

theorem blocks_eq_iff (order : HashOrder) (chunks : List StreamChunk) :
    (order.iterate (chunks.foldl StreamAnswer.hear {}).calls).map (blockOf fromStr) =
        meantBlocks fromStr chunks ↔ Separable fromStr order chunks := by
  rw [meantBlocks_eq]
  constructor
  · intro h
    obtain ⟨hnodup, -⟩ := mem_calls_hear chunks
    have hperm := order.perm (chunks.foldl hear {}).calls
    have hsame : (order.iterate (chunks.foldl hear {}).calls).map
        PendingCall.callId = chunks.filterMap StreamChunk.startId? := by
      have hread := congrArg (map fun b => ((b.index "id").asStr).getD "") h
      simp only [map_map, Function.comp_def, id_blockOf] at hread
      exact hread.trans (ids_heardCalls chunks)
    have hids : (chunks.filterMap StreamChunk.startId?).Nodup := by
      rw [← hsame]
      exact (hperm.map _).nodup_iff.mpr hnodup
    rw [calls_eq_heardCalls hids] at h hsame hperm
    have horder : order.iterate (heardCalls chunks) = heardCalls chunks :=
      eq_of_perm_of_map_eq hperm (hsame.trans (ids_heardCalls chunks).symm)
        (ids_heardCalls chunks ▸ hids)
    rw [horder] at h
    exact ⟨hids, horder, fun c hc => (toolUseBlock_inj (map_inj_left.mp h c hc)).2.2⟩
  · intro h
    rw [calls_eq_heardCalls h.ids, h.order]
    refine map_congr_left fun c hc => ?_
    unfold blockOf
    rw [h.args c hc]

end Calls

/-! ## The turn -/

section Turn

variable {fromStr : String → Option Json} {order : HashOrder} {s : TurnStream}

theorem blocksOf_content : blocksOf "tool_use" (s.content fromStr order) =
    (order.iterate s.pendingCalls).map (blockOf fromStr) := by
  rw [blocksOf, content_eq, toolUse_contentBlocks, map_map]
  rfl

theorem textOf_content : textOf (s.content fromStr order) = s.accumulatedText := by
  rw [content_eq, textOf_contentBlocks]

/-- What is published when the stream has ended. -/
theorem finish_of_streamed (h : Streamed s) :
    String.join ((s.finish true).map OutputChunk.text) = s.accumulatedText ∧
      (s.finish true).map OutputChunk.seq = List.range (s.finish true).length ∧
      ∃ before last, s.finish true = before ++ [last] ∧ last.isFinal = true ∧
        ∀ c ∈ before, c.isFinal = false := by
  have hflus := streamed_flushPending h
  have hempty : (s.flushPending true).pendingText = "" := by
    unfold flushPending
    by_cases hpend : s.pendingText = ""
    · rw [if_pos hpend, hpend]
    · rw [if_neg hpend, if_pos rfl]
  have htext : (s.flushPending true).accumulatedText = s.accumulatedText :=
    congrArg text (answer_flushPending true s)
  have hfin : s.finish true =
      (s.flushPending true).published ++ [⟨"", (s.flushPending true).seq, true⟩] := rfl
  refine ⟨?_, ?_, _, _, hfin, rfl, hflus.unfinished⟩
  · rw [← htext, ← hflus.text, hempty, hfin]
    simp [String.join_append]
  · rw [hfin]
    simp [hflus.seqs, hflus.seq, range_succ]

end Turn

theorem streaming_assembly_iff (fromStr : String → Option Json) (order : HashOrder)
    (hasBus : Bool) (chunks : List StreamChunk) (feed : TurnFeed (chunks.map .ok)) :
    ∃ published resp, runTurnStreaming fromStr order hasBus feed.inputs = .ok (published, resp) ∧
      (Assembled fromStr chunks published resp ↔
        hasBus = true ∧ Separable fromStr order chunks) := by
  obtain ⟨s, hrun, hansw⟩ := TurnStream.answer_run hasBus feed.chunks feed.uncancelled {}
  have hcalls : s.pendingCalls = (chunks.foldl hear {}).calls :=
    congrArg calls hansw
  refine ⟨s.finish hasBus, ⟨s.content fromStr order, s.stopReason⟩, ?_, ?_⟩
  · rw [runTurnStreaming, hrun]
    rfl
  rw [← blocks_eq_iff, ← hcalls, ← blocksOf_content]
  cases hasBus with
  | false =>
    refine iff_of_false (fun h => ?_) fun h => Bool.false_ne_true h.1
    obtain ⟨before, last, hpubl, -⟩ := h.final
    have hnone : s.finish false = [] :=
      published_flushPending_false.trans (published_run_false hrun)
    rw [hnone] at hpubl
    exact absurd hpubl.symm (by simp)
  | true =>
    have hstr : Streamed s :=
      streamed_run ⟨rfl, rfl, rfl, fun c hc => absurd hc not_mem_nil⟩ hrun
    obtain ⟨htext, hseqs, hfinal⟩ := finish_of_streamed hstr
    constructor
    · exact fun h => ⟨rfl, h.calls⟩
    · exact fun h => ⟨by rw [htext, textOf_content], hseqs, hfinal, h.2⟩

/-! ## Two calls -/

/-- Two starts and the end. -/
def twoStarts (id id' : String) : List StreamChunk :=
  [.toolCallStart id "fs/read", .toolCallStart id' "fs/write", .done .toolUse]

def twoStartsFeed (id id' : String) : TurnFeed ((twoStarts id id').map .ok) where
  inputs := ((twoStarts id id').map .ok).map .chunk
  chunks := rfl
  uncancelled := by simp

/-- A hash map can be iterated against the order of the insertions. -/
def reverseOrder : HashOrder := ⟨List.reverse, List.reverse_perm⟩

/-- One block comes back for two starts with one id, and for two ids the blocks can come back in
    the other order. -/
theorem starts_lost_or_swapped : (∃ published resp,
      runTurnStreaming (fun _ => none) reverseOrder true (twoStartsFeed "c" "c").inputs =
          .ok (published, resp) ∧
        blocksOf "tool_use" resp.content = [toolUseBlock "c" "fs/write" (.object [])]) ∧
    ∃ published resp,
      runTurnStreaming (fun _ => none) reverseOrder true (twoStartsFeed "c" "d").inputs =
          .ok (published, resp) ∧
        blocksOf "tool_use" resp.content =
          [toolUseBlock "d" "fs/write" (.object []), toolUseBlock "c" "fs/read" (.object [])] :=
  ⟨⟨_, _, rfl, rfl⟩, _, _, rfl, rfl⟩

end Avix.Protocol
