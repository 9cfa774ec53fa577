/-
  Messages of the OpenAI and Anthropic providers, whole and cut into stream events.

  This is the other side of the adapters: what a provider means and how it may be sent. A
  member that is absent and one that is null are the same to the adapters, so both are written
  as null. `serde_json::from_str` is a parameter; an event may be written in any way that it
  reads.

  * A stream carries its laws as fields: its events give the message that was cut.
  * `heard` is what the adapter makes of an event (`openAi_reads`, `anthropic_reads`).
-/
import Avix.Executor.StreamedAnswer

namespace Avix

open Option hiding map_map

open Lib AnthropicAdapter DirectHttpLlmClient List

/-- `serde_json::from_str`; a text without any value is an error. -/
structure JsonReader where
  fromStr : String → Option Json
  fromStr_empty : fromStr "" = none

def Json.ofText : Option String → Json
  | some text => .string text
  | none => .null

open Json

@[simp]
theorem Json.asStr_ofText (text : Option String) : (Json.ofText text).asStr = text := by
  cases text <;> rfl

theorem Json.asU64_toNat (i : UInt64) : (Json.int i.toNat).asU64 = some i := by
  have h : (0 : Int) ≤ i.toNat ∧ (i.toNat : Int) < 2 ^ 64 := by
    have := i.toNat_lt
    omega
  rw [asU64, if_pos h, Int.toNat_natCast, UInt64.ofNat_toNat]

/-- An event and a text that it is sent as. -/
structure Sent (reader : JsonReader) {ε : Type} (toJson : ε → Json) where
  event : ε
  data : String
  reads : reader.fromStr data = some (toJson event)

/-- Where each part is a sublist and the whole is the same, the beginnings are the same. -/
theorem flatMap_eq_of_append {α β : Type} {f g : α → List β} (hsub : ∀ a, (f a).Sublist (g a))
    {pre post : List α} (h : (pre ++ post).flatMap f = (pre ++ post).flatMap g) :
    pre.flatMap f = pre.flatMap g := by
  have hall : ∀ l : List α, (l.flatMap f).Sublist (l.flatMap g) := by
    intro l
    induction l with
    | nil => exact .refl _
    | cons a l ih => exact (hsub a).append ih
  have hleng := congrArg length h
  rw [flatMap_append, flatMap_append, length_append, length_append] at hleng
  have hpre := (hall pre).length_le
  have hpost := (hall post).length_le
  exact (hall pre).eq_of_length (by omega)

/-! ## OpenAI -/

namespace OpenAi

/-- A call of a message. -/
structure ToolCall where
  id : String
  name : String
  args : String

/-- A whole message. -/
structure Message where
  content : Option String
  calls : List ToolCall
  finishReason : String

def ToolCall.function (c : ToolCall) : Json :=
  .ofMembers [("name", .string c.name), ("arguments", .string c.args)]

def ToolCall.toJson (c : ToolCall) : Json :=
  .ofMembers [("id", .string c.id), ("type", .string "function"), ("function", c.function)]

namespace Message

def body (m : Message) : Json :=
  .ofMembers [("role", .string "assistant"), ("content", .ofText m.content),
    ("tool_calls", .array (m.calls.map ToolCall.toJson))]

def choice (m : Message) : Json :=
  .ofMembers [("message", m.body), ("finish_reason", .string m.finishReason)]

def toJson (m : Message) : Json := .ofMembers [("choices", .array [m.choice])]

end Message

/-- An entry of `tool_calls` in a stream event: the first one of a call has its id and name. -/
inductive ToolDelta where
  | start (index : UInt64) (id name : String) (args : Option String)
  | more (index : UInt64) (args : Option String)

namespace ToolDelta

def index : ToolDelta → UInt64
  | .start index .. => index
  | .more index _ => index

def args : ToolDelta → Option String
  | .start _ _ _ args => args
  | .more _ args => args

def function : ToolDelta → Json
  | .start _ _ name args => .ofMembers [("name", .string name), ("arguments", .ofText args)]
  | .more _ args => .ofMembers [("arguments", .ofText args)]

def toJson (d : ToolDelta) : Json :=
  match d with
  | .start index id .. => .ofMembers [("index", .int index.toNat), ("id", .string id),
      ("type", .string "function"), ("function", d.function)]
  | .more index _ => .ofMembers [("index", .int index.toNat), ("function", d.function)]

/-- The call that starts. -/
def start? : ToolDelta → Option (UInt64 × String × String)
  | .start index id name _ => some (index, id, name)
  | .more .. => none

/-- The arguments for an index. -/
def argsFor (index : UInt64) (d : ToolDelta) : Option String :=
  if d.index = index then d.args else none

/-- What the adapter hears of several entries. -/
def heard : List ToolDelta → Option Heard
  | [] => none
  | .start index id name _ :: _ => some (.start index id (unmangledName name))
  | .more index args :: rest =>
    if args.getD "" = "" then heard rest else some (.fragment index (args.getD ""))

end ToolDelta

open ToolDelta

/-- The choice of a stream event. -/
structure Delta where
  content : Option String := none
  toolCalls : List ToolDelta := []
  finishReason : Option String := none

namespace Delta

def body (d : Delta) : Json :=
  .ofMembers [("content", .ofText d.content),
    ("tool_calls", .array (d.toolCalls.map ToolDelta.toJson))]

def choice (d : Delta) : Json :=
  .ofMembers [("delta", d.body), ("finish_reason", .ofText d.finishReason)]

def toJson (d : Delta) : Json := .ofMembers [("choices", .array [d.choice])]

/-- Nothing but the finish reason is heard of the event. -/
def Bare (d : Delta) : Prop := d.content.getD "" = "" ∧ ToolDelta.heard d.toolCalls = none

instance (d : Delta) : Decidable d.Bare := inferInstanceAs (Decidable (_ ∧ _))

def heard (d : Delta) : Option Heard :=
  if d.content.getD "" ≠ "" then some (.text (d.content.getD ""))
  else
    match ToolDelta.heard d.toolCalls with
    | some h => some h
    | none =>
      let reason := d.finishReason.getD ""
      if reason = "" ∨ reason = "null" then none
      else some (.done (OpenAiAdapter.stopReasonOf reason))

end Delta

/-- A stream event: a piece of the message, or the usage, which has no choice. -/
inductive Event where
  | delta (d : Delta)
  | usage

namespace Event

def toJson : Event → Json
  | .delta d => d.toJson
  | .usage => .ofMembers [("choices", .array [])]

def delta? : Event → Option Delta
  | .delta d => some d
  | .usage => none

def heard (e : Event) : Option Heard := e.delta?.bind Delta.heard

end Event

/-- A message that is cut into events. -/
structure Stream (reader : JsonReader) (m : Message) where
  events : List (Sent reader Event.toJson)
  /-- The calls with their indices. -/
  calls : List (UInt64 × ToolCall)
  init : List Delta
  last : Delta
  deltas : events.filterMap (·.event.delta?) = init ++ [last]
  text : String.join ((init ++ [last]).map (·.content.getD "")) = m.content.getD ""
  calls_eq : calls.map Prod.snd = m.calls
  indices : (calls.map Prod.fst).Nodup
  /-- The calls start in their order. -/
  starts : ((init ++ [last]).flatMap Delta.toolCalls).filterMap ToolDelta.start? =
    calls.map fun c => (c.1, c.2.id, c.2.name)
  /-- A call goes on after its start. -/
  inTime : ∀ pre index args post,
    (init ++ [last]).flatMap Delta.toolCalls = pre ++ .more index args :: post →
      index ∈ (pre.filterMap ToolDelta.start?).map Prod.fst
  args : ∀ c ∈ calls, String.join
    (((init ++ [last]).flatMap Delta.toolCalls).filterMap (ToolDelta.argsFor c.1)) = c.2.args
  unfinished : ∀ d ∈ init, d.finishReason = none
  finished : last.finishReason = some m.finishReason

/-! ### What the adapter hears -/

namespace ToolDelta

theorem index_toJson (d : ToolDelta) : (d.toJson.index "id").asStr = d.start?.map (·.2.1) ∧
    (d.toJson.index "index").asU64 = some d.index ∧
    d.toJson.index "function" = d.function := by
  cases d with
  | start index id name args | more index args =>
    refine ⟨?_, ?_, ?_⟩ <;> rw [toJson, index_ofMembers]
    · rfl
    · exact asU64_toNat index
    · rfl

theorem index_function_name (index : UInt64) (id name : String) (args : Option String) :
    ((ToolDelta.start index id name args).function.index "name").asStr = some name := by
  rw [function, index_ofMembers]
  rfl

theorem index_function_arguments (d : ToolDelta) :
    (d.function.index "arguments").asStr = d.args := by
  cases d <;> rw [function, index_ofMembers] <;> exact asStr_ofText _

end ToolDelta

/-- The adapter's loop over the entries. -/
theorem toolCallChunk_toJson (ds : List ToolDelta) :
    OpenAiAdapter.toolCallChunk (ds.map ToolDelta.toJson) = (ToolDelta.heard ds).map Heard.raw := by
  induction ds with
  | nil => rfl
  | cons d ds ih =>
    obtain ⟨hid, hindex, hfunc⟩ := d.index_toJson
    rw [map_cons, OpenAiAdapter.toolCallChunk, hid, hindex, hfunc, d.index_function_arguments]
    cases d with
    | start index id name args =>
      simp only [start?, map_some, index_function_name, getD_some, heard]
      rfl
    | more index args =>
      simp only [ToolDelta.start?, map_none, ToolDelta.args, ToolDelta.index,
        getD_some, heard]
      cases args with
      | none => exact ih
      | some args =>
        simp only [getD_some]
        split_ifs
        · exact ih
        · rfl

theorem Delta.index_toJson (d : Delta) :
    d.toJson.index "choices" = .array [d.choice] ∧ d.toJson.index "content_block" = .null := by
  constructor <;> rw [toJson, index_ofMembers] <;> rfl

theorem Delta.index_choice (d : Delta) :
    d.choice.index "delta" = d.body ∧ d.choice.index "finish_reason" = .ofText d.finishReason := by
  constructor <;> rw [choice, index_ofMembers] <;> rfl

theorem Delta.index_body (d : Delta) : d.body.index "content" = .ofText d.content ∧
    d.body.index "tool_calls" = .array (d.toolCalls.map ToolDelta.toJson) := by
  constructor <;> rw [body, index_ofMembers] <;> rfl

theorem streamChunk_toJson (e : Event) :
    OpenAiAdapter.streamChunk e.toJson = e.heard.map Heard.raw := by
  cases e with
  | usage =>
    rw [OpenAiAdapter.streamChunk, Event.toJson, index_ofMembers]
    rfl
  | delta d =>
    obtain ⟨hdelta, hfin⟩ := d.index_choice
    obtain ⟨hcont, hcalls⟩ := d.index_body
    have hheard : (Event.delta d).heard = d.heard := rfl
    rw [OpenAiAdapter.streamChunk, Event.toJson, d.index_toJson.1, hheard, Delta.heard]
    simp only [asArray, bind_some, head?_cons, hdelta, hcont, hcalls,
      asStr_ofText, getD_some, toolCallChunk_toJson]
    split
    · rfl
    cases heard d.toolCalls with
    | some h => rfl
    | none =>
      simp only [map_none, OpenAiAdapter.finishChunk, hfin, asStr_ofText]
      split <;> rfl

/-! ### What the client learns -/

variable {ds : List ToolDelta} {d : Delta} {index : UInt64} {id : String}

/-- The client's loop over the entries of an event enters the index of one call. -/
theorem foldl_enterIndex (m : HashMap String String)
    (hids : ((ds.filterMap ToolDelta.start?).map (·.2.1)).Nodup) :
    (ds.map ToolDelta.toJson).foldl (fun m tc =>
        enterIndex id (tc.index "id") (tc.index "index") m) m =
      match (ds.filterMap ToolDelta.start?).find? (·.2.1 = id) with
      | some c => m.insert (Heard.keyOf c.1) id
      | none => m := by
  induction ds generalizing m with
  | nil => rfl
  | cons d ds ih =>
    obtain ⟨hid, hindex, -⟩ := d.index_toJson
    rw [map_cons, foldl_cons, enterIndex, hid, hindex]
    cases d with
    | more index args => exact ih m hids
    | start index id' name args =>
      have hcons : (start index id' name args :: ds).filterMap start? =
          (index, id', name) :: ds.filterMap start? := rfl
      rw [hcons, map_cons, nodup_cons] at hids
      rw [ih _ hids.2, hcons, find?_cons]
      by_cases hsame : id' = id
      · -- no other entry of the event has this id
        have hnone : (ds.filterMap start?).find? (·.2.1 = id) = none := by
          rw [find?_eq_none]
          intro c hc heq
          have hid : c.2.1 = id := of_decide_eq_true heq
          exact hids.1 (hsame ▸ hid ▸ mem_map_of_mem (f := (·.2.1)) hc)
        simp [hnone, ToolDelta.start?, ToolDelta.index, hsame, Heard.keyOf]
      · simp [start?, hsame]

/-- A start that is heard is one of the entries. -/
theorem ToolDelta.mem_of_heard_start {name : String}
    (h : ToolDelta.heard ds = some (.start index id name)) :
    ∃ mangled, (index, id, mangled) ∈ ds.filterMap ToolDelta.start? := by
  induction ds with
  | nil => cases h
  | cons d ds ih =>
    cases d with
    | start i id' mangled args =>
      simp only [heard, some.injEq, Heard.start.injEq] at h
      obtain ⟨rfl, rfl, -⟩ := h
      exact ⟨mangled, mem_cons_self⟩
    | more i args =>
      rw [heard] at h
      split_ifs at h
      · exact ih h
      · cases h

/-- The entries bring neither a text nor the end. -/
theorem ToolDelta.quiet_of_heard {h : Heard} (hheard : ToolDelta.heard ds = some h) :
    h.text? = none ∧ h.stop? = none := by
  induction ds with
  | nil => cases hheard
  | cons d ds ih =>
    cases d with
    | start index id name args =>
      cases hheard
      exact ⟨rfl, rfl⟩
    | more index args =>
      rw [heard] at hheard
      split_ifs at hheard
      · exact ih hheard
      · cases hheard
        exact ⟨rfl, rfl⟩

theorem Delta.text?_heard (d : Delta) : (d.heard.bind Heard.text?).getD "" = d.content.getD "" := by
  unfold heard
  split
  · rfl
  rename_i htext
  rw [not_not.mp htext]
  cases hcalls : ToolDelta.heard d.toolCalls with
  | some h => exact congrArg (getD · "") (quiet_of_heard hcalls).1
  | none =>
    dsimp only
    split_ifs <;> rfl

theorem Delta.heard_of_bare (h : d.Bare) :
    d.heard = if d.finishReason.getD "" = "" ∨ d.finishReason.getD "" = "null" then none
      else some (.done (OpenAiAdapter.stopReasonOf (d.finishReason.getD ""))) := by
  rw [heard, if_neg (not_not.mpr h.1), h.2]

theorem Delta.stop?_of_not_bare (h : ¬d.Bare) : d.heard.bind Heard.stop? = none := by
  unfold heard
  split
  · rfl
  rename_i htext
  cases hcalls : ToolDelta.heard d.toolCalls with
  | some heard => exact (quiet_of_heard hcalls).2
  | none => exact absurd ⟨not_not.mp htext, hcalls⟩ h

/-- Only a bare event brings its finish reason. -/
theorem Delta.stop?_heard (d : Delta) : (d.heard.bind Heard.stop?).getD .endTurn =
    if d.Bare then OpenAiAdapter.stopReasonOf (d.finishReason.getD "") else .endTurn := by
  split_ifs with hbare
  · rw [heard_of_bare hbare]
    split_ifs with hreas
    · rcases hreas with hreas | hreas <;> rw [hreas] <;> rfl
    · rfl
  · rw [stop?_of_not_bare hbare, getD_none]

theorem Delta.stop?_of_unfinished (h : d.finishReason = none) :
    d.heard.bind Heard.stop? = none := by
  by_cases hbare : d.Bare
  · rw [heard_of_bare hbare, h]
    rfl
  · exact stop?_of_not_bare hbare

/-- What is neither a text nor the end is heard of the entries. -/
theorem Delta.heard_toolCalls {h : Heard} (hheard : d.heard = some h)
    (htext : ∀ text, h ≠ .text text) (hdone : ∀ stop, h ≠ .done stop) :
    ToolDelta.heard d.toolCalls = some h := by
  unfold heard at hheard
  split at hheard
  · exact absurd (some.inj hheard).symm (htext _)
  split at hheard
  · rename_i hcalls
    rw [hcalls, hheard]
  · dsimp only at hheard
    split_ifs at hheard
    exact absurd (some.inj hheard).symm (hdone _)

theorem enterStart_toJson {fromStr : String → Option Json} {data : String}
    (hdata : fromStr data = some d.toJson)
    (hids : ((d.toolCalls.filterMap ToolDelta.start?).map (·.2.1)).Nodup) {name : String}
    (h : d.heard = some (.start index id name)) (m : HashMap String String) :
    enterStart fromStr id data m = m.insert (Heard.keyOf index) id := by
  obtain ⟨mangled, hmem⟩ := mem_of_heard_start (d.heard_toolCalls h nofun nofun)
  have hfind : (d.toolCalls.filterMap start?).find? (·.2.1 = id) = some (index, id, mangled) := by
    have hsome : ((d.toolCalls.filterMap start?).find? (·.2.1 = id)).isSome := by
      rw [find?_isSome]
      exact ⟨_, hmem, decide_eq_true rfl⟩
    obtain ⟨c, hc⟩ := isSome_iff_exists.mp hsome
    have hid : c.2.1 = id := by simpa using find?_some hc
    rw [hc, inj_on_of_nodup_map hids (mem_of_find?_eq_some hc) hmem hid]
  unfold enterStart
  simp only [hdata, d.index_toJson.1, d.index_toJson.2, Json.at, getElem?_cons_zero,
    getD_some, d.index_choice.1, d.index_body.2, asArray, foldl_enterIndex m hids,
    hfind]
  exact if_neg (some_ne_none _).symm

/-! ### The calls of a stream -/

/-- The name that the adapter gives. -/
def named (c : UInt64 × String × String) : UInt64 × String × String :=
  (c.1, c.2.1, unmangledName c.2.2)

/-- The starts of some events. -/
def startsIn (ds : List Delta) : List (UInt64 × String × String) :=
  (ds.flatMap Delta.toolCalls).filterMap ToolDelta.start?

/-- At most one start of an event is heard. -/
theorem ToolDelta.startsOf_heard_sublist (ds : List ToolDelta) :
    (startsOf (ToolDelta.heard ds).toList).Sublist ((ds.filterMap start?).map named) := by
  induction ds with
  | nil => exact .refl _
  | cons d ds ih =>
    cases d with
    | start index id name args => exact (nil_sublist _).cons_cons _
    | more index args =>
      rw [heard]
      split_ifs
      · exact ih
      · exact nil_sublist _

theorem Delta.startsOf_heard_sublist (d : Delta) :
    (startsOf d.heard.toList).Sublist ((startsIn [d]).map named) := by
  have hone : startsIn [d] = d.toolCalls.filterMap start? := by
    rw [startsIn, flatMap_singleton]
  rw [hone, heard]
  split
  · exact nil_sublist _
  have hcalls := ToolDelta.startsOf_heard_sublist d.toolCalls
  cases hheard : ToolDelta.heard d.toolCalls with
  | some h =>
    rw [hheard] at hcalls
    exact hcalls
  | none =>
    dsimp only
    split_ifs <;> exact nil_sublist _

theorem startsOf_filterMap_heard (ds : List Delta) :
    startsOf (ds.filterMap Delta.heard) = ds.flatMap fun d => startsOf d.heard.toList := by
  rw [startsOf, filterMap_filterMap]
  induction ds with
  | nil => rfl
  | cons d ds ih =>
    rw [flatMap_cons, ← ih, filterMap_cons]
    cases d.heard with
    | none => rfl
    | some h => cases h <;> rfl

theorem map_named_startsIn (ds : List Delta) :
    (startsIn ds).map named = ds.flatMap fun d => (startsIn [d]).map named := by
  induction ds with
  | nil => rfl
  | cons d ds ih =>
    rw [flatMap_cons, ← ih, ← map_append, startsIn, startsIn, startsIn,
      ← filterMap_append, flatMap_singleton, flatMap_cons]

theorem startsOf_heard_sublist (ds : List Delta) :
    (startsOf (ds.filterMap Delta.heard)).Sublist ((startsIn ds).map named) := by
  rw [startsOf_filterMap_heard, map_named_startsIn]
  induction ds with
  | nil => exact .refl _
  | cons d ds ih => exact d.startsOf_heard_sublist.append ih

/-- A fragment is heard if only empty fragments stand before it. -/
theorem ToolDelta.of_heard_fragment {args : String}
    (h : ToolDelta.heard ds = some (.fragment index args)) :
    ∃ pre args' post, ds = pre ++ .more index args' :: post ∧ pre.filterMap start? = [] := by
  induction ds with
  | nil => cases h
  | cons d ds ih =>
    cases d with
    | start i id name args => cases h
    | more i args' =>
      rw [heard] at h
      split_ifs at h
      · obtain ⟨pre, args'', post, rfl, hpre⟩ := ih h
        exact ⟨.more i args' :: pre, args'', post, rfl, hpre⟩
      · obtain ⟨rfl, -⟩ := Heard.fragment.inj (some.inj h)
        exact ⟨[], args', ds, rfl, rfl⟩

theorem timely_of_starts {ds : List Delta}
    (inTime : ∀ pre index args post, ds.flatMap Delta.toolCalls = pre ++ .more index args :: post →
      index ∈ (pre.filterMap ToolDelta.start?).map Prod.fst)
    (hstar : startsOf (ds.filterMap Delta.heard) = (startsIn ds).map named) :
    Timely (ds.filterMap Delta.heard) := by
  intro p index args q heq
  obtain ⟨pre₁, rest, rfl, hpre₁, hrest⟩ := filterMap_eq_append_iff.mp heq
  obtain ⟨pre₂, d, post, rfl, hpre₂, hd, -⟩ := filterMap_eq_cons_iff.mp hrest
  obtain ⟨before, args', after, hcalls, hbef⟩ :=
    of_heard_fragment (d.heard_toolCalls hd nofun nofun)
  have hp : p = (pre₁ ++ pre₂).filterMap Delta.heard := by
    rw [filterMap_append, hpre₁, filterMap_eq_nil_iff.mpr hpre₂, append_nil]
  -- the start stands in an earlier event, for before a fragment that is heard there is none
  have hin := inTime ((pre₁ ++ pre₂).flatMap Delta.toolCalls ++ before) index args'
    (after ++ post.flatMap Delta.toolCalls) (by simp [hcalls])
  rw [filterMap_append, hbef, append_nil] at hin
  -- and of the earlier events all starts are heard
  have hearl : startsOf p = (startsIn (pre₁ ++ pre₂)).map named := by
    rw [hp, startsOf_filterMap_heard, map_named_startsIn]
    rw [startsOf_filterMap_heard, map_named_startsIn, ← append_assoc] at hstar
    exact flatMap_eq_of_append (fun d => d.startsOf_heard_sublist) hstar
  rw [hearl, map_map]
  exact hin

end OpenAi

/-! ## Anthropic -/

namespace Anthropic

/-- A block of a message. -/
inductive Block where
  | text (text : String)
  | toolUse (id name : String) (input : Json)

namespace Block

def toJson : Block → Json
  | .text t => textBlock t
  | .toolUse id name input => toolUseBlock id name input

def text? : Block → Option String
  | .text t => some t
  | .toolUse .. => none

def toolUse? : Block → Option (String × String × Json)
  | .text _ => none
  | .toolUse id name input => some (id, name, input)

end Block

/-- A whole message. -/
structure Message where
  content : List Block
  stopReason : String

def Message.toJson (m : Message) : Json :=
  .ofMembers [("role", .string "assistant"), ("content", .array (m.content.map Block.toJson)),
    ("stop_reason", .string m.stopReason)]

inductive Event where
  | messageStart
  | ping
  | textStart (index : UInt64)
  | toolStart (index : UInt64) (id name : String) (input : Json)
  | textDelta (index : UInt64) (text : String)
  | inputDelta (index : UInt64) (json : String)
  | blockStop (index : UInt64)
  | messageDelta (stopReason : String)
  | messageStop

namespace Event

/-- The name of the server-sent event, which is also its `type`. -/
def name : Event → String
  | .messageStart => "message_start"
  | .ping => "ping"
  | .textStart _ => "content_block_start"
  | .toolStart .. => "content_block_start"
  | .textDelta .. => "content_block_delta"
  | .inputDelta .. => "content_block_delta"
  | .blockStop _ => "content_block_stop"
  | .messageDelta _ => "message_delta"
  | .messageStop => "message_stop"

def delta : Event → Json
  | .textDelta _ text => .ofMembers [("type", .string "text_delta"), ("text", .string text)]
  | .inputDelta _ json =>
    .ofMembers [("type", .string "input_json_delta"), ("partial_json", .string json)]
  | .messageDelta stopReason => .ofMembers [("stop_reason", .string stopReason)]
  | _ => .null

/-- The members after the type. -/
def members (e : Event) : List (String × Json) :=
  match e with
  | .textStart index => [("index", .int index.toNat), ("content_block", textBlock "")]
  | .toolStart index id name input =>
    [("index", .int index.toNat), ("content_block", toolUseBlock id name input)]
  | .textDelta index _ => [("index", .int index.toNat), ("delta", e.delta)]
  | .inputDelta index _ => [("index", .int index.toNat), ("delta", e.delta)]
  | .blockStop index => [("index", .int index.toNat)]
  | .messageDelta _ => [("delta", e.delta)]
  | _ => []

def toJson (e : Event) : Json := .ofMembers (("type", .string e.name) :: e.members)

def text? : Event → Option String
  | .textDelta _ text => some text
  | _ => none

def start? : Event → Option (UInt64 × String × String × Json)
  | .toolStart index id name input => some (index, id, name, input)
  | _ => none

def inputFor (index : UInt64) : Event → Option String
  | .inputDelta i json => if i = index then some json else none
  | _ => none

def stop? : Event → Option String
  | .messageDelta stopReason => some stopReason
  | _ => none

def heard : Event → Option Heard
  | .toolStart index id name _ => some (.start index id (unmangledName name))
  | .textDelta _ text => if text = "" then none else some (.text text)
  | .inputDelta index json => if json = "" then none else some (.fragment index json)
  | .blockStop index => some (.blockStop index)
  | .messageDelta stopReason => some (.done (AnthropicAdapter.stopReasonOf stopReason))
  | _ => none

end Event

open Event

/-- A call of a stream; its start carries an input too. -/
structure SentCall where
  index : UInt64
  id : String
  name : String
  input : Json
  started : Json

structure Stream (reader : JsonReader) (m : Message) where
  events : List (Sent reader Event.toJson)
  calls : List SentCall
  text : String.join ((events.map Sent.event).filterMap Event.text?) =
    String.join (m.content.filterMap Block.text?)
  calls_eq : calls.map (fun c => (c.id, c.name, c.input)) = m.content.filterMap Block.toolUse?
  indices : (calls.map SentCall.index).Nodup
  /-- The calls start in their order. -/
  starts : (events.map Sent.event).filterMap Event.start? =
    calls.map fun c => (c.index, c.id, c.name, c.started)
  /-- An input comes after the start of its block. -/
  inTime : ∀ pre index json post, events.map Sent.event = pre ++ .inputDelta index json :: post →
    index ∈ (pre.filterMap Event.start?).map Prod.fst
  /-- The input stands in the fragments or, if there are none, in the start. -/
  args : ∀ c ∈ calls,
    let json := String.join ((events.map Sent.event).filterMap (Event.inputFor c.index))
    if json = "" then c.started = c.input else reader.fromStr json = some c.input
  stop : (events.map Sent.event).filterMap Event.stop? = [m.stopReason]

/-! ### What the adapter hears -/

namespace Event

theorem index_delta_text (index : UInt64) (text : String) :
    ((textDelta index text).delta.index "type").asStr = some "text_delta" ∧
      ((textDelta index text).delta.index "text").asStr = some text := by
  constructor <;> rw [delta, index_ofMembers] <;> rfl

theorem index_delta_input (index : UInt64) (json : String) :
    ((inputDelta index json).delta.index "type").asStr = some "input_json_delta" ∧
      ((inputDelta index json).delta.index "partial_json").asStr = some json := by
  constructor <;> rw [delta, index_ofMembers] <;> rfl

theorem index_delta_stop (stopReason : String) :
    ((messageDelta stopReason).delta.index "stop_reason").asStr = some stopReason := by
  rw [delta, index_ofMembers]
  rfl

theorem index_toJson_delta (e : Event) : e.toJson.index "delta" = e.delta := by
  rw [toJson, index_ofMembers]
  cases e <;> rfl

theorem index_toolStart (index : UInt64) (id name : String) (input : Json) :
    (toolStart index id name input).toJson.index "content_block" = toolUseBlock id name input ∧
      (toolStart index id name input).toJson.index "index" = .int index.toNat ∧
      (toolStart index id name input).toJson.index "choices" = .null := by
  refine ⟨?_, ?_, ?_⟩ <;> rw [toJson, index_ofMembers] <;> rfl

theorem indexOf_inputDelta (index : UInt64) (json : String) :
    indexOf (inputDelta index json).toJson = Heard.keyOf index := by
  rw [indexOf, toJson, index_ofMembers]
  exact congrArg (fun i : Option UInt64 => toString (i.getD 0).toNat) (asU64_toNat index)

theorem indexOf_blockStop (index : UInt64) :
    indexOf (blockStop index).toJson = Heard.keyOf index := by
  rw [indexOf, toJson, index_ofMembers]
  exact congrArg (fun i : Option UInt64 => toString (i.getD 0).toNat) (asU64_toNat index)

end Event

theorem blockStart_toJson (index : UInt64) (id name : String) (input : Json) :
    blockStart (Event.toolStart index id name input).toJson =
      some (.toolCallStart id (unmangledName name)) := by
  obtain ⟨hid, hname, -⟩ := index_toolUseBlock_call id name input
  rw [blockStart, (index_toolStart index id name input).1,
    (index_toolUseBlock id name input).2, hid, hname]
  rfl

theorem blockDelta_toJson (e : Event) : blockDelta e.toJson =
    match e with
    | .textDelta _ text => if text = "" then none else some (.textDelta text)
    | .inputDelta index json =>
      if json = "" then none else some (.toolCallArgsDelta (Heard.keyOf index) json)
    | _ => none := by
  rw [blockDelta, e.index_toJson_delta]
  cases e with
  | textDelta index text =>
    obtain ⟨htype, htext⟩ := index_delta_text index text
    simp [htype, htext]
  | inputDelta index json =>
    obtain ⟨htype, hjson⟩ := index_delta_input index json
    simp [htype, hjson, indexOf_inputDelta]
  | messageDelta stop =>
    have htype : ((messageDelta stop).delta.index "type") = .null := by
      rw [delta, index_ofMembers]
      rfl
    simp [htype, asStr]
  | _ => rfl

theorem streamChunk_toJson (e : Event) :
    streamChunk (some e.name) e.toJson = e.heard.map Heard.raw := by
  cases e with
  | toolStart index id name input => exact blockStart_toJson index id name input
  | textStart index =>
    show blockStart (textStart index).toJson = none
    rw [blockStart, toJson, index_ofMembers]
    refine if_neg ?_
    show ¬((textBlock "").index "type").asStr = _
    rw [(index_textBlock "").2]
    simp [asStr]
  | textDelta index text | inputDelta index json =>
    refine (blockDelta_toJson _).trans ?_
    simp only [heard]
    split_ifs <;> rfl
  | blockStop index =>
    show some (StreamChunk.toolCallComplete _) = some (StreamChunk.toolCallComplete _)
    rw [indexOf_blockStop]
  | messageDelta stop =>
    show some (StreamChunk.done _) = some (StreamChunk.done _)
    rw [index_toJson_delta, index_delta_stop]
    rfl
  | _ => rfl

/-! ### What is heard of each event -/

namespace Event

theorem start?_heard (e : Event) :
    e.heard.bind Heard.start? = e.start?.map fun c => (c.1, c.2.1, unmangledName c.2.2.1) := by
  cases e with
  | textDelta index text | inputDelta index json =>
    simp only [heard, start?]
    split_ifs <;> rfl
  | _ => rfl

theorem stop?_heard (e : Event) : e.heard.bind Heard.stop? = e.stop?.map stopReasonOf := by
  cases e with
  | textDelta index text | inputDelta index json =>
    simp only [heard, stop?]
    split_ifs <;> rfl
  | _ => rfl

theorem text?_heard (e : Event) : (e.heard.bind Heard.text?).getD "" = e.text?.getD "" := by
  cases e with
  | textDelta index text =>
    simp only [heard, text?]
    split_ifs with h
    · exact h.symm
    · rfl
  | inputDelta index json =>
    simp only [heard, text?]
    split_ifs <;> rfl
  | _ => rfl

theorem fragment?_heard (index : UInt64) (e : Event) :
    (e.heard.bind (Heard.fragment? index)).getD "" = (e.inputFor index).getD "" := by
  cases e with
  | textDelta i text =>
    simp only [heard, inputFor]
    split_ifs <;> rfl
  | inputDelta i json =>
    simp only [heard, inputFor]
    by_cases h : json = ""
    · rw [if_pos h, h]
      split_ifs <;> rfl
    · rw [if_neg h]
      rfl
  | _ => rfl

end Event

/-- The client learns the index of a tool block. -/
theorem enterStart_toJson {fromStr : String → Option Json} {data : String} {index : UInt64}
    {id name : String} {input : Json}
    (hdata : fromStr data = some (Event.toolStart index id name input).toJson)
    (m : HashMap String String) :
    enterStart fromStr id data m = m.insert (Heard.keyOf index) id := by
  obtain ⟨hblock, hindex, hcho⟩ := index_toolStart index id name input
  obtain ⟨hid, -, -⟩ := index_toolUseBlock_call id name input
  have htype := (index_toolUseBlock id name input).2
  unfold enterStart
  simp only [hdata, hcho, hblock, hindex, htype]
  refine (if_pos rfl).trans ?_
  rw [enterIndex, hid, asU64_toNat]
  exact if_pos rfl

end Anthropic

end Avix
