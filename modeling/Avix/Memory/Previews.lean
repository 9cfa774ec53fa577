/-
  MEMORY — previews of texts (`save_session_response` of `dispatch_manager.rs`,
  `build_memory_context_block` and `auto_log_session_end` of `executor/memory.rs`, `record_to_json`
  of `tools/retrieve.rs`, `build_context_summary` of `snapshot/capture.rs`).

  `previews_maximal_iff`: none of them panics and all show the longest prefixes that fit
  into their number of bytes, if and only if no character of a text lies across that byte.

  Reason. All of them take `&text[..text.len().min(n)]`. A slice that ends inside a character
  panics.
-/
import Avix.Executor.RuntimeExecutor
import Avix.Memory.Service

namespace Avix

open Lib String List Option

/-- `&text[..text.len().min(n)]`. -/
def preview (n : Nat) (text : String) : Option String := sliceBytes text (min text.utf8ByteSize n)

def previews (n : Nat) (texts : List String) : Option (List String) := texts.mapM (preview n)

/-- The summary of the session in `save_session_response`. -/
def responsePreview (responseText : String) : Option String := preview 500 responseText

/-- The contents of the last five records, and those of the pinned facts. -/
def contextTexts (episodic semantic : List MemoryRecord) : List String :=
  let recent := (episodic.mergeSort fun a b => b.createdAt.nanos ≤ a.createdAt.nanos).take 5
  (recent ++ semantic.filter (·.pinned)).map (·.content)

/-- What `build_memory_context_block` shows of them. -/
def contextPreviews (episodic semantic : List MemoryRecord) : Option (List String) :=
  previews 120 (contextTexts episodic semantic)

/-- The previews in the summary that `auto_log_session_end` logs. -/
def historyPreviews (history : List ConversationEntry) : Option (List String) :=
  previews 200 (history.map (·.content))

def lastAssistant (history : List ConversationEntry) : Option ConversationEntry :=
  history.reverse.find? (·.role = .assistant)

def buildContextSummary (history : List ConversationEntry) : Option String :=
  match lastAssistant history with
  | some entry => preview 200 entry.content
  | none => some "No context available."

/-! ## What a preview is for -/

/-- The longest prefix of at most `n` bytes. -/
structure IsLongest (n : Nat) (text p : String) : Prop where
  isPrefix : p.toList <+: text.toList
  fits : p.utf8ByteSize ≤ n
  longest : ∀ q : String, q.toList <+: text.toList → q.utf8ByteSize ≤ n → q.toList <+: p.toList

/-- All texts are shown, as far as they fit. -/
def Shows (n : Nat) (texts : List String) (shown : Option (List String)) : Prop :=
  ∃ l, shown = some l ∧ List.Forall₂ (IsLongest n) texts l

/-- Byte `n` is inside a character. -/
def Across (n : Nat) (cs : List Char) : Prop :=
  ∃ p c rest, cs = p ++ c :: rest ∧ utf8Len p < n ∧ n < utf8Len p + c.utf8Size

section Slice

variable {cs p q : List Char} {n : Nat} {text : String} {texts : List String}

theorem takeBytes_eq_some (h : takeBytes cs n = some p) : p <+: cs ∧ utf8Len p = n := by
  induction cs generalizing n p with
  | nil =>
    unfold takeBytes at h
    split_ifs at h with hn
    cases h
    exact ⟨prefix_rfl, hn.symm⟩
  | cons c cs ih =>
    unfold takeBytes at h
    split_ifs at h with hn hle
    · cases h
      exact ⟨List.nil_prefix, hn.symm⟩
    obtain ⟨p', hp', rfl⟩ := map_eq_some_iff.mp h
    obtain ⟨hpre, hlen⟩ := ih hp'
    refine ⟨cons_prefix_cons.mpr ⟨rfl, hpre⟩, ?_⟩
    rw [utf8Len_cons]
    omega

/-- Behind the first character, the byte is `c.utf8Size` bytes nearer. -/
theorem across_cons_iff {c : Char} (hle : c.utf8Size ≤ n) :
    Across n (c :: cs) ↔ Across (n - c.utf8Size) cs := by
  constructor
  · rintro ⟨p, d, rest, heq, hlt, hgt⟩
    cases p with
    | nil =>
      obtain ⟨rfl, -⟩ := List.cons.inj heq
      rw [utf8Len_nil] at hgt
      omega
    | cons e p =>
      obtain ⟨rfl, rfl⟩ := List.cons.inj heq
      rw [utf8Len_cons] at hlt hgt
      exact ⟨p, d, rest, rfl, by omega, by omega⟩
  · rintro ⟨p, d, rest, rfl, hlt, hgt⟩
    have hlen : utf8Len (c :: p) = utf8Len p + c.utf8Size := utf8Len_cons c p
    exact ⟨c :: p, d, rest, rfl, by omega, by omega⟩

theorem takeBytes_isSome_iff (cs : List Char) (n : Nat) :
    (takeBytes cs (min (utf8Len cs) n)).isSome ↔ ¬Across n cs := by
  induction cs generalizing n with
  | nil => simp [Across, takeBytes]
  | cons c cs ih =>
    have hpos := c.utf8Size_pos
    rw [utf8Len_cons, takeBytes]
    by_cases hle : c.utf8Size ≤ n
    · have hrest : min (utf8Len cs + c.utf8Size) n - c.utf8Size =
          min (utf8Len cs) (n - c.utf8Size) := by omega
      rw [if_neg (by omega), if_pos (by omega), across_cons_iff hle, ← ih, hrest, isSome_map]
    have hmin : min (utf8Len cs + c.utf8Size) n = n := by omega
    rw [hmin]
    by_cases hn : n = 0
    · simp [hn, Across]
    rw [if_neg hn, if_neg hle]
    refine iff_of_false (by simp) (not_not.mpr ⟨[], c, cs, rfl, ?_, ?_⟩)
    · exact Nat.pos_of_ne_zero hn
    · rw [utf8Len_nil]
      omega

theorem isLongest_of_preview {s : String} (h : preview n text = some s) : IsLongest n text s := by
  obtain ⟨p, hp, rfl⟩ := map_eq_some_iff.mp h
  obtain ⟨hpre, hlen⟩ := takeBytes_eq_some hp
  refine ⟨by rwa [toList_ofList], by rw [utf8ByteSize_ofList]; omega, fun q hq hfits => ?_⟩
  rw [toList_ofList]
  rcases prefix_or_prefix_of_prefix hq hpre with hqp | ⟨r, hr⟩
  · exact hqp
  -- both have as many bytes as there may be
  obtain ⟨t, ht⟩ := hq
  have htext := congrArg utf8Len ht
  have hlong := congrArg utf8Len hr
  rw [utf8Len_append, utf8Len_toList, utf8Len_toList] at htext
  rw [utf8Len_append, utf8Len_toList] at hlong
  have hnil : r = [] := utf8Len_eq_zero.mp (by omega)
  rw [← hr, hnil, append_nil]

theorem preview_iff : (∃ s, preview n text = some s ∧ IsLongest n text s) ↔
    ¬Across n text.toList := by
  rw [← takeBytes_isSome_iff, utf8Len_toList, ← isSome_map, isSome_iff_exists]
  exact ⟨fun ⟨s, hs, _⟩ => ⟨s, hs⟩, fun ⟨s, hs⟩ => ⟨s, hs, isLongest_of_preview hs⟩⟩

theorem shows_previews_iff :
    Shows n texts (previews n texts) ↔ ∀ text ∈ texts, ¬Across n text.toList := by
  unfold Shows
  induction texts with
  | nil => simp [previews]
  | cons text texts ih =>
    rw [forall_mem_cons, ← preview_iff, ← ih, previews, mapM_cons]
    constructor
    · rintro ⟨l, hl, hall⟩
      obtain ⟨s, hs, hl⟩ := bind_eq_some_iff.mp hl
      obtain ⟨l', hl', hl⟩ := bind_eq_some_iff.mp hl
      cases hl
      obtain ⟨hfirst, hrest⟩ := forall₂_cons.mp hall
      exact ⟨⟨s, hs, hfirst⟩, l', hl', hrest⟩
    · rintro ⟨⟨s, hs, hfirst⟩, l, hl, hrest⟩
      have hmap : texts.mapM (preview n) = some l := hl
      refine ⟨s :: l, ?_, List.Forall₂.cons hfirst hrest⟩
      rw [hs, hmap]
      rfl

theorem utf8Len_replicate (k : Nat) : utf8Len (List.replicate k 'a') = k := by
  induction k with
  | zero => rfl
  | succ k ih =>
    rw [replicate_succ, utf8Len_cons, ih]
    rfl

end Slice

theorem previews_maximal_iff (codec : MemoryCodec) (responseText : String)
    (episodic semantic : List MemoryRecord) (history : List ConversationEntry) (item : Retrieved) :
    ((∃ p, responsePreview responseText = some p ∧ IsLongest 500 responseText p) ↔
      ¬Across 500 responseText.toList) ∧
    (Shows 120 (contextTexts episodic semantic) (contextPreviews episodic semantic) ↔
      ∀ text ∈ contextTexts episodic semantic, ¬Across 120 text.toList) ∧
    (Shows 200 (history.map (·.content)) (historyPreviews history) ↔
      ∀ text ∈ history.map (·.content), ¬Across 200 text.toList) ∧
    ((∃ json p, recordToJson codec item = some json ∧ json.index "summary" = .string p ∧
        IsLongest 200 item.record.content p) ↔ ¬Across 200 item.record.content.toList) ∧
    ((∃ s, buildContextSummary history = some s ∧
        ∀ e, lastAssistant history = some e → IsLongest 200 e.content s) ↔
      ∀ e, lastAssistant history = some e → ¬Across 200 e.content.toList) := by
  refine ⟨preview_iff, shows_previews_iff, shows_previews_iff, ?_, ?_⟩
  · rw [← preview_iff]
    constructor
    · rintro ⟨json, p, hjson, -, -⟩
      obtain ⟨s, hs, -⟩ := map_eq_some_iff.mp hjson
      exact ⟨s, hs, isLongest_of_preview hs⟩
    · rintro ⟨s, hs, hlong⟩
      refine ⟨_, s, congrArg (Option.map _) hs, ?_, hlong⟩
      simp [Json.index_ofMembers, lookup_cons]
  · unfold buildContextSummary
    cases lastAssistant history with
    | none => simp
    | some entry => simpa using preview_iff

/-- A response of 501 bytes whose last character has two of them. -/
theorem response_cut_inside_character :
    responsePreview (String.ofList (List.replicate 499 'a' ++ ['é'])) = none := by
  rw [eq_none_iff_forall_ne_some]
  intro s hs
  refine preview_iff.mp ⟨s, hs, isLongest_of_preview hs⟩ ⟨replicate 499 'a', 'é', [], ?_, ?_⟩
  · rw [String.toList_ofList]
  · rw [utf8Len_replicate]
    decide

end Avix
