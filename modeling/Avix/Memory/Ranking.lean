/-
  MEMORY — ranking of records (`rrf_merge` of `memory_svc/index.rs`, `bm25_rank` of
  `memory_svc/search.rs`), with exact numbers for the floats.

  `rank_fusion`: `rrf_merge` returns every id of the two lists once, in the order of the
  fused scores, so that an id before another in both lists stays before it. Whatever order the hash
  map is iterated in, the scores come out the same; which of two ids with one score comes first
  depends on it (`equal_scores_swapped`).

  `bm25_complete`: `bm25_rank` returns as many records as it may of those that share a token
  with the query, and no others, in the order of their scores.

  Reason. The argument of the logarithm is above 1, and the length norm is positive, so that a
  token adds to the score exactly if the record has it.
-/
import Avix.Memory.Service

namespace Avix

open Lib List

theorem pairwise_mergeSort_by {α β : Type} [LinearOrder β] (f : α → β) (l : List α) :
    (l.mergeSort fun a b => f b ≤ f a).Pairwise fun a b => f b ≤ f a := by
  refine (pairwise_mergeSort (fun a b c hab hbc => ?_) (fun a b => ?_) l).imp of_decide_eq_true
  · rw [decide_eq_true_eq] at hab hbc ⊢
    exact hbc.trans hab
  · simpa using le_total (f b) (f a)

/-! ## Rank fusion -/

/-- A ranked list without duplicates. -/
structure Ranked where
  items : List (String × ℚ)
  nodup : (items.map (·.1)).Nodup

/-- How a hash map of scores is iterated. -/
structure ScoreOrder where
  iterate : HashMap String ℚ → List (Sigma fun _ : String => ℚ)
  perm : ∀ m, (iterate m).Perm m.entries

/-- The loop over one list. -/
def rrfAdd (k : UInt32) : Nat → List (String × ℚ) → HashMap String ℚ → HashMap String ℚ
  | _, [], m => m
  | rank, (id, _) :: rest, m =>
    rrfAdd k (rank + 1) rest (m.insert id ((m.lookup id).getD 0 + 1 / (k.toNat + rank + 1)))

def rrfScores (bm25 vector : Ranked) (k : UInt32) : HashMap String ℚ :=
  rrfAdd k 0 vector.items (rrfAdd k 0 bm25.items ∅)

def rrfMerge (order : ScoreOrder) (bm25 vector : Ranked) (k : UInt32) : List String :=
  ((order.iterate (rrfScores bm25 vector k)).mergeSort fun a b => b.2 ≤ a.2).map (·.1)

namespace Ranked

def ids (l : Ranked) : List String := l.items.map (·.1)

/-- What the list adds to the score of an id. -/
def score (l : Ranked) (k : UInt32) (id : String) : ℚ :=
  if id ∈ l.ids then 1 / (k.toNat + l.ids.idxOf id + 1) else 0

end Ranked

def fusedScore (bm25 vector : Ranked) (k : UInt32) (id : String) : ℚ :=
  bm25.score k id + vector.score k id

section Fusion

variable {k : UInt32} {id : String}

theorem lookup_rrfAdd {l : List (String × ℚ)} (hnodup : (l.map (·.1)).Nodup) (rank : Nat)
    (m : HashMap String ℚ) : (rrfAdd k rank l m).lookup id =
      if id ∈ l.map (·.1) then
        some ((m.lookup id).getD 0 + 1 / (k.toNat + (rank + (l.map (·.1)).idxOf id : Nat) + 1))
      else m.lookup id := by
  induction l generalizing rank m with
  | nil => rfl
  | cons e rest ih =>
    obtain ⟨hnot, hrest⟩ := nodup_cons.mp hnodup
    rw [rrfAdd, ih hrest, HashMap.lookup_insert_eq_ite]
    by_cases he : id = e.1
    · subst he
      simp [hnot]
    · have hne : e.1 ≠ id := fun heq => he heq.symm
      simp only [map_cons, mem_cons, he, false_or, if_false, idxOf_cons_ne _ hne]
      rw [Nat.succ_eq_add_one, Nat.add_right_comm, Nat.add_assoc]

theorem lookup_scores (bm25 vector : Ranked) : (rrfScores bm25 vector k).lookup id =
    if id ∈ bm25.ids ∨ id ∈ vector.ids then some (fusedScore bm25 vector k id) else none := by
  rw [rrfScores, lookup_rrfAdd vector.nodup, lookup_rrfAdd bm25.nodup]
  unfold fusedScore Ranked.score Ranked.ids
  by_cases hb : id ∈ bm25.items.map (·.1) <;> by_cases hv : id ∈ vector.items.map (·.1) <;>
    simp [hb, hv, AList.lookup_empty]

/-- In a sorted list, a greater score comes first. -/
theorem idxOf_lt_of_score_lt {l : List String} {f : String → ℚ} {a b : String}
    (hsort : (l.map f).Pairwise (· ≥ ·)) (ha : a ∈ l) (hb : b ∈ l) (hlt : f b < f a) :
    l.idxOf a < l.idxOf b := by
  by_contra hle
  have hia := idxOf_lt_length_of_mem ha
  have hne : l.idxOf b ≠ l.idxOf a := fun heq =>
    lt_irrefl _ ((idxOf_inj hb).mp heq ▸ hlt)
  have hbef : l.idxOf b < l.idxOf a := by omega
  have hpair := pairwise_iff_getElem.mp hsort (l.idxOf b) (l.idxOf a)
    (by rw [length_map]; omega) (by rwa [length_map]) hbef
  rw [getElem_map, getElem_map, getElem_idxOf, getElem_idxOf] at hpair
  exact absurd hlt (not_lt.mpr hpair)

theorem score_lt {l : Ranked} {a b : String} (h : l.ids.idxOf a < l.ids.idxOf b)
    (hb : b ∈ l.ids) : l.score k b < l.score k a := by
  have hlen := idxOf_lt_length_of_mem hb
  have ha : a ∈ l.ids := idxOf_lt_length_iff.mp (h.trans hlen)
  have hcast : (l.ids.idxOf a : ℚ) < l.ids.idxOf b := Nat.cast_lt.mpr h
  rw [Ranked.score, Ranked.score, if_pos hb, if_pos ha]
  exact one_div_lt_one_div_of_lt (by positivity) (by linarith)

end Fusion

theorem rank_fusion (order : ScoreOrder) (bm25 vector : Ranked) (k : UInt32) :
    (rrfMerge order bm25 vector k).Nodup ∧
      (∀ id, id ∈ rrfMerge order bm25 vector k ↔ id ∈ bm25.ids ∨ id ∈ vector.ids) ∧
      ((rrfMerge order bm25 vector k).map (fusedScore bm25 vector k)).Pairwise (· ≥ ·) ∧
      (∀ a b, bm25.ids.idxOf a < bm25.ids.idxOf b → b ∈ bm25.ids →
        vector.ids.idxOf a < vector.ids.idxOf b → b ∈ vector.ids →
          (rrfMerge order bm25 vector k).idxOf a < (rrfMerge order bm25 vector k).idxOf b) ∧
      ∀ order' : ScoreOrder, (rrfMerge order' bm25 vector k).map (fusedScore bm25 vector k) =
        (rrfMerge order bm25 vector k).map (fusedScore bm25 vector k) := by
  have hsort : ∀ order : ScoreOrder, ∃ l : List (Sigma fun _ : String => ℚ),
      rrfMerge order bm25 vector k = l.map (·.1) ∧ l.Perm (rrfScores bm25 vector k).entries ∧
        (l.map (·.2)).Pairwise (· ≥ ·) ∧
        (rrfMerge order bm25 vector k).map (fusedScore bm25 vector k) = l.map (·.2) := by
    intro order
    refine ⟨_, rfl, (mergeSort_perm _ _).trans (order.perm _), ?_, ?_⟩
    · rw [pairwise_map]
      exact pairwise_mergeSort_by Sigma.snd (order.iterate (rrfScores bm25 vector k))
    · rw [rrfMerge, map_map]
      refine map_congr_left fun e he => ?_
      have hmem := ((mergeSort_perm _ _).trans (order.perm _)).mem_iff.mp he
      have hlook := @lookup_scores k e.1 bm25 vector
      rw [AList.mem_lookup_iff.mpr hmem] at hlook
      split_ifs at hlook
      exact (Option.some.inj hlook).symm
  obtain ⟨l, hl, hperm, hsorted, hscor⟩ := hsort order
  have hkeys : (rrfMerge order bm25 vector k).Perm (rrfScores bm25 vector k).keys := by
    rw [hl]
    exact hperm.map Sigma.fst
  have hmem : ∀ id, id ∈ rrfMerge order bm25 vector k ↔ id ∈ bm25.ids ∨ id ∈ vector.ids := by
    intro id
    rw [hkeys.mem_iff, ← AList.mem_keys, ← AList.lookup_isSome, lookup_scores]
    split_ifs with h <;> simp [h]
  refine ⟨hkeys.nodup_iff.mpr (rrfScores bm25 vector k).keys_nodup, hmem, ?_, ?_, fun order' => ?_⟩
  · rwa [hscor]
  · intro a b hb hmemb hv hmemv
    have hlt : fusedScore bm25 vector k b < fusedScore bm25 vector k a :=
      add_lt_add (score_lt hb hmemb) (score_lt hv hmemv)
    refine idxOf_lt_of_score_lt (by rwa [hscor]) ((hmem a).mpr (.inl ?_))
      ((hmem b).mpr (.inl hmemb)) hlt
    exact idxOf_lt_length_iff.mp (hb.trans (idxOf_lt_length_of_mem hmemb))
  · obtain ⟨l', hl', hperm', hsort', hscor'⟩ := hsort order'
    rw [hscor, hscor']
    exact ((hperm'.trans hperm.symm).map _).eq_of_pairwise' hsort' hsorted

/-- The map in the order of its list, and the other way round. -/
def listOrder : ScoreOrder := ⟨fun m => m.entries, fun _ => .refl _⟩

def reversed : ScoreOrder := ⟨fun m => m.entries.reverse, fun m => m.entries.reverse_perm⟩

/-- Two lists with one id each. -/
theorem equal_scores_swapped :
    rrfMerge listOrder ⟨[("a", 1)], by decide⟩ ⟨[("b", 1)], by decide⟩ 60 = ["b", "a"] ∧
      rrfMerge reversed ⟨[("a", 1)], by decide⟩ ⟨[("b", 1)], by decide⟩ 60 = ["a", "b"] := by
  have hnone : (AList.singleton "a" (60 + 1 : ℚ)⁻¹ : HashMap String ℚ).lookup "b" = none := rfl
  constructor <;>
    simp [rrfMerge, rrfScores, rrfAdd, listOrder, reversed, mergeSort, hnone]

/-! ## BM25 -/

/-- What the search takes from Unicode. -/
structure CharTable where
  isAlphanumeric : Char → Bool
  toLowercase : String → String
  not_alphanumeric : ∀ c, isWhitespace c = true → isAlphanumeric c = false
  lower_empty : toLowercase "" = ""

def stopWords : List String :=
  ["a", "an", "the", "is", "in", "on", "at", "of", "to", "and", "or", "but", "it", "its", "be",
    "was", "were", "are", "this", "that", "with", "for", "as", "by", "from", "have", "has", "had",
    "not", "do", "did", "so", "if", "up", "out", "no", "we", "he", "she", "they", "i", "my", "me",
    "you", "your", "our", "their"]

section Search

variable (t : CharTable)

def tokenize (text : String) : List String :=
  (((text.toList.splitOnP fun c => !t.isAlphanumeric c).map String.ofList).map t.toLowercase).filter
    fun w => w ≠ "" ∧ w ∉ stopWords

/-- The weight of a term in all documents. -/
noncomputable def idf (docs : List (List String)) (term : String) : ℝ :=
  let df : ℝ := docs.countP (term ∈ ·)
  Real.log ((docs.length - df + 0.5) / (df + 0.5) + 1)

/-- What a term adds to the score of a document. -/
noncomputable def termScore (docs : List (List String)) (doc : List String) (term : String) : ℝ :=
  let tf : ℝ := doc.count term
  let avgdl : ℝ := (docs.map List.length).sum / docs.length
  idf docs term * (tf * (1.2 + 1)) / (tf + 1.2 * (1 - 0.75 + 0.75 * doc.length / max avgdl 1))

variable (records : List MemoryRecord) (query : String)

noncomputable def bm25Score (i : Fin records.length) : ℝ :=
  let docs := records.map fun r => tokenize t r.content
  ((tokenize t query).map (termScore docs (tokenize t records[i].content))).sum

/-- `bm25_rank`; a record is given by its place. -/
noncomputable def bm25Rank (limit : Nat) : List (Fin records.length) :=
  if records = [] ∨ query.toList.all isWhitespace then []
  else if tokenize t query = [] then []
  else
    let scored := (List.finRange records.length).map fun i => (bm25Score t records query i, i)
    (((scored.mergeSort fun a b => b.1 ≤ a.1).filter (0 < ·.1)).take limit).map (·.2)

def Shares (i : Fin records.length) : Prop :=
  ∃ term ∈ tokenize t query, term ∈ tokenize t records[i].content

variable {t records query}

theorem idf_pos (docs : List (List String)) (term : String) : 0 < idf docs term := by
  have hle : (docs.countP (term ∈ ·) : ℝ) ≤ docs.length := Nat.cast_le.mpr countP_le_length
  have hfrac : 0 < ((docs.length : ℝ) - docs.countP (term ∈ ·) + 0.5) /
      (docs.countP (term ∈ ·) + 0.5) := by
    refine div_pos ?_ (by positivity)
    linarith
  exact Real.log_pos (by linarith)

/-- A term adds to the score exactly if the document has it. -/
theorem termScore_pos_iff (docs : List (List String)) (doc : List String) (term : String) :
    0 ≤ termScore docs doc term ∧ (0 < termScore docs doc term ↔ term ∈ doc) := by
  have hidf := idf_pos docs term
  have hnorm : ∀ avgdl : ℝ, 0 < 1.2 * (1 - 0.75 + 0.75 * doc.length / max avgdl 1) := by
    intro avgdl
    have hmax : 0 < max avgdl 1 := lt_max_of_lt_right one_pos
    have hratio : 0 ≤ 0.75 * (doc.length : ℝ) / max avgdl 1 := by positivity
    linarith
  unfold termScore
  dsimp only
  rcases Nat.eq_zero_or_pos (doc.count term) with hzero | hpos
  · have hnot : term ∉ doc := count_eq_zero.mp hzero
    simp [hzero, hnot]
  · have hcast : (0 : ℝ) < doc.count term := Nat.cast_pos.mpr hpos
    have hden := add_pos hcast (hnorm ((docs.map length).sum / docs.length))
    have hscore := div_pos (mul_pos hidf (mul_pos hcast (by norm_num : (0 : ℝ) < 1.2 + 1))) hden
    exact ⟨hscore.le, iff_of_true hscore (count_pos_iff.mp hpos)⟩

theorem bm25Score_pos_iff (i : Fin records.length) :
    0 < bm25Score t records query i ↔ Shares t records query i := by
  unfold bm25Score Shares
  dsimp only
  generalize records.map (fun r => tokenize t r.content) = docs
  generalize tokenize t records[i].content = doc
  induction tokenize t query with
  | nil => simp
  | cons term terms ih =>
    have hterm := termScore_pos_iff docs doc term
    have hsum : 0 ≤ (terms.map (termScore docs doc)).sum :=
      sum_nonneg fun x hx => by
        obtain ⟨w, -, rfl⟩ := mem_map.mp hx
        exact (termScore_pos_iff docs doc w).1
    rw [map_cons, sum_cons, exists_mem_cons_iff, ← ih, ← hterm.2]
    constructor
    · intro h
      by_contra hnone
      obtain ⟨h₁, h₂⟩ := not_or.mp hnone
      linarith [not_lt.mp h₁, not_lt.mp h₂]
    · rintro (h | h)
      · linarith
      · linarith [hterm.1]

theorem tokenize_blank (h : query.toList.all isWhitespace = true) : tokenize t query = [] := by
  have hsplit : ∀ l : List Char, l.all isWhitespace = true →
      ∀ w ∈ l.splitOnP fun c => !t.isAlphanumeric c, w = [] := by
    intro l
    induction l with
    | nil => simp
    | cons c l ih =>
      intro hl w hw
      obtain ⟨hc, hl⟩ := Bool.and_eq_true_iff.mp hl
      rw [splitOnP_cons_eq_if_modifyHead, t.not_alphanumeric c hc] at hw
      exact (mem_cons.mp hw).elim id (ih hl w)
  unfold tokenize
  refine filter_eq_nil_iff.mpr fun w hw => ?_
  obtain ⟨_, hmem, rfl⟩ := mem_map.mp hw
  obtain ⟨l, hl, rfl⟩ := mem_map.mp hmem
  rw [hsplit _ h l hl]
  simp [t.lower_empty]

/-- Without terms in the query, nothing is shared. -/
theorem not_shares (h : (records = [] ∨ query.toList.all isWhitespace = true) ∨
    tokenize t query = []) (i : Fin records.length) : ¬Shares t records query i := by
  rintro ⟨term, hterm, -⟩
  rcases h with (rfl | hblank) | hnone
  · exact i.elim0
  · rw [tokenize_blank hblank] at hterm
    cases hterm
  · rw [hnone] at hterm
    cases hterm

end Search

theorem bm25_complete (t : CharTable) (records : List MemoryRecord) (query : String)
    (limit : Nat) :
    (∃ hits : List (Fin records.length), hits.Nodup ∧ (∀ i, i ∈ hits ↔ Shares t records query i) ∧
      (bm25Rank t records query limit).length = min limit hits.length) ∧
      (bm25Rank t records query limit).Nodup ∧
      (∀ i ∈ bm25Rank t records query limit, Shares t records query i) ∧
      ((bm25Rank t records query limit).map (bm25Score t records query)).Pairwise (· ≥ ·) := by
  let scored := (finRange records.length).map fun i => (bm25Score t records query i, i)
  let found := (scored.mergeSort fun a b => b.1 ≤ a.1).filter (0 < ·.1)
  have hperm : (scored.mergeSort fun a b => b.1 ≤ a.1).Perm scored := mergeSort_perm _ _
  have hmem : ∀ e, e ∈ found ↔ e.1 = bm25Score t records query e.2 ∧
      Shares t records query e.2 := by
    rintro ⟨score, i⟩
    rw [mem_filter, hperm.mem_iff, ← bm25Score_pos_iff]
    simp only [scored, mem_map, mem_finRange, true_and, Prod.mk.injEq,
      exists_eq_right, decide_eq_true_eq]
    grind
  have hnodup : (found.map (·.2)).Nodup := by
    have hall : (scored.map (·.2)).Nodup := by
      simpa [scored, Function.comp_def] using nodup_finRange records.length
    exact ((hperm.map _).nodup_iff.mpr hall).sublist (filter_sublist.map _)
  have hsort : found.Pairwise fun a b => b.1 ≤ a.1 :=
    (pairwise_mergeSort_by (·.1) scored).sublist filter_sublist
  have hsub : ((found.take limit).map (·.2)).Sublist (found.map (·.2)) :=
    (take_sublist _ _).map _
  -- The early returns are those without a score above 0.
  have hrank : bm25Rank t records query limit = (found.take limit).map (·.2) := by
    have hempty : (records = [] ∨ query.toList.all isWhitespace = true) ∨
        tokenize t query = [] → found = [] := by
      intro hnone
      refine eq_nil_iff_forall_not_mem.mpr fun e he => ?_
      exact not_shares hnone e.2 ((hmem e).mp he).2
    unfold bm25Rank
    split_ifs with hnone hterms
    · rw [hempty (.inl hnone)]
      simp
    · rw [hempty (.inr hterms)]
      simp
    · rfl
  rw [hrank]
  refine ⟨⟨found.map (·.2), hnodup, fun i => ?_, by simp⟩, hnodup.sublist hsub, fun i hi => ?_, ?_⟩
  · rw [mem_map]
    constructor
    · rintro ⟨e, he, rfl⟩
      exact ((hmem e).mp he).2
    · intro hi
      exact ⟨(bm25Score t records query i, i), (hmem _).mpr ⟨rfl, hi⟩, rfl⟩
  · obtain ⟨e, he, rfl⟩ := mem_map.mp (hsub.subset hi)
    exact ((hmem e).mp he).2
  · rw [map_map, pairwise_map]
    refine (hsort.sublist (take_sublist _ _)).imp_of_mem fun {a b} ha hb hab => ?_
    rw [Function.comp_apply, Function.comp_apply, ← ((hmem a).mp (mem_of_mem_take ha)).1,
      ← ((hmem b).mp (mem_of_mem_take hb)).1]
    exact hab

/-- The characters of ASCII. -/
def asciiTable : CharTable where
  isAlphanumeric := Char.isAlphanum
  toLowercase text := String.ofList (text.toList.map Char.toLower)
  not_alphanumeric c h := by
    rw [Bool.eq_false_iff]
    intro hc
    simp [isWhitespace, Char.isAlphanum, Char.isAlpha, Char.isUpper, Char.isLower,
      Char.isDigit, UInt32.le_iff_toNat_le] at h hc
    omega
  lower_empty := rfl

def fruitRecords : List MemoryRecord :=
  ["Red apples", "the pears", "apples and figs"].map fun content =>
    { id := content, recordType := .episodic, createdAt := ⟨0⟩, content }

/-- The records that have a word of the query, whatever its case. -/
theorem bm25_complete_fruit :
    (bm25Rank asciiTable fruitRecords "the Apples" 5).Perm [⟨0, by decide⟩, ⟨2, by decide⟩] := by
  have hshares : ∀ i, Shares asciiTable fruitRecords "the Apples" i ↔
      i ∈ [⟨0, by decide⟩, ⟨2, by decide⟩] := by
    unfold Shares
    decide +kernel
  obtain ⟨⟨hits, hhits, hmem, hlength⟩, hnodup, hall, -⟩ :=
    bm25_complete asciiTable fruitRecords "the Apples" 5
  have hperm := (perm_ext_iff_of_nodup hhits (by decide)).mpr fun i => (hmem i).trans (hshares i)
  refine (hnodup.subperm fun i hi => (hshares i).mp (hall i hi)).perm_of_length_le ?_
  rw [hlength, hperm.length_eq]
  decide

end Avix
