/-
  Tables of keys with a size, searched for the largest key that fits.

  A table is a list in falling order of size with one entry for a key (`IsTable`). `put` replaces
  or adds an entry and sorts again. A search for the first entry whose key fits finds, in the
  table made by a list of puts, the last put at the largest fitting key (`find?_table`), provided
  that two fitting keys of one size are equal.
-/
import Mathlib

namespace Avix.Lib

open List

variable {K V : Type} [DecidableEq K] (size : K → ℕ)

/-- The table with an entry added or replaced. -/
def put (t : List (K × V)) (k : K) (v : V) : List (K × V) :=
  (t.filter (·.1 ≠ k) ++ [(k, v)]).insertionSort fun a b => size b.1 ≤ size a.1

/-- The table made by a list of puts. -/
def table (puts : List (K × V)) : List (K × V) := puts.foldl (fun t e => put size t e.1 e.2) []

/-- Larger keys come first, and every key once. -/
structure IsTable (t : List (K × V)) : Prop where
  sorted : t.Pairwise fun a b => size b.1 ≤ size a.1
  nodup : (t.map (·.1)).Nodup

/-- The last put at the largest key that fits. -/
def Wins (P : K → Prop) (puts : List (K × V)) (e : K × V) : Prop :=
  ∃ before after, puts = before ++ e :: after ∧ P e.1 ∧
    (∀ e' ∈ before, P e'.1 → size e'.1 ≤ size e.1) ∧ ∀ e' ∈ after, P e'.1 → size e'.1 < size e.1

variable {size}

/-! ## Entries -/

variable {t puts : List (K × V)} {e : K × V}

theorem mem_put {k : K} {v : V} : e ∈ put size t k v ↔ e = (k, v) ∨ e.1 ≠ k ∧ e ∈ t := by
  unfold put
  rw [mem_insertionSort, mem_append, mem_filter, mem_singleton, or_comm,
    decide_eq_true_eq, and_comm]

theorem isTable_put (h : IsTable size t) (k : K) (v : V) : IsTable size (put size t k v) where
  sorted := pairwise_insertionSort _ _
  nodup := by
    have hperm : ((put size t k v).map (·.1)).Perm ((t.filter (·.1 ≠ k) ++ [(k, v)]).map (·.1)) :=
      (perm_insertionSort _ _).map _
    rw [hperm.nodup_iff, map_append, map_singleton, nodup_append]
    refine ⟨h.nodup.sublist (filter_sublist.map _), nodup_singleton k, ?_⟩
    intro a ha b hb
    obtain ⟨e, he, rfl⟩ := mem_map.mp ha
    rw [mem_singleton.mp hb]
    exact of_decide_eq_true (mem_filter.mp he).2

theorem table_concat (puts : List (K × V)) (e : K × V) :
    table size (puts ++ [e]) = put size (table size puts) e.1 e.2 := by
  rw [table, foldl_append]
  rfl

theorem isTable_table (puts : List (K × V)) : IsTable size (table size puts) := by
  induction puts using reverseRecOn with
  | nil => exact ⟨.nil, .nil⟩
  | append_singleton puts e ih => exact table_concat puts e ▸ isTable_put ih e.1 e.2

omit [DecidableEq K] in
/-- An entry of a table is the only one with its key. -/
theorem IsTable.eq_of_key_eq (h : IsTable size t) {e' : K × V} (he : e ∈ t) (he' : e' ∈ t)
    (hkey : e.1 = e'.1) : e = e' :=
  inj_on_of_nodup_map h.nodup he he' hkey

/-- The entries of a table are the last puts. -/
theorem mem_table_iff : e ∈ table size puts ↔
    ∃ before after, puts = before ++ e :: after ∧ ∀ e' ∈ after, e'.1 ≠ e.1 := by
  induction puts using reverseRecOn with
  | nil => simp [table]
  | append_singleton puts x ih =>
    rw [table_concat, mem_put, ih]
    constructor
    · rintro (rfl | ⟨hkey, before, after, rfl, hafter⟩)
      · exact ⟨puts, [], rfl, nofun⟩
      · refine ⟨before, after ++ [x], by simp, fun e' he' => ?_⟩
        rcases mem_append.mp he' with hold | hnew
        · exact hafter e' hold
        · rw [mem_singleton.mp hnew]
          exact hkey.symm
    · rintro ⟨before, after, heq, hafter⟩
      rcases eq_nil_or_concat after with rfl | ⟨after', y, rfl⟩
      · left
        exact (append_inj' heq rfl).2 |> singleton_inj.mp |>.symm
      right
      rw [concat_eq_append, ← cons_append, ← append_assoc] at heq
      obtain ⟨rfl, hlast⟩ := append_inj' heq rfl
      obtain rfl := singleton_inj.mp hlast
      refine ⟨fun hkey => ?_, before, after', rfl, fun e' he' => ?_⟩
      · exact hafter x (by simp) hkey.symm
      · exact hafter e' (by simp [he'])

variable (size) in
/-- Every key that was put is in the table. -/
theorem exists_mem_table (h : e ∈ puts) : ∃ e' ∈ table size puts, e'.1 = e.1 := by
  induction puts using reverseRecOn with
  | nil => cases h
  | append_singleton puts x ih =>
    rw [table_concat]
    by_cases hkey : e.1 = x.1
    · exact ⟨(x.1, x.2), mem_put.mpr (.inl rfl), hkey.symm⟩
    rcases mem_append.mp h with hold | hnew
    · obtain ⟨e', he', hkey'⟩ := ih hold
      exact ⟨e', mem_put.mpr (.inr ⟨hkey' ▸ hkey, he'⟩), hkey'⟩
    · exact absurd (congrArg Prod.fst (mem_singleton.mp hnew)) hkey

/-! ## Searches -/

section Search

variable {P : K → Bool} (hP : ∀ k k', P k = true → P k' = true → size k = size k' → k = k')

include hP

omit [DecidableEq K] in
theorem IsTable.find?_eq_some_iff {t : List (K × V)} (h : IsTable size t) {e : K × V} :
    t.find? (fun e => P e.1) = some e ↔
      e ∈ t ∧ P e.1 = true ∧ ∀ e' ∈ t, P e'.1 = true → size e'.1 ≤ size e.1 := by
  have hfirst : ∀ {e : K × V}, t.find? (fun e => P e.1) = some e →
      e ∈ t ∧ P e.1 = true ∧ ∀ e' ∈ t, P e'.1 = true → size e'.1 ≤ size e.1 := by
    intro e hfind
    obtain ⟨hPe, before, after, rfl, hbef⟩ := find?_eq_some_iff_append.mp hfind
    refine ⟨by simp, hPe, fun e' he' hPe' => ?_⟩
    rcases mem_append.mp he' with hmem | hmem
    · have hnot := hbef e' hmem
      rw [hPe'] at hnot
      cases hnot
    · rcases mem_cons.mp hmem with rfl | hafter
      · exact le_refl _
      · exact (pairwise_cons.mp (pairwise_append.mp h.sorted).2.1).1 e' hafter
  refine ⟨hfirst, fun ⟨he, hPe, hmax⟩ => ?_⟩
  cases hfind : t.find? (fun e => P e.1) with
  | none => exact absurd hPe (by simpa using find?_eq_none.mp hfind e he)
  | some e₀ =>
    obtain ⟨he₀, hPe₀, hmax₀⟩ := hfirst hfind
    have hsize : size e₀.1 = size e.1 := le_antisymm (hmax e₀ he₀ hPe₀) (hmax₀ e he hPe)
    exact congrArg some (h.eq_of_key_eq he₀ he (hP _ _ hPe₀ hPe hsize))

theorem find?_table {puts : List (K × V)} {e : K × V} :
    (table size puts).find? (fun e => P e.1) = some e ↔ Wins size (fun k => P k = true) puts e := by
  rw [(isTable_table puts).find?_eq_some_iff hP, mem_table_iff]
  constructor
  · rintro ⟨⟨before, after, rfl, hafter⟩, hPe, hmax⟩
    have hle : ∀ e' ∈ before ++ e :: after, P e'.1 = true → size e'.1 ≤ size e.1 := by
      intro e' he' hPe'
      obtain ⟨e'', he'', hkey⟩ := exists_mem_table size he'
      rw [← hkey]
      exact hmax e'' he'' (hkey ▸ hPe')
    refine ⟨before, after, rfl, hPe, fun e' he' => hle e' (mem_append_left _ he'),
      fun e' he' hPe' => lt_of_le_of_ne (hle e' (by simp [he']) hPe') fun hsize => ?_⟩
    exact hafter e' he' (hP _ _ hPe' hPe hsize)
  · rintro ⟨before, after, rfl, hPe, hbef, hafter⟩
    refine ⟨⟨before, after, rfl, fun e' he' hkey => ?_⟩, hPe, fun e' he' hPe' => ?_⟩
    · have hlt := hafter e' he' (hkey ▸ hPe)
      rw [hkey] at hlt
      exact absurd hlt (lt_irrefl _)
    · obtain ⟨before', after', heq, -⟩ := mem_table_iff.mp he'
      have hmem : e' ∈ before ++ e :: after := heq ▸ by simp
      rcases mem_append.mp hmem with hmem | hmem
      · exact hbef e' hmem hPe'
      rcases mem_cons.mp hmem with rfl | hmem
      · exact le_refl _
      · exact (hafter e' hmem hPe').le

end Search

theorem find?_table_eq_none_iff {P : K → Bool} :
    (table size puts).find? (fun e => P e.1) = none ↔ ∀ e ∈ puts, P e.1 = false := by
  rw [find?_eq_none]
  constructor
  · intro h e he
    obtain ⟨e', he', hkey⟩ := exists_mem_table size he
    rw [← hkey]
    exact Bool.eq_false_iff.mpr (h e' he')
  · intro h e he
    obtain ⟨before, after, rfl, -⟩ := mem_table_iff.mp he
    rw [h e (by simp)]
    exact Bool.false_ne_true

omit [DecidableEq K] in
/-- Among the puts of one kind a winner of that kind still wins. -/
theorem Wins.filterMap {W : Type} {P : K → Prop} {k : K} {v : V} (h : Wins size P puts (k, v))
    {f : V → Option W} {w : W} (hw : f v = some w) :
    Wins size P (puts.filterMap fun e => (f e.2).map (e.1, ·)) (k, w) := by
  obtain ⟨before, after, rfl, hPk, hbef, hafter⟩ := h
  refine ⟨before.filterMap fun e => (f e.2).map (e.1, ·), after.filterMap fun e =>
    (f e.2).map (e.1, ·), by simp [hw], hPk, fun e he => ?_, fun e he => ?_⟩
  · obtain ⟨e', he', hmap⟩ := mem_filterMap.mp he
    obtain ⟨w', -, rfl⟩ := Option.map_eq_some_iff.mp hmap
    exact hbef e' he'
  · obtain ⟨e', he', hmap⟩ := mem_filterMap.mp he
    obtain ⟨w', -, rfl⟩ := Option.map_eq_some_iff.mp hmap
    exact hafter e' he'

end Avix.Lib
