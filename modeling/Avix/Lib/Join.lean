/-
  Separator coding. `[sep].intercalate xs` writes the fields `xs` one after the other
  with `sep` between them, and a field may itself contain `sep`.

  Nothing here is about a particular format: `α` is any type with decidable equality.

  * `append_sep_inj`: two fields with equally many separators, each followed by a
    separator and a rest, can be told apart from the rest.
  * `intercalate_inj_of_count`: if the fields of two lists contain equally many
    separators position by position, equal joins are equal lists. Without that
    condition the join is not injective (`["a,b"]` and `["a", "b"]`).
-/
import Mathlib

namespace Avix.Lib

open List

variable {α : Type*} [DecidableEq α]

theorem append_sep_inj (sep : α) {x y u v : List α} (hc : x.count sep = y.count sep)
    (h : x ++ sep :: u = y ++ sep :: v) : x = y ∧ u = v := by
  induction x generalizing y with
  | nil =>
    cases y with
    | nil => exact ⟨rfl, by simpa using h⟩
    | cons b y =>
      simp only [nil_append, cons_append, List.cons.injEq] at h
      rw [← h.1, count_cons_self, count_nil] at hc
      omega
  | cons a x ih =>
    cases y with
    | nil =>
      simp only [nil_append, cons_append, List.cons.injEq] at h
      rw [h.1, count_cons_self, count_nil] at hc
      omega
    | cons b y =>
      simp only [cons_append, List.cons.injEq] at h
      obtain ⟨rfl, h⟩ := h
      rw [count_cons, count_cons] at hc
      obtain ⟨rfl, hu⟩ := ih (by omega) h
      exact ⟨rfl, hu⟩

/-- Fields free of `sep` are told apart from the rest. -/
theorem append_sep_inj_of_not_mem (sep : α) {x y u v : List α} (hx : sep ∉ x) (hy : sep ∉ y)
    (h : x ++ sep :: u = y ++ sep :: v) : x = y ∧ u = v :=
  append_sep_inj sep (by rw [count_eq_zero_of_not_mem hx, count_eq_zero_of_not_mem hy]) h

theorem intercalate_inj_of_count (sep : α) {xs ys : List (List α)}
    (hc : xs.map (List.count sep) = ys.map (List.count sep))
    (h : [sep].intercalate xs = [sep].intercalate ys) : xs = ys := by
  induction xs generalizing ys with
  | nil =>
    cases ys with
    | nil => rfl
    | cons y ys => simp at hc
  | cons x xs ih =>
    cases ys with
    | nil => simp at hc
    | cons y ys =>
      simp only [map_cons, List.cons.injEq] at hc
      cases xs with
      | nil =>
        cases ys with
        | nil => simpa using h
        | cons y' ys => simp at hc
      | cons x' xs =>
        cases ys with
        | nil => simp at hc
        | cons y' ys =>
          rw [intercalate_cons_cons, intercalate_cons_cons] at h
          simp only [append_assoc, singleton_append] at h
          obtain ⟨rfl, hr⟩ := append_sep_inj sep hc.1 h
          rw [ih hc.2 hr]

end Avix.Lib
