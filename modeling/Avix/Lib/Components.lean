/-
  The parts of a list between separators.

  * `sep_induction`: a list has no separator, or is a part, a separator and a shorter list.
  * `closed_prefix_iff`: a list begins with some parts, each closed by a separator, exactly if its
    parts but the last begin with them.
  * `closed_infix_iff`: a part stands between two separators exactly if it is neither the first
    nor the last.
-/
import Mathlib

namespace Avix.Lib

open List

variable {α : Type} {sep : α} {t : List α}

theorem sep_induction (sep : α) {motive : List α → Prop} (single : ∀ t, sep ∉ t → motive t)
    (part : ∀ a b, sep ∉ a → motive b → motive (a ++ sep :: b)) (t : List α) : motive t := by
  induction hlen : t.length using Nat.strong_induction_on generalizing t with
  | _ n ih =>
    by_cases hmem : sep ∈ t
    · obtain ⟨a, b, rfl, ha⟩ := eq_append_cons_of_mem hmem
      refine part a b ha (ih b.length ?_ b rfl)
      rw [← hlen, length_append, length_cons]
      omega
    · exact single t hmem

variable {a b n x : List α}

/-- A separator is not found in a part. -/
theorem cons_infix_append_iff (ha : sep ∉ a) : sep :: x <:+: a ++ b ↔ sep :: x <:+: b := by
  induction a with
  | nil => rfl
  | cons c a ih =>
    rw [mem_cons, not_or] at ha
    rw [cons_append, infix_cons_iff, cons_prefix_cons, ih ha.2]
    exact or_iff_right fun h => ha.1 h.1

/-- Two parts before a separator are equal if one list begins with the other. -/
theorem closed_part_prefix_iff (hn : sep ∉ n) (ha : sep ∉ a) :
    n ++ sep :: x <+: a ++ sep :: b ↔ n = a ∧ x <+: b := by
  induction n generalizing a with
  | nil =>
    cases a with
    | nil => simp
    | cons c a =>
      rw [mem_cons, not_or] at ha
      simp [ha.1]
  | cons d n ih =>
    rw [mem_cons, not_or] at hn
    cases a with
    | nil => simp [Ne.symm hn.1]
    | cons c a =>
      rw [mem_cons, not_or] at ha
      rw [cons_append, cons_append, cons_prefix_cons, ih hn.2 ha.2, List.cons.injEq, and_assoc]

variable [DecidableEq α]

theorem splitOn_part (ha : sep ∉ a) (b : List α) :
    (a ++ sep :: b).splitOn sep = a :: b.splitOn sep := by
  rw [splitOn_append_cons_self, splitOn_eq_singleton ha, singleton_append]

/-- The parts but the last. -/
def closedParts (sep : α) (t : List α) : List (List α) := (t.splitOn sep).dropLast

theorem closedParts_single (h : sep ∉ t) : closedParts sep t = [] := by
  rw [closedParts, splitOn_eq_singleton h]
  rfl

theorem closedParts_part (ha : sep ∉ a) (b : List α) :
    closedParts sep (a ++ sep :: b) = a :: closedParts sep b := by
  rw [closedParts, splitOn_part ha, dropLast_cons_of_ne_nil (splitOn_ne_nil _ _)]
  rfl

theorem closed_prefix_iff {names : List (List α)} (h : ∀ n ∈ names, sep ∉ n) :
    names.flatMap (· ++ [sep]) <+: t ↔ names <+: closedParts sep t := by
  induction t using sep_induction sep generalizing names with
  | single t ht =>
    rw [closedParts_single ht, prefix_nil]
    cases names with
    | nil => simp
    | cons n names =>
      refine iff_of_false (fun hp => ht (hp.subset ?_)) (cons_ne_nil _ _)
      simp
  | part a b ha ih =>
    cases names with
    | nil => simp
    | cons n names =>
      have hn : sep ∉ n := h n mem_cons_self
      rw [flatMap_cons, append_assoc, singleton_append,
        closed_part_prefix_iff hn ha, closedParts_part ha, cons_prefix_cons,
        ih fun m hm => h m (mem_cons_of_mem _ hm)]

theorem closed_infix_iff (hn : sep ∉ n) :
    sep :: (n ++ [sep]) <:+: sep :: t ↔ n ∈ closedParts sep t := by
  induction t using sep_induction sep with
  | single t ht =>
    rw [closedParts_single ht, infix_cons_iff, cons_prefix_cons]
    refine iff_of_false ?_ not_mem_nil
    rintro (⟨-, hbegin⟩ | hsub)
    · exact ht (hbegin.subset (by simp))
    · exact ht (hsub.subset mem_cons_self)
  | part a b ha ih =>
    rw [infix_cons_iff, cons_prefix_cons, closed_part_prefix_iff hn ha,
      cons_infix_append_iff ha, ih, closedParts_part ha, mem_cons]
    simp

end Avix.Lib
