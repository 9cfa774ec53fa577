/-
  Paths as lists over an alphabet with a separator.

  * `inTree_iff`: a path lies in the tree of a directory if it is the directory or continues it
    after a separator.
  * `inTree_top_iff`: two paths in one tree lie in the trees of the same top-level directories.
-/
import Mathlib

namespace Avix.Lib

variable {α : Type} {sep : α} {d m p a b name : List α}

/-- `p` is the directory `d` or lies below it. -/
def InTree (sep : α) (d p : List α) : Prop := d ++ [sep] <+: p ++ [sep]

theorem inTree_iff : InTree sep d p ↔ p = d ∨ d ++ [sep] <+: p := by
  unfold InTree
  rw [List.prefix_concat_iff, List.append_left_inj, eq_comm]

/-- A directory that begins a path is not above the top-level directories. -/
theorem inTree_top_of_inTree (hname : sep ∉ name) (hm : m ≠ []) (ha : InTree sep m a)
    (hb : InTree sep m b) (h : InTree sep (sep :: name) a) : InTree sep (sep :: name) b := by
  rcases List.prefix_or_prefix_of_prefix h ha with htop | htop
  · exact htop.trans hb
  rcases List.prefix_concat_iff.mp htop with heq | hlt
  · unfold InTree
    rw [← heq]
    exact hb
  · obtain ⟨c, m', rfl⟩ := List.exists_cons_of_ne_nil hm
    have hrest : m' ++ [sep] <+: name := (List.cons_prefix_cons.mp hlt).2
    exact absurd (hrest.subset (List.mem_append_right _ (List.mem_singleton_self sep))) hname

theorem inTree_top_iff (hname : sep ∉ name) (hm : m ≠ []) (ha : InTree sep m a)
    (hb : InTree sep m b) : InTree sep (sep :: name) a ↔ InTree sep (sep :: name) b :=
  ⟨inTree_top_of_inTree hname hm ha hb, inTree_top_of_inTree hname hm hb ha⟩

end Avix.Lib
