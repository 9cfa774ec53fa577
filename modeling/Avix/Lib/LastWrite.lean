/-
  The value a register has after a list of messages, some of which write it.

  * `lastWrite_cons`, `lastWrite_append`: messages taken off the front of a queue, and added at
    its end.
  * `lastWrite_eq_or`: either a message of the list writes, and the start does not matter, or
    none does, and the start stays.
-/
import Mathlib

namespace Avix.Lib

variable {α β : Type}

/-- The last value written by a message of `l`, or `b`. -/
def lastWrite (w : α → Option β) (b : β) (l : List α) : β := ((l.filterMap w).getLast?).getD b

variable (w : α → Option β)

@[simp]
theorem lastWrite_nil (b : β) : lastWrite w b [] = b := rfl

theorem lastWrite_cons (b : β) (a : α) (l : List α) :
    lastWrite w b (a :: l) = lastWrite w ((w a).getD b) l := by
  unfold lastWrite
  cases h : w a with
  | none => rw [List.filterMap_cons_none h, Option.getD_none]
  | some c =>
    rw [List.filterMap_cons_some h, List.getLast?_cons, Option.getD_some, Option.getD_some]

theorem lastWrite_append (b : β) (l l' : List α) :
    lastWrite w b (l ++ l') = lastWrite w (lastWrite w b l) l' := by
  induction l generalizing b with
  | nil => rfl
  | cons a l ih => rw [List.cons_append, lastWrite_cons, lastWrite_cons, ih]

/-- A message added at the end writes last. -/
theorem lastWrite_concat (b : β) (l : List α) (a : α) :
    lastWrite w b (l ++ [a]) = (w a).getD (lastWrite w b l) := by
  rw [lastWrite_append, lastWrite_cons, lastWrite_nil]

theorem lastWrite_eq_or (l : List α) :
    (∃ c, ∀ b, lastWrite w b l = c) ∨ ∀ b, lastWrite w b l = b := by
  unfold lastWrite
  cases h : (l.filterMap w).getLast? with
  | none => exact .inr fun b => rfl
  | some c => exact .inl ⟨c, fun b => rfl⟩

/-- What a queue leaves behind from the value `c` it also leaves behind without its first
    message. -/
theorem lastWrite_tail {c : β} {a : α} {l : List α} (h : lastWrite w c (a :: l) = c) :
    lastWrite w c l = c := by
  rw [lastWrite_cons] at h
  rcases lastWrite_eq_or w l with ⟨d, hd⟩ | hid
  · rw [hd] at h ⊢
    exact h
  · exact hid c

end Avix.Lib
