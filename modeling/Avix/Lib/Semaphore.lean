/-
  Counting semaphores, and the tasks that hold their permits.

  Semaphores are known by number; a new one gets the next number and `capacity` permits. A task
  holds a permit of at most one semaphore.

  * `Balanced`: every permit of every semaphore is left, or held by one task.
  * `Balanced.create`, `Balanced.spawn`, `Balanced.acquire`, `Balanced.release`: the operations
    keep it.
  * `Balanced.not_held_of_full`: a semaphore with all its permits is held by nobody.
-/
import Avix.Lib.Run

namespace Avix.Lib

open List

/-- The permits that are left, by semaphore. -/
abbrev Semaphores := List Nat

namespace Semaphores

def available (sems : Semaphores) (id : Nat) : Option Nat := sems[id]?

/-- Takes a permit, if one is left. -/
def acquire (sems : Semaphores) (id : Nat) : Option Semaphores :=
  match sems[id]? with
  | some (n + 1) => some (sems.set id n)
  | _ => none

/-- Gives a permit back. -/
def release (sems : Semaphores) (id : Nat) : Semaphores := sems.modify id (· + 1)

theorem acquire_eq_some {sems sems' : Semaphores} {id : Nat} (h : sems.acquire id = some sems') :
    ∃ n, sems[id]? = some (n + 1) ∧ sems' = sems.set id n := by
  unfold acquire at h
  split at h
  · next n hn => exact ⟨n, hn, (Option.some.inj h).symm⟩
  · exact absurd h nofun

end Semaphores

variable {α : Type} {held : α → Option Nat} {capacity : Nat}

/-- Every permit is left, or a task holds it. -/
structure Balanced (held : α → Option Nat) (capacity : Nat) (sems : Semaphores)
    (tasks : List α) : Prop where
  total : ∀ id n : Nat, sems[id]? = some n → n + tasks.countP (fun t => held t = some id) = capacity
  exists_of_held : ∀ t ∈ tasks, ∀ id, held t = some id → id < sems.length

theorem countP_set_add {p : α → Bool} {l : List α} {i : Nat} {t : α} (h : l[i]? = some t)
    (t' : α) : (l.set i t').countP p + (if p t then 1 else 0) =
      l.countP p + if p t' then 1 else 0 := by
  obtain ⟨l₁, l₂, rfl, hset⟩ := exists_split_of_getElem? h
  rw [hset, countP_append, countP_append, countP_cons, countP_cons]
  omega

namespace Balanced

variable {sems sems' : Semaphores} {tasks : List α}

theorem empty : Balanced held capacity [] [] :=
  ⟨nofun, nofun⟩

variable (h : Balanced held capacity sems tasks)

include h

theorem create : Balanced held capacity (sems ++ [capacity]) tasks := by
  refine ⟨fun id n hn => ?_, fun t ht id hid => ?_⟩
  · rcases Nat.lt_trichotomy id sems.length with hlt | rfl | hgt
    · exact h.total id n (by rwa [getElem?_append_left hlt] at hn)
    · -- nobody holds a permit of a semaphore that was not there
      have hnone : tasks.countP (fun t => held t = some sems.length) = 0 := by
        refine countP_eq_zero.mpr fun t ht hheld => ?_
        exact absurd (h.exists_of_held t ht _ (of_decide_eq_true hheld)) (Nat.lt_irrefl _)
      rw [getElem?_concat_length] at hn
      rw [hnone, Option.some.inj hn, Nat.add_zero]
    · rw [getElem?_eq_none (by simp; omega)] at hn
      exact absurd hn nofun
  · have hlt := h.exists_of_held t ht id hid
    rw [length_append]
    omega

variable {i id : Nat} {t t' : α}

theorem spawn (ht : held t = none) : Balanced held capacity sems (tasks ++ [t]) := by
  refine ⟨fun id n hn => ?_, fun u hu id hid => ?_⟩
  · rw [countP_append, countP_singleton, ht]
    simpa using h.total id n hn
  · rcases mem_append.mp hu with hu | hu
    · exact h.exists_of_held u hu id hid
    · obtain rfl := mem_singleton.mp hu
      exact absurd (ht.symm.trans hid) nofun

theorem acquire (hi : tasks[i]? = some t) (ht : held t = none) (ht' : held t' = some id)
    (hacq : sems.acquire id = some sems') : Balanced held capacity sems' (tasks.set i t') := by
  obtain ⟨n, hn, rfl⟩ := Semaphores.acquire_eq_some hacq
  have hlt : id < sems.length := (List.getElem?_eq_some_iff.mp hn).1
  refine ⟨fun id' n' hn' => ?_, fun u hu id' hid' => ?_⟩
  · have hcount := countP_set_add (p := fun t => held t = some id') hi t'
    rw [ht, ht'] at hcount
    rw [getElem?_set] at hn'
    by_cases hid : id = id'
    · subst hid
      have htotal := h.total id (n + 1) hn
      rw [if_pos rfl, if_pos hlt] at hn'
      obtain rfl := Option.some.inj hn'
      simp at hcount
      omega
    · rw [if_neg hid] at hn'
      have htotal := h.total id' n' hn'
      simp [hid] at hcount
      omega
  · rw [length_set]
    rcases mem_or_eq_of_mem_set hu with hu | rfl
    · exact h.exists_of_held u hu id' hid'
    · rwa [← Option.some.inj (ht'.symm.trans hid')]

theorem release (hi : tasks[i]? = some t) (ht : held t = some id) (ht' : held t' = none) :
    Balanced held capacity (sems.release id) (tasks.set i t') := by
  refine ⟨fun id' n' hn' => ?_, fun u hu id' hid' => ?_⟩
  · have hcount := countP_set_add (p := fun t => held t = some id') hi t'
    rw [ht, ht'] at hcount
    rw [Semaphores.release, getElem?_modify] at hn'
    obtain ⟨n, hn, heq⟩ := Option.map_eq_some_iff.mp hn'
    have htotal := h.total id' n hn
    by_cases hid : id = id'
    · subst hid
      simp at hcount heq
      omega
    · simp [hid] at hcount heq
      omega
  · rw [Semaphores.release, length_modify]
    rcases mem_or_eq_of_mem_set hu with hu | rfl
    · exact h.exists_of_held u hu id' hid'
    · exact absurd (ht'.symm.trans hid') nofun

theorem not_held_of_full (hfull : sems.available id = some capacity) :
    ∀ t ∈ tasks, held t ≠ some id := by
  intro t ht hheld
  have htotal := h.total id capacity hfull
  have hpos : 0 < tasks.countP (fun t => held t = some id) :=
    countP_pos_iff.mpr ⟨t, ht, decide_eq_true hheld⟩
  omega

end Balanced

end Avix.Lib
