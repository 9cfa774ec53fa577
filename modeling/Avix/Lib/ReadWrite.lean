/-
  Tasks that read a record of a shared store in one transaction and write a changed copy of it
  back in another.

  Two tasks that do this to one record at the same time lose an update. `Isolated` says that
  they do not: a task may claim a record, no two tasks claim the same one, and the copy that a
  task has read of the record it claims is the one in the store. So a write of it changes the
  record as if it had been read at that moment.

  What a task is and where in its work it claims a record is left open (`claim`, `copy`).
-/
import Mathlib

namespace Avix.Lib

open List

variable {α κ ρ : Type} [DecidableEq κ]

/-- No two tasks claim one record, and their copies are the records in the store. -/
structure Isolated (claim : α → Option κ) (copy : α → Option ρ) (store : AList fun _ : κ => ρ)
    (tasks : List α) : Prop where
  exclusive : ∀ (i j : Nat) t u key, tasks[i]? = some t → tasks[j]? = some u →
    claim t = some key → claim u = some key → i = j
  current : ∀ t ∈ tasks, ∀ key r, claim t = some key → copy t = some r → store.lookup key = some r

/-- No task claims the record. -/
def Unclaimed (claim : α → Option κ) (tasks : List α) (key : κ) : Prop :=
  ∀ t ∈ tasks, claim t ≠ some key

variable {claim : α → Option κ} {copy : α → Option ρ} {store : AList fun _ : κ => ρ}
  {tasks : List α} {i : Nat} {t t' : α} {key : κ}

theorem isolated_nil : Isolated claim copy store [] :=
  ⟨fun _ _ _ _ _ h => by simp at h, nofun⟩

variable (h : Isolated claim copy store tasks)

include h

/-- A new task that has read nothing yet. -/
theorem Isolated.append (hcopy : copy t = none)
    (hclaim : ∀ key, claim t = some key → Unclaimed claim tasks key) :
    Isolated claim copy store (tasks ++ [t]) := by
  have hlast : ∀ {i : Nat} {u}, (tasks ++ [t])[i]? = some u →
      tasks[i]? = some u ∨ (i = tasks.length ∧ u = t) := by
    intro i u hu
    rcases Nat.lt_trichotomy i tasks.length with hi | hi | hi
    · rw [getElem?_append_left hi] at hu
      exact .inl hu
    · rw [hi, getElem?_append_right (Nat.le_refl _)] at hu
      simp only [Nat.sub_self, getElem?_cons_zero, Option.some.injEq] at hu
      exact .inr ⟨hi, hu.symm⟩
    · rw [getElem?_eq_none (by simp; omega)] at hu
      cases hu
  refine ⟨fun i j u v key hu hv hku hkv => ?_, fun u hu key r hk hr => ?_⟩
  · rcases hlast hu with hu' | ⟨hi, rfl⟩ <;> rcases hlast hv with hv' | ⟨hj, rfl⟩
    · exact h.exclusive i j u v key hu' hv' hku hkv
    · exact absurd hku (hclaim key hkv u (mem_of_getElem? hu'))
    · exact absurd hkv (hclaim key hku v (mem_of_getElem? hv'))
    · rw [hi, hj]
  · rcases mem_append.mp hu with hu | hu
    · exact h.current u hu key r hk hr
    · rw [mem_singleton.mp hu, hcopy] at hr
      cases hr

/-- A task goes on. It may claim a record that no task has claimed, and read the record that is
    in the store. -/
theorem Isolated.set (ht : tasks[i]? = some t)
    (hclaim : ∀ key, claim t' = some key → claim t = some key ∨ Unclaimed claim tasks key)
    (hcopy : ∀ key r, claim t' = some key → copy t' = some r → store.lookup key = some r) :
    Isolated claim copy store (tasks.set i t') := by
  have hold : ∀ {j : Nat} {u}, (tasks.set i t')[j]? = some u →
      (j ≠ i ∧ tasks[j]? = some u) ∨ (j = i ∧ u = t') := by
    intro j u hu
    by_cases hj : j = i
    · rw [hj, List.getElem?_set_self (List.getElem?_eq_some_iff.mp ht).1] at hu
      exact .inr ⟨hj, (Option.some.inj hu).symm⟩
    · rw [getElem?_set_ne (Ne.symm hj)] at hu
      exact .inl ⟨hj, hu⟩
  -- nobody else claims what the task claims now
  have hsole : ∀ {j : Nat} {u key}, j ≠ i → tasks[j]? = some u → claim t' = some key →
      claim u ≠ some key := by
    intro j u key hj hu hkey hku
    rcases hclaim key hkey with hkt | hfree
    · exact hj (h.exclusive j i u t key hu ht hku hkt)
    · exact hfree u (mem_of_getElem? hu) hku
  refine ⟨fun j l u v key hu hv hku hkv => ?_, fun u hu key r hk hr => ?_⟩
  · rcases hold hu with ⟨hj, hu'⟩ | ⟨hj, rfl⟩ <;> rcases hold hv with ⟨hl, hv'⟩ | ⟨hl, rfl⟩
    · exact h.exclusive j l u v key hu' hv' hku hkv
    · exact absurd hku (hsole hj hu' hkv)
    · exact absurd hkv (hsole hl hv' hku)
    · rw [hj, hl]
  · rcases mem_or_eq_of_mem_set hu with hu | rfl
    · exact h.current u hu key r hk hr
    · exact hcopy key r hk hr

/-- The record of no task's claim is written. -/
theorem Isolated.insert (hfree : Unclaimed claim tasks key) (r : ρ) :
    Isolated claim copy (store.insert key r) tasks := by
  refine ⟨h.exclusive, fun t ht key' r' hk hr => ?_⟩
  have hne : key' ≠ key := fun heq => hfree t ht (heq ▸ hk)
  rw [AList.lookup_insert_ne hne]
  exact h.current t ht key' r' hk hr

/-- A task writes the record it claims, and claims nothing any more. -/
theorem Isolated.write (ht : tasks[i]? = some t) (hkey : claim t = some key)
    (hdone : claim t' = none) (r : ρ) :
    Isolated claim copy (store.insert key r) (tasks.set i t') := by
  have hset : Isolated claim copy store (tasks.set i t') :=
    h.set ht (fun k hk => by rw [hdone] at hk; cases hk) fun k _ hk => by rw [hdone] at hk; cases hk
  refine hset.insert (fun u hu hku => ?_) r
  obtain ⟨j, hj⟩ := getElem?_of_mem hu
  by_cases hji : j = i
  · rw [hji, List.getElem?_set_self (List.getElem?_eq_some_iff.mp ht).1] at hj
    rw [← Option.some.inj hj, hdone] at hku
    cases hku
  · rw [getElem?_set_ne (Ne.symm hji)] at hj
    exact hji (h.exclusive j i u t key hj ht hku hkey)

end Avix.Lib
