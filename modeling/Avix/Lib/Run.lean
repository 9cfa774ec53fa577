/-
  Runs of a system whose steps are driven by events.

  A system is a function `step : σ → ε → σ`; an event that is not enabled in a state leaves it
  as it is. A run is the fold of `step` over a list of events, so "every interleaving" is
  "every list of events". A condition on the steps of a run (`Guarded`) is checked in the state
  each step starts from.

  * `run_invariant`: what every step preserves holds in every state of a run.
  * `guarded_invariant`: the same for runs whose steps meet a condition.
  * `measure_run_eq_iff`: a measure that no step increases stays the same over a run exactly when
    every step keeps it.
  * `guarded_related`: what each of their steps does to the state, for all of them together.
  * `forall_mem_output_iff`: a condition on every step, and the output of the run.
  * `run_simulates_filter`: a second system that follows the first on the visible events and
    ignores the hidden ones stays related to it.
  * `exists_after_of_decreases`: an endless run whose measure decreases comes to its end.
  * `exists_mem_set`: what a pool of tasks says about a subject after a task has been replaced.
-/
import Mathlib

namespace Avix.Lib

open List

variable {σ τ ε : Type}

/-- The state after a list of events. -/
def run (step : σ → ε → σ) (s : σ) (es : List ε) : σ := es.foldl step s

@[simp]
theorem run_nil (step : σ → ε → σ) (s : σ) : run step s [] = s := rfl

@[simp]
theorem run_cons (step : σ → ε → σ) (s : σ) (e : ε) (es : List ε) :
    run step s (e :: es) = run step (step s e) es := rfl

theorem run_append (step : σ → ε → σ) (s : σ) (es es' : List ε) :
    run step s (es ++ es') = run step (run step s es) es' := foldl_append

/-- Every step of the run meets `G` in the state it starts from. -/
def Guarded (step : σ → ε → σ) (G : σ → ε → Prop) : σ → List ε → Prop
  | _, [] => True
  | s, e :: es => G s e ∧ Guarded step G (step s e) es

instance decidableGuarded {step : σ → ε → σ} {G : σ → ε → Prop} [∀ s e, Decidable (G s e)] :
    (s : σ) → (es : List ε) → Decidable (Guarded step G s es)
  | _, [] => isTrue trivial
  | s, e :: es => @instDecidableAnd _ _ _ (decidableGuarded (step s e) es)

variable {step : σ → ε → σ} {G : σ → ε → Prop} {I : σ → Prop} {es : List ε} {s : σ}

theorem guarded_append {es' : List ε} :
    Guarded step G s (es ++ es') ↔ Guarded step G s es ∧ Guarded step G (run step s es) es' := by
  induction es generalizing s with
  | nil => simp [Guarded]
  | cons e es ih => simp [Guarded, ih, and_assoc]

/-- A condition on the events alone. -/
theorem guarded_of_forall {P : ε → Prop} (h : ∀ e ∈ es, P e) :
    Guarded step (fun _ e => P e) s es := by
  induction es generalizing s with
  | nil => trivial
  | cons e es ih =>
    rw [forall_mem_cons] at h
    exact ⟨h.1, ih h.2⟩

theorem guarded_invariant (hstep : ∀ s e, I s → G s e → I (step s e)) (h0 : I s)
    (h : Guarded step G s es) : I (run step s es) := by
  induction es generalizing s with
  | nil => exact h0
  | cons e es ih => exact ih (hstep s e h0 h.1) h.2

theorem run_invariant (hstep : ∀ s e, I s → I (step s e)) (h0 : I s) (es : List ε) :
    I (run step s es) := by
  induction es generalizing s with
  | nil => exact h0
  | cons e es ih => exact ih (hstep s e h0)

theorem measure_run_eq_iff {m : σ → ℕ} (hstep : ∀ s e, I s → I (step s e))
    (hle : ∀ s e, I s → m (step s e) ≤ m s) (hkeeps : ∀ s e, I s → (m (step s e) = m s ↔ G s e))
    (h0 : I s) (es : List ε) : m (run step s es) ≤ m s ∧
      (m (run step s es) = m s ↔ Guarded step G s es) := by
  induction es generalizing s with
  | nil => exact ⟨Nat.le_refl _, iff_of_true rfl trivial⟩
  | cons e es ih =>
    obtain ⟨hrest, hiff⟩ := ih (hstep s e h0)
    have hfirst := hle s e h0
    refine ⟨hrest.trans hfirst, ?_⟩
    rw [run_cons, Guarded, ← hkeeps s e h0, ← hiff]
    omega

theorem guarded_related {R : σ → σ → Prop} (hrefl : ∀ s, R s s)
    (htrans : ∀ s t u, R s t → R t u → R s u)
    (hstep : ∀ s e, I s → G s e → I (step s e) ∧ R s (step s e)) (h0 : I s)
    (h : Guarded step G s es) : R s (run step s es) := by
  induction es generalizing s with
  | nil => exact hrefl s
  | cons e es ih =>
    obtain ⟨hinv, hrel⟩ := hstep s e h0 h.1
    exact htrans s _ _ hrel (ih hinv h.2)

theorem guarded_congr {H G' : σ → ε → Prop} (hstep : ∀ s e, I s → H s e → I (step s e))
    (hiff : ∀ s e, I s → H s e → (G s e ↔ G' s e)) (h0 : I s) (h : Guarded step H s es) :
    Guarded step G s es ↔ Guarded step G' s es := by
  induction es generalizing s with
  | nil => exact Iff.rfl
  | cons e es ih => exact and_congr (hiff s e h0 h.1) (ih (hstep s e h0 h.1) h.2)

theorem forall_mem_output_iff {α : Type} {out : σ → List α} {new : σ → ε → List α}
    (hnew : ∀ s e, out (step s e) = out s ++ new s e) (P : α → Prop) (h0 : ∀ a ∈ out s, P a) :
    (∀ a ∈ out (run step s es), P a) ↔ Guarded step (fun s e => ∀ a ∈ new s e, P a) s es := by
  induction es using reverseRecOn with
  | nil => exact iff_of_true h0 trivial
  | append_singleton es e ih =>
    rw [run_append, guarded_append, run_cons, run_nil, hnew, forall_mem_append, ih]
    simp [Guarded]

/-- A guard follows from what holds of every way to split the run before a step. -/
theorem guarded_of_split (h : ∀ es₁ e es₂, es = es₁ ++ e :: es₂ → G (run step s es₁) e) :
    Guarded step G s es := by
  induction es generalizing s with
  | nil => trivial
  | cons e es ih =>
    refine ⟨h [] e es rfl, ih fun es₁ e' es₂ hsplit => ?_⟩
    exact h (e :: es₁) e' es₂ (by rw [hsplit, cons_append])

theorem run_simulates_filter {step' : τ → ε → τ} {R : σ → τ → Prop} {visible : ε → Bool}
    (hhidd : ∀ s t e, R s t → visible e = false → R (step s e) t)
    (hvis : ∀ s t e, R s t → G s e → visible e = true → R (step s e) (step' t e)) {t : τ}
    (h0 : R s t) (hg : Guarded step G s es) :
    R (run step s es) (run step' t (es.filter visible)) := by
  induction es generalizing s t with
  | nil => exact h0
  | cons e es ih =>
    cases hv : visible e with
    | false =>
      rw [filter_cons_of_neg (by simp [hv])]
      exact ih (hhidd s t e h0 hv) hg.2
    | true =>
      rw [filter_cons_of_pos hv]
      exact ih (hvis s t e h0 hg.1 hv) hg.2

/-! ## Endless runs -/

/-- The state after `n` steps of a run whose `i`-th event is `es i`. -/
def after (step : σ → ε → σ) (s : σ) (es : Nat → ε) : Nat → σ
  | 0 => s
  | n + 1 => step (after step s es n) (es n)

theorem after_invariant {es : Nat → ε} (h0 : I s) (hstep : ∀ s n, I s → I (step s (es n)))
    (n : Nat) : I (after step s es n) := by
  induction n with
  | zero => exact h0
  | succ n ih => exact hstep _ n ih

theorem exists_after_of_decreases (measure : σ → Nat) {done : σ → Prop} {es : Nat → ε} (h0 : I s)
    (hstep : ∀ s n, I s → I (step s (es n)))
    (hdec : ∀ s n, I s → ¬done s → measure (step s (es n)) < measure s) :
    ∃ n, done (after step s es n) := by
  by_contra hnever
  have hbound : ∀ n, measure (after step s es n) + n ≤ measure s := by
    intro n
    induction n with
    | zero => exact Nat.le_refl _
    | succ n ih =>
      have hlt := hdec _ n (after_invariant h0 hstep n) fun hdone => hnever ⟨n, hdone⟩
      change measure (step (after step s es n) (es n)) + (n + 1) ≤ measure s
      omega
  have := hbound (measure s + 1)
  omega

/-! ## A pool of tasks

The tasks of a concurrent system are a list, and a step replaces one of them. `filterMap` reads
off what the tasks say about one subject. -/

section Pool

variable {α β : Type} {l : List α} {i : Nat} {t : α} (h : l[i]? = some t)

include h

theorem exists_split_of_getElem? :
    ∃ l₁ l₂, l = l₁ ++ t :: l₂ ∧ ∀ t', l.set i t' = l₁ ++ t' :: l₂ := by
  obtain ⟨hi, rfl⟩ := List.getElem?_eq_some_iff.mp h
  refine ⟨l.take i, l.drop (i + 1), ?_, fun t' => ?_⟩
  · rw [← drop_eq_getElem_cons, take_append_drop]
  · rw [set_eq_take_append_cons_drop, if_pos hi]

theorem exists_mem_set (P : α → Prop) : ∃ others : Prop, ((∃ u ∈ l, P u) ↔ others ∨ P t) ∧
    ∀ t', (∃ u ∈ l.set i t', P u) ↔ others ∨ P t' := by
  obtain ⟨l₁, l₂, rfl, hset⟩ := exists_split_of_getElem? h
  have hsplit : ∀ u, (∃ v ∈ l₁ ++ u :: l₂, P v) ↔ (∃ v ∈ l₁ ++ l₂, P v) ∨ P u := by
    intro u
    simp only [mem_append, mem_cons, or_and_right, exists_or, exists_eq_left]
    rw [or_assoc, or_comm (a := P u)]
  exact ⟨∃ v ∈ l₁ ++ l₂, P v, hsplit t, fun t' => by rw [hset]; exact hsplit t'⟩

theorem filterMap_set_of_eq {f : α → Option β} {t' : α} (hf : f t' = f t) :
    (l.set i t').filterMap f = l.filterMap f := by
  obtain ⟨l₁, l₂, rfl, hset⟩ := exists_split_of_getElem? h
  rw [hset, filterMap_append, filterMap_append, filterMap_cons, filterMap_cons, hf]

theorem filterMap_set_of_eq_toList {f : α → Option β} (hl : l.filterMap f = (f t).toList) (t' : α) :
    (l.set i t').filterMap f = (f t').toList := by
  obtain ⟨l₁, l₂, rfl, hset⟩ := exists_split_of_getElem? h
  have hcons : ∀ u, (u :: l₂).filterMap f = (f u).toList ++ l₂.filterMap f := by
    intro u
    simp only [filterMap_eq_flatMap_toList, flatMap_cons]
  rw [filterMap_append, hcons] at hl
  have hlen := congrArg length hl
  simp only [length_append] at hlen
  have h₁ : l₁.filterMap f = [] := length_eq_zero_iff.mp (by omega)
  have h₂ : l₂.filterMap f = [] := length_eq_zero_iff.mp (by omega)
  rw [hset, filterMap_append, hcons, h₁, h₂, nil_append, append_nil]

end Pool

end Avix.Lib
