/-
  A character of a text spelled as a pair of another character, and read back.

  `spellPairs c u` writes every `c` as `u u`; `replacePairs u u [c]` reads pairs from the left.

  * `replacePairs_spellPairs_iff`: a text without pairs comes back exactly if no `c` follows a `u`.
  * `Separated.spellPairs_inj`, `exists_spellPairs_eq`: no other text without pairs is spelled the
    same exactly if no `c` stands next to a `u` or to a `c`.
-/
import Avix.Lib.Str

namespace Avix.Lib

open List

section Pairs

variable {c u : Char} {l : List Char}

theorem isChain_iff_not_infix {a b : Char} :
    l.IsChain (fun x y => ¬(x = a ∧ y = b)) ↔ ¬[a, b] <:+: l := by
  rw [isChain_iff_forall_rel_of_append_cons_cons]
  constructor
  · rintro h ⟨s, t, rfl⟩
    exact h (append_assoc s [a, b] t) ⟨rfl, rfl⟩
  · rintro h x y s t rfl ⟨rfl, rfl⟩
    exact h ⟨s, t, by simp⟩

/-- Write `c` as the pair `u u`. -/
def spellPairs (c u : Char) (l : List Char) : List Char :=
  l.flatMap fun d => if d = c then [u, u] else [d]

theorem spellPairs_cons_self (c u : Char) (l : List Char) :
    spellPairs c u (c :: l) = u :: u :: spellPairs c u l := by
  simp [spellPairs]

variable {d : Char}

theorem spellPairs_cons_ne (h : d ≠ c) : spellPairs c u (d :: l) = d :: spellPairs c u l := by
  simp [spellPairs, h]

theorem spellPairs_eq_nil_iff : spellPairs c u l = [] ↔ l = [] := by
  cases l with
  | nil => simp [spellPairs]
  | cons d l =>
    by_cases hd : d = c
    · rw [hd, spellPairs_cons_self]
      simp
    · rw [spellPairs_cons_ne hd]
      simp

theorem head?_spellPairs_eq_iff :
    (spellPairs c u l).head? = some u ↔ l.head? = some u ∨ l.head? = some c := by
  cases l with
  | nil => simp [spellPairs]
  | cons d l =>
    by_cases hd : d = c
    · rw [hd, spellPairs_cons_self]
      simp
    · rw [spellPairs_cons_ne hd]
      simp [hd]

/-- The replacement passes a character that begins no pair. -/
theorem replacePairs_cons {r : List Char} (h : d = u → l.head? ≠ some u) :
    replacePairs u u r (d :: l) = d :: replacePairs u u r l := by
  cases l with
  | nil => rfl
  | cons e l =>
    rw [replacePairs, if_neg]
    rintro ⟨hd, rfl⟩
    exact h hd rfl

theorem replacePairs_spellPairs_iff (hcu : c ≠ u) (hpair : ¬[u, u] <:+: l) :
    replacePairs u u [c] (spellPairs c u l) = l ↔ ¬[u, c] <:+: l := by
  rw [← isChain_iff_not_infix] at hpair ⊢
  induction l with
  | nil => simp [spellPairs, replacePairs]
  | cons d l ih =>
    obtain ⟨hhead, htail⟩ := isChain_cons.mp hpair
    have ih := ih htail
    rw [isChain_cons]
    by_cases hd : d = c
    · subst hd
      rw [spellPairs_cons_self, replacePairs, if_pos ⟨rfl, rfl⟩, singleton_append,
        List.cons.injEq, ih]
      exact ⟨fun h => ⟨fun _ _ hboth => hcu hboth.1, h.2⟩, fun h => ⟨rfl, h.2⟩⟩
    · rw [spellPairs_cons_ne hd]
      by_cases hstart : d = u ∧ l.head? = some c
      · -- The first two of the three `u` are read as a pair.
        obtain ⟨rfl, hc⟩ := hstart
        obtain ⟨l', rfl⟩ : ∃ l', l = c :: l' := by
          cases l with
          | nil => cases hc
          | cons e l' => exact ⟨l', by rw [Option.some.inj hc]⟩
        rw [spellPairs_cons_self, replacePairs, if_pos ⟨rfl, rfl⟩]
        refine iff_of_false (fun h => hcu (List.cons.inj h).1) fun h => ?_
        exact h.1 c rfl ⟨rfl, rfl⟩
      · have hnot : d = u → (spellPairs c u l).head? ≠ some u := by
          intro hdu hu
          rcases head?_spellPairs_eq_iff.mp hu with hu | hc
          · exact hhead u hu ⟨hdu, rfl⟩
          · exact hstart ⟨hdu, hc⟩
        rw [replacePairs_cons hnot, List.cons.injEq, ih]
        refine ⟨fun h => ⟨fun b hb hboth => hstart ⟨hboth.1, ?_⟩, h.2⟩, fun h => ⟨rfl, h.2⟩⟩
        rw [← hboth.2]
        exact hb

/-- No `c` stands next to a `u` or to a `c`. -/
def Separated (c u : Char) (l : List Char) : Prop :=
  ¬[u, c] <:+: l ∧ ¬[c, u] <:+: l ∧ ¬[c, c] <:+: l

theorem Separated.of_cons (h : Separated c u (d :: l)) : Separated c u l :=
  ⟨fun hl => h.1 (hl.trans (suffix_cons d l).isInfix),
    fun hl => h.2.1 (hl.trans (suffix_cons d l).isInfix),
    fun hl => h.2.2 (hl.trans (suffix_cons d l).isInfix)⟩

/-- In a separated list, what follows `c` or `u` is spelled with another character first. -/
theorem Separated.head?_ne (h : Separated c u (d :: l)) (hpair : ¬[u, u] <:+: d :: l)
    (hd : d = c ∨ d = u) : (spellPairs c u l).head? ≠ some u := by
  have hnot : ∀ {e}, l.head? = some e → [d, e] <:+: d :: l := by
    intro e he
    cases l with
    | nil => cases he
    | cons e' l =>
      cases he
      exact ⟨[], l, rfl⟩
  intro hu
  rcases hd with rfl | rfl <;> rcases head?_spellPairs_eq_iff.mp hu with hu | hc
  · exact h.2.1 (hnot hu)
  · exact h.2.2 (hnot hc)
  · exact hpair (hnot hu)
  · exact h.1 (hnot hc)

theorem not_infix_of_cons {p : List Char} (h : ¬p <:+: d :: l) : ¬p <:+: l :=
  fun hl => h (hl.trans (suffix_cons d l).isInfix)

theorem Separated.spellPairs_inj (hcu : c ≠ u) (h : Separated c u l) (hpair : ¬[u, u] <:+: l)
    {m : List Char} (hm : ¬[u, u] <:+: m) (heq : spellPairs c u m = spellPairs c u l) : m = l := by
  induction l generalizing m with
  | nil => exact spellPairs_eq_nil_iff.mp heq
  | cons d l ih =>
    have ih := fun {m} => @ih h.of_cons (not_infix_of_cons hpair) m
    cases m with
    | nil => exact absurd (spellPairs_eq_nil_iff.mp heq.symm) (cons_ne_nil d l)
    | cons e m =>
      have hm' := not_infix_of_cons hm
      by_cases hd : d = c <;> by_cases he : e = c
      · rw [hd, he, spellPairs_cons_self, spellPairs_cons_self] at heq
        rw [hd, he, ih hm' (List.cons.inj (List.cons.inj heq).2).2]
      · -- `c` is spelled by two `u` on the right, but `m` has no pair.
        rw [hd, spellPairs_cons_self, spellPairs_cons_ne he] at heq
        obtain ⟨rfl, hrest⟩ := List.cons.inj heq
        have hhead : (spellPairs c e m).head? = some e := by rw [hrest]; rfl
        rcases head?_spellPairs_eq_iff.mp hhead with hu | hc
        · cases m with
          | nil => cases hu
          | cons f m =>
            cases hu
            exact absurd ⟨[], m, rfl⟩ hm
        · cases m with
          | nil => cases hc
          | cons f m =>
            cases hc
            rw [spellPairs_cons_self] at hrest
            have hnext := (List.cons.inj hrest).2
            refine absurd ?_ (h.head?_ne hpair (.inl hd))
            rw [← hnext]
            rfl
      · rw [he, spellPairs_cons_self, spellPairs_cons_ne hd] at heq
        obtain ⟨hdu, hrest⟩ := List.cons.inj heq
        refine absurd ?_ (h.head?_ne hpair (.inr hdu.symm))
        rw [← hrest]
        rfl
      · rw [spellPairs_cons_ne hd, spellPairs_cons_ne he] at heq
        obtain ⟨rfl, hrest⟩ := List.cons.inj heq
        rw [ih hm' hrest]

theorem spellPairs_append (c u : Char) (l m : List Char) :
    spellPairs c u (l ++ m) = spellPairs c u l ++ spellPairs c u m := flatMap_append

/-- What stands before a `c` ends in no `u`, so that a `u` may follow. -/
theorem not_infix_append_cons {s t t' : List Char} (hpair : ¬[u, u] <:+: s)
    (huc : ¬[u, c] <:+: s ++ c :: t) (ht : ¬[u, u] <:+: u :: t') : ¬[u, u] <:+: s ++ u :: t' := by
  rw [← isChain_iff_not_infix] at hpair huc ht ⊢
  refine isChain_append.mpr ⟨hpair, ht, fun a ha b _ hboth => ?_⟩
  exact (isChain_append.mp huc).2.2 a ha c rfl ⟨hboth.1, rfl⟩

theorem not_infix_cons_of_ne (hd : d ≠ u) (h : ¬[u, u] <:+: l) : ¬[u, u] <:+: d :: l := by
  rw [← isChain_iff_not_infix] at h ⊢
  exact isChain_cons.mpr ⟨fun _ _ hboth => hd hboth.1, h⟩

theorem exists_spellPairs_eq (hcu : c ≠ u) (hpair : ¬[u, u] <:+: l) (huc : ¬[u, c] <:+: l)
    (h : ¬Separated c u l) : ∃ m ≠ l, ¬[u, u] <:+: m ∧ spellPairs c u m = spellPairs c u l := by
  have hother : ∀ s t t' : List Char, l = s ++ c :: t → ¬[u, u] <:+: u :: t' →
      spellPairs c u (u :: t') = spellPairs c u (c :: t) →
      ∃ m ≠ l, ¬[u, u] <:+: m ∧ spellPairs c u m = spellPairs c u l := by
    rintro s t t' rfl ht' hspell
    refine ⟨s ++ u :: t', fun heq => ?_, not_infix_append_cons ?_ huc ht', ?_⟩
    · exact hcu (List.cons.inj (append_cancel_left heq)).1.symm
    · exact fun hs => hpair (hs.trans (prefix_append s _).isInfix)
    · rw [spellPairs_append, spellPairs_append, hspell]
  have hrest : ∀ {s t : List Char} {d : Char}, l = s ++ [c, d] ++ t → ¬[u, u] <:+: t := by
    rintro s t d rfl hl
    exact hpair (hl.trans (suffix_append _ t).isInfix)
  by_cases hc : [c, u] <:+: l
  · obtain ⟨s, t, hl⟩ := hc
    refine hother s (u :: t) (c :: t) (by rw [← hl]; simp) ?_ ?_
    · have ht := not_infix_cons_of_ne hcu (hrest hl.symm)
      rw [← isChain_iff_not_infix] at ht ⊢
      exact isChain_cons_cons.mpr ⟨fun hboth => hcu hboth.2, ht⟩
    · rw [spellPairs_cons_ne hcu.symm, spellPairs_cons_self, spellPairs_cons_self,
        spellPairs_cons_ne hcu.symm]
  · have hcc : [c, c] <:+: l := by
      by_contra hcc
      exact h ⟨huc, hc, hcc⟩
    obtain ⟨s, t, hl⟩ := hcc
    refine hother s (c :: t) (c :: u :: t) (by rw [← hl]; simp) ?_ ?_
    · have ht := hrest hl.symm
      have hcut : ¬[c, u] <:+: c :: t := by
        intro hsub
        refine hc (hsub.trans ?_)
        rw [← hl]
        exact ⟨s ++ [c], [], by simp⟩
      rw [← isChain_iff_not_infix] at ht hcut ⊢
      refine isChain_cons_cons.mpr ⟨fun hboth => hcu hboth.2, ?_⟩
      refine isChain_cons_cons.mpr ⟨fun hboth => hcu hboth.1, ?_⟩
      refine isChain_cons.mpr ⟨fun b hb hboth => ?_, ht⟩
      exact (isChain_cons.mp hcut).1 b hb ⟨rfl, hboth.2⟩
    · rw [spellPairs_cons_ne hcu.symm, spellPairs_cons_self, spellPairs_cons_self,
        spellPairs_cons_ne hcu.symm, spellPairs_cons_self]

end Pairs

end Avix.Lib
