/-
  Constraints on configuration values (`params/constraint.rs`).

  Bounds are `f64` in the source. They are exact rationals here, so rounding, NaN and the
  infinities are outside the model. `as u32` is Rust's saturating cast: truncate towards zero,
  then cut to the range of `u32`.

  * `IsMeet rs e`: the range `e` is the tightest combination of the ranges `rs`. Folding
    `RangeConstraint.intersect` gives it (`IsMeet.snoc`), and then `e` allows exactly what
    all of `rs` allow (`IsMeet.allows_iff`). It depends on the set of the ranges only
    (`IsMeet.unique`).
  * `IsMeet.clamp_allows_iff`: clamping into `e` is allowed by all of `rs` exactly when no
    two of them exclude each other.
  * `IsMeet.toU32_clamp_allows_iff`: the same after the cast to `u32`, where the bound the
    value runs into also has to survive the cast.
-/
import Avix.Types.Basic

namespace Avix.Params

/-- `params::RangeConstraint`: inclusive bounds. -/
structure RangeConstraint where
  min : Option ℚ
  max : Option ℚ
  deriving DecidableEq, Repr

structure EnumConstraint where
  values : List String
  deriving DecidableEq, Repr

structure SetConstraint where
  allowed : List String
  deriving DecidableEq, Repr

/-- `params::BoolConstraint`: `none` leaves the field open. -/
structure BoolConstraint where
  value : Option Bool
  deriving DecidableEq, Repr

/-- `limits::intersect_option`: an absent side leaves the other one. -/
def intersectOption {α : Type} (f : α → α → α) : Option α → Option α → Option α
  | some x, some y => some (f x y)
  | some x, none => some x
  | none, some y => some y
  | none, none => none

/-- `q as u32`. -/
def toU32 (q : ℚ) : UInt32 := UInt32.ofNat (Nat.min ⌊q⌋.toNat (2 ^ 32 - 1))

namespace RangeConstraint

/-- `RangeConstraint::intersect`: the larger minimum and the smaller maximum. -/
def intersect (a b : RangeConstraint) : RangeConstraint :=
  { min := intersectOption Max.max a.min b.min
    max := intersectOption Min.min a.max b.max }

/-- `RangeConstraint::clamp`: the minimum first, then the maximum. -/
def clamp (r : RangeConstraint) (value : ℚ) : ℚ :=
  let v := match r.min with
    | some lo => Max.max value lo
    | none => value
  match r.max with
  | some hi => Min.min v hi
  | none => v

def allows (r : RangeConstraint) (value : ℚ) : Bool :=
  (match r.min with
    | some lo => !decide (value < lo)
    | none => true) &&
  (match r.max with
    | some hi => !decide (hi < value)
    | none => true)

theorem allows_iff (r : RangeConstraint) (v : ℚ) :
    r.allows v = true ↔ (∀ lo, r.min = some lo → lo ≤ v) ∧ (∀ hi, r.max = some hi → v ≤ hi) := by
  obtain ⟨rmin, rmax⟩ := r
  cases rmin <;> cases rmax <;> simp [allows]

/-- What `clamp` does: nothing to an allowed value, else it moves to the minimum or to the
    maximum; with crossed bounds always to the maximum. -/
theorem clamp_cases (r : RangeConstraint) (q : ℚ) : (r.allows q = true ∧ r.clamp q = q) ∨
    (∃ lo, r.min = some lo ∧ q < lo ∧ (∀ hi, r.max = some hi → lo ≤ hi) ∧ r.clamp q = lo) ∨
    ∃ hi, r.max = some hi ∧ (hi < q ∨ ∃ lo, r.min = some lo ∧ hi < lo) ∧ r.clamp q = hi := by
  rw [allows_iff]
  unfold clamp
  obtain ⟨rmin, rmax⟩ := r
  cases rmin <;> cases rmax <;> grind

end RangeConstraint

open RangeConstraint

namespace EnumConstraint

/-- `EnumConstraint::intersect`. -/
def intersect (a b : EnumConstraint) : EnumConstraint :=
  ⟨a.values.filter fun v => b.values.contains v⟩

def allows (c : EnumConstraint) (value : String) : Bool := c.values.any (· == value)

theorem allows_iff (c : EnumConstraint) (v : String) : c.allows v = true ↔ v ∈ c.values := by
  simp [allows]

theorem allows_intersect (a b : EnumConstraint) (v : String) :
    (a.intersect b).allows v = (a.allows v && b.allows v) := by
  rw [Bool.eq_iff_iff, Bool.and_eq_true, allows_iff, allows_iff, allows_iff]
  simp [intersect]

end EnumConstraint

namespace SetConstraint

def intersect (a b : SetConstraint) : SetConstraint :=
  ⟨a.allowed.filter fun v => b.allowed.contains v⟩

end SetConstraint

namespace BoolConstraint

def allows (c : BoolConstraint) (v : Bool) : Bool :=
  match c.value with
  | some locked => v == locked
  | none => true

/-- `BoolConstraint::intersect`: of two locks the one of `a` wins. -/
def intersect (a b : BoolConstraint) : BoolConstraint := ⟨a.value.or b.value⟩

end BoolConstraint

/-! ## The cast to `u32` -/

theorem toNat_toU32 (q : ℚ) : (toU32 q).toNat = Nat.min ⌊q⌋.toNat (2 ^ 32 - 1) := by
  unfold toU32
  rw [UInt32.toNat_ofNat']
  exact Nat.mod_eq_of_lt (lt_of_le_of_lt (Nat.min_le_right _ _) (by decide))

/-- A whole number in the range of `u32` survives the cast. -/
theorem toU32_natCast (v : UInt32) : toU32 (v.toNat : ℚ) = v := by
  apply UInt32.toNat_inj.mp
  have := v.toNat_lt
  rw [toNat_toU32, Int.floor_natCast, Int.toNat_natCast]
  exact Nat.min_eq_left (by omega)

/-- The cast of a non-negative number below a `u32` truncates. -/
theorem toNat_toU32_of_lt {q : ℚ} {v : UInt32} (h : q < v.toNat) : (toU32 q).toNat = ⌊q⌋.toNat := by
  have hv := v.toNat_lt
  have hlt : ⌊q⌋ < (v.toNat : ℤ) := Int.floor_lt.mpr (by exact_mod_cast h)
  rw [toNat_toU32]
  exact Nat.min_eq_left (by omega)

/-- The cast never rounds a non-negative number up. -/
theorem toU32_le {q : ℚ} (h : 0 ≤ q) : ((toU32 q).toNat : ℚ) ≤ q := by
  have hfloor : (⌊q⌋.toNat : ℤ) = ⌊q⌋ := Int.toNat_of_nonneg (Int.floor_nonneg.mpr h)
  have hle : (toU32 q).toNat ≤ ⌊q⌋.toNat := by
    rw [toNat_toU32]
    exact Nat.min_le_left _ _
  calc ((toU32 q).toNat : ℚ) ≤ (⌊q⌋.toNat : ℚ) := by exact_mod_cast hle
    _ = ((⌊q⌋ : ℤ) : ℚ) := by exact_mod_cast congrArg (Int.cast : ℤ → ℚ) hfloor
    _ ≤ q := Int.floor_le q

/-! ## The tightest combination of several ranges -/

/-- `e` carries the largest minimum and the smallest maximum of `rs`. -/
structure IsMeet (rs : List RangeConstraint) (e : RangeConstraint) : Prop where
  min_mem : ∀ lo, e.min = some lo → ∃ r ∈ rs, r.min = some lo
  max_mem : ∀ hi, e.max = some hi → ∃ r ∈ rs, r.max = some hi
  le_min : ∀ r ∈ rs, ∀ lo, r.min = some lo → ∃ lo', e.min = some lo' ∧ lo ≤ lo'
  max_le : ∀ r ∈ rs, ∀ hi, r.max = some hi → ∃ hi', e.max = some hi' ∧ hi' ≤ hi

namespace IsMeet

theorem singleton (r : RangeConstraint) : IsMeet [r] r where
  min_mem _ h := ⟨r, List.mem_singleton_self r, h⟩
  max_mem _ h := ⟨r, List.mem_singleton_self r, h⟩
  le_min _ hr lo h := ⟨lo, List.mem_singleton.mp hr ▸ h, le_rfl⟩
  max_le _ hr hi h := ⟨hi, List.mem_singleton.mp hr ▸ h, le_rfl⟩

theorem snoc {rs : List RangeConstraint} {e : RangeConstraint} (h : IsMeet rs e)
    (r : RangeConstraint) : IsMeet (rs ++ [r]) (e.intersect r) where
  min_mem lo hlo := by
    have := h.min_mem
    unfold intersect intersectOption at hlo
    grind
  max_mem hi hhi := by
    have := h.max_mem
    unfold intersect intersectOption at hhi
    grind
  le_min r' hr lo hlo := by
    have := h.le_min
    unfold intersect intersectOption
    grind
  max_le r' hr hi hhi := by
    have := h.max_le
    unfold intersect intersectOption
    grind

variable {rs : List RangeConstraint} {e : RangeConstraint}

theorem allows_iff (h : IsMeet rs e) (q : ℚ) : e.allows q = true ↔ ∀ r ∈ rs, r.allows q = true := by
  simp only [RangeConstraint.allows_iff]
  constructor
  · rintro ⟨hmin, hmax⟩ r hr
    constructor
    · intro lo hlo
      obtain ⟨lo', he, hle⟩ := h.le_min r hr lo hlo
      exact hle.trans (hmin lo' he)
    · intro hi hhi
      obtain ⟨hi', he, hle⟩ := h.max_le r hr hi hhi
      exact (hmax hi' he).trans hle
  · intro hall
    constructor
    · intro lo hlo
      obtain ⟨r, hr, hrlo⟩ := h.min_mem lo hlo
      exact (hall r hr).1 lo hrlo
    · intro hi hhi
      obtain ⟨r, hr, hrhi⟩ := h.max_mem hi hhi
      exact (hall r hr).2 hi hrhi

variable {rs' : List RangeConstraint} {e' : RangeConstraint}

section

variable (hmem : ∀ r, r ∈ rs ↔ r ∈ rs')

include hmem

/-- A bound of one meet is a bound of any other meet of the same ranges. -/
theorem min_of_meet (h : IsMeet rs e) (h' : IsMeet rs' e') {lo : ℚ} (hlo : e.min = some lo) :
    e'.min = some lo := by
  obtain ⟨r, hr, hrlo⟩ := h.min_mem lo hlo
  obtain ⟨lo', hlo', hle⟩ := h'.le_min r ((hmem r).mp hr) lo hrlo
  obtain ⟨r', hr', hrlo'⟩ := h'.min_mem lo' hlo'
  obtain ⟨lo'', hlo'', hle'⟩ := h.le_min r' ((hmem r').mpr hr') lo' hrlo'
  have heq : lo'' = lo := Option.some.inj (hlo''.symm.trans hlo)
  rw [hlo', le_antisymm hle (heq ▸ hle')]

theorem max_of_meet (h : IsMeet rs e) (h' : IsMeet rs' e') {hi : ℚ} (hhi : e.max = some hi) :
    e'.max = some hi := by
  obtain ⟨r, hr, hrhi⟩ := h.max_mem hi hhi
  obtain ⟨hi', hhi', hle⟩ := h'.max_le r ((hmem r).mp hr) hi hrhi
  obtain ⟨r', hr', hrhi'⟩ := h'.max_mem hi' hhi'
  obtain ⟨hi'', hhi'', hle'⟩ := h.max_le r' ((hmem r').mpr hr') hi' hrhi'
  have heq : hi'' = hi := Option.some.inj (hhi''.symm.trans hhi)
  rw [hhi', le_antisymm hle (heq ▸ hle')]

/-- The meet depends neither on the order of the ranges nor on repetitions. -/
theorem unique (h : IsMeet rs e) (h' : IsMeet rs' e') : e = e' := by
  have hmem' : ∀ r, r ∈ rs' ↔ r ∈ rs := fun r => (hmem r).symm
  have hmin : e.min = e'.min := Option.ext fun lo =>
    ⟨min_of_meet hmem h h', min_of_meet hmem' h' h⟩
  have hmax : e.max = e'.max := Option.ext fun hi =>
    ⟨max_of_meet hmem h h', max_of_meet hmem' h' h⟩
  calc e = ⟨e.min, e.max⟩ := rfl
    _ = ⟨e'.min, e'.max⟩ := by rw [hmin, hmax]
    _ = e' := rfl

end

/-- No minimum of `rs` lies above a maximum of `rs`. -/
def Compatible (rs : List RangeConstraint) : Prop :=
  ∀ r ∈ rs, ∀ r' ∈ rs, ∀ lo hi, r.min = some lo → r'.max = some hi → lo ≤ hi

variable (h : IsMeet rs e)

include h

/-- Clamping reaches every range exactly when no two of them exclude each other. -/
theorem clamp_allows_iff (q : ℚ) : (∀ r ∈ rs, r.allows (e.clamp q) = true) ↔ Compatible rs := by
  constructor
  · intro hall r hr r' hr' lo hi hlo hhi
    exact ((RangeConstraint.allows_iff _ _).mp (hall r hr)).1 lo hlo |>.trans
      (((RangeConstraint.allows_iff _ _).mp (hall r' hr')).2 hi hhi)
  · intro hc
    have hcross : ∀ lo hi, e.min = some lo → e.max = some hi → lo ≤ hi := by
      intro lo hi hlo hhi
      obtain ⟨r, hr, hrlo⟩ := h.min_mem lo hlo
      obtain ⟨r', hr', hrhi⟩ := h.max_mem hi hhi
      exact hc r hr r' hr' lo hi hrlo hrhi
    rw [← h.allows_iff, RangeConstraint.allows_iff]
    rcases e.clamp_cases q with ⟨hq, heq⟩ | ⟨lo, hlo, hlt, hle, heq⟩ | ⟨hi, hhi, hlt, heq⟩
    · rw [heq]
      exact (RangeConstraint.allows_iff _ _).mp hq
    · rw [heq]
      exact ⟨fun lo' h' => by grind, hle⟩
    · rw [heq]
      exact ⟨fun lo h' => hcross lo hi h' hhi, fun hi' h' => by grind⟩

/-- Some `u32` that all of `rs` allow is the value asked for, or a minimum above it, or the
    whole part of a maximum below it. -/
def ReachableU32 (rs : List RangeConstraint) (v : UInt32) : Prop :=
  ∃ n : UInt32, (∀ r ∈ rs, r.allows n.toNat = true) ∧
    (n = v ∨ (v < n ∧ ∃ r ∈ rs, r.min = some (n.toNat : ℚ)) ∨
      ∃ r ∈ rs, ∃ hi, r.max = some hi ∧ hi < v.toNat ∧ ⌊hi⌋ = n.toNat)

/-- A clamped and cast value that is allowed is one of the three kinds above. -/
theorem reachable_of_allows (v : UInt32)
    (hall : ∀ r ∈ rs, r.allows (toU32 (e.clamp v.toNat)).toNat = true) : ReachableU32 rs v := by
  obtain ⟨hmin, hmax⟩ := (RangeConstraint.allows_iff _ _).mp ((h.allows_iff _).mpr hall)
  refine ⟨toU32 (e.clamp v.toNat), hall, ?_⟩
  rcases e.clamp_cases v.toNat with ⟨hq, heq⟩ | ⟨lo, hlo, hlt, hle, heq⟩ | ⟨hi, hhi, hlt, heq⟩
  · left
    rw [heq, toU32_natCast]
  · -- the value moved up to the minimum, and the cast did not move it down again
    right; left
    rw [heq] at hmin ⊢
    have hpos : (0 : ℚ) ≤ lo := le_trans (Nat.cast_nonneg _) hlt.le
    have hcast : ((toU32 lo).toNat : ℚ) = lo := le_antisymm (toU32_le hpos) (hmin lo hlo)
    obtain ⟨r, hr, hrlo⟩ := h.min_mem lo hlo
    refine ⟨?_, r, hr, by rw [hcast, hrlo]⟩
    rw [← hcast] at hlt
    exact UInt32.lt_iff_toNat_lt.mpr (by exact_mod_cast hlt)
  · -- the value moved down to the maximum; crossed bounds are ruled out
    right; right
    rw [heq] at hmin hmax ⊢
    have hle := hmax hi hhi
    have hpos : (0 : ℚ) ≤ hi := le_trans (Nat.cast_nonneg _) hle
    have hlt : hi < v.toNat := by
      rcases hlt with hlt | ⟨lo, hlo, hlt⟩
      · exact hlt
      · exact absurd ((hmin lo hlo).trans hle) (not_le.mpr hlt)
    obtain ⟨r, hr, hrhi⟩ := h.max_mem hi hhi
    refine ⟨r, hr, hi, hrhi, hlt, ?_⟩
    rw [toNat_toU32_of_lt hlt, Int.toNat_of_nonneg (Int.floor_nonneg.mpr hpos)]

/-- Clamping and casting goes to a value of one of the three kinds when there is one. -/
theorem toU32_clamp_of_reachable {v n : UInt32} (hall : ∀ r ∈ rs, r.allows n.toNat = true)
    (hn : n = v ∨ (v < n ∧ ∃ r ∈ rs, r.min = some (n.toNat : ℚ)) ∨
      ∃ r ∈ rs, ∃ hi, r.max = some hi ∧ hi < v.toNat ∧ ⌊hi⌋ = n.toNat) :
    toU32 (e.clamp v.toNat) = n := by
  obtain ⟨hmin, hmax⟩ := (RangeConstraint.allows_iff _ _).mp ((h.allows_iff _).mpr hall)
  rcases hn with rfl | ⟨hlt, r, hr, hrlo⟩ | ⟨r, hr, hi, hrhi, hlt, hfloor⟩
  · have hclamp : e.clamp n.toNat = n.toNat := by
      rcases e.clamp_cases n.toNat with ⟨-, heq⟩ | ⟨lo, hlo, hlt, -⟩ | ⟨hi, hhi, hlt, -⟩
      · exact heq
      · exact absurd (hmin lo hlo) (not_le.mpr hlt)
      · have := hmax hi hhi
        grind
    rw [hclamp, toU32_natCast]
  · have hlt' : (v.toNat : ℚ) < n.toNat := by exact_mod_cast UInt32.lt_iff_toNat_lt.mp hlt
    obtain ⟨lo, hlo, hle⟩ := h.le_min r hr _ hrlo
    obtain rfl : lo = n.toNat := le_antisymm (hmin lo hlo) hle
    have hclamp : e.clamp v.toNat = n.toNat := by
      rcases e.clamp_cases v.toNat with ⟨hq, -⟩ | ⟨lo, hlo', -, -, heq⟩ | ⟨hi, hhi, hor, -⟩
      · exact absurd (((RangeConstraint.allows_iff _ _).mp hq).1 _ hlo) (not_le.mpr hlt')
      · grind
      · have := hmax hi hhi
        grind
    rw [hclamp, toU32_natCast]
  · obtain ⟨hi', hhi', hle⟩ := h.max_le r hr hi hrhi
    have hn' : (n.toNat : ℚ) ≤ hi' := hmax hi' hhi'
    have hclamp : e.clamp v.toNat = hi' := by
      rcases e.clamp_cases v.toNat with ⟨hq, -⟩ | ⟨lo, hlo, hlt', -, -⟩ | ⟨hi, hhi, -, heq⟩
      · have := ((RangeConstraint.allows_iff _ _).mp hq).2 _ hhi'
        grind
      · have := hmin lo hlo
        grind
      · grind
    have hfloor' : ⌊hi'⌋ = n.toNat :=
      le_antisymm (hfloor ▸ Int.floor_le_floor hle) (Int.le_floor.mpr (by exact_mod_cast hn'))
    apply UInt32.toNat_inj.mp
    rw [hclamp, toNat_toU32_of_lt (lt_of_le_of_lt hle hlt), hfloor', Int.toNat_natCast]

theorem toU32_clamp_allows_iff (v : UInt32) :
    (∀ r ∈ rs, r.allows (toU32 (e.clamp v.toNat)).toNat = true) ↔ ReachableU32 rs v := by
  constructor
  · exact h.reachable_of_allows v
  · rintro ⟨n, hall, hn⟩
    rw [h.toU32_clamp_of_reachable hall hn]
    exact hall

end IsMeet

theorem RangeConstraint.allows_intersect (a b : RangeConstraint) (q : ℚ) :
    (a.intersect b).allows q = (a.allows q && b.allows q) := by
  have hmeet : IsMeet ([a] ++ [b]) (a.intersect b) := (IsMeet.singleton a).snoc b
  rw [Bool.eq_iff_iff, Bool.and_eq_true, hmeet.allows_iff]
  simp

end Avix.Params
