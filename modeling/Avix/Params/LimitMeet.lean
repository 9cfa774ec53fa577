/-
  PARAMS — limit intersection is the meet of the layers (`AgentLimits::check_defaults` of
  `params/limits.rs`, with `params/resolver.rs`).

  `limit_intersection_is_meet`:
  * `check_defaults` of an intersection accepts a defaults layer exactly when both sides do.
  * Two lists of crew limits with the same members, whatever their order and repetitions, give
    the same outcome of `resolve`: the same configuration, or the same field with the same kind
    of error.

  Reason. Both functions read only ranges and enumerations of the combined limits: the meet of the
  ranges, and the elements of the enumeration. The locks of switches and the tool sets, whose first
  side wins or keeps its order, are read by neither.

  The annotations and the texts of a hard violation follow the order of the crews. Bounds are exact
  rationals; how a clamped value is rounded to an `f32` and how it prints are parameters.
-/
import Avix.Params.Resolver

namespace Avix.Params

open AgentLimits List

/-! ## `check_defaults` -/

structure LimitViolation where
  field : String
  value : String
  deriving DecidableEq, Repr

/-- `c.allows(v as f64)` for a `u32`. -/
def RangeConstraint.allowsU32 (c : RangeConstraint) (v : UInt32) : Bool := c.allows v.toNat

open RangeConstraint

theorem RangeConstraint.allowsU32_intersect (a b : RangeConstraint) (v : UInt32) :
    (a.intersect b).allowsU32 v = (a.allowsU32 v && b.allowsU32 v) :=
  a.allows_intersect b v.toNat

/-- One check: a violation if both the constraint and the value are there and do not fit. -/
def fieldViolation {C V : Type} (field : String) (allows : C → V → Bool) (text : V → String) :
    Option C → Option V → List LimitViolation
  | some c, some v => if allows c v then [] else [⟨field, text v⟩]
  | _, _ => []

section CheckDefaults

variable (showF32 : ℚ → String)

/-- The checks of the entrypoint section. -/
def entrypointViolations (lim : EntrypointLimits) (d : EntrypointDefaults) : List LimitViolation :=
  fieldViolation "entrypoint.maxToolChain" RangeConstraint.allowsU32 toString
      lim.maxToolChain d.maxToolChain ++
    fieldViolation "entrypoint.minContextTokens" RangeConstraint.allowsU32 toString
      lim.minContextTokens d.minContextTokens ++
    fieldViolation "entrypoint.modelPreference" EnumConstraint.allows id
      lim.modelPreference d.modelPreference

/-- The checks of the environment section. -/
def environmentViolations (lim : EnvironmentLimits) (d : EnvironmentDefaults) :
    List LimitViolation :=
  fieldViolation "environment.temperature" RangeConstraint.allows showF32
      lim.temperature d.temperature ++
    fieldViolation "environment.timeoutSec" RangeConstraint.allowsU32 toString
      lim.timeoutSec d.timeoutSec

/-- `AgentLimits::check_defaults`. The other sections are not looked at. -/
def AgentLimits.checkDefaults (l : AgentLimits) (d : AgentDefaults) :
    Except (List LimitViolation) Unit :=
  let entrypoint :=
    match l.entrypoint, d.entrypoint with
    | some lim, some def_ => entrypointViolations lim def_
    | _, _ => []
  let environment :=
    match l.environment, d.environment with
    | some lim, some def_ => environmentViolations showF32 lim def_
    | _, _ => []
  let violations := entrypoint ++ environment
  if violations.isEmpty then .ok () else .error violations

end CheckDefaults

/-! ## What the checks ask for -/

/-- A constraint, if there is one, allows the value, if there is one. -/
def Fits {C V : Type} (allows : C → V → Bool) (c : Option C) (v : Option V) : Prop :=
  ∀ c' ∈ c, ∀ v' ∈ v, allows c' v' = true

variable {C V : Type}

theorem fieldViolation_eq_nil_iff {field : String} {allows : C → V → Bool} {text : V → String}
    {c : Option C} {v : Option V} :
    fieldViolation field allows text c v = [] ↔ Fits allows c v := by
  unfold Fits
  cases c <;> cases v <;> simp [fieldViolation]

/-- Two constraints combined fit a value when each of them does. -/
theorem fits_intersectOption {allows : C → V → Bool} {f : C → C → C}
    (hf : ∀ c c' v, allows (f c c') v = (allows c v && allows c' v)) (c c' : Option C)
    (v : Option V) :
    Fits allows (intersectOption f c c') v ↔ Fits allows c v ∧ Fits allows c' v := by
  unfold Fits
  cases c with
  | none => cases c' <;> simp [intersectOption]
  | some x =>
    cases c' with
    | none => simp [intersectOption]
    | some y =>
      cases v with
      | none => simp [intersectOption]
      | some w => simp [intersectOption, hf]

/-- Every field that is both set and constrained fits. -/
@[mk_iff]
structure Accepts (l : AgentLimits) (d : AgentDefaults) : Prop where
  maxToolChain : Fits RangeConstraint.allowsU32 l.maxToolChain d.maxToolChain
  minContextTokens : Fits RangeConstraint.allowsU32 l.minContextTokens d.minContextTokens
  modelPreference : Fits EnumConstraint.allows l.modelPreference d.modelPreference
  temperature : Fits RangeConstraint.allows l.temperature d.temperature
  timeoutSec : Fits RangeConstraint.allowsU32 l.timeoutSec d.timeoutSec

theorem checkDefaults_eq_ok_iff (showF32 : ℚ → String) (l : AgentLimits) (d : AgentDefaults) :
    l.checkDefaults showF32 d = .ok () ↔ Accepts l d := by
  have hentr : (match l.entrypoint, d.entrypoint with
      | some lim, some def_ => entrypointViolations lim def_
      | _, _ => []) = [] ↔
      Fits allowsU32 l.maxToolChain d.maxToolChain ∧
        Fits allowsU32 l.minContextTokens d.minContextTokens ∧
        Fits EnumConstraint.allows l.modelPreference d.modelPreference := by
    unfold maxToolChain minContextTokens modelPreference
      AgentDefaults.maxToolChain AgentDefaults.minContextTokens AgentDefaults.modelPreference
    cases l.entrypoint with
    | none => simp [Fits]
    | some lim =>
      cases d.entrypoint with
      | none => simp [Fits]
      | some def_ =>
        simp [entrypointViolations, fieldViolation_eq_nil_iff]
  have henv : (match l.environment, d.environment with
      | some lim, some def_ => environmentViolations showF32 lim def_
      | _, _ => []) = [] ↔
      Fits allows l.temperature d.temperature ∧ Fits allowsU32 l.timeoutSec d.timeoutSec := by
    unfold temperature timeoutSec AgentDefaults.temperature AgentDefaults.timeoutSec
    cases l.environment with
    | none => simp [Fits]
    | some lim =>
      cases d.environment with
      | none => simp [Fits]
      | some def_ =>
        simp [environmentViolations, fieldViolation_eq_nil_iff]
  unfold checkDefaults
  dsimp only
  rw [ite_eq_left_iff, List.isEmpty_iff]
  simp only [reduceCtorEq, imp_false, not_not, append_eq_nil_iff]
  rw [hentr, henv, accepts_iff, and_assoc, and_assoc]

theorem accepts_intersect_iff (a b : AgentLimits) (d : AgentDefaults) :
    Accepts (a.intersect b) d ↔ Accepts a d ∧ Accepts b d := by
  simp only [accepts_iff, maxToolChain_intersect, minContextTokens_intersect,
    modelPreference_intersect, temperature_intersect, timeoutSec_intersect,
    fits_intersectOption allowsU32_intersect, fits_intersectOption EnumConstraint.allows_intersect,
    fits_intersectOption allows_intersect]
  tauto

/-! ## The outcome of `resolve` -/

/-- An error without the text that says what is allowed and by which file. -/
inductive ErrorKind where
  | missingRequired (field : String)
  | hardViolation (field value : String)
  deriving DecidableEq, Repr

def ResolutionError.kind : ResolutionError → ErrorKind
  | .missingRequired field => .missingRequired field
  | .hardViolation field value _ _ => .hardViolation field value

def outcome : Except ResolutionError (ResolvedConfig × Annotations) →
    Except ErrorKind ResolvedConfig
  | .ok (cfg, _) => .ok cfg
  | .error e => .error e.kind

/-- Limits that `resolve` cannot tell apart by their constraints. -/
structure SameLimits (l l' : AgentLimits) : Prop where
  maxToolChain : l.maxToolChain = l'.maxToolChain
  minContextTokens : l.minContextTokens = l'.minContextTokens
  temperature : l.temperature = l'.temperature
  timeoutSec : l.timeoutSec = l'.timeoutSec
  modelPreference : ∀ v, (∀ c ∈ l.modelPreference, c.allows v = true) ↔
    ∀ c ∈ l'.modelPreference, c.allows v = true

section Layers

variable {l : AgentLimits} {ls ls' : List AgentLimits} {g : AgentLimits → Option RangeConstraint}

section

variable (hg : ∀ a b : AgentLimits, g (a.intersect b) =
  intersectOption RangeConstraint.intersect (g a) (g b))

include hg

/-- A range of the combined limits is absent only when every layer leaves it open. -/
theorem intersectAll_eq_none_iff : g (intersectAll l ls) = none ↔ ∀ x ∈ l :: ls, g x = none := by
  have hnone : ∀ c c' : Option RangeConstraint,
      intersectOption RangeConstraint.intersect c c' = none ↔ c = none ∧ c' = none := by
    intro c c'
    cases c <;> cases c' <;> simp [intersectOption]
  induction ls using reverseRecOn with
  | nil => simp [intersectAll]
  | append_singleton ls x ih =>
    rw [intersectAll_concat, hg, hnone, ← cons_append, forall_mem_append, forall_mem_singleton]
    exact and_congr_left' ih

/-- A range of the combined limits is determined by the set of layers. -/
theorem intersectAll_range_congr (hmem : ∀ x, x ∈ ls ↔ x ∈ ls') :
    g (intersectAll l ls) = g (intersectAll l ls') := by
  have hlay : ∀ x, x ∈ l :: ls ↔ x ∈ l :: ls' := by
    intro x
    rw [mem_cons, mem_cons, hmem]
  have hrang : ∀ r, r ∈ (l :: ls).filterMap g ↔ r ∈ (l :: ls').filterMap g := by
    intro r
    simp [hlay]
  have hnone : g (intersectAll l ls) = none ↔ g (intersectAll l ls') = none := by
    rw [intersectAll_eq_none_iff hg, intersectAll_eq_none_iff hg]
    exact forall_congr' fun x => imp_congr_left (hlay x)
  rcases intersectAll_range l ls hg with ⟨h, -⟩ | ⟨e, he, hmeet⟩
  · rw [h, hnone.mp h]
  rcases intersectAll_range l ls' hg with ⟨h', -⟩ | ⟨e', he', hmeet'⟩
  · rw [h', hnone.mpr h']
  · rw [he, he', hmeet.unique hrang hmeet']

end

theorem sameLimits_intersectAll (hmem : ∀ x, x ∈ ls ↔ x ∈ ls') :
    SameLimits (intersectAll l ls) (intersectAll l ls') where
  maxToolChain := intersectAll_range_congr maxToolChain_intersect hmem
  minContextTokens := intersectAll_range_congr minContextTokens_intersect hmem
  temperature := intersectAll_range_congr temperature_intersect hmem
  timeoutSec := intersectAll_range_congr timeoutSec_intersect hmem
  modelPreference v := by
    rw [intersectAll_modelPreference, intersectAll_modelPreference]
    refine forall_congr' fun x => imp_congr_left ?_
    rw [mem_cons, mem_cons, hmem]

end Layers

section Resolve

variable {input input' : ResolverInput} {l l' : AgentLimits}

theorem buildConfig_clampFields [F32] (h : SameLimits l l') (fs : Fields) :
    buildConfig (clampFields input l fs) = buildConfig (clampFields input' l' fs) := by
  unfold buildConfig clampFields Field.required
  dsimp only
  simp [Field.clampU32_value, Field.clampF32_value, h.maxToolChain, h.minContextTokens,
    h.temperature, h.timeoutSec]

/-- The model is rejected under both limits or under none. -/
theorem kind_checkModel (input : ResolverInput) (l : AgentLimits) (fs : Fields) :
    (checkModel input l fs).mapError ResolutionError.kind =
      match fs.modelPreference.value with
      | some v => if ∀ c ∈ l.modelPreference, c.allows v = true then .ok ()
        else .error (.hardViolation "entrypoint.modelPreference" v)
      | none => .ok () := by
  unfold checkModel
  cases l.modelPreference with
  | none => cases fs.modelPreference.value <;> simp [Except.mapError]
  | some c =>
    cases fs.modelPreference.value with
    | none => rfl
    | some v =>
      cases hall : c.allows v <;>
        simp [hall, Except.mapError, ResolutionError.kind]

theorem checkModel_congr (h : SameLimits l l') {fs fs' : Fields}
    (hmodel : fs.modelPreference.value = fs'.modelPreference.value) :
    (checkModel input l fs).mapError ResolutionError.kind =
      (checkModel input' l' fs').mapError ResolutionError.kind := by
  rw [kind_checkModel, kind_checkModel, hmodel]
  cases fs'.modelPreference.value with
  | none => rfl
  | some v => simp only [h.modelPreference v]

theorem outcome_resolve [F32] (input : ResolverInput) : outcome (resolve input) =
    let l := computeEffectiveLimits input
    let fs := clampFields input l (walk input)
    (checkModel input l fs).mapError ResolutionError.kind >>= fun _ =>
      (buildConfig fs).mapError ResolutionError.kind := by
  have hout : ∀ r, outcome r = (r.map (·.1)).mapError ResolutionError.kind := by
    rintro (e | ⟨cfg, ann⟩) <;> rfl
  rw [hout, resolve_map_fst]
  dsimp only
  cases checkModel input _ _ <;> rfl

theorem outcome_crewLimits [F32] (input : ResolverInput) {crews : List LayeredLimits}
    (hmem : ∀ l, l ∈ crews ↔ l ∈ input.crewLimits) :
    outcome (resolve { input with crewLimits := crews }) = outcome (resolve input) := by
  have hlay : ∀ x, x ∈ crews.map (·.limits) ++ input.userLimits.toList.map (·.limits) ↔
      x ∈ input.crewLimits.map (·.limits) ++ input.userLimits.toList.map (·.limits) := by
    intro x
    simp [hmem]
  have hsame : SameLimits (computeEffectiveLimits { input with crewLimits := crews })
      (computeEffectiveLimits input) := by
    rw [computeEffectiveLimits_eq, computeEffectiveLimits_eq]
    exact sameLimits_intersectAll hlay
  have hwalk : walk { input with crewLimits := crews } = walk input := rfl
  rw [outcome_resolve, outcome_resolve]
  dsimp only
  rw [hwalk, buildConfig_clampFields hsame, checkModel_congr hsame]
  rfl

end Resolve

theorem limit_intersection_is_meet [F32] :
    (∀ (showF32 : ℚ → String) (a b : AgentLimits) (d : AgentDefaults),
        (a.intersect b).checkDefaults showF32 d = .ok () ↔
          a.checkDefaults showF32 d = .ok () ∧ b.checkDefaults showF32 d = .ok ()) ∧
      ∀ (input : ResolverInput) (crews : List LayeredLimits),
        (∀ l, l ∈ crews ↔ l ∈ input.crewLimits) →
          outcome (resolve { input with crewLimits := crews }) = outcome (resolve input) := by
  constructor
  · intro showF32 a b d
    rw [checkDefaults_eq_ok_iff, checkDefaults_eq_ok_iff, checkDefaults_eq_ok_iff]
    exact accepts_intersect_iff a b d
  · intro input crews hmem
    exact outcome_crewLimits input hmem

/-! ## Two crews -/

def researchCrew : LayeredLimits :=
  ⟨"/crews/research/limits.yaml", { entrypoint := some { maxToolChain := some ⟨none, some 10⟩ } }⟩

def writingCrew : LayeredLimits :=
  ⟨"/crews/writing/limits.yaml", { entrypoint := some { maxToolChain := some ⟨some 2, some 5⟩ } }⟩

/-- A manifest that asks for more than either crew allows. -/
def twoCrewsInput : ResolverInput :=
  { ResolverInput.ofSystem
      { entrypoint := some { modelPreference := some "claude-sonnet-4" }
        environment := some { temperature := some (7 / 10), timeoutSec := some 300 } } {}
      { entrypoint := some { maxToolChain := some 8 } } with
    crewLimits := [researchCrew, writingCrew] }

/-- Swapped, and one of them twice. -/
theorem limit_intersection_swapped_crews :
    (outcome (resolve twoCrewsInput)).map (·.entrypoint.maxToolChain) = .ok 5 ∧
      outcome (resolve { twoCrewsInput with
        crewLimits := [writingCrew, researchCrew, writingCrew] }) =
          outcome (resolve twoCrewsInput) := by
  refine ⟨rfl, limit_intersection_is_meet.2 twoCrewsInput _ fun l => ?_⟩
  simp only [twoCrewsInput, mem_cons, not_mem_nil, or_false]
  tauto

end Avix.Params
