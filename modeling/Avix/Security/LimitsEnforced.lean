/-
  SECURITY — when a resolved configuration respects every limits layer.

  The resolver intersects all limits layers before it clamps, so that a configuration it
  returns should satisfy each of them.

  `limits_respected_iff`: it does exactly when the requests can be met
  (`RequestsMeetLimits`):

  * the model is always within limits: a model outside the intersection is an error;
  * a clamped number is within limits only if the layers leave a value to clamp to. The
    clamp has no error for crossed bounds (it takes the maximum), and for the `u32` fields
    the cast after the clamp can move the value below a fractional minimum;
  * `minContextTokens` left to its fallback, and the memory and snapshot settings always,
    are not compared with any limit.
-/
import Avix.Params.Resolver

namespace Avix.Security

open Params AgentLimits AgentDefaults

/-- Numbers are exact here. -/
local instance exactF32 : F32 := ⟨id, rfl⟩

/-- The configuration satisfies the `allows` check of every constraint of the layer. -/
structure Permits (l : AgentLimits) (cfg : ResolvedConfig) : Prop where
  model : ∀ c ∈ l.modelPreference, c.allows cfg.entrypoint.modelPreference = true
  minContextTokens : ∀ c ∈ l.minContextTokens, c.allows cfg.entrypoint.minContextTokens.toNat = true
  maxToolChain : ∀ c ∈ l.maxToolChain, c.allows cfg.entrypoint.maxToolChain.toNat = true
  episodicEnabled : ∀ c ∈ l.episodicEnabled, c.allows cfg.memory.episodicEnabled = true
  semanticEnabled : ∀ c ∈ l.semanticEnabled, c.allows cfg.memory.semanticEnabled = true
  snapshotEnabled : ∀ c ∈ l.snapshotEnabled, c.allows cfg.snapshot.enabled = true
  autoSnapshotIntervalSec : ∀ c ∈ l.autoSnapshotIntervalSec,
    c.allows cfg.snapshot.autoSnapshotIntervalSec.toNat = true
  temperature : ∀ c ∈ l.temperature, c.allows cfg.environment.temperature = true
  timeoutSec : ∀ c ∈ l.timeoutSec, c.allows cfg.environment.timeoutSec.toNat = true

/-- The ranges the layers put on one field. -/
def ranges (input : ResolverInput) (g : AgentLimits → Option RangeConstraint) :
    List RangeConstraint := (limitLayers input).filterMap g

/-- The locks the layers put on one switch. -/
def locks (input : ResolverInput) (g : AgentLimits → Option BoolConstraint) :
    List BoolConstraint := (limitLayers input).filterMap g

/-- What the layers ask for can be met: the clamped fields have a value to clamp to, and the
    fields that are not clamped are within limits as requested or by fallback. -/
structure RequestsMeetLimits (input : ResolverInput) : Prop where
  maxToolChain : ∀ v ∈ requested input AgentDefaults.maxToolChain,
    IsMeet.ReachableU32 (ranges input AgentLimits.maxToolChain) v
  minContextTokens : ∀ v ∈ requested input AgentDefaults.minContextTokens,
    IsMeet.ReachableU32 (ranges input AgentLimits.minContextTokens) v
  minContextFallback : requested input AgentDefaults.minContextTokens = none →
    ∀ r ∈ ranges input AgentLimits.minContextTokens, r.allows 8000 = true
  timeoutSec : ∀ v ∈ requested input AgentDefaults.timeoutSec,
    IsMeet.ReachableU32 (ranges input AgentLimits.timeoutSec) v
  temperature : IsMeet.Compatible (ranges input AgentLimits.temperature)
  episodicEnabled : ∀ c ∈ locks input AgentLimits.episodicEnabled,
    c.allows ((requested input AgentDefaults.episodicEnabled).getD true) = true
  semanticEnabled : ∀ c ∈ locks input AgentLimits.semanticEnabled,
    c.allows ((requested input AgentDefaults.semanticEnabled).getD true) = true
  snapshotEnabled : ∀ c ∈ locks input AgentLimits.snapshotEnabled,
    c.allows ((requested input AgentDefaults.snapshotEnabled).getD false) = true
  autoSnapshotIntervalSec : ∀ r ∈ ranges input AgentLimits.autoSnapshotIntervalSec,
    r.allows (((requested input AgentDefaults.autoSnapshotIntervalSec).getD 0).toNat) = true

/-! ## One field at a time -/

section Clamped

variable {input : ResolverInput} {g : AgentLimits → Option RangeConstraint}
  (hg : ∀ a b : AgentLimits, g (a.intersect b) =
    intersectOption RangeConstraint.intersect (g a) (g b))

include hg

theorem effective_range (input : ResolverInput) :
    (g (computeEffectiveLimits input) = none ∧ ranges input g = []) ∨
      ∃ e, g (computeEffectiveLimits input) = some e ∧ IsMeet (ranges input g) e := by
  rw [computeEffectiveLimits_eq]
  exact intersectAll_range _ _ hg

theorem clampedU32_allows_iff (v : UInt32) : (∀ r ∈ ranges input g,
    r.allows (clampedU32 (g (computeEffectiveLimits input)) v).toNat = true) ↔
    IsMeet.ReachableU32 (ranges input g) v := by
  rcases effective_range hg input with ⟨-, hnil⟩ | ⟨e, he, hmeet⟩
  · simp [hnil, IsMeet.ReachableU32]
  · rw [he]
    exact hmeet.toU32_clamp_allows_iff v

theorem clampedF32_allows_iff (v : ℚ) :
    (∀ r ∈ ranges input g, r.allows (clampedF32 (g (computeEffectiveLimits input)) v) = true) ↔
      IsMeet.Compatible (ranges input g) := by
  rcases effective_range hg input with ⟨-, hnil⟩ | ⟨e, he, hmeet⟩
  · simp [hnil, IsMeet.Compatible]
  · rw [he]
    exact hmeet.clamp_allows_iff v

end Clamped

/-- All layers permit the configuration, field by field over the layers' constraints. -/
theorem permits_all_iff (input : ResolverInput) (cfg : ResolvedConfig) :
    (∀ l ∈ limitLayers input, Permits l cfg) ↔ (∀ l ∈ limitLayers input, ∀ c ∈ l.modelPreference,
        c.allows cfg.entrypoint.modelPreference = true) ∧
      (∀ r ∈ ranges input minContextTokens, r.allows cfg.entrypoint.minContextTokens.toNat = true) ∧
      (∀ r ∈ ranges input maxToolChain, r.allows cfg.entrypoint.maxToolChain.toNat = true) ∧
      (∀ c ∈ locks input episodicEnabled, c.allows cfg.memory.episodicEnabled = true) ∧
      (∀ c ∈ locks input semanticEnabled, c.allows cfg.memory.semanticEnabled = true) ∧
      (∀ c ∈ locks input snapshotEnabled, c.allows cfg.snapshot.enabled = true) ∧
      (∀ r ∈ ranges input autoSnapshotIntervalSec,
        r.allows cfg.snapshot.autoSnapshotIntervalSec.toNat = true) ∧
      (∀ r ∈ ranges input temperature, r.allows cfg.environment.temperature = true) ∧
      (∀ r ∈ ranges input timeoutSec, r.allows cfg.environment.timeoutSec.toNat = true) := by
  unfold ranges locks
  simp only [List.forall_mem_filterMap]
  constructor
  · intro h
    exact ⟨fun l hl => (h l hl).model, fun l hl => (h l hl).minContextTokens,
      fun l hl => (h l hl).maxToolChain, fun l hl => (h l hl).episodicEnabled,
      fun l hl => (h l hl).semanticEnabled, fun l hl => (h l hl).snapshotEnabled,
      fun l hl => (h l hl).autoSnapshotIntervalSec, fun l hl => (h l hl).temperature,
      fun l hl => (h l hl).timeoutSec⟩
  · rintro ⟨h1, h2, h3, h4, h5, h6, h7, h8, h9⟩ l hl
    exact ⟨h1 l hl, h2 l hl, h3 l hl, h4 l hl, h5 l hl, h6 l hl, h7 l hl, h8 l hl, h9 l hl⟩

theorem limits_respected_iff {input : ResolverInput} {cfg : ResolvedConfig} {ann : Annotations}
    (h : resolve input = .ok (cfg, ann)) :
    (∀ l ∈ limitLayers input, Permits l cfg) ↔ RequestsMeetLimits input := by
  have hres := resolvedFrom_of_resolve h
  have hmodel : ∀ l ∈ limitLayers input, ∀ c ∈ l.modelPreference,
      c.allows cfg.entrypoint.modelPreference = true := by
    have hm := hres.model
    rwa [computeEffectiveLimits_eq, intersectAll_modelPreference] at hm
  obtain ⟨chain, hchain, hchain'⟩ := Option.map_eq_some_iff.mp hres.maxToolChain
  obtain ⟨temp, htemp, htemp'⟩ := Option.map_eq_some_iff.mp hres.temperature
  obtain ⟨timeout, htim, htim'⟩ := Option.map_eq_some_iff.mp hres.timeoutSec
  rw [permits_all_iff, ← hchain', ← htemp', ← htim', hres.minContextTokens,
    hres.episodicEnabled, hres.semanticEnabled, hres.snapshotEnabled,
    hres.autoSnapshotIntervalSec, clampedU32_allows_iff maxToolChain_intersect,
    clampedF32_allows_iff temperature_intersect,
    clampedU32_allows_iff timeoutSec_intersect]
  -- the context size is clamped when a layer sets it and a fallback otherwise
  have hctx : (∀ r ∈ ranges input minContextTokens, r.allows
      (((requested input minContextTokens).map
        (clampedU32 (computeEffectiveLimits input).minContextTokens)).getD 8000).toNat = true) ↔
      (∀ v ∈ requested input minContextTokens,
        IsMeet.ReachableU32 (ranges input minContextTokens) v) ∧
      (requested input minContextTokens = none →
        ∀ r ∈ ranges input minContextTokens, r.allows 8000 = true) := by
    cases requested input minContextTokens with
    | none => simp
    | some v =>
      simpa using clampedU32_allows_iff minContextTokens_intersect v
  rw [hctx]
  constructor
  · rintro ⟨-, ⟨hctx, hfall⟩, h3, h4, h5, h6, h7, h8, h9⟩
    exact ⟨fun v hv => by grind, hctx, hfall, fun v hv => by grind, h8, h4, h5, h6, h7⟩
  · intro hm
    exact ⟨hmodel, ⟨hm.minContextTokens, hm.minContextFallback⟩, hm.maxToolChain chain hchain,
      hm.episodicEnabled, hm.semanticEnabled, hm.snapshotEnabled, hm.autoSnapshotIntervalSec,
      hm.temperature, hm.timeoutSec timeout htim⟩

/-! ## Two inputs -/

/-- System defaults that set what is required. -/
def sampleDefaults : AgentDefaults :=
  { entrypoint := some { modelPreference := some "claude-sonnet-4", maxToolChain := some 100 }
    environment := some { temperature := some (7 / 10), timeoutSec := some 300 } }

/-- One crew caps the tool chain at 50, below the 100 the system defaults ask for. -/
def crewInput : ResolverInput :=
  { ResolverInput.ofSystem sampleDefaults
      { entrypoint := some { maxToolChain := some ⟨some 1, some 200⟩ } } {} with
    crewLimits := [⟨"/crews/research/limits.yaml",
      { entrypoint := some { maxToolChain := some ⟨none, some 50⟩ } }⟩] }

def crewConfig : ResolvedConfig :=
  { entrypoint := ⟨"claude-sonnet-4", 8000, 50⟩
    memory := ⟨true, true, true, true, false⟩
    snapshot := ⟨false, 0, false⟩
    environment := ⟨7 / 10, 300⟩
    permissionsHint := ⟨"rw", "r", "r--"⟩ }

/-- The requests of `crewInput` can be met: the tool chain by the crew's maximum. -/
theorem crewInput_meets : RequestsMeetLimits crewInput where
  maxToolChain := by
    rintro v ⟨⟩
    refine ⟨50, by decide, .inr (.inr ⟨⟨none, some 50⟩, by decide, 50, rfl, by decide, ?_⟩)⟩
    exact Int.floor_natCast 50
  minContextTokens := by rintro v ⟨⟩
  minContextFallback := by decide
  timeoutSec := by
    rintro v ⟨⟩
    exact ⟨300, by decide, .inl rfl⟩
  temperature := by
    rintro r ⟨⟩
  episodicEnabled := by decide
  semanticEnabled := by decide
  snapshotEnabled := by decide
  autoSnapshotIntervalSec := by decide

theorem limits_respected_iff_crew : ∃ ann, resolve crewInput = .ok (crewConfig, ann) ∧
    ∀ l ∈ limitLayers crewInput, Permits l crewConfig := by
  have h : resolve crewInput = .ok (crewConfig, _) := rfl
  exact ⟨_, h, (limits_respected_iff h).mpr crewInput_meets⟩

/-- The system locks episodic memory off and no layer mentions it. -/
def lockedInput : ResolverInput :=
  { crewInput with
    systemLimits := { memory := some { episodicEnabled := some ⟨some false⟩ } }
    crewLimits := [] }

/-- The fallback turns episodic memory on although the system limits lock it off. -/
theorem locked_memory_enabled :
    ∃ cfg ann, resolve lockedInput = .ok (cfg, ann) ∧ cfg.memory.episodicEnabled = true ∧
      lockedInput.systemLimits ∈ limitLayers lockedInput ∧
      ¬ Permits lockedInput.systemLimits cfg := by
  refine ⟨_, _, rfl, rfl, List.mem_cons_self, ?_⟩
  intro hp
  exact absurd (hp.episodicEnabled ⟨some false⟩ rfl) (by decide)

end Avix.Security
