/-
  Limits layers (`params/limits.rs`).

  Every field of a layer is optional; an absent field, or an absent section, says nothing.
  The limits of several layers are combined by `AgentLimits.intersect`. Each constraint of
  the combination is the combination of the layers' constraints
  (`AgentLimits.maxToolChain_intersect` and its siblings), so the fold over any number of
  layers is again the tightest combination (`intersectAll_range`,
  `intersectAll_modelPreference`).
-/
import Avix.Params.Constraint

namespace Avix.Params

open List

/-! ## Limits -/

structure EntrypointLimits where
  modelPreference : Option EnumConstraint := none
  minContextTokens : Option RangeConstraint := none
  maxToolChain : Option RangeConstraint := none
  deriving DecidableEq, Repr

structure ToolsLimits where
  required : Option SetConstraint := none
  optional : Option SetConstraint := none
  deriving DecidableEq, Repr

structure MemoryLimits where
  episodicEnabled : Option BoolConstraint := none
  semanticEnabled : Option BoolConstraint := none
  deriving DecidableEq, Repr

structure SnapshotLimits where
  enabled : Option BoolConstraint := none
  autoSnapshotIntervalSec : Option RangeConstraint := none
  deriving DecidableEq, Repr

structure EnvironmentLimits where
  temperature : Option RangeConstraint := none
  timeoutSec : Option RangeConstraint := none
  deriving DecidableEq, Repr

/-- `limits::AgentLimits`: `none` means unconstrained at this layer. -/
structure AgentLimits where
  entrypoint : Option EntrypointLimits := none
  tools : Option ToolsLimits := none
  memory : Option MemoryLimits := none
  snapshot : Option SnapshotLimits := none
  environment : Option EnvironmentLimits := none
  deriving DecidableEq, Repr

def intersectEntrypoint (a b : EntrypointLimits) : EntrypointLimits :=
  { modelPreference := intersectOption EnumConstraint.intersect a.modelPreference b.modelPreference
    minContextTokens :=
      intersectOption RangeConstraint.intersect a.minContextTokens b.minContextTokens
    maxToolChain := intersectOption RangeConstraint.intersect a.maxToolChain b.maxToolChain }

def intersectTools (a b : ToolsLimits) : ToolsLimits :=
  { required := intersectOption SetConstraint.intersect a.required b.required
    optional := intersectOption SetConstraint.intersect a.optional b.optional }

def intersectMemory (a b : MemoryLimits) : MemoryLimits :=
  { episodicEnabled := intersectOption BoolConstraint.intersect a.episodicEnabled b.episodicEnabled
    semanticEnabled :=
      intersectOption BoolConstraint.intersect a.semanticEnabled b.semanticEnabled }

def intersectSnapshot (a b : SnapshotLimits) : SnapshotLimits :=
  { enabled := intersectOption BoolConstraint.intersect a.enabled b.enabled
    autoSnapshotIntervalSec :=
      intersectOption RangeConstraint.intersect a.autoSnapshotIntervalSec
        b.autoSnapshotIntervalSec }

def intersectEnvironment (a b : EnvironmentLimits) : EnvironmentLimits :=
  { temperature := intersectOption RangeConstraint.intersect a.temperature b.temperature
    timeoutSec := intersectOption RangeConstraint.intersect a.timeoutSec b.timeoutSec }

namespace AgentLimits

def intersect (a b : AgentLimits) : AgentLimits :=
  { entrypoint := intersectOption intersectEntrypoint a.entrypoint b.entrypoint
    tools := intersectOption intersectTools a.tools b.tools
    memory := intersectOption intersectMemory a.memory b.memory
    snapshot := intersectOption intersectSnapshot a.snapshot b.snapshot
    environment := intersectOption intersectEnvironment a.environment b.environment }

/-! The constraint of one field, through its section. -/

def modelPreference (l : AgentLimits) : Option EnumConstraint :=
  l.entrypoint.bind (·.modelPreference)

def minContextTokens (l : AgentLimits) : Option RangeConstraint :=
  l.entrypoint.bind (·.minContextTokens)

def maxToolChain (l : AgentLimits) : Option RangeConstraint :=
  l.entrypoint.bind (·.maxToolChain)

def episodicEnabled (l : AgentLimits) : Option BoolConstraint :=
  l.memory.bind (·.episodicEnabled)

def semanticEnabled (l : AgentLimits) : Option BoolConstraint :=
  l.memory.bind (·.semanticEnabled)

def snapshotEnabled (l : AgentLimits) : Option BoolConstraint :=
  l.snapshot.bind (·.enabled)

def autoSnapshotIntervalSec (l : AgentLimits) : Option RangeConstraint :=
  l.snapshot.bind (·.autoSnapshotIntervalSec)

def temperature (l : AgentLimits) : Option RangeConstraint :=
  l.environment.bind (·.temperature)

def timeoutSec (l : AgentLimits) : Option RangeConstraint :=
  l.environment.bind (·.timeoutSec)

/-- A field of a combined section is the combination of the fields. -/
theorem intersectOption_bind {σ α : Type} {F : σ → σ → σ} {f : α → α → α} {g : σ → Option α}
    (hg : ∀ x y, g (F x y) = intersectOption f (g x) (g y)) (a b : Option σ) :
    (intersectOption F a b).bind g = intersectOption f (a.bind g) (b.bind g) := by
  cases a with
  | none =>
    cases b with
    | none => rfl
    | some y => simp only [intersectOption, Option.bind_none, Option.bind_some]; cases g y <;> rfl
  | some x =>
    cases b with
    | none => simp only [intersectOption, Option.bind_none, Option.bind_some]; cases g x <;> rfl
    | some y => exact hg x y

variable (a b : AgentLimits)

theorem modelPreference_intersect : (a.intersect b).modelPreference =
    intersectOption EnumConstraint.intersect a.modelPreference b.modelPreference :=
  intersectOption_bind (fun _ _ => rfl) a.entrypoint b.entrypoint

theorem minContextTokens_intersect : (a.intersect b).minContextTokens =
    intersectOption RangeConstraint.intersect a.minContextTokens b.minContextTokens :=
  intersectOption_bind (fun _ _ => rfl) a.entrypoint b.entrypoint

theorem maxToolChain_intersect : (a.intersect b).maxToolChain =
    intersectOption RangeConstraint.intersect a.maxToolChain b.maxToolChain :=
  intersectOption_bind (fun _ _ => rfl) a.entrypoint b.entrypoint

theorem temperature_intersect : (a.intersect b).temperature =
    intersectOption RangeConstraint.intersect a.temperature b.temperature :=
  intersectOption_bind (fun _ _ => rfl) a.environment b.environment

theorem timeoutSec_intersect : (a.intersect b).timeoutSec =
    intersectOption RangeConstraint.intersect a.timeoutSec b.timeoutSec :=
  intersectOption_bind (fun _ _ => rfl) a.environment b.environment

/-! ## Any number of layers -/

/-- The layers combined, in order. -/
def intersectAll (l : AgentLimits) (ls : List AgentLimits) : AgentLimits := ls.foldl intersect l

variable (l : AgentLimits) (ls : List AgentLimits)

theorem intersectAll_concat (x : AgentLimits) :
    intersectAll l (ls ++ [x]) = (intersectAll l ls).intersect x := foldl_concat ..

theorem intersectAll_range {g : AgentLimits → Option RangeConstraint}
    (hg : ∀ a b : AgentLimits, g (a.intersect b) =
      intersectOption RangeConstraint.intersect (g a) (g b)) :
    (g (intersectAll l ls) = none ∧ (l :: ls).filterMap g = []) ∨
      ∃ e, g (intersectAll l ls) = some e ∧ IsMeet ((l :: ls).filterMap g) e := by
  -- the layers are folded in from the left, so the induction takes off the last one
  induction ls using reverseRecOn with
  | nil =>
    cases h : g l with
    | none => left; simp [intersectAll, h]
    | some e => right; exact ⟨e, h, by simpa [h] using IsMeet.singleton e⟩
  | append_singleton ls x ih =>
    have hlist : (l :: (ls ++ [x])).filterMap g = (l :: ls).filterMap g ++ (g x).toList := by
      rw [← cons_append, filterMap_append]
      cases h : g x <;> simp [h]
    rw [intersectAll_concat, hg, hlist]
    rcases ih with ⟨hnone, hnil⟩ | ⟨e, he, hmeet⟩
    · cases h : g x with
      | none => left; simp [hnone, hnil, intersectOption]
      | some e =>
        right
        exact ⟨e, by simp [hnone, intersectOption], by simpa [hnil] using IsMeet.singleton e⟩
    · cases h : g x with
      | none => right; exact ⟨e, by simp [he, intersectOption], by simpa using hmeet⟩
      | some r =>
        right
        exact ⟨e.intersect r, by simp [he, intersectOption], by simpa using hmeet.snoc r⟩

theorem intersectAll_modelPreference (v : String) :
    (∀ c ∈ (intersectAll l ls).modelPreference, c.allows v = true) ↔
      ∀ x ∈ l :: ls, ∀ c ∈ x.modelPreference, c.allows v = true := by
  induction ls using reverseRecOn with
  | nil => simp [intersectAll]
  | append_singleton ls x ih =>
    rw [intersectAll_concat, modelPreference_intersect, ← cons_append, forall_mem_append,
      forall_mem_singleton, ← ih]
    cases (intersectAll l ls).modelPreference <;> cases x.modelPreference <;>
      simp [intersectOption, EnumConstraint.allows_intersect]

end AgentLimits

end Avix.Params
