/-
  PARAMS — layers of defaults as a fold (`params/defaults.rs`, `params/resolver.rs`).

  `resolve_folded`: for every input of the resolver, fold all layers of defaults with
  `merge_over`, from the system's to the manifest's, into one layer, and resolve with this layer
  only and the same limits. The configuration, or the error, is the one of the layer walk.

  Reason. Both ways take, for every field, the value of the last layer that sets it: `merge_over`
  section by section, the walk field by field. A walk over two layers leaves the values that a
  walk over their merge leaves (`applyDefaults_mergeOver`), and a configuration depends on the
  values only, never on the annotations (`config_congr`). Annotations name the layer a value came
  from, so these do differ.
-/
import Avix.Params.Resolver

namespace Avix.Params

/-! ## Merging -/

def mergeOption {α : Type} (mergeFn : α → α → α) : Option α → Option α → Option α
  | some base, some other => some (mergeFn base other)
  | some base, none => some base
  | none, some other => some other
  | none, none => none

def mergeEntrypoint (base other : EntrypointDefaults) : EntrypointDefaults where
  modelPreference := other.modelPreference.or base.modelPreference
  minContextTokens := other.minContextTokens.or base.minContextTokens
  maxToolChain := other.maxToolChain.or base.maxToolChain

def mergeMemory (base other : MemoryDefaults) : MemoryDefaults where
  episodicEnabled := other.episodicEnabled.or base.episodicEnabled
  semanticEnabled := other.semanticEnabled.or base.semanticEnabled
  preferencesEnabled := other.preferencesEnabled.or base.preferencesEnabled
  autoInjectAtSpawn := other.autoInjectAtSpawn.or base.autoInjectAtSpawn
  autoLogOnSessionEnd := other.autoLogOnSessionEnd.or base.autoLogOnSessionEnd

def mergeSnapshot (base other : SnapshotDefaults) : SnapshotDefaults where
  enabled := other.enabled.or base.enabled
  autoSnapshotIntervalSec := other.autoSnapshotIntervalSec.or base.autoSnapshotIntervalSec
  restoreOnCrash := other.restoreOnCrash.or base.restoreOnCrash

def mergeEnvironment (base other : EnvironmentDefaults) : EnvironmentDefaults where
  temperature := other.temperature.or base.temperature
  timeoutSec := other.timeoutSec.or base.timeoutSec

def mergePermissionsHint (base other : PermissionsHintDefaults) : PermissionsHintDefaults where
  owner := other.owner.or base.owner
  crew := other.crew.or base.crew
  world := other.world.or base.world

def AgentDefaults.mergeOver (d other : AgentDefaults) : AgentDefaults where
  entrypoint := mergeOption mergeEntrypoint d.entrypoint other.entrypoint
  memory := mergeOption mergeMemory d.memory other.memory
  snapshot := mergeOption mergeSnapshot d.snapshot other.snapshot
  environment := mergeOption mergeEnvironment d.environment other.environment
  permissionsHint := mergeOption mergePermissionsHint d.permissionsHint other.permissionsHint

def foldedDefaults (input : ResolverInput) : AgentDefaults :=
  ((defaultLayers input).tail.map (·.2.2)).foldl AgentDefaults.mergeOver input.systemDefaults

/-- Only the folded layer, with the same limits. -/
def foldedInput (input : ResolverInput) : ResolverInput :=
  { input with
    systemDefaults := foldedDefaults input
    crewDefaults := []
    userDefaults := none
    manifest := {} }

/-! ## Fields without annotations -/

/-- The value of a field, without what is known about its origin. -/
def Field.bare {α : Type} (f : Field α) : Field α := { value := f.value }

def Fields.bare (fs : Fields) : Fields where
  modelPreference := fs.modelPreference.bare
  minContextTokens := fs.minContextTokens.bare
  maxToolChain := fs.maxToolChain.bare
  episodicEnabled := fs.episodicEnabled.bare
  semanticEnabled := fs.semanticEnabled.bare
  preferencesEnabled := fs.preferencesEnabled.bare
  autoInjectAtSpawn := fs.autoInjectAtSpawn.bare
  autoLogOnSessionEnd := fs.autoLogOnSessionEnd.bare
  snapEnabled := fs.snapEnabled.bare
  snapInterval := fs.snapInterval.bare
  restoreOnCrash := fs.restoreOnCrash.bare
  temperature := fs.temperature.bare
  timeoutSec := fs.timeoutSec.bare
  permOwner := fs.permOwner.bare
  permCrew := fs.permCrew.bare
  permWorld := fs.permWorld.bare

/-- A field of a merged section. -/
theorem bind_mergeOption {σ α : Type} {mergeFn : σ → σ → σ} {g : σ → Option α}
    (h : ∀ base other, g (mergeFn base other) = (g other).or (g base)) (base other : Option σ) :
    (mergeOption mergeFn base other).bind g = (other.bind g).or (base.bind g) := by
  cases base with
  | none => cases other <;> simp [mergeOption]
  | some b =>
    cases other with
    | none => rfl
    | some o => exact h b o

section Bare

variable {s s' : AnnotationSource} {p p' : Option String} {fs fs' : Fields}

theorem Field.bare_apply {α : Type} [ToYaml α] (f : Field α) (new : Option α) :
    (f.apply new s p).bare = { value := new.or f.value } := by
  cases new <;> rfl

/-- The values after a layer depend on the values before it. -/
theorem bare_applyDefaults (h : fs.bare = fs'.bare) (d : AgentDefaults) :
    (applyDefaults s p fs d).bare = (applyDefaults s p fs' d).bare := by
  simp only [Fields.bare, Fields.mk.injEq, Field.bare, Field.mk.injEq, and_true] at h
  simp [applyDefaults_eq, Fields.bare, Field.bare_apply, h]

theorem applyDefaults_mergeOver (fs : Fields) (d d' : AgentDefaults) :
    (applyDefaults s' p' (applyDefaults s p fs d) d').bare =
      (applyDefaults s p fs (d.mergeOver d')).bare := by
  simp only [applyDefaults_eq, Fields.bare, Field.bare_apply, Field.apply_value, Fields.mk.injEq,
    Field.mk.injEq, and_true]
  and_intros
  all_goals
    rw [← Option.or_assoc]
    exact congrArg (Option.or · _) (bind_mergeOption (fun _ _ => rfl) _ _).symm

variable {effective : AgentLimits} {input : ResolverInput}

theorem bare_clampFields [F32] {input' : ResolverInput} (h : fs.bare = fs'.bare) :
    (clampFields input effective fs).bare = (clampFields input' effective fs').bare := by
  simp only [Fields.bare, Fields.mk.injEq, Field.bare, Field.mk.injEq, and_true] at h
  simp [clampFields, Fields.bare, Field.bare, Field.clampU32_value, Field.clampF32_value, h]

theorem config_congr (h : fs.bare = fs'.bare) :
    (checkModel input effective fs >>= fun _ => buildConfig fs) =
      (checkModel input effective fs' >>= fun _ => buildConfig fs') := by
  have hbare : ∀ fs : Fields, (checkModel input effective fs >>= fun _ => buildConfig fs) =
      (checkModel input effective fs.bare >>= fun _ => buildConfig fs.bare) := fun _ => rfl
  rw [hbare fs, h, ← hbare fs']

end Bare

/-! ## The walk as a fold -/

/-- A walk leaves the values that one layer, the merge of all, leaves. -/
theorem bare_walk_layers {s : AnnotationSource} {p : Option String}
    (layers : List (AnnotationSource × Option String × AgentDefaults)) (fs : Fields)
    (d : AgentDefaults) :
    (layers.foldl (fun fs (source, path, d) => applyDefaults source path fs d)
        (applyDefaults s p fs d)).bare =
      (applyDefaults s p fs ((layers.map (·.2.2)).foldl AgentDefaults.mergeOver d)).bare := by
  induction layers using List.reverseRecOn with
  | nil => rfl
  | append_singleton layers layer ih =>
    simp only [List.foldl_append, List.map_append, List.map_cons, List.map_nil, List.foldl_cons,
      List.foldl_nil]
    exact (bare_applyDefaults ih layer.2.2).trans (applyDefaults_mergeOver _ _ _)

theorem bare_walk (input : ResolverInput) :
    (walk (foldedInput input)).bare = (walk input).bare := by
  have hwalk : (walk input).bare = (applyDefaults .systemDefaults (some input.systemDefaultsPath) {}
      (foldedDefaults input)).bare := bare_walk_layers _ _ _
  rw [hwalk]
  rfl

theorem resolve_folded [F32] (input : ResolverInput) :
    (resolve (foldedInput input)).map (·.1) = (resolve input).map (·.1) := by
  have hlim : computeEffectiveLimits (foldedInput input) = computeEffectiveLimits input := rfl
  have hbare : (clampFields (foldedInput input) (computeEffectiveLimits input)
        (walk (foldedInput input))).bare =
      (clampFields input (computeEffectiveLimits input) (walk input)).bare :=
    bare_clampFields (bare_walk input)
  rw [resolve_map_fst, resolve_map_fst, hlim]
  exact config_congr hbare

end Avix.Params
