/-
  PARAMS — what the annotations of a resolved configuration say (`params/resolver.rs`).

  An annotation of a field has the value, the layer it came from, and, if a limit moved it, the
  value before and the limits file that did it.

  `annotations_truthful_iff`: all annotations of a result are true (`Truthful`) exactly when the
  input is `Attributable`:

  * the crew whose default wins is tagged as a crew;
  * the temperature moves by more than `f32::EPSILON` or not at all. A smaller move changes the
    configuration and leaves the annotation as it was;
  * the last limits file that has the section of a moved field (the user's, then the crews' from
    the last one, then the system's) rejects the value. The file is named for having the section,
    whether or not it says anything about the field.

  All of this is for any rounding to `f32`.
-/
import Avix.Params.Resolver

namespace Avix.Params

open Option hiding map_map

open List

/-! ## The annotated fields -/

/-- The fields of a configuration, under the names of the variables of `resolve`. -/
inductive ParamField where
  | modelPreference | minContextTokens | maxToolChain
  | episodicEnabled | semanticEnabled | preferencesEnabled | autoInjectAtSpawn
  | autoLogOnSessionEnd
  | snapEnabled | snapInterval | restoreOnCrash
  | temperature | timeoutSec
  | permOwner | permCrew | permWorld
  deriving DecidableEq, Repr

namespace ParamField

/-- In the order in which the annotations are emitted. -/
def all : List ParamField :=
  [modelPreference, minContextTokens, maxToolChain, episodicEnabled, semanticEnabled,
    preferencesEnabled, autoInjectAtSpawn, autoLogOnSessionEnd, snapEnabled, snapInterval,
    restoreOnCrash, temperature, timeoutSec, permOwner, permCrew, permWorld]

/-- The key of the field in the annotations. -/
def key : ParamField → String
  | modelPreference => "entrypoint.modelPreference"
  | minContextTokens => "entrypoint.minContextTokens"
  | maxToolChain => "entrypoint.maxToolChain"
  | episodicEnabled => "memory.episodicEnabled"
  | semanticEnabled => "memory.semanticEnabled"
  | preferencesEnabled => "memory.preferencesEnabled"
  | autoInjectAtSpawn => "memory.autoInjectAtSpawn"
  | autoLogOnSessionEnd => "memory.autoLogOnSessionEnd"
  | snapEnabled => "snapshot.enabled"
  | snapInterval => "snapshot.autoSnapshotIntervalSec"
  | restoreOnCrash => "snapshot.restoreOnCrash"
  | temperature => "environment.temperature"
  | timeoutSec => "environment.timeoutSec"
  | permOwner => "permissionsHint.owner"
  | permCrew => "permissionsHint.crew"
  | permWorld => "permissionsHint.world"

/-- The value that a layer asks for. -/
def asked (d : AgentDefaults) : ParamField → Option YamlValue
  | modelPreference => d.modelPreference.map .string
  | minContextTokens => d.minContextTokens.map .u32
  | maxToolChain => d.maxToolChain.map .u32
  | episodicEnabled => d.episodicEnabled.map .bool
  | semanticEnabled => d.semanticEnabled.map .bool
  | preferencesEnabled => d.preferencesEnabled.map .bool
  | autoInjectAtSpawn => d.autoInjectAtSpawn.map .bool
  | autoLogOnSessionEnd => d.autoLogOnSessionEnd.map .bool
  | snapEnabled => d.snapshotEnabled.map .bool
  | snapInterval => d.autoSnapshotIntervalSec.map .u32
  | restoreOnCrash => d.restoreOnCrash.map .bool
  | temperature => d.temperature.map .f32
  | timeoutSec => d.timeoutSec.map .u32
  | permOwner => d.permOwner.map .string
  | permCrew => d.permCrew.map .string
  | permWorld => d.permWorld.map .string

def resolved (cfg : ResolvedConfig) : ParamField → YamlValue
  | modelPreference => .string cfg.entrypoint.modelPreference
  | minContextTokens => .u32 cfg.entrypoint.minContextTokens
  | maxToolChain => .u32 cfg.entrypoint.maxToolChain
  | episodicEnabled => .bool cfg.memory.episodicEnabled
  | semanticEnabled => .bool cfg.memory.semanticEnabled
  | preferencesEnabled => .bool cfg.memory.preferencesEnabled
  | autoInjectAtSpawn => .bool cfg.memory.autoInjectAtSpawn
  | autoLogOnSessionEnd => .bool cfg.memory.autoLogOnSessionEnd
  | snapEnabled => .bool cfg.snapshot.enabled
  | snapInterval => .u32 cfg.snapshot.autoSnapshotIntervalSec
  | restoreOnCrash => .bool cfg.snapshot.restoreOnCrash
  | temperature => .f32 cfg.environment.temperature
  | timeoutSec => .u32 cfg.environment.timeoutSec
  | permOwner => .string cfg.permissionsHint.owner
  | permCrew => .string cfg.permissionsHint.crew
  | permWorld => .string cfg.permissionsHint.world

/-- The limits have a constraint on the field that does not allow the value. -/
def rejects (l : AgentLimits) : ParamField → YamlValue → Bool
  | modelPreference, .string s => l.modelPreference.any fun c => !c.allows s
  | minContextTokens, .u32 n => l.minContextTokens.any fun c => !c.allows n.toNat
  | maxToolChain, .u32 n => l.maxToolChain.any fun c => !c.allows n.toNat
  | episodicEnabled, .bool b => l.episodicEnabled.any fun c => !c.allows b
  | semanticEnabled, .bool b => l.semanticEnabled.any fun c => !c.allows b
  | snapEnabled, .bool b => l.snapshotEnabled.any fun c => !c.allows b
  | snapInterval, .u32 n => l.autoSnapshotIntervalSec.any fun c => !c.allows n.toNat
  | temperature, .f32 q => l.temperature.any fun c => !c.allows q
  | timeoutSec, .u32 n => l.timeoutSec.any fun c => !c.allows n.toNat
  | _, _ => false

/-- The value after the clamp; only four fields are clamped. -/
def clamped [F32] (l : AgentLimits) : ParamField → YamlValue → YamlValue
  | minContextTokens, .u32 n => .u32 (clampedU32 l.minContextTokens n)
  | maxToolChain, .u32 n => .u32 (clampedU32 l.maxToolChain n)
  | temperature, .f32 q => .f32 (clampedF32 l.temperature q)
  | timeoutSec, .u32 n => .u32 (clampedU32 l.timeoutSec n)
  | _, v => v

/-- The limits say something about the section of the field. -/
def hasSection (l : AgentLimits) : ParamField → Bool
  | modelPreference | minContextTokens | maxToolChain => l.entrypoint.isSome
  | episodicEnabled | semanticEnabled | preferencesEnabled | autoInjectAtSpawn
  | autoLogOnSessionEnd => l.memory.isSome
  | snapEnabled | snapInterval | restoreOnCrash => l.snapshot.isSome
  | temperature | timeoutSec => l.environment.isSome
  | permOwner | permCrew | permWorld => false

end ParamField

open ParamField

/-! ## True annotations -/

section Statement

variable (input : ResolverInput)

/-- A defaults layer: its place in the hierarchy and the source `resolve` writes for it. -/
structure DefaultsLayer where
  place : AnnotationSource
  tag : AnnotationSource := place
  path : Option String
  defaults : AgentDefaults

/-- The layers from the lowest priority to the highest. -/
def placedLayers : List DefaultsLayer :=
  { place := .systemDefaults, path := some input.systemDefaultsPath
    defaults := input.systemDefaults } ::
    input.crewDefaults.map (fun ld =>
      { place := .crewDefaults, tag := ld.source, path := some ld.vfsPath
        defaults := ld.defaults }) ++
    input.userDefaults.toList.map (fun ud =>
      { place := .userDefaults, path := some ud.vfsPath, defaults := ud.defaults }) ++
    [{ place := .manifest, path := none, defaults := input.manifest }]

/-- The layer of highest priority that sets the field. -/
def winner (f : ParamField) : Option DefaultsLayer :=
  (placedLayers input).reverse.find? fun layer => (f.asked layer.defaults).isSome

/-- The value before any clamp. -/
def ParamField.requested (f : ParamField) : Option YamlValue :=
  (winner input f).bind fun layer => f.asked layer.defaults

def limitFiles : List LayeredLimits :=
  ⟨input.systemLimitsPath, input.systemLimits⟩ :: (input.crewLimits ++ input.userLimits.toList)

/-- The last limits file with the section of the field, else the system's. -/
def lastFile (f : ParamField) : LayeredLimits :=
  ((limitFiles input).reverse.find? fun ll => f.hasSection ll.limits).getD
    ⟨input.systemLimitsPath, input.systemLimits⟩

structure Truthful (cfg : ResolvedConfig) (f : ParamField) (a : Annotation) : Prop where
  value : a.value = f.resolved cfg
  source : ∃ layer, winner input f = some layer ∧ a.source = layer.place ∧ a.path = layer.path
  clampedFrom : ∀ v, f.requested input = some v →
    a.clampedFrom = if f.resolved cfg = v then none else some v
  clampedBy : ∀ v, f.requested input = some v → f.resolved cfg ≠ v →
    ∃ file ∈ limitFiles input, a.clampedBy = some file.vfsPath ∧ f.rejects file.limits v = true

/-- The wins of the crews are tagged, a move of the temperature is noticed, and the last limits
    file with the section is one that rejects. -/
structure Attributable [F32] : Prop where
  tagged : ∀ f layer, winner input f = some layer → layer.tag = layer.place
  noticed : ∀ q, ParamField.requested input .temperature = some (.f32 q) →
    clampedF32 (computeEffectiveLimits input).temperature q ≠ q →
      f32Epsilon < |F32.round (clampedF32 (computeEffectiveLimits input).temperature q - q)|
  named : ∀ f v, ParamField.requested input f = some v →
    f.clamped (computeEffectiveLimits input) v ≠ v →
      ∃ file ∈ limitFiles input, file.vfsPath = (lastFile input f).vfsPath ∧
        f.rejects file.limits v = true

end Statement

/-! ## The layer walk -/

/-- The value of a variable as YAML, and its annotation. -/
def Field.seen {α : Type} [ToYaml α] (f : Field α) : Option YamlValue × Option Annotation :=
  (f.value.map ToYaml.toYaml, f.ann)

namespace ParamField

/-- The field's variable. -/
def seen (fs : Fields) : ParamField → Option YamlValue × Option Annotation
  | modelPreference => fs.modelPreference.seen
  | minContextTokens => fs.minContextTokens.seen
  | maxToolChain => fs.maxToolChain.seen
  | episodicEnabled => fs.episodicEnabled.seen
  | semanticEnabled => fs.semanticEnabled.seen
  | preferencesEnabled => fs.preferencesEnabled.seen
  | autoInjectAtSpawn => fs.autoInjectAtSpawn.seen
  | autoLogOnSessionEnd => fs.autoLogOnSessionEnd.seen
  | snapEnabled => fs.snapEnabled.seen
  | snapInterval => fs.snapInterval.seen
  | restoreOnCrash => fs.restoreOnCrash.seen
  | temperature => fs.temperature.seen
  | timeoutSec => fs.timeoutSec.seen
  | permOwner => fs.permOwner.seen
  | permCrew => fs.permCrew.seen
  | permWorld => fs.permWorld.seen

def current (fs : Fields) (f : ParamField) : Option YamlValue := (f.seen fs).1

def ann (fs : Fields) (f : ParamField) : Option Annotation := (f.seen fs).2

end ParamField

/-- What a layer leaves in the variable of a field that it sets. -/
def DefaultsLayer.annotate (layer : DefaultsLayer) (v : YamlValue) : Annotation :=
  { value := v, source := layer.tag, path := layer.path }

/-- A variable that a layer updates with `apply`. -/
theorem current_apply {α : Type} [ToYaml α] {fld fld' : Field α} {new : Option α}
    {source : AnnotationSource} {path : Option String} (h : fld' = fld.apply new source path) :
    fld'.value.map ToYaml.toYaml = (new.map ToYaml.toYaml).or (fld.value.map ToYaml.toYaml) ∧
      fld'.ann = ((new.map ToYaml.toYaml).map fun v =>
        { value := v, source, path : Annotation }).or fld.ann := by
  rw [h]
  cases new with
  | none | some v => exact ⟨rfl, rfl⟩

/-- One layer, field by field. -/
theorem ParamField.applyDefaults (f : ParamField) (source : AnnotationSource)
    (path : Option String) (fs : Fields) (d : AgentDefaults) :
    f.current (applyDefaults source path fs d) = (f.asked d).or (f.current fs) ∧
      f.ann (applyDefaults source path fs d) =
        ((f.asked d).map fun v => { value := v, source, path }).or (f.ann fs) := by
  rw [applyDefaults_eq]
  cases f <;> exact current_apply rfl

theorem defaultLayers_eq (input : ResolverInput) :
    defaultLayers input = (placedLayers input).map fun layer =>
      (layer.tag, layer.path, layer.defaults) := by
  unfold defaultLayers placedLayers
  simp only [map_cons, map_append, map_map, map_nil]
  rfl

/-- After the walk the variable of a field is as the layer of highest priority left it. -/
theorem walk_field (input : ResolverInput) (f : ParamField) :
    f.current (walk input) = f.requested input ∧
      f.ann (walk input) = (winner input f).bind fun layer =>
        (f.asked layer.defaults).map layer.annotate := by
  unfold walk ParamField.requested winner
  rw [defaultLayers_eq, foldl_map]
  induction placedLayers input using reverseRecOn with
  | nil => cases f <;> exact ⟨rfl, rfl⟩
  | append_singleton ls layer ih =>
    rw [foldl_append, foldl_cons, foldl_nil, reverse_append,
      reverse_singleton, singleton_append, find?_cons]
    obtain ⟨hcurr, hann⟩ := f.applyDefaults layer.tag layer.path
      (ls.foldl (fun fs layer => Params.applyDefaults layer.tag layer.path fs layer.defaults) {})
      layer.defaults
    rw [hcurr, hann, ih.1, ih.2]
    cases hasked : f.asked layer.defaults with
    | none => exact ⟨rfl, rfl⟩
    | some v =>
      simp [hasked, DefaultsLayer.annotate]

/-! ## The clamps -/

namespace ParamField

/-- The clamp changes the annotation. -/
def marks [F32] (l : AgentLimits) : ParamField → YamlValue → Bool
  | temperature, .f32 q => f32Epsilon < |F32.round (clampedF32 l.temperature q - q)|
  | f, v => f.clamped l v ≠ v

/-- The file that the annotation of a clamped field names. -/
def clampedByPath (input : ResolverInput) : ParamField → Option String
  | temperature | timeoutSec => effectiveLimitsPathForEnvironment input
  | _ => effectiveLimitsPathForEntrypoint input

def mark [F32] (input : ResolverInput) (l : AgentLimits) (f : ParamField)
    (ann : Option Annotation) : Option YamlValue → Option Annotation
  | some v =>
    if f.marks l v then ann.map fun a =>
      { a with clampedFrom := some v, clampedBy := f.clampedByPath input, value := f.clamped l v }
    else ann
  | none => ann

/-- The clamps do this to the variable of the field. -/
def Clamps [F32] (input : ResolverInput) (l : AgentLimits) (fs : Fields) (f : ParamField) :
    Prop :=
  f.current (clampFields input l fs) = (f.current fs).map (f.clamped l) ∧
    f.ann (clampFields input l fs) = f.mark input l (f.ann fs) (f.current fs)

section Clamps

variable [F32] {input : ResolverInput} {l : AgentLimits} {fs : Fields} {f : ParamField}

theorem clamps_of_unclamped (hclam : ∀ v, f.clamped l v = v) (hmarks : ∀ v, f.marks l v = false)
    (hcurr : f.current (clampFields input l fs) = f.current fs)
    (hann : f.ann (clampFields input l fs) = f.ann fs) : f.Clamps input l fs := by
  unfold Clamps
  rw [hcurr, hann]
  cases f.current fs with
  | none => exact ⟨rfl, rfl⟩
  | some v => exact ⟨congrArg some (hclam v).symm, by rw [mark, hmarks]; rfl⟩

variable {limit : Option RangeConstraint}

theorem clamps_of_u32 {fld : Field UInt32} (hcurr : f.current fs = fld.value.map .u32)
    (hann : f.ann fs = fld.ann)
    (hcurr' : f.current (clampFields input l fs) =
      (fld.clampU32 limit (f.clampedByPath input)).value.map .u32)
    (hann' : f.ann (clampFields input l fs) = (fld.clampU32 limit (f.clampedByPath input)).ann)
    (hclam : ∀ n, f.clamped l (.u32 n) = .u32 (clampedU32 limit n))
    (hmarks : ∀ n, f.marks l (.u32 n) = true ↔ clampedU32 limit n ≠ n) : f.Clamps input l fs := by
  unfold Clamps
  rw [hcurr, hann, hcurr', hann', Field.clampU32_value]
  unfold Field.clampU32
  cases fld.value with
  | none => cases limit <;> exact ⟨rfl, rfl⟩
  | some n =>
    refine ⟨congrArg some (hclam n).symm, ?_⟩
    simp only [map_some, mark, hmarks, hclam]
    cases limit with
    | none => simp [clampedU32]
    | some lim =>
      simp only [clampedU32, bne_iff_ne]
      congr

theorem clamps_of_f32 {fld : Field ℚ} (hcurr : f.current fs = fld.value.map .f32)
    (hann : f.ann fs = fld.ann)
    (hcurr' : f.current (clampFields input l fs) =
      (fld.clampF32 limit (f.clampedByPath input)).value.map .f32)
    (hann' : f.ann (clampFields input l fs) = (fld.clampF32 limit (f.clampedByPath input)).ann)
    (hclam : ∀ q, f.clamped l (.f32 q) = .f32 (clampedF32 limit q))
    (hmarks : ∀ q, f.marks l (.f32 q) = true ↔
      f32Epsilon < |F32.round (clampedF32 limit q - q)|) :
    f.Clamps input l fs := by
  unfold Clamps
  rw [hcurr, hann, hcurr', hann', Field.clampF32_value]
  unfold Field.clampF32
  cases fld.value with
  | none => cases limit <;> exact ⟨rfl, rfl⟩
  | some q =>
    refine ⟨congrArg some (hclam q).symm, ?_⟩
    simp only [map_some, mark, hmarks, hclam]
    cases limit with
    | none => simp [clampedF32, f32Epsilon, F32.round_zero]
    | some lim => rfl

theorem clampFields_clamps : f.Clamps input l fs := by
  cases f with
  | maxToolChain | minContextTokens | timeoutSec =>
    exact clamps_of_u32 rfl rfl rfl rfl (fun _ => rfl) fun n => by simp [marks, clamped]
  | temperature =>
    exact clamps_of_f32 rfl rfl rfl rfl (fun _ => rfl) fun q => by simp [marks]
  | _ => exact clamps_of_unclamped (fun _ => rfl) (fun v => by simp [marks, clamped]) rfl rfl

end Clamps

section Final

variable {fs : Fields} {f : ParamField}

theorem resolved_of_buildConfig {cfg : ResolvedConfig} (h : buildConfig fs = .ok cfg)
    {v : YamlValue} (hv : f.current fs = some v) : f.resolved cfg = v := by
  obtain ⟨model, hmodel, h⟩ := bind_eq_ok_iff.mp h
  obtain ⟨chain, hchain, h⟩ := bind_eq_ok_iff.mp h
  obtain ⟨temp, htemp, h⟩ := bind_eq_ok_iff.mp h
  obtain ⟨timeout, htim, h⟩ := bind_eq_ok_iff.mp h
  cases h
  have hmodel := Field.value_of_required hmodel
  have hchain := Field.value_of_required hchain
  have htemp := Field.value_of_required htemp
  have htim := Field.value_of_required htim
  cases f with
  | modelPreference | maxToolChain | temperature | timeoutSec =>
    simp only [current, seen, Field.seen, hmodel, hchain, htemp, htim, map_some, some.injEq] at hv
    exact hv
  -- the others have a fallback, which does not matter here
  | _ =>
    obtain ⟨w, hw, rfl⟩ := map_eq_some_iff.mp hv
    simp only [resolved, hw, getD_some]
    rfl

end Final

/-! ## The map of annotations -/

theorem mem_all (f : ParamField) : f ∈ all := by
  cases f <;> decide

theorem key_injective {f g : ParamField} (h : f.key = g.key) : f = g := by
  have hall : ∀ f ∈ all, ∀ g ∈ all, f.key = g.key → f = g := by decide
  exact hall f f.mem_all g g.mem_all h

end ParamField

section Emitted

variable {fs : Fields}

/-- The macro `emit_annotation!` on the variable of a field. -/
def emitField (fs : Fields) (annotations : Annotations) (f : ParamField) : Annotations :=
  match f.ann fs with
  | some a => annotations.insert f.key a
  | none => annotations

theorem buildAnnotations_eq : buildAnnotations fs = ParamField.all.foldl (emitField fs) ∅ := rfl

theorem lookup_emitField (annotations : Annotations) (f : ParamField) (key : String) :
    (emitField fs annotations f).lookup key =
      if key = f.key then (f.ann fs).or (annotations.lookup key)
      else annotations.lookup key := by
  unfold emitField
  cases f.ann fs with
  | none => simp
  | some a => exact HashMap.lookup_insert_eq_ite annotations f.key key a

variable {annotations : Annotations} {fields : List ParamField} {a : Annotation}

/-- An annotation in the map is that of one of the variables. -/
theorem of_lookup_emitted {key : String}
    (h : (fields.foldl (emitField fs) annotations).lookup key = some a) :
    annotations.lookup key = some a ∨ ∃ f ∈ fields, f.key = key ∧ f.ann fs = some a := by
  induction fields generalizing annotations with
  | nil => exact .inl h
  | cons g rest ih =>
    rcases ih h with hemit | ⟨f, hf, hkey, ha⟩
    · rw [lookup_emitField] at hemit
      split_ifs at hemit with hg
      · rcases or_eq_some_iff.mp hemit with ha | ⟨-, hold⟩
        · exact .inr ⟨g, mem_cons_self, hg.symm, ha⟩
        · exact .inl hold
      · exact .inl hemit
    · exact .inr ⟨f, mem_cons_of_mem _ hf, hkey, ha⟩

/-- A variable's annotation gets into the map, and nothing else takes its key. -/
theorem lookup_emitted {f : ParamField} (ha : f.ann fs = some a)
    (hf : f ∈ fields ∨ annotations.lookup f.key = some a) :
    (fields.foldl (emitField fs) annotations).lookup f.key = some a := by
  induction fields generalizing annotations with
  | nil => exact hf.resolve_left not_mem_nil
  | cons g rest ih =>
    refine ih ?_
    rw [lookup_emitField]
    by_cases hg : f.key = g.key
    · right
      rw [if_pos hg, ← key_injective hg, ha]
      rfl
    · rw [if_neg hg]
      rcases hf with hmem | hold
      · rcases mem_cons.mp hmem with rfl | hrest
        · exact absurd rfl hg
        · exact .inl hrest
      · exact .inr hold

end Emitted

/-! ## When the annotations are true -/

/-- The file a section comes from if the user has none. -/
theorem crewLimitsPath_eq {σ : Type} (sect : AgentLimits → Option σ) (input : ResolverInput) :
    (match input.crewLimits.reverse.find? fun ll => (sect ll.limits).isSome with
      | some ll => some ll.vfsPath
      | none => some input.systemLimitsPath) =
      some (((input.crewLimits.reverse.find? fun ll => (sect ll.limits).isSome).or
        ([⟨input.systemLimitsPath, input.systemLimits⟩].find? fun ll =>
          (sect ll.limits).isSome)).getD ⟨input.systemLimitsPath, input.systemLimits⟩).vfsPath := by
  cases input.crewLimits.reverse.find? fun ll => (sect ll.limits).isSome with
  | none => cases hs : (sect input.systemLimits).isSome <;> simp [hs]
  | some ll => rfl

/-- The path that `resolve` writes is that of the last file with the section. -/
theorem effectiveLimitsPath_eq {σ : Type} (sect : AgentLimits → Option σ) (input : ResolverInput) :
    effectiveLimitsPath sect input =
      some (((limitFiles input).reverse.find? fun ll => (sect ll.limits).isSome).getD
        ⟨input.systemLimitsPath, input.systemLimits⟩).vfsPath := by
  unfold effectiveLimitsPath limitFiles
  rw [reverse_cons, reverse_append, append_assoc, find?_append, find?_append]
  have hcrews := crewLimitsPath_eq sect input
  cases input.userLimits with
  | none => exact hcrews
  | some ul =>
    cases hu : (sect ul.limits).isSome with
    | false =>
      have hfilt : (some ul).filter (fun ul => (sect ul.limits).isSome) = none := by
        simp [Option.filter, hu]
      have hfind : (some ul).toList.reverse.find? (fun ll => (sect ll.limits).isSome) = none := by
        simp [hu]
      rw [hfilt, hfind, Option.none_or]
      exact hcrews
    | true => simp [Option.filter, hu]

variable {l : AgentLimits} {f : ParamField} {v : YamlValue}

/-- A file is named only for the clamped fields. -/
theorem clampedByPath_eq [F32] {input : ResolverInput} (h : f.clamped l v ≠ v) :
    f.clampedByPath input = some (lastFile input f).vfsPath := by
  cases f with
  | maxToolChain | minContextTokens => exact effectiveLimitsPath_eq AgentLimits.entrypoint input
  | temperature | timeoutSec => exact effectiveLimitsPath_eq AgentLimits.environment input
  | _ => exact absurd rfl h

theorem clamped_ne_of_marks [F32] (h : f.marks l v = true) : f.clamped l v ≠ v := by
  intro heq
  cases f with
  | temperature =>
    cases v with
    | f32 q =>
      have hq : clampedF32 l.temperature q = q := YamlValue.f32.inj heq
      have hmoved : f32Epsilon < |F32.round (clampedF32 l.temperature q - q)| :=
        of_decide_eq_true h
      rw [hq, sub_self, F32.round_zero, abs_zero] at hmoved
      norm_num [f32Epsilon] at hmoved
    | _ => simp [marks, heq] at h
  | _ => simp [marks, heq] at h

/-- Of the fields only the temperature can move unnoticed. -/
theorem marks_of_ne [F32] (h : f.clamped l v ≠ v)
    (hnot : ∀ q, f = .temperature → v = .f32 q → clampedF32 l.temperature q ≠ q →
      f32Epsilon < |F32.round (clampedF32 l.temperature q - q)|) :
    f.marks l v = true := by
  cases f with
  | temperature =>
    cases v with
    | f32 q =>
      have hq : clampedF32 l.temperature q ≠ q := fun heq => h (congrArg YamlValue.f32 heq)
      exact decide_eq_true (hnot q rfl rfl hq)
    | _ => exact absurd rfl h
  | _ => exact decide_eq_true h

section Result

variable {input : ResolverInput} {cfg : ResolvedConfig} {f : ParamField} {layer : DefaultsLayer}
  {v : YamlValue} {a : Annotation}

theorem asked_of_winner (h : winner input f = some layer) :
    ∃ v, f.asked layer.defaults = some v := by
  have hasked : (f.asked layer.defaults).isSome = true :=
    find?_some (p := fun layer : DefaultsLayer => (f.asked layer.defaults).isSome) h
  exact isSome_iff_exists.mp hasked

variable [F32]

/-- What the annotation of a field must say about the clamp is a matter of the clamp being
    noticed and of the file that is named. -/
theorem truthful_iff (hwinn : winner input f = some layer) (hv : f.asked layer.defaults = some v)
    (hcfg : f.resolved cfg = f.clamped (computeEffectiveLimits input) v)
    (ha : f.mark input (computeEffectiveLimits input) (some (layer.annotate v)) (some v) = some a) :
    Truthful input cfg f a ↔ layer.tag = layer.place ∧
      (f.clamped (computeEffectiveLimits input) v ≠ v →
        f.marks (computeEffectiveLimits input) v = true ∧
        ∃ file ∈ limitFiles input, file.vfsPath = (lastFile input f).vfsPath ∧
          f.rejects file.limits v = true) := by
  have hreq : f.requested input = some v := by
    rw [ParamField.requested, hwinn, bind_some, hv]
  dsimp only [mark] at ha
  split_ifs at ha with hmarks
  · -- the clamp has moved the value and changed the annotation
    have hne := clamped_ne_of_marks hmarks
    cases ha
    constructor
    · intro h
      obtain ⟨layer', hwinn', hsour, -⟩ := h.source
      obtain rfl := some.inj (hwinn.symm.trans hwinn')
      obtain ⟨file, hfile, hby, hrej⟩ := h.clampedBy v hreq (hcfg ▸ hne)
      refine ⟨hsour, fun _ => ⟨hmarks, file, hfile, ?_, hrej⟩⟩
      exact some.inj (hby.symm.trans (clampedByPath_eq hne))
    · rintro ⟨htag, hnamed⟩
      obtain ⟨-, file, hfile, hpath, hrej⟩ := hnamed hne
      refine ⟨hcfg.symm, ⟨layer, hwinn, htag, rfl⟩, fun w hw => ?_, fun w hw _ => ?_⟩
      · obtain rfl := some.inj (hreq.symm.trans hw)
        rw [hcfg, if_neg hne]
      · obtain rfl := some.inj (hreq.symm.trans hw)
        exact ⟨file, hfile, (clampedByPath_eq hne).trans (congrArg some hpath.symm), hrej⟩
  · cases ha
    constructor
    · intro h
      obtain ⟨layer', hwinn', hsour, -⟩ := h.source
      obtain rfl := some.inj (hwinn.symm.trans hwinn')
      exact ⟨hsour, fun hne => absurd (hcfg.symm.trans h.value.symm) hne⟩
    · rintro ⟨htag, hnamed⟩
      have heq : f.clamped (computeEffectiveLimits input) v = v := by
        by_contra hne
        exact hmarks (hnamed hne).1
      refine ⟨(hcfg.trans heq).symm, ⟨layer, hwinn, htag, rfl⟩, fun w hw => ?_, fun w hw hne => ?_⟩
      · obtain rfl := some.inj (hreq.symm.trans hw)
        rw [hcfg, if_pos heq]
        rfl
      · obtain rfl := some.inj (hreq.symm.trans hw)
        exact absurd (hcfg.trans heq) hne

/-- The annotation of a variable after the clamps. -/
theorem annotation_clampFields (hwinn : winner input f = some layer)
    (hv : f.asked layer.defaults = some v) (l : AgentLimits) :
    f.current (clampFields input l (walk input)) = some (f.clamped l v) ∧
      f.ann (clampFields input l (walk input)) =
        f.mark input l (some (layer.annotate v)) (some v) := by
  obtain ⟨hwalk, hwalkA⟩ := walk_field input f
  have hclam : f.Clamps input l (walk input) := clampFields_clamps
  rw [ParamField.Clamps, hwalk, hwalkA, ParamField.requested, hwinn, bind_some,
    bind_some, hv] at hclam
  exact hclam

/-- Only a field that some layer sets has an annotation. -/
theorem exists_winner {l : AgentLimits} (h : f.ann (clampFields input l (walk input)) = some a) :
    ∃ layer v, winner input f = some layer ∧ f.asked layer.defaults = some v := by
  obtain ⟨hwalk, hwalkA⟩ := walk_field input f
  have hclam : f.Clamps input l (walk input) := clampFields_clamps
  cases hwinn : winner input f with
  | none =>
    rw [ParamField.Clamps, hwalk, hwalkA, ParamField.requested, hwinn, h] at hclam
    cases hclam.2
  | some layer =>
    obtain ⟨v, hv⟩ := asked_of_winner hwinn
    exact ⟨layer, v, rfl, hv⟩

theorem exists_mark (input : ResolverInput) (l : AgentLimits) (f : ParamField) (ann : Annotation)
    (v : YamlValue) : ∃ a, f.mark input l (some ann) (some v) = some a := by
  dsimp only [mark]
  split_ifs <;> exact ⟨_, rfl⟩

theorem annotations_truthful_iff {anns : Annotations} (h : resolve input = .ok (cfg, anns)) :
    (∀ key a, anns.lookup key = some a → ∃ f : ParamField, f.key = key ∧ Truthful input cfg f a) ↔
      Attributable input := by
  obtain ⟨_, -, h⟩ := bind_eq_ok_iff.mp h
  obtain ⟨resolved, hbuild, h⟩ := bind_eq_ok_iff.mp h
  obtain ⟨rfl, rfl⟩ := Prod.mk.inj (Except.ok.inj h)
  rw [buildAnnotations_eq]
  constructor
  · intro hall
    have hfield : ∀ {f : ParamField} {layer : DefaultsLayer} {v : YamlValue},
        winner input f = some layer → f.asked layer.defaults = some v →
        layer.tag = layer.place ∧ (f.clamped (computeEffectiveLimits input) v ≠ v →
          f.marks (computeEffectiveLimits input) v = true ∧
          ∃ file ∈ limitFiles input, file.vfsPath = (lastFile input f).vfsPath ∧
            f.rejects file.limits v = true) := by
      intro f layer v hwinn hv
      obtain ⟨hcurr, hann⟩ :=
        annotation_clampFields hwinn hv (computeEffectiveLimits input)
      obtain ⟨a, ha⟩ := exists_mark input (computeEffectiveLimits input) f (layer.annotate v) v
      obtain ⟨f', hkey, htrut⟩ := hall f.key a
        (lookup_emitted (hann.trans ha) (.inl f.mem_all))
      obtain rfl := key_injective hkey
      exact (truthful_iff hwinn hv (resolved_of_buildConfig hbuild hcurr) ha).mp
        htrut
    refine ⟨fun f layer hwinn => ?_, fun q hq hne => ?_, fun f v hv hne => ?_⟩
    · obtain ⟨v, hv⟩ := asked_of_winner hwinn
      exact (hfield hwinn hv).1
    · obtain ⟨layer, hwinn, hv⟩ := bind_eq_some_iff.mp hq
      have hmoved : temperature.clamped (computeEffectiveLimits input) (.f32 q) ≠
          .f32 q := fun heq => hne (YamlValue.f32.inj heq)
      exact of_decide_eq_true ((hfield hwinn hv).2 hmoved).1
    · obtain ⟨layer, hwinn, hv⟩ := bind_eq_some_iff.mp hv
      exact ((hfield hwinn hv).2 hne).2
  · intro hattr key a hlook
    rcases of_lookup_emitted hlook with hempty | ⟨f, -, hkey, ha⟩
    · cases hempty
    obtain ⟨layer, v, hwinn, hv⟩ := exists_winner ha
    obtain ⟨hcurr, hann⟩ :=
      annotation_clampFields hwinn hv (computeEffectiveLimits input)
    have hreq : f.requested input = some v := by
      rw [ParamField.requested, hwinn, bind_some, hv]
    refine ⟨f, hkey, (truthful_iff hwinn hv
      (resolved_of_buildConfig hbuild hcurr) (hann.symm.trans ha)).mpr
      ⟨hattr.tagged f layer hwinn, fun hne => ⟨marks_of_ne hne ?_, hattr.named f v hreq hne⟩⟩⟩
    rintro q rfl rfl
    exact hattr.noticed q hreq

end Result

/-! ## Inputs with a limit on the tool chain -/

/-- The manifest asks for a tool chain of 20, the system allows 10. -/
def chainInput : ResolverInput :=
  .ofSystem
    { entrypoint := some { modelPreference := some "claude-sonnet-4" }
      environment := some { temperature := some (7 / 10), timeoutSec := some 300 } }
    { entrypoint := some { maxToolChain := some ⟨some 1, some 10⟩ } }
    { entrypoint := some { maxToolChain := some 20 } }

theorem chainInput_attributable : Attributable chainInput where
  tagged := by
    have hall : ∀ layer ∈ placedLayers chainInput, layer.tag = layer.place := by
      simp [placedLayers, chainInput, ResolverInput.ofSystem]
    intro f layer hwinn
    exact hall layer (mem_reverse.mp (mem_of_find?_eq_some hwinn))
  noticed q _ hne := absurd rfl hne
  named f v hv hne := by
    cases f with
    | maxToolChain =>
      obtain rfl : .u32 20 = v := some.inj hv
      exact ⟨⟨chainInput.systemLimitsPath, chainInput.systemLimits⟩, mem_cons_self, rfl, rfl⟩
    | minContextTokens => cases hv
    | temperature =>
      obtain rfl : .f32 (7 / 10) = v := some.inj hv
      exact absurd rfl hne
    | timeoutSec =>
      obtain rfl : .u32 300 = v := some.inj hv
      exact absurd rfl hne
    | _ => exact absurd rfl hne

theorem annotations_truthful_chain : ∃ cfg anns, resolve chainInput = .ok (cfg, anns) ∧
    (anns.lookup "entrypoint.maxToolChain").map (·.clampedFrom) = some (some (.u32 20)) ∧
    ∀ key a, anns.lookup key = some a →
      ∃ f : ParamField, f.key = key ∧ Truthful chainInput cfg f a := by
  have h : resolve chainInput = .ok (_, _) := rfl
  exact ⟨_, _, h, rfl, (annotations_truthful_iff h).mpr chainInput_attributable⟩

/-- Alice's own limits have an entrypoint section, which is about models only. -/
def aliceLimitsInput : ResolverInput :=
  { chainInput with
    userLimits := some ⟨"/users/alice/limits.yaml",
      { entrypoint := some { modelPreference := some ⟨["claude-sonnet-4"]⟩ } }⟩ }

/-- The temperature is one unit in the last place above the limit. -/
def warmInput : ResolverInput :=
  { chainInput with
    systemLimits := { environment := some { temperature := some ⟨some 0, some 1⟩ } }
    manifest :=
      { entrypoint := some { maxToolChain := some 20 }
        environment := some { temperature := some (1 + 1 / 2 ^ 23) } } }

/-- A number that is an `f32` is not rounded. -/
theorem round_eq_self {q : ℚ} {n : ℤ} (h : q = n * unitInLastPlace q) : F32.round q = q := by
  have hunit : unitInLastPlace q ≠ 0 := zpow_ne_zero _ two_ne_zero
  have hround : roundTiesEven (q / unitInLastPlace q) = n := by
    rw [(div_eq_iff hunit).mpr h]
    simp [roundTiesEven]
  change (roundTiesEven (q / unitInLastPlace q) : ℚ) * unitInLastPlace q = q
  rw [hround, ← h]

/-- The temperature is clamped to 1 and its annotation stays. -/
theorem clampFields_warm :
    clampFields warmInput (computeEffectiveLimits warmInput) (walk warmInput) =
      { walk warmInput with
        temperature := ⟨some 1, some
          { value := .f32 (1 + 1 / 2 ^ 23), source := .manifest, path := none }⟩ } := by
  have hone : F32.round 1 = 1 := by
    refine round_eq_self (n := 2 ^ 23) ?_
    norm_num [unitInLastPlace]
  have hclamp : F32.round (RangeConstraint.clamp ⟨some 0, some 1⟩ (1 + 1 / 2 ^ 23)) = 1 := by
    norm_num [RangeConstraint.clamp, hone]
  have hsmall : ¬|F32.round ((1 : ℚ) - (1 + 1 / 2 ^ 23))| > f32Epsilon := by
    have hlog : Int.log 2 |(1 : ℚ) - (1 + 1 / 2 ^ 23)| = -23 := by
      rw [← Int.log_zpow (R := ℚ) one_lt_two (-23)]
      norm_num
    rw [round_eq_self (n := -2 ^ 23)]
    · norm_num [f32Epsilon]
    · rw [unitInLastPlace, hlog]
      norm_num
  have htemp : (walk warmInput).temperature.clampF32 (some ⟨some 0, some 1⟩)
      (effectiveLimitsPathForEnvironment warmInput) = ⟨some 1, some
        { value := .f32 (1 + 1 / 2 ^ 23), source := .manifest, path := none }⟩ := by
    change (⟨some (F32.round (RangeConstraint.clamp ⟨some 0, some 1⟩ (1 + 1 / 2 ^ 23))), _⟩ :
      Field ℚ) = _
    rw [hclamp, if_neg hsmall]
    rfl
  have hlimit : (computeEffectiveLimits warmInput).temperature = some ⟨some 0, some 1⟩ := rfl
  unfold clampFields
  rw [hlimit, htemp]
  rfl

/-- Alice's file is blamed for a limit of the system's, and a clamped temperature is reported as
    it was. -/
theorem annotations_blame_alice : (∃ cfg anns a, resolve aliceLimitsInput = .ok (cfg, anns) ∧
      anns.lookup "entrypoint.maxToolChain" = some a ∧ a.clampedFrom = some (.u32 20) ∧
      a.clampedBy = some "/users/alice/limits.yaml" ∧
      (∀ file ∈ limitFiles aliceLimitsInput,
        ParamField.maxToolChain.rejects file.limits (.u32 20) = true →
          file.vfsPath = "/kernel/limits/agent-manifest.yaml") ∧
      ¬∃ f : ParamField, f.key = "entrypoint.maxToolChain" ∧ Truthful aliceLimitsInput cfg f a) ∧
    ∃ cfg anns a, resolve warmInput = .ok (cfg, anns) ∧ cfg.environment.temperature = 1 ∧
      anns.lookup "environment.temperature" = some a ∧ a.value = .f32 (1 + 1 / 2 ^ 23) ∧
      a.clampedFrom = none := by
  have hfiles : ∀ file ∈ limitFiles aliceLimitsInput,
      maxToolChain.rejects file.limits (.u32 20) = true →
        file.vfsPath = "/kernel/limits/agent-manifest.yaml" := by decide
  have hwarm : ∃ cfg anns a, resolve warmInput = .ok (cfg, anns) ∧
      cfg.environment.temperature = 1 ∧ anns.lookup "environment.temperature" = some a ∧
      a.value = .f32 (1 + 1 / 2 ^ 23) ∧ a.clampedFrom = none := by
    unfold resolve
    dsimp only
    rw [clampFields_warm]
    exact ⟨_, _, _, rfl, rfl, rfl, rfl, rfl⟩
  refine ⟨⟨_, _, _, rfl, rfl, rfl, rfl, hfiles, ?_⟩, hwarm⟩
  rintro ⟨f, hkey, htrut⟩
  obtain rfl : f = .maxToolChain := key_injective hkey
  obtain ⟨file, hfile, hby, hrej⟩ := htrut.clampedBy (.u32 20) rfl (by decide)
  rw [hfiles file hfile hrej] at hby
  exact absurd (some.inj hby) (by decide)

end Avix.Params
