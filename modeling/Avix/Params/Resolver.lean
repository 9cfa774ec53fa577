/-
  The parameter resolver (`params/resolver.rs`, with the layers of `params/defaults.rs`).

  `resolve` walks the defaults layers from the system's to the manifest's, the last layer
  that sets a field wins, then clamps four numeric fields against the combined limits,
  rejects a model outside the combined enumeration, and fills what is left from built-in
  fallbacks. Every field carries the annotation that says where its value came from.

  * `walk_value`: the walk gives a field the value of the last layer that sets it.
  * `resolvedFrom_of_resolve`: what an `Ok` result says about the layers, field by field.

  `f32` and `f64` are rationals, as in `Params/Constraint`; how a number is rounded to an `f32` is
  a parameter (`F32`). The loader that reads the layers from the VFS is not part of this module.
-/
import Avix.Params.Limits

namespace Avix.Params

/-! ## Defaults layers -/

structure EntrypointDefaults where
  modelPreference : Option String := none
  minContextTokens : Option UInt32 := none
  maxToolChain : Option UInt32 := none
  deriving DecidableEq, Repr

structure MemoryDefaults where
  episodicEnabled : Option Bool := none
  semanticEnabled : Option Bool := none
  preferencesEnabled : Option Bool := none
  autoInjectAtSpawn : Option Bool := none
  autoLogOnSessionEnd : Option Bool := none
  deriving DecidableEq, Repr

structure SnapshotDefaults where
  enabled : Option Bool := none
  autoSnapshotIntervalSec : Option UInt32 := none
  restoreOnCrash : Option Bool := none
  deriving DecidableEq, Repr

structure EnvironmentDefaults where
  temperature : Option ℚ := none
  timeoutSec : Option UInt32 := none
  deriving DecidableEq, Repr

structure PermissionsHintDefaults where
  owner : Option String := none
  crew : Option String := none
  world : Option String := none
  deriving DecidableEq, Repr

/-- `defaults::AgentDefaults`: `none` means not set at this layer. -/
structure AgentDefaults where
  entrypoint : Option EntrypointDefaults := none
  memory : Option MemoryDefaults := none
  snapshot : Option SnapshotDefaults := none
  environment : Option EnvironmentDefaults := none
  permissionsHint : Option PermissionsHintDefaults := none
  deriving DecidableEq, Repr

/-! ## Resolved configuration and provenance -/

structure ResolvedEntrypoint where
  modelPreference : String
  minContextTokens : UInt32
  maxToolChain : UInt32
  deriving DecidableEq, Repr

structure ResolvedMemory where
  episodicEnabled : Bool
  semanticEnabled : Bool
  preferencesEnabled : Bool
  autoInjectAtSpawn : Bool
  autoLogOnSessionEnd : Bool
  deriving DecidableEq, Repr

structure ResolvedSnapshot where
  enabled : Bool
  autoSnapshotIntervalSec : UInt32
  restoreOnCrash : Bool
  deriving DecidableEq, Repr

structure ResolvedEnvironment where
  temperature : ℚ
  timeoutSec : UInt32
  deriving DecidableEq, Repr

structure ResolvedPermissionsHint where
  owner : String
  crew : String
  world : String
  deriving DecidableEq, Repr

structure ResolvedConfig where
  entrypoint : ResolvedEntrypoint
  memory : ResolvedMemory
  snapshot : ResolvedSnapshot
  environment : ResolvedEnvironment
  permissionsHint : ResolvedPermissionsHint
  deriving DecidableEq, Repr

inductive AnnotationSource where
  | systemDefaults | systemLimits | userDefaults | userLimits | crewDefaults | crewLimits
  | manifest
  deriving DecidableEq, Repr

/-- The `serde_yaml::Value`s an annotation can hold. -/
inductive YamlValue where
  | bool (b : Bool)
  | u32 (n : UInt32)
  | f32 (q : ℚ)
  | string (s : String)
  deriving DecidableEq, Repr

/-- `Into<serde_yaml::Value>`. -/
class ToYaml (α : Type) where
  toYaml : α → YamlValue

instance : ToYaml Bool := ⟨.bool⟩
instance : ToYaml UInt32 := ⟨.u32⟩
instance : ToYaml ℚ := ⟨.f32⟩
instance : ToYaml String := ⟨.string⟩

/-- `resolver::Annotation`. -/
structure Annotation where
  value : YamlValue
  source : AnnotationSource
  path : Option String
  clampedFrom : Option YamlValue := none
  clampedBy : Option String := none
  note : Option String := none
  deriving DecidableEq, Repr

abbrev Annotations := HashMap String Annotation

/-! ## Input -/

structure LayeredDefaults where
  vfsPath : String
  source : AnnotationSource
  defaults : AgentDefaults
  deriving DecidableEq, Repr

structure LayeredLimits where
  vfsPath : String
  limits : AgentLimits
  deriving DecidableEq, Repr

structure ResolverInput where
  systemDefaults : AgentDefaults
  systemDefaultsPath : String
  systemLimits : AgentLimits
  systemLimitsPath : String
  crewLimits : List LayeredLimits
  crewDefaults : List LayeredDefaults
  userDefaults : Option LayeredDefaults
  userLimits : Option LayeredLimits
  manifest : AgentDefaults
  deriving DecidableEq, Repr

/-- The files of the system and the manifest, without crews and user. -/
def ResolverInput.ofSystem (systemDefaults : AgentDefaults) (systemLimits : AgentLimits)
    (manifest : AgentDefaults) : ResolverInput where
  systemDefaults
  systemDefaultsPath := "/kernel/defaults/agent-manifest.yaml"
  systemLimits
  systemLimitsPath := "/kernel/limits/agent-manifest.yaml"
  crewLimits := []
  crewDefaults := []
  userDefaults := none
  userLimits := none
  manifest

inductive ResolutionError where
  | missingRequired (field : String)
  | hardViolation (field value : String) (allowed : List String) (constrainedBy : String)
  deriving DecidableEq, Repr

/-! ## The layer walk -/

/-- `resolver::Field`: the winning value of a field so far and its annotation. -/
structure Field (α : Type) where
  value : Option α := none
  ann : Option Annotation := none

def Field.apply {α : Type} [ToYaml α] (f : Field α) (newValue : Option α)
    (source : AnnotationSource) (path : Option String) : Field α :=
  match newValue with
  | some v => { value := some v, ann := some { value := ToYaml.toYaml v, source, path } }
  | none => f

/-- The local variables of `resolve`, one for each field. -/
structure Fields where
  modelPreference : Field String := {}
  minContextTokens : Field UInt32 := {}
  maxToolChain : Field UInt32 := {}
  episodicEnabled : Field Bool := {}
  semanticEnabled : Field Bool := {}
  preferencesEnabled : Field Bool := {}
  autoInjectAtSpawn : Field Bool := {}
  autoLogOnSessionEnd : Field Bool := {}
  snapEnabled : Field Bool := {}
  snapInterval : Field UInt32 := {}
  restoreOnCrash : Field Bool := {}
  temperature : Field ℚ := {}
  timeoutSec : Field UInt32 := {}
  permOwner : Field String := {}
  permCrew : Field String := {}
  permWorld : Field String := {}

section ApplyDefaults

variable (source : AnnotationSource) (path : Option String)

def applyEntrypoint (fs : Fields) : Option EntrypointDefaults → Fields
  | none => fs
  | some ep =>
    { fs with
      modelPreference := fs.modelPreference.apply ep.modelPreference source path
      minContextTokens := fs.minContextTokens.apply ep.minContextTokens source path
      maxToolChain := fs.maxToolChain.apply ep.maxToolChain source path }

def applyMemory (fs : Fields) : Option MemoryDefaults → Fields
  | none => fs
  | some mem =>
    { fs with
      episodicEnabled := fs.episodicEnabled.apply mem.episodicEnabled source path
      semanticEnabled := fs.semanticEnabled.apply mem.semanticEnabled source path
      preferencesEnabled := fs.preferencesEnabled.apply mem.preferencesEnabled source path
      autoInjectAtSpawn := fs.autoInjectAtSpawn.apply mem.autoInjectAtSpawn source path
      autoLogOnSessionEnd := fs.autoLogOnSessionEnd.apply mem.autoLogOnSessionEnd source path }

def applySnapshot (fs : Fields) : Option SnapshotDefaults → Fields
  | none => fs
  | some snap =>
    { fs with
      snapEnabled := fs.snapEnabled.apply snap.enabled source path
      snapInterval := fs.snapInterval.apply snap.autoSnapshotIntervalSec source path
      restoreOnCrash := fs.restoreOnCrash.apply snap.restoreOnCrash source path }

def applyEnvironment (fs : Fields) : Option EnvironmentDefaults → Fields
  | none => fs
  | some env =>
    { fs with
      temperature := fs.temperature.apply env.temperature source path
      timeoutSec := fs.timeoutSec.apply env.timeoutSec source path }

def applyPermissionsHint (fs : Fields) : Option PermissionsHintDefaults → Fields
  | none => fs
  | some ph =>
    { fs with
      permOwner := fs.permOwner.apply ph.owner source path
      permCrew := fs.permCrew.apply ph.crew source path
      permWorld := fs.permWorld.apply ph.world source path }

/-- The macro `apply_defaults!`. -/
def applyDefaults (fs : Fields) (d : AgentDefaults) : Fields :=
  let fs := applyEntrypoint source path fs d.entrypoint
  let fs := applyMemory source path fs d.memory
  let fs := applySnapshot source path fs d.snapshot
  let fs := applyEnvironment source path fs d.environment
  applyPermissionsHint source path fs d.permissionsHint

end ApplyDefaults

/-- The defaults layers from the lowest priority to the highest, as `resolve` applies them. -/
def defaultLayers (input : ResolverInput) :
    List (AnnotationSource × Option String × AgentDefaults) :=
  (.systemDefaults, some input.systemDefaultsPath, input.systemDefaults) ::
    input.crewDefaults.map (fun ld => (ld.source, some ld.vfsPath, ld.defaults)) ++
    input.userDefaults.toList.map (fun ud => (.userDefaults, some ud.vfsPath, ud.defaults)) ++
    [(.manifest, none, input.manifest)]

/-- Step 2 of `resolve`. -/
def walk (input : ResolverInput) : Fields :=
  (defaultLayers input).foldl (fun fs (source, path, d) => applyDefaults source path fs d) {}

/-! ## Limits -/

/-- The limits layers: the system's, the crews' in order, the user's. -/
def limitLayers (input : ResolverInput) : List AgentLimits :=
  input.systemLimits :: (input.crewLimits.map (·.limits) ++ input.userLimits.toList.map (·.limits))

/-- `ParamResolver::compute_effective_limits`. -/
def computeEffectiveLimits (input : ResolverInput) : AgentLimits :=
  let effective := (input.crewLimits.map (·.limits)).foldl AgentLimits.intersect input.systemLimits
  match input.userLimits with
  | some ul => effective.intersect ul.limits
  | none => effective

/-- The file named as the one that clamped a field of a section: the user's limits, else the
    last crew's, if they have that section, else the system's. -/
def effectiveLimitsPath {σ : Type} (sect : AgentLimits → Option σ) (input : ResolverInput) :
    Option String :=
  match input.userLimits.filter fun ul => (sect ul.limits).isSome with
  | some ul => some ul.vfsPath
  | none =>
    match input.crewLimits.reverse.find? fun ll => (sect ll.limits).isSome with
    | some ll => some ll.vfsPath
    | none => some input.systemLimitsPath

def effectiveLimitsPathForEntrypoint : ResolverInput → Option String :=
  effectiveLimitsPath AgentLimits.entrypoint

def effectiveLimitsPathForEnvironment : ResolverInput → Option String :=
  effectiveLimitsPath AgentLimits.environment

def effectiveEnumLimitsPath (input : ResolverInput) : String :=
  (effectiveLimitsPathForEntrypoint input).getD input.systemLimitsPath

/-- The clamp of a `u32` field: the annotation changes only with the value. -/
def Field.clampU32 (f : Field UInt32) (limit : Option RangeConstraint)
    (clampedBy : Option String) : Field UInt32 :=
  match limit, f.value with
  | some lim, some v =>
    let clamped := toU32 (lim.clamp v.toNat)
    { value := some clamped
      ann :=
        if clamped != v then
          f.ann.map fun ann =>
            { ann with clampedFrom := some (.u32 v), clampedBy, value := .u32 clamped }
        else f.ann }
  | _, _ => f

/-- `f32::EPSILON`. -/
def f32Epsilon : ℚ := 1 / 2 ^ 23

/-- How `as f32` and the operations on `f32` round. -/
class F32 where
  round : ℚ → ℚ
  round_zero : round 0 = 0

/-- The nearest integer, and the even one of two. -/
def roundTiesEven (x : ℚ) : ℤ :=
  if x - ⌊x⌋ < 1 / 2 ∨ x - ⌊x⌋ = 1 / 2 ∧ 2 ∣ ⌊x⌋ then ⌊x⌋ else ⌊x⌋ + 1

/-- The place of the last of 24 bits, where the exponent allows them all. -/
def unitInLastPlace (q : ℚ) : ℚ := 2 ^ max (Int.log 2 |q| - 23) (-149)

/-- IEEE 754, for numbers that do not round to an infinity. -/
instance nearestF32 : F32 where
  round q := roundTiesEven (q / unitInLastPlace q) * unitInLastPlace q
  round_zero := by simp [roundTiesEven]

/-- The clamp of the temperature: the annotation changes only when the value moves by more
    than `f32::EPSILON`. -/
def Field.clampF32 [F32] (f : Field ℚ) (limit : Option RangeConstraint)
    (clampedBy : Option String) : Field ℚ :=
  match limit, f.value with
  | some lim, some v =>
    let clamped := F32.round (lim.clamp v)
    { value := some clamped
      ann :=
        if |F32.round (clamped - v)| > f32Epsilon then
          f.ann.map fun ann =>
            { ann with clampedFrom := some (.f32 v), clampedBy, value := .f32 clamped }
        else f.ann }
  | _, _ => f

/-- The clamps of step 3. -/
def clampFields [F32] (input : ResolverInput) (effective : AgentLimits) (fs : Fields) : Fields :=
  { fs with
    maxToolChain := fs.maxToolChain.clampU32 effective.maxToolChain
      (effectiveLimitsPathForEntrypoint input)
    minContextTokens := fs.minContextTokens.clampU32 effective.minContextTokens
      (effectiveLimitsPathForEntrypoint input)
    temperature := fs.temperature.clampF32 effective.temperature
      (effectiveLimitsPathForEnvironment input)
    timeoutSec := fs.timeoutSec.clampU32 effective.timeoutSec
      (effectiveLimitsPathForEnvironment input) }

/-- The enumeration check of step 3. -/
def checkModel (input : ResolverInput) (effective : AgentLimits) (fs : Fields) :
    Except ResolutionError Unit :=
  match effective.modelPreference, fs.modelPreference.value with
  | some enumC, some v =>
    if enumC.allows v then .ok ()
    else .error (.hardViolation "entrypoint.modelPreference" v enumC.values
      (effectiveEnumLimitsPath input))
  | _, _ => .ok ()

/-! ## Building the result -/

def Field.required {α : Type} (f : Field α) (name : String) : Except ResolutionError α :=
  match f.value with
  | some v => .ok v
  | none => .error (.missingRequired name)

/-- Step 4 of `resolve`. -/
def buildConfig (fs : Fields) : Except ResolutionError ResolvedConfig := do
  let modelPreference ← fs.modelPreference.required "entrypoint.modelPreference"
  let maxToolChain ← fs.maxToolChain.required "entrypoint.maxToolChain"
  let temperature ← fs.temperature.required "environment.temperature"
  let timeoutSec ← fs.timeoutSec.required "environment.timeoutSec"
  return {
    entrypoint := {
      modelPreference, maxToolChain
      minContextTokens := fs.minContextTokens.value.getD 8000 }
    memory := {
      episodicEnabled := fs.episodicEnabled.value.getD true
      semanticEnabled := fs.semanticEnabled.value.getD true
      preferencesEnabled := fs.preferencesEnabled.value.getD true
      autoInjectAtSpawn := fs.autoInjectAtSpawn.value.getD true
      autoLogOnSessionEnd := fs.autoLogOnSessionEnd.value.getD false }
    snapshot := {
      enabled := fs.snapEnabled.value.getD false
      autoSnapshotIntervalSec := fs.snapInterval.value.getD 0
      restoreOnCrash := fs.restoreOnCrash.value.getD false }
    environment := { temperature, timeoutSec }
    permissionsHint := {
      owner := fs.permOwner.value.getD "rw"
      crew := fs.permCrew.value.getD "r"
      world := fs.permWorld.value.getD "r--" } }

/-- The macro `emit_annotation!`. -/
def emitAnnotation {α : Type} (f : Field α) (key : String) (annotations : Annotations) :
    Annotations :=
  match f.ann with
  | some ann => annotations.insert key ann
  | none => annotations

/-- Step 5 of `resolve`. -/
def buildAnnotations (fs : Fields) : Annotations :=
  (∅ : Annotations)
    |> emitAnnotation fs.modelPreference "entrypoint.modelPreference"
    |> emitAnnotation fs.minContextTokens "entrypoint.minContextTokens"
    |> emitAnnotation fs.maxToolChain "entrypoint.maxToolChain"
    |> emitAnnotation fs.episodicEnabled "memory.episodicEnabled"
    |> emitAnnotation fs.semanticEnabled "memory.semanticEnabled"
    |> emitAnnotation fs.preferencesEnabled "memory.preferencesEnabled"
    |> emitAnnotation fs.autoInjectAtSpawn "memory.autoInjectAtSpawn"
    |> emitAnnotation fs.autoLogOnSessionEnd "memory.autoLogOnSessionEnd"
    |> emitAnnotation fs.snapEnabled "snapshot.enabled"
    |> emitAnnotation fs.snapInterval "snapshot.autoSnapshotIntervalSec"
    |> emitAnnotation fs.restoreOnCrash "snapshot.restoreOnCrash"
    |> emitAnnotation fs.temperature "environment.temperature"
    |> emitAnnotation fs.timeoutSec "environment.timeoutSec"
    |> emitAnnotation fs.permOwner "permissionsHint.owner"
    |> emitAnnotation fs.permCrew "permissionsHint.crew"
    |> emitAnnotation fs.permWorld "permissionsHint.world"

/-- `ParamResolver::resolve`. -/
def resolve [F32] (input : ResolverInput) :
    Except ResolutionError (ResolvedConfig × Annotations) := do
  let effective := computeEffectiveLimits input
  let fs := clampFields input effective (walk input)
  checkModel input effective fs
  let resolved ← buildConfig fs
  return (resolved, buildAnnotations fs)

/-- What `resolve` returns, without the annotations. -/
theorem resolve_map_fst [F32] (input : ResolverInput) : (resolve input).map (·.1) =
    (checkModel input (computeEffectiveLimits input)
        (clampFields input (computeEffectiveLimits input) (walk input)) >>= fun _ =>
      buildConfig (clampFields input (computeEffectiveLimits input) (walk input))) := by
  unfold resolve
  dsimp only
  cases checkModel input (computeEffectiveLimits input)
      (clampFields input (computeEffectiveLimits input) (walk input)) with
  | error e => rfl
  | ok _ =>
    cases buildConfig (clampFields input (computeEffectiveLimits input) (walk input)) <;> rfl

/-! ## The value a layer asks for -/

namespace AgentDefaults

variable (d : AgentDefaults)

def modelPreference : Option String := d.entrypoint.bind (·.modelPreference)

def minContextTokens : Option UInt32 := d.entrypoint.bind (·.minContextTokens)

def maxToolChain : Option UInt32 := d.entrypoint.bind (·.maxToolChain)

def episodicEnabled : Option Bool := d.memory.bind (·.episodicEnabled)

def semanticEnabled : Option Bool := d.memory.bind (·.semanticEnabled)

def snapshotEnabled : Option Bool := d.snapshot.bind (·.enabled)

def autoSnapshotIntervalSec : Option UInt32 := d.snapshot.bind (·.autoSnapshotIntervalSec)

def temperature : Option ℚ := d.environment.bind (·.temperature)

def timeoutSec : Option UInt32 := d.environment.bind (·.timeoutSec)

def preferencesEnabled : Option Bool := d.memory.bind (·.preferencesEnabled)

def autoInjectAtSpawn : Option Bool := d.memory.bind (·.autoInjectAtSpawn)

def autoLogOnSessionEnd : Option Bool := d.memory.bind (·.autoLogOnSessionEnd)

def restoreOnCrash : Option Bool := d.snapshot.bind (·.restoreOnCrash)

def permOwner : Option String := d.permissionsHint.bind (·.owner)

def permCrew : Option String := d.permissionsHint.bind (·.crew)

def permWorld : Option String := d.permissionsHint.bind (·.world)

end AgentDefaults

/-- The value the layer of highest priority that sets the field asks for. -/
def requested {α : Type} (input : ResolverInput) (g : AgentDefaults → Option α) : Option α :=
  ((defaultLayers input).filterMap fun layer => g layer.2.2).getLast?

theorem Field.apply_value {α : Type} [ToYaml α] (f : Field α) (new : Option α)
    (source : AnnotationSource) (path : Option String) :
    (f.apply new source path).value = new.or f.value := by
  cases new <;> rfl

section Walk

variable {α : Type} [ToYaml α] {proj : Fields → Field α} {g : AgentDefaults → Option α}

theorem walk_value (h0 : proj {} = {})
    (hstep : ∀ source path fs d,
      proj (applyDefaults source path fs d) = (proj fs).apply (g d) source path)
    (input : ResolverInput) : (proj (walk input)).value = requested input g := by
  unfold walk requested
  induction defaultLayers input using List.reverseRecOn with
  | nil => simp [h0]
  | append_singleton ls layer ih =>
    rw [List.foldl_append, List.foldl_cons, List.foldl_nil, hstep, Field.apply_value, ih,
      List.filterMap_append, List.getLast?_append]
    cases h : g layer.2.2 <;> simp [h]

end Walk

/-- What one layer does, field by field. -/
theorem applyDefaults_eq (s : AnnotationSource) (p : Option String) (fs : Fields)
    (d : AgentDefaults) : applyDefaults s p fs d =
      { modelPreference := fs.modelPreference.apply d.modelPreference s p
        minContextTokens := fs.minContextTokens.apply d.minContextTokens s p
        maxToolChain := fs.maxToolChain.apply d.maxToolChain s p
        episodicEnabled := fs.episodicEnabled.apply d.episodicEnabled s p
        semanticEnabled := fs.semanticEnabled.apply d.semanticEnabled s p
        preferencesEnabled := fs.preferencesEnabled.apply d.preferencesEnabled s p
        autoInjectAtSpawn := fs.autoInjectAtSpawn.apply d.autoInjectAtSpawn s p
        autoLogOnSessionEnd := fs.autoLogOnSessionEnd.apply d.autoLogOnSessionEnd s p
        snapEnabled := fs.snapEnabled.apply d.snapshotEnabled s p
        snapInterval := fs.snapInterval.apply d.autoSnapshotIntervalSec s p
        restoreOnCrash := fs.restoreOnCrash.apply d.restoreOnCrash s p
        temperature := fs.temperature.apply d.temperature s p
        timeoutSec := fs.timeoutSec.apply d.timeoutSec s p
        permOwner := fs.permOwner.apply d.permOwner s p
        permCrew := fs.permCrew.apply d.permCrew s p
        permWorld := fs.permWorld.apply d.permWorld s p } := by
  rcases d with ⟨_ | _, _ | _, _ | _, _ | _, _ | _⟩ <;> rfl

/-! ## What an `Ok` result says -/

/-- The value of a `u32` field after the clamp. -/
def clampedU32 (limit : Option RangeConstraint) (v : UInt32) : UInt32 :=
  match limit with
  | some lim => toU32 (lim.clamp v.toNat)
  | none => v

/-- The temperature after the clamp. -/
def clampedF32 [F32] (limit : Option RangeConstraint) (v : ℚ) : ℚ :=
  match limit with
  | some lim => F32.round (lim.clamp v)
  | none => v

theorem Field.clampU32_value (f : Field UInt32) (limit : Option RangeConstraint)
    (by' : Option String) : (f.clampU32 limit by').value = f.value.map (clampedU32 limit) := by
  unfold Field.clampU32
  cases limit <;> cases h : f.value <;> simp [clampedU32, h]

theorem Field.clampF32_value [F32] (f : Field ℚ) (limit : Option RangeConstraint)
    (by' : Option String) : (f.clampF32 limit by').value = f.value.map (clampedF32 limit) := by
  unfold Field.clampF32
  cases limit <;> cases h : f.value <;> simp [clampedF32, h]

/-- How the limited fields of a resolved configuration come from the input. -/
structure ResolvedFrom [F32] (input : ResolverInput) (effective : AgentLimits)
    (cfg : ResolvedConfig) : Prop where
  model : ∀ c ∈ effective.modelPreference, c.allows cfg.entrypoint.modelPreference = true
  maxToolChain : (requested input AgentDefaults.maxToolChain).map
    (clampedU32 effective.maxToolChain) = some cfg.entrypoint.maxToolChain
  minContextTokens : cfg.entrypoint.minContextTokens =
    ((requested input AgentDefaults.minContextTokens).map
      (clampedU32 effective.minContextTokens)).getD 8000
  temperature : (requested input AgentDefaults.temperature).map
    (clampedF32 effective.temperature) = some cfg.environment.temperature
  timeoutSec : (requested input AgentDefaults.timeoutSec).map
    (clampedU32 effective.timeoutSec) = some cfg.environment.timeoutSec
  episodicEnabled : cfg.memory.episodicEnabled =
    (requested input AgentDefaults.episodicEnabled).getD true
  semanticEnabled : cfg.memory.semanticEnabled =
    (requested input AgentDefaults.semanticEnabled).getD true
  snapshotEnabled : cfg.snapshot.enabled =
    (requested input AgentDefaults.snapshotEnabled).getD false
  autoSnapshotIntervalSec : cfg.snapshot.autoSnapshotIntervalSec =
    (requested input AgentDefaults.autoSnapshotIntervalSec).getD 0

theorem Field.value_of_required {α : Type} {f : Field α} {name : String} {v : α}
    (h : f.required name = .ok v) : f.value = some v := by
  unfold Field.required at h
  cases hf : f.value with
  | none => rw [hf] at h; cases h
  | some w => rw [hf] at h; exact congrArg some (Except.ok.inj h)

theorem checkModel_eq_ok {input : ResolverInput} {effective : AgentLimits} {fs : Fields}
    (h : checkModel input effective fs = .ok ()) {v : String}
    (hv : fs.modelPreference.value = some v) :
    ∀ c ∈ effective.modelPreference, c.allows v = true := by
  intro c hc
  unfold checkModel at h
  rw [Option.mem_def.mp hc, hv] at h
  by_contra hno
  simp [hno] at h

open AgentDefaults

theorem resolvedFrom_of_resolve [F32] {input : ResolverInput} {cfg : ResolvedConfig}
    {ann : Annotations} (h : resolve input = .ok (cfg, ann)) :
    ResolvedFrom input (computeEffectiveLimits input) cfg := by
  obtain ⟨_, hcheck, h⟩ := bind_eq_ok_iff.mp h
  obtain ⟨resolved, hbuild, h⟩ := bind_eq_ok_iff.mp h
  obtain ⟨rfl, -⟩ := Prod.mk.inj (Except.ok.inj h)
  obtain ⟨model, hmodel, hbuild⟩ := bind_eq_ok_iff.mp hbuild
  obtain ⟨chain, hchain, hbuild⟩ := bind_eq_ok_iff.mp hbuild
  obtain ⟨temp, htemp, hbuild⟩ := bind_eq_ok_iff.mp hbuild
  obtain ⟨timeout, htim, hbuild⟩ := bind_eq_ok_iff.mp hbuild
  cases hbuild
  replace hchain := Field.value_of_required hchain
  replace htemp := Field.value_of_required htemp
  replace htim := Field.value_of_required htim
  constructor
  case model => exact checkModel_eq_ok hcheck (Field.value_of_required hmodel)
  case maxToolChain =>
    rw [← walk_value (g := maxToolChain) rfl fun s p fs d =>
      congrArg Fields.maxToolChain (applyDefaults_eq s p fs d), ← hchain]
    exact (Field.clampU32_value _ _ _).symm
  case minContextTokens =>
    rw [← walk_value (g := minContextTokens) rfl fun s p fs d =>
      congrArg Fields.minContextTokens (applyDefaults_eq s p fs d)]
    exact congrArg (Option.getD · 8000) (Field.clampU32_value _ _ _)
  case temperature =>
    rw [← walk_value (g := temperature) rfl fun s p fs d =>
      congrArg Fields.temperature (applyDefaults_eq s p fs d), ← htemp]
    exact (Field.clampF32_value _ _ _).symm
  case timeoutSec =>
    rw [← walk_value (g := timeoutSec) rfl fun s p fs d =>
      congrArg Fields.timeoutSec (applyDefaults_eq s p fs d), ← htim]
    exact (Field.clampU32_value _ _ _).symm
  -- the other fields are not clamped
  case episodicEnabled =>
    rw [← walk_value (g := episodicEnabled) rfl fun s p fs d =>
      congrArg Fields.episodicEnabled (applyDefaults_eq s p fs d)]
    rfl
  case semanticEnabled =>
    rw [← walk_value (g := semanticEnabled) rfl fun s p fs d =>
      congrArg Fields.semanticEnabled (applyDefaults_eq s p fs d)]
    rfl
  case snapshotEnabled =>
    rw [← walk_value (g := snapshotEnabled) rfl fun s p fs d =>
      congrArg Fields.snapEnabled (applyDefaults_eq s p fs d)]
    rfl
  case autoSnapshotIntervalSec =>
    rw [← walk_value (g := autoSnapshotIntervalSec) rfl fun s p fs d =>
      congrArg Fields.snapInterval (applyDefaults_eq s p fs d)]
    rfl

theorem computeEffectiveLimits_eq (input : ResolverInput) :
    computeEffectiveLimits input = AgentLimits.intersectAll input.systemLimits
      (input.crewLimits.map (·.limits) ++ input.userLimits.toList.map (·.limits)) := by
  unfold computeEffectiveLimits AgentLimits.intersectAll
  rw [List.foldl_append]
  cases input.userLimits <;> rfl

end Avix.Params
