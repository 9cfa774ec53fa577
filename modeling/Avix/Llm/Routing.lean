/-
  PROTOCOL — the provider that serves a request (`llm_svc/routing.rs`).

  `routing_exact_iff`: after any status updates, `RoutingEngine::resolve` returns a provider
  that is configured, supports the modality, is up, and is the one asked for or, if that one is
  down, the text fallback; and it fails only if there is none. This holds exactly if, when a
  fallback is up and the provider asked for is down, both support the modality or neither does.

  Reason. The modality is checked of the provider asked for and not of the fallback. A fallback
  without it is returned (`fallback_without_text`), and one with it is not tried for a provider that
  is down and lacks it or is not configured.

  Of several entries with one name the last one counts. Of a provider only the name and the
  modalities are read.
-/
import Avix.Types.Basic
import Avix.Lib.Run

namespace Avix

open Option

open Lib

inductive Modality where
  | text | image | speech | transcription | embedding
  deriving DecidableEq, Repr

def Modality.asStr : Modality → String
  | .text => "text"
  | .image => "image"
  | .speech => "speech"
  | .transcription => "transcription"
  | .embedding => "embedding"

structure ProviderConfig where
  name : String
  modalities : List Modality

structure LlmConfig where
  defaultProviders : Modality → String
  providers : List ProviderConfig

inductive ProviderStatus where
  | available
  | degraded (reason : String)
  | unavailable (reason : String)

structure RoutingEngine where
  defaults : HashMap String String
  providers : HashMap String ProviderConfig
  status : HashMap String ProviderStatus
  fallbackText : Option String

/-- A map with some entries inserted, one after the other. -/
def HashMap.insertAll {V : Type} (m : HashMap String V) (entries : List (String × V)) :
    HashMap String V :=
  entries.foldl (fun m e => AList.insert e.1 e.2 m) m

namespace RoutingEngine

def fromConfig (config : LlmConfig) : RoutingEngine where
  defaults := HashMap.insertAll ∅ ([.text, .image, .speech, .transcription, .embedding].map
    fun m : Modality => (m.asStr, config.defaultProviders m))
  providers := HashMap.insertAll ∅ (config.providers.map fun p => (p.name, p))
  status := HashMap.insertAll ∅ (config.providers.map fun p => (p.name, .available))
  fallbackText := none

variable (e : RoutingEngine)

def withTextFallback (fallback : String) : RoutingEngine := { e with fallbackText := some fallback }

def updateStatus (u : String × ProviderStatus) : RoutingEngine :=
  { e with status := AList.insert u.1 u.2 e.status }

def isUnavailable (name : String) : Bool :=
  match e.status.lookup name with
  | some (.unavailable _) => true
  | _ => false

/-- The fallback, if it can be used. -/
def fallback (modality : Modality) : Option ProviderConfig := do
  let fb ← e.fallbackText
  let fbProvider ← e.providers.lookup fb
  if modality = .text ∧ e.isUnavailable fb = false then some fbProvider else none

/-- Steps 2 to 4 of `resolve`. -/
def resolveName (modality : Modality) (name : String) : Except AvixError ProviderConfig :=
  match e.providers.lookup name with
  | none => .error (.configParse ("provider not found: " ++ name))
  | some provider =>
    if modality ∉ provider.modalities then
      .error (.configParse ("provider '" ++ name ++ "' does not support modality '" ++
        modality.asStr ++ "'"))
    else if e.isUnavailable name then
      match e.fallback modality with
      | some fbProvider => .ok fbProvider
      | none => .error (.noProviderAvailable (name ++ ": provider is unavailable"))
    else .ok provider

def resolve (modality : Modality) (explicit : Option String) : Except AvixError ProviderConfig :=
  match explicit, e.defaults.lookup modality.asStr with
  | some name, _ => e.resolveName modality name
  | none, some name => e.resolveName modality name
  | none, none => .error (.noProviderAvailable modality.asStr)

/-- The engine for a configuration and an optional fallback, after some updates. -/
def after (config : LlmConfig) (fb : Option String) (updates : List (String × ProviderStatus)) :
    RoutingEngine :=
  run updateStatus (fb.elim (fromConfig config) (fromConfig config).withTextFallback) updates

end RoutingEngine

/-! ## What is asked of it -/

/-- The value of the last entry with a name. -/
def lastOf {V : Type} (name : String) : List (String × V) → Option V
  | [] => none
  | e :: entries => (lastOf name entries).or (if e.1 = name then some e.2 else none)

section

variable (config : LlmConfig) (fb : Option String) (updates : List (String × ProviderStatus))
  (modality : Modality) (explicit : Option String)

def LlmConfig.provider (name : String) : Option ProviderConfig :=
  lastOf name (config.providers.map fun p => (p.name, p))

def IsDown (name : String) : Prop := ∃ reason, lastOf name updates = some (.unavailable reason)

/-- The name of the provider that is asked for. -/
def LlmConfig.asked : String := explicit.getD (config.defaultProviders modality)

/-- A request may be routed to the provider. -/
structure Serves (p : ProviderConfig) : Prop where
  configured : config.provider p.name = some p
  supports : modality ∈ p.modalities
  up : ¬ IsDown updates p.name
  asked : ¬ IsDown updates (config.asked modality explicit) →
    p.name = config.asked modality explicit
  fallback : IsDown updates (config.asked modality explicit) → modality = .text ∧ fb = some p.name

/-- The provider is a fallback that is up while the one asked for is down. -/
structure FallsBack (p : ProviderConfig) : Prop where
  configured : config.provider p.name = some p
  up : ¬ IsDown updates p.name
  down : IsDown updates (config.asked modality explicit)
  fallback : modality = .text ∧ fb = some p.name

end

/-! ## The maps of the engine -/

theorem HashMap.lookup_insertAll {V : Type} (name : String) (entries : List (String × V))
    (m : HashMap String V) :
    (m.insertAll entries).lookup name = (lastOf name entries).or (m.lookup name) := by
  induction entries generalizing m with
  | nil => rfl
  | cons e entries ih =>
    have hcons : m.insertAll (e :: entries) = HashMap.insertAll (AList.insert e.1 e.2 m) entries :=
      rfl
    rw [hcons, ih, HashMap.lookup_insert_eq_ite, lastOf, Option.or_assoc]
    by_cases h : e.1 = name
    · simp [h]
    · simp [h, Ne.symm h]

theorem mem_of_lastOf {V : Type} {name : String} {v : V} {entries : List (String × V)}
    (h : lastOf name entries = some v) : (name, v) ∈ entries := by
  induction entries with
  | nil => cases h
  | cons e entries ih =>
    rcases or_eq_some_iff.mp h with hlater | ⟨-, hnow⟩
    · exact List.mem_cons_of_mem _ (ih hlater)
    split_ifs at hnow with hname
    rw [← hname, ← some.inj hnow]
    exact List.mem_cons_self

namespace RoutingEngine

variable {config : LlmConfig} {fb : Option String} {updates : List (String × ProviderStatus)}

theorem name_of_provider {name : String} {p : ProviderConfig} (h : config.provider name = some p) :
    p.name = name := by
  obtain ⟨q, -, hq⟩ := List.mem_map.mp (mem_of_lastOf h)
  rw [← (Prod.mk.inj hq).1, ← (Prod.mk.inj hq).2]

theorem after_eq : after config fb updates = { fromConfig config with
    fallbackText := fb, status := (fromConfig config).status.insertAll updates } := by
  have hrun : ∀ e, run updateStatus e updates =
      { e with status := e.status.insertAll updates } := by
    induction updates with
    | nil => exact fun e => rfl
    | cons u us ih => exact fun e => ih _
  unfold after
  rw [hrun]
  cases fb <;> rfl

theorem lookup_providers (name : String) :
    (after config fb updates).providers.lookup name = config.provider name := by
  rw [after_eq]
  exact (HashMap.lookup_insertAll name _ ∅).trans or_none

/-- Every provider is available at the start. -/
theorem isUnavailable_iff (name : String) :
    (after config fb updates).isUnavailable name = true ↔ IsDown updates name := by
  have hstart : ∀ reason, (fromConfig config).status.lookup name ≠ some (.unavailable reason) := by
    intro reason h
    have hlast := ((HashMap.lookup_insertAll name _ ∅).trans or_none).symm.trans h
    obtain ⟨p, -, hp⟩ := List.mem_map.mp (mem_of_lastOf hlast)
    cases (Prod.mk.inj hp).2
  unfold isUnavailable IsDown
  rw [after_eq]
  dsimp only
  rw [HashMap.lookup_insertAll]
  cases lastOf name updates with
  | none =>
    rw [none_or]
    split
    · exact absurd ‹_› (hstart _)
    · simp
  | some status => cases status <;> simp

variable {modality : Modality} {explicit : Option String}

theorem resolve_eq : (after config fb updates).resolve modality explicit =
    (after config fb updates).resolveName modality (config.asked modality explicit) := by
  have hdef : (after config fb updates).defaults.lookup modality.asStr =
      some (config.defaultProviders modality) := by
    rw [after_eq]
    cases modality <;> rfl
  unfold resolve
  rw [hdef]
  cases explicit <;> rfl

theorem fallback_eq_some_iff (hdown : IsDown updates (config.asked modality explicit))
    (p : ProviderConfig) : (after config fb updates).fallback modality = some p ↔
      FallsBack config fb updates modality explicit p := by
  have hfb : (after config fb updates).fallbackText = fb := by rw [after_eq]
  unfold fallback
  rw [hfb]
  simp only [bind_eq_bind, bind_eq_some_iff, lookup_providers]
  have hup : ∀ name, (after config fb updates).isUnavailable name = false ↔ ¬ IsDown updates name :=
    fun name => Bool.eq_false_iff.trans (isUnavailable_iff name).not
  constructor
  · rintro ⟨name, rfl, q, hq, hp⟩
    split_ifs at hp with husab
    cases hp
    obtain rfl := name_of_provider hq
    exact ⟨hq, (hup _).mp husab.2, hdown, husab.1, rfl⟩
  · intro h
    exact ⟨p.name, h.fallback.2, p, h.configured, if_pos ⟨h.fallback.1, (hup _).mpr h.up⟩⟩

/-! ## Main statement -/

theorem routing_exact_iff (config : LlmConfig) (fb : Option String)
    (updates : List (String × ProviderStatus)) (modality : Modality) (explicit : Option String) :
    (match (after config fb updates).resolve modality explicit with
      | .ok p => Serves config fb updates modality explicit p
      | .error _ => ¬ ∃ p, Serves config fb updates modality explicit p) ↔
    ∀ p, FallsBack config fb updates modality explicit p →
      ((∃ q, config.provider (config.asked modality explicit) = some q ∧
        modality ∈ q.modalities) ↔ modality ∈ p.modalities) := by
  rw [resolve_eq]
  unfold resolveName
  rw [lookup_providers]
  by_cases hdown : IsDown updates (config.asked modality explicit)
  · -- only the fallback may serve
    have hserv : ∀ p, Serves config fb updates modality explicit p ↔
        FallsBack config fb updates modality explicit p ∧ modality ∈ p.modalities := fun p =>
      ⟨fun h => ⟨⟨h.configured, h.up, hdown, h.fallback hdown⟩, h.supports⟩,
        fun ⟨h, hsupp⟩ => ⟨h.configured, hsupp, h.up, absurd hdown, fun _ => h.fallback⟩⟩
    simp only [(isUnavailable_iff _).mpr hdown, if_true, hserv, ← fallback_eq_some_iff hdown]
    cases config.provider (config.asked modality explicit) with
    | none => simp
    | some q =>
      by_cases hsupp : modality ∈ q.modalities
      · cases (after config fb updates).fallback modality <;> simp [hsupp]
      · simp [hsupp]
  · -- only the provider asked for may serve
    have hserv : ∀ p, Serves config fb updates modality explicit p ↔
        config.provider (config.asked modality explicit) = some p ∧ modality ∈ p.modalities := by
      intro p
      constructor
      · intro h
        exact ⟨h.asked hdown ▸ h.configured, h.supports⟩
      · rintro ⟨hp, hsupp⟩
        have hname := name_of_provider hp
        exact ⟨hname ▸ hp, hsupp, hname ▸ hdown, fun _ => hname, fun h => absurd h hdown⟩
    have hnone : ∀ p, ¬ FallsBack config fb updates modality explicit p := fun p h => hdown h.down
    simp only [(isUnavailable_iff _).not.mpr hdown, hserv, hnone, false_imp_iff, implies_true,
      iff_true]
    cases config.provider (config.asked modality explicit) with
    | none => simp
    | some q => by_cases hsupp : modality ∈ q.modalities <;> simp [hsupp]

theorem fallback_without_text :
    let config : LlmConfig := ⟨fun _ => "a", [⟨"a", [.text]⟩, ⟨"b", [.image]⟩]⟩
    ∃ p, (after config (some "b") [("a", .unavailable "down")]).resolve .text none = .ok p ∧
      Modality.text ∉ p.modalities :=
  ⟨_, rfl, by decide⟩

end RoutingEngine

end Avix
