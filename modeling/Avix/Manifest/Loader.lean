/-
  Manifests of agents as files (`agent_manifest/loader.rs`, `agent_manifest/scanner.rs`,
  `agent_manifest/schema.rs`).

  A manifest file is the part that spawning reads, the signature of the package, and the rest.
  Two functions look a manifest up by the name of its agent. `ManifestLoader.load` takes the first
  directory `<name>@<version>` with a manifest in it and checks the signature of that manifest;
  `getManifestFile` is `ManifestScanner::get_manifest`, which the kernel uses, with the whole file
  as the result.

  YAML and SHA-256 are parameters (`ManifestFormat`).

  * `getManifest_eq_map`: what the kernel reads is part of the file the scanner finds.
  * `verifySignature_eq_ok_iff`: which signatures are accepted.
-/
import Avix.Kernel.AgentManager

namespace Avix

open Lib Option

/-- `agent_manifest::AgentManifest`. -/
structure ManifestFile where
  /-- The part that spawning reads. -/
  manifest : AgentManifest
  /-- `packaging.signature`. -/
  signature : Option String
  /-- The other fields; nothing here reads them. -/
  others : Json

/-- What is signed: the manifest with an empty signature. -/
def ManifestFile.canonical (m : ManifestFile) : ManifestFile :=
  { m with signature := some "sha256:" }

/-- Library functions on manifests, with the texts of their errors. -/
structure ManifestFormat where
  fromYaml : String → Except String ManifestFile
  toYaml : ManifestFile → Except String String
  /-- The text of the error for bytes that are not UTF-8. -/
  utf8Error : Bytes → String
  /-- `hex::encode(Sha256::digest(..))`. -/
  sha256Hex : String → String

/-- The library functions of the kernel, with this format for manifests. -/
def ManifestFormat.externals {D : Type} (fmt : ManifestFormat) (x : Externals D) : Externals D :=
  { x with parseManifest := fun yaml => (fmt.fromYaml yaml).toOption.map (·.manifest) }

/-! ## The loader -/

namespace ManifestLoader

def verifySignature (fmt : ManifestFormat) (m : ManifestFile) (path : String) :
    Except AvixError Unit :=
  let sig := m.signature.getD ""
  let hexPart := (stripStart "sha256:" sig).getD ""
  if hexPart = "" then .ok ()
  else do
    let canonicalYaml ← (fmt.toYaml m.canonical).mapError .configParse
    refuseIf (fmt.sha256Hex canonicalYaml ≠ hexPart) (.manifestSignatureMismatch path)

variable {D : Type} (fmt : ManifestFormat) (x : Externals D) (vfs : VfsRouter D)

def findVersionedManifest (baseDir name : String) : Option String := do
  let dir ← (VfsPath.parse baseDir).toOption
  let entries ← (vfsList x vfs dir).toOption
  entries.findSome? fun entry => do
    let versionedName ← stripStart (name ++ "@") entry
    if versionedName = "" then none
    else
      let manifestPath := baseDir ++ "/" ++ entry ++ "/manifest.yaml"
      let path ← (VfsPath.parse manifestPath).toOption
      if vfs.existsPath x.fileSystem path then some manifestPath else none

/-- `std::str::from_utf8` of a manifest. -/
def textOf (raw : Bytes) : Except AvixError String :=
  match fromUtf8 raw with
  | some yaml => .ok yaml
  | none => .error (.configParse (fmt.utf8Error raw))

def loadFromPath (path : String) : Except AvixError ManifestFile := do
  let vfsPath ← (VfsPath.parse path).mapError fun e => .configParse e.display
  let raw ← (vfsRead x vfs vfsPath).mapError fun _ => .manifestNotFound path
  let yaml ← textOf fmt raw
  let m ← (fmt.fromYaml yaml).mapError .configParse
  refuseIf (m.manifest.kind ≠ "Agent") (.manifestKindMismatch "Agent" m.manifest.kind)
  verifySignature fmt m path
  return m

/-- `ManifestLoader::load_with_dir`: the manifest and the directory of its package. -/
def loadWithDir (name username : String) : Except AvixError (ManifestFile × String) :=
  let found := (findVersionedManifest x vfs "/bin" name).or
    (findVersionedManifest x vfs ("/users/" ++ username ++ "/bin") name)
  match found with
  | some path =>
    (loadFromPath fmt x vfs path).map fun m => (m, trimEndStr "/manifest.yaml" path)
  | none => .error (.manifestNotFound ("/bin/" ++ name ++ "/manifest.yaml"))

def load (name username : String) : Except AvixError ManifestFile :=
  (loadWithDir fmt x vfs name username).map (·.1)

variable {fmt x vfs}

/-- The signature is `sha256:` and the digest of the canonical content. -/
def Signs (fmt : ManifestFormat) (m : ManifestFile) (sig : String) : Prop :=
  ∃ yaml, fmt.toYaml m.canonical = .ok yaml ∧ sig = "sha256:" ++ fmt.sha256Hex yaml

theorem verifySignature_eq_ok_iff {m : ManifestFile} {path : String} :
    verifySignature fmt m path = .ok () ↔
      ∀ hex, hex ≠ "" → m.signature = some ("sha256:" ++ hex) → Signs fmt m ("sha256:" ++ hex) := by
  -- The part after `sha256:` is empty unless the signature has one that is not.
  have hpart : ∀ hex, hex ≠ "" → ((stripStart "sha256:" (m.signature.getD "")).getD "" = hex ↔
        m.signature = some ("sha256:" ++ hex)) := by
    intro hex hne
    cases hsig : m.signature with
    | none => exact iff_of_false (fun h => hne h.symm) nofun
    | some sig =>
      rw [getD_some, some_inj, ← stripStart_eq_some_iff]
      cases hstrip : stripStart "sha256:" sig with
      | none => exact iff_of_false (fun h => hne h.symm) nofun
      | some part => rw [getD_some, some_inj]
  unfold verifySignature
  dsimp only
  split_ifs with hempty
  · refine iff_of_true rfl fun hex hne hsig => ?_
    rw [(hpart hex hne).mpr hsig] at hempty
    exact absurd hempty hne
  have hsig := (hpart _ hempty).mp rfl
  simp only [bind_eq_ok_iff, mapError_eq_ok_iff, refuseIf_eq_ok_iff, not_not]
  constructor
  · rintro ⟨yaml, hyaml, hhash⟩ hex hne hsig'
    obtain rfl := (hpart hex hne).mpr hsig'
    exact ⟨yaml, hyaml, by rw [hhash]⟩
  · intro h
    obtain ⟨yaml, hyaml, heq⟩ := h _ hempty hsig
    exact ⟨yaml, hyaml, (String.append_right_inj _).mp heq.symm⟩

theorem verified_of_load {name username : String} {m : ManifestFile}
    (h : load fmt x vfs name username = .ok m) (path : String) :
    verifySignature fmt m path = .ok () := by
  unfold load loadWithDir at h
  dsimp only at h
  split at h
  · next found _ =>
    cases hload : loadFromPath fmt x vfs found with
    | error e =>
      rw [hload] at h
      cases h
    | ok file =>
      rw [hload] at h
      obtain rfl : file = m := Except.ok.inj h
      unfold loadFromPath at hload
      simp only [bind_eq_ok_iff] at hload
      obtain ⟨_, -, _, -, _, -, file', -, _, -, _, hver, hret⟩ := hload
      obtain rfl : file' = file := Except.ok.inj hret
      exact verifySignature_eq_ok_iff.mpr (verifySignature_eq_ok_iff.mp hver)
  · cases h

end ManifestLoader

/-! ## The scanner -/

section Scanner

variable {D : Type} (fmt : ManifestFormat) (x : Externals D) (vfs : VfsRouter D)

/-- The manifest file of one directory entry, if it is a valid one of the agent `name`. -/
def loadManifestFile (dirPath name entry : String) : Option ManifestFile := do
  let path ← (VfsPath.parse (dirPath ++ "/" ++ entry ++ "/manifest.yaml")).toOption
  let raw ← (vfsRead x vfs path).toOption
  let yaml ← fromUtf8 raw
  let m ← (fmt.fromYaml yaml).toOption
  if m.manifest.kind = "Agent" ∧ m.manifest.name = name then some m else none

/-- `ManifestScanner::get_manifest_from_dir`. -/
def getManifestFileFromDir (dirPath name : String) : Option ManifestFile := do
  let dir ← (VfsPath.parse dirPath).toOption
  let entries := (vfsList x vfs dir).toOption.getD []
  (entries.filter fun e => ! startsWith e "." && startsWith e (name ++ "@")).findSome?
    (loadManifestFile fmt x vfs dirPath name)

/-- `ManifestScanner::get_manifest`. -/
def getManifestFile (name username : String) : Option ManifestFile :=
  (getManifestFileFromDir fmt x vfs "/bin" name).or
    (getManifestFileFromDir fmt x vfs ("/users/" ++ username ++ "/bin") name)

variable {fmt x vfs}

theorem loadManifest_eq_map (dirPath name entry : String) :
    loadManifest (fmt.externals x) vfs dirPath name entry =
      (loadManifestFile fmt x vfs dirPath name entry).map (·.manifest) := by
  have hread : ∀ path, vfsRead (fmt.externals x) vfs path = vfsRead x vfs path := fun _ => rfl
  have hparse : ∀ yaml, (fmt.externals x).parseManifest yaml =
      (fmt.fromYaml yaml).toOption.map (·.manifest) := fun _ => rfl
  unfold loadManifest loadManifestFile
  simp [hread, hparse, bind_map]

theorem getManifestFromDir_eq_map (dirPath name : String) :
    getManifestFromDir (fmt.externals x) vfs dirPath name =
      (getManifestFileFromDir fmt x vfs dirPath name).map (·.manifest) := by
  have hlist : ∀ dir, vfsList (fmt.externals x) vfs dir = vfsList x vfs dir := fun _ => rfl
  have hload : loadManifest (fmt.externals x) vfs dirPath name =
      fun entry => (loadManifestFile fmt x vfs dirPath name entry).map (·.manifest) :=
    funext (loadManifest_eq_map dirPath name)
  unfold getManifestFromDir getManifestFileFromDir
  rw [hload]
  simp [hlist, Function.comp_def]

theorem getManifest_eq_map (name username : String) :
    getManifest (fmt.externals x) vfs name username =
      (getManifestFile fmt x vfs name username).map (·.manifest) := by
  rw [getManifest, getManifestFromDir_eq_map, getManifestFromDir_eq_map, getManifestFile, map_or]

end Scanner

end Avix
