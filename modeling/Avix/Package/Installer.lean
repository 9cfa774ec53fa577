/-
  Installing packages (`service/installer.rs`, `agent_manifest/installer.rs`).

  Model. The decoders are parameters (`Codecs`): the archive in a sequence of bytes, the
  manifests, and SHA-256. Every call of the host that can fail has its outcome in the entry or
  the request it belongs to (`EntryIo`, `InstallIo`). `tempfile::tempdir` returns a directory of
  a random name; it is removed when the call ends, unless it has been moved away.

  Ghost state: the paths of the entries that were written, without their first component.
-/
import Avix.Package.FileSystem
import Avix.Package.Source

namespace Avix

open Lib

/-! ## Archives -/

/-- How the host answers while an entry is unpacked. -/
structure EntryIo where
  createDirAll : Option String := none
  write : Option String := none
  setPermissions : Option String := none

/-- An entry of a tarball. -/
structure ArchiveEntry where
  path : Except String String
  /-- `entry_type().is_file()`: not a directory, a link or anything else. -/
  isFile : Bool := true
  data : Except String Bytes
  io : EntryIo := {}

/-- The part of `agent_manifest::schema::ManifestMetadata` that the installer reads. -/
structure ManifestMetadata where
  name : String
  version : String
  deriving DecidableEq, Repr

/-- The part of `service::yaml::ServiceUnit` that the installer reads. -/
structure ServiceUnit where
  name : String
  version : String
  binary : String
  provides : List String
  deriving DecidableEq, Repr

structure Codecs where
  /-- The xz or gz decoder and the tar reader. -/
  untar : Bytes → Except String (List (Except String ArchiveEntry))
  /-- `read_to_string` and `AgentManifest::from_yaml`. -/
  agentManifest : Bytes → Except AvixError ManifestMetadata
  /-- `ServiceUnit::load`. -/
  serviceUnit : Bytes → Except AvixError ServiceUnit
  sha256 : Bytes → Bytes
  /-- The text of a receipt: name, version, source, checksum, manifest path, binary. -/
  receipt : ServiceUnit → String → Option String → Bytes

/-- `path.components().skip(1)`: a leading slash or dot is a component of its own. -/
def skipFirst (path : String) : List String :=
  if startsWith path "/" ∨ (splitChar '/' path).head? = some "." then pieces path
  else (pieces path).tail

theorem isPiece_of_mem_skipFirst {path c : String} (h : c ∈ skipFirst path) : IsPiece c := by
  unfold skipFirst at h
  split_ifs at h
  · exact isPiece_of_mem_pieces h
  · exact isPiece_of_mem_pieces (List.mem_of_mem_tail h)

/-- What unpacking leaves: the file system, the paths written, and the result. -/
structure Unpacked (α : Type) where
  state : FsState
  written : List (List String) := []
  /-- The temporary directory, once there is one. -/
  temp : Option PathBuf := none
  result : Except AvixError α

/-- `dest.join(stripped)`. -/
def entryPath (dest : PathBuf) (path : String) : PathBuf :=
  dest.push (skipFirst path) fun _ => isPiece_of_mem_skipFirst

/-- `extract_tarball` unpacks a file: the directories above it, the file, and its mode. -/
def unpackFile (dest : PathBuf) (path : String) (entry : ArchiveEntry) (s : FsState) :
    Unpacked Unit :=
  match entry.data with
  | .error e => { state := s, result := .error (.configParse e) }
  | .ok data =>
    match s.write (entryPath dest path) data entry.io.write with
    | .error e => { state := s, result := .error (.configParse e) }
    | .ok s' =>
      { state := s'
        written := [skipFirst path]
        result :=
          match entry.io.setPermissions with
          | some e =>
            if (skipFirst path).head? = some "bin" then .error (.configParse e) else .ok ()
          | none => .ok () }

/-- One entry of the loop in `extract_tarball`. -/
def unpackEntry (dest : PathBuf) (path : String) (entry : ArchiveEntry) (s : FsState) :
    Unpacked Unit :=
  if skipFirst path = [] then { state := s, result := .ok () }
  else
    match s.createDirAll (entryPath dest path).parent entry.io.createDirAll with
    | .error e => { state := s, result := .error (.configParse e) }
    | .ok s' =>
      if entry.isFile then unpackFile dest path entry s' else { state := s', result := .ok () }

/-- The loop of `extract_tarball`. -/
def unpackEntries (dest : PathBuf) (s : FsState) : List (Except String ArchiveEntry) → Unpacked Unit
  | [] => { state := s, result := .ok () }
  | .error e :: _ => { state := s, result := .error (.configParse ("tarball entry: " ++ e)) }
  | .ok entry :: rest =>
    match entry.path with
    | .error e => { state := s, result := .error (.configParse e) }
    | .ok path =>
      let first := unpackEntry dest path entry s
      match first.result with
      | .error e => { first with result := .error e }
      | .ok () =>
        let others := unpackEntries dest first.state rest
        { others with written := first.written ++ others.written }

section Codec

variable (codec : Codecs)

def extractTarball (bytes : Bytes) (dest : PathBuf) (s : FsState) : Unpacked Unit :=
  match codec.untar bytes with
  | .error e => { state := s, result := .error (.configParse ("tarball read: " ++ e)) }
  | .ok entries =>
    let u := unpackEntries dest s entries
    match u.result with
    | .error e => { u with result := .error e }
    | .ok () =>
      if ["manifest.yaml"] ∈ u.written then u
      else
        let e := AvixError.configParse "tarball missing required manifest.yaml file"
        { u with result := .error e }

def staticVerifyChecksum (bytes : Bytes) (expected : String) : Except AvixError Unit :=
  match splitOnce ':' expected with
  | none => .error (.configParse ("invalid checksum format: " ++ expected))
  | some (algo, expectedHex) =>
    if algo = "sha256" then
      let digest := String.ofList (hexEncode (codec.sha256 bytes))
      if digest = expectedHex then .ok ()
      else
        .error (.configParse ("checksum mismatch: expected " ++ expectedHex ++ " got " ++ digest))
    else .error (.configParse ("unsupported checksum algorithm: " ++ algo))

/-! ## Putting a tree into place -/

/-- How the host answers during an installation. -/
structure InstallIo where
  tempdir : Except String PathBuf
  createDirAll : Option String := none
  rename : Option String := none
  /-- Writing the receipt. -/
  write : Option String := none

/-- The temporary directory is dropped. -/
def FsState.dropTemp (s : FsState) : Option PathBuf → FsState
  | none => s
  | some tmp => s.removeTree tmp

/-- The end of both installers: refuse an existing target, else create it and move the
    unpacked tree there. A move that fails is rolled back. -/
def placeTree (s : FsState) (tmp target : PathBuf) (conflict : AvixError) (io : InstallIo) :
    FsState × Except AvixError Unit :=
  if s.fs.exists_ target then (s.removeTree tmp, .error conflict)
  else
    match s.createDirAll target io.createDirAll with
    -- the guard finds no directory to remove
    | .error e => (s.removeTree tmp, .error (.configParse e))
    | .ok s' =>
      match s'.rename tmp target io.rename with
      | .error e =>
        ((s'.removeTree tmp).removeTree target,
          .error (.configParse ("install failed and rolled back: " ++ e)))
      | .ok s'' => (s'', .ok ())

/-- `format!("{}@{}", name, version)`. -/
def versionedName (name version : String) : String := name ++ "@" ++ version

/-! ## Agents -/

inductive InstallScope where
  | system
  | user (username : String)
  deriving DecidableEq, Repr

/-- The directory of a package in a scope. -/
def InstallScope.dir (root : PathBuf) (package : String) : InstallScope → PathBuf
  | .system => ((root.join "data").join "bin").join package
  | .user username =>
    ((((root.join "data").join "users").join username).join "bin").join package

/-- `agent_manifest::installer::AgentInstallRequest`; the session id is not read. -/
structure AgentInstallRequest where
  source : String
  version : Option String
  scope : InstallScope
  checksum : Option String
  noVerify : Bool

structure AgentInstallResult where
  name : String
  version : String
  installDir : PathBuf

namespace AgentInstaller

/-- `fetch_and_verify_checksum_file`. -/
def verifyChecksumFile (net : Network) (bytes : Bytes) (url : String) : Except AvixError Unit :=
  match net.getText url with
  | .error (.send e) => .error (.configParse ("fetch checksum " ++ url ++ ": " ++ e))
  | .error (.body e) => .error (.configParse ("read checksum " ++ url ++ ": " ++ e))
  | .ok content =>
    match (lines content).head?.bind fun l => (splitWhitespace l).head? with
    | none => .error (.configParse "invalid checksum file")
    | some hex => staticVerifyChecksum codec bytes ("sha256:" ++ hex)

/-- The checks of an archive before it is unpacked. -/
def verifyDownload (net : Network) (req : AgentInstallRequest) (source : PackageSource)
    (bytes : Bytes) : Except AvixError Unit :=
  if req.noVerify then .ok ()
  else
    match req.checksum, source with
    | some expected, _ => staticVerifyChecksum codec bytes expected
    | none, .gitHubRelease _ (some url) => verifyChecksumFile codec net bytes url
    | none, _ => .ok ()

/-- The files of a clone, written below the directory. -/
def writeClone (s : FsState) (tmp : PathBuf) : List ClonedFile → FsState
  | [] => s
  | f :: rest =>
    let loc := tmp.resolve.descend f.path f.isName
    writeClone (s.record (s.fs.withFile loc f.data) (.wrote loc)) tmp rest

/-- `read_to_string(tmp/manifest.yaml)` and `AgentManifest::from_yaml`. -/
def readManifest (s : FsState) (tmp : PathBuf) : Except AvixError ManifestMetadata :=
  match s.fs.read (tmp.join "manifest.yaml").resolve with
  | none => .error (.configParse "cannot read manifest.yaml: No such file or directory")
  | some content => codec.agentManifest content

/-- The first half of `AgentInstaller::install`: fetch, verify and unpack. -/
def unpack (net : Network) (platform : Platform) (req : AgentInstallRequest) (io : InstallIo)
    (s : FsState) : Unpacked (PathBuf × ManifestMetadata) :=
  match PackageSource.resolve net platform req.source req.version with
  | .error e => { state := s, result := .error e }
  | .ok (.gitClone url) =>
    match s.tempdir io.tempdir with
    | .error e => { state := s, result := .error (.configParse e) }
    | .ok (tmp, s') =>
      match net.gitClone url with
      | .error e => { state := s', temp := some tmp, result := .error e }
      | .ok files =>
        let cloned := writeClone s' tmp files
        { state := cloned, temp := some tmp
          result := (readManifest codec cloned tmp).map fun manifest => (tmp, manifest) }
  | .ok source =>
    match source.fetch net with
    | .error e => { state := s, result := .error e }
    | .ok bytes =>
      match verifyDownload codec net req source bytes with
      | .error e => { state := s, result := .error e }
      | .ok () =>
        match s.tempdir io.tempdir with
        | .error e => { state := s, result := .error (.configParse e) }
        | .ok (tmp, s') =>
          let u := extractTarball codec bytes tmp s'
          { state := u.state, written := u.written, temp := some tmp
            result := u.result.bind fun _ =>
              (readManifest codec u.state tmp).map fun manifest => (tmp, manifest) }

def install (net : Network) (platform : Platform) (root : PathBuf) (req : AgentInstallRequest)
    (io : InstallIo) (s : FsState) : FsState × Except AvixError AgentInstallResult :=
  let u := unpack codec net platform req io s
  match u.result with
  | .error e => (u.state.dropTemp u.temp, .error e)
  | .ok (tmp, manifest) =>
    let package := versionedName manifest.name manifest.version
    let installDir := req.scope.dir root package
    let placed := placeTree u.state tmp installDir
      (.configParse ("agent version already installed: " ++ package)) io
    (placed.1, placed.2.map fun _ => ⟨manifest.name, manifest.version, installDir⟩)

end AgentInstaller

/-! ## Services -/

/-- `service::installer::InstallRequest`; `autostart` is not read. -/
structure InstallRequest where
  source : String
  checksum : Option String

structure InstallResult where
  name : String
  version : String
  installDir : PathBuf
  receiptPath : PathBuf
  tools : List String

namespace ServiceInstaller

def fetch (net : Network) (source : String) : Except AvixError Bytes :=
  match stripStart "file://" source with
  | some path =>
    match net.readFile path with
    | .ok bytes => .ok bytes
    | .error e => .error (.configParse ("cannot read " ++ path ++ ": " ++ e))
  | none =>
    if startsWith source "https://" ∨ startsWith source "http://" then
      PackageSource.fetch.fetchUrl net source
    else .error (.configParse ("unsupported source scheme: " ++ source))

/-- `ServiceUnit::load(tmp/manifest.yaml)`. -/
def readUnit (s : FsState) (tmp : PathBuf) : Except AvixError ServiceUnit :=
  match s.fs.read (tmp.join "manifest.yaml").resolve with
  | none => .error (.configParse "cannot read manifest.yaml: No such file or directory")
  | some content => codec.serviceUnit content

/-- The directory of a service. -/
def dir (root : PathBuf) (package : String) : PathBuf :=
  ((root.join "data").join "services").join package

/-- The optional checksum of a request. -/
def verifyDownload (req : InstallRequest) (bytes : Bytes) : Except AvixError Unit :=
  match req.checksum with
  | some expected => staticVerifyChecksum codec bytes expected
  | none => .ok ()

/-- The first half of `ServiceInstaller::install`: fetch, verify and unpack. -/
def unpack (net : Network) (req : InstallRequest) (io : InstallIo) (s : FsState) :
    Unpacked (PathBuf × ServiceUnit) :=
  match fetch net req.source with
  | .error e => { state := s, result := .error e }
  | .ok bytes =>
    match verifyDownload codec req bytes with
    | .error e => { state := s, result := .error e }
    | .ok () =>
      match s.tempdir io.tempdir with
      | .error e => { state := s, result := .error (.configParse e) }
      | .ok (tmp, s') =>
        let u := extractTarball codec bytes tmp s'
        { state := u.state, written := u.written, temp := some tmp
          result := u.result.bind fun _ =>
            (readUnit codec u.state tmp).map fun unit => (tmp, unit) }

/-- The receipt; the guard removes the directory again if it cannot be written. -/
def writeReceipt (s : FsState) (installDir : PathBuf) (unit : ServiceUnit) (req : InstallRequest)
    (io : InstallIo) : FsState × Except AvixError InstallResult :=
  let receiptPath := installDir.join ".install.json"
  match s.write receiptPath (codec.receipt unit req.source req.checksum) io.write with
  | .error e => (s.removeTree installDir, .error (.configParse e))
  | .ok s' => (s', .ok ⟨unit.name, unit.version, installDir, receiptPath, unit.provides⟩)

def install (net : Network) (root : PathBuf) (req : InstallRequest) (io : InstallIo)
    (s : FsState) : FsState × Except AvixError InstallResult :=
  let u := unpack codec net req io s
  match u.result with
  | .error e => (u.state.dropTemp u.temp, .error e)
  | .ok (tmp, unit) =>
    let package := versionedName unit.name unit.version
    let installDir := dir root package
    let placed := placeTree u.state tmp installDir
      (.configParse ("service version already installed: " ++ package)) io
    match placed.2 with
    | .error e => (placed.1, .error e)
    | .ok () => writeReceipt codec placed.1 installDir unit req io

end ServiceInstaller

end Codec

end Avix
