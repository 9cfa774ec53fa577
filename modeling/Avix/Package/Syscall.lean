/-
  The package system calls (`syscall/domain/pkg_.rs`).

  Model. `install_service` reads its source twice: the network may answer differently the second
  time, so a call takes two of them. `caller_identity` and all other parameters are members of
  the JSON the caller sent, of any type. An `Instant` is a number of nanoseconds.
-/
import Avix.Package.Installer
import Avix.Types.Token

namespace Avix

open Lib

inductive SyscallError where
  | eperm (callerPid : UInt32) (s : String)
  | enoent (s : String)
  | einval (s : String)
  | eexist (s : String)
  | eio (s : String)
  deriving DecidableEq, Repr

structure SyscallContext where
  callerPid : UInt32
  token : CapabilityToken

/-! ## The quota -/

/-- `InstallQuota`: limit and window, and for each user the count and when it started. -/
structure InstallQuota where
  limit : Nat
  window : Nat
  counters : HashMap String (Nat × Nat)

/-- The entry of a user that `check` works on: a new one, one whose window is over, or the old. -/
def InstallQuota.entry (q : InstallQuota) (username : String) (now : Nat) : Nat × Nat :=
  let entry := (q.counters.lookup username).getD (0, now)
  if q.window < now - entry.2 then (0, now) else entry

/-- `InstallQuota::check`; `Debug` of the window is a parameter of its text. -/
def InstallQuota.check (q : InstallQuota) (windowText username : String) (now : Nat) :
    InstallQuota × Except SyscallError Unit :=
  let entry := q.entry username now
  if q.limit ≤ entry.1 then
    ({ q with counters := q.counters.insert username entry },
      .error (.eperm 0 ("install quota exceeded: max " ++ toString q.limit ++ " installs per " ++
        windowText)))
  else ({ q with counters := q.counters.insert username (entry.1 + 1, entry.2) }, .ok ())

/-- `INSTALL_QUOTA`: ten installs an hour. -/
def InstallQuota.initial : InstallQuota := ⟨10, 3600 * 1000000000, ∅⟩

/-! ## Checks and parameters -/

/-- `check_capability`. -/
def checkSyscallCapability (ctx : SyscallContext) (cap : String) : Except SyscallError Unit :=
  if ctx.token.hasTool cap then .ok ()
  else .error (.eperm ctx.callerPid ("missing capability: " ++ cap))

/-- The sources that need no further capability. -/
def isOfficial (source : String) : Bool :=
  containsStr source "github.com/avadhpatel/avix" || startsWith source "github:avadhpatel/avix"

def checkUntrustedSource (ctx : SyscallContext) (source : String) : Except SyscallError Unit :=
  if isOfficial source then .ok () else checkSyscallCapability ctx "install:from-untrusted-source"

/-- `params.get(key).and_then(|v| v.as_str())`. -/
def paramStr (params : Json) (key : String) : Option String := (params.get? key).bind Json.asStr

def noVerifyParam (params : Json) : Bool :=
  ((params.get? "no_verify").bind Json.asBool).getD false

def parseScope (params : Json) (username : String) : InstallScope :=
  if (paramStr params "scope").getD "user" = "system" then .system else .user username

/-- `version`, where "latest" is none. -/
def versionParam (params : Json) : Option String :=
  (paramStr params "version").filter fun v => v ≠ "latest"

def usernameParam (params : Json) : String := (paramStr params "caller_identity").getD "default"

/-- `Path::display`. -/
def PathBuf.display (p : PathBuf) : String := "/" ++ String.intercalate "/" p.comps

/-! ## The calls -/

/-- The file system and the quota. -/
structure PackageState where
  fs : FsState
  quota : InstallQuota

/-- What a call meets outside. -/
structure PackageEnv where
  net : Network
  /-- The network at the second fetch of a service. -/
  net' : Network
  platform : Platform
  io : InstallIo
  /-- `remove_dir_all`, by the name of the directory. -/
  removeError : String → Option String := fun _ => none
  now : Nat
  windowText : String := "3600s"

section Codec

variable (codec : Codecs)

def agentRequest (params : Json) (source : String) : AgentInstallRequest where
  source := source
  version := versionParam params
  scope := parseScope params (usernameParam params)
  checksum := paramStr params "checksum"
  noVerify := noVerifyParam params

/-- The result of an installation as JSON. -/
def installedJson (name version : String) (installDir : PathBuf) : Json :=
  .ofMembers [("name", .string name), ("version", .string version),
    ("install_dir", .string installDir.display)]

/-- The checks both installation calls begin with; they return the source. -/
def admitInstall (ctx : SyscallContext) (cap username : String) (params : Json)
    (env : PackageEnv) (s : PackageState) : PackageState × Except SyscallError String :=
  match checkSyscallCapability ctx cap with
  | .error e => (s, .error e)
  | .ok () =>
    let checked := s.quota.check env.windowText username env.now
    let s' := { s with quota := checked.1 }
    match checked.2 with
    | .error e => (s', .error e)
    | .ok () =>
      match paramStr params "source" with
      | none => (s', .error (.einval "missing source"))
      | some source =>
        if noVerifyParam params then (s', .ok source)
        else (s', (checkUntrustedSource ctx source).map fun _ => source)

def installAgent (ctx : SyscallContext) (params : Json) (root : PathBuf) (env : PackageEnv)
    (s : PackageState) : PackageState × Except SyscallError Json :=
  match admitInstall ctx "proc/package/install-agent" (usernameParam params) params env s with
  | (s', .error e) => (s', .error e)
  | (s', .ok source) =>
    let installed := AgentInstaller.install codec env.net env.platform root
      (agentRequest params source) env.io s'.fs
    ({ s' with fs := installed.1 },
      match installed.2 with
      | .ok r => .ok (installedJson r.name r.version r.installDir)
      | .error e => .error (.eio e.display))

/-- The first fetch of `install_service`, whose bytes are only checked. -/
def prefetchService (params : Json) (source : String) (env : PackageEnv) :
    Except SyscallError Unit :=
  match PackageSource.resolve env.net env.platform source (versionParam params) with
  | .error e => .error (.einval e.display)
  | .ok pkgSource =>
    match pkgSource.fetch env.net with
    | .error e => .error (.eio e.display)
    | .ok bytes =>
      match noVerifyParam params, paramStr params "checksum" with
      | false, some expected =>
        match staticVerifyChecksum codec bytes expected with
        | .error e => .error (.einval e.display)
        | .ok () => .ok ()
      | _, _ => .ok ()

def installService (ctx : SyscallContext) (params : Json) (root : PathBuf) (env : PackageEnv)
    (s : PackageState) : PackageState × Except SyscallError Json :=
  match admitInstall ctx "proc/package/install-service" "default" params env s with
  | (s', .error e) => (s', .error e)
  | (s', .ok source) =>
    match prefetchService codec params source env with
    | .error e => (s', .error e)
    | .ok () =>
      let installed := ServiceInstaller.install codec env.net' root
        ⟨source, paramStr params "checksum"⟩ env.io s'.fs
      ({ s' with fs := installed.1 },
        match installed.2 with
        | .ok r => .ok (installedJson r.name r.version r.installDir)
        | .error e => .error (.eio e.display))

end Codec

def uninstallAgent (ctx : SyscallContext) (params : Json) (root : PathBuf) (env : PackageEnv)
    (s : FsState) : FsState × Except SyscallError Json :=
  match checkSyscallCapability ctx "proc/package/install-agent" with
  | .error e => (s, .error e)
  | .ok () =>
    match paramStr params "name" with
    | none => (s, .error (.einval "missing name"))
    | some name =>
      let installDir := (parseScope params (usernameParam params)).dir root name
      if s.fs.exists_ installDir then
        match s.removeDirAll installDir (env.removeError name) with
        | .error e => (s, .error (.eio ("failed to remove " ++ name ++ ": " ++ e)))
        | .ok s' => (s', .ok (.ofMembers [("uninstalled", .string name)]))
      else (s, .error (.einval ("agent not installed: " ++ name)))

/-- The loop of `uninstall_service` over the directories of the services. -/
def removeServices (servicesDir : PathBuf) (name : String) (env : PackageEnv) (s : FsState) :
    List String → FsState × Except SyscallError (List String)
  | [] => (s, .ok [])
  | dirName :: rest =>
    if startsWith dirName (name ++ "@") then
      match s.removeDirAll (servicesDir.join dirName) (env.removeError dirName) with
      | .error e => (s, .error (.eio ("failed to remove " ++ dirName ++ ": " ++ e)))
      | .ok s' =>
        let others := removeServices servicesDir name env s' rest
        (others.1, others.2.map fun names => dirName :: names)
    else removeServices servicesDir name env s rest

def uninstallService (ctx : SyscallContext) (params : Json) (root : PathBuf) (env : PackageEnv)
    (s : FsState) : FsState × Except SyscallError Json :=
  match checkSyscallCapability ctx "proc/package/install-service" with
  | .error e => (s, .error e)
  | .ok () =>
    match paramStr params "name" with
    | none => (s, .error (.einval "missing name"))
    | some name =>
      let servicesDir := (root.join "data").join "services"
      let removed := removeServices servicesDir name env s
        (s.fs.subdirs servicesDir.resolve)
      (removed.1,
        match removed.2 with
        | .error e => .error e
        | .ok [] => .error (.einval ("service not installed: " ++ name))
        | .ok names => .ok (.ofMembers [("uninstalled", .array (names.map .string))]))

end Avix
