/-
  LIFECYCLE — a package is installed, found and removed.

  `install_agreement_iff`: after a successful installation of a valid package under a
  root directory, the package is found, its tool descriptors are those that are registered, and
  removing it by name succeeds and restores the tree, if and only if
  * it is a service;
  * `discover_installed` has found the same service before, in `<root>/services`;
  * the descriptors in `<root>/data/services/<name>/tools` are those of the package;
  * `<root>/data/services` was there, and none of its directories starts with `<name>@`.

  Reason. Both installers put a package into `<name>@<version>` below `<root>/data`.
  `uninstall_agent` looks for `<name>`, so that it never finds the agent it should remove.
  `discover_installed` looks below `<root>`, and the registration of tools in `<name>`: what they
  find does not depend on the installation. `load_for_service` and `uninstall_service` take every
  directory that starts with `<name>@`.

  Valid means: name and version make the name of one directory, and no archive entry goes up.
-/
import Avix.Package.Discovery
import Avix.Security.PackageTree

namespace Avix.Lifecycle

open Lib Location ServiceInstaller PathBuf List HostFs FsState

/-! ## Statement -/

/-- Both are lists of the same entries. -/
def SameTools (a b : Except AvixError (List ToolEntry)) : Prop :=
  ∃ l l', a = .ok l ∧ b = .ok l' ∧ l.Perm l'

/-- The same files and directories everywhere. -/
def SameTree (fs fs' : HostFs) : Prop := HostFs.AgreeOn (fun _ => True) fs fs'

/-- The unpacked path has no dot-dots. -/
def EntryStays (entry : ArchiveEntry) : Prop :=
  ∀ path, entry.path = .ok path → ∀ c ∈ skipFirst path, c ≠ ".."

/-- The installation of a service, and the call that removes it. -/
structure ServiceCase where
  codec : Codecs
  parse : Bytes → Except String ToolDescriptor
  root : PathBuf
  net : Network
  req : InstallRequest
  io : InstallIo
  before : FsState
  ctx : SyscallContext
  params : Json
  env : PackageEnv

namespace ServiceCase

variable (c : ServiceCase) (tmp : PathBuf) (unit : ServiceUnit)

def unpacked : Unpacked (PathBuf × ServiceUnit) :=
  ServiceInstaller.unpack c.codec c.net c.req c.io c.before

def installed : FsState × Except AvixError InstallResult :=
  ServiceInstaller.install c.codec c.net c.root c.req c.io c.before

def uninstalled : FsState × Except SyscallError Json :=
  uninstallService c.ctx c.params c.root c.env c.installed.1

/-- The tool descriptors of the package, from its unpacked files. -/
def packageTools : Except AvixError (List ToolEntry) :=
  ToolScanner.scanAsEntries c.parse c.unpacked.state.fs unit.name tmp

/-- A valid package was installed on a host; it may be removed, and nothing fails meanwhile. -/
structure Installed : Prop where
  unpacked : c.unpacked.result = .ok (tmp, unit)
  ok : ∃ r, c.installed.2 = .ok r
  name : IsName unit.name
  package : IsName (versionedName unit.name unit.version)
  entries : ∀ bytes entries, ServiceInstaller.fetch c.net c.req.source = .ok bytes →
    c.codec.untar bytes = .ok entries → ∀ entry, .ok entry ∈ entries → EntryStays entry
  host : c.before.fs.WellFormed
  root : c.before.fs.IsDir c.root
  temp : ∃ parent name, IsName name ∧ c.before.fs.IsDir parent ∧ tmp = parent.join name
  capability : checkSyscallCapability c.ctx "proc/package/install-service" = .ok ()
  param : paramStr c.params "name" = some unit.name
  noError : ∀ dirName, c.env.removeError dirName = none

/-- Installation, discovery and removal agree. -/
structure Agrees : Prop where
  discovered : ∃ units, discoverInstalled c.codec c.installed.1.fs c.root = .ok units ∧ unit ∈ units
  loaded : loadForService c.codec c.installed.1.fs c.root unit.name = .ok unit
  tools : SameTools (registeredTools c.parse c.installed.1.fs c.root unit.name)
    (c.packageTools tmp unit)
  removed : ∃ reply, c.uninstalled.2 = .ok reply
  restored : SameTree c.before.fs c.uninstalled.1.fs

/-- The condition on the host before the installation. -/
structure Condition : Prop where
  discovered : ∃ units, discoverInstalled c.codec c.before.fs c.root = .ok units ∧ unit ∈ units
  tools : SameTools (registeredTools c.parse c.before.fs c.root unit.name)
    (c.packageTools tmp unit)
  services : (servicesDir c.root).resolve ∈ c.before.fs.dirs
  noVersion : ∀ dirName ∈ c.before.fs.subdirs (servicesDir c.root).resolve,
    startsWith dirName (unit.name ++ "@") = false

end ServiceCase

/-- The installation of an agent, and the call that removes it. -/
structure AgentCase where
  codec : Codecs
  externals : Externals HostFs
  root : PathBuf
  net : Network
  platform : Platform
  req : AgentInstallRequest
  io : InstallIo
  before : FsState
  ctx : SyscallContext
  params : Json
  env : PackageEnv

namespace AgentCase

variable (c : AgentCase) (r : AgentInstallResult)

def installed : FsState × Except AvixError AgentInstallResult :=
  AgentInstaller.install c.codec c.net c.platform c.root c.req c.io c.before

def uninstalled : FsState × Except SyscallError Json :=
  uninstallAgent c.ctx c.params c.root c.env c.installed.1

structure Installed : Prop where
  ok : c.installed.2 = .ok r
  name : IsName r.name
  package : IsName (versionedName r.name r.version)
  capability : checkSyscallCapability c.ctx "proc/package/install-agent" = .ok ()
  param : paramStr c.params "name" = some r.name
  scope : parseScope c.params (usernameParam c.params) = c.req.scope
  noError : ∀ dirName, c.env.removeError dirName = none

/-- The scanner finds the agent for everyone it is installed for. -/
def Found : Prop :=
  ∀ username, c.req.scope = .system ∨ c.req.scope = .user username →
    ∃ m, getManifest { c.externals with fileSystem := hostFileSystem }
      (vfsOf c.root c.installed.1.fs) r.name username = some m

structure Agrees : Prop where
  found : c.Found r
  removed : ∃ reply, c.uninstalled.2 = .ok reply
  restored : SameTree c.before.fs c.uninstalled.1.fs

end AgentCase

/-- A package of one kind or the other. -/
inductive InstallCase where
  | service (c : ServiceCase) (tmp : PathBuf) (unit : ServiceUnit)
  | agent (c : AgentCase) (r : AgentInstallResult)

namespace InstallCase

def Installed : InstallCase → Prop
  | .service c tmp unit => c.Installed tmp unit
  | .agent c r => c.Installed r

def Agrees : InstallCase → Prop
  | .service c tmp unit => c.Agrees tmp unit
  | .agent c r => c.Agrees r

def Condition : InstallCase → Prop
  | .service c tmp unit => c.Condition tmp unit
  | .agent _ _ => False

end InstallCase

/-! ## Unpacking -/

section Unpack

variable {tmp : PathBuf} {s : FsState}

/-- Outside of the temporary directory, all is as it was. -/
def OutsideOf (tmp : PathBuf) (loc : Location) : Prop := ¬tmp.resolve.Under loc

variable {path : String} {p : PathBuf} {fs' : HostFs}

theorem resolve_entryPath (h : ∀ c ∈ skipFirst path, c ≠ "..") :
    tmp.resolve.Under (entryPath tmp path).resolve := by
  refine ⟨skipFirst path, ?_⟩
  rw [entryPath, resolve_push, walk_of_names h]

/-- A path above an entry lies above the temporary directory or in it. -/
theorem ancestor_entryPath (h : ∀ c ∈ skipFirst path, c ≠ "..") {q : PathBuf}
    (hq : q ∈ (entryPath tmp path).parent.ancestors) :
    q ∈ tmp.ancestors ∨ tmp.resolve.Under q.resolve := by
  have hpre : q.comps <+: tmp.comps ++ skipFirst path :=
    (mem_ancestors_iff.mp hq).trans (List.dropLast_prefix _)
  rcases prefix_or_prefix_of_prefix hpre (prefix_append _ _) with habove | ⟨l, hl⟩
  · exact .inl (mem_ancestors_iff.mpr habove)
  right
  have hnames : ∀ c ∈ l, c ≠ ".." := by
    rw [← hl, prefix_append_right_inj] at hpre
    exact fun c hc => h c (hpre.subset hc)
  refine ⟨l, ?_⟩
  change walk [] tmp.comps ++ l = walk [] q.comps
  rw [← hl, walk_append, walk_of_names hnames]

/-- Unpacking keeps to the temporary directory, and removes nothing. -/
structure KeepsTo (tmp : PathBuf) (fs fs' : HostFs) : Prop where
  agree : HostFs.AgreeOn (OutsideOf tmp) fs fs'
  dirs : fs.dirs ⊆ fs'.dirs

theorem KeepsTo.refl (tmp : PathBuf) (fs : HostFs) : KeepsTo tmp fs fs :=
  ⟨.refl fs, List.Subset.refl _⟩

variable {fs : HostFs}

theorem KeepsTo.trans {fs'' : HostFs} (h : KeepsTo tmp fs fs') (h' : KeepsTo tmp fs' fs'') :
    KeepsTo tmp fs fs'' := ⟨h.agree.trans h'.agree, List.Subset.trans h.dirs h'.dirs⟩

theorem keepsTo_withDirs
    (h : ∀ q ∈ p.ancestors, q.resolve ∈ fs.dirs ∨ tmp.resolve.Under q.resolve) :
    KeepsTo tmp fs (fs.withDirs p) := by
  refine ⟨fun loc hloc => ⟨rfl, ?_⟩, subset_append_left _ _⟩
  rw [mem_withDirs_iff]
  constructor
  · exact .inl
  · rintro (hmem | ⟨q, hq, rfl⟩)
    · exact hmem
    · exact (h q hq).resolve_right hloc

variable {loc : Location}

theorem keepsTo_withFile (h : tmp.resolve.Under loc) (data : Bytes) :
    KeepsTo tmp fs (fs.withFile loc data) := by
  refine ⟨fun l hl => ⟨?_, Iff.rfl⟩, List.Subset.refl _⟩
  have hne : l ≠ loc := by
    rintro rfl
    exact hl h
  exact (read_withFile_ne hne).symm

theorem KeepsTo.isDir (h : KeepsTo tmp fs fs') (hp : fs.IsDir p) :
    fs'.IsDir p := fun q hq => h.dirs (hp q hq)

/-- How unpacking may change the file system: any relation that allows for its steps, which are to
    make the directories above an entry and to write its file. -/
structure AllowsEntries (tmp : PathBuf) (Q : String → Prop) (R : HostFs → HostFs → Prop) :
    Prop where
  refl : ∀ fs, R fs fs
  trans : ∀ fs fs' fs'', R fs fs' → R fs' fs'' → R fs fs''
  dirs : ∀ path, Q path → ∀ fs : HostFs, R fs (fs.withDirs (entryPath tmp path).parent)
  file : ∀ path, Q path → ∀ (fs : HostFs) data, R fs (fs.withFile (entryPath tmp path).resolve data)

namespace AllowsEntries

variable {Q : String → Prop} {R : HostFs → HostFs → Prop} (h : AllowsEntries tmp Q R)

include h

variable {path : String}

theorem unpackFile (hpath : Q path) (entry : ArchiveEntry) (s : FsState) :
    R s.fs (unpackFile tmp path entry s).state.fs := by
  unfold Avix.unpackFile
  split
  · exact h.refl _
  split
  · exact h.refl _
  rename_i hwrite
  obtain ⟨-, rfl⟩ := write_eq_ok hwrite
  exact h.file path hpath _ _

theorem unpackEntry (hpath : Q path) (entry : ArchiveEntry) (s : FsState) :
    R s.fs (unpackEntry tmp path entry s).state.fs := by
  unfold Avix.unpackEntry
  split
  · exact h.refl _
  split
  · exact h.refl _
  rename_i s' hdirs
  obtain rfl := createDirAll_eq_ok hdirs
  have hcre := h.dirs path hpath s.fs
  split_ifs
  · exact h.trans _ _ _ hcre (h.unpackFile hpath entry
      { s with fs := s.fs.withDirs (entryPath tmp path).parent })
  · exact hcre

theorem unpackEntries {entries : List (Except String ArchiveEntry)}
    (hentr : ∀ entry, .ok entry ∈ entries → ∀ path, entry.path = .ok path → Q path) (s : FsState) :
    R s.fs (unpackEntries tmp s entries).state.fs := by
  induction entries generalizing s with
  | nil => exact h.refl _
  | cons e rest ih =>
    cases e with
    | error e => exact h.refl _
    | ok entry =>
      rw [Avix.unpackEntries]
      split
      · exact h.refl _
      rename_i path hpath
      have hfirst := h.unpackEntry (hentr entry mem_cons_self path hpath) entry s
      dsimp only
      split
      · exact hfirst
      · exact h.trans _ _ _ hfirst
          (ih (fun entry hentry => hentr entry (mem_cons_of_mem _ hentry)) _)

theorem extractTarball (codec : Codecs) {bytes : Bytes}
    (hentr : ∀ entries, codec.untar bytes = .ok entries → ∀ entry, .ok entry ∈ entries →
      ∀ path, entry.path = .ok path → Q path)
    (s : FsState) : R s.fs (extractTarball codec bytes tmp s).state.fs := by
  unfold Avix.extractTarball
  split
  · exact h.refl _
  rename_i entries huntar
  have hunp := h.unpackEntries (hentr entries huntar) s
  dsimp only
  split
  · exact hunp
  · split_ifs <;> exact hunp

end AllowsEntries

/-- Entries without dot-dots stay in the temporary directory. -/
theorem allows_keepsTo (tmp : PathBuf) :
    AllowsEntries tmp (fun path => ∀ c ∈ skipFirst path, c ≠ "..")
      fun fs fs' => fs.IsDir tmp → KeepsTo tmp fs fs' where
  refl fs _ := .refl tmp fs
  trans _ _ _ h h' htmp := (h htmp).trans (h' ((h htmp).isDir htmp))
  dirs _ hpath _ htmp :=
    keepsTo_withDirs fun q hq => (ancestor_entryPath hpath hq).imp_left (htmp q)
  file _ hpath _ data _ := keepsTo_withFile (resolve_entryPath hpath) data

theorem allows_hasFile (tmp : PathBuf) :
    AllowsEntries tmp (fun _ => True) fun fs fs' => ∀ loc, fs.HasFile loc → fs'.HasFile loc where
  refl _ _ hfile := hfile
  trans _ _ _ h h' loc hfile := h' loc (h loc hfile)
  dirs _ _ _ _ hfile := hfile
  file _ _ _ _ _ hfile := hasFile_withFile.mpr (.inr hfile)

/-- A new temporary directory in a directory that is there. -/
theorem keepsTo_tempdir {s s' : FsState} {outcome : Except String PathBuf} {parent : PathBuf}
    {name : String} (hname : IsName name) (hpar : s.fs.IsDir parent)
    (h : s.tempdir outcome = .ok (parent.join name, s')) :
    KeepsTo (parent.join name) s.fs s'.fs ∧ s'.fs.IsDir (parent.join name) := by
  obtain ⟨-, rfl⟩ := tempdir_eq_ok h
  constructor
  · refine keepsTo_withDirs fun q hq => ?_
    rw [parent.ancestors_join hname, mem_append, mem_singleton] at hq
    rcases hq with hq | rfl
    · exact .inl (hpar q hq)
    · exact .inr (under_refl _)
  · exact fun q hq => mem_withDirs_iff.mpr (.inr ⟨q, hq, rfl⟩)

end Unpack

/-! ## What the installers do when they succeed -/

variable {s : FsState} {req : InstallRequest}

theorem placeTree_eq_ok {s' : FsState} {tmp target : PathBuf} {conflict : AvixError}
    {io : InstallIo} (h : placeTree s tmp target conflict io = (s', .ok ())) :
    s.fs.exists_ target = false ∧ ¬tmp.resolve.Under target.resolve ∧
      (∀ loc, s.fs.HasFile loc → ¬target.resolve.StrictlyUnder loc) ∧
      s'.fs = (s.fs.withDirs target).withMoved tmp.resolve target.resolve := by
  unfold placeTree at h
  split at h
  · cases (Prod.mk.inj h).2
  rename_i hexis
  split at h
  · cases (Prod.mk.inj h).2
  rename_i s₁ hdirs
  split at h
  · cases (Prod.mk.inj h).2
  rename_i s₂ hren
  obtain rfl := createDirAll_eq_ok hdirs
  obtain ⟨hout, hempty, rfl⟩ := rename_eq_ok hren
  rw [← (Prod.mk.inj h).1]
  exact ⟨Bool.eq_false_of_not_eq_true hexis, hout,
    fun _ hfile hloc => noFile_of_isEmptyDir hempty hloc hfile, rfl⟩

variable {r : InstallResult} {loc : Location}

theorem writeReceipt_eq_ok {codec : Codecs} {installDir : PathBuf} {unit : ServiceUnit}
    {io : InstallIo} (h : (writeReceipt codec s installDir unit req io).2 = .ok r) :
    (writeReceipt codec s installDir unit req io).1.fs =
      s.fs.withFile (installDir.join ".install.json").resolve
        (codec.receipt unit req.source req.checksum) := by
  unfold writeReceipt at h ⊢
  dsimp only at h ⊢
  split at h
  · cases h
  rename_i s' hwrite
  obtain ⟨-, rfl⟩ := write_eq_ok hwrite
  rfl

theorem serviceInstall_eq_ok {codec : Codecs} {net : Network} {root : PathBuf} {io : InstallIo}
    {tmp : PathBuf} {unit : ServiceUnit}
    (hunp : (unpack codec net req io s).result = .ok (tmp, unit))
    (h : (install codec net root req io s).2 = .ok r) :
    let fs := (unpack codec net req io s).state.fs
    let target := dir root (versionedName unit.name unit.version)
    fs.exists_ target = false ∧ ¬tmp.resolve.Under target.resolve ∧
      (install codec net root req io s).1.fs =
        ((fs.withDirs target).withMoved tmp.resolve target.resolve).withFile
          (target.join ".install.json").resolve (codec.receipt unit req.source req.checksum) := by
  unfold install at h ⊢
  dsimp only at h ⊢
  rw [hunp] at h ⊢
  dsimp only at h ⊢
  split at h
  · cases h
  rename_i hplac
  obtain ⟨hexis, hout, -, hfs⟩ := placeTree_eq_ok (Prod.ext rfl hplac)
  exact ⟨hexis, hout, (writeReceipt_eq_ok h).trans (by rw [hfs])⟩

theorem serviceUnpack_eq_ok {codec : Codecs} {net : Network} {io : InstallIo} {tmp : PathBuf}
    {unit : ServiceUnit} (h : (unpack codec net req io s).result = .ok (tmp, unit)) :
    ∃ bytes s₁, fetch net req.source = .ok bytes ∧ s.tempdir io.tempdir = .ok (tmp, s₁) ∧
      (unpack codec net req io s).state = (extractTarball codec bytes tmp s₁).state ∧
      readUnit codec (extractTarball codec bytes tmp s₁).state tmp = .ok unit := by
  unfold unpack at h ⊢
  split at h
  · cases h
  rename_i bytes hfetch
  split at h
  · cases h
  rename_i hver
  split at h
  · cases h
  rename_i tmp' s₁ htemp
  dsimp only at h
  obtain ⟨-, -, hread⟩ := bind_eq_ok_iff.mp h
  cases hunit : readUnit codec (extractTarball codec bytes tmp' s₁).state tmp' with
  | error e =>
    rw [hunit] at hread
    cases hread
  | ok unit' =>
    rw [hunit] at hread
    cases hread
    exact ⟨bytes, s₁, hfetch, htemp, rfl, hunit⟩

/-! ## The tree after the installation of a service -/

section Placed

/-- `<root>/data`. -/
def dataDir (root : PathBuf) : PathBuf := root.join "data"

theorem resolve_dataDir (root : PathBuf) :
    (dataDir root).resolve = root.resolve.child "data" (by decide) := root.resolve_join _

theorem resolve_servicesDir (root : PathBuf) :
    (servicesDir root).resolve = (dataDir root).resolve.child "services" (by decide) :=
  (dataDir root).resolve_join _

/-- `<root>/data/services/<package>`. -/
abbrev packageDir (root : PathBuf) {package : String} (h : IsName package) : Location :=
  (servicesDir root).resolve.child package h

/-- The tree with a new directory of one service. -/
structure Placed (before after : HostFs) (root : PathBuf) (target : Location) : Prop where
  /-- Nothing was there. -/
  fresh : ∀ loc, target.Under loc → before.read loc = none ∧ loc ∉ before.dirs
  read : ∀ loc, ¬target.Under loc → after.read loc = before.read loc
  dirs : ∀ d, ¬target.Under d → (d ∈ after.dirs ↔
      d ∈ before.dirs ∨ d = (dataDir root).resolve ∨ d = (servicesDir root).resolve)
  here : target ∈ after.dirs

variable {fs : HostFs} {root : PathBuf} {package : String}

/-- In a root directory that is there, a package directory adds at most three directories. -/
theorem mem_withDirs_package (hroot : fs.IsDir root) (hpackage : IsName package) {d : Location} :
    d ∈ (fs.withDirs ((servicesDir root).join package)).dirs ↔
      d ∈ fs.dirs ∨ d = (dataDir root).resolve ∨ d = (servicesDir root).resolve ∨
        d = packageDir root hpackage := by
  have hanc : ((servicesDir root).join package).ancestors =
      root.ancestors ++ [dataDir root] ++ [servicesDir root] ++
        [(servicesDir root).join package] := by
    rw [ancestors_join _ hpackage, servicesDir, ancestors_join _ (by decide),
      ancestors_join _ (by decide)]
    rfl
  rw [mem_withDirs_iff, hanc]
  simp only [mem_append, mem_singleton, or_assoc]
  constructor
  · rintro (hd | ⟨q, hq | rfl | rfl | rfl, rfl⟩)
    · exact .inl hd
    · exact .inl (hroot q hq)
    · exact .inr (.inl rfl)
    · exact .inr (.inr (.inl rfl))
    · exact .inr (.inr (.inr (resolve_join _ hpackage)))
  · rintro (hd | rfl | rfl | rfl)
    · exact .inl hd
    · exact .inr ⟨_, .inr (.inl rfl), rfl⟩
    · exact .inr ⟨_, .inr (.inr (.inl rfl)), rfl⟩
    · exact .inr ⟨_, .inr (.inr (.inr rfl)), resolve_join _ hpackage⟩

/-- A directory below the root that is there has the root's other directories above it. -/
theorem isDir_servicesDir (hroot : fs.IsDir root) (hwf : fs.WellFormed)
    (h : (servicesDir root).resolve ∈ fs.dirs) : fs.IsDir (servicesDir root) := by
  rw [resolve_servicesDir] at h
  have hdata : (dataDir root).resolve ∈ fs.dirs := hwf.parents _ h _ (under_child _ _)
  rw [resolve_dataDir] at hdata
  exact (isDir_join_iff (by decide)).mpr
    ⟨(isDir_join_iff (by decide)).mpr ⟨hroot, hdata⟩, h⟩

theorem fresh_of_not_exists (hroot : fs.IsDir root) (hwf : fs.WellFormed)
    (hpackage : IsName package)
    (h : fs.exists_ ((servicesDir root).join package) = false)
    (hloc : (packageDir root hpackage).Under loc) : fs.read loc = none ∧ loc ∉ fs.dirs := by
  have hup := under_child (servicesDir root).resolve hpackage
  have hnone : ¬((packageDir root hpackage) ∈ fs.dirs ∨ fs.HasFile (packageDir root hpackage)) := by
    intro hthere
    have hserv : (servicesDir root).resolve ∈ fs.dirs := by
      rcases hthere with hdir | hfile
      · exact hwf.parents _ hdir _ hup
      · exact hwf.homes _ hfile _ ⟨hup, child_ne _ _⟩
    have hexis := (exists_join_iff hpackage).mpr
      ⟨isDir_servicesDir hroot hwf hserv, hthere⟩
    rw [h] at hexis
    cases hexis
  obtain ⟨hnodir, hnof⟩ := not_or.mp hnone
  exact hwf.nothing_under hnodir hnof hloc

/-- The file system before an installation, with the tree that was unpacked, and after it. -/
structure Moved (before unpacked after : HostFs) (root tmp : PathBuf) (package : String)
    (receipt : Bytes) : Prop where
  keeps : KeepsTo tmp before unpacked
  /-- The temporary directory is new. -/
  new : ∀ loc, tmp.resolve.Under loc → before.read loc = none ∧ loc ∉ before.dirs
  isDir : unpacked.IsDir tmp
  temp : ∃ parent name, IsName name ∧ before.IsDir parent ∧ tmp = parent.join name
  missing : unpacked.exists_ ((servicesDir root).join package) = false
  outside : ¬tmp.resolve.Under ((servicesDir root).join package).resolve
  after : after = ((unpacked.withDirs ((servicesDir root).join package)).withMoved tmp.resolve
    ((servicesDir root).join package).resolve).withFile
      (((servicesDir root).join package).join ".install.json").resolve receipt

namespace Moved

variable {before unpacked after : HostFs} {tmp : PathBuf} {receipt : Bytes}
  (h : Moved before unpacked after root tmp package receipt) (hroot : before.IsDir root)
  (hwf : before.WellFormed) (hpackage : IsName package)

include h hroot hwf

theorem fresh : ∀ loc, (packageDir root hpackage).Under loc →
    before.read loc = none ∧ loc ∉ before.dirs := by
  intro loc hloc
  refine fresh_of_not_exists hroot hwf hpackage ?_ hloc
  by_contra hexists
  obtain ⟨hserv, hthere⟩ :=
    (exists_join_iff hpackage).mp (Bool.eq_true_of_not_eq_false hexists)
  have hout := h.outside
  rw [resolve_join _ hpackage] at hout
  have hthere' := (exists_join_iff hpackage).mpr ⟨h.keeps.isDir hserv,
    hthere.imp (h.keeps.agree _ hout).2.mp (h.keeps.agree.hasFile hout).mp⟩
  rw [h.missing] at hthere'
  cases hthere'

theorem not_under : ¬(packageDir root hpackage).Under tmp.resolve := by
  intro hunder
  have hout := h.outside
  rw [resolve_join _ hpackage] at hout
  obtain ⟨parent, name, hname, hpar, rfl⟩ := h.temp
  rw [parent.resolve_join hname] at hunder hout
  rcases under_child_iff.mp hunder with heq | hup
  · exact hout (heq ▸ under_refl _)
  · exact (h.fresh hroot hwf hpackage _ hup).2 hpar.resolve_mem

theorem placed : Placed before after root (packageDir root hpackage) := by
  have hout := h.outside
  have hafter := h.after
  rw [resolve_join _ (show IsName ".install.json" by decide)] at hafter
  rw [resolve_join _ hpackage] at hout hafter
  refine ⟨h.fresh hroot hwf hpackage, fun loc hloc => ?_, fun d hd => ?_, ?_⟩
  · have hne : loc ≠ (packageDir root hpackage).child ".install.json"
        (by decide) := fun heq => hloc (heq ▸ under_child _ _)
    rw [hafter, read_withFile_ne hne, read_withMoved_of_not_under hloc]
    split_ifs with htmp
    · exact (h.new loc htmp).1.symm
    · exact (h.keeps.agree loc htmp).1.symm
  · have hne : d ≠ packageDir root hpackage :=
      fun heq => hd (heq ▸ under_refl _)
    have hdirs : d ∈ after.dirs ↔
        d ∈ (unpacked.withDirs ((servicesDir root).join package)).dirs ∧ ¬tmp.resolve.Under d := by
      rw [hafter]
      exact mem_withMoved_of_not_under hd
    -- The two directories above the package's are not in the temporary directory.
    have hup : ∀ dir : Location, dir.Under (servicesDir root).resolve → ¬tmp.resolve.Under dir :=
      fun dir hdir htmp => hout (under_trans htmp (under_trans hdir (under_child _ _)))
    rw [hdirs, mem_withDirs_package (h.keeps.isDir hroot) hpackage]
    constructor
    · rintro ⟨hmem | hmem | hmem | hmem, htmp⟩
      · exact .inl ((h.keeps.agree d htmp).2.mpr hmem)
      · exact .inr (.inl hmem)
      · exact .inr (.inr hmem)
      · exact absurd hmem hne
    · rintro (hmem | rfl | rfl)
      · exact ⟨.inl (h.keeps.dirs hmem), fun htmp => (h.new d htmp).2 hmem⟩
      · exact ⟨.inr (.inl rfl), hup _ (resolve_servicesDir root ▸ under_child _ _)⟩
      · exact ⟨.inr (.inr (.inl rfl)), hup _ (under_refl _)⟩
  · rw [hafter]
    exact target_mem_withMoved (mem_withDirs_iff.mpr (.inl h.isDir.resolve_mem))

theorem read_child {name : String} (hname : IsName name) (hne : name ≠ ".install.json") :
    after.read ((packageDir root hpackage).child name hname) =
      unpacked.read (tmp.resolve.child name hname) := by
  have hout := h.outside
  have hafter := h.after
  rw [resolve_join _ (show IsName ".install.json" by decide)] at hafter
  rw [resolve_join _ hpackage] at hout hafter
  have hempty : ∀ l, (unpacked.withDirs ((servicesDir root).join package)).HasFile l →
      ¬(packageDir root hpackage).Under l := by
    intro l hfile hl
    by_cases htmp : tmp.resolve.Under l
    · exact (under_total htmp hl).elim hout (h.not_under hroot hwf hpackage)
    have hread := (h.fresh hroot hwf hpackage l hl).1
    rw [(h.keeps.agree l htmp).1] at hread
    have hsome := hasFile_iff_read.mp hfile
    rw [read_withDirs, hread] at hsome
    cases hsome
  rw [hafter, read_withFile_ne fun heq => hne (child_inj heq).2, ← rebase_child tmp.resolve _ hname,
    read_withMoved_rebase (under_child _ _) hempty, read_withDirs]

end Moved

end Placed

/-! ## Finding a service -/

theorem versionedName_ne (name version : String) : name ≠ versionedName name version := by
  intro heq
  have hlen := congrArg String.length heq
  rw [versionedName, String.length_append, String.length_append] at hlen
  have hat : "@".length = 1 := rfl
  omega

theorem startsWith_versionedName (name version : String) :
    startsWith (versionedName name version) (name ++ "@") = true := by
  have hlist : (versionedName name version).toList = (name ++ "@").toList ++ version.toList :=
    String.toList_append
  rw [startsWith, isPrefixOf_iff_prefix, hlist]
  exact prefix_append _ _

namespace Placed

variable {before after : HostFs} {root : PathBuf} {package name : String}
  {hpackage : IsName package} {target : Location}

section

variable (h : Placed before after root target)

include h

theorem dirs_subset : before.dirs ⊆ after.dirs := fun d hd =>
  (h.dirs d fun hunder => (h.fresh d hunder).2 hd).mpr (.inl hd)

theorem isDir {p : PathBuf} (hp : before.IsDir p) :
    after.IsDir p := fun q hq => h.dirs_subset (hp q hq)

/-- A part of the tree where the installation makes neither the package nor a directory. -/
theorem agreeOn {dir : Location} (hout : ∀ loc, dir.Under loc → ¬target.Under loc)
    (hdata : ¬dir.Under (dataDir root).resolve) (hserv : ¬dir.Under (servicesDir root).resolve) :
    HostFs.AgreeOn dir.Under before after := by
  intro loc hloc
  refine ⟨(h.read loc (hout loc hloc)).symm, ?_⟩
  rw [h.dirs loc (hout loc hloc)]
  constructor
  · exact .inl
  · rintro (hmem | rfl | rfl)
    · exact hmem
    · exact absurd hloc hdata
    · exact absurd hloc hserv

end

variable (h : Placed before after root (packageDir root hpackage))

include h

/-- `<root>/services` is not `<root>/data/services`. -/
theorem agreeOn_rootServices :
    HostFs.AgreeOn (root.join "services").resolve.Under before after := by
  have hdata : (dataDir root).resolve.Under (servicesDir root).resolve :=
    resolve_servicesDir root ▸ under_child _ _
  have hother : ∀ loc, (root.join "services").resolve.Under loc →
      ¬(dataDir root).resolve.Under loc := by
    intro loc hloc
    rw [resolve_join _ (show IsName "services" by decide)] at hloc
    rw [resolve_dataDir]
    exact not_under_of_child_ne (by decide) hloc
  refine h.agreeOn (fun loc hloc hunder => ?_) (fun hunder => ?_) fun hunder => ?_
  · exact hother loc hloc (under_trans hdata (under_trans (under_child _ _) hunder))
  · exact hother _ hunder (under_refl _)
  · exact hother _ hunder hdata

theorem agreeOn_sibling (hname : IsName name) (hne : name ≠ package) :
    HostFs.AgreeOn (packageDir root hname).Under before after := by
  have hserv : ¬(packageDir root hname).Under
      (servicesDir root).resolve := fun hunder =>
    child_ne _ hname (under_antisymm hunder (under_child _ _))
  refine h.agreeOn (fun loc hloc => not_under_of_child_ne hne hloc) (fun hunder => ?_) hserv
  exact hserv (under_trans hunder (resolve_servicesDir root ▸ under_child _ _))

theorem isDir_services (hroot : before.IsDir root) : after.IsDir (servicesDir root) := by
  have hmem : ∀ d : Location, d.Under (servicesDir root).resolve →
      d = (dataDir root).resolve ∨ d = (servicesDir root).resolve → d ∈ after.dirs := by
    intro d hd heq
    refine (h.dirs d fun hunder => ?_).mpr (.inr heq)
    exact child_ne _ hpackage (under_antisymm (under_trans hunder hd) (under_child _ _))
  have hdata := hmem (dataDir root).resolve
    (resolve_servicesDir root ▸ under_child _ _) (.inl rfl)
  have hserv := hmem _ (under_refl _) (.inr rfl)
  rw [resolve_dataDir] at hdata
  rw [resolve_servicesDir] at hserv
  exact (isDir_join_iff (by decide)).mpr
    ⟨(isDir_join_iff (by decide)).mpr ⟨h.isDir hroot, hdata⟩, hserv⟩

/-- What the registration finds in the directory of another name. -/
theorem exists_tools (hname : IsName name) (hne : name ≠ package)
    (hroot : before.IsDir root) (hwf : before.WellFormed) :
    after.exists_ (((servicesDir root).join name).join "tools") =
      before.exists_ (((servicesDir root).join name).join "tools") := by
  have hagree := h.agreeOn_sibling hname hne
  have hself := under_refl (packageDir root hname)
  have htools := under_child (packageDir root hname) (show IsName "tools" by decide)
  have hserv : packageDir root hname ∈ before.dirs → before.IsDir (servicesDir root) := fun hdir =>
    isDir_servicesDir hroot hwf (hwf.parents _ hdir _ (under_child _ _))
  rw [Bool.eq_iff_iff, exists_join_iff (by decide), exists_join_iff (by decide),
    isDir_join_iff hname, isDir_join_iff hname, resolve_join _ hname,
    ← (hagree _ hself).2, ← (hagree _ htools).2, ← hagree.hasFile htools]
  constructor
  · rintro ⟨⟨-, hdir⟩, hthere⟩
    exact ⟨⟨hserv hdir, hdir⟩, hthere⟩
  · rintro ⟨⟨-, hdir⟩, hthere⟩
    exact ⟨⟨h.isDir_services hroot, hdir⟩, hthere⟩

theorem sameTools_iff (hname : IsName name) (hne : name ≠ package)
    (hroot : before.IsDir root) (hwf : before.WellFormed)
    {parse : Bytes → Except String ToolDescriptor} {tools : Except AvixError (List ToolEntry)} :
    SameTools (registeredTools parse after root name) tools ↔
      SameTools (registeredTools parse before root name) tools := by
  have hagree : HostFs.AgreeOn (((servicesDir root).join name).join "tools").resolve.Under
      before after := by
    intro loc hloc
    rw [resolve_join _ (show IsName "tools" by decide), resolve_join _ hname] at hloc
    exact h.agreeOn_sibling hname hne loc (under_trans (under_child _ _) hloc)
  have hexis := h.exists_tools hname hne hroot hwf
  constructor
  · rintro ⟨l, l', hl, hl', hperm⟩
    obtain ⟨k, hk, hperm'⟩ := scanAsEntries_congr hagree.symm hexis.symm hl
    exact ⟨k, l', hk, hl', hperm'.trans hperm⟩
  · rintro ⟨l, l', hl, hl', hperm⟩
    obtain ⟨k, hk, hperm'⟩ := scanAsEntries_congr hagree hexis hl
    exact ⟨k, l', hk, hl', hperm'.trans hperm⟩

theorem discovered_iff (hroot : before.IsDir root) {codec : Codecs} {unit : ServiceUnit} :
    (∃ units, discoverInstalled codec after root = .ok units ∧ unit ∈ units) ↔
      ∃ units, discoverInstalled codec before root = .ok units ∧ unit ∈ units := by
  have hagree := h.agreeOn_rootServices
  have hroot' := h.isDir hroot
  constructor
  · rintro ⟨units, hunits, hmem⟩
    obtain ⟨units', hunits', hperm⟩ := discoverInstalled_congr hagree.symm hroot' hroot hunits
    exact ⟨units', hunits', hperm.mem_iff.mpr hmem⟩
  · rintro ⟨units, hunits, hmem⟩
    obtain ⟨units', hunits', hperm⟩ := discoverInstalled_congr hagree hroot hroot' hunits
    exact ⟨units', hunits', hperm.mem_iff.mpr hmem⟩

/-- The directories in `<root>/data/services`: one more than before. -/
theorem mem_subdirs_iff {c : String} : c ∈ after.subdirs (servicesDir root).resolve ↔
    c = package ∨ c ∈ before.subdirs (servicesDir root).resolve := by
  rw [HostFs.mem_subdirs_iff, HostFs.mem_subdirs_iff]
  constructor
  · rintro ⟨hc, hmem⟩
    by_cases heq : c = package
    · exact .inl heq
    · exact .inr ⟨hc, (h.agreeOn_sibling hc heq _ (under_refl _)).2.mpr hmem⟩
  · rintro (rfl | ⟨hc, hmem⟩)
    · exact ⟨hpackage, h.here⟩
    · exact ⟨hc, h.dirs_subset hmem⟩

end Placed

/-! ## Removing a service -/

section Remove

variable {dir : PathBuf} {name : String}

/-- The location is in the tree of a directory of some version. -/
def OfVersion (dir : PathBuf) (name : String) (dirNames : List String) (loc : Location) : Prop :=
  ∃ dirName ∈ dirNames, startsWith dirName (name ++ "@") = true ∧
    (dir.join dirName).resolve.Under loc

variable {rest : List String} {dirName : String}

theorem ofVersion_cons_iff : OfVersion dir name (dirName :: rest) loc ↔
    (startsWith dirName (name ++ "@") = true ∧ (dir.join dirName).resolve.Under loc) ∨
      OfVersion dir name rest loc := by
  simp only [OfVersion, mem_cons, exists_eq_or_imp]

/-- The trees of some versions are gone, and all else is as it was. -/
structure Removed (dir : PathBuf) (name : String) (dirNames : List String) (fs fs' : HostFs) :
    Prop where
  gone : ∀ loc, OfVersion dir name dirNames loc → fs'.read loc = none ∧ loc ∉ fs'.dirs
  kept : HostFs.AgreeOn (fun loc => ¬OfVersion dir name dirNames loc) fs fs'

variable {fs fs' : HostFs}

theorem Removed.cons_skip (hskip : startsWith dirName (name ++ "@") = false)
    (h : Removed dir name rest fs fs') : Removed dir name (dirName :: rest) fs fs' := by
  have hiff : ∀ loc, OfVersion dir name (dirName :: rest) loc ↔ OfVersion dir name rest loc := by
    intro loc
    rw [ofVersion_cons_iff, hskip]
    exact or_iff_right fun h => Bool.false_ne_true h.1
  refine ⟨fun loc hloc => h.gone loc ((hiff loc).mp hloc), fun loc hloc => h.kept loc ?_⟩
  exact fun hof => hloc ((hiff loc).mpr hof)

theorem Removed.cons (htake : startsWith dirName (name ++ "@") = true)
    (h : Removed dir name rest (fs.withoutTree (dir.join dirName).resolve) fs') :
    Removed dir name (dirName :: rest) fs fs' := by
  refine ⟨fun loc hloc => ?_, fun loc hloc => ?_⟩
  · by_cases hrest : OfVersion dir name rest loc
    · exact h.gone loc hrest
    · have hunder := ((ofVersion_cons_iff.mp hloc).resolve_right hrest).2
      obtain ⟨hread, hdirs⟩ := h.kept loc hrest
      rw [read_withoutTree, if_pos hunder] at hread
      rw [mem_withoutTree_iff] at hdirs
      exact ⟨hread.symm, fun hmem => (hdirs.mpr hmem).2 hunder⟩
  · obtain ⟨hnot, hrest⟩ := not_or.mp (mt ofVersion_cons_iff.mpr hloc)
    have hunder : ¬(dir.join dirName).resolve.Under loc := fun hunder => hnot ⟨htake, hunder⟩
    obtain ⟨hread, hdirs⟩ := h.kept loc hrest
    rw [read_withoutTree, if_neg hunder] at hread
    rw [mem_withoutTree_iff, and_iff_left hunder] at hdirs
    exact ⟨hread, hdirs⟩

/-- Different directories that are there can all be removed. -/
theorem removeServices_ok {env : PackageEnv} (henv : ∀ dirName, env.removeError dirName = none)
    {dirNames : List String} (hnodup : dirNames.Nodup) (hnames : ∀ c ∈ dirNames, IsName c)
    (s : FsState) (hdirs : ∀ c ∈ dirNames, (dir.join c).resolve ∈ s.fs.dirs) :
    ∃ s', removeServices dir name env s dirNames =
        (s', .ok (dirNames.filter (startsWith · (name ++ "@")))) ∧
      Removed dir name dirNames s.fs s'.fs := by
  induction dirNames generalizing s with
  | nil =>
    refine ⟨s, rfl, fun loc hloc => ?_, .refl _⟩
    obtain ⟨_, hmem, -⟩ := hloc
    cases hmem
  | cons dirName rest ih =>
    have hrest := (nodup_cons.mp hnodup).2
    have hnames' : ∀ c ∈ rest, IsName c := fun c hc => hnames c (mem_cons_of_mem _ hc)
    have hdirs' : ∀ c ∈ rest, (dir.join c).resolve ∈ s.fs.dirs := fun c hc =>
      hdirs c (mem_cons_of_mem _ hc)
    cases htake : startsWith dirName (name ++ "@") with
    | false =>
      obtain ⟨s', hs', hrem⟩ := ih hrest hnames' s hdirs'
      refine ⟨s', ?_, hrem.cons_skip htake⟩
      rw [removeServices, htake, if_neg Bool.false_ne_true, hs', filter_cons_of_neg]
      exact fun h => Bool.false_ne_true (htake.symm.trans h)
    | true =>
      have hdirN := hnames dirName mem_cons_self
      -- The other directories do not lie in the one that is removed.
      have hstay : ∀ c ∈ rest,
          (dir.join c).resolve ∈ (s.removeTree (dir.join dirName)).fs.dirs := by
        intro c hc
        refine mem_withoutTree_iff.mpr ⟨hdirs' c hc, ?_⟩
        have hne : c ≠ dirName := fun heq => (nodup_cons.mp hnodup).1 (heq ▸ hc)
        rw [dir.resolve_join (hnames' c hc), dir.resolve_join hdirN]
        exact not_under_of_child_ne hne (under_refl _)
      obtain ⟨s', hs', hrem⟩ := ih hrest hnames' (s.removeTree (dir.join dirName)) hstay
      refine ⟨s', ?_, hrem.cons htake⟩
      have hremove : s.removeDirAll (dir.join dirName) none =
          .ok (s.removeTree (dir.join dirName)) := if_pos (hdirs dirName mem_cons_self)
      rw [removeServices, htake, if_pos rfl, henv, hremove]
      dsimp only
      rw [hs', filter_cons, if_pos htake]
      rfl

end Remove

namespace Placed

variable {before after : HostFs} {root : PathBuf} {package name : String}
  {hpackage : IsName package}
  (h : Placed before after root (packageDir root hpackage))
  (hstarts : startsWith package (name ++ "@") = true)

include h hstarts

theorem ofVersion_iff :
    OfVersion (servicesDir root) name (after.subdirs (servicesDir root).resolve) loc ↔
      (packageDir root hpackage).Under loc ∨
        OfVersion (servicesDir root) name (before.subdirs (servicesDir root).resolve) loc := by
  rw [packageDir, ← resolve_join]
  constructor
  · rintro ⟨c, hc, hvers, hunder⟩
    rcases h.mem_subdirs_iff.mp hc with rfl | hc
    · exact .inl hunder
    · exact .inr ⟨c, hc, hvers, hunder⟩
  · rintro (hunder | ⟨c, hc, hvers, hunder⟩)
    · exact ⟨package, h.mem_subdirs_iff.mpr (.inl rfl), hstarts, hunder⟩
    · exact ⟨c, h.mem_subdirs_iff.mpr (.inr hc), hvers, hunder⟩

/-- Removing all versions restores the tree if there was no other version and no directory had to
    be made for the first service. -/
theorem sameTree_iff (hroot : before.IsDir root) (hwf : before.WellFormed) {fs : HostFs}
    (hrem : Removed (servicesDir root) name (after.subdirs (servicesDir root).resolve) after
      fs) :
    SameTree before fs ↔ (servicesDir root).resolve ∈ before.dirs ∧
      ∀ c ∈ before.subdirs (servicesDir root).resolve, startsWith c (name ++ "@") = false := by
  constructor
  · intro hsame
    constructor
    · -- The directory of all services stays.
      have hout : ¬OfVersion (servicesDir root) name (after.subdirs (servicesDir root).resolve)
          (servicesDir root).resolve := by
        rintro ⟨c, hc, -, hunder⟩
        obtain ⟨hname, -⟩ := HostFs.mem_subdirs_iff.mp hc
        rw [resolve_join _ hname] at hunder
        exact child_ne _ hname (under_antisymm hunder (under_child _ _))
      have hafter := (h.isDir_services hroot).resolve_mem
      exact (hsame _ trivial).2.mpr ((hrem.kept _ hout).2.mp hafter)
    · intro c hc
      by_contra hvers
      obtain ⟨hname, hmem⟩ := HostFs.mem_subdirs_iff.mp hc
      have hof : OfVersion (servicesDir root) name (after.subdirs (servicesDir root).resolve)
          ((servicesDir root).resolve.child c hname) :=
        ⟨c, h.mem_subdirs_iff.mpr (.inr hc), Bool.eq_true_of_not_eq_false hvers,
          resolve_join _ hname ▸ under_refl _⟩
      exact (hrem.gone _ hof).2 ((hsame _ trivial).2.mp hmem)
  · rintro ⟨hserv, hnone⟩ loc -
    have hbef : ¬OfVersion (servicesDir root) name
        (before.subdirs (servicesDir root).resolve) loc := by
      rintro ⟨c, hc, hvers, -⟩
      exact Bool.false_ne_true ((hnone c hc).symm.trans hvers)
    by_cases hunder : (packageDir root hpackage).Under loc
    · obtain ⟨hread, hdir⟩ := h.fresh loc hunder
      obtain ⟨hread', hdir'⟩ := hrem.gone loc ((h.ofVersion_iff hstarts).mpr (.inl hunder))
      exact ⟨hread.trans hread'.symm, iff_of_false hdir hdir'⟩
    have hout := mt (h.ofVersion_iff hstarts).mp (not_or.mpr ⟨hunder, hbef⟩)
    obtain ⟨hread, hdirs⟩ := hrem.kept loc hout
    refine ⟨(h.read loc hunder).symm.trans hread, ?_⟩
    rw [← hdirs, h.dirs loc hunder]
    -- The directories above the package were there.
    have hdata : (dataDir root).resolve ∈ before.dirs :=
      hwf.parents _ hserv _ (resolve_servicesDir root ▸ under_child _ _)
    constructor
    · exact .inl
    · rintro (hmem | rfl | rfl)
      · exact hmem
      · exact hdata
      · exact hserv

theorem uninstallService_ok {ctx : SyscallContext} {params : Json} {env : PackageEnv}
    {s : FsState} (hs : s.fs = after)
    (hcap : checkSyscallCapability ctx "proc/package/install-service" = .ok ())
    (hparam : paramStr params "name" = some name)
    (henv : ∀ dirName, env.removeError dirName = none) :
    (∃ reply, (uninstallService ctx params root env s).2 = .ok reply) ∧
      Removed (servicesDir root) name (after.subdirs (servicesDir root).resolve) after
        (uninstallService ctx params root env s).1.fs := by
  subst hs
  obtain ⟨s', hs', hrem⟩ : ∃ s', removeServices (servicesDir root) name env s
        (s.fs.subdirs (servicesDir root).resolve) = (s', .ok _) ∧
      Removed (servicesDir root) name (s.fs.subdirs (servicesDir root).resolve) s.fs s'.fs := by
    refine removeServices_ok henv (s.fs.nodup_subdirs _) (fun c hc => ?_) s fun c hc => ?_
    · exact (HostFs.mem_subdirs_iff.mp hc).1
    · obtain ⟨hname, hmem⟩ := HostFs.mem_subdirs_iff.mp hc
      rwa [resolve_join _ hname]
  have hmem : package ∈ (s.fs.subdirs (servicesDir root).resolve).filter
      (startsWith · (name ++ "@")) :=
    mem_filter.mpr ⟨h.mem_subdirs_iff.mpr (.inl rfl), hstarts⟩
  unfold uninstallService
  rw [hcap, hparam]
  dsimp only
  rw [show (root.join "data").join "services" = servicesDir root from rfl, hs']
  refine ⟨?_, hrem⟩
  dsimp only
  split
  · rename_i hfail
    cases hfail
  · rename_i hnil
    rw [Except.ok.inj hnil] at hmem
    cases hmem
  · exact ⟨_, rfl⟩

/-- The loader finds the package if it is the only version. -/
theorem loadForService_ok
    (hnone : ∀ c ∈ before.subdirs (servicesDir root).resolve, startsWith c (name ++ "@") = false)
    {codec : Codecs} {content : Bytes} {unit : ServiceUnit}
    (hread : after.read ((packageDir root hpackage).child "manifest.yaml"
      (by decide)) = some content)
    (hunit : codec.serviceUnit content = .ok unit) :
    loadForService codec after root name = .ok unit := by
  have hfind : (after.subdirs (servicesDir root).resolve).find? (startsWith · (name ++ "@")) =
      some package := by
    cases hfound : (after.subdirs (servicesDir root).resolve).find? (startsWith · (name ++ "@"))
      with
    | none =>
      have hmem := h.mem_subdirs_iff.mpr (.inl rfl)
      exact absurd hstarts (find?_eq_none.mp hfound package hmem)
    | some c =>
      rcases h.mem_subdirs_iff.mp (mem_of_find?_eq_some hfound) with rfl | hc
      · rfl
      · have hvers : startsWith c (name ++ "@") = true := by simpa using find?_some hfound
        exact absurd ((hnone c hc).symm.trans hvers) Bool.false_ne_true
  rw [loadForService, hfind]
  dsimp only
  rw [ServiceUnit.load, resolve_join _ (show IsName "manifest.yaml" by decide),
    resolve_join _ hpackage, hread]
  exact hunit

end Placed

/-! ## Services -/

namespace ServiceCase

variable {c : ServiceCase} {tmp : PathBuf} {unit : ServiceUnit} (h : c.Installed tmp unit)

include h

theorem Installed.moved : Moved c.before.fs c.unpacked.state.fs c.installed.1.fs c.root tmp
    (versionedName unit.name unit.version)
    (c.codec.receipt unit c.req.source c.req.checksum) := by
  obtain ⟨r, hr⟩ := h.ok
  obtain ⟨bytes, s₁, hfetch, htemp, hstate, -⟩ := serviceUnpack_eq_ok h.unpacked
  obtain ⟨hmiss, hout, hafter⟩ := serviceInstall_eq_ok h.unpacked hr
  obtain ⟨⟨hnodir, hnof⟩, -⟩ := tempdir_eq_ok htemp
  obtain ⟨parent, name, hname, hpar, rfl⟩ := h.temp
  obtain ⟨hfirst, hdir⟩ := keepsTo_tempdir hname hpar htemp
  have hsec := (allows_keepsTo (parent.join name)).extractTarball c.codec
    (fun entries huntar entry hentry => h.entries bytes entries hfetch huntar entry hentry) s₁ hdir
  have hunp : c.unpacked.state = (extractTarball c.codec bytes (parent.join name) s₁).state :=
    hstate
  rw [← hunp] at hsec
  exact ⟨hfirst.trans hsec, fun loc hloc => h.host.nothing_under hnodir hnof hloc,
    hsec.isDir hdir, ⟨parent, name, hname, hpar, rfl⟩, hmiss, hout, hafter⟩

theorem Installed.manifest : ∃ content, c.installed.1.fs.read (((servicesDir c.root).resolve.child
    (versionedName unit.name unit.version) h.package).child "manifest.yaml" (by decide)) =
      some content ∧ c.codec.serviceUnit content = .ok unit := by
  obtain ⟨bytes, s₁, -, -, hstate, hunit⟩ := serviceUnpack_eq_ok h.unpacked
  have hunp : c.unpacked.state = (extractTarball c.codec bytes tmp s₁).state := hstate
  rw [← hunp, readUnit, resolve_join _ (show IsName "manifest.yaml" by decide)] at hunit
  rw [h.moved.read_child h.root h.host h.package (by decide) (by decide)]
  split at hunit
  · cases hunit
  · rename_i content hread
    exact ⟨content, hread, hunit⟩

theorem agrees_iff : c.Agrees tmp unit ↔ c.Condition tmp unit := by
  have hplac := h.moved.placed h.root h.host h.package
  have hstarts := startsWith_versionedName unit.name unit.version
  have htools : SameTools (registeredTools c.parse c.installed.1.fs c.root unit.name)
      (c.packageTools tmp unit) ↔ SameTools (registeredTools c.parse c.before.fs c.root unit.name)
        (c.packageTools tmp unit) :=
    hplac.sameTools_iff h.name (versionedName_ne unit.name unit.version) h.root h.host
  obtain ⟨hok, hrem⟩ := hplac.uninstallService_ok hstarts rfl h.capability h.param h.noError
  have hrest := hplac.sameTree_iff hstarts h.root h.host hrem
  constructor
  · intro hagr
    obtain ⟨hserv, hnone⟩ := hrest.mp hagr.restored
    exact ⟨(hplac.discovered_iff h.root).mp hagr.discovered, htools.mp hagr.tools, hserv, hnone⟩
  · intro hcond
    obtain ⟨content, hread, hunit⟩ := h.manifest
    exact ⟨(hplac.discovered_iff h.root).mpr hcond.discovered,
      hplac.loadForService_ok hstarts hcond.noVersion hread hunit, htools.mpr hcond.tools, hok,
      hrest.mpr ⟨hcond.services, hcond.noVersion⟩⟩

end ServiceCase

/-! ## Agents -/

/-- The directory of the packages of a scope. -/
def InstallScope.base (root : PathBuf) : InstallScope → PathBuf
  | .system => (root.join "data").join "bin"
  | .user username => (((root.join "data").join "users").join username).join "bin"

theorem resolve_scopeDir (root : PathBuf) (scope : InstallScope) {package : String}
    (h : IsName package) : (scope.dir root package).resolve =
      (InstallScope.base root scope).resolve.child package h := by
  cases scope <;> exact resolve_join _ h

theorem hasFile_writeClone {tmp : PathBuf} (files : List ClonedFile) (h : s.fs.HasFile loc) :
    (AgentInstaller.writeClone s tmp files).fs.HasFile loc := by
  induction files generalizing s with
  | nil => exact h
  | cons f rest ih => exact ih (hasFile_withFile.mpr (.inr h))

theorem hasFile_agentUnpack {codec : Codecs} {net : Network} {platform : Platform}
    {req : AgentInstallRequest} {io : InstallIo} (h : s.fs.HasFile loc) :
    (AgentInstaller.unpack codec net platform req io s).state.fs.HasFile loc := by
  unfold AgentInstaller.unpack
  split
  · exact h
  · split
    · exact h
    · rename_i tmp s' htemp
      obtain ⟨-, rfl⟩ := tempdir_eq_ok htemp
      split
      · exact h
      · exact hasFile_writeClone _ h
  · split
    · exact h
    · split
      · exact h
      · split
        · exact h
        · rename_i tmp s' htemp
          obtain ⟨-, rfl⟩ := tempdir_eq_ok htemp
          exact (allows_hasFile tmp).extractTarball codec (fun _ _ _ _ _ _ => trivial) _ loc h

namespace AgentCase

variable {c : AgentCase} {r : AgentInstallResult}

/-- The manifest of an installed agent is a new file. -/
theorem Installed.manifest (h : c.Installed r) :
    let loc := ((InstallScope.base c.root c.req.scope).resolve.child
      (versionedName r.name r.version) h.package).child "manifest.yaml" (by decide)
    ¬c.before.fs.HasFile loc ∧ c.installed.1.fs.HasFile loc := by
  have hok := h.ok
  have spec := Security.unpackSpec_agent c.codec c.net c.platform c.req c.io c.before
  unfold AgentCase.installed AgentInstaller.install at hok ⊢
  dsimp only at hok ⊢
  split at hok
  · cases hok
  rename_i tmp manifest hunp
  obtain ⟨u, hplac, hr⟩ := map_eq_ok_iff.mp hok
  obtain rfl := hr
  obtain ⟨-, -, hempty, hfs⟩ := placeTree_eq_ok (Prod.ext rfl hplac)
  have hman := (spec.manifest tmp manifest hunp).2
  rw [resolve_join _ (show IsName "manifest.yaml" by decide)] at hman
  rw [resolve_scopeDir c.root c.req.scope h.package] at hempty hfs
  constructor
  · intro hbef
    exact hempty _ (hasFile_agentUnpack hbef) ⟨under_child _ _, child_ne _ _⟩
  · dsimp only
    rw [hfs, ← rebase_child tmp.resolve _ (show IsName "manifest.yaml" by decide)]
    exact hasFile_withMoved_rebase (under_child _ _) hman

theorem not_agrees (h : c.Installed r) : ¬c.Agrees r := by
  rintro ⟨-, ⟨reply, hreply⟩, hrest⟩
  obtain ⟨hnew, hthere⟩ := h.manifest
  -- Only the directory without a version is removed, so that the manifest stays.
  have hrem : c.uninstalled.1.fs = c.installed.1.fs.withoutTree
      ((InstallScope.base c.root c.req.scope).resolve.child r.name h.name) := by
    unfold AgentCase.uninstalled uninstallAgent at hreply ⊢
    rw [h.capability, h.param] at hreply ⊢
    dsimp only at hreply ⊢
    rw [h.scope] at hreply ⊢
    split at hreply
    · rename_i hexis
      split at hreply
      · cases hreply
      rename_i s' hremove
      obtain rfl := removeDirAll_eq_ok hremove
      rw [if_pos hexis, removeTree, resolve_scopeDir _ _ h.name]
      rfl
    · cases hreply
  have hstays : c.uninstalled.1.fs.HasFile (((InstallScope.base c.root c.req.scope).resolve.child
      (versionedName r.name r.version) h.package).child "manifest.yaml" (by decide)) := by
    rw [hrem, hasFile_withoutTree]
    exact ⟨hthere, not_under_of_child_ne (versionedName_ne r.name r.version).symm (under_child _ _)⟩
  exact hnew ((hrest.hasFile trivial).mpr hstays)

end AgentCase

/-! ## The result -/

namespace Echo

def archive : List (Except String ArchiveEntry) :=
  [.ok { path := .ok "pkg/manifest.yaml", data := .ok [0] },
    .ok { path := .ok "pkg/tools/say.tool.yaml", data := .ok [1] }]

def unit : ServiceUnit := ⟨"echo", "1", "bin/echo", ["echo/"]⟩

def codec : Codecs where
  untar _ := .ok archive
  agentManifest _ := .ok ⟨"writer", "1"⟩
  serviceUnit _ := .ok unit
  sha256 _ := []
  receipt _ _ _ := []

def descriptor : ToolDescriptor := ⟨"echo/say", "available", none, none, [], .null⟩

def root : PathBuf := .avix
def temp : PathBuf := ⟨["tmp"], by decide⟩
def tmp : PathBuf := temp.join "a"

/-- A network that has the archive everywhere. -/
def net : Network :=
  ⟨fun _ => .ok [], fun _ => .ok "", fun _ => .ok .null, fun _ => .ok [], fun _ => .ok []⟩

def io : InstallIo := { tempdir := .ok tmp }

def env : PackageEnv where
  net := net
  net' := net
  platform := ⟨"linux", "x86_64"⟩
  io := io
  now := 0

/-- The kernel may do all of it. -/
def ctx : SyscallContext :=
  ⟨1, ⟨["proc/package/install-agent", "proc/package/install-service"], ⟨0⟩, ⟨0⟩, none, ""⟩⟩

/-- The service is installed on a host, and removed by its name. -/
def service (fs : HostFs) : ServiceCase where
  codec := codec
  parse _ := .ok descriptor
  root := root
  net := net
  req := ⟨"file:///echo.tar", none⟩
  io := io
  before := ⟨fs, []⟩
  ctx := ctx
  params := .ofMembers [("name", .string "echo")]
  env := env

/-- A host with an empty root directory. -/
def newHost : HostFs where
  files := []
  dirs := [.top, .avix, ⟨["tmp"], by decide⟩]

/-- A host where someone has put the manifest into `/avix/services` and the descriptor into
    `/avix/data/services/echo`. -/
def preparedHost : HostFs where
  files :=
    [(⟨["avix", "services", "echo", "manifest.yaml"], by decide⟩, [0]),
      (⟨["avix", "data", "services", "echo", "tools", "say.tool.yaml"], by decide⟩, [1])]
  dirs :=
    [.top, .avix, ⟨["tmp"], by decide⟩,
      ⟨["avix", "services"], by decide⟩, ⟨["avix", "services", "echo"], by decide⟩,
      .child .avix "data" (by decide), ⟨["avix", "data", "services"], by decide⟩,
      ⟨["avix", "data", "services", "echo"], by decide⟩,
      ⟨["avix", "data", "services", "echo", "tools"], by decide⟩]

/-- An agent is installed for everyone, and removed by its name. -/
def agent : AgentCase where
  codec := codec
  externals :=
    { hmac := fun _ _ => []
      parseUuid := .ok
      parseManifest := fun _ => some ⟨"Agent", "writer", []⟩
      fileSystem := hostFileSystem
      yamlOfNames := fun _ => "" }
  root := root
  net := net
  platform := ⟨"linux", "x86_64"⟩
  req := ⟨"file:///writer.tar", none, .system, none, true⟩
  io := io
  before := ⟨newHost, []⟩
  ctx := ctx
  params := .ofMembers [("name", .string "writer"), ("scope", .string "system")]
  env := env

theorem service_installed {fs : HostFs} (hunp : (service fs).unpacked.result = .ok (tmp, unit))
    (hok : ∃ r, (service fs).installed.2 = .ok r) (hhost : fs.WellFormed) (hroot : fs.IsDir root)
    (htemp : fs.IsDir temp) : (service fs).Installed tmp unit where
  unpacked := hunp
  ok := hok
  name := by decide
  package := by decide
  entries := by
    rintro bytes _ - ⟨⟩ entry hentry path hpath
    rcases mem_cons.mp hentry with hfirst | hrest
    · cases hfirst
      cases hpath
      decide
    · cases mem_singleton.mp hrest
      cases hpath
      decide
  host := hhost
  root := hroot
  temp := ⟨temp, "a", by decide, htemp, rfl⟩
  capability := rfl
  param := rfl
  noError _ := rfl

end Echo

open Echo

theorem install_agreement_iff (p : InstallCase) (h : p.Installed) : p.Agrees ↔ p.Condition := by
  cases p with
  | service c tmp unit => exact ServiceCase.agrees_iff h
  | agent c r => exact iff_of_false (AgentCase.not_agrees h) not_false

theorem install_agreement_prepared : (Echo.service Echo.preparedHost).Agrees Echo.tmp Echo.unit :=
  (install_agreement_iff (.service (service preparedHost) tmp unit)
    (service_installed rfl ⟨_, rfl⟩ (by decide) (by decide) (by decide))).mpr
      ⟨⟨[unit], rfl, mem_singleton_self _⟩, ⟨_, _, rfl, rfl, .refl _⟩, by decide, by decide⟩

/-- On a new host, neither the service nor its tool is found, and the agent can not be removed. -/
theorem installed_and_not_found : ((Echo.service Echo.newHost).Installed Echo.tmp Echo.unit ∧
    discoverInstalled Echo.codec (Echo.service Echo.newHost).installed.1.fs Echo.root = .ok [] ∧
    registeredTools (Echo.service Echo.newHost).parse
      (Echo.service Echo.newHost).installed.1.fs Echo.root "echo" = .ok [] ∧
    (Echo.service Echo.newHost).packageTools Echo.tmp Echo.unit =
      .ok [{ name := ⟨"echo/say", by decide, by decide⟩, owner := "echo", state := .available }] ∧
      ¬(Echo.service Echo.newHost).Agrees Echo.tmp Echo.unit) ∧
    ∃ r, Echo.agent.Installed r ∧
      Echo.agent.uninstalled.2 = .error (.einval "agent not installed: writer") ∧
      ¬Echo.agent.Agrees r := by
  have hnone : discoverInstalled codec (service newHost).installed.1.fs root =
      .ok [] := rfl
  have herror : agent.uninstalled.2 = .error (.einval "agent not installed: writer") := rfl
  constructor
  · refine ⟨service_installed rfl ⟨_, rfl⟩ (by decide) (by decide) (by decide), hnone, rfl, rfl,
      ?_⟩
    rintro ⟨⟨units, hunits, hmem⟩, -⟩
    obtain rfl := Except.ok.inj (hnone.symm.trans hunits)
    cases hmem
  · refine ⟨_, ⟨rfl, by decide, by decide, rfl, rfl, rfl, fun _ => rfl⟩, herror, ?_⟩
    rintro ⟨-, ⟨reply, hreply⟩, -⟩
    cases herror.symm.trans hreply

end Avix.Lifecycle
