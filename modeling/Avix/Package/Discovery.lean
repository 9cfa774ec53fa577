/-
  How installed packages are found again (`ServiceManager::discover_installed` and the descriptor
  scan of `handle_ipc_register` in `service/lifecycle.rs`, `ServiceUnit::load_for_service` in
  `service/yaml.rs`, `tool_registry/scanner.rs`), and the virtual file system over a root
  directory.

  Each function joins the directory it looks in on its own: `discover_installed` looks in
  `<root>/services`, the others in `<root>/data/services`; the scan looks in `<name>`, the loader
  in a directory that starts with `<name>@`.

  Reading does not fail here unless there is nothing to read. `read_dir` returns the names in the
  order of the model.
-/
import Avix.Kernel.AgentManager
import Avix.Package.HostTree
import Avix.Package.Syscall
import Avix.Security.FsVeto

namespace Avix

open Lib List Location PathBuf

/-- The names in a directory, `std::fs::read_dir`. -/
def HostFs.entries (fs : HostFs) (dir : Location) : List String :=
  ((fs.dirs ++ fs.files.map Prod.fst).filterMap fun d =>
    if d.comps.dropLast = dir.comps then d.comps.getLast? else none).dedup

/-! ## Services -/

def ServiceUnit.load (codec : Codecs) (fs : HostFs) (path : PathBuf) :
    Except AvixError ServiceUnit :=
  match fs.read path.resolve with
  | none => .error (.configParse ("cannot read " ++ path.display ++ ": No such file or directory"))
  | some content => codec.serviceUnit content

/-- The manifests in the directories of a directory. -/
def manifestsIn (fs : HostFs) (dir : PathBuf) : List PathBuf :=
  ((fs.entries dir.resolve).map fun name => (dir.join name).join "manifest.yaml").filter fs.exists_

def discoverInstalled (codec : Codecs) (fs : HostFs) (root : PathBuf) :
    Except AvixError (List ServiceUnit) :=
  let servicesDir := root.join "services"
  if fs.exists_ servicesDir then
    if servicesDir.resolve ∈ fs.dirs then
      (manifestsIn fs servicesDir).mapM (ServiceUnit.load codec fs)
    else .error (.configParse "Not a directory")
  else .ok []

/-- The directory of all services. -/
def servicesDir (root : PathBuf) : PathBuf := (root.join "data").join "services"

def loadForService (codec : Codecs) (fs : HostFs) (root : PathBuf) (name : String) :
    Except AvixError ServiceUnit :=
  match (fs.subdirs (servicesDir root).resolve).find? (startsWith · (name ++ "@")) with
  | some dirName =>
    ServiceUnit.load codec fs (((servicesDir root).join dirName).join "manifest.yaml")
  | none => .error (.configParse ("service not found: " ++ name))

/-! ## Tool descriptors -/

/-- `tool_registry::ToolDescriptor`; `json` is the whole of it. -/
structure ToolDescriptor where
  name : String
  state : String
  owner : Option String
  permissions : Option ToolPermissions
  capabilitiesRequired : List String
  json : Json

/-- The entry of a descriptor; none if its name is not valid. -/
def ToolDescriptor.entry (serviceName : String) (d : ToolDescriptor) : Option ToolEntry :=
  match ToolName.parse d.name with
  | .error _ => none
  | .ok name => some
    { name
      owner := serviceName
      state :=
        if d.state = "available" then .available
        else if d.state = "degraded" then .degraded
        else .unavailable
      descriptor := d.json
      capabilitiesRequired := d.capabilitiesRequired
      permissions :=
        match d.permissions with
        | some p => p
        | none =>
          match d.owner with
          | some owner => { owner }
          | none => {} }

/-- Read one descriptor; `parse` is `read_to_string` and `serde_yaml`. -/
def readDescriptor (parse : Bytes → Except String ToolDescriptor) (fs : HostFs) (path : PathBuf) :
    Except AvixError ToolDescriptor :=
  match fs.read path.resolve with
  | none => .error (.configParse (path.display ++ ": Is a directory"))
  | some content => (parse content).mapError fun e => .configParse (path.display ++ ": " ++ e)

namespace ToolScanner

variable (parse : Bytes → Except String ToolDescriptor) (fs : HostFs)

def scan (serviceDir : PathBuf) : Except AvixError (List ToolDescriptor) :=
  let toolsDir := serviceDir.join "tools"
  if fs.exists_ toolsDir then
    if toolsDir.resolve ∈ fs.dirs then
      ((fs.entries toolsDir.resolve).filter (endsWith · ".tool.yaml")).mapM fun name =>
        readDescriptor parse fs (toolsDir.join name)
    else .error (.configParse "Not a directory")
  else .ok []

def scanAsEntries (serviceName : String) (serviceDir : PathBuf) :
    Except AvixError (List ToolEntry) :=
  (scan parse fs serviceDir).map (·.filterMap (ToolDescriptor.entry serviceName))

end ToolScanner

/-- The tools that `handle_ipc_register` registers for a service. -/
def registeredTools (parse : Bytes → Except String ToolDescriptor) (fs : HostFs) (root : PathBuf)
    (svcName : String) : Except AvixError (List ToolEntry) :=
  ToolScanner.scanAsEntries parse fs svcName ((servicesDir root).join svcName)

/-! ## The virtual file system over a root directory -/

/-- The state after an operation, or the state before it with the error. -/
def hostResult (fs : HostFs) : Except String FsState → HostFs × Except String Unit
  | .ok s => (s.fs, .ok ())
  | .error e => (fs, .error e)

/-- The host's file system, with paths as texts. -/
def hostFileSystem : FileSystem HostFs where
  readFile fs path :=
    match fs.read (PathBuf.ofStr path).resolve with
    | some data => .ok data
    | none => .error "No such file or directory"
  createParentDirs fs path :=
    hostResult fs (FsState.createDirAll ⟨fs, []⟩ (PathBuf.ofStr path).parent none)
  writeFile fs path data := hostResult fs (FsState.write ⟨fs, []⟩ (PathBuf.ofStr path) data none)
  removeFile fs path :=
    if fs.HasFile (PathBuf.ofStr path).resolve then
      ({ fs with files := fs.files.filter fun f => f.1 ≠ (PathBuf.ofStr path).resolve }, .ok ())
    else (fs, .error "No such file or directory")
  pathExists fs path := fs.exists_ (PathBuf.ofStr path)
  readDir fs path :=
    if (PathBuf.ofStr path).resolve ∈ fs.dirs then .ok (fs.entries (PathBuf.ofStr path).resolve)
    else .error (.opening "No such file or directory")

/-- The persistent trees of a root directory. -/
def vfsOf (root : PathBuf) (fs : HostFs) : VfsRouter HostFs :=
  Security.mountAll ⟨[], [], none, none, ∅, fs⟩ (Security.persistentTrees root.display)

/-! ## Parts of the tree -/

variable {α β ε : Type}

theorem mapM_eq_ok_iff {f : α → Except ε β} {l : List α} {r : List β} :
    l.mapM f = .ok r ↔ List.Forall₂ (fun a b => f a = .ok b) l r := by
  induction l generalizing r with
  | nil =>
    rw [mapM_nil, forall₂_nil_left_iff]
    exact (Except.ok.injEq ..).to_iff.trans eq_comm
  | cons a rest ih =>
    rw [mapM_cons, bind_eq_ok_iff, forall₂_cons_left_iff]
    refine exists_congr fun b => ?_
    rw [bind_eq_ok_iff]
    constructor
    · rintro ⟨hb, bs, hbs, hr⟩
      exact ⟨bs, hb, ih.mp hbs, (Except.ok.inj hr).symm⟩
    · rintro ⟨bs, hb, hbs, rfl⟩
      exact ⟨hb, bs, ih.mpr hbs, rfl⟩

/-- A list that is read in another order gives the same results in another order. -/
theorem mapM_perm {f f' : α → Except ε β} {l l' : List α} {r : List β} (hperm : l'.Perm l)
    (hf : ∀ a ∈ l, f a = f' a) (h : l.mapM f = .ok r) : ∃ r', l'.mapM f' = .ok r' ∧ r'.Perm r := by
  have hall : List.Forall₂ (fun a b => f' a = .ok b) l r :=
    ((forall₂_and_left l r).mpr ⟨hf, mapM_eq_ok_iff.mp h⟩).imp fun _ _ hab => hab.1 ▸ hab.2
  obtain ⟨r', hr', hperm'⟩ := perm_comp_forall₂ hperm hall
  exact ⟨r', mapM_eq_ok_iff.mpr hr', hperm'⟩

namespace HostFs

variable {fs fs' : HostFs} {dir : Location} {c : String}

theorem mem_entries_iff : c ∈ fs.entries dir ↔
    ∃ hc : IsName c, dir.child c hc ∈ fs.dirs ∨ fs.HasFile (dir.child c hc) := by
  have hmem : ∀ loc : Location, loc ∈ fs.dirs ++ fs.files.map Prod.fst ↔
      loc ∈ fs.dirs ∨ fs.HasFile loc := by
    intro loc
    rw [mem_append, mem_map, HasFile]
  have hsub : c ∈ fs.entries dir ↔
      c ∈ (HostFs.mk fs.files (fs.dirs ++ fs.files.map Prod.fst)).subdirs dir := Iff.rfl
  rw [hsub, mem_subdirs_iff]
  exact exists_congr fun hc => hmem _

/-- The same names are in a directory, if there is the same below it. -/
theorem AgreeOn.mem_entries (h : AgreeOn P fs fs') (hP : ∀ loc, dir.Under loc → P loc) :
    c ∈ fs.entries dir ↔ c ∈ fs'.entries dir := by
  rw [mem_entries_iff, mem_entries_iff]
  refine exists_congr fun hc => ?_
  have hloc := hP _ (under_child dir hc)
  rw [(h _ hloc).2, h.hasFile hloc]

theorem AgreeOn.perm_entries (h : AgreeOn P fs fs') (hP : ∀ loc, dir.Under loc → P loc) :
    (fs'.entries dir).Perm (fs.entries dir) :=
  (perm_ext_iff_of_nodup (nodup_dedup _) (nodup_dedup _)).mpr
    fun _ => (h.mem_entries hP).symm

end HostFs

open HostFs

section Agree

variable {fs fs' : HostFs} {dir : PathBuf}

/-- The manifests below a directory are found again, if the directory is there. -/
theorem perm_manifestsIn (h : HostFs.AgreeOn dir.resolve.Under fs fs') (hdir : fs.IsDir dir)
    (hdir' : fs'.IsDir dir) : (manifestsIn fs' dir).Perm (manifestsIn fs dir) := by
  have hexis : ∀ name ∈ fs.entries dir.resolve, fs'.exists_ ((dir.join name).join "manifest.yaml") =
        fs.exists_ ((dir.join name).join "manifest.yaml") := by
    intro name hname
    obtain ⟨hname, -⟩ := mem_entries_iff.mp hname
    have hunder := under_child dir.resolve hname
    have hman : dir.resolve.Under ((dir.resolve.child name hname).child "manifest.yaml"
        (by decide)) := under_trans hunder (under_child _ _)
    rw [Bool.eq_iff_iff, exists_join_iff (by decide), exists_join_iff (by decide),
      isDir_join_iff hname, isDir_join_iff hname, resolve_join _ hname,
      (h _ hunder).2, (h _ hman).2, h.hasFile hman]
    simp only [hdir, hdir']
  unfold manifestsIn
  have hperm := ((h.perm_entries fun _ hloc => hloc).map
    fun name => (dir.join name).join "manifest.yaml").filter fs'.exists_
  refine hperm.trans (List.Perm.of_eq (filter_congr fun path hpath => ?_))
  obtain ⟨name, hname, rfl⟩ := mem_map.mp hpath
  exact hexis name hname

theorem resolve_of_mem_manifestsIn {path : PathBuf} (h : path ∈ manifestsIn fs dir) :
    dir.resolve.Under path.resolve := by
  obtain ⟨name, hname, rfl⟩ := mem_map.mp (mem_filter.mp h).1
  obtain ⟨hname, -⟩ := mem_entries_iff.mp hname
  rw [resolve_join _ (show IsName "manifest.yaml" by decide), resolve_join _ hname]
  exact under_trans (under_child _ _) (under_child _ _)

/-- `discover_installed` depends on what is below `<root>/services` only. -/
theorem discoverInstalled_congr {codec : Codecs} {root : PathBuf} {units : List ServiceUnit}
    (h : HostFs.AgreeOn (root.join "services").resolve.Under fs fs')
    (hroot : fs.IsDir root) (hroot' : fs'.IsDir root)
    (hunits : discoverInstalled codec fs root = .ok units) :
    ∃ units', discoverInstalled codec fs' root = .ok units' ∧ units'.Perm units := by
  have hself := under_refl (root.join "services").resolve
  have hexis : fs'.exists_ (root.join "services") = fs.exists_ (root.join "services") := by
    rw [resolve_join _ (show IsName "services" by decide)] at h hself
    rw [Bool.eq_iff_iff, exists_join_iff (by decide), exists_join_iff (by decide),
      (h _ hself).2, h.hasFile hself]
    simp only [hroot, hroot']
  unfold discoverInstalled at hunits ⊢
  dsimp only at hunits ⊢
  rw [hexis]
  split_ifs at hunits ⊢ with hthere hdir' hdir hdir
  · have hserv : fs.IsDir (root.join "services") ∧ fs'.IsDir (root.join "services") := by
      rw [resolve_join _ (show IsName "services" by decide)] at hdir hdir'
      exact ⟨(isDir_join_iff (by decide)).mpr ⟨hroot, hdir⟩,
        (isDir_join_iff (by decide)).mpr ⟨hroot', hdir'⟩⟩
    refine mapM_perm (perm_manifestsIn h hserv.1 hserv.2) (fun path hpath => ?_) hunits
    rw [ServiceUnit.load, ServiceUnit.load, (h _ (resolve_of_mem_manifestsIn hpath)).1]
  · exact absurd ((h _ hself).2.mp hdir) hdir'
  · exact ⟨units, hunits, .refl _⟩

/-- A scan depends on what is below the directory of the tools only. -/
theorem scanAsEntries_congr {parse : Bytes → Except String ToolDescriptor} {serviceName : String}
    {serviceDir : PathBuf} {entries : List ToolEntry}
    (h : HostFs.AgreeOn (serviceDir.join "tools").resolve.Under fs fs')
    (hexis : fs'.exists_ (serviceDir.join "tools") = fs.exists_ (serviceDir.join "tools"))
    (hentr : ToolScanner.scanAsEntries parse fs serviceName serviceDir = .ok entries) :
    ∃ entries', ToolScanner.scanAsEntries parse fs' serviceName serviceDir = .ok entries' ∧
      entries'.Perm entries := by
  have hself := under_refl (serviceDir.join "tools").resolve
  unfold ToolScanner.scanAsEntries at hentr ⊢
  obtain ⟨ds, hds, rfl⟩ := map_eq_ok_iff.mp hentr
  have hscan : ∃ ds', ToolScanner.scan parse fs' serviceDir = .ok ds' ∧ ds'.Perm ds := by
    unfold ToolScanner.scan at hds ⊢
    dsimp only at hds ⊢
    rw [hexis]
    split_ifs at hds ⊢ with hthere hdir' hdir hdir
    · refine mapM_perm ((h.perm_entries fun _ hloc => hloc).filter _) (fun name hname => ?_) hds
      obtain ⟨hname, -⟩ := mem_entries_iff.mp (mem_filter.mp hname).1
      have hunder := under_child (serviceDir.join "tools").resolve hname
      rw [← resolve_join] at hunder
      rw [readDescriptor, readDescriptor, (h _ hunder).1]
    · exact absurd ((h _ hself).2.mp hdir) hdir'
    · exact ⟨ds, hds, .refl _⟩
  obtain ⟨ds', hds', hperm⟩ := hscan
  exact ⟨_, map_eq_ok_iff.mpr ⟨ds', hds', rfl⟩, hperm.filterMap _⟩

end Agree

end Avix
