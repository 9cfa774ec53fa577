/-
  SECURITY — which files package operations touch.

  Operations. `extract_tarball`, `AgentInstaller::install`, `ServiceInstaller::install`,
  `uninstall_agent` and `uninstall_service`.

  Allowed files lie strictly below the extraction directory, or below the one directory of the
  package: `<root>/data/bin/<package>`, `<root>/data/users/<user>/bin/<package>` or
  `<root>/data/services/<package>`, where user and package are one component each.

  `package_tree_iff`: a call touches allowed files only, if and only if
  * every archive entry it writes comes back to the extraction directory if it goes up from it,
    or leads into the directory of the package;
  * the package name, and the user in the user's scope, are names of a single directory, unless
    the call finds nothing to move or to remove.

  Reason. The first component of an entry is dropped, and the others are joined as they are; the
  name and version of the manifest, `name` and `caller_identity` are joined without a check, so
  that dot-dots, slashes and absolute paths lead elsewhere.
-/
import Avix.Package.Syscall

namespace Avix.Security

open Lib AgentInstaller List Option PathBuf FsState

/-! ## Which files a log touches -/

/-- All files touched lie at places with the property. -/
def ConfinedTo (P : List String → Prop) (log : List (HostFs × FileChange)) : Prop :=
  ∀ e ∈ log, ∀ loc, e.2.Touches e.1 loc → P loc.comps

/-- The place lies below the directory and is not the directory. -/
def Inside (dir c : List String) : Prop := dir <+: c ∧ c ≠ dir

variable {P : List String → Prop}

theorem confined_nil : ConfinedTo P [] := nofun

theorem confined_mono {Q : List String → Prop} (h : ∀ c, P c → Q c)
    {log : List (HostFs × FileChange)} (hP : ConfinedTo P log) : ConfinedTo Q log :=
  fun e he loc htouch => h _ (hP e he loc htouch)

variable {s : FsState} {env : PackageEnv}

theorem confined_record {fs : HostFs} {change : FileChange} :
    ConfinedTo P (s.record fs change).log ↔
      ConfinedTo P s.log ∧ ∀ loc, change.Touches s.fs loc → P loc.comps := by
  simp only [ConfinedTo, record, forall_mem_append, forall_mem_singleton]

theorem confined_removeTree {p : PathBuf} : ConfinedTo P (s.removeTree p).log ↔
    ConfinedTo P s.log ∧ ∀ loc, p.resolve.Under loc → s.fs.HasFile loc → P loc.comps := by
  rw [removeTree, confined_record]
  exact and_congr_right fun _ => forall_congr' fun _ => and_imp

variable {ctx : SyscallContext} {params : Json} {name : String} {tmp : PathBuf}

/-- A tree without a file at its top is removed inside it. -/
theorem confined_removeInside (hP : ∀ c, Inside tmp.resolve.comps c → P c)
    (hnone : ¬s.fs.HasFile tmp.resolve) :
    ConfinedTo P (s.removeTree tmp).log ↔ ConfinedTo P s.log := by
  rw [confined_removeTree]
  refine and_iff_left fun loc hunder hfile => hP _ ⟨hunder, fun heq => hnone ?_⟩
  exact Location.ext heq ▸ hfile

/-! ## Unpacking -/

/-- From `s` to `s'` the files at these paths from `dest` are written. -/
structure Writes (dest : PathBuf) (s s' : FsState) (written : List (List String)) : Prop where
  confined : ∀ P : List String → Prop, ConfinedTo P s'.log ↔
    ConfinedTo P s.log ∧ ∀ path ∈ written, P (walk dest.resolve.comps path)
  /-- None of them is the directory itself. -/
  strict : ∀ path ∈ written, walk dest.resolve.comps path ≠ dest.resolve.comps
  noFile : ¬s.fs.HasFile dest.resolve → ¬s'.fs.HasFile dest.resolve

namespace Writes

variable {dest : PathBuf} {s s' s'' : FsState} {written written' : List (List String)}

theorem refl (dest : PathBuf) (s : FsState) : Writes dest s s [] where
  confined _ := (and_iff_left nofun).symm
  strict _ h := absurd h not_mem_nil
  noFile := id

theorem trans (h : Writes dest s s' written) (h' : Writes dest s' s'' written') :
    Writes dest s s'' (written ++ written') where
  confined P := by
    rw [h'.confined, h.confined, forall_mem_append, and_assoc]
  strict := forall_mem_append.mpr ⟨h.strict, h'.strict⟩
  noFile hnone := h'.noFile (h.noFile hnone)

theorem ofDirs (dest p : PathBuf) (s : FsState) :
    Writes dest s { s with fs := s.fs.withDirs p } [] :=
  ⟨(refl dest s).confined, (refl dest s).strict, id⟩

end Writes

theorem writes_unpackFile {dest : PathBuf} {path : String} {entry : ArchiveEntry}
    (hdest : dest.resolve ∈ s.fs.dirs) :
    Writes dest s (unpackFile dest path entry s).state (unpackFile dest path entry s).written := by
  unfold unpackFile
  split
  · exact .refl dest s
  split
  · exact .refl dest s
  rename_i hwrite
  obtain ⟨hnodir, rfl⟩ := write_eq_ok hwrite
  have hloc : (entryPath dest path).resolve.comps = walk dest.resolve.comps (skipFirst path) :=
    resolve_push _ _ _
  have hne : (entryPath dest path).resolve ≠ dest.resolve := fun heq => hnodir (heq ▸ hdest)
  refine ⟨fun P => ?_, ?_, fun hnone hfile => ?_⟩
  · rw [confined_record, forall_mem_singleton, ← hloc]
    exact and_congr_right fun _ => forall_eq
  · rw [forall_mem_singleton, ← hloc]
    exact fun heq => hne (Location.ext heq)
  · rcases HostFs.hasFile_withFile.mp hfile with heq | hfile
    · exact hne heq.symm
    · exact hnone hfile

theorem writes_unpackEntry (dest : PathBuf) (path : String) (entry : ArchiveEntry) (s : FsState) :
    Writes dest s (unpackEntry dest path entry s).state
      (unpackEntry dest path entry s).written := by
  unfold unpackEntry
  split
  · exact .refl dest s
  rename_i hempty
  split
  · exact .refl dest s
  rename_i s' hdirs
  obtain rfl := createDirAll_eq_ok hdirs
  have hcre := Writes.ofDirs dest (entryPath dest path).parent s
  -- the extraction directory stands above the entry, so it is there now
  have hdest : dest.resolve ∈ (s.fs.withDirs (entryPath dest path).parent).dirs := by
    refine mem_append_right _ (mem_map_of_mem ?_)
    have hpar : (entryPath dest path).parent = dest.push (skipFirst path).dropLast fun c hc =>
          isPiece_of_mem_skipFirst (mem_of_mem_dropLast hc) :=
      PathBuf.ext (dropLast_append_of_ne_nil hempty)
    rw [hpar]
    exact mem_ancestors _ _ _
  split_ifs
  · exact hcre.trans (writes_unpackFile hdest)
  · exact hcre

theorem writes_unpackEntries (dest : PathBuf) (s : FsState)
    (entries : List (Except String ArchiveEntry)) :
    Writes dest s (unpackEntries dest s entries).state (unpackEntries dest s entries).written := by
  induction entries generalizing s with
  | nil => exact .refl dest s
  | cons e rest ih =>
    cases e with
    | error e => exact .refl dest s
    | ok entry =>
      rw [unpackEntries]
      split
      · exact .refl dest s
      rename_i path _
      have hfirst := writes_unpackEntry dest path entry s
      dsimp only
      split
      · exact hfirst
      · exact hfirst.trans (ih _)

theorem writes_extractTarball (codec : Codecs) (bytes : Bytes) (dest : PathBuf) (s : FsState) :
    Writes dest s (extractTarball codec bytes dest s).state
      (extractTarball codec bytes dest s).written := by
  unfold extractTarball
  split
  · exact .refl dest s
  rename_i entries _
  have h := writes_unpackEntries dest s entries
  dsimp only
  split
  · exact h
  · split_ifs <;> exact h

/-! ## The directory of a package -/

/-- What a package is installed as. -/
inductive PackageKind where
  | agent (scope : InstallScope)
  | service

namespace PackageKind

/-- The path that the code joins. -/
def dir (root : PathBuf) (package : String) : PackageKind → PathBuf
  | .agent scope => scope.dir root package
  | .service => ServiceInstaller.dir root package

/-- The place below the root that is meant. -/
def components (package : String) : PackageKind → List String
  | .agent .system => ["data", "bin", package]
  | .agent (.user username) => ["data", "users", username, "bin", package]
  | .service => ["data", "services", package]

def packageDir (root : PathBuf) (package : String) (kind : PackageKind) : List String :=
  root.resolve.comps ++ kind.components package

def Named (package : String) : PackageKind → Prop
  | .agent (.user username) => IsName username ∧ IsName package
  | _ => IsName package

instance (package : String) : (kind : PackageKind) → Decidable (kind.Named package)
  | .agent .system => inferInstanceAs (Decidable (IsName package))
  | .agent (.user _) => inferInstanceAs (Decidable (_ ∧ _))
  | .service => inferInstanceAs (Decidable (IsName package))

variable {kind : PackageKind} {package : String} {root : PathBuf}

/-- With such names the path leads to the directory that is meant. -/
theorem resolve_dir (h : kind.Named package) :
    (kind.dir root package).resolve.comps = kind.packageDir root package := by
  have hdata : IsName "data" := by decide
  have hbin : IsName "bin" := by decide
  have husers : IsName "users" := by decide
  have hserv : IsName "services" := by decide
  match kind with
  | .agent .system =>
    simp [dir, InstallScope.dir, resolve_join_name _ h, resolve_join_name _ hbin,
      resolve_join_name _ hdata, packageDir, components]
  | .agent (.user username) =>
    simp [dir, InstallScope.dir, resolve_join_name _ h.2, resolve_join_name _ h.1,
      resolve_join_name _ hbin, resolve_join_name _ husers, resolve_join_name _ hdata, packageDir,
      components]
  | .service =>
    simp [dir, ServiceInstaller.dir, resolve_join_name _ h, resolve_join_name _ hserv,
      resolve_join_name _ hdata, packageDir, components]

/-- Only such names have a directory in which anything can lie. -/
theorem named_of_prefix {loc : Location}
    (h : kind.packageDir root package <+: loc.comps) : kind.Named package := by
  have hname : ∀ c ∈ kind.components package, IsName c := fun c hc =>
    loc.isName c (h.subset (mem_append_right _ hc))
  match kind with
  | .agent .system => exact hname package (by simp [components])
  | .agent (.user username) =>
    exact ⟨hname username (by simp [components]), hname package (by simp [components])⟩
  | .service => exact hname package (by simp [components])

end PackageKind

open PackageKind

/-! ## Installing -/

/-- The places an installation may touch: the temporary directory and the package's own. -/
def InstallPlace (root : PathBuf) (kind : PackageKind) (temp : Option PathBuf)
    (package : Option String) (c : List String) : Prop :=
  (∃ tmp ∈ temp, Inside tmp.resolve.comps c) ∨ ∃ name ∈ package, kind.packageDir root name <+: c

/-- Nothing is moved to the target, and nothing that lies there is removed. -/
def NothingPlaced (s : FsState) (tmp target : PathBuf) (io : InstallIo) : Prop :=
  s.fs.exists_ target = true ∨ ∀ s', s.createDirAll target io.createDirAll = .ok s' →
      (∀ s'', s'.rename tmp target io.rename ≠ .ok s'') ∧
      ∀ loc, target.resolve.Under loc → s.fs.HasFile loc → tmp.resolve.Under loc

section Place

variable {root tmp : PathBuf} {kind : PackageKind} {package : String}

theorem installPlace_of_inside {package : Option String} {c : List String}
    (h : Inside tmp.resolve.comps c) : InstallPlace root kind (some tmp) package c :=
  .inl ⟨tmp, rfl, h⟩

variable {loc : Location} {s : FsState}

/-- With bad names, nothing outside of the temporary directory is allowed. -/
theorem not_installPlace (hnamed : ¬kind.Named package)
    (hout : ¬Inside tmp.resolve.comps loc.comps) :
    ¬InstallPlace root kind (some tmp) (some package) loc.comps := by
  rintro (⟨_, htmp, hin⟩ | ⟨_, hname, hpre⟩)
  · cases htmp
    exact hout hin
  · cases hname
    exact hnamed <| named_of_prefix hpre

theorem installPlace_of_under {temp : Option PathBuf} (hnamed : kind.Named package)
    (h : (kind.dir root package).resolve.Under loc) :
    InstallPlace root kind temp (some package) loc.comps :=
  .inr ⟨package, rfl, resolve_dir hnamed ▸ h⟩

/-- A file that is moved out of the temporary directory does not lie in it afterwards. -/
theorem not_inside_of_moved {source target : Location} {name : String} (hout : ¬source.Under target)
    (hloc : loc.comps = target.comps ++ [name]) : ¬Inside source.comps loc.comps := by
  rintro ⟨hpre, hne⟩
  rw [hloc] at hpre hne
  rcases prefix_concat_iff.mp hpre with heq | hpre
  · exact hne heq.symm
  · exact hout hpre

/-- Moving the unpacked tree is allowed for good names only: the manifest is in it. -/
theorem confined_movedTree {fs : HostFs} (hnone : ¬s.fs.HasFile tmp.resolve)
    (hman : s.fs.HasFile (tmp.join "manifest.yaml").resolve)
    (hout : ¬tmp.resolve.Under (kind.dir root package).resolve) :
    ConfinedTo (InstallPlace root kind (some tmp) (some package))
        (s.record fs (.movedTree tmp.resolve (kind.dir root package).resolve)).log ↔
      ConfinedTo (InstallPlace root kind (some tmp) (some package)) s.log ∧ kind.Named package := by
  rw [confined_record]
  refine and_congr_right fun _ => ⟨fun hall => ?_, fun hnamed loc htouch => ?_⟩
  · by_contra hnamed
    have hyaml : (tmp.join "manifest.yaml").resolve.comps =
        tmp.resolve.comps ++ ["manifest.yaml"] :=
      resolve_join_name tmp (by decide)
    have hunder : tmp.resolve.Under (tmp.join "manifest.yaml").resolve :=
      ⟨["manifest.yaml"], hyaml.symm⟩
    exact not_installPlace hnamed (not_inside_of_moved hout (Location.comps_rebase hyaml))
      (hall _ (.inr ⟨_, hunder, hman, rfl⟩))
  · rcases htouch with ⟨hunder, hfile⟩ | ⟨old, -, -, rfl⟩
    · exact installPlace_of_inside ⟨hunder, fun heq => hnone (Location.ext heq ▸ hfile)⟩
    · exact installPlace_of_under hnamed (Location.under_rebase _ _ _)

/-- A rolled-back installation removes what lies at the target. -/
theorem confined_rolledBack (hnone : ¬s.fs.HasFile tmp.resolve) :
    ConfinedTo (InstallPlace root kind (some tmp) (some package))
        ((s.removeTree tmp).removeTree (kind.dir root package)).log ↔
      ConfinedTo (InstallPlace root kind (some tmp) (some package)) s.log ∧
        (kind.Named package ∨ ∀ loc, (kind.dir root package).resolve.Under loc →
          s.fs.HasFile loc → tmp.resolve.Under loc) := by
  rw [confined_removeTree, confined_removeInside (fun _ => installPlace_of_inside) hnone]
  refine and_congr_right fun _ => ⟨fun hall => ?_, fun hsafe loc hunder hfile => ?_⟩
  · by_cases hnamed : kind.Named package
    · exact .inl hnamed
    · refine .inr fun loc hunder hfile => ?_
      by_contra hout
      exact not_installPlace hnamed (fun hin => hout hin.1)
        (hall loc hunder (HostFs.hasFile_withoutTree.mpr ⟨hfile, hout⟩))
  · obtain ⟨hfile, hout⟩ := HostFs.hasFile_withoutTree.mp hfile
    rcases hsafe with hnamed | hnoth
    · exact installPlace_of_under hnamed hunder
    · exact absurd (hnoth loc hunder hfile) hout

theorem confined_placeTree (root : PathBuf) (kind : PackageKind) (package : String)
    (conflict : AvixError) (io : InstallIo) (hnone : ¬s.fs.HasFile tmp.resolve)
    (hman : s.fs.HasFile (tmp.join "manifest.yaml").resolve) :
    ConfinedTo (InstallPlace root kind (some tmp) (some package))
        (placeTree s tmp (kind.dir root package) conflict io).1.log ↔
      ConfinedTo (InstallPlace root kind (some tmp) (some package)) s.log ∧
        (kind.Named package ∨ NothingPlaced s tmp (kind.dir root package) io) := by
  have hdrop : ConfinedTo (InstallPlace root kind (some tmp) (some package))
      (s.removeTree tmp).log ↔
        ConfinedTo (InstallPlace root kind (some tmp) (some package)) s.log :=
    confined_removeInside (fun _ => installPlace_of_inside) hnone
  unfold placeTree
  split
  · rename_i hexis
    exact hdrop.trans (and_iff_left (.inr (.inl hexis))).symm
  rename_i hexis
  split
  · rename_i e hdirs
    refine hdrop.trans (and_iff_left (.inr (.inr fun s' h => ?_))).symm
    exact nomatch hdirs.symm.trans h
  rename_i s' hdirs
  have hs' := createDirAll_eq_ok hdirs
  have hlog : s'.log = s.log := by rw [hs']
  have hfiles : ∀ loc, s'.fs.HasFile loc ↔ s.fs.HasFile loc := fun _ => by rw [hs']; rfl
  have hnone' : ¬s'.fs.HasFile tmp.resolve := fun h => hnone ((hfiles _).mp h)
  split
  · rename_i e hren
    rw [← hlog, confined_rolledBack hnone']
    refine and_congr_right fun _ => or_congr_right ⟨fun hnoth => ?_, ?_⟩
    · refine .inr fun t h => ?_
      obtain rfl := Except.ok.inj (hdirs.symm.trans h)
      exact ⟨fun _ hok => (nomatch hren.symm.trans hok),
        fun loc hunder hfile => hnoth loc hunder ((hfiles loc).mpr hfile)⟩
    · rintro (h | h)
      · exact absurd h hexis
      · exact fun loc hunder hfile => (h _ hdirs).2 loc hunder ((hfiles loc).mp hfile)
  · rename_i s'' hren
    obtain ⟨hout, -, rfl⟩ := rename_eq_ok hren
    rw [← hlog, confined_movedTree hnone' ((hfiles _).mpr hman) hout]
    refine and_congr_right fun _ => ⟨.inl, fun h => h.resolve_right ?_⟩
    rintro (h | h)
    · exact hexis h
    · exact (h _ hdirs).1 _ hren

end Place

/-- What the first half of an installation leaves. -/
structure UnpackSpec {α : Type} (s : FsState) (u : Unpacked (PathBuf × α)) : Prop where
  confined : ∀ P : List String → Prop, (∀ tmp ∈ u.temp, ∀ c, Inside tmp.resolve.comps c → P c) →
    (ConfinedTo P u.state.log ↔
      ConfinedTo P s.log ∧ ∀ tmp ∈ u.temp, ∀ path ∈ u.written, P (walk tmp.resolve.comps path))
  strict : ∀ tmp ∈ u.temp, ∀ path ∈ u.written, walk tmp.resolve.comps path ≠ tmp.resolve.comps
  noFile : ∀ tmp ∈ u.temp, ¬u.state.fs.HasFile tmp.resolve
  manifest : ∀ tmp a, u.result = .ok (tmp, a) →
    u.temp = some tmp ∧ u.state.fs.HasFile (tmp.join "manifest.yaml").resolve

section Unpack

variable {α : Type} {s s' : FsState} {tmp : PathBuf}

theorem unpackSpec_early {e : AvixError} :
    UnpackSpec s ({ state := s, result := .error e } : Unpacked (PathBuf × α)) where
  confined _ _ := (and_iff_left nofun).symm
  strict _ h := absurd h (not_mem_none _)
  noFile _ h := absurd h (not_mem_none _)
  manifest _ _ h := nomatch h

/-- In a new temporary directory, files were written as `Writes` says. -/
theorem unpackSpec_of_writes {outcome : Except String PathBuf} {u : Unpacked Unit}
    {result : Except AvixError (PathBuf × α)} (htemp : s.tempdir outcome = .ok (tmp, s'))
    (hwrit : Writes tmp s' u.state u.written)
    (hres : ∀ t a, result = .ok (t, a) →
      t = tmp ∧ u.state.fs.HasFile (tmp.join "manifest.yaml").resolve) :
    UnpackSpec s { state := u.state, written := u.written, temp := some tmp, result } := by
  obtain ⟨⟨-, hnew⟩, rfl⟩ := tempdir_eq_ok htemp
  refine ⟨fun P _ => ?_, ?_, ?_, fun t a h => ?_⟩
  · exact (hwrit.confined P).trans (and_congr_right fun _ => by simp)
  · rintro _ ⟨⟩
    exact hwrit.strict
  · rintro _ ⟨⟩
    exact hwrit.noFile hnew
  · obtain ⟨rfl, hfile⟩ := hres t a h
    exact ⟨rfl, hfile⟩

/-- The files of a clone lie inside the directory. -/
theorem confined_writeClone {P : List String → Prop} (files : List ClonedFile)
    (hP : ∀ c, Inside tmp.resolve.comps c → P c) :
    ConfinedTo P (writeClone s tmp files).log ↔ ConfinedTo P s.log := by
  induction files generalizing s with
  | nil => rfl
  | cons f rest ih =>
    rw [writeClone, ih, confined_record]
    refine and_iff_left fun loc htouch => hP _ ?_
    obtain rfl := htouch
    refine ⟨Location.under_descend _ _ _, fun heq => ?_⟩
    exact Location.descend_ne f.nonempty (Location.ext heq)

theorem noFile_writeClone (files : List ClonedFile) (h : ¬s.fs.HasFile tmp.resolve) :
    ¬(writeClone s tmp files).fs.HasFile tmp.resolve := by
  induction files generalizing s with
  | nil => exact h
  | cons f rest ih =>
    rw [writeClone]
    refine ih fun hfile => ?_
    rcases HostFs.hasFile_withFile.mp hfile with heq | hfile
    · exact Location.descend_ne f.nonempty heq.symm
    · exact h hfile

theorem hasFile_of_readManifest {codec : Codecs} {m : ManifestMetadata}
    (h : readManifest codec s tmp = .ok m) : s.fs.HasFile (tmp.join "manifest.yaml").resolve := by
  unfold readManifest at h
  split at h
  · cases h
  · rename_i hread
    exact HostFs.hasFile_of_read hread

theorem hasFile_of_readUnit {codec : Codecs} {unit : ServiceUnit}
    (h : ServiceInstaller.readUnit codec s tmp = .ok unit) :
    s.fs.HasFile (tmp.join "manifest.yaml").resolve := by
  unfold ServiceInstaller.readUnit at h
  split at h
  · cases h
  · rename_i hread
    exact HostFs.hasFile_of_read hread

/-- A result that pairs the directory with what was read from its manifest. -/
theorem of_map_pair_eq_ok {r : Except AvixError α} {t : PathBuf} {a : α}
    (h : (r.map fun b => (tmp, b)) = .ok (t, a)) : t = tmp ∧ r = .ok a := by
  cases r with
  | error e => cases h
  | ok b =>
    cases h
    exact ⟨rfl, rfl⟩

end Unpack

theorem unpackSpec_agent (codec : Codecs) (net : Network) (platform : Platform)
    (req : AgentInstallRequest) (io : InstallIo) (s : FsState) :
    UnpackSpec s (unpack codec net platform req io s) := by
  unfold unpack
  split
  · exact unpackSpec_early
  · split
    · exact unpackSpec_early
    · rename_i tmp s' htemp
      obtain ⟨⟨-, hnew⟩, rfl⟩ := tempdir_eq_ok htemp
      split
      · exact unpackSpec_of_writes (u := ⟨_, [], none, .ok ()⟩) htemp (.refl tmp _) nofun
      rename_i files _
      refine ⟨fun P hP => ?_, nofun, ?_, fun t a h => ?_⟩
      · rw [confined_writeClone files (hP tmp rfl)]
        exact (and_iff_left nofun).symm
      · rintro _ ⟨⟩
        exact noFile_writeClone files hnew
      · obtain ⟨rfl, hread⟩ := of_map_pair_eq_ok h
        exact ⟨rfl, hasFile_of_readManifest hread⟩
  · split
    · exact unpackSpec_early
    · split
      · exact unpackSpec_early
      · split
        · exact unpackSpec_early
        · rename_i htemp
          refine unpackSpec_of_writes htemp (writes_extractTarball codec _ _ _) fun t a h => ?_
          obtain ⟨_, _, h⟩ := bind_eq_ok_iff.mp h
          obtain ⟨rfl, hread⟩ := of_map_pair_eq_ok h
          exact ⟨rfl, hasFile_of_readManifest hread⟩

theorem unpackSpec_service (codec : Codecs) (net : Network) (req : InstallRequest)
    (io : InstallIo) (s : FsState) : UnpackSpec s (ServiceInstaller.unpack codec net req io s) := by
  unfold ServiceInstaller.unpack
  split
  · exact unpackSpec_early
  split
  · exact unpackSpec_early
  split
  · exact unpackSpec_early
  rename_i htemp
  refine unpackSpec_of_writes htemp (writes_extractTarball codec _ _ _) fun t a h => ?_
  obtain ⟨_, _, h⟩ := bind_eq_ok_iff.mp h
  obtain ⟨rfl, hread⟩ := of_map_pair_eq_ok h
  exact ⟨rfl, hasFile_of_readUnit hread⟩

/-- The package that a manifest names. -/
def packageOf {α : Type} (name : α → String) (u : Unpacked (PathBuf × α)) : Option String :=
  match u.result with
  | .ok (_, a) => some (name a)
  | .error _ => none

/-- The condition on an installation. -/
structure InstallContained {α : Type} (root : PathBuf) (kind : PackageKind) (name : α → String)
    (u : Unpacked (PathBuf × α)) (io : InstallIo) : Prop where
  entries : ∀ tmp ∈ u.temp, ∀ path ∈ u.written, ComesBack tmp.resolve.comps path ∨
    ∃ package ∈ packageOf name u, kind.packageDir root package <+: walk tmp.resolve.comps path
  target : ∀ tmp a, u.result = .ok (tmp, a) →
    kind.Named (name a) ∨ NothingPlaced u.state tmp (kind.dir root (name a)) io

section Install

variable {α : Type} (root : PathBuf) (kind : PackageKind) (name : α → String) (io : InstallIo)
  {s : FsState} {u : Unpacked (PathBuf × α)}

/-- The entries are written to allowed places exactly under the condition on them. -/
theorem confined_unpacked (spec : UnpackSpec s u) (hlog : s.log = []) :
    ConfinedTo (InstallPlace root kind u.temp (packageOf name u)) u.state.log ↔
      ∀ tmp ∈ u.temp, ∀ path ∈ u.written, ComesBack tmp.resolve.comps path ∨
        ∃ package ∈ packageOf name u,
          kind.packageDir root package <+: walk tmp.resolve.comps path := by
  have hins : ∀ tmp ∈ u.temp, ∀ c, Inside tmp.resolve.comps c →
      InstallPlace root kind u.temp (packageOf name u) c :=
    fun tmp htmp c hin => .inl ⟨tmp, htmp, hin⟩
  rw [spec.confined _ hins, hlog]
  refine (and_iff_right confined_nil).trans ?_
  refine forall₂_congr fun tmp htmp => forall₂_congr fun path hpath => or_congr_left ?_
  rw [← prefix_walk_iff]
  constructor
  · rintro ⟨t, ht, hin⟩
    obtain rfl := some.inj (ht.symm.trans htmp)
    exact hin.1
  · exact fun hpre => ⟨tmp, htmp, hpre, spec.strict tmp htmp path hpath⟩

/-- An installation that fails before its target is known. -/
theorem confined_dropped (spec : UnpackSpec s u) (hlog : s.log = []) {e : AvixError}
    (herr : u.result = .error e) :
    ConfinedTo (InstallPlace root kind u.temp (packageOf name u)) (u.state.dropTemp u.temp).log ↔
      InstallContained root kind name u io := by
  have hdrop : ConfinedTo (InstallPlace root kind u.temp (packageOf name u))
      (u.state.dropTemp u.temp).log ↔
        ConfinedTo (InstallPlace root kind u.temp (packageOf name u)) u.state.log := by
    cases htemp : u.temp with
    | none => rfl
    | some tmp =>
      exact confined_removeInside (fun _ => installPlace_of_inside) (spec.noFile _ htemp)
  rw [hdrop, confined_unpacked root kind name spec hlog]
  exact ⟨fun h => ⟨h, fun _ _ hok => (nomatch herr.symm.trans hok)⟩, fun h => h.entries⟩

/-- An installation that comes to its target. -/
theorem confined_placed (spec : UnpackSpec s u) (hlog : s.log = []) {tmp : PathBuf} {a : α}
    (hok : u.result = .ok (tmp, a)) (conflict : AvixError) :
    ConfinedTo (InstallPlace root kind u.temp (packageOf name u))
        (placeTree u.state tmp (kind.dir root (name a)) conflict io).1.log ↔
      InstallContained root kind name u io := by
  have hpack : packageOf name u = some (name a) := by rw [packageOf, hok]
  obtain ⟨htemp, hman⟩ := spec.manifest tmp a hok
  have hplace := confined_placeTree root kind (name a) conflict io (spec.noFile tmp htemp) hman
  rw [← htemp, ← hpack] at hplace
  rw [hplace, confined_unpacked root kind name spec hlog]
  constructor
  · rintro ⟨hentr, htarg⟩
    refine ⟨hentr, fun t b hb => ?_⟩
    obtain ⟨rfl, rfl⟩ := Prod.mk.inj (Except.ok.inj (hok.symm.trans hb))
    exact htarg
  · exact fun h => ⟨h.entries, h.target tmp a hok⟩

end Install

theorem confined_installAgent (codec : Codecs) (net : Network) (platform : Platform)
    (root : PathBuf) (req : AgentInstallRequest) (io : InstallIo) (hlog : s.log = []) :
    ConfinedTo (InstallPlace root (.agent req.scope)
          (unpack codec net platform req io s).temp
          (packageOf (fun m => versionedName m.name m.version)
            (unpack codec net platform req io s)))
        (install codec net platform root req io s).1.log ↔
      InstallContained root (.agent req.scope) (fun m => versionedName m.name m.version)
        (unpack codec net platform req io s) io := by
  have spec := unpackSpec_agent codec net platform req io s
  unfold install
  dsimp only
  split
  · rename_i e herr
    exact confined_dropped root (.agent req.scope)
      (fun m : ManifestMetadata => versionedName m.name m.version) io spec hlog herr
  · rename_i tmp manifest hok
    exact confined_placed root (.agent req.scope)
      (fun m : ManifestMetadata => versionedName m.name m.version) io spec hlog hok
      (.configParse ("agent version already installed: " ++
        versionedName manifest.name manifest.version))

/-- A tree that has been put into place was not refused. -/
theorem not_nothingPlaced {target : PathBuf} {conflict : AvixError} {io : InstallIo}
    (h : (placeTree s tmp target conflict io).2 = .ok ()) : ¬NothingPlaced s tmp target io := by
  unfold placeTree at h
  split at h
  · cases h
  rename_i hexis
  split at h
  · cases h
  rename_i s' hdirs
  split at h
  · cases h
  rename_i s'' hren
  rintro (hex | hnoth)
  · exact hexis hex
  · exact (hnoth s' hdirs).1 s'' hren

section Receipt

variable (codec : Codecs) {P : List String → Prop} {s : FsState} {installDir : PathBuf}
  {unit : ServiceUnit} {req : InstallRequest} {io : InstallIo}

theorem confined_of_writeReceipt
    (h : ConfinedTo P (ServiceInstaller.writeReceipt codec s installDir unit req io).1.log) :
    ConfinedTo P s.log := by
  unfold ServiceInstaller.writeReceipt at h
  dsimp only at h
  split at h
  · exact (confined_removeTree.mp h).1
  rename_i hwrite
  obtain ⟨-, rfl⟩ := write_eq_ok hwrite
  exact (confined_record.mp h).1

/-- The receipt and its removal touch the package's directory only. -/
theorem confined_writeReceipt (hP : ∀ loc, installDir.resolve.Under loc → P loc.comps)
    (h : ConfinedTo P s.log) :
    ConfinedTo P (ServiceInstaller.writeReceipt codec s installDir unit req io).1.log := by
  unfold ServiceInstaller.writeReceipt
  dsimp only
  split
  · exact confined_removeTree.mpr ⟨h, fun loc hunder _ => hP loc hunder⟩
  rename_i hwrite
  obtain ⟨-, rfl⟩ := write_eq_ok hwrite
  refine confined_record.mpr ⟨h, fun loc htouch => hP loc ?_⟩
  obtain rfl := htouch
  exact ⟨[".install.json"], (resolve_join_name installDir (by decide)).symm⟩

end Receipt

theorem confined_installService (codec : Codecs) (net : Network) (root : PathBuf)
    (req : InstallRequest) (io : InstallIo) (hlog : s.log = []) :
    ConfinedTo (InstallPlace root .service (ServiceInstaller.unpack codec net req io s).temp
          (packageOf (fun unit => versionedName unit.name unit.version)
            (ServiceInstaller.unpack codec net req io s)))
        (ServiceInstaller.install codec net root req io s).1.log ↔
      InstallContained root .service (fun unit => versionedName unit.name unit.version)
        (ServiceInstaller.unpack codec net req io s) io := by
  have spec := unpackSpec_service codec net req io s
  unfold ServiceInstaller.install
  dsimp only
  split
  · rename_i e herr
    exact confined_dropped root .service
      (fun unit : ServiceUnit => versionedName unit.name unit.version) io spec hlog herr
  rename_i tmp unit hok
  have hplac := confined_placed root .service
    (fun unit => versionedName unit.name unit.version) io spec hlog hok
    (.configParse ("service version already installed: " ++ versionedName unit.name unit.version))
  split
  · exact hplac
  rename_i hdone
  refine ⟨fun h => hplac.mp (confined_of_writeReceipt codec h), fun h => ?_⟩
  have hnamed := (h.target tmp unit hok).resolve_right (not_nothingPlaced hdone)
  have hpack : packageOf (fun unit => versionedName unit.name unit.version)
      (ServiceInstaller.unpack codec net req io s) =
        some (versionedName unit.name unit.version) := by
    rw [packageOf, hok]
  refine confined_writeReceipt codec (fun loc hunder => ?_) (hplac.mpr h)
  rw [hpack]
  exact installPlace_of_under hnamed hunder

/-! ## Removing -/

/-- The directory of one version of a service. -/
def ServicePlace (root : PathBuf) (name : String) (c : List String) : Prop :=
  ∃ version, PackageKind.service.packageDir root (versionedName name version) <+: c

theorem versionedName_of_startsWith {dirName : String}
    (h : startsWith dirName (name ++ "@") = true) :
    ∃ version, dirName = versionedName name version := by
  obtain ⟨rest, hrest⟩ := isPrefixOf_iff_prefix.mp h
  exact ⟨String.ofList rest, by rw [versionedName, ← String.toList_inj]; simp [← hrest]⟩

theorem confined_removeServices {dirNames : List String}
    (hnames : ∀ d ∈ dirNames, IsName d) (h : ConfinedTo (ServicePlace root name) s.log) :
    ConfinedTo (ServicePlace root name)
      (removeServices ((root.join "data").join "services") name env s dirNames).1.log := by
  induction dirNames generalizing s with
  | nil => exact h
  | cons dirName rest ih =>
    have hrest : ∀ d ∈ rest, IsName d := fun d hd => hnames d (mem_cons_of_mem _ hd)
    rw [removeServices]
    split_ifs with hmatch
    · split
      · exact h
      · rename_i s' hrem
        obtain rfl := removeDirAll_eq_ok hrem
        refine ih hrest (confined_removeTree.mpr ⟨h, fun loc hunder _ => ?_⟩)
        obtain ⟨version, rfl⟩ := versionedName_of_startsWith hmatch
        have hnamed : service.Named (versionedName name version) :=
          hnames _ mem_cons_self
        refine ⟨version, ?_⟩
        rw [← resolve_dir hnamed]
        exact hunder
    · exact ih hrest h

theorem isName_of_mem_subdirs {fs : HostFs} {dir : Location} {d : String}
    (h : d ∈ fs.subdirs dir) : IsName d := by
  obtain ⟨loc, -, hloc⟩ := mem_filterMap.mp (mem_dedup.mp h)
  split_ifs at hloc
  exact loc.isName d (mem_of_getLast? hloc)

theorem confined_uninstallService (hlog : s.log = []) :
    ConfinedTo (fun c => ∃ name ∈ paramStr params "name", ServicePlace root name c)
      (uninstallService ctx params root env s).1.log := by
  have hstart : ∀ P : List String → Prop, ConfinedTo P s.log := fun _ => hlog ▸ confined_nil
  unfold uninstallService
  split
  · exact hstart _
  split
  · exact hstart _
  rename_i name hname
  refine confined_mono (fun c hc => ⟨name, hname, hc⟩) ?_
  exact confined_removeServices (fun _ => isName_of_mem_subdirs) (hstart _)

/-- The name and scope of an agent that is removed lead to its own directory, or to no file. -/
def RemovesOwn (ctx : SyscallContext) (params : Json) (root : PathBuf) (env : PackageEnv)
    (s : FsState) : Prop :=
  ∀ name ∈ paramStr params "name", ∀ result, (uninstallAgent ctx params root env s).2 = .ok result →
      (PackageKind.agent (parseScope params (usernameParam params))).Named name ∨
        ∀ loc, ((parseScope params (usernameParam params)).dir root name).resolve.Under loc →
          ¬s.fs.HasFile loc

theorem confined_uninstallAgent (hlog : s.log = []) :
    ConfinedTo (fun c => ∃ name ∈ paramStr params "name",
        (PackageKind.agent (parseScope params (usernameParam params))).packageDir root name <+: c)
      (uninstallAgent ctx params root env s).1.log ↔ RemovesOwn ctx params root env s := by
  have hstart : ∀ P : List String → Prop, ConfinedTo P s.log := fun _ => hlog ▸ confined_nil
  unfold RemovesOwn uninstallAgent
  split
  · exact iff_of_true (hstart _) nofun
  split
  · exact iff_of_true (hstart _) nofun
  rename_i name hname
  dsimp only
  split_ifs
  · split
    · exact iff_of_true (hstart _) nofun
    · rename_i s' hrem
      obtain rfl := removeDirAll_eq_ok hrem
      rw [confined_removeTree, and_iff_right (hstart _)]
      constructor
      · rintro hall _ hn _ -
        obtain rfl := some.inj (hname.symm.trans hn)
        refine or_iff_not_imp_left.mpr fun hnamed loc hunder hfile => ?_
        obtain ⟨_, hn, hpre⟩ := hall loc hunder hfile
        obtain rfl := some.inj (hname.symm.trans hn)
        exact hnamed <| named_of_prefix hpre
      · intro hsafe loc hunder hfile
        rcases hsafe name hname _ rfl with hnamed | hnoth
        · exact ⟨name, hname, resolve_dir hnamed ▸ hunder⟩
        · exact absurd hfile (hnoth loc hunder)
  · exact iff_of_true (hstart _) nofun

/-! ## The calls -/

/-- A package operation with all that it is given. -/
inductive PackageCall where
  | extractTarball (bytes : Bytes) (dest : PathBuf)
  | installAgent (net : Network) (platform : Platform) (req : AgentInstallRequest) (io : InstallIo)
  | installService (net : Network) (req : InstallRequest) (io : InstallIo)
  | uninstallAgent (ctx : SyscallContext) (params : Json) (env : PackageEnv)
  | uninstallService (ctx : SyscallContext) (params : Json) (env : PackageEnv)

namespace PackageCall

variable (codec : Codecs) (root : PathBuf) (fs : HostFs)

/-- What the operation does to the files. -/
def changes : PackageCall → List (HostFs × FileChange)
  | .extractTarball bytes dest => (Avix.extractTarball codec bytes dest ⟨fs, []⟩).state.log
  | .installAgent net platform req io =>
    (AgentInstaller.install codec net platform root req io ⟨fs, []⟩).1.log
  | .installService net req io => (ServiceInstaller.install codec net root req io ⟨fs, []⟩).1.log
  | .uninstallAgent ctx params env => (Avix.uninstallAgent ctx params root env ⟨fs, []⟩).1.log
  | .uninstallService ctx params env => (Avix.uninstallService ctx params root env ⟨fs, []⟩).1.log

/-- The places that the operation may touch. -/
def Allowed : PackageCall → List String → Prop
  | .extractTarball _ dest => Inside dest.resolve.comps
  | .installAgent net platform req io =>
    let u := AgentInstaller.unpack codec net platform req io ⟨fs, []⟩
    InstallPlace root (.agent req.scope) u.temp
      (packageOf (fun m => versionedName m.name m.version) u)
  | .installService net req io =>
    let u := ServiceInstaller.unpack codec net req io ⟨fs, []⟩
    InstallPlace root .service u.temp
      (packageOf (fun unit => versionedName unit.name unit.version) u)
  | .uninstallAgent _ params _ => fun c => ∃ name ∈ paramStr params "name",
    (PackageKind.agent (parseScope params (usernameParam params))).packageDir root name <+: c
  | .uninstallService _ params _ => fun c => ∃ name ∈ paramStr params "name",
    ServicePlace root name c

/-- The condition: entries come back, and names are names. -/
def Contained : PackageCall → Prop
  | .extractTarball bytes dest =>
    ∀ path ∈ (Avix.extractTarball codec bytes dest ⟨fs, []⟩).written,
      ComesBack dest.resolve.comps path
  | .installAgent net platform req io =>
    InstallContained root (.agent req.scope) (fun m => versionedName m.name m.version)
      (AgentInstaller.unpack codec net platform req io ⟨fs, []⟩) io
  | .installService net req io =>
    InstallContained root .service (fun unit => versionedName unit.name unit.version)
      (ServiceInstaller.unpack codec net req io ⟨fs, []⟩) io
  | .uninstallAgent ctx params env => RemovesOwn ctx params root env ⟨fs, []⟩
  | .uninstallService _ _ _ => True

end PackageCall

theorem confined_extractTarball (codec : Codecs) (bytes : Bytes) (dest : PathBuf)
    (hlog : s.log = []) :
    ConfinedTo (Inside dest.resolve.comps) (extractTarball codec bytes dest s).state.log ↔
      ∀ path ∈ (extractTarball codec bytes dest s).written, ComesBack dest.resolve.comps path := by
  have hwrit := writes_extractTarball codec bytes dest s
  rw [hwrit.confined, hlog, and_iff_right confined_nil]
  refine forall₂_congr fun path hpath => ?_
  rw [← prefix_walk_iff]
  exact and_iff_left (hwrit.strict path hpath)

theorem package_tree_iff (codec : Codecs) (root : PathBuf) (fs : HostFs)
    (call : PackageCall) :
    ConfinedTo (call.Allowed codec root fs) (call.changes codec root fs) ↔
      call.Contained codec root fs := by
  cases call with
  | extractTarball bytes dest => exact confined_extractTarball codec bytes dest rfl
  | installAgent net platform req io =>
    exact confined_installAgent codec net platform root req io rfl
  | installService net req io => exact confined_installService codec net root req io rfl
  | uninstallAgent ctx params env => exact confined_uninstallAgent rfl
  | uninstallService ctx params env => exact iff_of_true (confined_uninstallService rfl) trivial

namespace Escape

/-- Decoders that know one archive; its first entry climbs. -/
def codec : Codecs where
  untar _ := .ok [.ok { path := .ok "pkg/../evil", data := .ok [] }]
  agentManifest _ := .error (.configParse "")
  serviceUnit _ := .error (.configParse "")
  sha256 _ := []
  receipt _ _ _ := []

/-- Bob has an agent. -/
def bobsFile : Location := ⟨["avix", "data", "users", "bob", "bin", "x@1", "run"], by decide⟩

def fs : HostFs where
  files := [(bobsFile, [])]
  dirs := [.top, .avix, ⟨["avix", "data"], by decide⟩,
    ⟨["avix", "data", "users"], by decide⟩, ⟨["avix", "data", "users", "alice"], by decide⟩,
    ⟨["avix", "data", "users", "alice", "bin"], by decide⟩,
    ⟨["avix", "data", "users", "bob"], by decide⟩,
    ⟨["avix", "data", "users", "bob", "bin"], by decide⟩,
    ⟨["avix", "data", "users", "bob", "bin", "x@1"], by decide⟩]

def root : PathBuf := .avix

/-- Unpacking into `/tmp/a`. -/
def extraction : PackageCall := .extractTarball [] .tmpA

def removal : PackageCall :=
  .uninstallAgent ⟨1, ⟨["proc/package/install-agent"], ⟨0⟩, ⟨0⟩, none, ""⟩⟩
    (.ofMembers [("name", .string "../../bob/bin/x@1"), ("caller_identity", .string "alice")])
    { net := ⟨fun _ => .ok [], fun _ => .ok "", fun _ => .ok .null, fun _ => .ok [],
        fun _ => .ok []⟩
      net' := ⟨fun _ => .ok [], fun _ => .ok "", fun _ => .ok .null, fun _ => .ok [],
        fun _ => .ok []⟩
      platform := ⟨"linux", "x86_64"⟩, io := ⟨.error "", none, none, none⟩, now := 0 }

end Escape

/-- An archive writes `/tmp/evil` from `/tmp/a`, and Alice removes a file of Bob's agent. -/
theorem entry_and_name_escape :
    (∃ e ∈ Escape.extraction.changes Escape.codec Escape.root Escape.fs, ∃ loc,
      e.2.Touches e.1 loc ∧
        ¬Escape.extraction.Allowed Escape.codec Escape.root Escape.fs loc.comps) ∧
    ∃ e ∈ Escape.removal.changes Escape.codec Escape.root Escape.fs, ∃ loc,
      e.2.Touches e.1 loc ∧
        ¬Escape.removal.Allowed Escape.codec Escape.root Escape.fs loc.comps := by
  refine ⟨⟨_, mem_cons_self, ⟨["tmp", "evil"], by decide⟩, rfl, ?_⟩,
    ⟨_, mem_cons_self, Escape.bobsFile, ⟨?_, ?_⟩, ?_⟩⟩
  · exact fun h => absurd h.1 (by decide)
  · decide
  · decide
  · rintro ⟨name, hname, hpre⟩
    cases hname
    exact absurd hpre (by decide)

end Avix.Security
