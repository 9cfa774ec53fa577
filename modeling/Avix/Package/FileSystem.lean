/-
  The part of the host's file system that package operations work on.

  Model. A `PathBuf` is an absolute path as a list of pieces, dot-dots included, and a
  `Location` is what it resolves to. The file system says what file lies at a location and which
  locations are directories. Every operation may fail with an error from outside (`ioError`), and
  then changes nothing. Symbolic links are left out: no modelled operation creates one.

  A file is a regular file. The log keeps every change to files, with the file system it was made
  in, so that `Touches` can say which files were created, overwritten or removed. Making a
  directory touches no file.
-/
import Avix.Lib.Bytes
import Avix.Lib.DotDot

namespace Avix

open Lib List

/-! ## Paths -/

/-- An absolute `std::path::PathBuf`. -/
@[ext]
structure PathBuf where
  comps : List String
  isPiece : ∀ c ∈ comps, IsPiece c

/-- A place in the file system. -/
@[ext]
structure Location where
  comps : List String
  isName : ∀ c ∈ comps, IsName c
  deriving DecidableEq

/-- `/avix`, where the examples install. -/
def PathBuf.avix : PathBuf := ⟨["avix"], by decide⟩

/-- `/tmp/a`. -/
def PathBuf.tmpA : PathBuf := ⟨["tmp", "a"], by decide⟩

namespace Location

def top : Location := ⟨[], by decide⟩
def avix : Location := ⟨["avix"], by decide⟩

/-- The location is the directory or lies below it. -/
def Under (dir loc : Location) : Prop := dir.comps <+: loc.comps

instance (dir loc : Location) : Decidable (dir.Under loc) :=
  inferInstanceAs (Decidable (_ <+: _))

/-- The location lies below the directory and is not the directory itself. -/
def StrictlyUnder (dir loc : Location) : Prop := dir.Under loc ∧ loc ≠ dir

instance (dir loc : Location) : Decidable (dir.StrictlyUnder loc) :=
  inferInstanceAs (Decidable (_ ∧ _))

/-- The location that names lead to from here. -/
def descend (loc : Location) (names : List String) (h : ∀ c ∈ names, IsName c) : Location where
  comps := loc.comps ++ names
  isName c hc := (List.mem_append.mp hc).elim (loc.isName c) (h c)

/-- A location below `source`, moved below `target`. -/
def rebase (source target loc : Location) : Location where
  comps := target.comps ++ loc.comps.drop source.comps.length
  isName c hc := (List.mem_append.mp hc).elim (target.isName c)
    fun h => loc.isName c (List.mem_of_mem_drop h)

theorem under_refl (dir : Location) : dir.Under dir := prefix_rfl

theorem under_rebase (source target loc : Location) : target.Under (rebase source target loc) :=
  prefix_append _ _

variable {names : List String} {loc : Location}

theorem comps_rebase {source target : Location} (h : loc.comps = source.comps ++ names) :
    (rebase source target loc).comps = target.comps ++ names := by
  show target.comps ++ loc.comps.drop source.comps.length = _
  rw [h, drop_left]

theorem under_descend (loc : Location) (names : List String) (h : ∀ c ∈ names, IsName c) :
    loc.Under (loc.descend names h) := prefix_append _ _

theorem descend_ne {h : ∀ c ∈ names, IsName c} (hne : names ≠ []) : loc.descend names h ≠ loc := by
  intro heq
  have hlen := congrArg (fun l : Location => l.comps.length) heq
  simp only [descend, length_append] at hlen
  exact hne (length_eq_zero_iff.mp (by omega))

end Location

namespace PathBuf

def push (p : PathBuf) (cs : List String) (h : ∀ c ∈ cs, IsPiece c) : PathBuf where
  comps := p.comps ++ cs
  isPiece c hc := (List.mem_append.mp hc).elim (p.isPiece c) (h c)

def ofStr (s : String) : PathBuf := ⟨pieces s, fun _ => isPiece_of_mem_pieces⟩

/-- `Path::join`: an absolute path replaces the base. -/
def join (p : PathBuf) (s : String) : PathBuf :=
  if startsWith s "/" then ofStr s else p.push (pieces s) fun _ => isPiece_of_mem_pieces

def parent (p : PathBuf) : PathBuf where
  comps := p.comps.dropLast
  isPiece c hc := p.isPiece c (List.mem_of_mem_dropLast hc)

/-- The path and all paths above it, the root first. -/
def ancestors (p : PathBuf) : List PathBuf :=
  (List.range (p.comps.length + 1)).map fun n =>
    ⟨p.comps.take n, fun c hc => p.isPiece c (List.mem_of_mem_take hc)⟩

/-- The location after resolving dot-dots. -/
def resolve (p : PathBuf) : Location where
  comps := walk [] p.comps
  isName := walk_names (nofun) p.isPiece

theorem mem_ancestors (p : PathBuf) (cs : List String) (h : ∀ c ∈ cs, IsPiece c) :
    p ∈ (p.push cs h).ancestors := by
  refine mem_map.mpr ⟨p.comps.length, mem_range.mpr ?_, ?_⟩
  · simp only [push, length_append]
    omega
  · simp [push]

theorem resolve_push (p : PathBuf) (cs : List String) (h : ∀ c ∈ cs, IsPiece c) :
    (p.push cs h).resolve.comps = walk p.resolve.comps cs :=
  walk_append _ _ _

/-- A text that is a name leads to the file or directory of that name. -/
theorem startsWith_slash {s : String} (h : IsName s) : startsWith s "/" = false := by
  by_contra habs
  have hpre := isPrefixOf_iff_prefix.mp (Bool.eq_true_of_not_eq_false habs)
  exact h.1.2.2 (hpre.subset mem_cons_self)

theorem resolve_join_name (p : PathBuf) {s : String} (h : IsName s) :
    (p.join s).resolve.comps = p.resolve.comps ++ [s] := by
  have hwalk := resolve_push p (pieces s) fun _ => isPiece_of_mem_pieces
  rw [join, startsWith_slash h, if_neg Bool.false_ne_true, hwalk, pieces_eq_singleton h.1]
  exact if_neg h.2

end PathBuf

/-! ## Files and directories -/

structure HostFs where
  files : List (Location × Bytes)
  dirs : List Location

namespace HostFs

variable (fs : HostFs)

/-- A file lies at the location. -/
def HasFile (loc : Location) : Prop := ∃ f ∈ fs.files, f.1 = loc

instance (loc : Location) : Decidable (fs.HasFile loc) :=
  inferInstanceAs (Decidable (∃ f ∈ fs.files, f.1 = loc))

/-- `std::fs::read`. -/
def read (loc : Location) : Option Bytes := (fs.files.find? fun f => f.1 = loc).map Prod.snd

/-- All that stands above the end of the path is a directory. -/
def reaches (p : PathBuf) : Bool := p.ancestors.dropLast.all fun q => decide (q.resolve ∈ fs.dirs)

/-- `Path::exists`. -/
def exists_ (p : PathBuf) : Bool :=
  fs.reaches p && decide (p.resolve ∈ fs.dirs ∨ fs.HasFile p.resolve)

/-- The names of the directories in a directory (`read_dir` and `is_dir`). -/
def subdirs (dir : Location) : List String :=
  (fs.dirs.filterMap fun d =>
    if d.comps.dropLast = dir.comps then d.comps.getLast? else none).dedup

/-- The directory has neither files nor directories. -/
def isEmptyDir (dir : Location) : Bool :=
  fs.dirs.all (fun d => decide ¬dir.StrictlyUnder d) &&
    fs.files.all fun f => decide ¬dir.StrictlyUnder f.1

/-- The directories of a path are there. -/
def withDirs (p : PathBuf) : HostFs :=
  { fs with dirs := fs.dirs ++ p.ancestors.map PathBuf.resolve }

/-- The file holds the data. -/
def withFile (loc : Location) (data : Bytes) : HostFs :=
  { fs with files := (loc, data) :: fs.files.filter fun f => f.1 ≠ loc }

/-- The tree of a directory is gone. -/
def withoutTree (dir : Location) : HostFs where
  files := fs.files.filter fun f => ¬dir.Under f.1
  dirs := fs.dirs.filter fun d => ¬dir.Under d

/-- The tree of `source` lies at `target`. -/
def withMoved (source target : Location) : HostFs where
  files := fs.files.map fun f =>
    (if source.Under f.1 then Location.rebase source target f.1 else f.1, f.2)
  dirs := fs.dirs.map fun d => if source.Under d then Location.rebase source target d else d

variable {data : Bytes} {l loc : Location} {fs : HostFs}

theorem hasFile_of_read (h : fs.read loc = some data) : fs.HasFile loc := by
  obtain ⟨f, hf, -⟩ := Option.map_eq_some_iff.mp h
  have hloc : f.1 = loc := by simpa using find?_some hf
  exact ⟨f, mem_of_find?_eq_some hf, hloc⟩

theorem hasFile_withFile :
    (fs.withFile loc data).HasFile l ↔ l = loc ∨ fs.HasFile l := by
  by_cases hl : l = loc
  · simp [HasFile, withFile, hl]
  simp only [HasFile, withFile, mem_cons, mem_filter, hl, false_or]
  constructor
  · rintro ⟨f, rfl | hf, rfl⟩
    · exact absurd rfl hl
    · exact ⟨f, hf.1, rfl⟩
  · rintro ⟨f, hf, rfl⟩
    exact ⟨f, Or.inr ⟨hf, decide_eq_true hl⟩, rfl⟩

theorem hasFile_withoutTree {dir : Location} :
    (fs.withoutTree dir).HasFile l ↔ fs.HasFile l ∧ ¬dir.Under l := by
  simp only [HasFile, withoutTree, mem_filter, decide_eq_true_eq]
  constructor
  · rintro ⟨f, ⟨hf, hnot⟩, rfl⟩
    exact ⟨⟨f, hf, rfl⟩, hnot⟩
  · rintro ⟨⟨f, hf, rfl⟩, hnot⟩
    exact ⟨f, ⟨hf, hnot⟩, rfl⟩

end HostFs

inductive FileChange where
  | wrote (loc : Location)
  | removedTree (dir : Location)
  | movedTree (source target : Location)

/-- The file at `loc` is created, overwritten or removed by a change made in `fs`. -/
def FileChange.Touches (fs : HostFs) (loc : Location) : FileChange → Prop
  | .wrote l => loc = l
  | .removedTree dir => dir.Under loc ∧ fs.HasFile loc
  | .movedTree source target =>
    (source.Under loc ∧ fs.HasFile loc) ∨
      ∃ old, source.Under old ∧ fs.HasFile old ∧ loc = Location.rebase source target old

/-- The file system, and what was done to it. -/
structure FsState where
  fs : HostFs
  log : List (HostFs × FileChange)

namespace FsState

variable (s : FsState)

/-- The next file system, reached by a change. -/
def record (fs : HostFs) (change : FileChange) : FsState :=
  ⟨fs, s.log ++ [(s.fs, change)]⟩

/-- `std::fs::create_dir_all`. -/
def createDirAll (p : PathBuf) (ioError : Option String) : Except String FsState :=
  match ioError with
  | some e => .error e
  | none =>
    if p.ancestors.any fun q => decide (s.fs.HasFile q.resolve) then .error "File exists"
    else .ok { s with fs := s.fs.withDirs p }

/-- `std::fs::write`. -/
def write (p : PathBuf) (data : Bytes) (ioError : Option String) : Except String FsState :=
  match ioError with
  | some e => .error e
  | none =>
    if p.resolve ∈ s.fs.dirs then .error "Is a directory"
    else if !s.fs.reaches p then .error "No such file or directory"
    else .ok (s.record (s.fs.withFile p.resolve data) (.wrote p.resolve))

/-- `std::fs::remove_dir_all` of a directory. -/
def removeTree (p : PathBuf) : FsState :=
  s.record (s.fs.withoutTree p.resolve) (.removedTree p.resolve)

/-- `std::fs::remove_dir_all`. -/
def removeDirAll (p : PathBuf) (ioError : Option String) : Except String FsState :=
  match ioError with
  | some e => .error e
  | none => if p.resolve ∈ s.fs.dirs then .ok (s.removeTree p) else .error "Not a directory"

/-- `std::fs::rename` of a directory to a directory, which has to be empty. -/
def rename (source target : PathBuf) (ioError : Option String) : Except String FsState :=
  match ioError with
  | some e => .error e
  | none =>
    if source.resolve.Under target.resolve then .error "Invalid argument"
    else if !s.fs.isEmptyDir target.resolve then .error "Directory not empty"
    else .ok (s.record (s.fs.withMoved source.resolve target.resolve)
      (.movedTree source.resolve target.resolve))

/-- `tempfile::tempdir`: a directory of a new name. -/
def tempdir (outcome : Except String PathBuf) : Except String (PathBuf × FsState) :=
  match outcome with
  | .error e => .error e
  | .ok tmp =>
    if tmp.resolve ∈ s.fs.dirs ∨ s.fs.HasFile tmp.resolve then .error "File exists"
    else .ok (tmp, { s with fs := s.fs.withDirs tmp })

variable {ioError : Option String} {s' : FsState} {p : PathBuf} {s : FsState}

theorem createDirAll_eq_ok (h : s.createDirAll p ioError = .ok s') :
    s' = { s with fs := s.fs.withDirs p } := by
  unfold createDirAll at h
  split at h
  · cases h
  · split_ifs at h
    exact (Except.ok.inj h).symm

theorem write_eq_ok {data : Bytes} (h : s.write p data ioError = .ok s') :
    p.resolve ∉ s.fs.dirs ∧ s' = s.record (s.fs.withFile p.resolve data) (.wrote p.resolve) := by
  unfold write at h
  split at h
  · cases h
  · split_ifs at h with hdir
    exact ⟨hdir, (Except.ok.inj h).symm⟩

theorem rename_eq_ok {source target : PathBuf}
    (h : s.rename source target ioError = .ok s') :
    ¬source.resolve.Under target.resolve ∧ s.fs.isEmptyDir target.resolve = true ∧
      s' = s.record (s.fs.withMoved source.resolve target.resolve)
        (.movedTree source.resolve target.resolve) := by
  unfold rename at h
  split at h
  · cases h
  · split_ifs at h with hunder hempty
    exact ⟨hunder, by simpa using hempty, (Except.ok.inj h).symm⟩

theorem removeDirAll_eq_ok (h : s.removeDirAll p ioError = .ok s') :
    s' = s.removeTree p := by
  unfold removeDirAll at h
  split at h
  · cases h
  · split_ifs at h
    exact (Except.ok.inj h).symm

theorem tempdir_eq_ok {outcome : Except String PathBuf} {tmp : PathBuf}
    (h : s.tempdir outcome = .ok (tmp, s')) :
    (tmp.resolve ∉ s.fs.dirs ∧ ¬s.fs.HasFile tmp.resolve) ∧
      s' = { s with fs := s.fs.withDirs tmp } := by
  unfold tempdir at h
  split at h
  · cases h
  split_ifs at h with hnew
  obtain ⟨rfl, rfl⟩ := Prod.mk.inj (Except.ok.inj h)
  exact ⟨not_or.mp hnew, rfl⟩

end FsState

end Avix
