/-
  VFS paths and the two storage providers (`memfs/path.rs`, `memfs/vfs.rs`,
  `memfs/local_provider.rs`).

  The disk behind a `LocalProvider` is a parameter: a type `D` of disk states and the
  operating system's operations on it (`FileSystem`). The provider's own logic and the texts
  of its errors are the source's.
-/
import Avix.Lib.Bytes
import Avix.Lib.Str
import Avix.Types.Basic

namespace Avix

open Lib

/-- `memfs::VfsPath`: absolute, and without two dots in a row. -/
structure VfsPath where
  asStr : String
  absolute : startsWith asStr "/" = true
  no_dots : containsStr asStr ".." = false

namespace VfsPath

instance : DecidableEq VfsPath := fun a b =>
  decidable_of_iff (a.asStr = b.asStr) (by
    cases a
    cases b
    simp)

def parse (s : String) : Except AvixError VfsPath :=
  if ha : startsWith s "/" = true then
    if hd : containsStr s ".." = false then .ok ⟨s, ha, hd⟩
    else .error (.configParse ("VFS path must not contain '..': '" ++ s ++ "'"))
  else .error (.configParse ("VFS path must be absolute: '" ++ s ++ "'"))

def isAgentWritable (path : VfsPath) : Bool :=
  let p := path.asStr
  if startsWith p "/proc/" || startsWith p "/kernel/" || startsWith p "/secrets/" ||
      startsWith p "/etc/avix/" || startsWith p "/bin/" then false
  else if startsWith p "/users/" && containsStr p "/memory/" then false
  else if startsWith p "/crews/" && containsStr p "/memory/" then false
  else true

theorem asStr_of_parse {s : String} {path : VfsPath} (h : parse s = .ok path) : path.asStr = s := by
  unfold parse at h
  split_ifs at h
  exact (congrArg VfsPath.asStr (Except.ok.inj h)).symm

end VfsPath

/-- `memfs::MemFs`: the files of the file system by path. -/
abbrev MemFs := HashMap String Bytes

namespace MemFs

/-- `MemFs::write` never fails. -/
def write (fs : MemFs) (path : VfsPath) (content : Bytes) : MemFs :=
  AList.insert path.asStr content fs

def read (fs : MemFs) (path : VfsPath) : Except AvixError Bytes :=
  match fs.lookup path.asStr with
  | some content => .ok content
  | none => .error (.configParse ("ENOENT: " ++ path.asStr))

def delete (fs : MemFs) (path : VfsPath) : MemFs × Except AvixError Unit :=
  match fs.lookup path.asStr with
  | some _ => (fs.erase path.asStr, .ok ())
  | none => (fs, .error (.configParse ("ENOENT: " ++ path.asStr)))

/-- `MemFs::list`: the first path component of every file below `dir`. -/
def list (fs : MemFs) (dir : VfsPath) : Except AvixError (List String) :=
  let base := trimEnd '/' dir.asStr ++ "/"
  let below := fs.keys.filter fun k => startsWith k base
  let seen := below.filterMap fun k =>
    match splitChar '/' (dropPrefix k base) with
    | first :: _ => if first = "" then none else some first
    | [] => none
  if seen.isEmpty then .error (.configParse ("ENOENT: " ++ dir.asStr))
  else .ok seen.dedup

end MemFs

/-! ## Disk -/

/-- Where `read_dir` failed: at the directory, or while reading its entries. -/
inductive ReadDirError where
  | opening (e : String)
  | entry (e : String)
  deriving DecidableEq, Repr

/-- The operating system's file operations, with the text of a failure. -/
structure FileSystem (D : Type) where
  readFile : D → String → Except String Bytes
  createParentDirs : D → String → D × Except String Unit
  writeFile : D → String → Bytes → D × Except String Unit
  removeFile : D → String → D × Except String Unit
  pathExists : D → String → Bool
  readDir : D → String → Except ReadDirError (List String)

/-- Every operation fails. -/
def FileSystem.noDisk : FileSystem Unit where
  readFile _ _ := .error "no disk"
  createParentDirs _ _ := ((), .error "no disk")
  writeFile _ _ _ := ((), .error "no disk")
  removeFile _ _ := ((), .error "no disk")
  pathExists _ _ := false
  readDir _ _ := .error (.opening "no disk")

structure LocalProvider where
  root : String
  deriving DecidableEq, Repr

namespace LocalProvider

def resolvePath (p : LocalProvider) (rel : String) : Except AvixError String :=
  let rel := trimStart '/' rel
  if containsStr rel ".." then .error (.io ("path traversal rejected: '" ++ rel ++ "'"))
  else .ok (p.root ++ "/" ++ rel)

variable {D : Type} (fs : FileSystem D) (p : LocalProvider) (disk : D)

def read (rel : String) : Except AvixError Bytes :=
  match p.resolvePath rel with
  | .error e => .error e
  | .ok path =>
    (fs.readFile disk path).mapError fun e => .notFound ("read " ++ rel ++ ": " ++ e)

def write (rel : String) (content : Bytes) : D × Except AvixError Unit :=
  match p.resolvePath rel with
  | .error e => (disk, .error e)
  | .ok path =>
    match fs.createParentDirs disk path with
    | (disk', .error e) => (disk', .error (.io ("create_dir_all for " ++ rel ++ ": " ++ e)))
    | (disk', .ok ()) =>
      let (disk'', result) := fs.writeFile disk' path content
      (disk'', result.mapError fun e => .io ("write " ++ rel ++ ": " ++ e))

def delete (rel : String) : D × Except AvixError Unit :=
  match p.resolvePath rel with
  | .error e => (disk, .error e)
  | .ok path =>
    let (disk', result) := fs.removeFile disk path
    (disk', result.mapError fun e => .notFound ("delete " ++ rel ++ ": " ++ e))

def existsPath (rel : String) : Bool :=
  match p.resolvePath rel with
  | .error _ => false
  | .ok path => fs.pathExists disk path

def list (relDir : String) : Except AvixError (List String) :=
  match p.resolvePath relDir with
  | .error e => .error e
  | .ok path =>
    (fs.readDir disk path).mapError fun
      | .opening e => .notFound ("list " ++ relDir ++ ": " ++ e)
      | .entry e => .io ("read dir entry in " ++ relDir ++ ": " ++ e)

/-- A failed write is an I/O error. -/
theorem write_eq_error {rel : String} {content : Bytes} {e : AvixError}
    (h : (p.write fs disk rel content).2 = .error e) : ∃ m, e = .io m := by
  unfold write at h
  split at h
  next e' hres =>
    unfold resolvePath at hres
    dsimp only at hres
    split_ifs at hres
    exact ⟨_, (Except.error.inj h).symm.trans (Except.error.inj hres).symm⟩
  next path hres =>
    split at h
    next disk' e' hdirs => exact ⟨_, (Except.error.inj h).symm⟩
    next disk' hdirs =>
      cases hwrite : (fs.writeFile disk' path content).2 with
      | ok u => simp [hwrite, Except.mapError] at h
      | error e' =>
        simp only [hwrite, Except.mapError] at h
        exact ⟨_, (Except.error.inj h).symm⟩

end LocalProvider

end Avix
