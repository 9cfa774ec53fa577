/-
  MEMFS — the operations of a router of in-memory mounts agree (`VfsRouter::write`, `read`,
  `delete` and `exists` of `memfs/router.rs`, over `memfs/vfs.rs`).

  A path can have a file in several in-memory file systems: in that of every mount that covers
  it, and in the default one. `view` lists what each has at the path, the serving one first.
  An operation at a path changes the head of the path's view, and of no other view (`view_operate`);
  so the head follows a key-value map, and the rest of the view stays (`view_after`).

  `operations_agree_iff`: after any sequence of operations, `exists`, `read` and `delete`
  agree on a path, and `read` returns the content of the last write to it that no delete follows,
  exactly when the path has a file in the serving file system or is not shadowed: it is no mount
  point, and no other file system that could serve it has it.

  Reason. `read`, `write` and `delete` use the first covering mount; `exists` takes any of them,
  and the default file system, and a mount point without looking for a file
  (`tools_exists_unreadable`).

  The router has no caller. What the file systems had at the start counts as written before.
-/
import Avix.Lib.LastWrite
import Avix.Memfs.MountRouting

namespace Avix.Memfs

open Lib List VfsRouter

/-! ## The abstract map -/

/-- What an operation makes of the file at a path: a new file, none, or no change. -/
def effectAt (p : VfsPath) : VfsOp → Option (Option Bytes)
  | .write q content => if q = p then some (some content) else none
  | .delete q => if q = p then some none else none
  | .read _ => none
  | .list _ => none

section Router

variable {D : Type} (r : VfsRouter D)

/-- The file systems that could serve a path, the one that does first. -/
def candidates (path : String) : List MemFs :=
  (r.memMounts.filter fun m => mountMatches m.1 path).map (·.2) ++ [r.default]

/-- What each of them has at the path. -/
def view (p : VfsPath) : List (Option Bytes) :=
  (candidates r p.asStr).map fun mem => mem.lookup p.asStr

def IsMountPoint (p : VfsPath) : Prop := p.asStr ∈ r.memMounts.map (·.1)

/-- `exists` has a reason to find the path that `read` has not. -/
def Shadowed (p : VfsPath) : Prop := IsMountPoint r p ∨ ∃ file ∈ (view r p).tail, file.isSome

/-- The file that the serving file system has at the path. -/
def visible (p : VfsPath) : Option Bytes := (r.memFor p.asStr).lookup p.asStr

variable (fs : FileSystem D) (yamlOfNames : List String → String)

/-- The router after a sequence of operations. -/
def after (ops : List VfsOp) : VfsRouter D :=
  ops.foldl (fun r op => (r.operate fs yamlOfNames op).1) r

/-- How it should be with a path after a sequence of operations. -/
structure OperationsAgree (ops : List VfsOp) (p : VfsPath) : Prop where
  exists_iff_read : (after r fs yamlOfNames ops).existsPath fs p = true ↔
    ∃ v, ((after r fs yamlOfNames ops).operate fs yamlOfNames (.read p)).2 = .ok v
  read_iff_delete :
    (∃ v, ((after r fs yamlOfNames ops).operate fs yamlOfNames (.read p)).2 = .ok v) ↔
      ∃ v, ((after r fs yamlOfNames ops).operate fs yamlOfNames (.delete p)).2 = .ok v
  read_last : ∀ content,
    ((after r fs yamlOfNames ops).operate fs yamlOfNames (.read p)).2 = .ok (.bytes content) ↔
      lastWrite (effectAt p) (visible r p) ops = some content

variable {r}

/-! ## The serving file system -/

theorem candidates_eq_cons (path : String) :
    candidates r path = r.memFor path :: (candidates r path).tail := by
  unfold candidates memFor
  rw [← head?_filter]
  cases r.memMounts.filter fun m => mountMatches m.1 path <;> rfl

theorem view_eq_cons (p : VfsPath) : view r p = visible r p :: (view r p).tail := by
  unfold view
  rw [candidates_eq_cons]
  rfl

/-! ## One operation -/

/-- Replacing the file system that serves a path changes the head of the path's view. -/
theorem view_setMemFor_self (p : VfsPath) (mem : MemFs) :
    view (r.setMemFor p.asStr mem) p = mem.lookup p.asStr :: (view r p).tail := by
  unfold view candidates
  rcases memFor_cases r p.asStr with
    ⟨before, m, after, hsplit, hfind, hbef, -, hset⟩ | ⟨hfind, -, hset⟩
  · have hm : mountMatches m.1 p.asStr = true := by simpa using find?_some hfind
    have hnone : before.filter (fun m => mountMatches m.1 p.asStr) = [] :=
      filter_eq_nil_iff.mpr fun b hb => by rw [hbef b hb]; decide
    rw [hset, hsplit]
    simp [filter_append, hnone, hm]
  · have hnone : r.memMounts.filter (fun m => mountMatches m.1 p.asStr) = [] :=
      filter_eq_nil_iff.mpr (find?_eq_none.mp hfind)
    rw [hset]
    simp [hnone]

/-- No other view changes if the new file system differs from the old one at the path only. -/
theorem view_setMemFor_of_lookup {p : VfsPath} {path : String} {mem : MemFs}
    (h : mem.lookup p.asStr = (r.memFor path).lookup p.asStr) :
    view (r.setMemFor path mem) p = view r p := by
  unfold view candidates
  rcases memFor_cases r path with
    ⟨before, m, after, hsplit, -, -, hmem, hset⟩ | ⟨-, hmem, hset⟩
  · rw [hmem] at h
    rw [hset, hsplit]
    cases hm : mountMatches m.1 p.asStr <;> simp [filter_append, hm, h]
  · rw [hmem] at h
    rw [hset]
    simp [h]

theorem filter_modify {α : Type} {P : α → Bool} {f : α → α} (l : List α) (i : ℕ)
    (h : ∀ a, l[i]? = some a → P a = false ∧ P (f a) = false) :
    (l.modify i f).filter P = l.filter P := by
  induction l generalizing i with
  | nil => simp
  | cons b l ih =>
    cases i with
    | zero =>
      obtain ⟨hb, hfb⟩ := h b rfl
      simp [hb, hfb]
    | succ i =>
      rw [modify_succ_cons, filter_cons, filter_cons, ih i fun a ha => h a ha]

theorem map_modify {α β : Type} {f : α → α} {g : α → β} (h : ∀ a, g (f a) = g a) (l : List α)
    (i : ℕ) : (l.modify i f).map g = l.map g := by
  induction l generalizing i with
  | nil => simp
  | cons b l ih =>
    cases i with
    | zero => simp [h]
    | succ i => rw [modify_succ_cons, map_cons, map_cons, ih]

/-- An absolute path is not below the mount that `read` fills. -/
theorem not_mountMatches_tools (p : VfsPath) : mountMatches "tools" p.asStr = false := by
  rw [Bool.eq_false_iff]
  intro hmatc
  obtain ⟨rest, hrest⟩ := isPrefixOf_iff_prefix.mp p.absolute
  have htree := mountMatches_iff.mp hmatc
  rw [InTree, ← hrest] at htree
  exact absurd (cons_prefix_cons.mp htree).1 (by decide)

/-- Filling the tool tree changes no view. -/
theorem view_populateForRead (q p : VfsPath) :
    view (r.populateForRead yamlOfNames q) p = view r p := by
  unfold populateForRead
  split_ifs
  · split
    · next i registry hidx _ =>
      unfold view candidates
      dsimp only
      rw [filter_modify]
      intro m hm
      obtain ⟨hlt, htools, -⟩ := findIdx?_eq_some_iff_getElem.mp hidx
      rw [getElem?_eq_getElem hlt, Option.some.injEq] at hm
      rw [hm, decide_eq_true_eq] at htools
      split_ifs <;> rw [htools] <;> exact ⟨not_mountMatches_tools p, not_mountMatches_tools p⟩
    · rfl
  · rfl

theorem keys_populateForRead (q : VfsPath) :
    (r.populateForRead yamlOfNames q).memMounts.map (·.1) = r.memMounts.map (·.1) := by
  unfold populateForRead
  split_ifs
  · split
    · exact map_modify (fun m => by split_ifs <;> rfl) _ _
    · rfl
  · rfl

theorem keys_setMemFor (path : String) (mem : MemFs) :
    (r.setMemFor path mem).memMounts.map (·.1) = r.memMounts.map (·.1) := by
  rcases memFor_cases r path with ⟨before, m, after, hsplit, -, -, -, hset⟩ | ⟨-, -, hset⟩
  · rw [hset, hsplit]
    simp
  · rw [hset]

theorem mounts_populateForRead (q : VfsPath) :
    (r.populateForRead yamlOfNames q).mounts = r.mounts := by
  unfold populateForRead
  split_ifs
  · split <;> rfl
  · rfl

theorem mounts_setMemFor (path : String) (mem : MemFs) :
    (r.setMemFor path mem).mounts = r.mounts := by
  rcases memFor_cases r path with ⟨before, m, after, -, -, -, -, hset⟩ | ⟨-, -, hset⟩ <;> rw [hset]

section Operate

variable {op : VfsOp} {p : VfsPath}

theorem asStr_ne {q : VfsPath} (h : q ≠ p) : p.asStr ≠ q.asStr := by
  obtain ⟨s, _, _⟩ := p
  obtain ⟨t, _, _⟩ := q
  rintro rfl
  exact h rfl

theorem effectAt_of_ne (h : op.path ≠ p) : effectAt p op = none := by
  cases op with
  | read q | list q => rfl
  | _ => exact if_neg h

/-- What an operation does to a file system, seen at its own path. -/
theorem lookup_onMemory_self (mem : MemFs) (op : VfsOp) : (onMemory mem op).1.lookup op.path.asStr =
    (effectAt op.path op).getD (mem.lookup op.path.asStr) := by
  cases op with
  | read q | list q => rfl
  | write q content =>
    dsimp only [onMemory, VfsOp.path, effectAt]
    rw [if_pos rfl, MemFs.write, AList.lookup_insert, Option.getD_some]
  | delete q =>
    dsimp only [onMemory, VfsOp.path, effectAt]
    rw [if_pos rfl, Option.getD_some, MemFs.delete]
    cases hfile : mem.lookup q.asStr with
    | none => exact hfile
    | some content => exact AList.lookup_erase _ _

/-- What an operation does to a file system, seen at another path. -/
theorem lookup_onMemory_of_ne (mem : MemFs) (h : op.path ≠ p) :
    (onMemory mem op).1.lookup p.asStr = mem.lookup p.asStr := by
  cases op with
  | read q | list q => rfl
  | write q content => exact AList.lookup_insert_ne (asStr_ne h)
  | delete q =>
    dsimp only [onMemory]
    rw [MemFs.delete]
    cases mem.lookup q.asStr with
    | none => rfl
    | some content => exact AList.lookup_erase_ne (asStr_ne h)

theorem view_prepared (op : VfsOp) (p : VfsPath) :
    view (prepared yamlOfNames r op) p = view r p := by
  cases op with
  | read q => exact view_populateForRead yamlOfNames q p
  | _ => rfl

theorem visible_prepared (op : VfsOp) (p : VfsPath) :
    visible (prepared yamlOfNames r op) p = visible r p := by
  have hview : view (prepared yamlOfNames r op) p = view r p := view_prepared yamlOfNames op p
  rw [view_eq_cons, view_eq_cons (r := r)] at hview
  exact (List.cons.inj hview).1

theorem mounts_prepared (op : VfsOp) : (prepared yamlOfNames r op).mounts = r.mounts := by
  cases op with
  | read q => exact mounts_populateForRead yamlOfNames q
  | _ => rfl

variable (hmounts : r.mounts = [])

include hmounts

variable (hcaller : r.caller = none)

include hcaller

/-- With in-memory mounts only, every operation is one on the serving file system. -/
theorem operate_eq_onMemory (op : VfsOp) : r.operate fs yamlOfNames op =
    ((prepared yamlOfNames r op).setMemFor op.path.asStr
        (onMemory ((prepared yamlOfNames r op).memFor op.path.asStr) op).1,
      (onMemory ((prepared yamlOfNames r op).memFor op.path.asStr) op).2) := by
  rw [operate_of_caller_none hcaller]
  refine perform_of_memory ?_
  rw [route, mounts_prepared, hmounts]
  rfl

theorem view_operate (op : VfsOp) (p : VfsPath) : view (r.operate fs yamlOfNames op).1 p =
    (effectAt p op).getD (visible r p) :: (view r p).tail := by
  rw [operate_eq_onMemory fs yamlOfNames hmounts hcaller]
  dsimp only
  by_cases hpath : op.path = p
  · subst hpath
    have hvis := visible_prepared (r := r) yamlOfNames op op.path
    unfold visible at hvis
    rw [view_setMemFor_self, lookup_onMemory_self, view_prepared, hvis]
    rfl
  · rw [effectAt_of_ne hpath, view_setMemFor_of_lookup (lookup_onMemory_of_ne _ hpath),
      view_prepared]
    exact view_eq_cons p

/-- The tables keep their mount points, and the router has still no caller. -/
theorem tables_operate (op : VfsOp) : (r.operate fs yamlOfNames op).1.mounts = [] ∧
    (r.operate fs yamlOfNames op).1.memMounts.map (·.1) = r.memMounts.map (·.1) ∧
    (r.operate fs yamlOfNames op).1.caller = none := by
  refine ⟨?_, ?_, ?_⟩
  · rw [operate_eq_onMemory fs yamlOfNames hmounts hcaller, mounts_setMemFor, mounts_prepared,
      hmounts]
  · rw [operate_eq_onMemory fs yamlOfNames hmounts hcaller, keys_setMemFor]
    cases op with
    | read q => exact keys_populateForRead yamlOfNames q
    | _ => rfl
  · rw [operate_of_caller_none hcaller, perform_caller, hcaller]

theorem read_eq_iff (p : VfsPath) (v : VfsValue) : (r.operate fs yamlOfNames (.read p)).2 = .ok v ↔
    ∃ content, visible r p = some content ∧ v = .bytes content := by
  rw [operate_eq_onMemory fs yamlOfNames hmounts hcaller, ← visible_prepared yamlOfNames (.read p)]
  unfold visible
  dsimp only [onMemory, VfsOp.path]
  rw [MemFs.read]
  cases ((prepared yamlOfNames r (.read p)).memFor p.asStr).lookup p.asStr with
  | none => simp [Except.map]
  | some content => simp [Except.map, eq_comm]

theorem delete_eq_iff (p : VfsPath) (v : VfsValue) :
    (r.operate fs yamlOfNames (.delete p)).2 = .ok v ↔ (visible r p).isSome ∧ v = .unit := by
  rw [operate_eq_onMemory fs yamlOfNames hmounts hcaller]
  unfold visible
  dsimp only [onMemory, VfsOp.path, prepared]
  rw [MemFs.delete]
  cases (r.memFor p.asStr).lookup p.asStr with
  | none => simp [Except.map]
  | some content => simp [Except.map, eq_comm]

end Operate

/-! ## Sequences of operations -/

section After

/-- The head of a view is the abstract map's file, and the rest stays. -/
theorem after_spec (ops : List VfsOp) (p : VfsPath) (hmounts : r.mounts = [])
    (hcaller : r.caller = none) :
    (after r fs yamlOfNames ops).mounts = [] ∧ (after r fs yamlOfNames ops).caller = none ∧
      (after r fs yamlOfNames ops).memMounts.map (·.1) = r.memMounts.map (·.1) ∧
      view (after r fs yamlOfNames ops) p =
        lastWrite (effectAt p) (visible r p) ops :: (view r p).tail := by
  induction ops generalizing r with
  | nil => exact ⟨hmounts, hcaller, rfl, view_eq_cons p⟩
  | cons op ops ih =>
    obtain ⟨hmoun', hkeys, hcall'⟩ := tables_operate fs yamlOfNames hmounts hcaller op
    have hview := view_operate fs yamlOfNames hmounts hcaller op p
    have hvis : visible (r.operate fs yamlOfNames op).1 p = (effectAt p op).getD (visible r p) := by
      rw [view_eq_cons] at hview
      exact (List.cons.inj hview).1
    obtain ⟨hm, hc, hk, hv⟩ := ih hmoun' hcall'
    refine ⟨hm, hc, hk.trans hkeys, hv.trans ?_⟩
    rw [lastWrite_cons, hvis, hview, tail_cons]

end After

/-! ## The operations at one path -/

theorem isSome_view_iff (p : VfsPath) : (∃ file ∈ view r p, file.isSome) ↔
    (∃ m ∈ r.memMounts, mountMatches m.1 p.asStr = true ∧ (m.2.lookup p.asStr).isSome) ∨
      (r.default.lookup p.asStr).isSome := by
  simp [view, candidates, or_and_right, exists_or, and_assoc]

/-- `exists` with in-memory mounts only. -/
theorem existsPath_iff (hmounts : r.mounts = []) (p : VfsPath) :
    r.existsPath fs p = true ↔ IsMountPoint r p ∨ ∃ file ∈ view r p, file.isSome := by
  have hroute : r.route p.asStr = none := by
    rw [route, hmounts]
    rfl
  rw [isSome_view_iff, existsPath, hroute, Option.any_none, Bool.false_or,
    Bool.or_eq_true, any_eq_true, ← or_assoc]
  refine or_congr_left ?_
  constructor
  · rintro ⟨m, hm, hfound⟩
    rw [Bool.or_eq_true, decide_eq_true_eq, Bool.and_eq_true] at hfound
    rcases hfound with hpoint | ⟨hbelow, hfile⟩
    · exact .inl (mem_map.mpr ⟨m, hm, hpoint.symm⟩)
    · exact .inr ⟨m, hm, by rw [mountMatches, hbelow, Bool.or_true], hfile⟩
  · rintro (hpoint | ⟨m, hm, hmatc, hfile⟩)
    · obtain ⟨m, hm, heq⟩ := mem_map.mp hpoint
      exact ⟨m, hm, by rw [heq, decide_eq_true rfl, Bool.true_or]⟩
    · exact ⟨m, hm, by rwa [hfile, Bool.and_true]⟩

theorem operations_agree_iff (hmounts : r.mounts = []) (hcaller : r.caller = none)
    (ops : List VfsOp) (p : VfsPath) :
    OperationsAgree r fs yamlOfNames ops p ↔
      (Shadowed r p → (lastWrite (effectAt p) (visible r p) ops).isSome) := by
  obtain ⟨hmoun', hcall', hkeys, hview⟩ := after_spec fs yamlOfNames ops p hmounts hcaller
  have hvis : visible (after r fs yamlOfNames ops) p =
      lastWrite (effectAt p) (visible r p) ops := by
    rw [view_eq_cons] at hview
    exact (List.cons.inj hview).1
  have hread := read_eq_iff fs yamlOfNames hmoun' hcall' p
  have hdel := delete_eq_iff fs yamlOfNames hmoun' hcall' p
  have hexis : (after r fs yamlOfNames ops).existsPath fs p = true ↔
      (lastWrite (effectAt p) (visible r p) ops).isSome ∨ Shadowed r p := by
    rw [existsPath_iff fs hmoun', hview, IsMountPoint, hkeys, Shadowed, exists_mem_cons_iff]
    exact or_left_comm
  rw [hvis] at hread hdel
  have hreada : (∃ v, ((after r fs yamlOfNames ops).operate fs yamlOfNames (.read p)).2 =
      .ok v) ↔ (lastWrite (effectAt p) (visible r p) ops).isSome := by
    rw [exists_congr hread, Option.isSome_iff_exists]
    exact ⟨fun ⟨_, content, h, _⟩ => ⟨content, h⟩, fun ⟨content, h⟩ => ⟨_, content, h, rfl⟩⟩
  constructor
  · intro h hshad
    exact hreada.mp (h.exists_iff_read.mp (hexis.mpr (.inr hshad)))
  · intro h
    refine ⟨?_, ?_, fun content => ?_⟩
    · rw [hexis, hreada]
      exact or_iff_left_of_imp h
    · rw [hreada, exists_congr hdel]
      exact ⟨fun h => ⟨.unit, h, rfl⟩, fun ⟨_, h, _⟩ => h⟩
    · rw [hread]
      exact ⟨fun ⟨_, hlast, heq⟩ => by cases heq; exact hlast, fun hlast => ⟨content, hlast, rfl⟩⟩

end Router

/-! ## One in-memory mount -/

/-- The tool tree as an in-memory mount with no file yet. -/
def toolsRouter : VfsRouter Unit := (newRouter ()).mountMemfs "/tools" ∅

def toolsPath : VfsPath := ⟨"/tools", by decide, by decide⟩

def noteBelowTools : VfsPath := ⟨"/tools/note", by decide, by decide⟩

theorem not_shadowed_note : ¬Shadowed toolsRouter noteBelowTools := by
  rintro (hpoint | hfile)
  · exact absurd hpoint (by unfold IsMountPoint; decide)
  · exact absurd hfile (by decide)

/-- A disk that holds nothing. -/
def emptyDisk : FileSystem Unit where
  readFile _ _ := .error ""
  createParentDirs _ _ := ((), .error "")
  writeFile _ _ _ := ((), .error "")
  removeFile _ _ := ((), .error "")
  pathExists _ _ := false
  readDir _ _ := .ok []

/-- A file below the mount point, written twice. -/
theorem operations_agree_note : OperationsAgree toolsRouter emptyDisk (fun _ => "")
    [.write noteBelowTools [1], .write noteBelowTools [2]] noteBelowTools :=
  (operations_agree_iff _ _ rfl rfl _ _).mpr fun h => absurd h not_shadowed_note

/-- The mount point exists and cannot be read. -/
theorem tools_exists_unreadable : toolsRouter.existsPath emptyDisk toolsPath = true ∧
    (toolsRouter.operate emptyDisk (fun _ => "") (.read toolsPath)).2 =
      .error (.configParse "ENOENT: /tools") :=
  ⟨rfl, rfl⟩

end Avix.Memfs
