/-
  MEMFS — which provider serves a path (`VfsRouter::mount`, `mount_memfs` and `route` of
  `memfs/router.rs`).

  Each of the two tables of a router keeps one entry for a mount point and is sorted by falling
  length (`Lib/LongestMatch`).

  `most_specific_mount_iff`: after any sequence of mounts, reads, writes, deletes and
  lists of a path are operations on the provider mounted last at the longest covering mount point
  of both tables, and on the default file system if none covers, exactly when this provider is a
  local one or no local mount covers the path.

  Reason. Each table for itself keeps the law. But the local table is searched first, so a local
  mount at a shorter mount point, or an earlier one at the same, hides an in-memory mount
  (`local_hides_memory`).

  A mount point covers a path that is equal to it or continues it after a slash; trailing slashes
  of the mount point do not count. The router is a new one, with no tool registry and no caller.
-/
import Avix.Lib.LongestMatch
import Avix.Memfs.Router

namespace Avix.Memfs

open Lib VfsRouter List Option

/-! ## Mounts -/

inductive MountedProvider where
  | disk (provider : LocalProvider)
  | memory (fs : MemFs)

def MountedProvider.disk? : MountedProvider → Option LocalProvider
  | disk provider => some provider
  | memory _ => none

def MountedProvider.memory? : MountedProvider → Option MemFs
  | disk _ => none
  | memory fs => some fs

@[simp] theorem MountedProvider.disk?_disk (provider : LocalProvider) :
    (disk provider).disk? = some provider := rfl

@[simp] theorem MountedProvider.memory?_memory (fs : MemFs) : (memory fs).memory? = some fs := rfl

/-- A call of `mount` or `mount_memfs`. -/
structure MountCall where
  mountPoint : String
  provider : MountedProvider

section Router

variable {D : Type}

/-- `VfsRouter::new`, on a disk. -/
def newRouter (disk : D) : VfsRouter D where
  mounts := []
  memMounts := []
  toolRegistry := none
  caller := none
  default := ∅
  disk := disk

def mountCall (r : VfsRouter D) (c : MountCall) : VfsRouter D :=
  match c.provider with
  | .disk provider => r.mount c.mountPoint provider
  | .memory fs => r.mountMemfs c.mountPoint fs

/-- The router after a sequence of mounts. -/
def mounted (disk : D) (calls : List MountCall) : VfsRouter D :=
  calls.foldl mountCall (newRouter disk)

/-! ## What should serve a path -/

/-- The mounts in order, each with its mount point as it is kept. -/
def entries (calls : List MountCall) : List (String × MountedProvider) :=
  calls.map fun c => (trimEnd '/' c.mountPoint, c.provider)

/-- The path is the mount point or lies below it. -/
def Covers (path : VfsPath) (mountPoint : String) : Prop :=
  InTree '/' mountPoint.toList path.asStr.toList

/-- The last mount at the longest mount point that covers the path; none if none does. -/
def Chosen (calls : List MountCall) (path : VfsPath) : Option (String × MountedProvider) → Prop
  | some e => Wins String.utf8ByteSize (Covers path) (entries calls) e
  | none => ∀ e ∈ entries calls, ¬Covers path e.1

/-- An operation on an in-memory file system. -/
def onMemory (mem : MemFs) : VfsOp → MemFs × Except AvixError VfsValue
  | .read p => (mem, (mem.read p).map .bytes)
  | .write p content => (mem.write p content, .ok .unit)
  | .delete p => ((mem.delete p).1, (mem.delete p).2.map fun _ => .unit)
  | .list p => (mem, (mem.list p).map .names)

variable (fs : FileSystem D)

/-- An operation on a local provider, at a path relative to it. -/
def onDisk (provider : LocalProvider) (disk : D) (rel : String) :
    VfsOp → D × Except AvixError VfsValue
  | .read _ => (disk, (provider.read fs disk rel).map .bytes)
  | .write _ content =>
    ((provider.write fs disk rel content).1,
      (provider.write fs disk rel content).2.map fun _ => .unit)
  | .delete _ =>
    ((provider.delete fs disk rel).1, (provider.delete fs disk rel).2.map fun _ => .unit)
  | .list _ => (disk, (provider.list fs disk rel).map .names)

/-- An operation on the provider of a mount: nothing but this provider changes. -/
def onProvider (r : VfsRouter D) (op : VfsOp) :
    Option (String × MountedProvider) → VfsRouter D × Except AvixError VfsValue
  | some (mountPoint, .disk provider) =>
    let rel := trimStart '/' (dropPrefix op.path.asStr mountPoint)
    ({ r with disk := (onDisk fs provider r.disk rel op).1 }, (onDisk fs provider r.disk rel op).2)
  | some (mountPoint, .memory mem) =>
    ({ r with memMounts := r.memMounts.map fun m =>
        if m.1 = mountPoint then (m.1, (onMemory mem op).1) else m }, (onMemory mem op).2)
  | none => ({ r with default := (onMemory r.default op).1 }, (onMemory r.default op).2)

/-! ## What serves a path -/

def serving (r : VfsRouter D) (path : String) : Option (String × MountedProvider) :=
  match r.mounts.find? fun m => mountMatches m.1 path with
  | some m => some (m.1, .disk m.2)
  | none => (r.memMounts.find? fun m => mountMatches m.1 path).map fun m => (m.1, .memory m.2)

theorem modify_length {α : Type} (before after : List α) (a : α) (f : α → α) :
    (before ++ a :: after).modify before.length f = before ++ f a :: after := by
  induction before with
  | nil => rfl
  | cons b before ih => simp [ih]

/-- The entry with a key is the only one of a table that changes. -/
theorem map_key {V : Type} {before after : List (String × V)} {m : String × V}
    (h : IsTable String.utf8ByteSize (before ++ m :: after)) (v : V) :
    ((before ++ m :: after).map fun e => if e.1 = m.1 then (e.1, v) else e) =
      before ++ (m.1, v) :: after := by
  have hnodup := h.nodup
  rw [map_append, map_cons, nodup_append, nodup_cons] at hnodup
  have hkeys : ∀ e ∈ before ++ after, e.1 ≠ m.1 := by
    intro e he heq
    rcases mem_append.mp he with hmem | hmem
    · exact hnodup.2.2 e.1 (mem_map_of_mem hmem) m.1 mem_cons_self heq
    · exact hnodup.2.1.1 (heq ▸ mem_map_of_mem hmem)
  have hsame : ∀ l ⊆ before ++ after, (l.map fun e => if e.1 = m.1 then (e.1, v) else e) = l := by
    intro l hl
    conv_rhs => rw [← map_id l]
    exact map_congr_left fun e he => if_neg (hkeys e (hl he))
  rw [map_append, map_cons, hsame before (subset_append_left _ _),
    hsame after (subset_append_right _ _), if_pos rfl]

section Perform

variable {r : VfsRouter D} {path : String}

/-- Where the in-memory file system that serves a path is, and what replacing it does. -/
theorem memFor_cases (r : VfsRouter D) (path : String) :
    (∃ before m after, r.memMounts = before ++ m :: after ∧
      r.memMounts.find? (fun m => mountMatches m.1 path) = some m ∧
      (∀ b ∈ before, mountMatches b.1 path = false) ∧ r.memFor path = m.2 ∧
      ∀ mem, r.setMemFor path mem = { r with memMounts := before ++ (m.1, mem) :: after }) ∨
    (r.memMounts.find? (fun m => mountMatches m.1 path) = none ∧ r.memFor path = r.default ∧
      ∀ mem, r.setMemFor path mem = { r with default := mem }) := by
  unfold memFor setMemFor
  cases hfind : r.memMounts.find? fun m => mountMatches m.1 path with
  | none =>
    have hidx : r.memMounts.findIdx? (fun m => mountMatches m.1 path) = none := by
      rw [findIdx?_eq_none_iff]
      exact fun m hm => by simpa using find?_eq_none.mp hfind m hm
    rw [hidx]
    exact .inr ⟨rfl, rfl, fun _ => rfl⟩
  | some m =>
    obtain ⟨hm, before, after, hsplit, hbef⟩ := find?_eq_some_iff_append.mp hfind
    have hbef' : ∀ b ∈ before, mountMatches b.1 path = false := by simpa using hbef
    have hidx : r.memMounts.findIdx? (fun m => mountMatches m.1 path) = some before.length := by
      rw [hsplit, findIdx?_append, findIdx?_eq_none_iff.mpr hbef', findIdx?_cons, hm]
      simp
    rw [hidx]
    refine .inl ⟨before, m, after, hsplit, rfl, hbef', rfl, fun mem => ?_⟩
    dsimp only
    rw [hsplit, modify_length]

/-- Nothing changes when a file system is replaced by itself. -/
theorem setMemFor_memFor : r.setMemFor path (r.memFor path) = r := by
  rcases memFor_cases r path with ⟨before, m, after, hsplit, -, -, hmem, hset⟩ | ⟨-, hmem, hset⟩
  · rw [hset, hmem, ← hsplit]
  · rw [hset, hmem]

variable {fs} {yamlOfNames : List String → String} {op : VfsOp}

/-- The router on which an operation works: a read may first fill the tool tree. -/
def prepared (yamlOfNames : List String → String) (r : VfsRouter D) : VfsOp → VfsRouter D
  | .read p => r.populateForRead yamlOfNames p
  | _ => r

variable {provider : LocalProvider}

/-- An operation at a local mount. -/
theorem perform_of_route {rel : String}
    (h : (prepared yamlOfNames r op).route op.path.asStr = some (provider, rel)) :
    r.perform fs yamlOfNames op = ({ prepared yamlOfNames r op with
          disk := (onDisk fs provider (prepared yamlOfNames r op).disk rel op).1 },
        (onDisk fs provider (prepared yamlOfNames r op).disk rel op).2) := by
  cases op <;>
  · dsimp only [prepared, VfsOp.path] at h
    rw [perform, h]
    dsimp only [onDisk, prepared]

/-- An operation in memory. -/
theorem perform_of_memory (h : (prepared yamlOfNames r op).route op.path.asStr = none) :
    r.perform fs yamlOfNames op = ((prepared yamlOfNames r op).setMemFor op.path.asStr
          (onMemory ((prepared yamlOfNames r op).memFor op.path.asStr) op).1,
        (onMemory ((prepared yamlOfNames r op).memFor op.path.asStr) op).2) := by
  cases op <;>
  · dsimp only [prepared, VfsOp.path] at h
    rw [perform, h]
    dsimp only [onMemory, prepared, VfsOp.path]
    try rw [setMemFor_memFor]

theorem operate_of_caller_none (hcall : r.caller = none) :
    r.operate fs yamlOfNames op = r.perform fs yamlOfNames op := by
  have hauth : r.authorize op = .ok () := by
    cases op <;> simp only [authorize, requirePermission, hcall]
  rw [operate, hauth]

/-- Without a caller and a tool registry, an operation is one on the provider that is found. -/
theorem operate_eq_onProvider (hmem : IsTable String.utf8ByteSize r.memMounts)
    (hreg : r.toolRegistry = none) (hcall : r.caller = none) :
    r.operate fs yamlOfNames op = onProvider fs r op (serving r op.path.asStr) := by
  have hprep : prepared yamlOfNames r op = r := by
    cases op with
    | read p =>
      rw [prepared, populateForRead, hreg]
      split_ifs
      · cases r.memMounts.findIdx? (·.1 = "tools") <;> rfl
      · rfl
    | _ => rfl
  rw [operate_of_caller_none hcall]
  unfold serving
  cases hlocal : r.mounts.find? fun m => mountMatches m.1 op.path.asStr with
  | some m =>
    have hroute : (prepared yamlOfNames r op).route op.path.asStr =
        some (m.2, trimStart '/' (dropPrefix op.path.asStr m.1)) := by
      rw [hprep, route, hlocal, map_some]
    rw [perform_of_route hroute, hprep]
    rfl
  | none =>
    have hroute : (prepared yamlOfNames r op).route op.path.asStr = none := by
      rw [hprep, route, hlocal, map_none]
    rw [perform_of_memory hroute, hprep]
    rcases memFor_cases r op.path.asStr with
      ⟨before, m, after, hsplit, hfind, -, hmemF, hset⟩ | ⟨hfind, hmemF, hset⟩
    · rw [hfind, hset, hmemF, map_some, onProvider, hsplit]
      rw [hsplit] at hmem
      rw [map_key hmem]
    · rw [hfind, hset, hmemF]
      rfl

end Perform

/-! ## The tables after a sequence of mounts -/

def entriesOf {W : Type} (kind : MountedProvider → Option W) (calls : List MountCall) :
    List (String × W) := (entries calls).filterMap fun e => (kind e.2).map (e.1, ·)

theorem mounted_concat (disk : D) (calls : List MountCall) (c : MountCall) :
    mounted disk (calls ++ [c]) = mountCall (mounted disk calls) c := by
  unfold mounted
  rw [foldl_append]
  rfl

theorem entriesOf_concat {W : Type} (kind : MountedProvider → Option W) (calls : List MountCall)
    (c : MountCall) : entriesOf kind (calls ++ [c]) =
      entriesOf kind calls ++ ((kind c.provider).map (trimEnd '/' c.mountPoint, ·)).toList := by
  unfold entriesOf entries
  rw [map_append, filterMap_append]
  cases hkind : kind c.provider <;> simp [hkind]

open MountedProvider

/-- Each table is the one of the mounts of its kind, and nothing else has changed. -/
theorem mounted_eq (disk : D) (calls : List MountCall) : mounted disk calls = { newRouter disk with
    mounts := table String.utf8ByteSize (entriesOf disk? calls)
    memMounts := table String.utf8ByteSize (entriesOf memory? calls) } := by
  induction calls using reverseRecOn with
  | nil => rfl
  | append_singleton calls c ih =>
    rw [mounted_concat, ih, entriesOf_concat, entriesOf_concat]
    obtain ⟨mountPoint, provider⟩ := c
    cases provider with
    | _ =>
      rw [disk?, memory?, map_some, toList_some, table_concat, map_none, toList_none, append_nil]
      rfl

/-- Two mount points of one length that cover a path are equal. -/
theorem eq_of_covers {path : String} {k k' : String} (h : mountMatches k path = true)
    (h' : mountMatches k' path = true) (hsize : k.utf8ByteSize = k'.utf8ByteSize) : k = k' := by
  have hlt : ∀ {a b : String}, a.toList ++ ['/'] <+: b.toList →
      a.utf8ByteSize ≠ b.utf8ByteSize := by
    rintro a b ⟨rest, hrest⟩ heq
    have hb : b = a ++ "/" ++ String.ofList rest := by
      rw [← String.toList_inj, ← hrest]
      simp
    rw [hb, String.utf8ByteSize_append, String.utf8ByteSize_append] at heq
    have hslash : "/".utf8ByteSize = 1 := rfl
    omega
  have hle : ∀ {a b : String}, a.toList ++ ['/'] <+: b.toList ++ ['/'] →
      a.utf8ByteSize = b.utf8ByteSize → a = b := by
    intro a b hpref heq
    rcases prefix_concat_iff.mp hpref with hsame | hbelow
    · exact String.toList_inj.mp (append_cancel_right hsame)
    · exact absurd heq (hlt hbelow)
  rcases prefix_or_prefix_of_prefix (mountMatches_iff.mp h) (mountMatches_iff.mp h') with
    hpref | hpref
  · exact hle hpref hsize
  · exact (hle hpref hsize.symm).symm

section Winners

variable {calls : List MountCall} {path : VfsPath} {disk : D}

theorem covers_eq : (fun k => mountMatches k path.asStr = true) = Covers path :=
  funext fun _ => propext mountMatches_iff

variable {k : String} {W : Type} {kind : MountedProvider → Option W} {c : MountCall}

theorem find?_entriesOf_eq_some_iff {e : String × W} :
    (table String.utf8ByteSize (entriesOf kind calls)).find?
        (fun m => mountMatches m.1 path.asStr) = some e ↔
      Wins String.utf8ByteSize (Covers path) (entriesOf kind calls) e := by
  rw [find?_table fun _ _ => eq_of_covers, covers_eq]

theorem find?_of_chosen {provider : MountedProvider} {w : W}
    (h : Chosen calls path (some (k, provider))) (hw : kind provider = some w) :
    (table String.utf8ByteSize (entriesOf kind calls)).find?
      (fun m => mountMatches m.1 path.asStr) = some (k, w) :=
  find?_entriesOf_eq_some_iff.mpr (h.filterMap hw)

theorem find?_eq_none_of_not_covers
    (h : ∀ c ∈ calls, (kind c.provider).isSome → ¬Covers path (trimEnd '/' c.mountPoint)) :
    (table String.utf8ByteSize (entriesOf kind calls)).find?
      (fun m => mountMatches m.1 path.asStr) = none := by
  refine (find?_table_eq_none_iff (P := fun k => mountMatches k path.asStr)).mpr fun e he => ?_
  obtain ⟨e', he', hmap⟩ := mem_filterMap.mp he
  obtain ⟨c, hc, rfl⟩ := mem_map.mp he'
  obtain ⟨w, hw, rfl⟩ := map_eq_some_iff.mp hmap
  rw [Bool.eq_false_iff]
  intro hmatc
  exact h c hc (by rw [hw]; rfl) (mountMatches_iff.mp hmatc)

theorem mounts_mounted : (mounted disk calls).mounts =
    table String.utf8ByteSize (entriesOf disk? calls) := by rw [mounted_eq]

theorem memMounts_mounted : (mounted disk calls).memMounts =
    table String.utf8ByteSize (entriesOf memory? calls) := by rw [mounted_eq]

theorem existsUnique_chosen (calls : List MountCall) (path : VfsPath) :
    ∃! chosen, Chosen calls path chosen := by
  -- the choice is what a search of one table of all mounts would find
  have hfind : ∀ chosen, Chosen calls path chosen ↔
      (table String.utf8ByteSize (entries calls)).find? (fun m => mountMatches m.1 path.asStr) =
        chosen := by
    intro chosen
    cases chosen with
    | none =>
      rw [find?_table_eq_none_iff (P := fun k => mountMatches k path.asStr)]
      refine forall₂_congr fun e _ => ?_
      rw [Covers, ← mountMatches_iff, Bool.not_eq_true]
    | some e =>
      rw [find?_table fun _ _ => eq_of_covers, covers_eq]
      rfl
  refine ⟨_, (hfind _).mpr rfl, fun chosen h => ((hfind chosen).mp h).symm⟩

theorem not_covers_of_chosen_none (h : Chosen calls path none) (hc : c ∈ calls) :
    ¬Covers path (trimEnd '/' c.mountPoint) :=
  h (trimEnd '/' c.mountPoint, c.provider) (mem_map.mpr ⟨c, hc, rfl⟩)

theorem serving_of_chosen_none (h : Chosen calls path none) :
    serving (mounted disk calls) path.asStr = none := by
  unfold serving
  rw [mounts_mounted, memMounts_mounted,
    find?_eq_none_of_not_covers fun c hc _ => not_covers_of_chosen_none h hc]
  dsimp only
  rw [find?_eq_none_of_not_covers fun c hc _ => not_covers_of_chosen_none h hc, map_none]

theorem serving_of_chosen_disk
    (h : Chosen calls path (some (k, .disk provider))) :
    serving (mounted disk calls) path.asStr = some (k, .disk provider) := by
  unfold serving
  rw [mounts_mounted, find?_of_chosen h (disk?_disk provider)]

theorem serving_of_chosen_memory {mem : MemFs} (h : Chosen calls path (some (k, .memory mem)))
    (hlocal : ∀ c ∈ calls, (c.provider.disk?).isSome → ¬Covers path (trimEnd '/' c.mountPoint)) :
    serving (mounted disk calls) path.asStr = some (k, .memory mem) := by
  unfold serving
  rw [mounts_mounted, memMounts_mounted, find?_eq_none_of_not_covers hlocal]
  dsimp only
  rw [find?_of_chosen h (memory?_memory mem), map_some]

/-- A local mount that covers the path hides every in-memory one. -/
theorem serving_of_local (hc : c ∈ calls) (hdisk : (c.provider.disk?).isSome)
    (hcov : Covers path (trimEnd '/' c.mountPoint)) :
    ∃ k provider, serving (mounted disk calls) path.asStr = some (k, .disk provider) := by
  unfold serving
  rw [mounts_mounted]
  cases hfind : (table String.utf8ByteSize (entriesOf disk? calls)).find?
      fun m => mountMatches m.1 path.asStr with
  | some m => exact ⟨m.1, m.2, rfl⟩
  | none =>
    obtain ⟨provider, hprov⟩ := isSome_iff_exists.mp hdisk
    have hentry : (trimEnd '/' c.mountPoint, provider) ∈ entriesOf disk? calls :=
      mem_filterMap.mpr ⟨_, mem_map_of_mem hc, by rw [hprov, map_some]⟩
    have hnot := (find?_table_eq_none_iff (P := fun k => mountMatches k path.asStr)).mp hfind _
      hentry
    rw [mountMatches_iff.mpr hcov] at hnot
    cases hnot

end Winners

section Write

variable {fs}

/-- A write at a local mount is not one in memory, if it would change the file there. -/
theorem write_disk_ne_memory {r : VfsRouter D} {k k' : String}
    {mem : MemFs} {path : VfsPath} {content : Bytes} (hentry : (k, mem) ∈ r.memMounts)
    (hcont : mem.lookup path.asStr ≠ some content) :
    onProvider fs r (.write path content) (some (k', .disk provider)) ≠
      onProvider fs r (.write path content) (some (k, .memory mem)) := by
  intro heq
  have hmaps : r.memMounts = r.memMounts.map fun m =>
      if m.1 = k then (m.1, mem.write path content) else m := by
    have hfst := congrArg (fun result => result.1.memMounts) heq
    dsimp only [onProvider, onMemory] at hfst
    exact hfst
  have hsame := map_inj_left.mp ((map_id _).trans hmaps) (k, mem) hentry
  rw [id, if_pos rfl] at hsame
  have hmem : mem = mem.write path content := congrArg Prod.snd hsame
  rw [hmem, MemFs.write, AList.lookup_insert] at hcont
  exact hcont rfl

theorem exists_other_content (mem : MemFs) (path : VfsPath) :
    ∃ content : Bytes, mem.lookup path.asStr ≠ some content := by
  by_cases hempty : mem.lookup path.asStr = some []
  · exact ⟨[0], by rw [hempty]; decide⟩
  · exact ⟨[], hempty⟩

end Write

theorem operate_mounted (fs : FileSystem D) (yamlOfNames : List String → String) (disk : D)
    (calls : List MountCall) (op : VfsOp) :
    (mounted disk calls).operate fs yamlOfNames op =
      onProvider fs (mounted disk calls) op (serving (mounted disk calls) op.path.asStr) := by
  refine operate_eq_onProvider ?_ ?_ ?_
  · rw [memMounts_mounted]
    exact isTable_table _
  all_goals
    rw [mounted_eq]
    rfl

theorem most_specific_mount_iff (fs : FileSystem D) (yamlOfNames : List String → String)
    (disk : D) (calls : List MountCall) (path : VfsPath) :
    (∃! chosen, Chosen calls path chosen) ∧
      ((∀ chosen, Chosen calls path chosen → ∀ op : VfsOp, op.path = path →
          (mounted disk calls).operate fs yamlOfNames op =
            onProvider fs (mounted disk calls) op chosen) ↔
        ∀ k mem, Chosen calls path (some (k, .memory mem)) → ∀ c ∈ calls,
          (c.provider.disk?).isSome → ¬Covers path (trimEnd '/' c.mountPoint)) := by
  refine ⟨existsUnique_chosen calls path, ?_, ?_⟩
  · intro h k mem hchos c hc hdisk hcov
    obtain ⟨content, hcont⟩ := exists_other_content mem path
    have hwrite := h _ hchos (.write path content) rfl
    obtain ⟨k', provider, hserv⟩ := @serving_of_local D calls path disk c hc hdisk hcov
    have hpath : (VfsOp.write path content).path = path := rfl
    rw [operate_mounted, hpath, hserv] at hwrite
    have hentry : (k, mem) ∈ (mounted disk calls).memMounts := by
      rw [memMounts_mounted]
      exact mem_of_find?_eq_some (find?_of_chosen hchos (MountedProvider.memory?_memory mem))
    exact write_disk_ne_memory hentry hcont hwrite
  · rintro h chosen hchos op rfl
    rw [operate_mounted]
    match chosen, hchos with
    | none, hchos => rw [serving_of_chosen_none hchos]
    | some (k, .disk provider), hchos => rw [serving_of_chosen_disk hchos]
    | some (k, .memory mem), hchos => rw [serving_of_chosen_memory hchos (h k mem hchos)]

end Router

/-! ## A hidden mount -/

/-- A local mount of all homes after an in-memory mount in one of them. -/
def homesOverTmp : List MountCall :=
  [⟨"/users/alice/tmp", .memory ∅⟩, ⟨"/users", .disk ⟨"/srv/homes"⟩⟩]

def tmpNote : VfsPath := ⟨"/users/alice/tmp/note", by decide, by decide⟩

theorem chosen_tmpNote : Chosen homesOverTmp tmpNote (some ("/users/alice/tmp", .memory ∅)) := by
  refine ⟨[], [("/users", .disk ⟨"/srv/homes"⟩)], rfl, ?_, ?_, ?_⟩
  · exact mountMatches_iff.mp (by decide)
  · exact nofun
  intro e he _
  rw [mem_singleton.mp he]
  decide

/-- The in-memory mount does not get the file that is written. -/
theorem local_hides_memory : Chosen homesOverTmp tmpNote (some ("/users/alice/tmp", .memory ∅)) ∧
    ∀ (fs : FileSystem Unit) (yamlOfNames : List String → String),
      ((mounted () homesOverTmp).operate fs yamlOfNames (.write tmpNote [7])).1.memMounts =
          [("/users/alice/tmp", ∅)] ∧
        (onProvider fs (mounted () homesOverTmp) (.write tmpNote [7])
          (some ("/users/alice/tmp", .memory ∅))).1.memMounts =
            [("/users/alice/tmp", MemFs.write ∅ tmpNote [7])] := by
  refine ⟨chosen_tmpNote, fun fs yamlOfNames => ?_⟩
  have hmoun : mounted () homesOverTmp = { newRouter () with
      mounts := [("/users", ⟨"/srv/homes"⟩)], memMounts := [("/users/alice/tmp", ∅)] } := rfl
  rw [hmoun]
  exact ⟨rfl, rfl⟩

end Avix.Memfs
