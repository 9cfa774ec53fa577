/-
  What lies where in the file system of the host.

  A file system is looked at location by location: the content of a file, and whether there is a
  directory. `AgreeOn` compares two of them on a part of the tree, and each operation of
  `Package/FileSystem` changes a part of it only.

  * `exists_join_iff`: what `Path::exists` of a name in a directory says.
  * `read_withMoved_of_not_under`, `read_withMoved_rebase`: a tree that was moved.
-/
import Avix.Package.FileSystem

namespace Avix

open Lib List

namespace Location

/-- The location of a name in a directory. -/
def child (dir : Location) (name : String) (h : IsName name) : Location :=
  dir.descend [name] fun _ hc => List.mem_singleton.mp hc ▸ h

variable {name : String} {a b dir : Location}

theorem under_trans {c : Location} (h : a.Under b) (h' : b.Under c) : a.Under c :=
  List.IsPrefix.trans h h'

theorem under_child (dir : Location) (h : IsName name) :
    dir.Under (dir.child name h) := under_descend _ _ _

theorem child_ne (dir : Location) (h : IsName name) : dir.child name h ≠ dir :=
  descend_ne (cons_ne_nil _ _)

variable {h : IsName name} {name' : String} {loc : Location}

theorem child_inj {dir' : Location} {h' : IsName name'}
    (heq : dir.child name h = dir'.child name' h') : dir = dir' ∧ name = name' := by
  have hcomps : dir.comps ++ [name] = dir'.comps ++ [name'] := congrArg Location.comps heq
  obtain ⟨hdir, hname⟩ := append_inj' hcomps rfl
  exact ⟨Location.ext hdir, singleton_inj.mp hname⟩

/-- Two directories above one location: one of them lies above the other. -/
theorem under_total (ha : a.Under loc) (hb : b.Under loc) :
    a.Under b ∨ b.Under a := prefix_or_prefix_of_prefix ha hb

theorem under_antisymm (h : a.Under b) (h' : b.Under a) : a = b :=
  Location.ext (h.eq_of_length (Nat.le_antisymm h.length_le h'.length_le))

/-- A location above a child is the child or lies above its directory. -/
theorem under_child_iff : a.Under (dir.child name h) ↔ a = dir.child name h ∨ a.Under dir := by
  constructor
  · intro hunder
    rcases prefix_concat_iff.mp hunder with heq | hpre
    · exact .inl (Location.ext heq)
    · exact .inr hpre
  · rintro (rfl | hunder)
    · exact under_refl _
    · exact under_trans hunder (under_child _ _)

/-- Children of different names have nothing in common. -/
theorem not_under_of_child_ne {h' : IsName name'} (hne : name ≠ name')
    (hunder : (dir.child name h).Under loc) : ¬(dir.child name' h').Under loc := by
  intro hunder'
  rcases under_total hunder hunder' with habove | habove
  · rcases under_child_iff.mp habove with heq | hup
    · exact hne (child_inj heq).2
    · exact child_ne dir h (under_antisymm hup (under_child dir h))
  · rcases under_child_iff.mp habove with heq | hup
    · exact hne (child_inj heq).2.symm
    · exact child_ne dir h' (under_antisymm hup (under_child dir h'))

theorem rebase_self (source target : Location) : rebase source target source = target :=
  Location.ext (by
    change target.comps ++ source.comps.drop source.comps.length = target.comps
    rw [drop_length, append_nil])

theorem rebase_inj {source target : Location} (ha : source.Under a) (hb : source.Under b)
    (h : rebase source target a = rebase source target b) : a = b := by
  obtain ⟨p, hp⟩ := ha
  obtain ⟨q, hq⟩ := hb
  have hcomps := congrArg Location.comps h
  rw [comps_rebase hp.symm, comps_rebase hq.symm] at hcomps
  exact Location.ext (by rw [← hp, ← hq, append_cancel_left hcomps])

theorem rebase_child (source target : Location) (h : IsName name) :
    rebase source target (source.child name h) = target.child name h :=
  Location.ext (comps_rebase rfl)

end Location

open Location

namespace PathBuf

variable {c s : String} {p q : PathBuf}

theorem resolve_join (p : PathBuf) (h : IsName s) :
    (p.join s).resolve = p.resolve.child s h := Location.ext (resolve_join_name p h)

theorem comps_join (p : PathBuf) (h : IsName s) : (p.join s).comps = p.comps ++ [s] := by
  rw [join, startsWith_slash h, if_neg Bool.false_ne_true]
  change p.comps ++ pieces s = _
  rw [pieces_eq_singleton h.1]

theorem mem_ancestors_iff : q ∈ p.ancestors ↔ q.comps <+: p.comps := by
  unfold ancestors
  rw [mem_map]
  constructor
  · rintro ⟨n, -, rfl⟩
    exact take_prefix n p.comps
  · intro h
    refine ⟨q.comps.length, mem_range.mpr (Nat.lt_succ_of_le h.length_le), ?_⟩
    exact PathBuf.ext (prefix_iff_eq_take.mp h).symm

theorem ancestors_eq_concat (p : PathBuf) : ∃ l, p.ancestors = l ++ [p] := by
  refine ⟨p.ancestors.dropLast, ?_⟩
  have hne : p.ancestors ≠ [] := by simp [ancestors]
  have hlast : p.ancestors.getLast hne = p := by
    simp [ancestors, getLast_map, getLast_range]
  conv_lhs => rw [← dropLast_append_getLast hne]
  rw [hlast]

/-- The paths above a path that ends in a piece are those up to its parent. -/
theorem dropLast_ancestors (h : q.comps = p.comps ++ [c]) : q.ancestors.dropLast = p.ancestors := by
  have hlen : q.comps.length = p.comps.length + 1 := by rw [h, length_append]; rfl
  unfold ancestors
  rw [range_succ, map_append, map_singleton, dropLast_concat, hlen]
  refine map_congr_left fun n hn => PathBuf.ext ?_
  change q.comps.take n = p.comps.take n
  rw [h, take_append_of_le_length (Nat.le_of_lt_succ (mem_range.mp hn))]

theorem ancestors_join (p : PathBuf) (hc : IsName c) :
    (p.join c).ancestors = p.ancestors ++ [p.join c] := by
  obtain ⟨l, hl⟩ := (p.join c).ancestors_eq_concat
  have hdrop := dropLast_ancestors (p.comps_join hc)
  rw [hl, dropLast_concat] at hdrop
  rw [hl, hdrop]

end PathBuf

namespace HostFs

variable {fs fs' : HostFs} {d dir loc source target : Location} {p : PathBuf} {c : String}

theorem hasFile_iff_read : fs.HasFile loc ↔ (fs.read loc).isSome = true := by
  constructor
  · rintro ⟨f, hf, rfl⟩
    rw [read, Option.isSome_map, find?_isSome]
    exact ⟨f, hf, decide_eq_true rfl⟩
  · intro h
    obtain ⟨data, hdata⟩ := Option.isSome_iff_exists.mp h
    exact hasFile_of_read hdata

/-! ## Directories -/

/-- The path leads to a directory. -/
def IsDir (fs : HostFs) (p : PathBuf) : Prop := ∀ q ∈ p.ancestors, q.resolve ∈ fs.dirs

theorem IsDir.resolve_mem (h : fs.IsDir p) : p.resolve ∈ fs.dirs :=
  h p (PathBuf.mem_ancestors_iff.mpr prefix_rfl)

instance (fs : HostFs) (p : PathBuf) : Decidable (fs.IsDir p) :=
  inferInstanceAs (Decidable (∀ q ∈ p.ancestors, q.resolve ∈ fs.dirs))

theorem isDir_join_iff (hc : IsName c) :
    fs.IsDir (p.join c) ↔ fs.IsDir p ∧ p.resolve.child c hc ∈ fs.dirs := by
  rw [IsDir, p.ancestors_join hc, forall_mem_append, forall_mem_singleton, p.resolve_join hc, IsDir]

theorem exists_join_iff (hc : IsName c) : fs.exists_ (p.join c) = true ↔
    fs.IsDir p ∧ (p.resolve.child c hc ∈ fs.dirs ∨ fs.HasFile (p.resolve.child c hc)) := by
  unfold exists_ reaches
  rw [Bool.and_eq_true, all_eq_true, decide_eq_true_iff,
    PathBuf.dropLast_ancestors (p.comps_join hc), p.resolve_join hc]
  simp [IsDir]

/-- Directories and files lie in directories. -/
structure WellFormed (fs : HostFs) : Prop where
  parents : ∀ d ∈ fs.dirs, ∀ dir : Location, dir.Under d → dir ∈ fs.dirs
  homes : ∀ loc, fs.HasFile loc → ∀ dir : Location, dir.StrictlyUnder loc → dir ∈ fs.dirs

/-- All that stands above a location is a directory, piece by piece. -/
theorem forall_under_iff {P : List String → Prop} (loc : Location) :
    (∀ dir : Location, dir.Under loc → P dir.comps → dir ∈ fs.dirs) ↔
      ∀ l ∈ loc.comps.inits, P l → l ∈ fs.dirs.map Location.comps := by
  constructor
  · intro h l hl hP
    have hpre : l <+: loc.comps := (mem_inits _ _).mp hl
    exact mem_map_of_mem (h ⟨l, fun c hc => loc.isName c (hpre.subset hc)⟩ hpre hP)
  · intro h dir hdir hP
    obtain ⟨d, hd, heq⟩ := mem_map.mp (h dir.comps ((mem_inits _ _).mpr hdir) hP)
    exact Location.ext heq ▸ hd

instance (fs : HostFs) : Decidable fs.WellFormed :=
  decidable_of_iff
    ((∀ d ∈ fs.dirs, ∀ l ∈ d.comps.inits, True → ∃ d' ∈ fs.dirs, d'.comps = l) ∧
      ∀ f ∈ fs.files, ∀ l ∈ f.1.comps.inits, f.1.comps ≠ l → ∃ d ∈ fs.dirs, d.comps = l) <| by
    simp only [← mem_map]
    constructor
    · rintro ⟨hdirs, hfiles⟩
      refine ⟨fun d hd dir hdir => (forall_under_iff d).mpr (hdirs d hd) dir hdir trivial, ?_⟩
      rintro _ ⟨f, hf, rfl⟩ dir ⟨hunder, hne⟩
      exact (forall_under_iff f.1).mpr (hfiles f hf) dir hunder fun heq => hne (Location.ext heq)
    · intro h
      refine ⟨fun d hd => (forall_under_iff d).mp fun dir hdir _ => h.parents d hd dir hdir,
        fun f hf => (forall_under_iff f.1).mp fun dir hdir hne => ?_⟩
      exact h.homes f.1 ⟨f, hf, rfl⟩ dir ⟨hdir, fun heq => hne (heq ▸ rfl)⟩

/-- Where there is nothing, there is nothing below either. -/
theorem WellFormed.nothing_under (hwf : fs.WellFormed) (hdir : dir ∉ fs.dirs)
    (hfile : ¬fs.HasFile dir) (hloc : dir.Under loc) : fs.read loc = none ∧ loc ∉ fs.dirs := by
  constructor
  · by_contra hread
    have hthere : fs.HasFile loc := hasFile_iff_read.mpr (Option.isSome_iff_ne_none.mpr hread)
    by_cases heq : loc = dir
    · exact hfile (heq ▸ hthere)
    · exact hdir (hwf.homes _ hthere _ ⟨hloc, heq⟩)
  · exact fun hthere => hdir (hwf.parents _ hthere _ hloc)

theorem mem_subdirs_iff : c ∈ fs.subdirs dir ↔ ∃ hc : IsName c, dir.child c hc ∈ fs.dirs := by
  unfold subdirs
  rw [mem_dedup, mem_filterMap]
  constructor
  · rintro ⟨d, hd, heq⟩
    split_ifs at heq with hpar
    have hname : IsName c := d.isName c (mem_of_getLast? heq)
    refine ⟨hname, ?_⟩
    have hcomps : d.comps = dir.comps ++ [c] := by
      obtain ⟨l, hl⟩ := getLast?_eq_some_iff.mp heq
      rw [← hpar, hl, dropLast_concat]
    rwa [show dir.child c hname = d from Location.ext hcomps.symm]
  · rintro ⟨hc, hmem⟩
    refine ⟨_, hmem, ?_⟩
    have hcomps : (dir.child c hc).comps = dir.comps ++ [c] := rfl
    rw [hcomps, dropLast_concat, if_pos rfl, getLast?_concat]

theorem nodup_subdirs (fs : HostFs) (dir : Location) : (fs.subdirs dir).Nodup := nodup_dedup _

/-! ## Comparing -/

/-- The same files and directories at the locations. -/
def AgreeOn (P : Location → Prop) (fs fs' : HostFs) : Prop :=
  ∀ loc, P loc → fs.read loc = fs'.read loc ∧ (loc ∈ fs.dirs ↔ loc ∈ fs'.dirs)

namespace AgreeOn

variable {P : Location → Prop} {fs'' : HostFs}

theorem refl (fs : HostFs) : AgreeOn P fs fs := fun _ _ => ⟨rfl, Iff.rfl⟩

theorem symm (h : AgreeOn P fs fs') : AgreeOn P fs' fs :=
  fun loc hloc => ⟨(h loc hloc).1.symm, (h loc hloc).2.symm⟩

theorem trans (h : AgreeOn P fs fs') (h' : AgreeOn P fs' fs'') : AgreeOn P fs fs'' :=
  fun loc hloc => ⟨(h loc hloc).1.trans (h' loc hloc).1, (h loc hloc).2.trans (h' loc hloc).2⟩

theorem hasFile (h : AgreeOn P fs fs') {loc : Location} (hloc : P loc) :
    fs.HasFile loc ↔ fs'.HasFile loc := by
  rw [hasFile_iff_read, hasFile_iff_read, (h loc hloc).1]

end AgreeOn

/-! ## Changes -/

theorem read_withDirs (fs : HostFs) (p : PathBuf) (loc : Location) :
    (fs.withDirs p).read loc = fs.read loc := rfl

theorem mem_withDirs_iff :
    d ∈ (fs.withDirs p).dirs ↔ d ∈ fs.dirs ∨ ∃ q ∈ p.ancestors, q.resolve = d := by
  rw [withDirs, mem_append, mem_map]

theorem read_withFile_ne {l : Location} {data : Bytes} (h : l ≠ loc) :
    (fs.withFile loc data).read l = fs.read l := by
  unfold read withFile
  rw [find?_cons_of_neg (by simpa using fun heq => h heq.symm)]
  congr 1
  rw [find?_filter]
  congr 1
  funext f
  by_cases hf : f.1 = l
  · simp [hf, h]
  · simp [hf]

theorem read_withoutTree (fs : HostFs) (dir loc : Location) :
    (fs.withoutTree dir).read loc = if dir.Under loc then none else fs.read loc := by
  unfold read withoutTree
  rw [find?_filter]
  split_ifs with hunder
  · rw [Option.map_eq_none_iff, find?_eq_none]
    intro f _ hf
    simp only [decide_not, Bool.not_eq_eq_eq_not, Bool.not_true, decide_eq_false_iff_not,
      decide_eq_true_eq] at hf
    exact hf.1 (hf.2 ▸ hunder)
  · congr 2
    funext f
    by_cases hf : f.1 = loc
    · simp [hf, hunder]
    · simp [hf]

theorem mem_withoutTree_iff : d ∈ (fs.withoutTree dir).dirs ↔ d ∈ fs.dirs ∧ ¬dir.Under d := by
  simp [withoutTree]

/-- A moved tree is read where no other file is moved to. -/
theorem read_withMoved {loc' : Location} (h : ∀ f ∈ fs.files,
    (if source.Under f.1 then Location.rebase source target f.1 else f.1) = loc' ↔ f.1 = loc) :
    (fs.withMoved source target).read loc' = fs.read loc := by
  unfold read withMoved
  rw [find?_map, Option.map_map]
  have hfind : fs.files.find? ((fun f => decide (f.1 = loc')) ∘
      fun f => (if source.Under f.1 then rebase source target f.1 else f.1, f.2)) =
        fs.files.find? fun f => decide (f.1 = loc) :=
    find?_congr fun f hf => decide_eq_decide.mpr (h f hf)
  rw [hfind]
  rfl

theorem read_withMoved_of_not_under (h : ¬target.Under loc) :
    (fs.withMoved source target).read loc = if source.Under loc then none else fs.read loc := by
  split_ifs with hunder
  · unfold read withMoved
    rw [find?_map, Option.map_map, Option.map_eq_none_iff, find?_eq_none]
    intro f _ hf
    simp only [Function.comp_apply, decide_eq_true_eq] at hf
    split_ifs at hf with hmoved
    · exact h (hf ▸ under_rebase _ _ _)
    · exact hmoved (hf ▸ hunder)
  · refine read_withMoved fun f _ => ?_
    split_ifs with hmoved
    · refine iff_of_false (fun heq => h ?_) fun heq => hunder (heq ▸ hmoved)
      exact heq ▸ under_rebase _ _ _
    · exact Iff.rfl

theorem read_withMoved_rebase (hloc : source.Under loc)
    (hempty : ∀ l, fs.HasFile l → ¬target.Under l) :
    (fs.withMoved source target).read (Location.rebase source target loc) = fs.read loc := by
  refine read_withMoved fun f hf => ?_
  split_ifs with hmoved
  · exact ⟨rebase_inj hmoved hloc, fun heq => heq ▸ rfl⟩
  · refine iff_of_false (fun heq => hempty f.1 ⟨f, hf, rfl⟩ ?_) fun heq => hmoved (heq ▸ hloc)
    exact heq ▸ under_rebase _ _ _

theorem mem_withMoved_of_not_under (h : ¬target.Under d) :
    d ∈ (fs.withMoved source target).dirs ↔ d ∈ fs.dirs ∧ ¬source.Under d := by
  unfold withMoved
  rw [mem_map]
  constructor
  · rintro ⟨d', hd', heq⟩
    split_ifs at heq with hmoved
    · exact absurd (heq ▸ under_rebase _ _ _) h
    · exact ⟨heq ▸ hd', heq ▸ hmoved⟩
  · rintro ⟨hd, hnot⟩
    exact ⟨d, hd, if_neg hnot⟩

theorem target_mem_withMoved (h : source ∈ fs.dirs) : target ∈ (fs.withMoved source target).dirs :=
  mem_map.mpr ⟨source, h, by
    rw [if_pos (under_refl _), rebase_self]⟩

theorem hasFile_withMoved_rebase (hloc : source.Under loc) (h : fs.HasFile loc) :
    (fs.withMoved source target).HasFile (Location.rebase source target loc) := by
  obtain ⟨f, hf, rfl⟩ := h
  exact ⟨_, mem_map_of_mem hf, if_pos hloc⟩

theorem noFile_of_isEmptyDir (h : fs.isEmptyDir dir = true) (hloc : dir.StrictlyUnder loc) :
    ¬fs.HasFile loc := by
  rintro ⟨f, hf, rfl⟩
  rw [isEmptyDir, Bool.and_eq_true] at h
  exact of_decide_eq_true (all_eq_true.mp h.2 f hf) hloc

end HostFs

end Avix
