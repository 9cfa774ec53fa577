/-
  SECURITY — the paths an agent may write (`VfsPath::is_agent_writable` of `memfs/path.rs`).

  The check tests the text of a path; a location has many texts, as a doubled slash and one at
  the end do not count. `components` is the location of a path, `directories` the names that stand
  between two slashes of its text. A protected directory is one of the kernel's trees, or a
  directory `memory` below `/users` or `/crews`.

  The check refuses a path exactly when its directories, as they are written, lie in a protected
  directory (`not_writable_iff`). The location then does too, but not the other way round.

  `agent_writable_law_iff`: two paths obey the law (one answer for one location; a refusal in a
  protected directory extends to its root and everything below) if each of them is plainly written
  (`PlainlyWritten`): there is no doubled slash before or in the name of the kernel tree it lies in,
  or before `users` or `crews`, and the text goes on after the protected name. A path that is not
  plainly written breaks the law with every plain spelling of its location.

  Reason. `/proc` and `/users/alice/memory` have no slash after the protected name, and
  `//proc/x` begins with an empty name; `parse` accepts all three (`escaping_spellings`).
-/
import Avix.Lib.Components
import Avix.Memfs.MemFs

namespace Avix.Security

open Lib List

/-! ## Locations and protected directories -/

/-- The location of a path: its names without empty ones. -/
def components (p : VfsPath) : List String := (splitChar '/' p.asStr).filter (· ≠ "")

/-- The names between two slashes, as they are written. -/
def directories (p : VfsPath) : List String := (splitChar '/' p.asStr).tail.dropLast

def kernelTrees : List (List String) :=
  [["proc"], ["kernel"], ["secrets"], ["etc", "avix"], ["bin"]]

inductive ProtectedDirectory : List String → Prop
  | kernel {dir : List String} (h : dir ∈ kernelTrees) : ProtectedDirectory dir
  | memory {top : String} (h : top ∈ ["users", "crews"]) (names : List String) :
    ProtectedDirectory (top :: (names ++ ["memory"]))

/-- The names begin with those of a protected directory. -/
def InProtected (names : List String) : Prop := ∃ dir, ProtectedDirectory dir ∧ dir <+: names

/-- All names, as they are written: a doubled slash and a final one give an empty name. -/
def written (p : VfsPath) : List String := (splitChar '/' p.asStr).tail

/-- No slash is doubled up to the end of the protected name, and there is one after it. -/
structure PlainlyWritten (p : VfsPath) : Prop where
  kernel : ∀ dir ∈ kernelTrees, dir <+: components p →
    "" ∉ (written p).take dir.length ∧ dir.length < (written p).length
  memory : ∀ top ∈ ["users", "crews"], [top] <+: components p → "memory" ∈ components p →
    "" ∉ (written p).take 1 ∧ "memory" ∈ (written p).dropLast

/-- One location, one answer; and a refusal in a protected directory holds in all of it. -/
structure WritableLaw (p q : VfsPath) : Prop where
  spelling : components p = components q → p.isAgentWritable = q.isAgentWritable
  tree : ∀ dir, ProtectedDirectory dir → dir <+: components p → dir <+: components q →
    p.isAgentWritable = false → q.isAgentWritable = false

/-! ## The text of a path -/

section Text

variable {p : VfsPath}

theorem exists_cons (p : VfsPath) : ∃ rest, p.asStr.toList = '/' :: rest := by
  obtain ⟨rest, hrest⟩ := isPrefixOf_iff_prefix.mp p.absolute
  exact ⟨rest, hrest.symm⟩

variable {rest : List Char}

theorem splitChar_of_cons (h : p.asStr.toList = '/' :: rest) :
    splitChar '/' p.asStr = "" :: (rest.splitOn '/').map String.ofList := by
  rw [splitChar, h]
  exact congrArg (map String.ofList) (splitOn_part not_mem_nil rest)

theorem directories_of_cons (h : p.asStr.toList = '/' :: rest) :
    directories p = (closedParts '/' rest).map String.ofList := by
  rw [directories, splitChar_of_cons h, tail_cons, closedParts, map_dropLast]

/-- The text of a directory, with a slash at the end. -/
def treeText : List String → String
  | [] => "/"
  | name :: names => "/" ++ name ++ treeText names

theorem toList_treeText (names : List String) :
    (treeText names).toList = '/' :: (names.map String.toList).flatMap (· ++ ['/']) := by
  induction names with
  | nil => rfl
  | cons name names ih =>
    rw [treeText, String.toList_append, String.toList_append, ih]
    simp

theorem startsWith_treeText {dir : List String} (hdir : ∀ n ∈ dir, '/' ∉ n.toList) :
    startsWith p.asStr (treeText dir) = true ↔ dir <+: directories p := by
  obtain ⟨rest, hrest⟩ := exists_cons p
  have hnames : ∀ n ∈ dir.map String.toList, '/' ∉ n := by simpa using hdir
  have hback : (dir.map String.toList).map String.ofList = dir := by simp
  rw [startsWith, isPrefixOf_iff_prefix, toList_treeText, hrest, cons_prefix_cons,
    closed_prefix_iff hnames, directories_of_cons hrest]
  conv_rhs => rw [← hback]
  rw [prefix_map_iff_of_injective fun _ _ h => String.ofList_injective h]
  exact and_iff_right rfl

theorem containsStr_between {name : String} (h : '/' ∉ name.toList) :
    containsStr p.asStr ("/" ++ name ++ "/") = true ↔ name ∈ directories p := by
  obtain ⟨rest, hrest⟩ := exists_cons p
  have htext : ("/" ++ name ++ "/").toList = '/' :: (name.toList ++ ['/']) := by simp
  rw [containsStr, decide_eq_true_eq, htext, hrest, closed_infix_iff h, directories_of_cons hrest,
    mem_map]
  constructor
  · exact fun hmem => ⟨name.toList, hmem, String.ofList_toList⟩
  · rintro ⟨part, hmem, rfl⟩
    rwa [String.toList_ofList]

end Text

/-! ## What is refused -/

variable {names : List String} {top : String}

theorem memory_prefix_iff (htop : top ≠ "memory") :
    (∃ mid, top :: (mid ++ ["memory"]) <+: names) ↔ [top] <+: names ∧ "memory" ∈ names := by
  constructor
  · rintro ⟨mid, hmid⟩
    exact ⟨(prefix_append [top] _).trans hmid, hmid.subset (by simp)⟩
  · rintro ⟨⟨rest, rfl⟩, hmem⟩
    obtain ⟨mid, after, rfl⟩ := append_of_mem
      ((mem_cons.mp hmem).resolve_left (Ne.symm htop))
    exact ⟨mid, after, by simp⟩

theorem ne_memory_of_mem (h : top ∈ ["users", "crews"]) : top ≠ "memory" := by
  rintro rfl
  exact absurd h (by decide)

theorem inProtected_iff : InProtected names ↔ (∃ dir ∈ kernelTrees, dir <+: names) ∨
    ∃ top ∈ ["users", "crews"], [top] <+: names ∧ "memory" ∈ names := by
  constructor
  · rintro ⟨dir, hdir, hnames⟩
    cases hdir with
    | kernel h => exact .inl ⟨dir, h, hnames⟩
    | @memory top h mid =>
      exact .inr ⟨top, h, (memory_prefix_iff (ne_memory_of_mem h)).mp ⟨mid, hnames⟩⟩
  · rintro (⟨dir, h, hnames⟩ | ⟨top, h, hnames⟩)
    · exact ⟨dir, .kernel h, hnames⟩
    · obtain ⟨mid, hmid⟩ := (memory_prefix_iff (ne_memory_of_mem h)).mpr hnames
      exact ⟨_, .memory h mid, hmid⟩

variable {p : VfsPath}

/-- The check, with the texts of its trees. -/
theorem not_writable_eq : p.isAgentWritable = false ↔
    (∃ dir ∈ kernelTrees, startsWith p.asStr (treeText dir) = true) ∨
      ∃ top ∈ ["users", "crews"], startsWith p.asStr (treeText [top]) = true ∧
        containsStr p.asStr ("/" ++ "memory" ++ "/") = true := by
  have hkern : (∃ dir ∈ kernelTrees, startsWith p.asStr (treeText dir) = true) ↔
      (startsWith p.asStr "/proc/" || startsWith p.asStr "/kernel/" ||
        startsWith p.asStr "/secrets/" || startsWith p.asStr "/etc/avix/" ||
        startsWith p.asStr "/bin/") = true := by
    simp [kernelTrees, treeText, or_assoc]
  have hmem : (∃ top ∈ ["users", "crews"], startsWith p.asStr (treeText [top]) = true ∧
      containsStr p.asStr ("/" ++ "memory" ++ "/") = true) ↔
      (startsWith p.asStr "/users/" && containsStr p.asStr "/memory/") = true ∨
        (startsWith p.asStr "/crews/" && containsStr p.asStr "/memory/") = true := by
    simp [treeText]
  rw [hkern, hmem]
  unfold VfsPath.isAgentWritable
  dsimp only
  split_ifs with h₁ h₂ h₃ <;> simp_all

theorem not_writable_iff : p.isAgentWritable = false ↔ InProtected (directories p) := by
  rw [not_writable_eq, inProtected_iff, containsStr_between (by decide)]
  refine or_congr (exists_congr fun dir => and_congr_right fun h => startsWith_treeText ?_)
    (exists_congr fun top => and_congr_right fun h => and_congr_left' (startsWith_treeText ?_))
  · revert dir
    decide
  · revert top
    decide

/-- Empty names do not matter to a protected directory. -/
theorem protectedDirectory_filter {dir : List String} (h : ProtectedDirectory dir) :
    ProtectedDirectory (dir.filter (· ≠ "")) := by
  cases h with
  | kernel h =>
    have hsame : ∀ dir ∈ kernelTrees, dir.filter (· ≠ "") = dir := by decide
    rw [hsame dir h]
    exact .kernel h
  | @memory top h mid =>
    have hnames : (top :: (mid ++ ["memory"])).filter (· ≠ "") =
        top :: (mid.filter (· ≠ "") ++ ["memory"]) := by
      have htop : top ≠ "" := by
        rintro rfl
        exact absurd h (by decide)
      simp [htop]
    rw [hnames]
    exact .memory h _

theorem inProtected_components (h : InProtected (directories p)) : InProtected (components p) := by
  obtain ⟨dir, hdir, hnames⟩ := h
  obtain ⟨rest, hrest⟩ := exists_cons p
  refine ⟨_, protectedDirectory_filter hdir, (hnames.filter _).trans ?_⟩
  rw [directories, components, splitChar_of_cons hrest, tail_cons]
  exact ((List.dropLast_prefix _).filter _)

/-! ## The law -/

/-- A directory stands at the beginning of a text, with a slash after it. -/
theorem prefix_dropLast_iff {dir l : List String} (hdir : dir ≠ []) (hne : "" ∉ dir) :
    dir <+: l.dropLast ↔
      dir <+: l.filter (· ≠ "") ∧ "" ∉ l.take dir.length ∧ dir.length < l.length := by
  have hsame : ∀ l' : List String, "" ∉ l' → l'.filter (· ≠ "") = l' := fun l' h =>
    filter_eq_self.mpr fun n hn => decide_eq_true (ne_of_mem_of_not_mem hn h)
  constructor
  · intro h
    have hlen := h.length_le
    have hpos := length_pos_of_ne_nil hdir
    obtain ⟨rest, rfl⟩ := h.trans (List.dropLast_prefix l)
    rw [length_dropLast] at hlen
    refine ⟨?_, by rwa [take_left], by omega⟩
    rw [filter_append, hsame dir hne]
    exact prefix_append _ _
  · rintro ⟨hpre, htake, hlen⟩
    have hfirst : dir = l.take dir.length := by
      rw [← take_append_drop dir.length l, filter_append, hsame _ htake] at hpre
      have hmin : (l.take dir.length).length = dir.length := by
        rw [length_take]
        omega
      rwa [prefix_iff_eq_take, take_left' hmin] at hpre
    rw [hfirst, dropLast_eq_take]
    exact take_prefix_take_left (by omega)

theorem writable_of_not_inProtected (h : ¬InProtected (components p)) :
    p.isAgentWritable = true := by
  rw [← Bool.not_eq_false, not_writable_iff]
  exact fun hwrit => h (inProtected_components hwrit)

/-- Where the trees begin. -/
def roots : List (List String) := kernelTrees ++ [["users"], ["crews"]]

theorem mem_roots_of_top (h : top ∈ ["users", "crews"]) : [top] ∈ roots := by
  revert top
  decide

variable {dir dir' : List String}

theorem prefix_directories_iff (h : dir ∈ roots) :
    dir <+: directories p ↔ dir <+: components p ∧ "" ∉ (written p).take dir.length ∧
      dir.length < (written p).length := by
  have hplain : ∀ dir ∈ roots, dir ≠ [] ∧ "" ∉ dir := by decide
  obtain ⟨rest, hrest⟩ := exists_cons p
  have hcomp : components p = (written p).filter (· ≠ "") := by
    rw [components, written, splitChar_of_cons hrest]
    rfl
  rw [hcomp]
  exact prefix_dropLast_iff (hplain dir h).1 (hplain dir h).2

/-- A location has one root at most. -/
theorem root_unique (h : dir ∈ roots) (h' : dir' ∈ roots) (hpre : dir <+: names)
    (hpre' : dir' <+: names) : dir = dir' := by
  have hone : ∀ dir ∈ roots, ∀ dir' ∈ roots, dir <+: dir' ∨ dir' <+: dir → dir = dir' := by decide
  exact hone dir h dir' h' (List.prefix_or_prefix_of_prefix hpre hpre')

theorem kernelTree_not_top (h : dir ∈ kernelTrees) (htop : top ∈ ["users", "crews"])
    (hpre : dir <+: names) : ¬[top] <+: names := by
  have hne : ∀ top ∈ ["users", "crews"], [top] ∉ kernelTrees := by decide
  intro hpre'
  rw [root_unique (mem_append_left _ h) (mem_roots_of_top htop) hpre hpre'] at h
  exact hne top htop h

theorem plainlyWritten_iff :
    PlainlyWritten p ↔ (InProtected (components p) → p.isAgentWritable = false) := by
  rw [not_writable_iff, inProtected_iff, inProtected_iff]
  have hkern : ∀ {dir}, dir ∈ kernelTrees → dir ∈ roots := fun h => mem_append_left _ h
  constructor
  · rintro h (⟨dir, hdir, hpre⟩ | ⟨top, htop, hpre, hmem⟩)
    · exact .inl ⟨dir, hdir,
        (prefix_directories_iff (hkern hdir)).mpr ⟨hpre, h.kernel dir hdir hpre⟩⟩
    · obtain ⟨hfirst, hmem'⟩ := h.memory top htop hpre hmem
      have hlen : 1 < (written p).length := by
        have hpos := length_pos_of_mem hmem'
        rw [length_dropLast] at hpos
        omega
      exact .inr ⟨top, htop, (prefix_directories_iff (mem_roots_of_top htop)).mpr
        ⟨hpre, hfirst, hlen⟩, hmem'⟩
  · intro h
    constructor
    · intro dir hdir hpre
      rcases h (.inl ⟨dir, hdir, hpre⟩) with ⟨dir', hdir', hpre'⟩ | ⟨top, htop, hpre', -⟩
      · obtain ⟨hcomp, hplain⟩ := (prefix_directories_iff (hkern hdir')).mp hpre'
        obtain rfl := root_unique (hkern hdir) (hkern hdir') hpre hcomp
        exact hplain
      · have hcomp := ((prefix_directories_iff (mem_roots_of_top htop)).mp hpre').1
        exact absurd hcomp (kernelTree_not_top hdir htop hpre)
    · intro top htop hpre hmem
      rcases h (.inr ⟨top, htop, hpre, hmem⟩) with ⟨dir, hdir, hpre'⟩ | ⟨top', htop', hpre', hmem'⟩
      · have hcomp := ((prefix_directories_iff (hkern hdir)).mp hpre').1
        exact absurd hpre (kernelTree_not_top hdir htop hcomp)
      · exact ⟨((prefix_directories_iff (mem_roots_of_top htop')).mp hpre').2.1, hmem'⟩

theorem agent_writable_law_iff (p q : VfsPath) :
    (PlainlyWritten p → PlainlyWritten q → WritableLaw p q) ∧
      (components p = components q → PlainlyWritten q → WritableLaw p q → PlainlyWritten p) := by
  simp only [plainlyWritten_iff]
  constructor
  · intro hp hq
    refine ⟨fun hsame => ?_, fun dir hdir _ hpre _ => hq ⟨dir, hdir, hpre⟩⟩
    by_cases hprot : InProtected (components p)
    · rw [hp hprot, hq (hsame ▸ hprot)]
    · rw [writable_of_not_inProtected hprot, writable_of_not_inProtected (hsame ▸ hprot)]
  · intro hsame hq hlaw hprot
    rw [hlaw.spelling hsame]
    exact hq (hsame ▸ hprot)

/-! ## Three spellings -/

def procFile : VfsPath := ⟨"/proc/1/status", by decide, by decide⟩

def doubledSlash : VfsPath := ⟨"//proc/1/status", by decide, by decide⟩

def procRoot : VfsPath := ⟨"/proc", by decide, by decide⟩

/-- A kernel file is refused, and is writable with a doubled slash; so is the root of the tree. -/
theorem escaping_spellings :
    components procFile = components doubledSlash ∧ procFile.isAgentWritable = false ∧
      doubledSlash.isAgentWritable = true ∧ ProtectedDirectory (components procRoot) ∧
      procRoot.isAgentWritable = true :=
  ⟨by decide, by decide, by decide, .kernel (by decide), by decide⟩

end Avix.Security
