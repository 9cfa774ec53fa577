/-
  SECURITY — what a list of capability groups resolves to.

  `resolution_laws`: for every tool registry, resolution sends the concatenation of two
  lists of groups to the union; its result is sorted and without duplicates, does not depend on
  the order or repetition of groups, holds the always-present tools, and grows with the registry;
  a group with a filter resolves to part of what its namespace resolves to; and a tool that is not
  always present is in the result exactly if a group names it by the documented syntax.

  `Reads` and `Names` are the documented syntax
  (`docs/dev_plans/cat1-0a-capability-resolver.md` and the comment of `CapabilityResolver`): a
  group is cut at its first colon, and one without a colon stands for the whole namespace. The set
  of system calls is that of `SyscallRegistry::new`.
-/
import Avix.Kernel.CapabilityResolver

namespace Avix.Security

open Lib List

/-! ## The documented syntax -/

/-- The group has the namespace and the filter. -/
inductive Reads : String → String → String → Prop
  | pair {ns filter : String} (h : ':' ∉ ns.toList) : Reads (ns ++ ":" ++ filter) ns filter
  | bare {ns : String} (h : ':' ∉ ns.toList) : Reads ns ns "*"

def Begins (text start : String) : Prop := start.toList <+: text.toList

/-- Namespace and filter name the system call. -/
def NamesSyscall (ns filter : String) (sc : SyscallDescriptor) : Prop :=
  if ns = "kernel" then filter = "*" ∨ sc.domain = filter
  else sc.domain = ns ∧ (filter = "*" ∨ Begins sc.name ("kernel/" ++ ns ++ "/" ++ filter))

def NamesTool (ns filter name : String) : Prop :=
  if filter = "*" then Begins name (ns ++ "/") else Begins name (ns ++ "/" ++ filter)

/-- The group names a system call or a registered tool. -/
def Names (reg : ToolRegistry) (group tool : String) : Prop :=
  ∃ ns filter, Reads group ns filter ∧
    ((∃ sc ∈ syscalls, sc.name = tool ∧ NamesSyscall ns filter sc) ∨
      ((∃ e ∈ reg.getAllEntries, e.name.asStr = tool) ∧ NamesTool ns filter tool))

variable {ns tool group filter : String} {reg : ToolRegistry}

theorem splitCapability_of_reads (h : Reads group ns filter) :
    splitCapability group = (ns, filter) := by
  cases h with
  | pair h =>
    rw [splitCapability, show (":" : String) = String.singleton ':' from rfl, splitOnce_append h]
    rfl
  | bare h =>
    rw [splitCapability, splitOnce_eq_none h]
    rfl

/-- The resolver reads a group as documented. -/
theorem reads_splitCapability (group : String) :
    Reads group (splitCapability group).1 (splitCapability group).2 := by
  by_cases h : ':' ∈ group.toList
  · obtain ⟨ns, filter, hns, hgroup⟩ := exists_append_of_mem h
    have hreads : Reads group ns filter := by
      rw [hgroup]
      exact .pair hns
    rw [splitCapability_of_reads hreads]
    exact hreads
  · have hreads : Reads group group "*" := .bare h
    rw [splitCapability_of_reads hreads]
    exact hreads

theorem reads_iff : Reads group ns filter ↔ splitCapability group = (ns, filter) := by
  refine ⟨splitCapability_of_reads, fun h => ?_⟩
  have hreads := reads_splitCapability group
  rw [h] at hreads
  exact hreads

theorem startsWith_iff {text start : String} :
    startsWith text start = true ↔ Begins text start := by
  rw [startsWith, isPrefixOf_iff_prefix, Begins]

theorem syscallMatches_iff (h : Reads group ns filter) (sc : SyscallDescriptor) :
    syscallMatches group sc = true ↔ NamesSyscall ns filter sc := by
  unfold syscallMatches NamesSyscall
  rw [splitCapability_of_reads h]
  dsimp only
  split_ifs
  · simp
  · simp [startsWith_iff]

theorem toolMatches_iff (h : Reads group ns filter) (name : String) :
    toolMatches group name = true ↔ NamesTool ns filter name := by
  unfold toolMatches NamesTool
  rw [splitCapability_of_reads h]
  dsimp only
  rw [startsWith_iff]
  split_ifs <;> rfl

/-- What one group adds is what it names. -/
theorem mem_capabilityGroup_iff_names :
    tool ∈ capabilityGroup reg group ↔ Names reg group tool := by
  have hreads := reads_splitCapability group
  rw [mem_capabilityGroup]
  simp only [syscallMatches_iff hreads, toolMatches_iff hreads]
  constructor
  · rintro (⟨sc, hsc, hnames, rfl⟩ | htool)
    · exact ⟨_, _, hreads, .inl ⟨sc, hsc, rfl, hnames⟩⟩
    · exact ⟨_, _, hreads, .inr htool⟩
  · rintro ⟨ns, filter, hread, hnames⟩
    have hsplit := splitCapability_of_reads hread
    rw [hsplit]
    rcases hnames with ⟨sc, hsc, rfl, hnames⟩ | htool
    · exact .inl ⟨sc, hsc, hnames, rfl⟩
    · exact .inr htool

/-! ## The laws -/

theorem pairwise_resolveCapabilities (reg : ToolRegistry) (caps : List String) :
    (resolveCapabilities reg caps).Pairwise (· < ·) := by
  have hsort : (resolveCapabilities reg caps).Pairwise (· ≤ ·) := pairwise_insertionSort _ _
  have hnodup : (resolveCapabilities reg caps).Nodup :=
    (perm_insertionSort _ _).nodup_iff.mpr (nodup_dedup _)
  exact hsort.imp₂ (fun _ _ hle hne => lt_of_le_of_ne hle hne) hnodup

/-- Sorted lists without duplicates are equal if they have the same elements. -/
theorem eq_of_pairwise_lt {l l' : List String} (h : l.Pairwise (· < ·)) (h' : l'.Pairwise (· < ·))
    (hmem : ∀ a, a ∈ l ↔ a ∈ l') : l = l' := by
  have hperm : l.Perm l' := (perm_ext_iff_of_nodup h.nodup h'.nodup).mpr hmem
  exact hperm.eq_of_pairwise (fun _ _ _ _ hab hba => absurd hba (lt_asymm hab)) h h'

theorem names_wildcard (h : Reads group ns filter) (hnames : Names reg group tool) :
    Names reg (ns ++ ":*") tool := by
  have hns : ':' ∉ ns.toList := by
    cases h with
    | pair h | bare h => exact h
  have hstar : Reads (ns ++ ":*") ns "*" := by
    have hpair : Reads (ns ++ ":" ++ "*") ns "*" := .pair hns
    rwa [String.append_assoc] at hpair
  obtain ⟨ns', filter', hread, hnames⟩ := hnames
  obtain ⟨rfl, rfl⟩ : ns = ns' ∧ filter = filter' :=
    Prod.mk.inj ((reads_iff.mp h).symm.trans (reads_iff.mp hread))
  refine ⟨ns, "*", hstar, ?_⟩
  rcases hnames with ⟨sc, hsc, rfl, hsysc⟩ | ⟨hentry, htool⟩
  · refine .inl ⟨sc, hsc, rfl, ?_⟩
    unfold NamesSyscall at hsysc ⊢
    split_ifs at hsysc ⊢
    · exact .inl rfl
    · exact ⟨hsysc.1, .inl rfl⟩
  · refine .inr ⟨hentry, ?_⟩
    unfold NamesTool at htool ⊢
    rw [if_pos rfl]
    split_ifs at htool
    · exact htool
    refine List.IsPrefix.trans ?_ htool
    have hlong : (ns ++ "/" ++ filter).toList = (ns ++ "/").toList ++ filter.toList :=
      String.toList_append
    rw [hlong]
    exact prefix_append _ _

structure ResolutionLaws (reg : ToolRegistry) : Prop where
  append : ∀ a b tool, tool ∈ resolveCapabilities reg (a ++ b) ↔
    tool ∈ resolveCapabilities reg a ∨ tool ∈ resolveCapabilities reg b
  sorted : ∀ a, (resolveCapabilities reg a).Pairwise (· < ·)
  /-- The order and the repetition of groups make no difference. -/
  sameGroups : ∀ a b, (∀ group, group ∈ a ↔ group ∈ b) →
    resolveCapabilities reg a = resolveCapabilities reg b
  alwaysPresent : ∀ a, alwaysPresent ⊆ resolveCapabilities reg a
  mono : ∀ (reg' : ToolRegistry) a,
    reg.getAllEntries.map (·.name) ⊆ reg'.getAllEntries.map (·.name) →
      resolveCapabilities reg a ⊆ resolveCapabilities reg' a
  wildcard : ∀ group ns filter, Reads group ns filter →
    resolveCapabilities reg [group] ⊆ resolveCapabilities reg [ns ++ ":*"]
  exact : ∀ a tool, tool ∉ Avix.alwaysPresent →
    (tool ∈ resolveCapabilities reg a ↔ ∃ group ∈ a, Names reg group tool)

theorem names_mono {reg' : ToolRegistry}
    (hreg : reg.getAllEntries.map (·.name) ⊆ reg'.getAllEntries.map (·.name))
    (h : Names reg group tool) : Names reg' group tool := by
  obtain ⟨ns, filter, hread, hnames⟩ := h
  refine ⟨ns, filter, hread, hnames.imp_right fun ⟨⟨e, he, hname⟩, htool⟩ => ⟨?_, htool⟩⟩
  obtain ⟨e', he', heq⟩ := mem_map.mp (hreg (mem_map_of_mem he))
  exact ⟨e', he', by rw [heq, hname]⟩

theorem resolution_laws (reg : ToolRegistry) : ResolutionLaws reg := by
  have hmem : ∀ {reg : ToolRegistry} {a : List String} {tool : String},
      tool ∈ resolveCapabilities reg a ↔
        tool ∈ alwaysPresent ∨ ∃ group ∈ a, Names reg group tool := by
    intro reg a tool
    simp [mem_resolveCapabilities, mem_capabilityGroup_iff_names]
  constructor
  case append =>
    intro a b tool
    simp only [hmem, mem_append, or_and_right, exists_or]
    exact or_or_distrib_left
  case sorted => exact pairwise_resolveCapabilities reg
  case sameGroups =>
    intro a b hsame
    refine eq_of_pairwise_lt (pairwise_resolveCapabilities reg a)
      (pairwise_resolveCapabilities reg b) fun tool => ?_
    simp [hmem, hsame]
  case alwaysPresent => exact fun a tool htool => hmem.mpr (.inl htool)
  case mono =>
    intro reg' a hreg tool htool
    refine hmem.mpr ((hmem.mp htool).imp_right fun ⟨group, hgroup, hnames⟩ => ?_)
    exact ⟨group, hgroup, names_mono hreg hnames⟩
  case wildcard =>
    intro group ns filter hread tool htool
    refine hmem.mpr ((hmem.mp htool).imp_right fun ⟨group', hgroup, hnames⟩ => ?_)
    obtain rfl := mem_singleton.mp hgroup
    exact ⟨ns ++ ":*", mem_singleton.mpr rfl, names_wildcard hread hnames⟩
  case exact =>
    intro a tool hnot
    rw [hmem, or_iff_right hnot]

end Avix.Security
