/-
  SECURITY — the tools an agent is shown (`refresh_tool_list` in `executor/runtime_executor.rs`
  and `executor/tool_manager.rs`).

  `tool_list_coherent_iff`: take any history of the registry before the spawn, and then any sequence
  of registry changes, new tokens, tool notifications and refreshes. After a refresh, the names in
  the list differ, none is of a tool removed from the registry, all are granted or always present,
  and the Category-2 tools among them are dispatched by the executor and the others by the router,
  if (`ListKept`)

  * every granted tool that the list takes from the registry has its name in its descriptor, and
  * every Category-2 tool that the token grants now and that no notification has hidden was granted
    by the token at spawn, or needs no grant, and has not been removed from the registry.

  Where no descriptor carries the name of another tool, this is needed as well. A foreign name can
  by chance be that of a granted tool that is not listed itself.

  Reason. The list takes its Category-2 tools from the token of the moment, whatever the registry
  has; the dispatcher takes them from the token at spawn (`upgrade_lists_tool_twice`).

  Removed is what `ToolRegistry::remove` has taken out and `add` has not put back.
-/
import Avix.Executor.ToolManager
import Avix.Lib.Run

namespace Avix.Security

open Lib List

/-! ## Histories -/

inductive RegistryEvent where
  | add (entries : List ToolEntry)
  | remove (names : List String)

/-- The registry, and the tools that were removed from it. -/
structure RegistryHistory where
  registry : ToolRegistry
  gone : List String

def RegistryHistory.step (h : RegistryHistory) : RegistryEvent → RegistryHistory
  | .add entries =>
    ⟨h.registry.add entries, h.gone.filter fun name => name ∉ entries.map (·.name.asStr)⟩
  | .remove names => ⟨(h.registry.remove names).1, h.gone ++ (h.registry.remove names).2⟩

/-- An executor and the registry. -/
structure ToolSystem where
  history : RegistryHistory
  view : ToolView

open ToolSystem

inductive ToolEvent where
  | registry (e : RegistryEvent)
  /-- An upgrade, a renewal or a restore. -/
  | setToken (token : CapabilityToken)
  /-- `handle_tool_changed`. -/
  | toolChanged (op toolName : String)
  /-- `refresh_tool_list`. -/
  | refresh (order : MapOrder)

section System

variable (members : String → List (String × Json))

def ToolSystem.step (s : ToolSystem) : ToolEvent → ToolSystem
  | .registry e => { s with history := s.history.step e }
  | .setToken token => { s with view := { s.view with token } }
  | .toolChanged op toolName =>
    { s with view := { s.view with tools := s.view.tools.handleToolChanged op toolName } }
  | .refresh order => { s with view := s.view.refreshToolList s.history.registry order members }

/-- The executor is spawned after some changes of an empty registry. -/
def ToolSystem.spawned (before : List RegistryEvent) (token : CapabilityToken) (ref : RegistryRef)
    (order : MapOrder) : ToolSystem :=
  let history := run RegistryHistory.step ⟨∅, []⟩ before
  ⟨history, ToolView.spawn token ref history.registry order members⟩

end System

/-! ## Coherent lists -/

/-- The executor has a tool of this name itself. -/
def IsCat2 (name : String) : Prop :=
  name ∈ capabilityAlwaysPresent ∨ name ∈ allGatedCat2Tools capabilityToolMap

/-- The names the language model is shown. -/
def listedNames (v : ToolView) : List (Option String) :=
  v.tools.currentToolList.map descriptorName

structure Coherent (s : ToolSystem) : Prop where
  distinct : (listedNames s.view).Nodup
  present : ∀ name, some name ∈ listedNames s.view → name ∉ s.history.gone
  granted : ∀ name ∈ listedNames s.view, ∃ n, name = some n ∧
    (n ∈ s.view.token.grantedTools ∨ n ∈ capabilityAlwaysPresent)
  category2 : ∀ name, some name ∈ listedNames s.view → IsCat2 name →
    s.view.routeOf name = .category2
  router : ∀ name, some name ∈ listedNames s.view → ¬IsCat2 name → s.view.routeOf name = .router

/-- The next list takes this tool from the registry, with this descriptor. -/
structure TakenFrom (s : ToolSystem) (name : String) (d : Json) : Prop where
  granted : name ∈ s.view.token.grantedTools
  other : name ∉ s.view.tools.registeredCat2
  shown : name ∉ s.view.tools.removedTools
  found : s.view.cat1Descriptor s.history.registry name = some d

/-- For a token at spawn and the order of the next refresh. -/
structure ListKept (token : CapabilityToken) (order : MapOrder) (s : ToolSystem) : Prop where
  named : ∀ name d, TakenFrom s name d → descriptorName d = some name
  category2 : ∀ name ∈ computeCat2Tools order s.view.token, name ∉ s.view.tools.removedTools →
    (name ∈ capabilityAlwaysPresent ∨ name ∈ token.grantedTools) ∧ name ∉ s.history.gone

/-- A descriptor has the name of its own tool or none. -/
def OwnNames (s : ToolSystem) : Prop :=
  ∀ name d, TakenFrom s name d → ∀ n ∈ descriptorName d, n = name

/-! ## The registry -/

section Registry

theorem lookup_add (reg : ToolRegistry) (entries : List ToolEntry) (name : String) :
    (AList.lookup name (reg.add entries) = AList.lookup name reg ∧
      name ∉ entries.map (·.name.asStr)) ∨
    ∃ e ∈ entries, e.name.asStr = name ∧ AList.lookup name (reg.add entries) = some e := by
  induction entries using reverseRecOn with
  | nil => exact .inl ⟨rfl, not_mem_nil⟩
  | append_singleton entries e ih =>
    have hadd : reg.add (entries ++ [e]) = AList.insert e.name.asStr e (reg.add entries) := by
      rw [ToolRegistry.add, foldl_append]
      rfl
    rw [hadd, HashMap.lookup_insert_eq_ite]
    by_cases hname : name = e.name.asStr
    · exact .inr ⟨e, by simp, hname.symm, if_pos hname⟩
    rw [if_neg hname]
    rcases ih with ⟨hsame, hnot⟩ | ⟨e', he', hname', hlook⟩
    · exact .inl ⟨hsame, by simpa [hname] using hnot⟩
    · exact .inr ⟨e', mem_append_left _ he', hname', hlook⟩

theorem lookup_remove (reg : ToolRegistry) (names : List String) (name : String) :
    (AList.lookup name (reg.remove names).1 = AList.lookup name reg ∧ name ∉ (reg.remove names).2) ∨
    AList.lookup name (reg.remove names).1 = none := by
  rw [ToolRegistry.lookup_remove]
  split_ifs with hname
  · exact .inr rfl
  · exact .inl ⟨rfl, fun hrem => hname (reg.remove_subset names hrem)⟩

/-- Every tool is registered under its name, and removed tools are not found. -/
structure Registered (h : RegistryHistory) : Prop where
  named : ∀ name e, AList.lookup name h.registry = some e → e.name.asStr = name
  gone : ∀ name ∈ h.gone, AList.lookup name h.registry = none

theorem registered_step {h : RegistryHistory} (hr : Registered h) (e : RegistryEvent) :
    Registered (h.step e) := by
  cases e with
  | add entries =>
    refine ⟨fun name e he => ?_, fun name hname => ?_⟩
    · rcases lookup_add h.registry entries name with ⟨hsame, -⟩ | ⟨e', -, rfl, hlook⟩
      · exact hr.named name e (hsame ▸ he)
      · rw [Option.some.inj (hlook.symm.trans he)]
    · obtain ⟨hgone, hnot⟩ := mem_filter.mp hname
      rcases lookup_add h.registry entries name with ⟨hsame, -⟩ | ⟨e', he', rfl, -⟩
      · exact hsame.trans (hr.gone name hgone)
      · exact absurd (mem_map_of_mem he') (of_decide_eq_true hnot)
  | remove names =>
    refine ⟨fun name e he => ?_, fun name hname => ?_⟩
    · rcases lookup_remove h.registry names name with ⟨hsame, -⟩ | hnone
      · exact hr.named name e (hsame ▸ he)
      · exact absurd (hnone.symm.trans he) nofun
    · rcases lookup_remove h.registry names name with ⟨hsame, hnot⟩ | hnone
      · exact hsame.trans (hr.gone name ((mem_append.mp hname).resolve_right hnot))
      · exact hnone

theorem registered_empty : Registered ⟨∅, []⟩ :=
  ⟨fun name _ he => absurd ((AList.lookup_empty name).symm.trans he) nofun, nofun⟩

end Registry

/-! ## A refresh -/

section Refresh

variable {name : String} {d : Json}

theorem ne_replaceChar {r : String} (hname : ¬['_', '_'] <:+: name.toList) (hr : name ≠ r) :
    name ≠ replaceChar '/' "__" r := by
  intro heq
  by_cases hslash : '/' ∈ r.toList
  · obtain ⟨a, b, hsplit⟩ := append_of_mem hslash
    refine hname ⟨a.flatMap fun d => if d = '/' then "__".toList else [d],
      b.flatMap fun d => if d = '/' then "__".toList else [d], ?_⟩
    rw [heq, replaceChar, String.toList_ofList, hsplit]
    simp
  · refine hr (heq.trans ?_)
    have hsame : (r.toList.flatMap fun d => if d = '/' then "__".toList else [d]) = r.toList := by
      rw [flatMap_congr fun d hd => if_neg (ne_of_mem_of_not_mem hd hslash), flatMap_singleton']
    rw [replaceChar, hsame, String.ofList_toList]

theorem not_mangled_of_isCat2 (h : IsCat2 name) : ¬['_', '_'] <:+: name.toList := by
  have hall : ∀ n ∈ capabilityAlwaysPresent ++ allGatedCat2Tools capabilityToolMap,
      ¬['_', '_'] <:+: n.toList := by decide
  exact hall name (mem_append.mpr h)

theorem isCat2_of_mem_computeCat2Tools {order : MapOrder} {token : CapabilityToken}
    (h : name ∈ computeCat2Tools order token) : IsCat2 name :=
  (mem_computeCat2Tools.mp h).imp_right And.left

variable (v : ToolView) (h : RegistryHistory)

/-- The Category-1 tools a refresh finds, by name. -/
def cat1Entries : List (String × Json) :=
  v.token.grantedTools.eraseDups.filterMap fun name =>
    if v.tools.registeredCat2.contains name then none
    else (v.cat1Descriptor h.registry name).map (name, ·)

variable (order : MapOrder)

/-- Those of them that the list has. -/
def shownEntries : List (String × Json) :=
  (order.iterate (cat1Entries v h)).filter (!v.tools.removedTools.contains ·.1)

/-- The Category-2 names of the list. -/
def cat2Names : List String :=
  (computeCat2Tools order v.token).filter (!v.tools.removedTools.contains ·)

variable {v h order}

theorem mem_shownEntries :
    (name, d) ∈ shownEntries v h order ↔ TakenFrom ⟨h, v⟩ name d := by
  rw [shownEntries, mem_filter, (order.iterate_perm _).mem_iff, cat1Entries, mem_filterMap]
  constructor
  · rintro ⟨⟨n, hn, hsome⟩, hshown⟩
    split_ifs at hsome with hcat2
    obtain ⟨d', hd', heq⟩ := Option.map_eq_some_iff.mp hsome
    cases heq
    exact ⟨mem_eraseDups.mp hn, fun h => hcat2 (contains_iff_mem.mpr h), by simpa using hshown, hd'⟩
  · rintro ⟨hgran, hcat2, hshown, hd⟩
    refine ⟨⟨name, mem_eraseDups.mpr hgran, ?_⟩, by simpa using hshown⟩
    rw [if_neg fun h => hcat2 (contains_iff_mem.mp h), hd, Option.map_some]

theorem mem_names_shownEntries :
    name ∈ (shownEntries v h order).map (·.1) ↔ ∃ d, TakenFrom ⟨h, v⟩ name d := by
  rw [mem_map]
  constructor
  · rintro ⟨⟨n, d⟩, hentry, rfl⟩
    exact ⟨d, mem_shownEntries.mp hentry⟩
  · rintro ⟨d, hd⟩
    exact ⟨(name, d), mem_shownEntries.mpr hd, rfl⟩

/-- An entry is made for a name only once. -/
theorem nodup_shownEntries : ((shownEntries v h order).map (·.1)).Nodup := by
  have hentries : ((cat1Entries v h).map (·.1)).Nodup := by
    unfold cat1Entries
    rw [map_filterMap]
    refine (nodup_eraseDups v.token.grantedTools).filterMap fun a b name ha hb => ?_
    have hkey : ∀ n, name ∈ Option.map (·.1)
        (if v.tools.registeredCat2.contains n then none
          else (v.cat1Descriptor h.registry n).map (n, ·)) → n = name := by
      intro n hn
      split_ifs at hn
      · exact absurd hn nofun
      obtain ⟨entry, hentry, rfl⟩ := Option.map_eq_some_iff.mp hn
      obtain ⟨d, -, rfl⟩ := Option.map_eq_some_iff.mp hentry
      rfl
    exact (hkey a ha).trans (hkey b hb).symm
  have hperm := (order.iterate_perm (cat1Entries v h)).map (·.1)
  exact (hperm.nodup_iff.mpr hentries).sublist (filter_sublist.map _)

theorem mem_cat2Names : name ∈ cat2Names v order ↔
    name ∈ computeCat2Tools order v.token ∧ name ∉ v.tools.removedTools := by
  simp [cat2Names]

/-- What the registry says of a Category-1 tool: its name is a tool name. -/
theorem cat1Descriptor_found (hr : Registered h) (hd : v.cat1Descriptor h.registry name = some d) :
    ¬['_', '_'] <:+: name.toList ∧ name ∉ h.gone := by
  unfold ToolView.cat1Descriptor at hd
  split at hd
  · exact absurd hd nofun
  obtain ⟨e, he, rfl⟩ := Option.map_eq_some_iff.mp hd
  exact ⟨hr.named name e he ▸ e.name.no_mangling,
    fun hgone => absurd (he.symm.trans (hr.gone name hgone)) nofun⟩

/-- A descriptor whose name is no mangled name passes the filter of `current_tool_list`. -/
theorem not_removed {removed : List String} (hd : descriptorName d = some name)
    (hname : ¬['_', '_'] <:+: name.toList) (hnot : name ∉ removed) :
    (match descriptorName d with
      | some name => !removed.any fun r => name = r || name = replaceChar '/' "__" r
      | none => true) = true := by
  rw [hd]
  simp only [Bool.not_eq_true', any_eq_false, Bool.or_eq_true, decide_eq_true_eq]
  intro r hr
  have hne : name ≠ r := fun heq => hnot (heq ▸ hr)
  rintro (heq | heq)
  · exact hne heq
  · exact ne_replaceChar hname hne heq

/-- The names after a refresh: `current_tool_list` has nothing left to hide. -/
theorem names_refresh (hr : Registered h)
    (hnamed : ∀ name d, TakenFrom ⟨h, v⟩ name d → descriptorName d = some name)
    (members : String → List (String × Json)) :
    listedNames (v.refreshToolList h.registry order members) =
      (cat2Names v order ++ (shownEntries v h order).map (·.1)).map some := by
  have hcat1 : ∀ entry ∈ shownEntries v h order, descriptorName entry.2 = some entry.1 :=
    fun entry hentry => hnamed _ _ (mem_shownEntries.mp hentry)
  have hall : (v.refreshToolList h.registry order members).tools.currentToolList =
      (v.refreshToolList h.registry order members).tools.toolList := by
    refine filter_eq_self.mpr fun d hd => ?_
    rcases mem_append.mp hd with hd | hd
    · obtain ⟨name, hname, rfl⟩ := mem_map.mp hd
      obtain ⟨hmem, hrem⟩ := mem_cat2Names.mp hname
      exact not_removed (descriptorName_cat2ToolDescriptor members name)
        (not_mangled_of_isCat2 (isCat2_of_mem_computeCat2Tools hmem)) hrem
    · obtain ⟨entry, hentry, rfl⟩ := mem_map.mp hd
      have htaken := mem_shownEntries.mp hentry
      exact not_removed (hcat1 entry hentry) (cat1Descriptor_found hr htaken.found).1 htaken.shown
  have hlist : (v.refreshToolList h.registry order members).tools.toolList =
      (cat2Names v order).map (cat2ToolDescriptor members) ++
        (shownEntries v h order).map (·.2) := rfl
  rw [listedNames, hall, hlist, map_append, map_append, map_map, map_map, map_map]
  congr 1
  · exact map_congr_left fun name _ => descriptorName_cat2ToolDescriptor members name
  · exact map_congr_left hcat1

end Refresh

/-! ## The list -/

section List

variable {members : String → List (String × Json)}

theorem routeOf_eq_category2 {v : ToolView} {name : String} :
    v.routeOf name = .category2 ↔ name ∈ v.tools.registeredCat2 := by
  unfold ToolView.routeOf ToolManager.isCat2Tool
  split_ifs with hcat2
  · exact iff_of_true rfl (contains_iff_mem.mp hcat2)
  · exact iff_of_false nofun fun h => hcat2 (contains_iff_mem.mpr h)

/-- What every event keeps: the dispatcher has the Category-2 tools of the token at spawn. -/
structure SpawnedWith (spawnTools : List String) (s : ToolSystem) : Prop where
  registered : Registered s.history
  cat2 : s.view.tools.registeredCat2 = spawnTools

variable {s : ToolSystem}

theorem SpawnedWith.step {spawnTools : List String} (h : SpawnedWith spawnTools s) (e : ToolEvent) :
    SpawnedWith spawnTools (s.step members e) := by
  cases e with
  | registry e => exact ⟨registered_step h.registered e, h.cat2⟩
  | toolChanged op toolName =>
    refine ⟨h.registered, Eq.trans ?_ h.cat2⟩
    show (s.view.tools.handleToolChanged op toolName).registeredCat2 = _
    unfold ToolManager.handleToolChanged
    split_ifs <;> rfl
  | _ => exact ⟨h.registered, h.cat2⟩

variable {token : CapabilityToken} {order order' : MapOrder} {name : String}

/-- The executor dispatches the Category-2 tools of the token at spawn. -/
theorem routeOf_refresh (h : SpawnedWith (computeCat2Tools order token) s) :
    (s.step members (.refresh order')).view.routeOf name = .category2 ↔
      name ∈ computeCat2Tools order token := by
  rw [routeOf_eq_category2, ← h.cat2]
  rfl

theorem mem_names_refresh (hr : Registered s.history)
    (hnamed : ∀ name d, TakenFrom s name d → descriptorName d = some name) :
    some name ∈ listedNames (s.step members (.refresh order')).view ↔
      name ∈ cat2Names s.view order' ∨ ∃ d, TakenFrom s name d := by
  have hnames : listedNames (s.step members (.refresh order')).view = _ :=
    names_refresh hr hnamed members
  rw [hnames, mem_map_of_injective (Option.some_injective _), mem_append, mem_names_shownEntries]

/-- A listed Category-2 tool is one of the dispatcher's. -/
theorem ListKept.dispatched (hk : ListKept token order' s)
    (hname : name ∈ computeCat2Tools order' s.view.token)
    (hshown : name ∉ s.view.tools.removedTools) : name ∈ computeCat2Tools order token := by
  refine mem_computeCat2Tools.mpr ((hk.category2 name hname hshown).1.elim .inl fun hgran => ?_)
  exact (isCat2_of_mem_computeCat2Tools hname).imp_right fun hgated => ⟨hgated, hgran⟩

theorem coherent_of_kept (h : SpawnedWith (computeCat2Tools order token) s)
    (hk : ListKept token order' s) : Coherent (s.step members (.refresh order')) := by
  have hnames : listedNames (s.step members (.refresh order')).view = _ :=
    names_refresh h.registered hk.named members
  have hlist : ∀ name, some name ∈ listedNames (s.step members (.refresh order')).view → _ :=
    fun _ => (mem_names_refresh h.registered hk.named).mp
  refine ⟨?_, fun name hname => ?_, fun name hname => ?_, fun name hname hcat => ?_,
    fun name _ hcat => ?_⟩
  · rw [hnames]
    refine (nodup_append'.mpr ⟨?_, nodup_shownEntries, ?_⟩).map (Option.some_injective _)
    · exact (nodup_computeCat2Tools order' s.view.token).sublist filter_sublist
    intro name hname hname'
    obtain ⟨hcomp, hshown⟩ := mem_cat2Names.mp hname
    obtain ⟨d, htaken⟩ := mem_names_shownEntries.mp hname'
    exact htaken.other (h.cat2 ▸ hk.dispatched hcomp hshown)
  · rcases hlist name hname with hname | ⟨d, htaken⟩
    · obtain ⟨hcomp, hshown⟩ := mem_cat2Names.mp hname
      exact (hk.category2 name hcomp hshown).2
    · exact (cat1Descriptor_found h.registered htaken.found).2
  · obtain ⟨n, hn, rfl⟩ := mem_map.mp (hnames ▸ hname)
    refine ⟨n, rfl, ?_⟩
    rcases hlist n hname with hn | ⟨d, htaken⟩
    · exact (mem_computeCat2Tools.mp (mem_cat2Names.mp hn).1).symm.imp_left And.right
    · exact .inl htaken.granted
  · rw [routeOf_refresh h]
    rcases hlist name hname with hname | ⟨d, htaken⟩
    · obtain ⟨hcomp, hshown⟩ := mem_cat2Names.mp hname
      exact hk.dispatched hcomp hshown
    · exact hk.dispatched (mem_computeCat2Tools.mpr (hcat.imp_right (⟨·, htaken.granted⟩)))
        htaken.shown
  · cases hr : (s.step members (.refresh order')).view.routeOf name with
    | category2 =>
      exact absurd (isCat2_of_mem_computeCat2Tools ((routeOf_refresh h).mp hr)) hcat
    | router => rfl

/-- A tool without a name in its descriptor makes the list incoherent. -/
theorem named_of_coherent (hown : OwnNames s) (hc : Coherent (s.step members (.refresh order))) :
    ∀ name d, TakenFrom s name d → descriptorName d = some name := by
  intro name d htaken
  cases hd : descriptorName d with
  | some n => exact congrArg some (hown name d htaken n hd)
  | none =>
    have hlisted : d ∈ (s.step members (.refresh order)).view.tools.currentToolList :=
      mem_filter.mpr ⟨mem_append_right _ (mem_map_of_mem (mem_shownEntries.mpr htaken)),
        by rw [hd]⟩
    obtain ⟨n, hn, -⟩ := hc.granted none (hd ▸ mem_map_of_mem hlisted)
    cases hn

theorem kept_of_coherent (h : SpawnedWith (computeCat2Tools order token) s) (hown : OwnNames s)
    (hc : Coherent (s.step members (.refresh order'))) : ListKept token order' s := by
  have hnamed := named_of_coherent hown hc
  refine ⟨hnamed, fun name hname hshown => ?_⟩
  have hmem : some name ∈ listedNames (s.step members (.refresh order')).view :=
    (mem_names_refresh h.registered hnamed).mpr (.inl (mem_cat2Names.mpr ⟨hname, hshown⟩))
  have hdisp := (routeOf_refresh h).mp
    (hc.category2 name hmem (isCat2_of_mem_computeCat2Tools hname))
  exact ⟨(mem_computeCat2Tools.mp hdisp).imp_right And.right, hc.present name hmem⟩

theorem tool_list_coherent_iff (members : String → List (String × Json))
    (before : List RegistryEvent) (token : CapabilityToken) (ref : RegistryRef)
    (order order' : MapOrder) (es : List ToolEvent) :
    let s := run (step members) (spawned members before token ref order) es
    (ListKept token order' s → Coherent (s.step members (.refresh order'))) ∧
      (OwnNames s → Coherent (s.step members (.refresh order')) → ListKept token order' s) := by
  intro s
  have hreg : Registered (run RegistryHistory.step ⟨∅, []⟩ before) :=
    run_invariant (I := Registered) (fun _ e hr => registered_step hr e) registered_empty before
  have hstep : ∀ s e, SpawnedWith (computeCat2Tools order token) s →
      SpawnedWith (computeCat2Tools order token) (step members s e) := fun _ e hs => hs.step e
  have h : SpawnedWith (computeCat2Tools order token) s := run_invariant hstep ⟨hreg, rfl⟩ es
  exact ⟨coherent_of_kept h, kept_of_coherent h⟩

end List

/-! ## An upgrade -/

section Upgrade

/-- The maps iterated as they were filled. -/
def mapOrder : MapOrder := ⟨capabilityToolMap, .refl _, id, fun _ => .refl _⟩

def holding (grantedTools : List String) : CapabilityToken := ⟨grantedTools, ⟨0⟩, ⟨3600⟩, none, ""⟩

def namedEntry (name : ToolName) : ToolEntry :=
  { name, owner := "svc", state := .available,
    descriptor := .object [("name", .string name.asStr)] }

def readTool : ToolEntry := namedEntry .fsRead

def spawnTool : ToolEntry := namedEntry ⟨"agent/spawn", by decide, by decide⟩

theorem descriptorName_namedEntry (name : ToolName) :
    descriptorName (namedEntry name).descriptor = some name.asStr := by
  simp [namedEntry, descriptorName, Json.index, Json.get?, Json.asStr]

/-- A tool of a service is granted after the spawn, and another one is removed. -/
theorem upgrade_to_read_coherent :
    let s := run (step fun _ => [])
      (spawned (fun _ => []) [.add [readTool, spawnTool]] (holding []) .real mapOrder)
      [.setToken (holding ["fs/read"]), .registry (.remove ["agent/spawn"])]
    Coherent (s.step (fun _ => []) (.refresh mapOrder)) ∧
      some "fs/read" ∈ listedNames (s.step (fun _ => []) (.refresh mapOrder)).view := by
  refine ⟨(tool_list_coherent_iff _ _ _ _ _ _ _).1 ⟨fun name d htaken => ?_, by decide⟩, by decide⟩
  obtain rfl : name = "fs/read" := mem_singleton.mp htaken.granted
  obtain rfl : readTool.descriptor = d := Option.some.inj htaken.found
  exact descriptorName_namedEntry _

/-- `agent/spawn` is in the registry, and the token is upgraded to it: the list has the tool twice,
    and the executor, which would serve it, sends its calls to the router. -/
theorem upgrade_lists_tool_twice :
    let s := run (step fun _ => [])
      (spawned (fun _ => []) [.add [spawnTool]] (holding []) .real mapOrder)
      [.setToken (holding ["agent/spawn"]), .refresh mapOrder]
    (listedNames s.view).count (some "agent/spawn") = 2 ∧
      "agent/spawn" ∈ allGatedCat2Tools capabilityToolMap ∧
      s.view.routeOf "agent/spawn" = .router ∧ ¬Coherent s := by
  refine ⟨by decide, by decide, by decide, fun h => ?_⟩
  exact absurd h.distinct (by decide)

end Upgrade

end Avix.Security
