/-
  The tool registry (`types/tool.rs`, `tool_registry/entry.rs`, `tool_registry/registry.rs`).

  A record's semaphore is left out: it holds `Semaphore::MAX_PERMITS` permits, so that
  `acquire` fails exactly when the tool is not registered (`Tools/Draining` has the semaphores).
  The visibility is read by no modelled function.
-/
import Avix.Lib.Str
import Avix.Types.Json

namespace Avix

/-- `types::tool::ToolName`: not empty, and free of the wire separator. -/
structure ToolName where
  asStr : String
  ne_empty : asStr ≠ ""
  no_mangling : ¬ ['_', '_'] <:+: asStr.toList

namespace ToolName

def fsRead : ToolName := ⟨"fs/read", by decide, by decide⟩

theorem ext {a b : ToolName} (h : a.asStr = b.asStr) : a = b := by
  cases a
  cases b
  cases h
  rfl

instance : DecidableEq ToolName := fun a b =>
  decidable_of_iff (a.asStr = b.asStr) ⟨ext, congrArg asStr⟩

def parse (s : String) : Except AvixError ToolName :=
  if he : s = "" then .error (.invalidToolName s "name must not be empty")
  else if hm : ['_', '_'] <:+: s.toList then
    .error (.invalidToolName s "name must not contain '__' (reserved for wire mangling)")
  else .ok ⟨s, he, hm⟩

/-- A tool name is accepted as it stands. -/
theorem parse_eq_ok_iff {s : String} {n : ToolName} : parse s = .ok n ↔ s = n.asStr := by
  unfold parse
  constructor
  · intro h
    split_ifs at h
    rw [← Except.ok.inj h]
  · rintro rfl
    rw [dif_neg n.ne_empty, dif_neg n.no_mangling]

/-- `ToolName::mangled`, as `router::mangle::mangle`. -/
def mangled (n : ToolName) : String := Lib.replaceChar '/' "__" n.asStr

def unmangle (mangled : String) : Except AvixError ToolName :=
  parse (Lib.replacePair '_' '_' "/" mangled)

end ToolName

inductive ToolState where
  | available | degraded | unavailable
  deriving DecidableEq, Repr

/-- `tool_registry::ToolPermissions`, with its default. -/
structure ToolPermissions where
  owner : String := "root"
  crew : String := ""
  all : String := "r--"
  deriving DecidableEq, Repr

structure ToolEntry where
  name : ToolName
  owner : String
  state : ToolState
  descriptor : Json := .null
  capabilitiesRequired : List String := []
  permissions : ToolPermissions := {}

abbrev ToolRegistry := HashMap String ToolEntry

namespace ToolRegistry

def add (reg : ToolRegistry) (entries : List ToolEntry) : ToolRegistry :=
  entries.foldl (fun r e => AList.insert e.name.asStr e r) reg

/-- The last phase of `ToolRegistry::remove`: the registry without the tools, and those of them
    that were there. -/
def remove (reg : ToolRegistry) (names : List String) : ToolRegistry × List String :=
  names.foldl (fun r name =>
    if (AList.lookup name r.1).isSome then (AList.erase name r.1, r.2 ++ [name]) else r) (reg, [])

def lookup (reg : ToolRegistry) (name : String) : Except AvixError ToolEntry :=
  match AList.lookup name reg with
  | some e => .ok e
  | none => .error (.configParse ("tool not found: " ++ name))

/-- `ToolRegistry::acquire`: the guard itself carries no data. -/
def acquire (reg : ToolRegistry) (name : String) : Except AvixError Unit :=
  (lookup reg name).map fun _ => ()

def getAllEntries (reg : ToolRegistry) : List ToolEntry := reg.entries.map (·.2)

theorem remove_concat (reg : ToolRegistry) (names : List String) (n : String) :
    reg.remove (names ++ [n]) =
      if (AList.lookup n (reg.remove names).1).isSome then
        (AList.erase n (reg.remove names).1, (reg.remove names).2 ++ [n])
      else reg.remove names := by
  rw [remove, List.foldl_append]
  rfl

theorem lookup_remove (reg : ToolRegistry) (names : List String) (name : String) :
    AList.lookup name (reg.remove names).1 =
      if name ∈ names then none else AList.lookup name reg := by
  induction names using List.reverseRecOn with
  | nil => rfl
  | append_singleton names n ih =>
    rw [remove_concat]
    by_cases hname : name = n
    · subst hname
      rw [if_pos (show name ∈ names ++ [name] by simp)]
      split_ifs with hfound
      · exact AList.lookup_erase _ _
      · exact Option.not_isSome_iff_eq_none.mp hfound
    · simp only [List.mem_append, List.mem_singleton, hname, or_false]
      rw [← ih]
      split_ifs
      · exact AList.lookup_erase_ne hname
      · rfl

theorem remove_subset (reg : ToolRegistry) (names : List String) :
    (reg.remove names).2 ⊆ names := by
  induction names using List.reverseRecOn with
  | nil => exact List.Subset.refl _
  | append_singleton names n ih =>
    rw [remove_concat]
    split_ifs
    · exact List.append_subset.mpr
        ⟨List.subset_append_of_subset_left _ ih, List.subset_append_right _ _⟩
    · exact List.subset_append_of_subset_left _ ih

end ToolRegistry

end Avix
