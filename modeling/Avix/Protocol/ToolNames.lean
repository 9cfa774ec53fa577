/-
  PROTOCOL — the names of tools on the wire.

  `mangled_lossless_iff`: for every tool name that `ToolName::parse` accepts, the mangled
  name is unmangled to the name it came from, and no other tool name is mangled to it, if and only
  if no `/` of the name stands next to a `_` or next to another `/`.

  Reason. `parse` rejects `__`, but the replacement of `/` makes new underscores next to those that
  are there, and `unmangle` takes them in pairs from the left: `list_/all` comes back as
  `list/_all`. A run of underscores on the wire can then be read in several ways; `//` is
  mangled like `_/_`.
-/
import Avix.Lib.Spelling
import Avix.Tools.Registry

namespace Avix.Protocol

open String

open Lib

theorem toList_mangled (n : ToolName) : n.mangled.toList = spellPairs '/' '_' n.asStr.toList := by
  rw [ToolName.mangled, replaceChar, toList_ofList]
  rfl

theorem mangled_eq_iff (m n : ToolName) : m.mangled = n.mangled ↔
    spellPairs '/' '_' m.asStr.toList = spellPairs '/' '_' n.asStr.toList := by
  rw [← toList_mangled, ← toList_mangled, toList_inj]

theorem unmangle_mangled_iff (n : ToolName) :
    ToolName.unmangle n.mangled = .ok n ↔ ¬['_', '/'] <:+: n.asStr.toList := by
  rw [ToolName.unmangle, ToolName.parse_eq_ok_iff,
    ← replacePairs_spellPairs_iff (by decide) n.no_mangling,
    replacePair, toList_mangled, ← toList_inj, toList_ofList]
  rfl

theorem mangled_lossless_iff (n : ToolName) :
    (ToolName.unmangle n.mangled = .ok n ∧ ∀ m : ToolName, m.mangled = n.mangled → m = n) ↔
      Separated '/' '_' n.asStr.toList := by
  constructor
  · rintro ⟨hback, honly⟩
    have huc := (unmangle_mangled_iff n).mp hback
    by_contra hsep
    obtain ⟨l, hne, hpair, hspell⟩ := exists_spellPairs_eq (by decide) n.no_mangling huc hsep
    have hempty : l ≠ [] := by
      rintro rfl
      exact n.ne_empty (toList_eq_nil_iff.mp (spellPairs_eq_nil_iff.mp hspell.symm))
    let m : ToolName := ⟨ofList l, by simpa using hempty, by rwa [toList_ofList]⟩
    have hm : m.asStr.toList = l := toList_ofList
    have hmn : m = n := honly m ((mangled_eq_iff m n).mpr (by rw [hm, hspell]))
    rw [hmn] at hm
    exact hne hm.symm
  · intro hsep
    refine ⟨(unmangle_mangled_iff n).mpr hsep.1, fun m hm => ?_⟩
    have hspell := (mangled_eq_iff m n).mp hm
    have hlist := hsep.spellPairs_inj (by decide) n.no_mangling m.no_mangling hspell
    exact ToolName.ext (toList_inj.mp hlist)

/-- The names `list_/all` and `list/_all` are both `list___all` on the wire. -/
theorem two_tools_one_wire_name : ∃ m n : ToolName,
    ToolName.parse "list_/all" = .ok m ∧ ToolName.parse "list/_all" = .ok n ∧
      m.mangled = "list___all" ∧ n.mangled = "list___all" ∧
      ToolName.unmangle m.mangled = .ok n ∧ m ≠ n :=
  ⟨⟨"list_/all", by decide, by decide⟩, ⟨"list/_all", by decide, by decide⟩, by decide +kernel,
    by decide +kernel, by decide +kernel, by decide +kernel, by decide +kernel, by decide +kernel⟩

end Avix.Protocol
