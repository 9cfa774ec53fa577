/-
  The string operations of the source, on lists of characters.

  Slices of the source are cut at positions found by a search, so they never split a
  character, and counting characters instead of bytes makes no difference.
-/
import Mathlib

namespace Avix.Lib

open String List

/-- `s.starts_with(p)`. -/
def startsWith (s p : String) : Bool := p.toList.isPrefixOf s.toList

/-- `s.ends_with(p)`. -/
def endsWith (s p : String) : Bool := p.toList.isSuffixOf s.toList

/-- `s.contains(sub)`. -/
def containsStr (s sub : String) : Bool := decide (sub.toList <:+: s.toList)

/-- `&s[p.len()..]` of an `s` that starts with `p`. -/
def dropPrefix (s p : String) : String := String.ofList (s.toList.drop p.toList.length)

/-- `s.trim_start_matches(c)`. -/
def trimStart (c : Char) (s : String) : String := String.ofList (s.toList.dropWhile (· == c))

/-- Drop a text from the front of another as often as it stands there. -/
def dropRepeated (p : List Char) : Nat → List Char → List Char
  | 0, l => l
  | n + 1, l => if p.isPrefixOf l then dropRepeated p n (l.drop p.length) else l

/-- `s.trim_start_matches(p)` of a pattern that is not empty. -/
def trimStartStr (p s : String) : String :=
  String.ofList (dropRepeated p.toList s.toList.length s.toList)

/-- `s.trim_end_matches(p)` of a pattern that is not empty. -/
def trimEndStr (p s : String) : String :=
  String.ofList (dropRepeated p.toList.reverse s.toList.length s.toList.reverse).reverse

/-- `s.strip_prefix(p)`. -/
def stripStart (p s : String) : Option String :=
  if startsWith s p then some (dropPrefix s p) else none

/-- `s.trim_end_matches(c)`. -/
def trimEnd (c : Char) (s : String) : String := String.ofList (s.toList.rdropWhile (· == c))

/-- `s.split(c)`. -/
def splitChar (c : Char) (s : String) : List String := (s.toList.splitOn c).map String.ofList

/-- `s.split_once(c)`: cut at the first `c`. -/
def splitOnce (c : Char) (s : String) : Option (String × String) :=
  match s.toList.span (· != c) with
  | (before, _ :: after) => some (String.ofList before, String.ofList after)
  | (_, []) => none

/-- `s.replace(c, r)` of one character. -/
def replaceChar (c : Char) (r : String) (s : String) : String :=
  String.ofList (s.toList.flatMap fun d => if d = c then r.toList else [d])

/-- Replace the pairs `c d` of a list by `r`, from left to right. -/
def replacePairs (c d : Char) (r : List Char) : List Char → List Char
  | a :: b :: rest =>
    if a = c ∧ b = d then r ++ replacePairs c d r rest else a :: replacePairs c d r (b :: rest)
  | rest => rest

/-- `s.replace(p, r)` of a pattern of two characters. -/
def replacePair (c d : Char) (r s : String) : String :=
  String.ofList (replacePairs c d r.toList s.toList)

/-- `s.lines()`: no empty last line, and no carriage return at a line's end. -/
def lines (s : String) : List String :=
  let parts := s.toList.splitOn '\n'
  let parts := if parts.getLast? = some [] then parts.dropLast else parts
  parts.map fun l => String.ofList (if l.getLast? = some '\r' then l.dropLast else l)

/-- `char::is_whitespace` (the Unicode property White_Space). -/
def isWhitespace (c : Char) : Bool :=
  let n := c.toNat
  (9 ≤ n && n ≤ 13) || n == 0x20 || n == 0x85 || n == 0xA0 || n == 0x1680 ||
    (0x2000 ≤ n && n ≤ 0x200A) || n == 0x2028 || n == 0x2029 || n == 0x202F || n == 0x205F ||
    n == 0x3000

/-- `s.split_whitespace()`. -/
def splitWhitespace (s : String) : List String :=
  ((s.toList.splitOnP isWhitespace).filter (· ≠ [])).map String.ofList

/-- The characters of the first `n` bytes; none if that ends inside a character. -/
def takeBytes : List Char → Nat → Option (List Char)
  | [], n => if n = 0 then some [] else none
  | c :: l, n =>
    if n = 0 then some []
    else if c.utf8Size ≤ n then (takeBytes l (n - c.utf8Size)).map (c :: ·)
    else none

/-- `&s[..n]`; none is a panic. -/
def sliceBytes (s : String) (n : Nat) : Option String := (takeBytes s.toList n).map String.ofList

variable {c : Char} {l r : List Char} {s : String}

/-- A text can be stripped exactly when it stands in front. -/
theorem stripStart_eq_some_iff {p r : String} : stripStart p s = some r ↔ s = p ++ r := by
  unfold stripStart startsWith dropPrefix
  constructor
  · intro h
    split_ifs at h with hp
    obtain ⟨l, hl⟩ := isPrefixOf_iff_prefix.mp hp
    rw [← Option.some.inj h, ← hl, drop_left]
    apply toList_injective
    rw [toList_append, toList_ofList, hl]
  · rintro rfl
    rw [toList_append, if_pos (List.isPrefixOf_iff_prefix.mpr (prefix_append _ _)),
      drop_left, ofList_toList]

theorem bne_of_not_mem (h : c ∉ l) : ∀ d ∈ l, (d != c) = true := by
  intro d hd
  rw [bne_iff_ne]
  rintro rfl
  exact h hd

/-- A text is cut at the first `c`. -/
theorem splitOnce_append {a b : String} (h : c ∉ a.toList) :
    splitOnce c (a ++ String.singleton c ++ b) = some (a, b) := by
  have hspan : (a.toList ++ c :: b.toList).span (· != c) = (a.toList, c :: b.toList) := by
    rw [span_eq_takeWhile_dropWhile, takeWhile_append_of_pos (bne_of_not_mem h),
      dropWhile_append_of_pos (bne_of_not_mem h)]
    simp
  have htext : (a ++ singleton c ++ b).toList = a.toList ++ c :: b.toList := by simp
  unfold splitOnce
  rw [htext, hspan]
  simp

/-- A text without `c` is not cut. -/
theorem splitOnce_eq_none (h : c ∉ s.toList) : splitOnce c s = none := by
  unfold splitOnce
  rw [span_eq_takeWhile_dropWhile, dropWhile_eq_nil_iff.mpr (bne_of_not_mem h)]

/-- A text with a `c` has a first one. -/
theorem exists_append_of_mem (h : c ∈ s.toList) :
    ∃ a b : String, c ∉ a.toList ∧ s = a ++ String.singleton c ++ b := by
  obtain ⟨l, l', hl, hnot⟩ := eq_append_cons_of_mem h
  refine ⟨ofList l, ofList l', by rwa [toList_ofList], ?_⟩
  rw [← toList_inj, hl]
  simp

/-! ## Replacing twice -/

/-- A list without the pair stays as it is. -/
theorem replacePairs_of_isChain (h : l.IsChain fun a b => ¬(a = c ∧ b = c)) :
    replacePairs c c r l = l := by
  induction l with
  | nil => rfl
  | cons a l ih =>
    cases l with
    | nil => rfl
    | cons b rest =>
      rw [isChain_cons_cons] at h
      rw [replacePairs, if_neg h.1, ih h.2]

/-- After the replacement, only a list that began with `c` begins with it. -/
theorem head?_of_head?_replacePairs (hr : c ∉ r) (hne : r ≠ [])
    (h : (replacePairs c c r l).head? = some c) : l.head? = some c := by
  match l with
  | [] => exact h
  | [b] => exact h
  | b :: b' :: rest =>
    rw [replacePairs] at h
    split_ifs at h with hpair
    · obtain ⟨x, r', rfl⟩ := exists_cons_of_ne_nil hne
      cases h
      exact absurd mem_cons_self hr
    · exact h

/-- No pair is left. -/
theorem isChain_replacePairs (hr : c ∉ r) (hne : r ≠ []) (l : List Char) :
    (replacePairs c c r l).IsChain fun a b => ¬(a = c ∧ b = c) := by
  fun_induction replacePairs c c r l with
  | case1 a b rest hpair ih =>
    have hr' : ∀ a ∈ r, a ≠ c := fun a ha hac => hr (hac ▸ ha)
    refine isChain_append.mpr ⟨?_, ih, ?_⟩
    · have hpairs : r.Pairwise fun a b => ¬(a = c ∧ b = c) :=
        pairwise_of_forall_mem_list fun a ha _ _ hpair => hr' a ha hpair.1
      exact hpairs.isChain
    · exact fun a ha b _ hpair => hr' a (mem_of_getLast? ha) hpair.1
  | case2 a b rest hpair ih =>
    refine isChain_cons.mpr ⟨fun d hd hboth => ?_, ih⟩
    have hhead := head?_of_head?_replacePairs hr hne (hboth.2 ▸ hd)
    exact hpair ⟨hboth.1, Option.some.inj hhead⟩
  | case3 l h =>
    match l with
    | [] => exact .nil
    | [a] => exact .singleton a
    | a :: b :: rest => exact absurd rfl (h a b rest)

theorem replacePair_replacePair {r : String} (hr : c ∉ r.toList) (hne : r.toList ≠ [])
    (s : String) : replacePair c c r (replacePair c c r s) = replacePair c c r s := by
  rw [replacePair, replacePair, toList_ofList,
    replacePairs_of_isChain (isChain_replacePairs hr hne _)]

/-! ## Joining -/

/-- What is missing counts as empty. -/
theorem join_filterMap {α : Type} (f : α → Option String) (l : List α) :
    String.join (l.filterMap f) = String.join (l.map fun a => (f a).getD "") := by
  induction l with
  | nil => rfl
  | cons a l ih =>
    rw [filterMap_cons, map_cons, join_cons, ← ih]
    cases f a with
    | none => rw [Option.getD_none, empty_append]
    | some t => rw [join_cons, Option.getD_some]

end Avix.Lib
