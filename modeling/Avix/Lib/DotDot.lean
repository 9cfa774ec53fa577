/-
  File-system paths by components, with dot-dot.

  A path is a list of pieces: names and "..". The pieces of a text are what stands between its
  slashes, without empty ones and single dots. Resolving a path walks over its pieces, a dot-dot
  going up; the result is a location, a list of names.

  * `walk_eq`: a path that goes up `ups` times more than it comes down leads to the location
    `ups` above the start, and from there down the names that are left (`net`).
  * `prefix_walk_iff`: from a directory, the path stays under the directory exactly when it comes
    back down through every name it went up.
  * `pieces_eq_singleton`, `pieces_slash`: a text that is a name is its own only piece, and a slash
    separates pieces.
-/
import Avix.Lib.Str

namespace Avix.Lib

open List

/-- A piece of a path: a name or "..". -/
def IsPiece (c : String) : Prop := c ≠ "" ∧ c ≠ "." ∧ '/' ∉ c.toList

/-- A name of a file or directory. -/
def IsName (c : String) : Prop := IsPiece c ∧ c ≠ ".."

instance : DecidablePred IsPiece := fun _ => inferInstanceAs (Decidable (_ ∧ _))

instance : DecidablePred IsName := fun _ => inferInstanceAs (Decidable (_ ∧ _))

/-! ## Texts -/

theorem not_mem_of_mem_splitOn {α : Type} [DecidableEq α] {c : α} {l p : List α}
    (h : p ∈ l.splitOn c) : c ∉ p := by
  induction l generalizing p with
  | nil =>
    rw [splitOn_nil] at h
    rw [mem_singleton.mp h]
    exact not_mem_nil
  | cons a l ih =>
    rw [splitOn_cons_eq_if_modifyHead] at h
    split_ifs at h with ha
    · rcases mem_cons.mp h with rfl | h
      · exact not_mem_nil
      · exact ih h
    cases hs : l.splitOn c with
    | nil => exact absurd hs (splitOn_ne_nil _ _)
    | cons q qs =>
      rw [hs, modifyHead_cons] at h
      rcases mem_cons.mp h with rfl | h
      · intro hc
        rcases mem_cons.mp hc with rfl | hc
        · exact ha (beq_self_eq_true _)
        · exact ih (hs ▸ mem_cons_self) hc
      · exact ih (hs ▸ mem_cons_of_mem _ h)

/-- The pieces of a text. -/
def pieces (s : String) : List String := (splitChar '/' s).filter fun c => c ≠ "" ∧ c ≠ "."

theorem isPiece_of_mem_pieces {s c : String} (h : c ∈ pieces s) : IsPiece c := by
  obtain ⟨hmem, hne⟩ := mem_filter.mp h
  obtain ⟨l, hl, rfl⟩ := mem_map.mp hmem
  obtain ⟨hempty, hdot⟩ := of_decide_eq_true hne
  refine ⟨hempty, hdot, ?_⟩
  rw [String.toList_ofList]
  exact not_mem_of_mem_splitOn hl

theorem pieces_eq_singleton {s : String} (h : IsPiece s) : pieces s = [s] := by
  obtain ⟨hempty, hdot, hslash⟩ := h
  have hsplit : splitChar '/' s = [s] := by
    rw [splitChar, splitOn_eq_singleton hslash, map_singleton, String.ofList_toList]
  rw [pieces, hsplit, filter_cons_of_pos (by simp [hempty, hdot])]
  rfl

theorem pieces_slash (a b : String) : pieces (a ++ "/" ++ b) = pieces a ++ pieces b := by
  have hlist : (a ++ "/" ++ b).toList = a.toList ++ '/' :: b.toList := by
    simp only [String.toList_append]
    exact append_assoc _ _ _
  rw [pieces, splitChar, hlist, splitOn_append_cons_self, map_append, filter_append]
  rfl

/-! ## Walking -/

/-- One piece of a path. -/
def walkPiece (loc : List String) (c : String) : List String :=
  if c = ".." then loc.dropLast else loc ++ [c]

/-- Where a path leads from a location; above the root is the root. -/
def walk (loc path : List String) : List String := path.foldl walkPiece loc

theorem walk_append (loc p q : List String) : walk loc (p ++ q) = walk (walk loc p) q :=
  foldl_append

theorem walk_names {loc path : List String} (hloc : ∀ c ∈ loc, IsName c)
    (hpath : ∀ c ∈ path, IsPiece c) : ∀ c ∈ walk loc path, IsName c := by
  induction path generalizing loc with
  | nil => exact hloc
  | cons p path ih =>
    refine ih (fun c hc => ?_) fun c hc => hpath c (mem_cons_of_mem _ hc)
    unfold walkPiece at hc
    split_ifs at hc with hp
    · exact hloc c (mem_of_mem_dropLast hc)
    rcases mem_append.mp hc with hold | hnew
    · exact hloc c hold
    · rw [mem_singleton.mp hnew]
      exact ⟨hpath p mem_cons_self, hp⟩

/-- Names lead down. -/
theorem walk_of_names {loc path : List String} (h : ∀ c ∈ path, c ≠ "..") :
    walk loc path = loc ++ path := by
  induction path generalizing loc with
  | nil => exact (append_nil _).symm
  | cons p path ih =>
    have hp : walkPiece loc p = loc ++ [p] := if_neg (h p mem_cons_self)
    rw [walk, foldl_cons, hp]
    rw [show foldl walkPiece (loc ++ [p]) path = walk (loc ++ [p]) path from rfl,
      ih fun c hc => h c (mem_cons_of_mem _ hc), append_assoc, singleton_append]

/-! ## How far a path goes up -/

/-- The steps up that are not taken back, and the names below them. -/
structure Net where
  ups : Nat
  downs : List String
  deriving DecidableEq, Repr

def Net.step (n : Net) (c : String) : Net :=
  if c = ".." then
    if n.downs = [] then ⟨n.ups + 1, []⟩ else ⟨n.ups, n.downs.dropLast⟩
  else ⟨n.ups, n.downs ++ [c]⟩

def netFrom (n : Net) (path : List String) : Net := path.foldl Net.step n

/-- The net movement of a path. -/
def net (path : List String) : Net := netFrom ⟨0, []⟩ path

/-- Where a net movement leads. -/
def Net.apply (n : Net) (loc : List String) : List String := loc.rdrop n.ups ++ n.downs

theorem Net.apply_step (n : Net) (loc : List String) (c : String) :
    (n.step c).apply loc = walkPiece (n.apply loc) c := by
  unfold Net.step walkPiece Net.apply
  split_ifs with hc hdowns
  · rw [hdowns, append_nil, append_nil, ← rdrop_add]
    simp [rdrop, dropLast_eq_take]
  · exact (dropLast_append_of_ne_nil hdowns).symm
  · exact (append_assoc _ _ _).symm

theorem walk_eq_netFrom (n : Net) (loc path : List String) :
    walk (n.apply loc) path = (netFrom n path).apply loc := by
  induction path generalizing n with
  | nil => rfl
  | cons c path ih =>
    rw [walk, foldl_cons, ← Net.apply_step]
    exact ih (n.step c)

theorem walk_eq (loc path : List String) :
    walk loc path = loc.rdrop (net path).ups ++ (net path).downs := by
  have h := walk_eq_netFrom ⟨0, []⟩ loc path
  rwa [show (⟨0, []⟩ : Net).apply loc = loc by simp [Net.apply]] at h

/-- The path goes down again through every name of the directory that it went up from. -/
def ComesBack (dir path : List String) : Prop := dir.rtake (net path).ups <+: (net path).downs

instance (dir path : List String) : Decidable (ComesBack dir path) :=
  inferInstanceAs (Decidable (_ <+: _))

theorem prefix_walk_iff {dir path : List String} : dir <+: walk dir path ↔ ComesBack dir path := by
  have hsplit : dir.rdrop (net path).ups ++ dir.rtake (net path).ups = dir :=
    take_append_drop _ _
  rw [walk_eq]
  conv_lhs => lhs; rw [← hsplit]
  exact prefix_append_right_inj _

end Avix.Lib
