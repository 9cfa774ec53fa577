/-
  SECURITY — which permission bits a caller has on a path (`VfsPermissions::for_path` and
  `effective_for` of `memfs/context.rs`, `check_access` of `memfs/router.rs`).

  The owner of a path below `/users/<user>` is that user, and the crew of one below
  `/crews/<crew>` that crew. The owner has the owner bits `rwx`, a member of the crew the crew
  bits `rw-`, everybody else `r--`.

  `for_path` returns the bits only, for every path the same; `effective_for` compares the caller's
  name with the owner bits and the caller's crews with the crew bits (`bits_eq`).

  `owner_bits_iff`: for two callers, a path and a right that `check_access` is asked for,
  the bits are those of the owner, the crew and the rest, and the check follows them, exactly when

  * each caller is the owner if and only if it is an administrator or is named `rwx`,
  * each other caller is in the crew if and only if it has a crew named `rw-`,
  * the right is one of `r`, `w` and `x`, or the bits have all its letters: `check_access` lets
    every other text through.

  Otherwise alice has no write permission below `/users/alice`, and the user `rwx` has
  (`stranger_owns_home`).
-/
import Avix.Memfs.Router

namespace Avix.Security

open Lib VfsPermissions

/-! ## Owners and crews -/

/-- The name that follows a directory in a path. -/
def nameBelow (dir : String) (path : VfsPath) : Option String :=
  (stripStart dir path.asStr).map fun rest => (splitChar '/' rest).headD ""

def IsOwner (c : VfsCallerContext) (path : VfsPath) : Prop :=
  nameBelow "/users/" path = some c.username

def InCrew (c : VfsCallerContext) (path : VfsPath) : Prop :=
  ∃ crew ∈ c.crews, nameBelow "/crews/" path = some crew

/-- The bits `effective_for` returns for a path. -/
def bits (c : VfsCallerContext) (path : VfsPath) : String :=
  (VfsPermissions.forPath path.asStr).effectiveFor c

/-- The bits have every letter of a right. -/
def BitsAllow (bits required : String) : Prop := ∀ letter ∈ required.toList, letter ∈ bits.toList

/-- The bits of one caller are those of its standing. -/
structure OwnerSemantics (c : VfsCallerContext) (path : VfsPath) : Prop where
  owner : bits c path = (VfsPermissions.forPath path.asStr).owner ↔ IsOwner c path
  crew : ¬IsOwner c path → InCrew c path → bits c path = (VfsPermissions.forPath path.asStr).crew
  world : ¬IsOwner c path → ¬InCrew c path → bits c path = (VfsPermissions.forPath path.asStr).all

/-- The law for two callers, a path and a right. -/
structure OwnerLaw {D : Type} (r : VfsRouter D) (c d : VfsCallerContext) (path : VfsPath)
    (required : String) : Prop where
  first : OwnerSemantics c path
  second : OwnerSemantics d path
  strangers : ¬IsOwner c path → ¬InCrew c path → ¬IsOwner d path → ¬InCrew d path →
    bits c path = bits d path
  access : (r.setCaller (some c)).checkAccess path required = .ok () ↔
    BitsAllow (bits c path) required

/-- The names are such that the comparisons of `effective_for` come out right. -/
structure Fits (c : VfsCallerContext) (path : VfsPath) : Prop where
  owner : IsOwner c path ↔ c.isAdmin = true ∨ c.username = "rwx"
  crew : ¬IsOwner c path → (InCrew c path ↔ "rw-" ∈ c.crews)

/-! ## What the code returns -/

theorem bits_eq (c : VfsCallerContext) (path : VfsPath) :
    bits c path = if c.isAdmin = true ∨ c.username = "rwx" then "rwx"
      else if "rw-" ∈ c.crews then "rw-" else "r--" := by
  unfold bits effectiveFor forPath
  by_cases hadmin : c.isAdmin = true <;> by_cases hname : c.username = "rwx" <;>
    simp [hadmin, hname]

theorem bits_eq_owner_iff (c : VfsCallerContext) (path : VfsPath) :
    bits c path = "rwx" ↔ c.isAdmin = true ∨ c.username = "rwx" := by
  rw [bits_eq]
  split_ifs with howner hcrew
  · exact iff_of_true rfl howner
  all_goals exact iff_of_false (by decide) howner

theorem bits_of_not_owner {c : VfsCallerContext} (path : VfsPath)
    (h : ¬(c.isAdmin = true ∨ c.username = "rwx")) :
    bits c path = if "rw-" ∈ c.crews then "rw-" else "r--" := by rw [bits_eq, if_neg h]

theorem ownerSemantics_iff (c : VfsCallerContext) (path : VfsPath) :
    OwnerSemantics c path ↔ Fits c path := by
  constructor
  · intro h
    have howner : IsOwner c path ↔ c.isAdmin = true ∨ c.username = "rwx" :=
      h.owner.symm.trans (bits_eq_owner_iff c path)
    refine ⟨howner, fun hnot => ?_⟩
    have hbits := bits_of_not_owner path (howner.not.mp hnot)
    constructor
    · intro hcrew
      by_contra hname
      rw [h.crew hnot hcrew, if_neg hname] at hbits
      exact absurd hbits (show "rw-" ≠ "r--" by decide)
    · intro hname
      by_contra hcrew
      rw [h.world hnot hcrew, if_pos hname] at hbits
      exact absurd hbits (show "r--" ≠ "rw-" by decide)
  · intro h
    refine ⟨(bits_eq_owner_iff c path).trans h.owner.symm, fun hnot hcrew => ?_,
      fun hnot hcrew => ?_⟩
    · rw [bits_of_not_owner path (h.owner.not.mp hnot), if_pos ((h.crew hnot).mp hcrew)]
      rfl
    · rw [bits_of_not_owner path (h.owner.not.mp hnot), if_neg ((h.crew hnot).not.mp hcrew)]
      rfl

theorem checkAccess_iff {D : Type} (r : VfsRouter D) (c : VfsCallerContext) (path : VfsPath)
    (required : String) :
    (r.setCaller (some c)).checkAccess path required = .ok () ↔
      (required ∈ ["r", "w", "x"] → BitsAllow (bits c path) required) := by
  unfold VfsRouter.checkAccess VfsRouter.setCaller BitsAllow bits
  dsimp only
  by_cases hr : required = "r"
  · subst hr
    simp [canRead]
  by_cases hw : required = "w"
  · subst hw
    simp [canWrite]
  by_cases hx : required = "x"
  · subst hx
    simp [canExecute]
  · simp [hr, hw, hx]

/-! ## The law -/

theorem owner_bits_iff {D : Type} (r : VfsRouter D) (c d : VfsCallerContext) (path : VfsPath)
    (required : String) :
    OwnerLaw r c d path required ↔ Fits c path ∧ Fits d path ∧
      (required ∈ ["r", "w", "x"] ∨ BitsAllow (bits c path) required) := by
  constructor
  · intro h
    refine ⟨(ownerSemantics_iff c path).mp h.first, (ownerSemantics_iff d path).mp h.second, ?_⟩
    by_cases hright : required ∈ ["r", "w", "x"]
    · exact .inl hright
    · exact .inr (h.access.mp ((checkAccess_iff r c path required).mpr (absurd · hright)))
  · rintro ⟨hc, hd, hright⟩
    have hc := (ownerSemantics_iff c path).mpr hc
    have hd := (ownerSemantics_iff d path).mpr hd
    refine ⟨hc, hd, fun hc₁ hc₂ hd₁ hd₂ => (hc.world hc₁ hc₂).trans (hd.world hd₁ hd₂).symm, ?_⟩
    rw [checkAccess_iff]
    rcases hright with hright | hperm
    · exact forall_prop_of_true hright
    · exact iff_of_true (fun _ => hperm) hperm

/-! ## A home and two users -/

def aliceCaller : VfsCallerContext where
  username := "alice"
  crews := []
  isAdmin := false
  token := none

def rwxUser : VfsCallerContext := { aliceCaller with username := "rwx" }

def aliceNotes : VfsPath := ⟨"/users/alice/notes", by decide, by decide⟩

/-- Alice has the bits of a stranger in the own home, and a stranger those of the owner. -/
theorem stranger_owns_home :
    IsOwner aliceCaller aliceNotes ∧ bits aliceCaller aliceNotes = "r--" ∧
      ¬IsOwner rwxUser aliceNotes ∧ ¬InCrew rwxUser aliceNotes ∧
      bits rwxUser aliceNotes = "rwx" := by
  refine ⟨by unfold IsOwner; decide, by decide, by unfold IsOwner; decide, ?_, by decide⟩
  rintro ⟨crew, hcrew, -⟩
  cases hcrew

end Avix.Security
