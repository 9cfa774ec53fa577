/-
  SECURITY — manifests that tools are granted from.

  `manifest_authentic_iff`: the manifest the kernel grants tools from, and a manifest that
  `ManifestLoader::load` returns, pass `verify_signature`, and `verify_signature` accepts a
  manifest with a signature other than `sha256:` only if it is the digest of its content, if and
  only if
  * the manifest the scanner finds has no `sha256:` signature, or an empty one, or the right one;
  * the signature that `verify_signature` is given, if there is one, begins with `sha256:`.

  Reason. `ManifestScanner::get_manifest` never calls `verify_signature`, and this function takes
  a signature of another format for no signature. The loader does call it (`verified_of_load`),
  but the kernel grants no tools through the loader.

  The digest is any function of the content: no property of SHA-256 is needed.
-/
import Avix.Manifest.Loader
import Avix.Security.Attenuation

namespace Avix.Security

open Lib ManifestLoader Option

/-! ## Statement -/

section Statement

variable {D : Type} (fmt : ManifestFormat) (x : Externals D) (s : KernelState D)

/-- `resolve_granted_tools` computes the tools of the agent from this manifest. -/
def GrantsFrom (agentName caller : String) (file : ManifestFile) : Prop :=
  s.toolRegistry.isSome = true ∧
    ∃ vfs, s.manifestScanner = some vfs ∧ getManifestFile fmt x vfs agentName caller = some file

/-- The property, for one agent and caller and for one manifest that is verified. -/
structure ManifestAuthentic (loaderVfs : VfsRouter D) (agentName caller : String)
    (file : ManifestFile) : Prop where
  granted : ∀ file', GrantsFrom fmt x s agentName caller file' →
    ∀ path, verifySignature fmt file' path = .ok ()
  loaded : ∀ file', load fmt x loaderVfs agentName caller = .ok file' →
    ∀ path, verifySignature fmt file' path = .ok ()
  signed : ∀ path sig, verifySignature fmt file path = .ok () → file.signature = some sig →
    sig ≠ "sha256:" → Signs fmt file sig

/-- The manifest has a `sha256:` signature that is not the digest of its content. -/
def Altered (file : ManifestFile) : Prop :=
  ∃ hex, hex ≠ "" ∧ file.signature = some ("sha256:" ++ hex) ∧ ¬Signs fmt file ("sha256:" ++ hex)

end Statement

/-! ## Proof -/

section Proof

variable {D : Type} {fmt : ManifestFormat} {x : Externals D} {s : KernelState D}
  {file : ManifestFile}

theorem resolveGrantedTools_of_grantsFrom {agentName caller : String}
    (h : GrantsFrom fmt x s agentName caller file) :
    ∃ reg, s.toolRegistry = some reg ∧ s.resolveGrantedTools (fmt.externals x) agentName caller =
        resolveCapabilities reg file.manifest.requestedCapabilities := by
  obtain ⟨hreg, vfs, hvfs, hfile⟩ := h
  obtain ⟨reg, hreg⟩ := isSome_iff_exists.mp hreg
  refine ⟨reg, hreg, ?_⟩
  unfold KernelState.resolveGrantedTools
  simp [hvfs, hreg, getManifest_eq_map, hfile]

theorem verifies_iff_not_altered {path : String} :
    verifySignature fmt file path = .ok () ↔ ¬Altered fmt file := by
  rw [verifySignature_eq_ok_iff]
  constructor
  · rintro h ⟨hex, hne, hsig, hnot⟩
    exact hnot (h hex hne hsig)
  · intro h hex hne hsig
    by_contra hnot
    exact h ⟨hex, hne, hsig, hnot⟩

/-- A signature of another format is accepted. -/
theorem verifies_of_other_format {sig : String} (hsig : file.signature = some sig)
    (hother : startsWith sig "sha256:" = false) (path : String) :
    verifySignature fmt file path = .ok () := by
  refine verifySignature_eq_ok_iff.mpr fun hex _ hhex => ?_
  obtain rfl : sig = "sha256:" ++ hex := some.inj (hsig.symm.trans hhex)
  have hstrip : stripStart "sha256:" ("sha256:" ++ hex) = some hex := stripStart_eq_some_iff.mpr rfl
  unfold stripStart at hstrip
  rw [hother, if_neg Bool.false_ne_true] at hstrip
  cases hstrip

theorem signed_iff :
    (∀ path sig, verifySignature fmt file path = .ok () → file.signature = some sig →
        sig ≠ "sha256:" → Signs fmt file sig) ↔
      ∀ sig, file.signature = some sig → startsWith sig "sha256:" = true := by
  constructor
  · intro h sig hsig
    by_contra hother
    have hfalse := Bool.eq_false_of_not_eq_true hother
    have hsigns := h "" sig (verifies_of_other_format hsig hfalse "") hsig (by
      rintro rfl
      exact hother (by decide))
    obtain ⟨yaml, -, heq⟩ := hsigns
    have hstrip : stripStart "sha256:" sig = some _ := stripStart_eq_some_iff.mpr heq
    unfold stripStart at hstrip
    rw [hfalse, if_neg Bool.false_ne_true] at hstrip
    cases hstrip
  · intro h path sig hver hsig hne
    have hstrip : stripStart "sha256:" sig = some (dropPrefix sig "sha256:") := if_pos (h sig hsig)
    have heq := stripStart_eq_some_iff.mp hstrip
    rw [heq]
    refine verifySignature_eq_ok_iff.mp hver _ (fun hempty => hne ?_) (heq ▸ hsig)
    rw [heq, hempty]
    rfl

end Proof

/-! ## Main statement -/

theorem manifest_authentic_iff {D : Type} (fmt : ManifestFormat) (x : Externals D)
    (s : KernelState D) (loaderVfs : VfsRouter D) (agentName caller : String)
    (file : ManifestFile) :
    ManifestAuthentic fmt x s loaderVfs agentName caller file ↔
      (∀ file', GrantsFrom fmt x s agentName caller file' → ¬Altered fmt file') ∧
        ∀ sig, file.signature = some sig → startsWith sig "sha256:" = true := by
  constructor
  · intro h
    exact ⟨fun file' hgran => verifies_iff_not_altered.mp (h.granted file' hgran ""),
      signed_iff.mp h.signed⟩
  · rintro ⟨hgrant, hsign⟩
    exact ⟨fun file' hgran path => verifies_iff_not_altered.mpr (hgrant file' hgran),
      fun file' hload => verified_of_load hload, signed_iff.mpr hsign⟩

/-! ## An altered manifest -/

/-- The manifests of the office, with a signature that was made for another content. -/
def officeFormat : ManifestFormat where
  fromYaml text :=
    match installedAgents.find? fun a => manifestText a.1 a.2 = text with
    | some a => .ok ⟨⟨"Agent", a.1, [a.2]⟩, some "sha256:6c656164", .null⟩
    | none => .error "not a manifest"
  toYaml m := .ok (m.manifest.name ++ " " ++ " ".intercalate m.manifest.requestedCapabilities)
  utf8Error _ := ""
  sha256Hex text := text

def leadFile : ManifestFile := ⟨⟨"Agent", "lead", ["net:*"]⟩, some "sha256:6c656164", .null⟩

theorem lead_file :
    getManifestFile officeFormat officeExternals officeVfs "lead" "alice" = some leadFile := by
  have hdir : VfsPath.parse "/bin" = .ok ⟨"/bin", by decide, by decide⟩ := rfl
  have hentry : officeEntries.filter
      (fun e => ! startsWith e "." && startsWith e ("lead" ++ "@")) = ["lead@1.0.0"] := by decide
  have hpath : VfsPath.parse ("/bin" ++ "/" ++ "lead@1.0.0" ++ "/manifest.yaml") =
      .ok ⟨"/bin/lead@1.0.0/manifest.yaml", by decide, by decide⟩ := rfl
  have hread : vfsRead officeExternals officeVfs
      ⟨"/bin/lead@1.0.0/manifest.yaml", by decide, by decide⟩ =
        .ok (utf8 (manifestText "lead" "net:*")) := rfl
  have hparse : officeFormat.fromYaml (manifestText "lead" "net:*") = .ok leadFile := rfl
  have hload : loadManifestFile officeFormat officeExternals officeVfs "/bin" "lead"
      "lead@1.0.0" = some leadFile := by
    unfold loadManifestFile
    simp only [hpath, hread, Except.toOption, fromUtf8_utf8, hparse, bind_eq_bind, bind_some]
    rfl
  unfold getManifestFile getManifestFileFromDir
  simp only [hdir, officeVfs_list, Except.toOption, getD_some, hentry,
    List.findSome?_cons, hload, bind_eq_bind, bind_some, some_or]

/-- Tools are granted from a manifest with a wrong signature, and a signature of another format
    is accepted. -/
theorem altered_manifest_granted :
    Function.Injective officeFormat.sha256Hex ∧
      GrantsFrom officeFormat officeExternals officeKernel "lead" "alice" leadFile ∧
      verifySignature officeFormat leadFile "/bin/lead@1.0.0/manifest.yaml" =
        .error (.manifestSignatureMismatch "/bin/lead@1.0.0/manifest.yaml") ∧
      "net/fetch" ∈
        officeKernel.resolveGrantedTools (officeFormat.externals officeExternals) "lead" "alice" ∧
      verifySignature officeFormat { leadFile with signature := some "sha512:00" } "" =
        .ok () := by
  have hgran : GrantsFrom officeFormat officeExternals officeKernel "lead" "alice" leadFile :=
    ⟨rfl, officeVfs, rfl, lead_file⟩
  refine ⟨fun _ _ h => h, hgran, rfl, ?_, rfl⟩
  obtain ⟨reg, hreg, htools⟩ := resolveGrantedTools_of_grantsFrom hgran
  obtain rfl : officeTools = reg := some.inj hreg
  rw [htools]
  decide

end Avix.Security
