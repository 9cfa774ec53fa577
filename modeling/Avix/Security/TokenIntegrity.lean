/-
  SECURITY — what the signature of a capability token pins down.

  The documentation of `CapabilityToken` says that any modification invalidates the
  signature. The signed payload is `<issued_at secs>|<expires_at secs>|<sorted tools csv>`
  (`Types/Token`), so this holds for some modifications only. For a MAC that is injective
  for a fixed key, two tokens that verify and carry one signature have equal payloads. What the
  payload does not fix:

  * `issued_to` is not in it;
  * the nanoseconds past a second are dropped by `timestamp()`;
  * a comma inside a tool name is not told apart from the joining comma, and no tools
    from one empty tool.

  `token_integrity_iff`: among such pairs, the four fields agree exactly when none of
  these three differences is present, and a modified token fails the check exactly when a signed
  part was modified.
-/
import Avix.Types.Token

namespace Avix.Security

open String hiding length map_map

open Avix Lib CapabilityToken List

/-- The two tokens say the same: the same tools up to order, for the same time, to the
    same holder. -/
def SameContent (t u : CapabilityToken) : Prop :=
  (t.grantedTools : Multiset String) = u.grantedTools ∧ t.issuedAt = u.issuedAt ∧
    t.expiresAt = u.expiresAt ∧ t.issuedTo = u.issuedTo

instance (t u : CapabilityToken) : Decidable (SameContent t u) :=
  inferInstanceAs (Decidable (_ ∧ _ ∧ _ ∧ _))

/-- The number of commas in each tool name, in sorted order. -/
def commaProfile (t : CapabilityToken) : List Nat :=
  (sortTools t.grantedTools).map fun s => s.toList.count ','

/-- The parts of a token the payload leaves open agree: the holder, the nanoseconds past
    each second, and where the sorted tool names contain commas (so also their number). -/
def UnsignedPartsAgree (t u : CapabilityToken) : Prop :=
  t.issuedTo = u.issuedTo ∧ t.issuedAt.subsecNanos = u.issuedAt.subsecNanos ∧
    t.expiresAt.subsecNanos = u.expiresAt.subsecNanos ∧ commaProfile t = commaProfile u

/-! ## Equal signatures are equal payloads -/

variable {t u : CapabilityToken}

theorem payload_eq_of_signature_eq {hmac : Hmac} {k : Bytes} (hinj : Function.Injective (hmac k))
    (ht : verifySignature hmac k t = true) (hu : verifySignature hmac k u = true)
    (hs : t.signature = u.signature) : t.payload = u.payload := by
  simp only [verifySignature, computeSignature, beq_iff_eq] at ht hu
  have h : "sha256:" ++ ofList (hexEncode (hmac k (utf8 t.payload))) =
      "sha256:" ++ ofList (hexEncode (hmac k (utf8 u.payload))) :=
    ht.symm.trans (hs.trans hu)
  have htag := String.ofList_injective (String.append_right_inj _ |>.mp h)
  exact utf8_injective (hinj (hexEncode_injective htag))

/-! ## What the payload fixes -/

theorem payload_toList (t : CapabilityToken) : t.payload.toList =
    (toString t.issuedAt.timestamp).toList ++ '|' ::
      ((toString t.expiresAt.timestamp).toList ++ '|' ::
        [','].intercalate ((sortTools t.grantedTools).map String.toList)) := by
  simp [payload, toList_append, toList_intercalate]

theorem payload_inj (h : t.payload = u.payload) : t.issuedAt.timestamp = u.issuedAt.timestamp ∧
    t.expiresAt.timestamp = u.expiresAt.timestamp ∧
    [','].intercalate ((sortTools t.grantedTools).map String.toList) =
      [','].intercalate ((sortTools u.grantedTools).map String.toList) := by
  have hl := congrArg toList h
  rw [payload_toList, payload_toList] at hl
  -- decimals contain no bar, so each bar ends its field
  obtain ⟨h1, hl⟩ := append_sep_inj_of_not_mem '|' (bar_not_mem_toString_int _)
    (bar_not_mem_toString_int _) hl
  obtain ⟨h2, h3⟩ := append_sep_inj_of_not_mem '|' (bar_not_mem_toString_int _)
    (bar_not_mem_toString_int _) hl
  exact ⟨Int.repr_injective (toList_inj.mp h1),
    Int.repr_injective (toList_inj.mp h2), h3⟩

/-- Sorting forgets exactly the order. -/
theorem sortTools_eq_iff (xs ys : List String) :
    sortTools xs = sortTools ys ↔ (xs : Multiset String) = ys := by
  unfold sortTools
  rw [Multiset.coe_eq_coe]
  constructor
  · intro h
    exact (perm_insertionSort _ xs).symm.trans (h ▸ perm_insertionSort _ ys)
  · intro h
    exact List.Perm.eq_of_pairwise' (pairwise_insertionSort _ xs)
      (pairwise_insertionSort _ ys)
      ((perm_insertionSort _ xs).trans (h.trans (perm_insertionSort _ ys).symm))

/-- With equal comma profiles, equal joins are equal tool multisets. -/
theorem tools_eq_of_join_eq (hc : commaProfile t = commaProfile u)
    (h : [','].intercalate ((sortTools t.grantedTools).map String.toList) =
      [','].intercalate ((sortTools u.grantedTools).map String.toList)) :
    (t.grantedTools : Multiset String) = u.grantedTools := by
  rw [← sortTools_eq_iff]
  have hmap : ((sortTools t.grantedTools).map toList).map (count ',') =
      ((sortTools u.grantedTools).map toList).map (count ',') := by
    rw [map_map, map_map]
    exact hc
  exact map_injective_iff.mpr (fun _ _ => toList_inj.mp)
    (intercalate_inj_of_count ',' hmap h)

/-- The parts of two tokens that the payload does fix agree. -/
def SignedPartsAgree (t u : CapabilityToken) : Prop :=
  t.issuedAt.timestamp = u.issuedAt.timestamp ∧ t.expiresAt.timestamp = u.expiresAt.timestamp ∧
    [','].intercalate ((sortTools t.grantedTools).map String.toList) =
      [','].intercalate ((sortTools u.grantedTools).map String.toList)

theorem payload_eq_iff (t u : CapabilityToken) : t.payload = u.payload ↔ SignedPartsAgree t u := by
  constructor
  · exact payload_inj
  · rintro ⟨h1, h2, h3⟩
    apply toList_inj.mp
    rw [payload_toList, payload_toList, h1, h2, h3]

/-! ## Integrity -/

theorem sameContent_iff_of_signedPartsAgree (h : SignedPartsAgree t u) :
    SameContent t u ↔ UnsignedPartsAgree t u := by
  obtain ⟨h1, h2, h3⟩ := h
  constructor
  · rintro ⟨hg, hi, he, hw⟩
    refine ⟨hw, by rw [hi], by rw [he], ?_⟩
    unfold commaProfile
    rw [(sortTools_eq_iff _ _).mpr hg]
  · rintro ⟨hw, hi, he, hc⟩
    exact ⟨tools_eq_of_join_eq hc h3, (DateTime.eq_iff _ _).mpr ⟨h1, hi⟩,
      (DateTime.eq_iff _ _).mpr ⟨h2, he⟩, hw⟩

theorem verifySignature_iff_of_signature_eq {hmac : Hmac} {k : Bytes}
    (hinj : Function.Injective (hmac k)) (ht : verifySignature hmac k t = true)
    (hs : u.signature = t.signature) : verifySignature hmac k u = true ↔ SignedPartsAgree t u := by
  rw [← payload_eq_iff]
  constructor
  · intro hu
    exact payload_eq_of_signature_eq hinj ht hu hs.symm
  · intro hp
    simp only [verifySignature, computeSignature, beq_iff_eq] at ht ⊢
    rw [hs, ht, hp]

theorem token_integrity_iff (hmac : Hmac) (k : Bytes) (hinj : Function.Injective (hmac k)) :
    (∀ t u : CapabilityToken, verifySignature hmac k t = true → verifySignature hmac k u = true →
      t.signature = u.signature → (SameContent t u ↔ UnsignedPartsAgree t u)) ∧
    ∀ (now : DateTime) (tools : List String) (who : Option IssuedTo) (ttl : Int)
      (u : CapabilityToken), u.signature = (mint hmac now tools who ttl k).signature →
      (verifySignature hmac k u = false ↔
        ¬ SignedPartsAgree (mint hmac now tools who ttl k) u) := by
  constructor
  · intro t u ht hu hs
    exact sameContent_iff_of_signedPartsAgree
      ((verifySignature_iff_of_signature_eq hinj ht hs.symm).mp hu)
  · intro now tools who ttl u hs
    rw [← verifySignature_iff_of_signature_eq hinj (verifySignature_mint ..) hs, Bool.not_eq_true]

/-! ## A concrete MAC

  `sampleMac` has the HMAC-SHA256 tag of one payload under the key of the source's tests, and
  extends it injectively: every other tag is longer than 32 bytes. -/

/-- `TEST_KEY` of the source's tests. -/
def sampleKey : Bytes := utf8 "test-master-key-32-bytes-padded!"

def samplePayload : Bytes := utf8 "1700000000|1700003600|agent/spawn,fs/read"

/-- HMAC-SHA256 of `samplePayload` under `sampleKey`. -/
def sampleTag : Bytes :=
  [188, 128, 4, 192, 181, 187, 162, 79, 250, 210, 191, 159, 49, 114, 6, 158,
   237, 134, 23, 235, 3, 53, 236, 109, 155, 29, 88, 58, 59, 151, 41, 160]

def sampleMac : Hmac := fun k m =>
  if k = sampleKey ∧ m = samplePayload then sampleTag else List.replicate 33 0 ++ m

theorem sampleMac_injective (k : Bytes) : Function.Injective (sampleMac k) := by
  intro m n h
  simp only [sampleMac] at h
  split at h <;> split at h
  · next hm hn => rw [hm.2, hn.2]
  · exact absurd (congrArg length h) (by simp [sampleTag])
  · exact absurd (congrArg length h) (by simp [sampleTag])
  · exact append_cancel_left h

/-- A token for pid 42, as `mint` makes it at second 1700000000. -/
def sampleToken : CapabilityToken :=
  mint sampleMac ⟨1700000000000000000⟩ ["fs/read", "agent/spawn"]
    (some ⟨42, "researcher", "alice"⟩) 3600 sampleKey

/-- `sampleToken` with its tools listed in the other order. -/
def reorderedToken : CapabilityToken :=
  { sampleToken with grantedTools := ["agent/spawn", "fs/read"] }

theorem token_integrity_iff_reordered : SameContent sampleToken reorderedToken :=
  ((token_integrity_iff sampleMac sampleKey (sampleMac_injective _)).1 sampleToken reorderedToken
    (verifySignature_mint ..) (by decide) rfl).mpr (by unfold UnsignedPartsAgree; decide)

/-- Handing the token to another process leaves it valid: the holder is not signed. -/
theorem token_holder_not_signed :
    let t := sampleToken
    let u := { sampleToken with issuedTo := some ⟨43, "intruder", "mallory"⟩ }
    Function.Injective (sampleMac sampleKey) ∧ verifySignature sampleMac sampleKey t = true ∧
      verifySignature sampleMac sampleKey u = true ∧
      t.signature = u.signature ∧ ¬ SameContent t u := by
  refine ⟨sampleMac_injective _, verifySignature_mint .., by decide, rfl, by decide⟩

end Avix.Security
