/-
  Capability tokens (`types/token.rs`).

  Model. `CapabilityToken` has the five fields of the source. `computeSignature` is
  HMAC-SHA256 over the payload `<issued_at secs>|<expires_at secs>|<sorted tools, comma joined>`,
  written as `sha256:<hex>`. The MAC itself is the `hmac` crate, so it is a parameter
  `hmac : key → message → tag`; nothing is assumed about it in this file.

  `issued_to` and the sub-second part of both instants are fields of the token but are not
  part of the payload. What follows from that is in `Security/TokenIntegrity`.
-/
import Avix.Types.Basic
import Avix.Lib.Bytes
import Avix.Lib.Join

namespace Avix

open Lib

structure IssuedTo where
  pid : Pid
  agentName : String
  spawnedBy : String
  deriving DecidableEq, Repr

structure CapabilityToken where
  grantedTools : List String
  issuedAt : DateTime
  expiresAt : DateTime
  issuedTo : Option IssuedTo
  signature : String
  deriving DecidableEq, Repr

/-- `Hmac::<Sha256>`: key, then message. -/
abbrev Hmac := Bytes → Bytes → Bytes

namespace CapabilityToken

def hasTool (t : CapabilityToken) (tool : String) : Bool :=
  t.grantedTools.any (· == tool)

/-- `CapabilityToken::is_expired`, at the instant `now`. -/
def isExpired (t : CapabilityToken) (now : DateTime) : Bool :=
  decide (t.expiresAt < now)

/-- `tools.sort()`. -/
def sortTools (tools : List String) : List String := tools.insertionSort (· ≤ ·)

/-- The `format!` payload of `compute_signature`. -/
def payload (t : CapabilityToken) : String :=
  toString t.issuedAt.timestamp ++ "|" ++ toString t.expiresAt.timestamp ++ "|"
    ++ ",".intercalate (sortTools t.grantedTools)

def computeSignature (hmac : Hmac) (key : Bytes) (t : CapabilityToken) : String :=
  "sha256:" ++ String.ofList (hexEncode (hmac key (utf8 t.payload)))

def verifySignature (hmac : Hmac) (key : Bytes) (t : CapabilityToken) : Bool :=
  t.signature == t.computeSignature hmac key

/-- `CapabilityToken::mint`, at the instant `now`. -/
def mint (hmac : Hmac) (now : DateTime) (grantedTools : List String)
    (issuedTo : Option IssuedTo) (ttlSecs : Int) (key : Bytes) : CapabilityToken :=
  let token : CapabilityToken :=
    { grantedTools
      issuedAt := now
      expiresAt := now.addSecs ttlSecs
      issuedTo
      signature := "" }
  { token with signature := token.computeSignature hmac key }

def testToken (now : DateTime) (caps : List String) : CapabilityToken :=
  { grantedTools := caps
    issuedAt := now
    expiresAt := now.addSecs 3600
    issuedTo := none
    signature := "test-sig" }

/-! ## Field lemmas -/

section
variable (hmac : Hmac) (now : DateTime) (tools : List String) (who : Option IssuedTo)
  (ttl : Int) (key : Bytes)

@[simp] theorem mint_grantedTools : (mint hmac now tools who ttl key).grantedTools = tools := rfl

/-- A minted token verifies under the key it was minted with: the payload does not read
    the signature field. -/
@[simp] theorem verifySignature_mint :
    verifySignature hmac key (mint hmac now tools who ttl key) = true := by
  unfold verifySignature
  rw [beq_iff_eq]
  rfl

/-- `test_token` is unsigned: its signature lacks the `sha256:` prefix. -/
@[simp] theorem verifySignature_testToken :
    verifySignature hmac key (testToken now tools) = false := by
  simp only [verifySignature, testToken, computeSignature, beq_eq_false_iff_ne, ne_eq]
  intro h
  have h' := congrArg String.toList h
  simp at h'

end

theorem hasTool_iff (t : CapabilityToken) (tool : String) :
    t.hasTool tool = true ↔ tool ∈ t.grantedTools := by
  simp [hasTool]

end CapabilityToken

end Avix
