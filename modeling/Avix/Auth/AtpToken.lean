/-
  The tokens of ATP clients (`auth/atp_token.rs`, `types/role.rs`).

  A token is `payload.signature`: the claims as JSON in base64, and the HMAC of that text in
  hexadecimal. JSON, base64 and HMAC are the library's, so they are parameters (`TokenCodec`);
  its fields say that what has been encoded can be decoded again and that base64 has no dot.

  * `ATPToken.validate_eq_ok_iff`: what a valid token is.
  * `ATPToken.validate_issue_eq_ok_iff`: an issued token is valid until its claims expire.
-/
import Avix.Lib.Str
import Avix.Types.Token

namespace Avix

open Lib

/-- `types::Role`, in rising order. -/
inductive Role where
  | guest
  | user
  | operator
  | admin
  deriving DecidableEq, Repr

namespace Role

/-- The discriminant. -/
def level : Role → Nat
  | guest => 0
  | user => 1
  | operator => 2
  | admin => 3

instance : LT Role := ⟨fun a b => a.level < b.level⟩

instance (a b : Role) : Decidable (a < b) := inferInstanceAs (Decidable (a.level < b.level))

def display : Role → String
  | admin => "admin"
  | operator => "operator"
  | user => "user"
  | guest => "guest"

end Role

structure ATPTokenClaims where
  sub : String
  uid : UInt32
  role : Role
  crews : List String
  sessionId : String
  iat : DateTime
  exp : DateTime
  scope : List String
  deriving DecidableEq, Repr

/-- `ATPTokenClaims::is_expired`, at the instant `now`. -/
def ATPTokenClaims.isExpired (c : ATPTokenClaims) (now : DateTime) : Bool := decide (c.exp < now)

/-- The libraries a token is made with. -/
structure TokenCodec where
  hmac : Hmac
  /-- `hex::decode`. -/
  hexDecode : String → Option Bytes
  /-- `URL_SAFE_NO_PAD.encode` and `decode`, or the error text. -/
  base64Encode : Bytes → String
  base64Decode : String → Except String Bytes
  /-- `serde_json::to_string` and `from_slice`, or the error text. -/
  claimsJson : ATPTokenClaims → String
  claimsOfJson : Bytes → Except String ATPTokenClaims
  base64_decode_encode : ∀ data, base64Decode (base64Encode data) = .ok data
  base64_no_dot : ∀ data, '.' ∉ (base64Encode data).toList
  claims_round_trip : ∀ claims, claimsOfJson (utf8 (claimsJson claims)) = .ok claims

namespace ATPToken

variable (codec : TokenCodec)

def sign (data secret : String) : String :=
  String.ofList (hexEncode (codec.hmac (utf8 secret) (utf8 data)))

def payload (claims : ATPTokenClaims) : String :=
  codec.base64Encode (utf8 (codec.claimsJson claims))

/-- `ATPToken::issue`; the claims can always be serialised. -/
def issue (claims : ATPTokenClaims) (secret : String) : String :=
  payload codec claims ++ "." ++ sign codec (payload codec claims) secret

/-- `token.splitn(2, '.')` must have two parts. -/
def parts (token : String) : Except AvixError (String × String) :=
  match splitOnce '.' token with
  | some parts => .ok parts
  | none => .error (.capabilityDenied "invalid token format")

/-- `ATPToken::validate`, at the instant `now`. -/
def validate (token secret : String) (now : DateTime) : Except AvixError ATPTokenClaims := do
  let (data, sig) ← parts token
  refuseIf (sig ≠ sign codec data secret) (.capabilityDenied "invalid token signature")
  let bytes ← (codec.base64Decode data).mapError .capabilityDenied
  let claims ← (codec.claimsOfJson bytes).mapError .configParse
  refuseIf (claims.isExpired now = true) (.capabilityDenied "token expired")
  return claims

def Verifies (token secret : String) : Prop :=
  ∃ data, splitOnce '.' token = some (data, sign codec data secret)

variable {codec} {token secret : String} {now : DateTime} {claims : ATPTokenClaims}

theorem parts_eq_ok_iff {p : String × String} : parts token = .ok p ↔
    splitOnce '.' token = some p := by
  unfold parts
  cases splitOnce '.' token <;> simp

theorem validate_eq_ok_iff : validate codec token secret now = .ok claims ↔
    ∃ data bytes, splitOnce '.' token = some (data, sign codec data secret) ∧
      codec.base64Decode data = .ok bytes ∧ codec.claimsOfJson bytes = .ok claims ∧
      claims.isExpired now = false := by
  unfold validate
  simp only [bind_eq_ok_iff, refuseIf_eq_ok_iff, mapError_eq_ok_iff, parts_eq_ok_iff]
  constructor
  · rintro ⟨⟨data, sig⟩, hparts, -, hsig, bytes, hbytes, claims', hcla, -, hexp, hret⟩
    obtain rfl : claims' = claims := Except.ok.inj hret
    rw [ne_eq, not_not] at hsig
    exact ⟨data, bytes, hsig ▸ hparts, hbytes, hcla, Bool.not_eq_true _ ▸ hexp⟩
  · rintro ⟨data, bytes, hparts, hbytes, hcla, hexp⟩
    exact ⟨(data, sign codec data secret), hparts, (), fun h => h rfl, bytes, hbytes, claims,
      hcla, (), by rw [hexp]; decide, rfl⟩

theorem verifies_of_validate (h : validate codec token secret now = .ok claims) :
    Verifies codec token secret := by
  obtain ⟨data, -, hparts, -⟩ := validate_eq_ok_iff.mp h
  exact ⟨data, hparts⟩

/-- An issued token is valid until its claims expire, and stands for nothing but them. -/
theorem validate_issue_eq_ok_iff {c : ATPTokenClaims} :
    validate codec (issue codec c secret) secret now = .ok claims ↔
      claims = c ∧ c.isExpired now = false := by
  have hsplit : splitOnce '.' (issue codec c secret) =
      some (payload codec c, sign codec (payload codec c) secret) :=
    splitOnce_append (codec.base64_no_dot _)
  have hdec : codec.base64Decode (payload codec c) = .ok (utf8 (codec.claimsJson c)) :=
    codec.base64_decode_encode _
  rw [validate_eq_ok_iff, hsplit]
  constructor
  · rintro ⟨data, bytes, hparts, hbytes, hcla, hexp⟩
    obtain ⟨rfl, -⟩ := Prod.mk.inj (Option.some.inj hparts)
    rw [hdec] at hbytes
    rw [← Except.ok.inj hbytes, codec.claims_round_trip] at hcla
    cases hcla
    exact ⟨rfl, hexp⟩
  · rintro ⟨rfl, hexp⟩
    exact ⟨_, _, rfl, hdec, codec.claims_round_trip _, hexp⟩

end ATPToken

/-- `atp_token::ATPTokenStore`. -/
structure ATPTokenStore where
  secret : String
  /-- The sessions whose tokens are revoked. -/
  revoked : Finset String

namespace ATPTokenStore

variable (codec : TokenCodec) (store : ATPTokenStore)

def issue (claims : ATPTokenClaims) : String := ATPToken.issue codec claims store.secret

def validate (token : String) (now : DateTime) : Except AvixError ATPTokenClaims := do
  let claims ← ATPToken.validate codec token store.secret now
  refuseIf (claims.sessionId ∈ store.revoked) (.capabilityDenied "token revoked")
  return claims

def revoke (sessionId : String) : ATPTokenStore :=
  { store with revoked := insert sessionId store.revoked }

variable {codec store}

theorem validate_eq_ok_iff {token : String} {now : DateTime} {claims : ATPTokenClaims} :
    store.validate codec token now = .ok claims ↔
      ATPToken.validate codec token store.secret now = .ok claims ∧
        claims.sessionId ∉ store.revoked := by
  unfold validate
  simp only [bind_eq_ok_iff, refuseIf_eq_ok_iff]
  constructor
  · rintro ⟨claims', hcla, -, hrev, hret⟩
    obtain rfl : claims' = claims := Except.ok.inj hret
    exact ⟨hcla, hrev⟩
  · rintro ⟨hcla, hrev⟩
    exact ⟨claims, hcla, (), hrev, rfl⟩

end ATPTokenStore

/-! ## A codec

The assumptions of `TokenCodec` can be met: any injective texts do. -/

section Codec

/-- Decode by search. -/
noncomputable def decodeBy {α β : Type} (encode : α → β) (b : β) : Except String α :=
  open Classical in if h : ∃ a, encode a = b then .ok h.choose else .error "invalid data"

theorem decodeBy_encode {α β : Type} {encode : α → β} (hinj : Function.Injective encode) (a : α) :
    decodeBy encode (encode a) = .ok a := by
  have h : ∃ a', encode a' = encode a := ⟨a, rfl⟩
  rw [decodeBy, dif_pos h, hinj h.choose_spec]

instance countableChar : Countable Char :=
  Function.Injective.countable fun _ _ h => Char.toNat_inj.mp h

instance countableString : Countable String :=
  Function.Injective.countable fun _ _ h => String.toList_inj.mp h

deriving instance Countable for DateTime, Role, ATPTokenClaims

/-- The claims as a row of strokes. -/
noncomputable def strokes (claims : ATPTokenClaims) : String :=
  String.ofList (List.replicate (Classical.choose (exists_injective_nat ATPTokenClaims) claims) '|')

theorem strokes_injective : Function.Injective strokes := by
  intro a b h
  have hlen := congrArg List.length (String.ofList_injective h)
  rw [List.length_replicate, List.length_replicate] at hlen
  exact Classical.choose_spec (exists_injective_nat ATPTokenClaims) hlen

theorem dot_not_mem_hexEncode (data : Bytes) : '.' ∉ hexEncode data := by
  induction data with
  | nil => nofun
  | cons b data ih =>
    have hdigit : ∀ n < 16, '.' ≠ hexDigit n := by decide
    have hb := b.toNat_lt
    rw [hexEncode, List.mem_cons, List.mem_cons]
    rintro (hhi | hlo | hrest)
    · exact hdigit _ (by omega) hhi
    · exact hdigit _ (by omega) hlo
    · exact ih hrest

/-- Hexadecimal for base64, and strokes for JSON. -/
noncomputable def TokenCodec.plain (hmac : Hmac) : TokenCodec where
  hmac := hmac
  hexDecode := fun _ => none
  base64Encode := fun data => String.ofList (hexEncode data)
  base64Decode := decodeBy fun data => String.ofList (hexEncode data)
  claimsJson := strokes
  claimsOfJson := decodeBy fun claims => utf8 (strokes claims)
  base64_decode_encode := decodeBy_encode fun _ _ h =>
    hexEncode_injective (String.ofList_injective h)
  base64_no_dot := fun data => by
    rw [String.toList_ofList]
    exact dot_not_mem_hexEncode data
  claims_round_trip := decodeBy_encode (utf8_injective.comp strokes_injective)

end Codec

end Avix
