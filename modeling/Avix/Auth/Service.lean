/-
  Logins and sessions of ATP clients (`auth/service.rs`, `auth/session.rs`, `auth/validate.rs`,
  `config/auth.rs`).

  A session is made by a login and lives until it is revoked; its entry says when it began and
  how long it lasts. Of an entry, the state, the activity and the agents are left out: nothing
  here reads them.
-/
import Avix.Auth.AtpToken

namespace Avix

open Lib

/-- `auth::SessionEntry`. -/
structure SessionEntry where
  sessionId : String
  identityName : String
  uid : UInt32
  role : Role
  crews : List String
  scope : List String
  connectedAt : DateTime
  /-- Nanoseconds. -/
  ttl : Nat
  deriving DecidableEq, Repr

namespace SessionEntry

/-- `SessionEntry::is_expired`, at the instant `now`; a clock set back counts as no time. -/
def isExpired (e : SessionEntry) (now : DateTime) : Bool :=
  decide (e.ttl < (now.nanos - e.connectedAt.nanos).toNat)

/-- The last instant at which the session has not expired. -/
def endsAt (e : SessionEntry) : DateTime := ⟨e.connectedAt.nanos + e.ttl⟩

theorem isExpired_eq_false_iff {e : SessionEntry} {now : DateTime} :
    e.isExpired now = false ↔ ¬e.endsAt < now := by
  rw [isExpired, decide_eq_false_iff_not]
  change ¬e.ttl < (now.nanos - e.connectedAt.nanos).toNat ↔ ¬e.connectedAt.nanos + e.ttl < now.nanos
  omega

end SessionEntry

inductive CredentialType where
  | apiKey (keyHash : String)
  | password (passwordHash : String)

structure AuthIdentity where
  name : String
  uid : UInt32
  role : Role
  credential : CredentialType

def validateCredential (codec : TokenCodec) (credential : CredentialType) (presented : String) :
    Bool :=
  match credential with
  | .apiKey keyHash =>
    startsWith keyHash "hmac-sha256:" &&
      codec.hexDecode (dropPrefix keyHash "hmac-sha256:") ==
        some (codec.hmac (utf8 "config-init-secret") (utf8 presented))
  | .password _ => presented ≠ ""

structure AuthService where
  identities : List AuthIdentity
  sessions : HashMap String SessionEntry
  /-- Nanoseconds. -/
  ttl : Nat

/-- A token lasts eight hours. -/
def tokenSecs : Int := 8 * 3600

namespace AuthService

variable (codec : TokenCodec) (svc : AuthService)

/-- `AuthService::new`: sessions last one hour. -/
def new (identities : List AuthIdentity) : AuthService :=
  ⟨identities, ∅, 3600 * 1000000000⟩

/-- The identity a login names, if the credential is right. -/
def identify (identityName credential : String) : Except AvixError AuthIdentity := do
  let identity ← match svc.identities.find? (·.name = identityName) with
    | some identity => .ok identity
    | none => .error (.capabilityDenied ("unknown identity: " ++ identityName))
  refuseIf (validateCredential codec identity.credential credential = false)
    (.capabilityDenied "invalid credential")
  return identity

def entryFor (identity : AuthIdentity) (sessionId : String) (now : DateTime) : SessionEntry where
  sessionId := sessionId
  identityName := identity.name
  uid := identity.uid
  role := identity.role
  crews := []
  scope := ["proc", "signal", "fs", "snap", "cron"]
  connectedAt := now
  ttl := svc.ttl

/-- `AuthService::login`; `uuid` is the new session id. -/
def login (identityName credential uuid : String) (now : DateTime) :
    AuthService × Except AvixError SessionEntry :=
  match svc.identify codec identityName credential with
  | .error e => (svc, .error e)
  | .ok identity =>
    let entry := svc.entryFor identity uuid now
    ({ svc with sessions := svc.sessions.insert uuid entry }, .ok entry)

def validateSession (sessionId : String) (now : DateTime) : Except AvixError SessionEntry :=
  match svc.sessions.lookup sessionId with
  | none => .error (.capabilityDenied "invalid session")
  | some entry =>
    if entry.isExpired now then .error (.capabilityDenied "session expired") else .ok entry

def revokeSession (sessionId : String) : AuthService × Except AvixError Unit :=
  if (svc.sessions.lookup sessionId).isSome then
    ({ svc with sessions := svc.sessions.erase sessionId }, .ok ())
  else (svc, .error (.capabilityDenied "session not found"))

/-- The claims `refresh_token` issues instead of `claims`. -/
def refreshedClaims (claims : ATPTokenClaims) (now : DateTime) : ATPTokenClaims :=
  { claims with iat := now, exp := now.addSecs tokenSecs }

/-- `AuthService::refresh_token`, with the clock at its three readings. -/
def refreshToken (store : ATPTokenStore) (oldToken : String) (now later latest : DateTime) :
    Except AvixError (String × ATPTokenClaims) := do
  let claims ← store.validate codec oldToken now
  let _ ← svc.validateSession claims.sessionId later
  let newClaims := refreshedClaims claims latest
  return (store.issue codec newClaims, newClaims)

/-- The claims `handle_login` issues for a new session. -/
def loginClaims (entry : SessionEntry) (now : DateTime) : ATPTokenClaims where
  sub := entry.identityName
  uid := entry.uid
  role := entry.role
  crews := entry.crews
  sessionId := entry.sessionId
  iat := now
  exp := now.addSecs tokenSecs
  scope := entry.scope

variable {svc}

theorem validateSession_eq_ok_iff {sessionId : String} {now : DateTime} {entry : SessionEntry} :
    svc.validateSession sessionId now = .ok entry ↔
      svc.sessions.lookup sessionId = some entry ∧ entry.isExpired now = false := by
  unfold validateSession
  cases svc.sessions.lookup sessionId with
  | none => simp
  | some entry' =>
    dsimp only
    by_cases hexp : entry'.isExpired now = true
    · rw [if_pos hexp]
      constructor
      · nofun
      · rintro ⟨heq, hfresh⟩
        rw [← Option.some.inj heq, hexp] at hfresh
        cases hfresh
    · rw [if_neg hexp]
      constructor
      · intro heq
        cases heq
        exact ⟨rfl, Bool.eq_false_of_not_eq_true hexp⟩
      · rintro ⟨heq, -⟩
        rw [Option.some.inj heq]

end AuthService

end Avix
