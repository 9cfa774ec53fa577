/-
  Commands of ATP clients and the checks before they are handled (`gateway/atp/types.rs`,
  `gateway/atp/error.rs`, `gateway/atp/frame.rs`, `gateway/acl.rs`, `gateway/replay.rs`,
  `gateway/validator.rs`).

  `validateCmd` checks the token against the token store, the session of the connection, the
  role, the port, the path of a write, and that the id of the command is new.
-/
import Avix.Auth.AtpToken
import Avix.Types.Json

namespace Avix

open Lib

inductive AtpDomain where
  | auth
  | proc
  | signal
  | fs
  | snap
  | cron
  | users
  | crews
  | cap
  | sys
  | pipe
  | session
  deriving DecidableEq, Repr

/-- The `{:?}` text of a domain. -/
def AtpDomain.debug : AtpDomain → String
  | auth => "Auth"
  | proc => "Proc"
  | signal => "Signal"
  | fs => "Fs"
  | snap => "Snap"
  | cron => "Cron"
  | users => "Users"
  | crews => "Crews"
  | cap => "Cap"
  | sys => "Sys"
  | pipe => "Pipe"
  | session => "Session"

inductive AtpErrorCode where
  | eauth
  | eexpired
  | esession
  | eperm
  | enotfound
  | econflict
  | eused
  | elimit
  | eparse
  | einternal
  | eunavail
  deriving DecidableEq, Repr

/-- `atp::error::AtpError`; the detail is never set here. -/
structure AtpError where
  code : AtpErrorCode
  message : String
  deriving DecidableEq, Repr

/-- `atp::frame::AtpCmd`. -/
structure AtpCmd where
  id : String
  token : String
  domain : AtpDomain
  op : String
  body : Json

/-! ## Access control -/

def domainMinRole (domain : AtpDomain) (op : String) : Role :=
  match domain with
  | .auth => .guest
  | .proc => if op = "list" then .guest else if op = "setcap" then .operator else .user
  | .signal => .user
  | .fs => if op ∈ ["read", "list", "stat"] then .guest else .user
  | .snap => if op = "delete" then .operator else .user
  | .cron => .user
  | .users =>
    if op = "list" then .operator
    else if op ∈ ["create", "update", "delete"] then .admin
    else .user
  | .crews => if op ∈ ["create", "update", "delete", "join", "leave"] then .admin else .guest
  | .cap => if op = "inspect" then .operator else .admin
  | .sys =>
    if op ∈ ["status", "logs", "service-list", "tool-list"] then .user
    else if op ∈ ["install", "uninstall", "update"] then .operator
    else .admin
  | .pipe => .user
  | .session => .user

def checkDomainRole (domain : AtpDomain) (op : String) (caller : Role) : Except AtpError Unit :=
  refuseIf (caller < domainMinRole domain op)
    ⟨.eperm, "role '" ++ caller.display ++ "' cannot invoke domain '" ++ domain.debug ++ "' op '" ++
      op ++ "'"⟩

def checkAdminPort (domain : AtpDomain) (op : String) (isAdminPort : Bool) : Except AtpError Unit :=
  let requiresAdminPort := match domain with
    | .cap => true
    | .sys => op ∉ ["status", "logs", "service-list", "tool-list"]
    | _ => false
  refuseIf (requiresAdminPort = true ∧ isAdminPort = false)
    ⟨.eperm, "domain '" ++ domain.debug ++ "' op '" ++ op ++ "' requires admin port 7701"⟩

def checkFsHardVeto (path op : String) : Except AtpError Unit :=
  if op ≠ "write" then .ok ()
  else refuseIf (startsWith path "/secrets/" = true ∨ startsWith path "/proc/" = true)
    ⟨.eperm, "writes to '" ++ path ++ "' are unconditionally forbidden"⟩

/-- `replay::ReplayGuard`: the command ids a connection has seen. -/
abbrev ReplayGuard := Finset String

def ReplayGuard.checkAndRegister (seen : ReplayGuard) (id : String) :
    ReplayGuard × Except AtpError Unit :=
  if id ∈ seen then (seen, .error ⟨.eparse, "duplicate command id '" ++ id ++ "'"⟩)
  else (insert id seen, .ok ())

/-! ## Validation -/

structure ValidatedCmd where
  cmd : AtpCmd
  callerIdentity : String
  callerRole : Role
  callerSessionId : String

/-- The error a client gets for a token that is not valid. -/
def tokenError (e : AvixError) : AtpError :=
  if containsStr e.display "expired" then ⟨.eexpired, "token expired"⟩
  else ⟨.eauth, "invalid token: " ++ e.display⟩

/-- The path in the body of a command, `""` if there is none. -/
def AtpCmd.path (cmd : AtpCmd) : String := ((cmd.body.index "path").asStr).getD ""

/-- The veto of a command, if it is one of the file system. -/
def AtpCmd.checkVeto (cmd : AtpCmd) : Except AtpError Unit :=
  if cmd.domain = .fs then checkFsHardVeto cmd.path cmd.op else .ok ()

/-- The checks of `validate_cmd` before the replay guard. -/
def checkCmd (codec : TokenCodec) (store : ATPTokenStore) (now : DateTime) (cmd : AtpCmd)
    (boundSessionId : String) (isAdminPort : Bool) : Except AtpError ATPTokenClaims := do
  let claims ← (store.validate codec cmd.token now).mapError tokenError
  refuseIf (claims.sessionId ≠ boundSessionId) ⟨.esession, "session ID mismatch"⟩
  checkDomainRole cmd.domain cmd.op claims.role
  checkAdminPort cmd.domain cmd.op isAdminPort
  cmd.checkVeto
  return claims

def validateCmd (codec : TokenCodec) (store : ATPTokenStore) (seen : ReplayGuard)
    (now : DateTime) (cmd : AtpCmd) (boundSessionId : String) (isAdminPort : Bool) :
    ReplayGuard × Except AtpError ValidatedCmd :=
  match checkCmd codec store now cmd boundSessionId isAdminPort with
  | .error e => (seen, .error e)
  | .ok claims =>
    match seen.checkAndRegister cmd.id with
    | (seen, .error e) => (seen, .error e)
    | (seen, .ok ()) => (seen, .ok ⟨cmd, claims.sub, claims.role, claims.sessionId⟩)

/-- What an accepted command has passed. -/
structure Accepted (codec : TokenCodec) (store : ATPTokenStore) (now : DateTime) (cmd : AtpCmd)
    (boundSessionId : String) (isAdminPort : Bool) (claims : ATPTokenClaims) : Prop where
  token : store.validate codec cmd.token now = .ok claims
  session : claims.sessionId = boundSessionId
  role : ¬claims.role < domainMinRole cmd.domain cmd.op
  port : checkAdminPort cmd.domain cmd.op isAdminPort = .ok ()
  veto : cmd.checkVeto = .ok ()

section Spec

variable {codec : TokenCodec} {store : ATPTokenStore} {seen : ReplayGuard} {now : DateTime}
  {cmd : AtpCmd} {boundSessionId : String} {isAdminPort : Bool}

theorem checkCmd_eq_ok_iff {claims : ATPTokenClaims} :
    checkCmd codec store now cmd boundSessionId isAdminPort = .ok claims ↔
      Accepted codec store now cmd boundSessionId isAdminPort claims := by
  unfold checkCmd checkDomainRole
  simp only [bind_eq_ok_iff, mapError_eq_ok_iff, refuseIf_eq_ok_iff]
  constructor
  · rintro ⟨claims', htoken, -, hsess, -, hrole, _, hport, _, hveto, hret⟩
    obtain rfl : claims' = claims := Except.ok.inj hret
    exact ⟨htoken, not_not.mp hsess, hrole, hport, hveto⟩
  · intro h
    exact ⟨claims, h.token, (), not_not.mpr h.session, (), h.role, (), h.port, (), h.veto, rfl⟩

theorem validateCmd_eq_ok {seen' : ReplayGuard} {v : ValidatedCmd}
    (h : validateCmd codec store seen now cmd boundSessionId isAdminPort = (seen', .ok v)) :
    ∃ claims, Accepted codec store now cmd boundSessionId isAdminPort claims ∧ cmd.id ∉ seen ∧
      v = ⟨cmd, claims.sub, claims.role, claims.sessionId⟩ := by
  unfold validateCmd at h
  cases hcheck : checkCmd codec store now cmd boundSessionId isAdminPort with
  | error e =>
    rw [hcheck] at h
    cases h
  | ok claims =>
    rw [hcheck] at h
    unfold ReplayGuard.checkAndRegister at h
    by_cases hid : cmd.id ∈ seen
    · rw [if_pos hid] at h
      cases h
    · rw [if_neg hid] at h
      cases h
      exact ⟨claims, checkCmd_eq_ok_iff.mp hcheck, hid, rfl⟩

theorem validateCmd_of_accepted {claims : ATPTokenClaims}
    (h : Accepted codec store now cmd boundSessionId isAdminPort claims) (hid : cmd.id ∉ seen) :
    validateCmd codec store seen now cmd boundSessionId isAdminPort =
      (insert cmd.id seen, .ok ⟨cmd, claims.sub, claims.role, claims.sessionId⟩) := by
  unfold validateCmd ReplayGuard.checkAndRegister
  rw [checkCmd_eq_ok_iff.mpr h, if_neg hid]

end Spec

end Avix
