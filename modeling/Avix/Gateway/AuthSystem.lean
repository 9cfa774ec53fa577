/-
  Logins, refreshes and logouts as tasks (`gateway/server.rs`, `gateway/handlers/auth.rs`,
  `auth/service.rs`).

  Model. The token store and the session store are behind two locks, and no call holds a lock
  from one access to the next. A call is therefore a list of accesses (`AuthCall`), and a step is
  one access of one call, so that other calls and the clock come in between.

  * `handle_login` inserts the session and then issues its token.
  * `refresh_token` validates the token, then the session, and then issues a new token.
  * `logout` revokes the tokens of the session and then the session.

  `issued` records the tokens the server has handed out; it is not in the source.
-/
import Avix.Auth.Service
import Avix.Gateway.Validator

namespace Avix

open Lib

/-- The accesses a call has still to make. -/
inductive AuthCall where
  /-- `handle_login`: the token is to be issued. -/
  | loggedIn (entry : SessionEntry)
  /-- `refresh_token`: the session is to be validated, and then the token issued. -/
  | refreshing (claims : ATPTokenClaims)
  | reissuing (claims : ATPTokenClaims) (entry : SessionEntry)
  /-- `logout`: the session is to be revoked. -/
  | loggingOut (sessionId : String)
  | done

/-- A token the server has issued, and the session a refresh has seen. -/
structure IssuedToken where
  token : String
  claims : ATPTokenClaims
  refreshedIn : Option SessionEntry

structure AuthSystem where
  now : DateTime
  tokenStore : ATPTokenStore
  authSvc : AuthService
  calls : List AuthCall
  issued : List IssuedToken

inductive AuthInput where
  | tick (nanos : Nat)
  | login (identityName credential uuid : String)
  /-- `refresh_token` is called with a token. -/
  | refresh (token : String)
  | logout (sessionId : String)
  /-- `AuthService::revoke_session` on its own. -/
  | revokeSession (sessionId : String)
  /-- A command comes in on a connection. -/
  | command (cmd : AtpCmd) (seen : ReplayGuard) (boundSessionId : String) (isAdminPort : Bool)
  /-- The next access of the call with this number. -/
  | resume (i : Nat)

namespace AuthSystem

variable (codec : TokenCodec) (s : AuthSystem)

/-- A server without sessions. -/
def init (now : DateTime) (secret : String) (identities : List AuthIdentity) (ttl : Nat) :
    AuthSystem := ⟨now, ⟨secret, ∅⟩, ⟨identities, ∅, ttl⟩, [], []⟩

/-- Issue a token at the end of the call `i`. -/
def issue (i : Nat) (claims : ATPTokenClaims) (refreshedIn : Option SessionEntry) : AuthSystem :=
  { s with
    calls := s.calls.set i .done
    issued := s.issued ++ [⟨s.tokenStore.issue codec claims, claims, refreshedIn⟩] }

/-- The next access of the call `i`. -/
def access (i : Nat) : AuthCall → AuthSystem
  | .loggedIn entry => s.issue codec i (AuthService.loginClaims entry s.now) none
  | .refreshing claims =>
    match s.authSvc.validateSession claims.sessionId s.now with
    | .ok entry => { s with calls := s.calls.set i (.reissuing claims entry) }
    | .error _ => { s with calls := s.calls.set i .done }
  | .reissuing claims entry =>
    s.issue codec i (AuthService.refreshedClaims claims s.now) (some entry)
  | .loggingOut sessionId =>
    { s with
      authSvc := (s.authSvc.revokeSession sessionId).1
      calls := s.calls.set i .done }
  | .done => s

def step : AuthInput → AuthSystem
  | .tick nanos => { s with now := ⟨s.now.nanos + nanos⟩ }
  | .login identityName credential uuid =>
    match s.authSvc.login codec identityName credential uuid s.now with
    | (authSvc, .ok entry) => { s with authSvc, calls := s.calls ++ [.loggedIn entry] }
    | (_, .error _) => s
  | .refresh token =>
    match s.tokenStore.validate codec token s.now with
    | .ok claims => { s with calls := s.calls ++ [.refreshing claims] }
    | .error _ => s
  | .logout sessionId =>
    { s with
      tokenStore := s.tokenStore.revoke sessionId
      calls := s.calls ++ [.loggingOut sessionId] }
  | .revokeSession sessionId => { s with authSvc := (s.authSvc.revokeSession sessionId).1 }
  | .command _ _ _ _ => s
  | .resume i =>
    match s.calls[i]? with
    | some call => s.access codec i call
    | none => s

end AuthSystem

end Avix
