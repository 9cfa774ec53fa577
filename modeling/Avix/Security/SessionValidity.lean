/-
  SECURITY — the session behind an accepted command.

  `session_validity`: in every run of logins, refreshes, logouts, revocations, clock steps and
  commands, the token of every accepted command was issued by the server for a session that exists,
  is not revoked and has not expired, and no token from a refresh is valid after its session's
  expiry, if
  * the clock does not go past the end of a session that has a token which is then neither revoked
    nor expired,
  * a login or refresh issues its token before the session ends, and
  * `revoke_session` is called only after the tokens of the session have been revoked.

  None of this is checked. `validate_cmd` asks only the token store, a token lasts eight hours and a
  session one, and `revoke_session` does not tell the token store. A command two hours after the
  login is accepted (`accepted_after_expiry`).

  HMAC is unforgeable: a token whose signature verifies has been issued (`Unforged`).

  What carries the proof: no session of a token that could be used is over (`Covered`), and the
  stored session does not end before the one a call has seen (`Backed`).
-/
import Avix.Gateway.AuthSystem
import Avix.Lib.Run

namespace Avix.Security

open AuthSystem hiding issue

open Lib List Option ATPTokenStore AuthService

/-! ## Statement -/

/-- A token whose signature verifies is one the server has issued. -/
def Unforged (codec : TokenCodec) (s : AuthSystem) (token : String) : Prop :=
  ATPToken.Verifies codec token s.tokenStore.secret → ∃ i ∈ s.issued, i.token = token

/-- The session in which a call issues a token with its next access. -/
def issuesIn : AuthCall → Option SessionEntry
  | .loggedIn entry => some entry
  | .reissuing _ entry => some entry
  | _ => none

/-- The session that is stored for a token, or that its refresh has seen. -/
def SessionOf (s : AuthSystem) (i : IssuedToken) (entry : SessionEntry) : Prop :=
  s.authSvc.sessions.lookup i.claims.sessionId = some entry ∨ i.refreshedIn = some entry

/-- The session of the token is not over at `t`, unless the token is revoked or has expired. -/
def Covered (s : AuthSystem) (t : DateTime) (i : IssuedToken) : Prop :=
  i.claims.sessionId ∉ s.tokenStore.revoked → ¬i.claims.exp < t →
    ∀ entry, SessionOf s i entry → ¬entry.endsAt < t

/-- The condition on a step. -/
def InSession (codec : TokenCodec) (s : AuthSystem) : AuthInput → Prop
  | .command cmd _ _ _ => Unforged codec s cmd.token
  | .refresh token => Unforged codec s token
  | .tick nanos => ∀ i ∈ s.issued, Covered s ⟨s.now.nanos + nanos⟩ i
  | .revokeSession sessionId => sessionId ∈ s.tokenStore.revoked
  | .resume i => ∀ call entry, s.calls[i]? = some call → issuesIn call = some entry →
      ¬entry.endsAt < s.now
  | _ => True

/-- The session exists, is not revoked and has not expired. -/
def SessionLive (s : AuthSystem) (sessionId : String) : Prop :=
  sessionId ∉ s.tokenStore.revoked ∧
    ∃ entry, s.authSvc.sessions.lookup sessionId = some entry ∧ entry.isExpired s.now = false

/-! ## What every step keeps -/

def Known (s : AuthSystem) (sessionId : String) : Prop :=
  (s.authSvc.sessions.lookup sessionId).isSome = true ∨ sessionId ∈ s.tokenStore.revoked

/-- The session does not end before `t`, and nor would a new one. -/
def Backed (s : AuthSystem) (sessionId : String) (t : DateTime) : Prop :=
  t.nanos ≤ s.now.nanos + s.authSvc.ttl ∧
    ∀ entry, s.authSvc.sessions.lookup sessionId = some entry → t.nanos ≤ entry.endsAt.nanos

/-- The session a call is to issue a token for. -/
def sessionOf : AuthCall → Option String
  | .loggedIn entry => some entry.sessionId
  | .refreshing claims => some claims.sessionId
  | .reissuing claims _ => some claims.sessionId
  | _ => none

/-- A token as the server issues it. -/
structure Genuine (codec : TokenCodec) (s : AuthSystem) (i : IssuedToken) : Prop where
  token : i.token = s.tokenStore.issue codec i.claims
  known : Known s i.claims.sessionId
  covered : Covered s s.now i

/-- A call as it is added to the calls of the server. -/
structure CallSound (s : AuthSystem) (c : AuthCall) : Prop where
  known : ∀ sessionId, sessionOf c = some sessionId → Known s sessionId
  backed : ∀ sessionId entry, sessionOf c = some sessionId → issuesIn c = some entry →
    Backed s sessionId entry.endsAt
  revoked : ∀ sessionId, c = .loggingOut sessionId → sessionId ∈ s.tokenStore.revoked

structure AuthSound (codec : TokenCodec) (s : AuthSystem) : Prop where
  issued : ∀ i ∈ s.issued, Genuine codec s i
  calls : ∀ c ∈ s.calls, CallSound s c
  stored : ∀ sessionId entry, s.authSvc.sessions.lookup sessionId = some entry →
    Backed s sessionId entry.endsAt

section AuthSound

variable {codec : TokenCodec} {s s' : AuthSystem}

theorem authSound_init (now : DateTime) (secret : String) (identities : List AuthIdentity)
    (ttl : Nat) : AuthSound codec (.init now secret identities ttl) where
  issued _ hi := absurd hi not_mem_nil
  calls _ hc := absurd hc not_mem_nil
  stored _ _ h := by cases h

/-- What a step keeps of the sessions. -/
structure SessionsKept (s s' : AuthSystem) : Prop where
  secret : s'.tokenStore.secret = s.tokenStore.secret
  revoked : s.tokenStore.revoked ⊆ s'.tokenStore.revoked
  known : ∀ sessionId, Known s sessionId → Known s' sessionId
  backed : ∀ sessionId t, Backed s sessionId t → Backed s' sessionId t
  covered : ∀ i ∈ s.issued, Covered s s.now i → Covered s' s'.now i
  stored : ∀ sessionId entry, s'.authSvc.sessions.lookup sessionId = some entry →
    s.authSvc.sessions.lookup sessionId = some entry ∨ Backed s' sessionId entry.endsAt

/-- Neither store is touched. -/
theorem sessionsKept_of_eq (hstore : s'.tokenStore = s.tokenStore)
    (hsvc : s'.authSvc = s.authSvc) (hnow : s'.now = s.now) : SessionsKept s s' := by
  obtain ⟨now, tokenStore, authSvc, calls, issued⟩ := s'
  obtain rfl : tokenStore = s.tokenStore := hstore
  obtain rfl : authSvc = s.authSvc := hsvc
  obtain rfl : now = s.now := hnow
  exact ⟨rfl, Finset.Subset.refl _, fun _ h => h, fun _ _ h => h, fun _ _ h => h,
    fun _ _ h => .inl h⟩

theorem AuthSound.step (h : AuthSound codec s) (hkept : SessionsKept s s')
    (hiss : ∀ i ∈ s'.issued, i ∈ s.issued ∨ Genuine codec s' i)
    (hcalls : ∀ c ∈ s'.calls, c ∈ s.calls ∨ CallSound s' c) : AuthSound codec s' := by
  refine ⟨fun i hi => ?_, fun c hc => ?_, fun sessionId entry hentry => ?_⟩
  · rcases hiss i hi with hold | hnew
    · have hgen := h.issued i hold
      refine ⟨?_, hkept.known _ hgen.known, hkept.covered i hold hgen.covered⟩
      rw [hgen.token, issue, issue, hkept.secret]
    · exact hnew
  · rcases hcalls c hc with hold | hnew
    · have hsound := h.calls c hold
      exact ⟨fun id hid => hkept.known id (hsound.known id hid),
        fun id entry hid hentry => hkept.backed id _ (hsound.backed id entry hid hentry),
        fun id hid => hkept.revoked (hsound.revoked id hid)⟩
    · exact hnew
  · rcases hkept.stored sessionId entry hentry with hold | hnew
    · exact hkept.backed _ _ (h.stored sessionId entry hold)
    · exact hnew

theorem callSound_done : CallSound s .done := ⟨nofun, nofun, nofun⟩

variable {claims : ATPTokenClaims} {calls : List AuthCall} {c c' call : AuthCall} {i : Nat}

/-- A call has been replaced by a sound one. -/
theorem mem_set_or (hc : c ∈ calls.set i c') (hsound : CallSound s' c') :
    c ∈ calls ∨ CallSound s' c := by
  rcases mem_or_eq_of_mem_set hc with hold | rfl
  · exact .inl hold
  · exact .inr hsound

/-- A sound call has been added. -/
theorem mem_concat_or (hc : c ∈ calls ++ [c']) (hsound : CallSound s' c') :
    c ∈ calls ∨ CallSound s' c := by
  rcases mem_append.mp hc with hold | hnew
  · exact .inl hold
  · rw [mem_singleton.mp hnew]
    exact .inr hsound

/-- A session whose tokens are revoked is removed. -/
theorem sessionsKept_revokeSession {sessionId : String}
    (hrev : sessionId ∈ s.tokenStore.revoked)
    (hsess : s'.authSvc = (s.authSvc.revokeSession sessionId).1)
    (hstore : s'.tokenStore = s.tokenStore) (hnow : s'.now = s.now) : SessionsKept s s' := by
  -- the sessions that are left
  have hleft : ∀ id entry, s'.authSvc.sessions.lookup id = some entry →
      s.authSvc.sessions.lookup id = some entry := by
    intro id entry hentry
    rw [hsess] at hentry
    unfold revokeSession at hentry
    split_ifs at hentry
    · by_cases heq : id = sessionId
      · rw [heq, AList.lookup_erase] at hentry
        cases hentry
      · rw [AList.lookup_erase_ne heq] at hentry
        exact hentry
    · exact hentry
  have httl : s'.authSvc.ttl = s.authSvc.ttl := by
    rw [hsess]
    unfold revokeSession
    split_ifs <;> rfl
  refine ⟨by rw [hstore], by rw [hstore], fun id hid => ?_, fun id t hback => ?_,
    fun i hi hcov => ?_, fun id entry hentry => .inl (hleft id entry hentry)⟩
  · unfold Known at hid ⊢
    rw [hstore, hsess]
    by_cases heq : id = sessionId
    · rw [heq]
      exact .inr hrev
    refine hid.imp_left fun hsome => ?_
    unfold revokeSession
    split_ifs
    · rw [AList.lookup_erase_ne heq]
      exact hsome
    · exact hsome
  · refine ⟨?_, fun entry hentry => hback.2 entry (hleft id entry hentry)⟩
    rw [hnow, httl]
    exact hback.1
  · unfold Covered at hcov ⊢
    rw [hstore, hnow]
    exact fun hunrev hfresh entry hentry =>
      hcov hunrev hfresh entry (hentry.imp_left (hleft _ entry))

/-- A token that validates was issued, and stands for a known session. -/
theorem issued_of_validate (h : AuthSound codec s) {token : String}
    (hunf : Unforged codec s token)
    (hvalid : s.tokenStore.validate codec token s.now = .ok claims) :
    (∃ i ∈ s.issued, i.token = token ∧ i.claims = claims) ∧ ¬claims.exp < s.now := by
  obtain ⟨htoken, -⟩ := validate_eq_ok_iff.mp hvalid
  obtain ⟨i, hi, rfl⟩ := hunf (ATPToken.verifies_of_validate htoken)
  have hgen := h.issued i hi
  rw [hgen.token, issue, ATPToken.validate_issue_eq_ok_iff,
    ATPTokenClaims.isExpired, decide_eq_false_iff_not] at htoken
  obtain ⟨rfl, hfresh⟩ := htoken
  exact ⟨⟨i, hi, rfl, rfl⟩, hfresh⟩

/-- A call issues a token in a session that is not over. -/
theorem authSound_issue (h : AuthSound codec s) {entry : SessionEntry}
    {refreshedIn : Option SessionEntry} (hcall : s.calls[i]? = some call)
    (hinS : InSession codec s (.resume i)) (hiss : issuesIn call = some entry)
    (hsess : sessionOf call = some claims.sessionId)
    (hrefr : ∀ e, refreshedIn = some e → e = entry) :
    AuthSound codec (s.issue codec i claims refreshedIn) := by
  have hsound := h.calls call (mem_of_getElem? hcall)
  have hlasts : ¬entry.endsAt < s.now := hinS call entry hcall hiss
  have hle : s.now.nanos ≤ entry.endsAt.nanos := not_lt.mp hlasts
  have hback := hsound.backed _ entry hsess hiss
  refine h.step (sessionsKept_of_eq rfl rfl rfl) (fun i hi => ?_)
    (fun c hc => mem_set_or hc callSound_done)
  rcases mem_append.mp hi with hold | hnew
  · exact .inl hold
  rw [mem_singleton.mp hnew]
  refine .inr ⟨rfl, hsound.known _ hsess, fun _ _ e he => ?_⟩
  rcases he with hstored | hseen
  · exact not_lt.mpr (hle.trans (hback.2 e hstored))
  · rw [hrefr e hseen]
    exact hlasts

theorem authSound_access (h : AuthSound codec s) (hcall : s.calls[i]? = some call)
    (hinS : InSession codec s (.resume i)) : AuthSound codec (s.access codec i call) := by
  have hsound := h.calls call (mem_of_getElem? hcall)
  cases call with
  | loggedIn entry => exact authSound_issue h hcall hinS rfl rfl nofun
  | refreshing claims =>
    unfold access
    dsimp only
    split
    · next entry hentry =>
      have hlook := (validateSession_eq_ok_iff.mp hentry).1
      refine h.step (sessionsKept_of_eq rfl rfl rfl) (fun i hi => .inl hi) fun c hc =>
        mem_set_or hc ⟨fun id hid => hsound.known id hid, fun id e hid he => ?_, nofun⟩
      rw [← some.inj hid, ← some.inj he]
      exact h.stored _ entry hlook
    · exact h.step (sessionsKept_of_eq rfl rfl rfl) (fun i hi => .inl hi)
        (fun c hc => mem_set_or hc callSound_done)
  | reissuing claims entry =>
    exact authSound_issue h hcall hinS rfl rfl fun e he => (some.inj he).symm
  | loggingOut sessionId =>
    exact h.step (sessionsKept_revokeSession (hsound.revoked sessionId rfl) rfl rfl rfl)
      (fun i hi => .inl hi) (fun c hc => mem_set_or hc callSound_done)
  | done => exact h

theorem sessionsKept_login (identity : AuthIdentity) (uuid : String) (calls : List AuthCall) :
    SessionsKept s { s with
      authSvc := { s.authSvc with
        sessions := s.authSvc.sessions.insert uuid (s.authSvc.entryFor identity uuid s.now) }
      calls } := by
  refine ⟨rfl, Finset.Subset.refl _, fun id hid => hid.imp_left fun hsome => ?_,
    fun id t hback => ⟨hback.1, fun entry hentry => ?_⟩,
    fun i _ hcov hunrev hfresh entry hentry => ?_, fun id entry hentry => ?_⟩
  · by_cases heq : id = uuid
    · rw [heq, AList.lookup_insert]
      rfl
    · rw [AList.lookup_insert_ne heq]
      exact hsome
  · rcases HashMap.of_lookup_insert hentry with ⟨-, rfl⟩ | ⟨-, hold⟩
    · exact hback.1
    · exact hback.2 entry hold
  · rcases hentry with hstored | hseen
    · rcases HashMap.of_lookup_insert hstored with ⟨-, rfl⟩ | ⟨-, hold⟩
      · change ¬s.now.nanos + s.authSvc.ttl < s.now.nanos
        omega
      · exact hcov hunrev hfresh entry (.inl hold)
    · exact hcov hunrev hfresh entry (.inr hseen)
  · rcases HashMap.of_lookup_insert hentry with ⟨rfl, rfl⟩ | ⟨-, hold⟩
    · refine .inr ⟨le_refl _, fun e he => ?_⟩
      obtain rfl : _ = e := some.inj (hentry.symm.trans he)
      exact le_refl _
    · exact .inl hold

theorem authSound_login (h : AuthSound codec s) (identityName credential uuid : String) :
    AuthSound codec (s.step codec (.login identityName credential uuid)) := by
  unfold step login
  dsimp only
  cases s.authSvc.identify codec identityName credential with
  | error e => exact h
  | ok identity =>
    dsimp only
    have hnew : (s.authSvc.sessions.insert uuid
        (s.authSvc.entryFor identity uuid s.now)).lookup uuid =
        some (s.authSvc.entryFor identity uuid s.now) := AList.lookup_insert _
    refine h.step (sessionsKept_login identity uuid _) (fun i hi => .inl hi) fun c hc =>
      mem_concat_or hc ⟨fun id hid => .inl ?_, fun id entry hid hentry => ?_, nofun⟩
    · rw [← some.inj hid]
      exact isSome_iff_exists.mpr ⟨_, hnew⟩
    · rw [← some.inj hid, ← some.inj hentry]
      refine ⟨le_refl _, fun e he => ?_⟩
      obtain rfl : _ = e := some.inj (hnew.symm.trans he)
      exact le_refl _

theorem authSound_step (s : AuthSystem) (input : AuthInput) (h : AuthSound codec s)
    (hinS : InSession codec s input) : AuthSound codec (s.step codec input) := by
  cases input with
  | tick nanos =>
    refine h.step ⟨rfl, Finset.Subset.refl _, fun _ hid => hid, fun id t hback => ?_,
      fun i hi _ => hinS i hi, fun _ _ hentry => .inl hentry⟩ (fun i hi => .inl hi)
      fun c hc => .inl hc
    refine ⟨?_, hback.2⟩
    change t.nanos ≤ s.now.nanos + nanos + s.authSvc.ttl
    have := hback.1
    omega
  | login identityName credential uuid => exact authSound_login h identityName credential uuid
  | refresh token =>
    unfold step
    dsimp only
    split
    · next claims hvalid =>
      obtain ⟨⟨i, hi, -, rfl⟩, -⟩ := issued_of_validate h hinS hvalid
      refine h.step (sessionsKept_of_eq rfl rfl rfl) (fun i hi => .inl hi) fun c hc =>
        mem_concat_or hc ⟨fun id hid => ?_, nofun, nofun⟩
      rw [← some.inj hid]
      exact (h.issued i hi).known
    · exact h
  | logout sessionId =>
    refine h.step ⟨rfl, Finset.subset_insert _ _,
      fun id hknown => hknown.imp_right (Finset.mem_insert_of_mem ·), fun _ _ hback => hback,
      fun i _ hcov hunrev => hcov fun hrev => hunrev (Finset.mem_insert_of_mem hrev),
      fun _ _ hentry => .inl hentry⟩ (fun i hi => .inl hi) fun c hc =>
        mem_concat_or hc ⟨nofun, nofun, fun id hid => ?_⟩
    rw [← AuthCall.loggingOut.inj hid]
    exact Finset.mem_insert_self _ _
  | revokeSession sessionId =>
    exact h.step (sessionsKept_revokeSession hinS rfl rfl rfl) (fun i hi => .inl hi)
      (fun c hc => .inl hc)
  | command cmd seen boundSessionId isAdminPort => exact h
  | resume i =>
    unfold step
    dsimp only
    cases hcall : s.calls[i]? with
    | none => exact h
    | some call => exact authSound_access h hcall hinS

end AuthSound

/-! ## Main statement -/

theorem session_validity (codec : TokenCodec) (now : DateTime) (secret : String)
    (identities : List AuthIdentity) (ttl : Nat) (es : List AuthInput)
    (hguard : Guarded (AuthSystem.step codec) (InSession codec)
      (.init now secret identities ttl) es) :
    let s := run (step codec) (.init now secret identities ttl) es
    (∀ cmd seen boundSessionId isAdminPort seen' v,
      InSession codec s (.command cmd seen boundSessionId isAdminPort) →
      validateCmd codec s.tokenStore seen s.now cmd boundSessionId isAdminPort = (seen', .ok v) →
      (∃ i ∈ s.issued, i.token = cmd.token ∧ i.claims.sessionId = v.callerSessionId) ∧
        SessionLive s v.callerSessionId) ∧
    (∀ i ∈ s.issued, ∀ entry, i.refreshedIn = some entry → entry.isExpired s.now = true →
      ∀ claims, s.tokenStore.validate codec i.token s.now ≠ .ok claims) := by
  intro s
  have hsound : AuthSound codec s :=
    guarded_invariant authSound_step (authSound_init now secret identities ttl) hguard
  constructor
  · intro cmd seen boundSessionId isAdminPort seen' v hunf haccept
    obtain ⟨claims, hacc, -, rfl⟩ := validateCmd_eq_ok haccept
    obtain ⟨⟨i, hi, htoken, rfl⟩, hfresh⟩ := issued_of_validate hsound hunf hacc.token
    have hgen := hsound.issued i hi
    have hrev := (validate_eq_ok_iff.mp hacc.token).2
    obtain ⟨entry, hentry⟩ :=
      isSome_iff_exists.mp (hgen.known.resolve_right hrev)
    refine ⟨⟨i, hi, htoken, rfl⟩, hrev, entry, hentry, SessionEntry.isExpired_eq_false_iff.mpr ?_⟩
    exact hgen.covered hrev hfresh entry (.inl hentry)
  · intro i hi entry hentry hexp claims hvalid
    have hgen := hsound.issued i hi
    rw [validate_eq_ok_iff, hgen.token, issue,
      ATPToken.validate_issue_eq_ok_iff, ATPTokenClaims.isExpired,
      decide_eq_false_iff_not] at hvalid
    obtain ⟨⟨rfl, hfresh⟩, hrev⟩ := hvalid
    have hends := hgen.covered hrev hfresh entry (.inr hentry)
    rw [SessionEntry.isExpired_eq_false_iff.mpr hends] at hexp
    cases hexp

/-! ## A command after the expiry of its session -/

/-- A codec with any message authentication. -/
noncomputable def anyCodec : TokenCodec := .plain fun _ _ => []

def alice : AuthIdentity := ⟨"alice", 1001, .user, .password ""⟩

/-- A server with one identity; sessions last `hours` hours. -/
def serverOf (hours : Nat) : AuthSystem :=
  .init ⟨0⟩ "secret" [alice] (hours * (AuthService.new []).ttl)

def aliceLogsIn : List AuthInput := [.login "alice" "pw" "s-1", .resume 0]

def aliceEntry (hours : Nat) : SessionEntry := (serverOf hours).authSvc.entryFor alice "s-1" ⟨0⟩

def aliceClaims : ATPTokenClaims := AuthService.loginClaims (aliceEntry 1) ⟨0⟩

noncomputable def aliceToken : String := ATPToken.issue anyCodec aliceClaims "secret"

noncomputable def aliceCmd : AtpCmd := ⟨"c-1", aliceToken, .proc, "list", .null⟩

/-- The token of Alice is accepted for eight hours. -/
theorem aliceCmd_accepted (now : DateTime) (h : aliceClaims.isExpired now = false) :
    validateCmd anyCodec ⟨"secret", ∅⟩ ∅ now aliceCmd "s-1" false =
      (insert "c-1" ∅, .ok ⟨aliceCmd, "alice", .user, "s-1"⟩) := by
  have htoken : validate anyCodec ⟨"secret", ∅⟩ aliceCmd.token now = .ok aliceClaims :=
    validate_eq_ok_iff.mpr
      ⟨ATPToken.validate_issue_eq_ok_iff.mpr ⟨rfl, h⟩, Finset.notMem_empty _⟩
  have hacc : Accepted anyCodec ⟨"secret", ∅⟩ now aliceCmd "s-1" false aliceClaims :=
    ⟨htoken, rfl, by decide, rfl, rfl⟩
  exact validateCmd_of_accepted hacc (Finset.notMem_empty _)

noncomputable def twoHoursLater : AuthSystem :=
  run (AuthSystem.step anyCodec) (serverOf 1) (aliceLogsIn ++ [.tick (2 * 3600 * 1000000000)])

/-- The session has expired, and a command is accepted. -/
theorem accepted_after_expiry : ∃ seen v entry,
    validateCmd anyCodec twoHoursLater.tokenStore ∅ twoHoursLater.now aliceCmd "s-1" false =
        (seen, .ok v) ∧
      twoHoursLater.authSvc.sessions.lookup "s-1" = some entry ∧
      entry.isExpired twoHoursLater.now = true :=
  ⟨_, _, aliceEntry 1, aliceCmd_accepted twoHoursLater.now (by decide), rfl, by decide⟩

/-! ## A refresh, and a logout before the session ends -/

theorem refresh_step {codec : TokenCodec} {s : AuthSystem} {token : String}
    {claims : ATPTokenClaims} (h : s.tokenStore.validate codec token s.now = .ok claims) :
    s.step codec (.refresh token) = { s with calls := s.calls ++ [.refreshing claims] } := by
  unfold step
  dsimp only
  rw [h]

/-- One minute after the login. -/
noncomputable def aliceIn : AuthSystem :=
  run (AuthSystem.step anyCodec) (serverOf 1) (aliceLogsIn ++ [.tick (60 * 1000000000)])

theorem aliceToken_valid :
    aliceIn.tokenStore.validate anyCodec aliceToken aliceIn.now = .ok aliceClaims :=
  validate_eq_ok_iff.mpr
    ⟨ATPToken.validate_issue_eq_ok_iff.mpr ⟨rfl, by decide⟩, Finset.notMem_empty _⟩

noncomputable def aliceRefreshes : List AuthInput :=
  aliceLogsIn ++ [.tick (60 * 1000000000)] ++ [.refresh aliceToken, .resume 1, .resume 1]

noncomputable def aliceRefreshed : IssuedToken :=
  ⟨ATPToken.issue anyCodec (AuthService.refreshedClaims aliceClaims aliceIn.now) "secret",
    AuthService.refreshedClaims aliceClaims aliceIn.now, some (aliceEntry 1)⟩

noncomputable def aliceOut : AuthSystem :=
  { aliceIn with calls := [.done, .done], issued := aliceIn.issued ++ [aliceRefreshed] }

theorem run_aliceRefreshes :
    run (AuthSystem.step anyCodec) (serverOf 1) aliceRefreshes = aliceOut := by
  rw [aliceRefreshes, run_append]
  change run (step anyCodec) (aliceIn.step anyCodec (.refresh aliceToken))
    [.resume 1, .resume 1] = aliceOut
  rw [refresh_step aliceToken_valid]
  rfl

/-- Alice logs out, and two hours go by. -/
def aliceLeaves : List AuthInput := [.logout "s-1", .resume 2, .tick (2 * 3600 * 1000000000)]

theorem aliceRefreshes_inSession : Guarded (AuthSystem.step anyCodec) (InSession anyCodec)
    (serverOf 1) (aliceRefreshes ++ aliceLeaves) := by
  refine guarded_append.mpr ⟨guarded_append.mpr ⟨⟨trivial, ?_, ?_, trivial⟩, ?_, ?_⟩, ?_⟩
  · intro call entry hcall hentry
    obtain rfl : AuthCall.loggedIn (aliceEntry 1) = call := some.inj hcall
    obtain rfl : aliceEntry 1 = entry := some.inj hentry
    decide
  · intro i hi _ _ entry hentry
    rw [mem_singleton.mp hi] at hentry
    rcases hentry with hstored | hseen
    · obtain rfl : aliceEntry 1 = entry := some.inj hstored
      decide
    · cases hseen
  · exact fun _ => ⟨⟨aliceToken, aliceClaims, none⟩, mem_singleton_self _, rfl⟩
  · change Guarded (step anyCodec) (InSession anyCodec)
      (aliceIn.step anyCodec (.refresh aliceToken)) [.resume 1, .resume 1]
    rw [refresh_step aliceToken_valid]
    refine ⟨fun call entry hcall hentry => ?_, fun call entry hcall hentry => ?_, trivial⟩
    · obtain rfl : AuthCall.refreshing aliceClaims = call := some.inj hcall
      cases hentry
    · obtain rfl : AuthCall.reissuing aliceClaims (aliceEntry 1) = call := some.inj hcall
      obtain rfl : aliceEntry 1 = entry := some.inj hentry
      decide
  · rw [run_aliceRefreshes]
    refine ⟨trivial, fun call entry hcall hentry => ?_, fun i hi hunrev => ?_, trivial⟩
    · obtain rfl : AuthCall.loggingOut "s-1" = call := some.inj hcall
      cases hentry
    · -- both tokens are of the session that is revoked
      have hsess : i.claims.sessionId = "s-1" := by
        rcases mem_cons.mp hi with rfl | hi
        · rfl
        · rw [mem_singleton.mp hi]
          rfl
      rw [hsess] at hunrev
      exact absurd (Finset.mem_insert_self _ _) hunrev

theorem session_validity_alice :
    let gone := run (AuthSystem.step anyCodec) aliceOut aliceLeaves
    SessionLive aliceOut "s-1" ∧ (aliceEntry 1).isExpired gone.now = true ∧
      ∀ claims, gone.tokenStore.validate anyCodec aliceRefreshed.token gone.now ≠ .ok claims := by
  intro gone
  obtain ⟨hcomm, -⟩ := session_validity anyCodec ⟨0⟩ "secret" [alice] _ aliceRefreshes
    (guarded_append.mp aliceRefreshes_inSession).1
  obtain ⟨-, hrefr⟩ := session_validity anyCodec ⟨0⟩ "secret" [alice] _ _ aliceRefreshes_inSession
  have hrun : run (step anyCodec) (.init ⟨0⟩ "secret" [alice] (1 * (new []).ttl))
      aliceRefreshes = aliceOut := run_aliceRefreshes
  rw [hrun] at hcomm
  rw [run_append, hrun] at hrefr
  have hinS : InSession anyCodec aliceOut (.command aliceCmd ∅ "s-1" false) :=
    fun _ => ⟨⟨aliceToken, aliceClaims, none⟩, mem_append_left _ (mem_singleton_self _), rfl⟩
  have hacc : validateCmd anyCodec aliceOut.tokenStore ∅ aliceOut.now aliceCmd "s-1" false =
      (insert "c-1" ∅, .ok ⟨aliceCmd, "alice", .user, "s-1"⟩) := aliceCmd_accepted _ (by decide)
  have hexp : (aliceEntry 1).isExpired gone.now = true := by decide
  have hmem : aliceRefreshed ∈ gone.issued := mem_append_right _ (mem_singleton_self _)
  exact ⟨(hcomm aliceCmd ∅ "s-1" false _ _ hinS hacc).2, hexp,
    hrefr aliceRefreshed hmem (aliceEntry 1) rfl hexp⟩

end Avix.Security
