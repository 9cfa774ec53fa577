/-
  SECURITY — events after the revocation of a session.

  `revocation_stops_events`: in every run of publishers, logins, logouts, revocations,
  upgrades and connections whose steps meet `EndsQuietly`: once the revocation of a session has
  been completed, no event is written on a connection of the session, no connection of it is
  opened, and its filters stay as they are.

  `EndsQuietly` asks that
  * a revocation is completed only when the tokens of the session are revoked, no upgrade of the
    session is under way, and every open connection of the session has not subscribed, has
    written its events and handles no frame;
  * no Subscribe frame comes on an open connection of a revoked session.

  Neither is checked. The pump and the Subscribe branch run off the filter that was made when the
  connection was opened, and nothing closes the connections of a session (`events_after_logout`).

  What carries the proof is `Silenced`.
-/
import Avix.Gateway.Connections
import Avix.Security.SessionValidity

namespace Avix.Security

open GatewayConnection hiding step

open Lib ConnectionSystem List ATPTokenStore

/-! ## Statement -/

/-- The connection is closed, or it has nothing to write and gets nothing to write. -/
def SilentConnection (c : GatewayConnection) : Prop :=
  c.isOpen = false ∨ c.filter.subscribed = [] ∧ c.reader = .idle ∧ c.outbox = []

/-- Nothing of the session is left that could write an event. -/
structure Silenced (s : ConnectionSystem) (sessionId : String) : Prop where
  tokens : sessionId ∈ s.auth.tokenStore.revoked
  upgrades : ∀ claims ∈ s.upgrading, claims.sessionId ≠ sessionId
  connections : ∀ c ∈ s.connections, c.filter.sessionId = sessionId → SilentConnection c

/-- The condition on a step. -/
def EndsQuietly (s : ConnectionSystem) : GatewayInput → Prop
  | .auth e => ∀ sessionId, s.auth.completes e = some sessionId → Silenced s sessionId
  | .connection i (.subscribe _ _) => ∀ c, s.connections[i]? = some c → c.isOpen = true →
    c.filter.sessionId ∉ s.revoked
  | _ => True

/-- The connections of revoked sessions are the same, with the same filters, and have written
    the same events. -/
def Unheard (s s' : ConnectionSystem) : Prop :=
  ∀ sessionId ∈ s.revoked, sessionId ∈ s'.revoked ∧
    ∀ (i : Nat) (c' : GatewayConnection), s'.connections[i]? = some c' →
      c'.filter.sessionId = sessionId →
      ∃ c, s.connections[i]? = some c ∧ c'.sent = c.sent ∧ c'.filter = c.filter

/-! ## One connection -/

section Connection

variable {codec : TokenCodec} {auth : AuthSystem} {ring : List BusEvent} {c : GatewayConnection}

/-- What a silent connection keeps. -/
structure Keeps (c c' : GatewayConnection) : Prop where
  silent : SilentConnection c'
  sent : c'.sent = c.sent
  filter : c'.filter = c.filter

theorem keeps_self (h : SilentConnection c) : Keeps c c := ⟨h, rfl, rfl⟩

theorem keeps_forward (h : SilentConnection c) (ev : BusEvent) : Keeps c (c.forward ev) := by
  have hsame : c.forward ev = c := by
    unfold forward send
    rcases h with hclos | ⟨huns, -⟩
    · rw [hclos, if_neg Bool.false_ne_true, ite_self]
    · rw [EventFilter.shouldReceive_of_unsubscribed huns, if_neg Bool.false_ne_true]
  rw [hsame]
  exact keeps_self h

/-- A command of a session with revoked tokens is rejected. -/
theorem validateCmd_of_revoked {seen : ReplayGuard} {cmd : AtpCmd} {sessionId : String}
    {isAdminPort : Bool} (hrev : sessionId ∈ auth.tokenStore.revoked) (v : ValidatedCmd) :
    (validateCmd codec auth.tokenStore seen auth.now cmd sessionId isAdminPort).2 ≠ .ok v := by
  intro h
  obtain ⟨claims, hacc, -⟩ := validateCmd_eq_ok (Prod.ext rfl h)
  have hvalid := validate_eq_ok_iff.mp hacc.token
  rw [hacc.session] at hvalid
  exact hvalid.2 hrev

/-- A step of the reader loop of an open connection that handles no frame. -/
theorem keeps_read (huns : c.filter.subscribed = []) (hidle : c.reader = .idle)
    (hout : c.outbox = []) (hrev : c.filter.sessionId ∈ auth.tokenStore.revoked)
    {e : ConnectionInput} (he : ∀ events sinceSeq, e ≠ .subscribe events sinceSeq) :
    Keeps c (c.read codec auth ring .idle e) := by
  have hself := keeps_self (.inr ⟨huns, hidle, hout⟩)
  cases e with
  | subscribe events sinceSeq => exact absurd rfl (he events sinceSeq)
  | command cmd seen isAdminPort =>
    unfold GatewayConnection.read
    dsimp only
    cases hv : (validateCmd codec auth.tokenStore seen auth.now cmd c.filter.sessionId
        isAdminPort).2 with
    | error e => exact hself
    | ok v => exact absurd hv (validateCmd_of_revoked hrev v)
  | _ => exact hself

theorem keeps_step (h : SilentConnection c) (hrev : c.filter.sessionId ∈ auth.tokenStore.revoked)
    {e : ConnectionInput}
    (he : c.isOpen = true → ∀ events sinceSeq, e ≠ .subscribe events sinceSeq) :
    Keeps c (c.step codec auth ring e) := by
  have hread : Keeps c (if c.isOpen then c.read codec auth ring c.reader e else c) := by
    split_ifs with hopen
    · rcases h with hclos | ⟨huns, hidle, hout⟩
      · rw [hclos] at hopen
        cases hopen
      · rw [hidle]
        exact keeps_read huns hidle hout hrev (he hopen)
    · exact keeps_self h
  cases e with
  | pumpReceive =>
    unfold GatewayConnection.step
    dsimp only
    split
    · exact ⟨h, rfl, rfl⟩
    · exact keeps_self h
  | pumpForward =>
    unfold GatewayConnection.step
    dsimp only
    split
    · next ev _ =>
      have hforw := keeps_forward h ev
      exact ⟨hforw.silent, hforw.sent, hforw.filter⟩
    · exact keeps_self h
  | write =>
    unfold GatewayConnection.step
    dsimp only
    split
    · next ev outbox hopen hout =>
      rcases h with hclos | ⟨-, -, hempty⟩
      · rw [hclos] at hopen
        cases hopen
      · rw [hempty] at hout
        cases hout
    · exact keeps_self h
  | close => exact ⟨.inl rfl, rfl, rfl⟩
  | _ => exact hread

theorem sessionId_step (e : ConnectionInput) :
    (c.step codec auth ring e).filter.sessionId = c.filter.sessionId := by
  have hsend : ∀ ev, (c.send ev).filter = c.filter := by
    intro ev
    unfold send
    split_ifs <;> rfl
  have hforw : ∀ ev, (c.forward ev).filter = c.filter := by
    intro ev
    unfold forward
    split_ifs
    · exact hsend _
    · rfl
  have hread : ∀ pc, (c.read codec auth ring pc e).filter.sessionId = c.filter.sessionId := by
    intro pc
    unfold GatewayConnection.read
    split
    · split <;> rfl
    · rfl
    · exact congrArg EventFilter.sessionId (hsend _)
    · rfl
    · rfl
    · exact congrArg EventFilter.sessionId (hforw _)
    · rfl
    · rfl
  unfold GatewayConnection.step
  split
  · split <;> rfl
  · split
    · exact congrArg EventFilter.sessionId (hforw _)
    · rfl
  · split <;> rfl
  · rfl
  · split_ifs
    · exact hread _
    · rfl

end Connection

/-! ## One step of the gateway -/

section Step

variable {codec : TokenCodec} {s s' : ConnectionSystem} {sessionId : String}

/-- The connections of the session were there before, and have kept what they had. -/
def Followed (s s' : ConnectionSystem) (sessionId : String) : Prop :=
  ∀ (i : Nat) (c' : GatewayConnection), s'.connections[i]? = some c' →
    c'.filter.sessionId = sessionId → ∃ c, s.connections[i]? = some c ∧ Keeps c c'

theorem followed_of_eq (h : Silenced s sessionId) (heq : s'.connections = s.connections) :
    Followed s s' sessionId := by
  intro i c' hc' hsess
  rw [heq] at hc'
  exact ⟨c', hc', keeps_self (h.connections c' (mem_of_getElem? hc') hsess)⟩

theorem Silenced.of_followed (h : Silenced s sessionId)
    (htok : s.auth.tokenStore.revoked ⊆ s'.auth.tokenStore.revoked)
    (hupgr : ∀ claims ∈ s'.upgrading, claims ∈ s.upgrading ∨ claims.sessionId ≠ sessionId)
    (hfoll : Followed s s' sessionId) : Silenced s' sessionId where
  tokens := htok h.tokens
  upgrades claims hclaims := (hupgr claims hclaims).elim (h.upgrades claims) id
  connections c' hc' hsess := by
    obtain ⟨i, hi⟩ := getElem?_of_mem hc'
    obtain ⟨_, _, hkeeps⟩ := hfoll i c' hi hsess
    exact hkeeps.silent

theorem revoked_subset_step (auth : AuthSystem) (e : AuthInput) :
    auth.tokenStore.revoked ⊆ (auth.step codec e).tokenStore.revoked := by
  have hacc : ∀ i call, (auth.access codec i call).tokenStore = auth.tokenStore := by
    intro i call
    cases call with
    | refreshing claims =>
      unfold AuthSystem.access
      dsimp only
      split <;> rfl
    | _ => rfl
  unfold AuthSystem.step
  split
  · exact Finset.Subset.refl _
  · split <;> exact Finset.Subset.refl _
  · split <;> exact Finset.Subset.refl _
  · exact Finset.subset_insert _ _
  · exact Finset.Subset.refl _
  · exact Finset.Subset.refl _
  · split
    · rw [hacc]
    · exact Finset.Subset.refl _

/-- Publishing reaches the bus of a connection only. -/
theorem followed_publishNext (h : Silenced s sessionId) (i : Nat) (locked : Bool) :
    Followed s (s.publishNext i locked) sessionId := by
  unfold publishNext
  split
  · exact followed_of_eq h rfl
  · intro j c' hc' hsess
    dsimp only at hc'
    rw [getElem?_map, Option.map_eq_some_iff] at hc'
    obtain ⟨c, hc, rfl⟩ := hc'
    have hsil : SilentConnection c := h.connections c (mem_of_getElem? hc) hsess
    exact ⟨c, hc, hsil, rfl, rfl⟩
  · exact followed_of_eq h rfl

theorem upgrading_publishNext (i : Nat) (locked : Bool) :
    (s.publishNext i locked).upgrading = s.upgrading ∧
      (s.publishNext i locked).auth = s.auth ∧ (s.publishNext i locked).revoked = s.revoked := by
  unfold publishNext
  split <;> exact ⟨rfl, rfl, rfl⟩

section

variable (h : Silenced s sessionId)

include h

/-- A new connection is of a session whose upgrade is under way. -/
theorem followed_connect (i : Nat) : Followed s (s.step codec (.connect i)) sessionId := by
  unfold step
  dsimp only
  split
  · next claims hcla =>
    intro j c' hc' hsess
    dsimp only at hc'
    have hother : claims.sessionId ≠ sessionId := h.upgrades claims (mem_of_getElem? hcla)
    by_cases hj : j < s.connections.length
    · rw [getElem?_append_left hj] at hc'
      exact ⟨c', hc', keeps_self (h.connections c' (mem_of_getElem? hc') hsess)⟩
    · rw [getElem?_append_right (Nat.le_of_not_lt hj)] at hc'
      have hc : c' = .new claims := mem_singleton.mp (mem_of_getElem? hc')
      rw [hc] at hsess
      exact absurd hsess hother
  · exact followed_of_eq h rfl

theorem followed_connection (hrev : sessionId ∈ s.revoked) {i : Nat} {e : ConnectionInput}
    (hguard : EndsQuietly s (.connection i e)) :
    Followed s (s.step codec (.connection i e)) sessionId := by
  intro j c' hc' hsess
  change (s.connections.modify i (·.step codec s.auth s.ring e))[j]? = some c' at hc'
  rw [getElem?_modify, Option.map_eq_map, Option.map_eq_some_iff] at hc'
  obtain ⟨c, hc, hstep⟩ := hc'
  have hmem := mem_of_getElem? hc
  split_ifs at hstep with hij
  · subst hij hstep
    rw [sessionId_step] at hsess
    refine ⟨c, hc, keeps_step (h.connections c hmem hsess) (hsess ▸ h.tokens) ?_⟩
    rintro hopen events sinceSeq rfl
    exact hguard c hc hopen (hsess ▸ hrev)
  · subst hstep
    exact ⟨c, hc, keeps_self (h.connections c hmem hsess)⟩

theorem followed_step (hrev : sessionId ∈ s.revoked) {g : GatewayInput}
    (hguard : EndsQuietly s g) : Followed s (s.step codec g) sessionId := by
  cases g with
  | publishNext call locked => exact followed_publishNext h call locked
  | upgrade token =>
    unfold step
    dsimp only
    split <;> exact followed_of_eq h rfl
  | connect i => exact followed_connect h i
  | connection i e => exact followed_connection h hrev hguard
  | _ => exact followed_of_eq h rfl

end

theorem tokens_step (g : GatewayInput) :
    s.auth.tokenStore.revoked ⊆ (s.step codec g).auth.tokenStore.revoked := by
  cases g with
  | auth e => exact revoked_subset_step s.auth e
  | publish event ownerSession minRole | connection i e => exact Finset.Subset.refl _
  | publishNext call locked =>
    change _ ⊆ (s.publishNext call locked).auth.tokenStore.revoked
    rw [(upgrading_publishNext call locked).2.1]
  | _ =>
    unfold step
    dsimp only
    split <;> exact Finset.Subset.refl _

/-- The upgrades under way are those of before, or of a session with valid tokens. -/
theorem upgrades_step (htok : sessionId ∈ s.auth.tokenStore.revoked) (g : GatewayInput) :
    ∀ claims ∈ (s.step codec g).upgrading, claims ∈ s.upgrading ∨ claims.sessionId ≠ sessionId := by
  intro claims hcla
  cases g with
  | publishNext call locked =>
    change claims ∈ (s.publishNext call locked).upgrading at hcla
    rw [(upgrading_publishNext call locked).1] at hcla
    exact .inl hcla
  | upgrade token =>
    unfold step at hcla
    dsimp only at hcla
    split at hcla
    · next new hvalid =>
      rcases mem_append.mp hcla with hold | hnew
      · exact .inl hold
      have hvalid' := (validate_eq_ok_iff.mp hvalid).2
      rw [mem_singleton.mp hnew]
      exact .inr fun hsess => hvalid' (hsess ▸ htok)
    · exact .inl hcla
  | connect i =>
    unfold step at hcla
    dsimp only at hcla
    split at hcla
    · exact .inl (mem_of_mem_eraseIdx hcla)
    · exact .inl hcla
  | _ => exact .inl hcla

theorem revoked_step {g : GatewayInput} (hguard : EndsQuietly s g) :
    s.revoked ⊆ (s.step codec g).revoked ∧ ∀ sessionId ∈ (s.step codec g).revoked,
        sessionId ∈ s.revoked ∨
          Silenced s sessionId ∧ (s.step codec g).connections = s.connections := by
  have hsame : ∀ {s' : ConnectionSystem}, s'.revoked = s.revoked →
      s.revoked ⊆ s'.revoked ∧ ∀ sessionId ∈ s'.revoked, sessionId ∈ s.revoked ∨
        Silenced s sessionId ∧ s'.connections = s.connections := by
    intro s' heq
    rw [heq]
    exact ⟨List.Subset.refl _, fun _ => .inl⟩
  cases g with
  | auth e =>
    refine ⟨subset_append_left _ _, fun sessionId hmem => ?_⟩
    rcases mem_append.mp hmem with hold | hnew
    · exact .inl hold
    · exact .inr ⟨hguard sessionId (Option.mem_toList.mp hnew), rfl⟩
  | publish event ownerSession minRole | connection i e => exact hsame rfl
  | publishNext call locked => exact hsame (upgrading_publishNext call locked).2.2
  | _ =>
    refine hsame ?_
    unfold step
    dsimp only
    split <;> rfl

def RevokedSilent (s : ConnectionSystem) : Prop := ∀ sessionId ∈ s.revoked, Silenced s sessionId

theorem unheard_step (s : ConnectionSystem) (g : GatewayInput) (h : RevokedSilent s)
    (hguard : EndsQuietly s g) : RevokedSilent (s.step codec g) ∧ Unheard s (s.step codec g) := by
  obtain ⟨hkept, hnew⟩ : s.revoked ⊆ (s.step codec g).revoked ∧ _ := revoked_step hguard
  have hsil : ∀ sessionId, Silenced s sessionId → Followed s (s.step codec g) sessionId →
      Silenced (s.step codec g) sessionId := fun sessionId hs hfoll =>
    hs.of_followed (tokens_step g) (upgrades_step hs.tokens g) hfoll
  constructor
  · intro sessionId hmem
    rcases hnew sessionId hmem with hold | ⟨hs, heq⟩
    · exact hsil sessionId (h sessionId hold) (followed_step (h sessionId hold) hold hguard)
    · exact hsil sessionId hs (followed_of_eq hs heq)
  · intro sessionId hmem
    refine ⟨hkept hmem, fun i c' hc' hsess => ?_⟩
    obtain ⟨c, hc, hkeeps⟩ := followed_step (h sessionId hmem) hmem hguard i c' hc' hsess
    exact ⟨c, hc, hkeeps.sent, hkeeps.filter⟩

end Step

/-! ## Whole runs -/

theorem unheard_refl (s : ConnectionSystem) : Unheard s s :=
  fun _ hmem => ⟨hmem, fun _ c' hc' _ => ⟨c', hc', rfl, rfl⟩⟩

theorem unheard_trans (s t u : ConnectionSystem) (hst : Unheard s t) (htu : Unheard t u) :
    Unheard s u := by
  intro sessionId hmem
  obtain ⟨hmem', hbef⟩ := hst sessionId hmem
  obtain ⟨hmem'', hafter⟩ := htu sessionId hmem'
  refine ⟨hmem'', fun i c'' hc'' hsess => ?_⟩
  obtain ⟨c', hc', hsent', hfilt'⟩ := hafter i c'' hc'' hsess
  obtain ⟨c, hc, hsent, hfilt⟩ := hbef i c' hc' (hfilt' ▸ hsess)
  exact ⟨c, hc, hsent'.trans hsent, hfilt'.trans hfilt⟩

theorem revocation_stops_events (codec : TokenCodec) (auth : AuthSystem)
    (es es' : List GatewayInput)
    (hguard : Guarded (ConnectionSystem.step codec) EndsQuietly { auth } (es ++ es')) :
    Unheard (run (ConnectionSystem.step codec) { auth } es)
      (run (ConnectionSystem.step codec) { auth } (es ++ es')) := by
  obtain ⟨hbef, hafter⟩ := guarded_append.mp hguard
  have hsil : RevokedSilent (run (step codec) { auth } es) :=
    guarded_invariant (fun s g h hg => (unheard_step s g h hg).1)
      (nofun) hbef
  rw [run_append]
  exact guarded_related unheard_refl unheard_trans unheard_step hsil hafter

/-! ## The session of Alice -/

def aliceSession : List GatewayInput := aliceLogsIn.map .auth

def aliceLogsOut : List GatewayInput := [.auth (.logout "s-1"), .auth (.resume 1)]

/-- An agent has something to say, and the pump of the connection 0 handles it. -/
def outputOf (event : AtpEvent) : List GatewayInput :=
  [.publish event none .user, .publishNext 0 false, .publishNext 0 false,
    .connection 0 .pumpReceive, .connection 0 .pumpForward, .connection 0 .write]

def agentOutput : AtpEvent := ⟨.agentOutput, "s-1", .null⟩

/-- The server after the login of Alice and the start of a connection. -/
noncomputable def connected : ConnectionSystem :=
  { auth := run (AuthSystem.step anyCodec) (serverOf 1) aliceLogsIn
    connections := [.new aliceClaims] }

theorem step_upgrade {codec : TokenCodec} {s : ConnectionSystem} {token : String}
    {claims : ATPTokenClaims}
    (h : s.auth.tokenStore.validate codec token s.auth.now = .ok claims) :
    s.step codec (.upgrade token) = { s with upgrading := s.upgrading ++ [claims] } := by
  unfold step
  dsimp only
  rw [h]

theorem run_connect : run (step anyCodec) { auth := serverOf 1 }
    (aliceSession ++ [.upgrade aliceToken, .connect 0]) = connected := by
  have hvalid : validate anyCodec ⟨"secret", ∅⟩ aliceToken ⟨0⟩ = .ok aliceClaims :=
    validate_eq_ok_iff.mpr
      ⟨ATPToken.validate_issue_eq_ok_iff.mpr ⟨rfl, rfl⟩, Finset.notMem_empty _⟩
  have hupgr : (run (step anyCodec) { auth := serverOf 1 } aliceSession).step
      anyCodec (.upgrade aliceToken) =
        { auth := run (AuthSystem.step anyCodec) (serverOf 1) aliceLogsIn
          upgrading := [aliceClaims] } := step_upgrade hvalid
  rw [run_append, run_cons, hupgr]
  rfl

/-- Alice has a connection whose first event, `session.ready`, has been written. -/
noncomputable def aliceConnects : List GatewayInput :=
  aliceSession ++ [.upgrade aliceToken, .connect 0] ++ [.connection 0 .write]

theorem run_aliceConnects (es : List GatewayInput) :
    run (step anyCodec) { auth := serverOf 1 } (aliceConnects ++ es) =
      run (step anyCodec) connected (.connection 0 .write :: es) := by
  rw [aliceConnects, append_assoc, run_append, run_connect]
  rfl

/-- A connection without a subscription at the time of the logout. -/
theorem revocation_stops_events_alice :
    "s-1" ∈ (run (ConnectionSystem.step anyCodec) { auth := serverOf 1 }
        (aliceConnects ++ aliceLogsOut)).revoked ∧
      Unheard
        (run (ConnectionSystem.step anyCodec) { auth := serverOf 1 }
          (aliceConnects ++ aliceLogsOut))
        (run (ConnectionSystem.step anyCodec) { auth := serverOf 1 }
          (aliceConnects ++ aliceLogsOut ++ outputOf agentOutput)) := by
  refine ⟨?_, revocation_stops_events anyCodec (serverOf 1) (aliceConnects ++ aliceLogsOut)
    (outputOf agentOutput) ?_⟩
  · rw [run_aliceConnects]
    exact mem_singleton_self _
  · refine guarded_append.mpr ⟨guarded_append.mpr ⟨?_, ?_⟩, ?_⟩
    · refine guarded_append.mpr ⟨⟨nofun, ?_, trivial, trivial, trivial⟩, trivial, trivial⟩
      rintro sessionId hsess
      cases hsess
    · rw [← append_nil aliceConnects, run_aliceConnects]
      refine ⟨nofun, ?_, trivial⟩
      rintro sessionId hsess
      obtain rfl : "s-1" = sessionId := Option.some.inj hsess
      refine ⟨Finset.mem_insert_self _ _, nofun, fun c hc _ => .inr ?_⟩
      rw [mem_singleton.mp hc]
      exact ⟨rfl, rfl, rfl⟩
    · exact ⟨trivial, trivial, trivial, trivial, trivial, trivial, trivial⟩

noncomputable def aliceListens : List GatewayInput :=
  aliceConnects ++ .connection 0 (.subscribe ["*"] none) :: aliceLogsOut

/-- Alice subscribes once more, from the second event on. -/
def aliceReplays : List GatewayInput :=
  [.connection 0 (.subscribe ["agent.output"] (some 0)), .connection 0 .replaySince,
    .connection 0 .replayNext, .connection 0 .write]

/-- After the logout two events are written on the connection of Alice, her Subscribe frame
    changes the filter, and the second event is replayed. -/
theorem events_after_logout :
    let s := run (step anyCodec) { auth := serverOf 1 } aliceListens
    let s' := run (step anyCodec) { auth := serverOf 1 }
      (aliceListens ++ (outputOf agentOutput ++ outputOf agentOutput ++ aliceReplays))
    "s-1" ∈ s.revoked ∧ s.connections.map (fun c => (c.filter.subscribed, c.sent.map (·.event))) =
        [(["*"], [.sessionReady])] ∧
      s'.connections.map (fun c => (c.filter.subscribed, c.sent.map (·.event))) =
        [(["agent.output"], [.sessionReady, .agentOutput, .agentOutput, .agentOutput])] := by
  rw [aliceListens, append_assoc, run_aliceConnects, run_aliceConnects]
  exact ⟨mem_singleton_self _, rfl, rfl⟩

end Avix.Security
