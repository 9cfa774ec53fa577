/-
  PROTOCOL — every command gets one reply.

  `answered_once_iff`: a frame that is read as a command is answered exactly once and
  under the id of the command, without a panic and, if the command is rejected or its op is not
  known, without a call of the kernel, if and only if one of these holds:
  * `validate_cmd` rejects the command;
  * it is not one of the process commands whose handler sets a member of the body (`memberOps`);
  * the body is an object, or `null`.

  Reason. `body[key] = value` on a string, a number, a boolean or an array panics, and only
  `proc::handle` assigns to a member (`panics_procRoute_iff`). Every other handler reads the body
  with `body[key]` and `body.get(key)`, which take any value. A panic ends the task of the
  connection before a reply is sent (`spawn_with_a_string_body`).
-/
import Avix.Gateway.Frames
import Avix.Security.SessionValidity

namespace Avix.Protocol

open Lib List Option FrameState Route

/-! ## Statement -/

/-- The process commands whose handler sets a member of the body. -/
def memberOps : List String :=
  ["list-installed", "invocation-list", "spawn", "session-list"] ++ sessionOps.map (·.1) ++
    packageOps

/-- The commands of each domain. -/
def knownOps : AtpDomain → List String
  | .auth => ["whoami", "refresh", "logout", "sessions", "kick"]
  | .proc => memberOps ++ plainProcOps
  | .signal => ["send", "subscribe", "unsubscribe", "list"]
  | .fs => ["read", "write", "list", "stat", "watch", "unwatch"]
  | .snap => snapOps
  | .cron => cronOps
  | .users => "get" :: usersOps
  | .crews => crewsOps
  | .cap => ["policy/get", "policy/set"] ++ capOps
  | .sys => sysOps
  | .pipe => pipeOps
  | .session => ["ready"]

/-- The handler of the command sets a member of the body. -/
def SetsMember (cmd : AtpCmd) : Prop := cmd.domain = .proc ∧ cmd.op ∈ memberOps

/-- A member can be set: the value is an object, or becomes one. -/
def takesMembers : Json → Bool
  | .null => true
  | .object _ => true
  | _ => false

/-- `validate_cmd` rejects the command. -/
def Rejected (env : GatewayEnv) (now : DateTime) (s : FrameState) (sessionId : String)
    (cmd : AtpCmd) : Prop :=
  ∃ e, (s.validate env now sessionId cmd).2 = .error e

/-- The replies among what was sent. -/
def replies (s : FrameState) : List AtpReply :=
  s.outgoing.filterMap fun
    | .reply reply => some reply
    | .event _ => none

structure AnsweredOnce (env : GatewayEnv) (now : DateTime) (s : FrameState)
    (sessionId text : String) (cmd : AtpCmd) : Prop where
  noPanic : (s.handleTextFrame env now sessionId text).2 = false
  oneReply : ∃ reply : AtpReply,
    replies (s.handleTextFrame env now sessionId text).1 = replies s ++ [reply] ∧ reply.id = cmd.id
  noCall : Rejected env now s sessionId cmd ∨ cmd.op ∉ knownOps cmd.domain →
    (s.handleTextFrame env now sessionId text).1.ipcCalls = s.ipcCalls

/-! ## Routes -/

/-- What is said of the route of a command. -/
structure RouteSound (v : ValidatedCmd) (route : Route) : Prop where
  id : ∀ reply, route = .answer reply → reply.id = v.cmd.id
  unknown : v.cmd.op ∉ knownOps v.cmd.domain → ∃ reply, route = .answer reply
  panics : route = .panics ↔ SetsMember v.cmd ∧ takesMembers v.cmd.body = false

section Routes

variable {v : ValidatedCmd} {body : Json} {ops : List String} {path : String} {domain : AtpDomain}

theorem not_setsMember (h : v.cmd.domain = domain) (hproc : domain ≠ .proc) : ¬SetsMember v.cmd :=
  fun hsets => hproc (h.symm.trans hsets.1)

/-- A route outside of the process domain that forwards known commands and answers. -/
theorem routeSound_of {route : Route} (hdom : v.cmd.domain = domain) (hproc : domain ≠ .proc)
    (hid : ∀ reply, route = .answer reply → reply.id = v.cmd.id)
    (hunkn : v.cmd.op ∉ knownOps domain → ∃ reply, route = .answer reply)
    (hpan : route ≠ .panics) : RouteSound v route where
  id := hid
  unknown hop := hunkn (hdom ▸ hop)
  panics := iff_of_false hpan fun h => not_setsMember hdom hproc h.1

variable {set : Option Json} {reply : AtpReply} {key method : String} {body' : Json}

theorem plainRoute_answer (h : plainRoute path ops v = .answer reply) : reply.id = v.cmd.id := by
  unfold plainRoute at h
  split_ifs at h
  rw [← answer.inj h]
  rfl

theorem plainRoute_unknown (h : v.cmd.op ∉ ops) :
    ∃ reply, plainRoute path ops v = .answer reply := ⟨_, if_neg h⟩

theorem plainRoute_ne_panics : plainRoute path ops v ≠ .panics := by
  unfold plainRoute
  split_ifs <;> nofun

theorem routeSound_plainRoute (hdom : v.cmd.domain = domain) (hproc : domain ≠ .proc)
    (hops : knownOps domain = ops) : RouteSound v (plainRoute path ops v) :=
  routeSound_of hdom hproc (fun _ => plainRoute_answer)
    (fun hop => plainRoute_unknown (hops ▸ hop)) plainRoute_ne_panics

theorem routeSound_usersRoute (hdom : v.cmd.domain = .users) : RouteSound v (usersRoute v) := by
  have hget : ∀ reply, usersRoute v = .answer reply → reply.id = v.cmd.id := by
    intro reply h
    unfold usersRoute at h
    by_cases hop : v.cmd.op = "get"
    · rw [if_pos hop] at h
      split at h
      · split_ifs at h
        rw [← answer.inj h]
      · cases h
    · rw [if_neg hop] at h
      exact plainRoute_answer h
  refine routeSound_of hdom (by decide) hget (fun hop => ?_) ?_
  · obtain ⟨hget, hops⟩ := not_or.mp (mt mem_cons.mpr hop)
    unfold usersRoute
    rw [if_neg hget]
    exact plainRoute_unknown hops
  · unfold usersRoute
    split_ifs
    · split
      · split_ifs <;> nofun
      · nofun
    · exact plainRoute_ne_panics

theorem routeSound_capRoute (hdom : v.cmd.domain = .cap) : RouteSound v (capRoute v) := by
  refine routeSound_of hdom (by decide) (fun reply h => ?_) (fun hop => ?_) ?_
  · unfold capRoute at h
    split_ifs at h
    exact plainRoute_answer h
  · obtain ⟨hpol, hops⟩ := not_or.mp (mt mem_append.mpr hop)
    simp only [mem_cons, not_mem_nil, or_false, not_or] at hpol
    unfold capRoute
    rw [if_neg hpol.1, if_neg hpol.2]
    exact plainRoute_unknown hops
  · unfold capRoute
    split_ifs
    · nofun
    · nofun
    · exact plainRoute_ne_panics

theorem routeSound_sessionRoute (hdom : v.cmd.domain = .session) :
    RouteSound v (sessionRoute v) := by
  refine routeSound_of hdom (by decide) (fun reply h => ?_) (fun _ => ?_) ?_
  · unfold sessionRoute at h
    split_ifs at h <;> rw [← answer.inj h]
    rfl
  · unfold sessionRoute
    split_ifs <;> exact ⟨_, rfl⟩
  · unfold sessionRoute
    split_ifs <;> nofun

theorem routeSound_fsRoute (hdom : v.cmd.domain = .fs) : RouteSound v (.ofFs (fsRoute v)) := by
  refine routeSound_of hdom (by decide) (fun reply h => ?_) (fun hop => ?_) ?_
  · unfold fsRoute at h
    split_ifs at h
    · rw [← answer.inj h]
    · cases h
    · rw [← answer.inj h]
      rfl
  · unfold fsRoute
    split_ifs with hban hknown
    · exact ⟨_, rfl⟩
    · exact absurd hknown hop
    · exact ⟨_, rfl⟩
  · unfold fsRoute
    split_ifs <;> nofun

theorem sendRoute_sound (pipePayload : PipePayload) (id : String) (body : Json) :
    (∀ reply, sendRoute pipePayload id body = .answer reply → reply.id = id) ∧
      sendRoute pipePayload id body ≠ .panics := by
  have happr : ∀ route, approvalRoute id body = some route →
      (∀ reply, route = .answer reply → reply.id = id) ∧ route ≠ .panics := by
    intro route h
    unfold approvalRoute at h
    dsimp only at h
    split at h
    · cases h
    split at h <;> cases h
    · exact ⟨fun reply hreply => (answer.inj hreply) ▸ rfl, nofun⟩
    · exact ⟨nofun, nofun⟩
  have hpipe : (∀ reply, pipeRoute pipePayload id body = .answer reply → reply.id = id) ∧
      pipeRoute pipePayload id body ≠ .panics := by
    unfold pipeRoute
    split
    · exact ⟨fun reply hreply => (answer.inj hreply) ▸ rfl, nofun⟩
    · exact ⟨nofun, nofun⟩
  unfold sendRoute
  split
  · exact ⟨fun reply hreply => (answer.inj hreply) ▸ rfl, nofun⟩
  next signal _ =>
  by_cases hvalid : signal ∉ validSignals
  · rw [if_pos hvalid]
    exact ⟨fun reply hreply => (answer.inj hreply) ▸ rfl, nofun⟩
  rw [if_neg hvalid]
  split
  · next route hroute =>
    split_ifs at hroute
    exact happr route hroute
  · split_ifs
    · exact hpipe
    · exact ⟨nofun, nofun⟩

theorem routeSound_signalRoute (pipePayload : PipePayload) (hdom : v.cmd.domain = .signal) :
    RouteSound v (signalRoute pipePayload v) := by
  refine routeSound_of hdom (by decide) (fun reply h => ?_) (fun hop => ?_) ?_
  · unfold signalRoute at h
    split_ifs at h
    · exact (sendRoute_sound pipePayload _ _).1 reply h
    · rw [← answer.inj h]
      rfl
  · obtain ⟨hsend, hother⟩ := not_or.mp (mt mem_cons.mpr hop)
    unfold signalRoute
    rw [if_neg hsend, if_neg hother]
    exact ⟨_, rfl⟩
  · unfold signalRoute
    split_ifs
    · exact (sendRoute_sound pipePayload _ _).2
    · nofun
    · nofun

/-! ### Processes -/

theorem setIndex_isSome (key : String) (new : Json) :
    (body.setIndex key new).isSome = takesMembers body := by
  cases body <;> rfl

theorem takesMembers_setIndex {new : Json} (h : body.setIndex key new = some body') :
    takesMembers body' = true := by
  unfold Json.setIndex at h
  split at h
  · cases h
    rfl
  · cases h
    rfl
  · cases h

/-- A value that takes no members has no member to be found either. -/
theorem injectIfEmpty_isSome (key identity : String) :
    (injectIfEmpty body key identity).isSome = takesMembers body := by
  unfold injectIfEmpty
  cases body with
  | object members => split_ifs <;> rfl
  | _ => rfl

theorem takesMembers_injectIfEmpty {identity : String}
    (h : injectIfEmpty body key identity = some body') : takesMembers body' = true := by
  have hbody : takesMembers body = true := by
    rw [← injectIfEmpty_isSome key identity, h, isSome_some]
  unfold injectIfEmpty at h
  split_ifs at h
  · exact takesMembers_setIndex h
  · exact some.inj h ▸ hbody

theorem takesMembers_orInsert (hbody : takesMembers body = true) (key : String) (value : Json) :
    ∃ body', orInsert body key value = some body' ∧ takesMembers body' = true := by
  unfold orInsert
  split
  · exact ⟨body, rfl, hbody⟩
  · obtain ⟨body', hset⟩ := isSome_iff_exists.mp ((setIndex_isSome key value).trans hbody)
    exact ⟨body', hset, takesMembers_setIndex hset⟩

/-- One assignment after another: the first one decides. -/
theorem bind_setIndex_isSome {first : Option Json} (key : String) (new : Json)
    (hfirst : first.isSome = takesMembers body)
    (htakes : ∀ body', first = some body' → takesMembers body' = true) :
    (first.bind fun body => body.setIndex key new).isSome = takesMembers body := by
  cases first with
  | none => exact hfirst
  | some body' =>
    rw [bind_some, setIndex_isSome, htakes body' rfl]
    exact hfirst

theorem spawnBody_isSome (identity sessionId : String) : (do
    let body ← injectIfEmpty body "caller" identity
    let body ← orInsert body "session_id" (.string "")
    body.setIndex "atp_session_id" (.string sessionId)).isSome = takesMembers body := by
  cases hinj : injectIfEmpty body "caller" identity with
  | none =>
    rw [← injectIfEmpty_isSome "caller" identity, hinj]
    rfl
  | some body' =>
    obtain ⟨body'', horIn, htakes⟩ :=
      takesMembers_orInsert (takesMembers_injectIfEmpty hinj) "session_id" (.string "")
    rw [← injectIfEmpty_isSome "caller" identity, hinj]
    simp [horIn, setIndex_isSome, htakes]

theorem ofBody_eq_panics_iff (h : set.isSome = takesMembers body) :
    Route.ofBody method set = .panics ↔ takesMembers body = false := by
  rw [← h]
  cases set with
  | none => exact iff_of_true rfl rfl
  | some params => exact iff_of_false nofun nofun

theorem ofBody_ne_answer : Route.ofBody method set ≠ .answer reply := by
  cases set <;> nofun

/-- A process command has its body set, is forwarded as it is, or is not known. -/
theorem procRoute_cases (v : ValidatedCmd) :
    (v.cmd.op ∈ memberOps ∧ ∃ method set, procRoute v = .ofBody method set ∧
        set.isSome = takesMembers v.cmd.body) ∨
      (v.cmd.op ∈ plainProcOps ∧ ∃ method, procRoute v = .forward method v.cmd.body) ∨
      v.cmd.op ∉ memberOps ++ plainProcOps ∧
        procRoute v = .answer (unknownOp v.cmd.id v.cmd.op) := by
  unfold procRoute
  dsimp only
  by_cases hlist : v.cmd.op = "list-installed" ∨ v.cmd.op = "invocation-list"
  · rw [if_pos hlist]
    refine .inl ⟨?_, _, _, rfl, injectIfEmpty_isSome _ _⟩
    rcases hlist with hop | hop <;> rw [hop] <;> decide
  rw [if_neg hlist]
  by_cases hspawn : v.cmd.op = "spawn"
  · rw [if_pos hspawn, hspawn]
    exact .inl ⟨by decide, _, _, rfl, spawnBody_isSome _ _⟩
  rw [if_neg hspawn]
  by_cases hplain : v.cmd.op ∈ plainProcOps
  · rw [if_pos hplain]
    exact .inr (.inl ⟨hplain, _, rfl⟩)
  rw [if_neg hplain]
  by_cases hsess : v.cmd.op = "session-list"
  · rw [if_pos hsess, hsess]
    exact .inl ⟨by decide, _, _, rfl, injectIfEmpty_isSome _ _⟩
  rw [if_neg hsess]
  cases hlook : sessionOps.lookup v.cmd.op with
  | some method =>
    obtain ⟨l, l', hsplit, -⟩ := lookup_eq_some_iff.mp hlook
    have hmem : v.cmd.op ∈ sessionOps.map (·.1) :=
      mem_map.mpr ⟨(v.cmd.op, method), by rw [hsplit]; simp, rfl⟩
    refine .inl ⟨mem_append_left _ (mem_append_right _ hmem), _, _, rfl, ?_⟩
    exact bind_setIndex_isSome _ _ (setIndex_isSome _ _) fun _ => takesMembers_setIndex
  | none =>
    dsimp only
    by_cases hpack : v.cmd.op ∈ packageOps
    · rw [if_pos hpack]
      exact .inl ⟨mem_append_right _ hpack, _, _, rfl, setIndex_isSome _ _⟩
    rw [if_neg hpack]
    refine .inr (.inr ⟨?_, rfl⟩)
    have hsessi : v.cmd.op ∉ sessionOps.map (·.1) := by
      intro hmem
      obtain ⟨p, hp, hop⟩ := mem_map.mp hmem
      exact (bne_iff_ne.mp (lookup_eq_none_iff.mp hlook p hp)) hop.symm
    simp only [memberOps, mem_append, mem_cons, not_mem_nil, or_false, not_or]
      at hlist ⊢
    exact ⟨⟨⟨⟨hlist.1, hlist.2, hspawn, hsess⟩, hsessi⟩, hpack⟩, hplain⟩

theorem panics_procRoute_iff :
    procRoute v = .panics ↔ v.cmd.op ∈ memberOps ∧ takesMembers v.cmd.body = false := by
  have hdisj : ∀ op ∈ plainProcOps, op ∉ memberOps := by decide
  rcases procRoute_cases v with ⟨hop, method, set, hroute, hset⟩ | ⟨hop, method, hroute⟩ |
    ⟨hop, hroute⟩
  · rw [hroute, ofBody_eq_panics_iff hset]
    exact ⟨fun h => ⟨hop, h⟩, fun h => h.2⟩
  · rw [hroute]
    exact iff_of_false nofun fun h => hdisj _ hop h.1
  · rw [hroute]
    exact iff_of_false nofun fun h => hop (mem_append_left _ h.1)

theorem routeSound_procRoute (hdom : v.cmd.domain = .proc) : RouteSound v (procRoute v) where
  id reply h := by
    rcases procRoute_cases v with ⟨-, method, set, hroute, -⟩ | ⟨-, method, hroute⟩ | ⟨-, hroute⟩
    · exact absurd (hroute.symm.trans h) ofBody_ne_answer
    · cases hroute.symm.trans h
    · rw [← answer.inj (hroute.symm.trans h)]
      rfl
  unknown hop := by
    rw [hdom] at hop
    obtain ⟨hmemb, hplain⟩ := not_or.mp (mt mem_append.mpr hop)
    rcases procRoute_cases v with ⟨hmem, -⟩ | ⟨hmem, -⟩ | ⟨-, hroute⟩
    · exact absurd hmem hmemb
    · exact absurd hmem hplain
    · exact ⟨_, hroute⟩
  panics := by
    rw [panics_procRoute_iff, SetsMember, hdom]
    simp

end Routes

/-! ## Dispatch -/

/-- What dispatching a command comes to. -/
structure Dispatched (s : FrameState) (v : ValidatedCmd) (p : FrameState × Option AtpReply) :
    Prop where
  outgoing : p.1.outgoing = s.outgoing
  id : ∀ reply ∈ p.2, reply.id = v.cmd.id
  noCall : v.cmd.op ∉ knownOps v.cmd.domain → p.1.ipcCalls = s.ipcCalls
  panics : p.2 = none ↔ SetsMember v.cmd ∧ takesMembers v.cmd.body = false

section Dispatch

variable {env : GatewayEnv} {now : DateTime} {s : FrameState} {v : ValidatedCmd}

theorem dispatched_follow {route : Route} (h : RouteSound v route) :
    Dispatched s v (s.follow env now v.cmd.id route) := by
  have hpan := h.panics
  cases route with
  | forward method params =>
    refine ⟨rfl, ?_, fun hop => ?_, iff_of_false nofun (mt hpan.mpr nofun)⟩
    · rintro reply hreply
      rw [← mem_some_iff.mp hreply]
      rfl
    · obtain ⟨reply, hreply⟩ := h.unknown hop
      cases hreply
  | answer reply =>
    refine ⟨rfl, ?_, fun _ => rfl, iff_of_false nofun (mt hpan.mpr nofun)⟩
    rintro reply' hreply
    rw [← mem_some_iff.mp hreply]
    exact h.id reply rfl
  | resolve hilId approvalToken decision payload =>
    have hno := mt hpan.mpr nofun
    unfold follow
    dsimp only
    split
    all_goals
      refine ⟨rfl, ?_, fun _ => rfl, iff_of_false nofun hno⟩
      rintro reply hreply
      rw [← mem_some_iff.mp hreply]
  | panics => exact ⟨rfl, nofun, fun _ => rfl, iff_of_true rfl (hpan.mp rfl)⟩

theorem dispatched_answer {s' : FrameState} {reply : AtpReply} (hdom : v.cmd.domain = .auth)
    (houtg : s'.outgoing = s.outgoing) (hcalls : s'.ipcCalls = s.ipcCalls)
    (hid : reply.id = v.cmd.id) : Dispatched s v (s', some reply) where
  outgoing := houtg
  id reply' hreply := by rw [← mem_some_iff.mp hreply, hid]
  noCall _ := hcalls
  panics := iff_of_false nofun fun h => not_setsMember hdom (by decide) h.1

theorem dispatched_authHandle (hdom : v.cmd.domain = .auth) :
    Dispatched s v (s.authHandle env now v) := by
  have hforw : ∀ op method, op ∈ knownOps .auth → v.cmd.op = op →
      Dispatched s v (s.follow env now v.cmd.id (.forward method v.cmd.body)) := by
    intro op method hknown hop
    refine dispatched_follow (routeSound_of hdom (by decide) nofun (fun hunkn => ?_) nofun)
    exact absurd (hop ▸ hknown) hunkn
  unfold authHandle
  dsimp only
  split
  · exact dispatched_answer hdom rfl rfl rfl
  · split <;> exact dispatched_answer hdom rfl rfl rfl
  · exact dispatched_answer hdom rfl rfl rfl
  · next hop => exact hforw "sessions" _ (by decide) hop
  · next hop => exact hforw "kick" _ (by decide) hop
  · exact dispatched_answer hdom rfl rfl rfl

theorem dispatched_dispatch (v : ValidatedCmd) : Dispatched s v (s.dispatch env now v) := by
  unfold dispatch
  split
  · next hdom => exact dispatched_authHandle hdom
  · next hdom => exact dispatched_follow (routeSound_procRoute hdom)
  · next hdom => exact dispatched_follow (routeSound_signalRoute _ hdom)
  · next hdom => exact dispatched_follow (routeSound_fsRoute hdom)
  · next hdom => exact dispatched_follow (routeSound_plainRoute hdom (by decide) rfl)
  · next hdom => exact dispatched_follow (routeSound_plainRoute hdom (by decide) rfl)
  · next hdom => exact dispatched_follow (routeSound_usersRoute hdom)
  · next hdom => exact dispatched_follow (routeSound_plainRoute hdom (by decide) rfl)
  · next hdom => exact dispatched_follow (routeSound_capRoute hdom)
  · next hdom => exact dispatched_follow (routeSound_plainRoute hdom (by decide) rfl)
  · next hdom => exact dispatched_follow (routeSound_plainRoute hdom (by decide) rfl)
  · next hdom => exact dispatched_follow (routeSound_sessionRoute hdom)

end Dispatch

/-! ## One frame -/

section Frame

variable {env : GatewayEnv} {now : DateTime} {s : FrameState} {sessionId : String}

theorem replies_send_reply (s : FrameState) (reply : AtpReply) :
    replies (s.send (.reply reply)) = replies s ++ [reply] := by
  simp [replies, send]

variable {s' : FrameState}

theorem replies_of_outgoing {s : FrameState} (h : s'.outgoing = s.outgoing) :
    replies s' = replies s := by
  rw [replies, h, replies]

theorem replies_announceExpiry (s : FrameState) (token : String) :
    replies (s.announceExpiry env now sessionId token) = replies s := by
  unfold announceExpiry
  split_ifs
  · simp [replies, send]
  · rfl

theorem ipcCalls_announceExpiry (s : FrameState) (token : String) :
    (s.announceExpiry env now sessionId token).ipcCalls = s.ipcCalls := by
  unfold announceExpiry
  split_ifs <;> rfl

/-- The command goes on as it is. -/
theorem cmd_of_validate {cmd : AtpCmd} {v : ValidatedCmd}
    (h : s.validate env now sessionId cmd = (s', .ok v)) :
    v.cmd = cmd ∧ s'.outgoing = s.outgoing ∧ s'.ipcCalls = s.ipcCalls := by
  unfold validate at h
  dsimp only at h
  obtain ⟨hs, hv⟩ := Prod.mk.inj h
  obtain ⟨claims, -, -, heq⟩ := validateCmd_eq_ok (Prod.ext rfl hv)
  rw [heq, ← hs]
  exact ⟨rfl, rfl, rfl⟩

/-- What handling a command comes to, panic or not. -/
theorem handleCmd_spec (s : FrameState) (cmd : AtpCmd) :
    ((s.handleCmd env now sessionId cmd).2 = false → ∃ reply : AtpReply,
          replies (s.handleCmd env now sessionId cmd).1 = replies s ++ [reply] ∧
            reply.id = cmd.id) ∧
      (Rejected env now s sessionId cmd ∨ cmd.op ∉ knownOps cmd.domain →
        (s.handleCmd env now sessionId cmd).1.ipcCalls = s.ipcCalls) ∧
      ((s.handleCmd env now sessionId cmd).2 = true ↔
        ¬Rejected env now s sessionId cmd ∧ SetsMember cmd ∧ takesMembers cmd.body = false) := by
  unfold handleCmd
  rcases hval : s.validate env now sessionId cmd with ⟨s', e | v⟩
  · -- The command is rejected: the only reply is the error.
    have hs' : (s.validate env now sessionId cmd).1 = s' := congrArg Prod.fst hval
    have hrej : Rejected env now s sessionId cmd := ⟨e, congrArg Prod.snd hval⟩
    rw [← hs']
    exact ⟨fun _ => ⟨⟨cmd.id, .error e⟩, replies_send_reply _ _, rfl⟩, fun _ => rfl,
      iff_of_false nofun fun h => h.1 hrej⟩
  · obtain ⟨rfl, houtg, hcalls⟩ := cmd_of_validate hval
    have hacc : ¬Rejected env now s sessionId v.cmd := by
      rintro ⟨e, he⟩
      rw [hval] at he
      cases he
    dsimp only
    rcases hresult : (s'.announceExpiry env now sessionId v.cmd.token).dispatch env now v with
      ⟨s'', _ | reply⟩
    · have hdisp := hresult ▸ dispatched_dispatch v
      refine ⟨nofun, fun hor => ?_, iff_of_true rfl ⟨hacc, hdisp.panics.mp rfl⟩⟩
      exact ((hdisp.noCall (hor.resolve_left hacc)).trans
        (ipcCalls_announceExpiry s' _)).trans hcalls
    · have hdisp := hresult ▸ dispatched_dispatch v
      refine ⟨fun _ => ⟨reply, ?_, hdisp.id reply rfl⟩, fun hor => ?_,
        iff_of_false nofun fun h => ?_⟩
      · rw [replies_send_reply, replies_of_outgoing hdisp.outgoing,
          replies_announceExpiry, replies_of_outgoing houtg]
      · exact ((hdisp.noCall (hor.resolve_left hacc)).trans
          (ipcCalls_announceExpiry s' _)).trans hcalls
      · cases hdisp.panics.mpr h.2

end Frame

/-! ## Main statement -/

theorem answered_once_iff (env : GatewayEnv) (now : DateTime) (s : FrameState)
    (sessionId text : String) (cmd : AtpCmd)
    (hparse : AtpFrame.parse env.fromStr text = some (.cmd cmd)) :
    AnsweredOnce env now s sessionId text cmd ↔
      Rejected env now s sessionId cmd ∨ ¬SetsMember cmd ∨ takesMembers cmd.body = true := by
  have hhand : s.handleTextFrame env now sessionId text = s.handleCmd env now sessionId cmd := by
    unfold handleTextFrame
    rw [hparse]
  obtain ⟨hreply, hcalls, hpan⟩ :=
    (handleCmd_spec s cmd : _ ∧ _ ∧ ((s.handleCmd env now sessionId cmd).2 = true ↔ _))
  constructor
  · intro h
    have hno : ¬(s.handleCmd env now sessionId cmd).2 = true := by
      rw [← hhand, h.noPanic]
      nofun
    rw [hpan, not_and_or, not_not, not_and_or, Bool.not_eq_false] at hno
    exact hno
  · intro h
    have hno : (s.handleCmd env now sessionId cmd).2 = false := by
      rw [← Bool.not_eq_true, hpan, not_and_or, not_not, not_and_or, Bool.not_eq_false]
      exact h
    constructor
    · rw [hhand]
      exact hno
    · rw [hhand]
      exact hreply hno
    · rw [hhand]
      exact hcalls

/-! ## A spawn with a body that is no object -/

open Security in
/-- Alice spawns an agent; any text is read as her command. -/
noncomputable def spawnEnv (body : Json) : GatewayEnv where
  codec := anyCodec
  ipc _ _ := .ok .null
  pipePayload := .ok
  toRfc3339 _ := ""
  fromStr _ := some (.ofMembers [("type", .string "cmd"), ("id", .string "c-1"),
    ("token", .string aliceToken), ("domain", .string "proc"), ("op", .string "spawn"),
    ("body", body)])
  isAdminPort := false

open Security in
noncomputable def spawnCmd (body : Json) : AtpCmd := ⟨"c-1", aliceToken, .proc, "spawn", body⟩

theorem parse_spawn (body : Json) (text : String) :
    AtpFrame.parse (spawnEnv body).fromStr text = some (.cmd (spawnCmd body)) := by
  have hdom : AtpDomain.fromValue (.string "proc") = some .proc := rfl
  simp [AtpFrame.parse, spawnEnv, spawnCmd, AtpCmd.fromValue, Json.strField, Json.index,
    Json.get?_ofMembers, lookup_cons, Json.asStr, hdom]

/-- A connection of Alice on which nothing has happened. -/
def aliceFrames : FrameState where
  tokenStore := ⟨"secret", ∅⟩
  authSvc := .new []
  hilManager := none
  replayGuard := ∅
  filter := ⟨"s-1", .user, []⟩
  ring := []
  ipcCalls := []
  outgoing := []

open Security in
theorem validate_spawn (body : Json) :
    aliceFrames.validate (spawnEnv body) ⟨0⟩ "s-1" (spawnCmd body) =
      ({ aliceFrames with replayGuard := insert "c-1" ∅ },
        .ok ⟨spawnCmd body, "alice", .user, "s-1"⟩) := by
  have htoken : ATPTokenStore.validate anyCodec ⟨"secret", ∅⟩ aliceToken ⟨0⟩ = .ok aliceClaims :=
    ATPTokenStore.validate_eq_ok_iff.mpr
      ⟨ATPToken.validate_issue_eq_ok_iff.mpr ⟨rfl, rfl⟩, Finset.notMem_empty _⟩
  have hacc : Accepted anyCodec ⟨"secret", ∅⟩ ⟨0⟩ (spawnCmd body) "s-1" false aliceClaims :=
    ⟨htoken, rfl, show ¬Role.user < domainMinRole .proc "spawn" by decide, rfl, rfl⟩
  change ({ aliceFrames with replayGuard := (validateCmd anyCodec ⟨"secret", ∅⟩ ∅ ⟨0⟩
    (spawnCmd body) "s-1" false).1 }, (validateCmd anyCodec ⟨"secret", ∅⟩ ∅ ⟨0⟩
      (spawnCmd body) "s-1" false).2) = _
  rw [validateCmd_of_accepted hacc (Finset.notMem_empty _)]
  rfl

/-- With `null` as the body the spawn is answered. -/
theorem answered_once_null : ¬Rejected (spawnEnv .null) ⟨0⟩ aliceFrames "s-1" (spawnCmd .null) ∧
    AnsweredOnce (spawnEnv .null) ⟨0⟩ aliceFrames "s-1" "" (spawnCmd .null) := by
  constructor
  · rintro ⟨e, he⟩
    rw [validate_spawn] at he
    cases he
  · exact (answered_once_iff _ _ _ _ _ _ (parse_spawn .null "")).mpr (.inr (.inr rfl))

/-- With a string as the body the task panics, and no reply is sent. -/
theorem spawn_with_a_string_body : AtpFrame.parse (spawnEnv (.string "researcher")).fromStr "" =
      some (.cmd (spawnCmd (.string "researcher"))) ∧
    (aliceFrames.handleTextFrame (spawnEnv (.string "researcher")) ⟨0⟩ "s-1" "").2 = true ∧
    replies (aliceFrames.handleTextFrame (spawnEnv (.string "researcher")) ⟨0⟩ "s-1" "").1 =
      [] := by
  refine ⟨parse_spawn _ _, ?_⟩
  unfold handleTextFrame handleCmd
  rw [parse_spawn]
  dsimp only
  have hpan : procRoute ⟨spawnCmd (.string "researcher"), "alice", .user, "s-1"⟩ = .panics :=
    panics_procRoute_iff.mpr ⟨show "spawn" ∈ memberOps by decide, rfl⟩
  have hdisp : ∀ s : FrameState, s.dispatch (spawnEnv (.string "researcher")) ⟨0⟩
      ⟨spawnCmd (.string "researcher"), "alice", .user, "s-1"⟩ = (s, none) := by
    intro s
    unfold dispatch spawnCmd
    dsimp only
    rw [← spawnCmd, hpan]
    rfl
  rw [validate_spawn]
  dsimp only
  rw [hdisp]
  exact ⟨rfl, replies_announceExpiry _ _⟩

end Avix.Protocol
