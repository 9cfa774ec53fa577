/-
  SECURITY — who receives the events of a human-in-the-loop request.

  `hil_isolation_iff`: take any calls of `open`, `resolve` and the waiters in any
  interleaving, and a request whose id no other request uses. Its `hil.request` and
  `hil.resolved` events reach, among the User connections that subscribe to them, exactly those
  of the request's session if and only if, whenever such an event is published, either the
  manager acts for the request and the request's agent is named like its session, or a resolver
  has not found the request pending and its session id is empty.

  Reason. `publish` is given the agent's name as the owning session (`session_owner` in `open`,
  `resolve` and `timeout_hil`), and the empty string when `resolve` finds nothing pending. The
  filter compares the owner with the connection's session id.

  What is received is read off `should_receive` alone: role, owner and subscription.
-/
import Avix.Gateway.EventBus
import Avix.Security.HilDelivery

open List

namespace Avix

open Lib

/-! ## Events on the bus -/

def HilEvent.hilId : HilEvent → String
  | .request _ body => body.hilId
  | .resolved _ body => body.hilId

def HilEvent.owner : HilEvent → String
  | .request owner _ => owner
  | .resolved owner _ => owner

def HilEvent.kind : HilEvent → AtpEventKind
  | .request _ _ => .hilRequest
  | .resolved _ _ => .hilResolved

/-- What the manager hands to `AtpEventBus::publish`, with its number and its JSON body. -/
def HilEvent.busEvent (e : HilEvent) (seq : UInt64) (body : Json) : BusEvent where
  seq := seq
  event := { event := e.kind, sessionId := e.owner, body }
  ownerSession := some e.owner
  minRole := .user

/-- The event that the next step of a task publishes. -/
def HilTask.publishes (now : DateTime) : HilTask → Option HilEvent
  | .open .publish req => some (req.requestEvent now)
  | .resolve (.publish dest) args =>
    some (resolvedEvent args.hilId args.decision args.resolvedBy dest now)
  | .timeout (.publish dest) hilId pid =>
    some (resolvedEvent hilId "timeout" "kernel" { dest with pid } now)
  | _ => none

theorem Takes.events {m m' : HilManager} {now : DateTime} {t t' : HilTask} {new : List HilTask}
    (ht : Takes m now t m' t' new) : m'.events = m.events ++ (t.publishes now).toList := by
  have hnone : m.events = m.events ++ (none : Option HilEvent).toList := (append_nil _).symm
  cases ht with
  | openPublishes | resolves | timesOut => rfl
  | rests hended =>
    have hquiet : t.publishes now = none := by
      unfold HilTask.publishes
      split <;> first | cases hended | rfl
    rw [hquiet]
    exact hnone
  | _ => exact hnone

namespace HilSystem

def published (s : HilSystem) : HilInput → List HilEvent
  | .step i now => (s.tasks[i]?.bind (HilTask.publishes now)).toList
  | _ => []

theorem events_step (s : HilSystem) (e : HilInput) :
    (s.step e).manager.events = s.manager.events ++ s.published e := by
  cases e with
  | call c => exact (append_nil _).symm
  | step i now =>
    rw [step, published]
    cases htask : s.tasks[i]? with
    | none =>
      rw [advance, htask]
      exact (append_nil _).symm
    | some t =>
      rw [advance_of_task htask]
      exact (takes_step s.manager now t).events
  | expire i =>
    rw [step, expire]
    split <;> exact (append_nil _).symm

end HilSystem

end Avix

namespace Avix.Security

open Lib

/-! ## Receiving an event -/

/-- Of the User connections that subscribe to the event, those of the session receive it. -/
def ReachesOnly (e : HilEvent) (session : String) : Prop :=
  ∀ (f : EventFilter) (seq : UInt64) (body : Json), f.role = .user →
    (f.shouldReceive (e.busEvent seq body) = true ↔ f.sessionId = session ∧ f.wants e.kind = true)

theorem shouldReceive_busEvent {f : EventFilter} (hrole : f.role = .user) (e : HilEvent)
    (seq : UInt64) (body : Json) :
    f.shouldReceive (e.busEvent seq body) = true ↔
      f.sessionId = e.owner ∧ f.wants e.kind = true := by
  have hmin : ¬f.role < (e.busEvent seq body).minRole := by
    rw [hrole]
    exact (by decide : ¬Role.user < Role.user)
  have hlow : f.role < Role.operator := by
    rw [hrole]
    decide
  have howner : (∀ owner ∈ (e.busEvent seq body).ownerSession,
      owner = f.sessionId ∨ ¬f.role < Role.operator) ↔ f.sessionId = e.owner := by
    constructor
    · intro h
      exact ((h e.owner rfl).resolve_right (not_not_intro hlow)).symm
    · intro h owner hmem
      exact .inl ((Option.some.inj hmem).symm.trans h.symm)
  rw [EventFilter.shouldReceive_iff, howner]
  exact and_iff_right hmin

theorem reachesOnly_iff {e : HilEvent} {session : String} :
    ReachesOnly e session ↔ e.owner = session := by
  constructor
  · intro h
    -- a connection of the session that subscribes to everything
    have hf := h ⟨session, .user, [EventFilter.wildcard]⟩ 0 .null rfl
    exact ((shouldReceive_busEvent rfl e 0 .null).mp (hf.mpr ⟨rfl, rfl⟩)).1.symm
  · rintro rfl f seq body hrole
    exact shouldReceive_busEvent hrole e seq body

/-! ## Whom the manager acts for -/

/-- What `resolve` takes for the recipient when the request is not pending. -/
def nobody : Recipient := ⟨"", 0, ""⟩

/-- A task that has the id of `r` acts for `r`, or for nobody. -/
def ActsFor (r : HilRequest) : HilTask → Prop
  | .open _ req => req.hilId = r.hilId → req = r
  | .resolve (.removePending dest) args => args.hilId = r.hilId → dest = r.recipient ∨ dest = nobody
  | .resolve (.publish dest) args => args.hilId = r.hilId → dest = r.recipient ∨ dest = nobody
  | .timeout (.sendResume dest) hilId _ => hilId = r.hilId → dest = r.recipient
  | .timeout (.publish dest) hilId _ => hilId = r.hilId → dest = r.recipient
  | _ => True

/-- The id of `r` stands for `r`. -/
structure Identified (r : HilRequest) (s : HilSystem) : Prop where
  pending : ∀ req, s.manager.pending.lookup r.hilId = some req → req = r
  tasks : ∀ t ∈ s.tasks, ActsFor r t

/-- No other request is opened under the id of `r`. -/
def OpensOwn (r : HilRequest) (_ : HilSystem) (e : HilInput) : Prop :=
  ∀ req, e = .call (.open req) → req.hilId = r.hilId → req = r

variable {r : HilRequest}

/-- A step of a task keeps the pending map right, and what the task does next. -/
theorem actsFor_takes {m m' : HilManager} {now : DateTime} {t t' : HilTask} {new : List HilTask}
    (hp : ∀ req, m.pending.lookup r.hilId = some req → req = r) (hacts : ActsFor r t)
    (ht : Takes m now t m' t' new) :
    (∀ req, m'.pending.lookup r.hilId = some req → req = r) ∧
      ActsFor r t' ∧ ∀ n ∈ new, ActsFor r n := by
  have hnew : ∀ n ∈ ([] : List HilTask), ActsFor r n := fun _ h => absurd h not_mem_nil
  have herase : ∀ hilId req, AList.lookup r.hilId (m.pending.erase hilId) = some req → req = r := by
    intro hilId req h
    by_cases hid : r.hilId = hilId
    · rw [hid, AList.lookup_erase] at h
      cases h
    · rw [AList.lookup_erase_ne hid] at h
      exact hp req h
  cases ht with
  | openFails h | openWrites h | openRegisters | sendsResume | rests hended =>
    exact ⟨hp, hacts, hnew⟩
  | openInserts =>
    refine ⟨fun req' h => ?_, hacts, hnew⟩
    rcases HashMap.of_lookup_insert h with ⟨hid, rfl⟩ | ⟨-, hold⟩
    · exact hacts hid.symm
    · exact hp req' hold
  | openPublishes => exact ⟨hp, hacts, fun n hn => by rw [mem_singleton.mp hn]; trivial⟩
  | @decides _ req _ hreq hvfs =>
    refine ⟨hp, fun hid => ?_, hnew⟩
    rw [hp req (hid ▸ hreq)]
    exact .inl rfl
  | decidesNothing h => exact ⟨hp, fun _ => .inr rfl, hnew⟩
  | removes => exact ⟨herase _, hacts, hnew⟩
  | @expires _ _ req _ hreq hvfs =>
    refine ⟨herase _, fun hid => ?_, hnew⟩
    rw [hp req (hid ▸ hreq)]
  | _ => exact ⟨hp, trivial, hnew⟩

theorem identified_step (s : HilSystem) (e : HilInput) (h : Identified r s) (hg : OpensOwn r s e) :
    Identified r (s.step e) := by
  have hcall : ∀ c, e = .call c → ActsFor r c.task := by
    intro c he
    cases c with
    | «open» req => exact fun hid => hg req he hid
    | resolve args | wait w => trivial
  obtain ⟨hpend, htasks⟩ := HilSystem.forall_step
    (P := fun m => ∀ req, m.pending.lookup r.hilId = some req → req = r)
    hcall actsFor_takes h.pending h.tasks
  exact ⟨hpend, htasks⟩

/-! ## The result -/

/-- Where an event of `r` is published, its owner is the session of `r`. -/
def AddressesSession (r : HilRequest) (s : HilSystem) : HilInput → Prop
  | .step i _ =>
    match s.tasks[i]? with
    | some (.open .publish req) => req.hilId = r.hilId → r.agentName = r.atpSessionId
    | some (.resolve (.publish dest) args) =>
      args.hilId = r.hilId → (dest = r.recipient ∧ r.agentName = r.atpSessionId) ∨
          (dest = nobody ∧ r.atpSessionId = "")
    | some (.timeout (.publish _) hilId _) => hilId = r.hilId → r.agentName = r.atpSessionId
    | _ => True
  | _ => True

/-- A resolver that found the request publishes for its agent's name, one that did not for the
    empty session. -/
theorem owner_eq_iff {dest : Recipient} (h : dest = r.recipient ∨ dest = nobody) :
    dest.owner = r.atpSessionId ↔ (dest = r.recipient ∧ r.agentName = r.atpSessionId) ∨
        (dest = nobody ∧ r.atpSessionId = "") := by
  constructor
  · intro howner
    rcases h with rfl | rfl
    · exact .inl ⟨rfl, howner⟩
    · exact .inr ⟨rfl, howner.symm⟩
  · rintro (⟨rfl, hname⟩ | ⟨rfl, hempty⟩)
    · exact hname
    · exact hempty.symm

theorem published_reachesOnly_iff (s : HilSystem) (e : HilInput) (h : Identified r s)
    (_ : OpensOwn r s e) :
    (∀ ev ∈ s.published e, ev.hilId = r.hilId → ReachesOnly ev r.atpSessionId) ↔
      AddressesSession r s e := by
  have hnoth : (∀ ev ∈ ([] : List HilEvent), ev.hilId = r.hilId →
      ReachesOnly ev r.atpSessionId) ↔ True :=
    iff_of_true (nofun) trivial
  have hone : ∀ ev : HilEvent, (∀ ev' ∈ [ev], ev'.hilId = r.hilId →
      ReachesOnly ev' r.atpSessionId) ↔ (ev.hilId = r.hilId → ev.owner = r.atpSessionId) := by
    intro ev
    rw [forall_mem_singleton, reachesOnly_iff]
  cases e with
  | call c | expire i => exact hnoth
  | step i now =>
    rw [HilSystem.published, AddressesSession]
    split
    · next req htask =>
      rw [htask]
      refine (hone (req.requestEvent now)).trans (forall_congr' fun hid => ?_)
      rw [← h.tasks _ (mem_of_getElem? htask) hid]
      exact Iff.rfl
    · next dest args htask =>
      rw [htask]
      refine (hone (resolvedEvent args.hilId args.decision args.resolvedBy dest now)).trans
        (forall_congr' fun hid => ?_)
      exact owner_eq_iff (h.tasks _ (mem_of_getElem? htask) hid)
    · next dest hilId pid htask =>
      rw [htask]
      refine (hone (resolvedEvent hilId "timeout" "kernel" { dest with pid } now)).trans
        (forall_congr' fun hid => ?_)
      rw [h.tasks _ (mem_of_getElem? htask) hid]
      exact Iff.rfl
    · next hopen hres htim =>
      have hquiet : s.tasks[i]?.bind (HilTask.publishes now) = none := by
        cases htask : s.tasks[i]? with
        | none => rfl
        | some t =>
          rw [Option.bind_some]
          unfold HilTask.publishes
          split
          · exact absurd htask (hopen _)
          · exact absurd htask (hres _ _)
          · exact absurd htask (htim _ _ _)
          · rfl
      rw [hquiet]
      exact hnoth

theorem identified_init (r : HilRequest) : Identified r .init :=
  ⟨fun _ h => absurd h (Option.not_mem_none _), fun _ h => absurd h not_mem_nil⟩

theorem hil_isolation_iff (r : HilRequest) (es : List HilInput)
    (hid : ∀ req, HilInput.call (.open req) ∈ es → req.hilId = r.hilId → req = r) :
    (∀ ev ∈ (run HilSystem.step .init es).manager.events,
        ev.hilId = r.hilId → ReachesOnly ev r.atpSessionId) ↔
      Guarded HilSystem.step (AddressesSession r) .init es := by
  have hopens : Guarded HilSystem.step (OpensOwn r) .init es := by
    refine guarded_of_split fun es₁ e es₂ hsplit req he hreq => hid req ?_ hreq
    rw [hsplit, he]
    exact mem_append_right _ mem_cons_self
  have hsteps : (∀ ev ∈ (run HilSystem.step .init es).manager.events,
        ev.hilId = r.hilId → ReachesOnly ev r.atpSessionId) ↔
      Guarded HilSystem.step (fun s e => ∀ ev ∈ s.published e,
        ev.hilId = r.hilId → ReachesOnly ev r.atpSessionId) .init es :=
    @forall_mem_output_iff _ _ _ _ _ _ (fun s : HilSystem => s.manager.events) _
      HilSystem.events_step _ nofun
  exact hsteps.trans
    (guarded_congr identified_step published_reachesOnly_iff (identified_init r) hopens)

/-- An agent that is named like its session. -/
def namesakeHil : HilRequest := { upgradeHil "hil-1" "tok-1" with agentName := "sess-1" }

/-- The request is opened and approved. -/
def namesakeRun : List HilInput :=
  [.call (.open namesakeHil), .step 0 ⟨0⟩, .step 0 ⟨0⟩, .step 0 ⟨0⟩, .step 0 ⟨0⟩,
    resolveCall "hil-1" "tok-1" "approved", .step 2 ⟨0⟩, .step 2 ⟨0⟩, .step 2 ⟨0⟩, .step 2 ⟨0⟩]

/-- Both events of the namesake's request stay in its session. -/
theorem hil_isolation_namesake :
    (run HilSystem.step .init namesakeRun).manager.events.map HilEvent.kind =
        [.hilRequest, .hilResolved] ∧
      ∀ ev ∈ (run HilSystem.step .init namesakeRun).manager.events,
        ev.hilId = namesakeHil.hilId → ReachesOnly ev "sess-1" := by
  refine ⟨rfl, (hil_isolation_iff namesakeHil namesakeRun ?_).mpr ?_⟩
  · intro req hmem _
    simp only [namesakeRun, resolveCall, mem_cons, not_mem_nil, HilInput.call.injEq,
      HilCall.open.injEq, reduceCtorEq, or_false] at hmem
    exact hmem
  · exact ⟨trivial, trivial, trivial, trivial, fun _ => rfl, trivial, trivial, trivial, trivial,
      fun _ => .inl ⟨rfl, rfl⟩, trivial⟩

/-- The `hil.request` of the agent "researcher" in the session "sess-1" passes by that session
    and reaches a session that is called "researcher". -/
theorem request_reaches_namesake_of_agent : ∃ ev, (run HilSystem.step .init
      [.call (.open (upgradeHil "hil-1" "tok-1")), .step 0 ⟨0⟩, .step 0 ⟨0⟩, .step 0 ⟨0⟩,
        .step 0 ⟨0⟩]).manager.events = [ev] ∧
    (upgradeHil "hil-1" "tok-1").atpSessionId = "sess-1" ∧
    EventFilter.shouldReceive ⟨"sess-1", .user, ["*"]⟩ (ev.busEvent 0 .null) = false ∧
    EventFilter.shouldReceive ⟨"researcher", .user, ["*"]⟩ (ev.busEvent 0 .null) = true :=
  ⟨_, rfl, rfl, by decide, by decide⟩

end Avix.Security
