/-
  The event bus and a connection that subscribes to it (`gateway/event_bus.rs`, `run_connection`
  and the Subscribe frame in `gateway/server.rs`).

  A publisher takes a sequence number, puts the event into the ring of the last 512 events if it
  gets the lock at once, and broadcasts it. The connection has a receiver of its own, from which
  the pump forwards what passes the filter. The pump runs from the start; before a Subscribe
  frame the filter passes nothing. The frame changes the filter and replays the ring. All
  these are tasks of their own, so the order of their steps is open.

  Ghost state: the subscription, with the ring as it was then and what was published since.
-/
import Avix.Auth.AtpToken
import Avix.Types.Json
import Avix.Lib.Run

namespace Avix

open Lib

/-! ## Events -/

inductive AtpEventKind where
  | sessionReady | sessionClosing | sessionAgentAttached | sessionAgentDetached
  | sessionStatusChanged | tokenExpiring | agentSpawned | agentOutput | agentStatus
  | agentToolCall | agentToolResult | agentExit | procStart | procOutput | procExit | procSignal
  | hilRequest | hilResolved | fsChanged | toolChanged | cronFired | sysService | sysAlert
  | agentOutputChunk
  deriving DecidableEq, Repr

/-- How serde writes the kind. -/
def AtpEventKind.name : AtpEventKind → String
  | sessionReady => "session.ready"
  | sessionClosing => "session.closing"
  | sessionAgentAttached => "session.agent.attached"
  | sessionAgentDetached => "session.agent.detached"
  | sessionStatusChanged => "session.status"
  | tokenExpiring => "token.expiring"
  | agentSpawned => "agent.spawned"
  | agentOutput => "agent.output"
  | agentStatus => "agent.status"
  | agentToolCall => "agent.tool_call"
  | agentToolResult => "agent.tool_result"
  | agentExit => "agent.exit"
  | procStart => "proc.start"
  | procOutput => "proc.output"
  | procExit => "proc.exit"
  | procSignal => "proc.signal"
  | hilRequest => "hil.request"
  | hilResolved => "hil.resolved"
  | fsChanged => "fs.changed"
  | toolChanged => "tool.changed"
  | cronFired => "cron.fired"
  | sysService => "sys.service"
  | sysAlert => "sys.alert"
  | agentOutputChunk => "agent.output.chunk"

/-- `atp::frame::AtpEvent`. -/
structure AtpEvent where
  event : AtpEventKind
  sessionId : String
  body : Json

structure BusEvent where
  seq : UInt64
  event : AtpEvent
  ownerSession : Option String
  minRole : Role

structure EventFilter where
  sessionId : String
  role : Role
  subscribed : List String := []

namespace EventFilter

def wildcard : String := "*"

def shouldReceive (f : EventFilter) (ev : BusEvent) : Bool :=
  if f.role < ev.minRole then false
  else if ev.ownerSession.any (· ≠ f.sessionId) && decide (f.role < Role.operator) then false
  else if f.subscribed.isEmpty then false
  else if f.subscribed.contains wildcard then true
  else f.subscribed.contains ev.event.event.name

def wants (f : EventFilter) (kind : AtpEventKind) : Bool :=
  f.subscribed.contains wildcard || f.subscribed.contains kind.name

/-- The three gates: role, owner and subscription. -/
theorem shouldReceive_iff {f : EventFilter} {ev : BusEvent} : f.shouldReceive ev = true ↔
    ¬f.role < ev.minRole ∧
      (∀ owner ∈ ev.ownerSession, owner = f.sessionId ∨ ¬f.role < Role.operator) ∧
      f.wants ev.event.event = true := by
  have howner : (ev.ownerSession.any (· ≠ f.sessionId) && decide (f.role < Role.operator)) = false ↔
      ∀ owner ∈ ev.ownerSession, owner = f.sessionId ∨ ¬f.role < Role.operator := by
    cases ev.ownerSession with
    | none => simp
    | some owner =>
      simp only [Option.any_some, Option.mem_some_iff, forall_eq', Bool.and_eq_false_iff,
        decide_eq_false_iff_not, not_not]
  have hwants : f.wants ev.event.event = true → f.subscribed.isEmpty = false := by
    intro h
    cases hsub : f.subscribed with
    | nil => simp [wants, hsub] at h
    | cons => rfl
  unfold shouldReceive
  split_ifs with hrole hown hempty hwild
  · exact ⟨nofun, fun h => absurd hrole h.1⟩
  · refine ⟨nofun, fun h => ?_⟩
    rw [howner.mpr h.2.1] at hown
    exact absurd hown (by decide)
  · refine ⟨nofun, fun h => ?_⟩
    rw [hwants h.2.2] at hempty
    exact absurd hempty (by decide)
  · have hyes : f.wants ev.event.event = true := by rw [wants, hwild, Bool.true_or]
    exact ⟨fun _ => ⟨hrole, howner.mp (Bool.eq_false_of_not_eq_true hown), hyes⟩, fun _ => rfl⟩
  · have heq : f.wants ev.event.event = f.subscribed.contains ev.event.event.name := by
      rw [wants, Bool.eq_false_of_not_eq_true hwild, Bool.false_or]
    rw [← heq]
    exact ⟨fun h => ⟨hrole, howner.mp (Bool.eq_false_of_not_eq_true hown), h⟩, fun h => h.2.2⟩

/-- Without a subscription nothing is received. -/
theorem shouldReceive_of_unsubscribed {f : EventFilter} (h : f.subscribed = []) (ev : BusEvent) :
    f.shouldReceive ev = false := by
  unfold shouldReceive
  rw [h]
  split_ifs
  · rfl
  · rfl
  · rfl
  · contradiction
  · contradiction

end EventFilter

/-! ## The bus and the connection -/

def busCapacity : Nat := 1024

def ringCapacity : Nat := 512

/-- What a call of `publish` does next. -/
inductive PublishStage where
  | storing
  | sending
  deriving DecidableEq, Repr

/-- How far a Subscribe frame with a replay has come. -/
inductive Replay where
  | none
  /-- The ring is to be read. -/
  | since (seq : UInt64)
  | sending (events : List BusEvent)

/-- Ghost: the subscription of the connection. -/
structure EventSubscription where
  since : Option UInt64
  /-- The ring at that time, and what was published later. -/
  ring : List BusEvent
  later : List BusEvent := []

structure EventGateway where
  /-- It wraps around, as `fetch_add` does. -/
  seqCounter : UInt64 := 0
  ring : List BusEvent := []
  /-- Calls of `publish` under way. -/
  publishing : List (BusEvent × PublishStage) := []
  connected : Bool := false
  filter : EventFilter := { sessionId := "", role := .guest }
  busRx : List BusEvent := []
  /-- The event the pump holds. -/
  pumped : Option BusEvent := none
  replay : Replay := .none
  sent : List BusEvent := []
  subscription : Option EventSubscription := none

inductive BusInput where
  /-- A call of `publish` takes its number. -/
  | publish (event : AtpEvent) (ownerSession : Option String) (minRole : Role)
  /-- It goes on; the ring may be locked by another task. -/
  | publishNext (call : Nat) (locked : Bool)
  | connect (sessionId : String) (role : Role)
  /-- The pump takes an event from the receiver, -/
  | pumpReceive
  /-- and then looks at the filter. -/
  | pumpForward
  | subscribe (events : List String) (sinceSeq : Option UInt64)
  | replaySince
  /-- The next event of the replay. -/
  | replayNext

namespace EventGateway

variable (s : EventGateway)

def pushRing (ring : List BusEvent) (ev : BusEvent) : List BusEvent :=
  (if ring.length ≥ ringCapacity then ring.tail else ring) ++ [ev]

/-- `broadcast::Sender::send`: a receiver that lags loses the oldest event. -/
def broadcast (busRx : List BusEvent) (ev : BusEvent) : List BusEvent :=
  (if busRx.length ≥ busCapacity then busRx.tail else busRx) ++ [ev]

/-- Write an event to the client if it passes the filter. -/
def deliver (ev : BusEvent) : EventGateway :=
  { s with sent := s.sent ++ [ev].filter s.filter.shouldReceive }

def publishNext (i : Nat) (locked : Bool) : EventGateway :=
  match s.publishing[i]? with
  | some (ev, .storing) =>
    { s with
      ring :=
        if ev.event.event = .agentOutputChunk ∨ locked then s.ring else pushRing s.ring ev
      publishing := s.publishing.set i (ev, .sending) }
  | some (ev, .sending) =>
    { s with
      busRx := if s.connected then broadcast s.busRx ev else s.busRx
      publishing := s.publishing.eraseIdx i }
  | none => s

def subscribe (events : List String) (sinceSeq : Option UInt64) : EventGateway :=
  match s.connected, s.replay with
  | true, .none =>
    { s with
      filter := { s.filter with subscribed := events }
      replay := (sinceSeq.map Replay.since).getD .none
      subscription := some { since := sinceSeq, ring := s.ring } }
  | _, _ => s

def step : BusInput → EventGateway
  | .publish event ownerSession minRole =>
    let ev : BusEvent := ⟨s.seqCounter, event, ownerSession, minRole⟩
    { s with
      seqCounter := s.seqCounter + 1
      publishing := s.publishing ++ [(ev, .storing)]
      subscription := s.subscription.map fun sub => { sub with later := sub.later ++ [ev] } }
  | .publishNext call locked => s.publishNext call locked
  | .connect sessionId role =>
    if s.connected then s else { s with connected := true, filter := { sessionId, role } }
  | .pumpReceive =>
    match s.pumped, s.busRx with
    | none, ev :: busRx => { s with pumped := some ev, busRx }
    | _, _ => s
  | .pumpForward =>
    match s.pumped with
    | some ev => { s.deliver ev with pumped := none }
    | none => s
  | .subscribe events sinceSeq => s.subscribe events sinceSeq
  | .replaySince =>
    match s.replay with
    | .since n => { s with replay := .sending (s.ring.filter (n < ·.seq)) }
    | _ => s
  | .replayNext =>
    match s.replay with
    | .sending (ev :: events) => { s.deliver ev with replay := .sending events }
    | .sending [] => { s with replay := .none }
    | _ => s

end EventGateway

end Avix
