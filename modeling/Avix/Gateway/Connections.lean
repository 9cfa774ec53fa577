/-
  The connections of the gateway (`run_connection`, `handle_text_frame` and `writer_task` in
  `gateway/server.rs`).

  An upgrade validates its token and then starts the connection. Three tasks run for it: the pump
  forwards events of the bus that pass the filter, the reader loop handles frames, and the writer
  takes what both have sent from a channel and writes it to the socket. A step is one access of
  one task. When the reader loop ends, the writer is aborted with what is left in its channel; the
  pump goes on and sends into nothing.

  The reader loop asks the token store for commands only. What a command does is an input of its
  own, and replies and pings are left out of the channel; a full channel makes a send wait, which
  is a later step. The bus is that of `Gateway/EventBus`, tokens and sessions are those of
  `Gateway/AuthSystem`.

  Ghost state: `revoked`, the sessions whose revocation has been completed.
-/
import Avix.Gateway.AuthSystem
import Avix.Gateway.EventBus

namespace Avix

open Lib

/-- Where the reader loop is. -/
inductive ReaderPc where
  | idle
  /-- A command has been accepted; the expiry of its token is to be looked at, -/
  | accepted (token : String)
  /-- and then announced. -/
  | expiring
  /-- A Subscribe frame: the ring is to be read, -/
  | since (seq : UInt64)
  /-- and then replayed. -/
  | replaying (events : List BusEvent)

structure GatewayConnection where
  filter : EventFilter
  isOpen : Bool := true
  busRx : List BusEvent := []
  /-- The event the pump holds. -/
  pumped : Option BusEvent := none
  reader : ReaderPc := .idle
  /-- The events in the channel to the writer. -/
  outbox : List AtpEvent := []
  sent : List AtpEvent := []

inductive ConnectionInput where
  | pumpReceive
  | pumpForward
  | command (cmd : AtpCmd) (seen : ReplayGuard) (isAdminPort : Bool)
  | checkExpiry
  | announceExpiry
  | subscribe (events : List String) (sinceSeq : Option UInt64)
  | replaySince
  | replayNext
  | write
  | close

def ATPTokenClaims.isExpiringSoon (claims : ATPTokenClaims) (now : DateTime) : Bool :=
  let remaining := claims.exp.nanos - now.nanos
  decide (remaining < 300 * 1000000000) && decide (0 < remaining)

/-- `ATPTokenStore::is_expiring_soon`, with an error as false. -/
def ATPTokenStore.isExpiringSoon (codec : TokenCodec) (store : ATPTokenStore) (token : String)
    (now : DateTime) : Bool :=
  match store.validate codec token now with
  | .ok claims => claims.isExpiringSoon now
  | .error _ => false

namespace GatewayConnection

/-- A new connection: the event `session.ready` is in its channel. -/
def new (claims : ATPTokenClaims) : GatewayConnection where
  filter := { sessionId := claims.sessionId, role := claims.role }
  outbox := [⟨.sessionReady, claims.sessionId,
    .ofMembers [("sessionId", .string claims.sessionId)]⟩]

variable (codec : TokenCodec) (auth : AuthSystem) (ring : List BusEvent) (c : GatewayConnection)

/-- `tx.send`: nobody receives any more when the connection is closed. -/
def send (ev : AtpEvent) : GatewayConnection :=
  if c.isOpen then { c with outbox := c.outbox ++ [ev] } else c

/-- Send an event of the bus if it passes the filter. -/
def forward (ev : BusEvent) : GatewayConnection :=
  if c.filter.shouldReceive ev then c.send ev.event else c

/-- A step of the reader loop of an open connection. -/
def read : ReaderPc → ConnectionInput → GatewayConnection
  | .idle, .command cmd seen isAdminPort =>
    match (validateCmd codec auth.tokenStore seen auth.now cmd c.filter.sessionId
        isAdminPort).2 with
    | .ok v => { c with reader := .accepted v.cmd.token }
    | .error _ => c
  | .accepted token, .checkExpiry =>
    { c with reader := if auth.tokenStore.isExpiringSoon codec token auth.now
        then .expiring else .idle }
  | .expiring, .announceExpiry =>
    { c.send ⟨.tokenExpiring, c.filter.sessionId, .ofMembers []⟩ with reader := .idle }
  | .idle, .subscribe events sinceSeq =>
    { c with
      filter := { c.filter with subscribed := events }
      reader := (sinceSeq.map ReaderPc.since).getD .idle }
  | .since n, .replaySince => { c with reader := .replaying (ring.filter (n < ·.seq)) }
  | .replaying (ev :: events), .replayNext => { c.forward ev with reader := .replaying events }
  | .replaying [], .replayNext => { c with reader := .idle }
  | _, _ => c

def step : ConnectionInput → GatewayConnection
  | .pumpReceive =>
    match c.pumped, c.busRx with
    | none, ev :: busRx => { c with pumped := some ev, busRx }
    | _, _ => c
  | .pumpForward =>
    match c.pumped with
    | some ev => { c.forward ev with pumped := none }
    | none => c
  | .write =>
    match c.isOpen, c.outbox with
    | true, ev :: outbox => { c with outbox, sent := c.sent ++ [ev] }
    | _, _ => c
  | .close => { c with isOpen := false, outbox := [] }
  | e => if c.isOpen then c.read codec auth ring c.reader e else c

end GatewayConnection

structure ConnectionSystem where
  auth : AuthSystem
  seqCounter : UInt64 := 0
  ring : List BusEvent := []
  publishing : List (BusEvent × PublishStage) := []
  /-- Upgrades whose token is valid. -/
  upgrading : List ATPTokenClaims := []
  connections : List GatewayConnection := []
  revoked : List String := []

inductive GatewayInput where
  | auth (e : AuthInput)
  | publish (event : AtpEvent) (ownerSession : Option String) (minRole : Role)
  | publishNext (call : Nat) (locked : Bool)
  | upgrade (token : String)
  /-- The upgrade with this number starts its connection. -/
  | connect (i : Nat)
  | connection (i : Nat) (e : ConnectionInput)

/-- The session whose revocation the step completes: by `logout`, or by `revoke_session` alone. -/
def AuthSystem.completes (s : AuthSystem) : AuthInput → Option String
  | .revokeSession sessionId => (s.authSvc.sessions.lookup sessionId).map fun _ => sessionId
  | .resume i =>
    match s.calls[i]? with
    | some (.loggingOut sessionId) => some sessionId
    | _ => none
  | _ => none

namespace ConnectionSystem

variable (codec : TokenCodec) (s : ConnectionSystem)

def publishNext (i : Nat) (locked : Bool) : ConnectionSystem :=
  match s.publishing[i]? with
  | some (ev, .storing) =>
    { s with
      ring :=
        if ev.event.event = .agentOutputChunk ∨ locked then s.ring
        else EventGateway.pushRing s.ring ev
      publishing := s.publishing.set i (ev, .sending) }
  | some (ev, .sending) =>
    { s with
      connections := s.connections.map fun c =>
        { c with busRx := EventGateway.broadcast c.busRx ev }
      publishing := s.publishing.eraseIdx i }
  | none => s

def step : GatewayInput → ConnectionSystem
  | .auth e =>
    { s with
      auth := s.auth.step codec e
      revoked := s.revoked ++ (s.auth.completes e).toList }
  | .publish event ownerSession minRole =>
    { s with
      seqCounter := s.seqCounter + 1
      publishing := s.publishing ++ [(⟨s.seqCounter, event, ownerSession, minRole⟩, .storing)] }
  | .publishNext call locked => s.publishNext call locked
  | .upgrade token =>
    match s.auth.tokenStore.validate codec token s.auth.now with
    | .ok claims => { s with upgrading := s.upgrading ++ [claims] }
    | .error _ => s
  | .connect i =>
    match s.upgrading[i]? with
    | some claims =>
      { s with
        upgrading := s.upgrading.eraseIdx i
        connections := s.connections ++ [.new claims] }
    | none => s
  | .connection i e =>
    { s with connections := s.connections.modify i (·.step codec s.auth s.ring e) }

end ConnectionSystem

end Avix
