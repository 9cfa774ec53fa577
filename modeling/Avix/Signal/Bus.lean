/-
  Signals and the signal bus (`signal/kind.rs`, `signal/bus.rs`).

  Model. The bus has one `tokio::sync::broadcast` channel of capacity 64 for every pid that
  somebody has subscribed to. A channel is the list of the signals sent on it, a receiver is
  the position of the next signal it will see, and a receiver that has fallen more than 64
  signals behind skips to the oldest one still kept. `recv` is one poll: it may find nothing.

  A signal to a pid without a channel is lost. `unsubscribe` and `broadcast` have no caller and
  are left out, so a channel is never removed.
-/
import Avix.Types.Json

namespace Avix

inductive SignalKind where
  | start
  | pause
  | resume
  | kill
  | stop
  | save
  | pipe
  | escalate
  | usr1
  | usr2
  deriving DecidableEq, Repr

structure Signal where
  target : Pid
  kind : SignalKind
  payload : Json

def channelCapacity : Nat := 64

/-- `signal::bus::PidEntry`: the signals sent on the channel, and how many have subscribed. -/
structure PidEntry where
  sent : List Signal
  subCount : Nat

structure SignalBus where
  table : HashMap Pid PidEntry
  nextId : Nat

/-- `signal::bus::Subscription`: `next` is the position of the receiver in its channel. -/
structure Subscription where
  id : Nat
  pid : Pid
  next : Nat
  deriving DecidableEq, Repr

namespace SignalBus

def new : SignalBus := ⟨∅, 0⟩

def channel (bus : SignalBus) (pid : Pid) : List Signal :=
  ((bus.table.lookup pid).map (·.sent)).getD []

def subscribe (bus : SignalBus) (pid : Pid) : SignalBus × Subscription :=
  let entry := (bus.table.lookup pid).getD ⟨[], 0⟩
  (⟨bus.table.insert pid { entry with subCount := entry.subCount + 1 }, bus.nextId + 1⟩,
    ⟨bus.nextId, pid, entry.sent.length⟩)

def send (bus : SignalBus) (signal : Signal) : SignalBus :=
  match bus.table.lookup signal.target with
  | some entry =>
    ⟨bus.table.insert signal.target { entry with sent := entry.sent ++ [signal] }, bus.nextId⟩
  | none => bus

/-- One poll of `Subscription::recv`. The outer `none` is "not ready"; the inner one is a
    receiver that has lagged. -/
def recv (bus : SignalBus) (sub : Subscription) : Option (Option Signal × Subscription) :=
  let sent := bus.channel sub.pid
  if sub.next + channelCapacity < sent.length then
    some (none, { sub with next := sent.length - channelCapacity })
  else sent[sub.next]?.map fun signal => (some signal, { sub with next := sub.next + 1 })

theorem channel_subscribe (bus : SignalBus) (pid p : Pid) :
    (bus.subscribe pid).1.channel p = bus.channel p := by
  unfold channel subscribe
  by_cases hp : p = pid
  · rw [hp, AList.lookup_insert]
    cases bus.table.lookup pid <;> rfl
  · rw [AList.lookup_insert_ne hp]

/-- A channel holds what it held and perhaps the signal just sent. -/
theorem mem_channel_send {bus : SignalBus} {signal sig : Signal} {p : Pid}
    (h : sig ∈ (bus.send signal).channel p) : sig ∈ bus.channel p ∨ sig = signal := by
  unfold send at h
  cases hentry : bus.table.lookup signal.target with
  | none =>
    rw [hentry] at h
    exact .inl h
  | some entry =>
    rw [hentry] at h
    unfold channel at h ⊢
    by_cases hp : p = signal.target
    · rw [hp, hentry]
      rw [hp, AList.lookup_insert] at h
      simpa using h
    · rw [AList.lookup_insert_ne hp] at h
      exact .inl h

/-- A received signal was sent on the channel. -/
theorem mem_channel_of_recv {bus : SignalBus} {sub sub' : Subscription} {signal : Signal}
    (h : bus.recv sub = some (some signal, sub')) : signal ∈ bus.channel sub.pid := by
  unfold recv at h
  dsimp only at h
  split_ifs at h
  · simp at h
  obtain ⟨sig, hsig, heq⟩ := Option.map_eq_some_iff.mp h
  obtain rfl := Option.some.inj (Prod.mk.inj heq).1
  exact List.mem_of_getElem? hsig

end SignalBus

end Avix
