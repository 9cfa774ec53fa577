/-
  PROTOCOL — the keep-alive of an ATP connection (`run_connection` in `gateway/server.rs`).

  The reader loop waits for a frame of the peer or a tick of the ping timer, whichever comes
  first. How long it waits is open, so that ticks may come late. Times are in seconds.

  `keep_alive_iff`: in a run, every ping tick closes the connection if the last pong (or
  the opening) is more than 40 seconds ago, and only if a ping has gone unanswered for more than
  40 seconds — exactly if, at every tick that finds the last pong more than 40 seconds ago, the
  tick before it is also more than 40 seconds ago, and a ping has gone unanswered that long.

  Reason. A tick that does not close the connection sets `last_pong` as if a pong had come. With
  a tick every 30 seconds the connection of a silent peer is never closed (`silent_peer_kept`).
-/
import Avix.Lib.Run

namespace Avix.Protocol

open Lib

/-- 30 seconds between two pings and 10 for the answer. -/
def pongTimeout : Nat := 40

/-- What the reader loop gets. -/
inductive ReaderInput where
  | text
  | pong
  | close
  /-- A frame of another kind, or an error. -/
  | other
  | pingTick
  deriving DecidableEq, Repr

structure KeepAlive where
  now : Nat := 0
  lastPong : Nat := 0
  isOpen : Bool := true
  /-- Ghost: the last pong that was received, or the opening. -/
  received : Nat := 0
  /-- Ghost: the last tick, or the opening. -/
  ticked : Nat := 0
  /-- Ghost: when pings were sent and pongs received. -/
  pings : List Nat := []
  pongs : List Nat := []

namespace KeepAlive

/-- The loop gets an input after it has waited for some time. -/
def step (s : KeepAlive) (e : Nat × ReaderInput) : KeepAlive :=
  let now := s.now + e.1
  if s.isOpen then
    match e.2 with
    | .text => { s with now }
    | .pong => { s with now, lastPong := now, received := now, pongs := now :: s.pongs }
    | .close => { s with now, isOpen := false }
    | .other => { s with now }
    | .pingTick =>
      if now - s.lastPong > pongTimeout then { s with now, isOpen := false }
      else { s with now, lastPong := now, ticked := now, pings := now :: s.pings }
  else s

/-- A ping was not answered in time. -/
def Unanswered (s : KeepAlive) (now : Nat) : Prop :=
  ∃ ping ∈ s.pings, ping + pongTimeout < now ∧
    ∀ pong ∈ s.pongs, pong < ping ∨ ping + pongTimeout < pong

/-- The last pong is too long ago. -/
def Overdue (s : KeepAlive) (now : Nat) : Prop := now - s.received > pongTimeout

/-- A tick closes the connection when it must, and only when it may. -/
def Right (s : KeepAlive) (e : Nat × ReaderInput) : Prop :=
  e.2 = .pingTick → s.isOpen = true → (s.Overdue (s.now + e.1) → (s.step e).isOpen = false) ∧
      ((s.step e).isOpen = false → s.Unanswered (s.now + e.1))

/-- No tick in the last 40 seconds either, and a ping has gone unanswered. -/
def Timely (s : KeepAlive) (e : Nat × ReaderInput) : Prop :=
  e.2 = .pingTick → s.isOpen = true → s.Overdue (s.now + e.1) →
    s.now + e.1 - s.ticked > pongTimeout ∧ s.Unanswered (s.now + e.1)

/-- `last_pong` is the last pong or the last tick. -/
structure Kept (s : KeepAlive) : Prop where
  lastPong : s.lastPong = max s.received s.ticked
  past : s.received ≤ s.now ∧ s.ticked ≤ s.now

theorem kept_step (s : KeepAlive) (e : Nat × ReaderInput) (h : s.Kept) : (s.step e).Kept := by
  obtain ⟨wait, input⟩ := e
  have hrec : s.received ≤ s.now + wait := Nat.le_add_right_of_le h.past.1
  have htick : s.ticked ≤ s.now + wait := Nat.le_add_right_of_le h.past.2
  unfold step
  by_cases hopen : s.isOpen = true
  · rw [if_pos hopen]
    cases input with
    | pingTick =>
      dsimp only
      split_ifs
      · exact ⟨h.lastPong, hrec, htick⟩
      · exact ⟨(max_eq_right hrec).symm, hrec, le_refl _⟩
    | pong => exact ⟨(max_eq_left htick).symm, le_refl _, htick⟩
    | _ => exact ⟨h.lastPong, hrec, htick⟩
  · rw [if_neg hopen]
    exact h

/-- A tick closes the connection when neither a pong nor a tick came in the last 40 seconds. -/
theorem isOpen_tick {s : KeepAlive} (h : s.Kept) (hopen : s.isOpen = true) (wait : Nat) :
    (s.step (wait, .pingTick)).isOpen = false ↔
      s.Overdue (s.now + wait) ∧ s.now + wait - s.ticked > pongTimeout := by
  have hlast := h.lastPong
  unfold step Overdue
  rw [if_pos hopen]
  dsimp only
  split_ifs with hlate
  · exact iff_of_true rfl ⟨by omega, by omega⟩
  · simp only [hopen, Bool.true_eq_false, false_iff, not_and]
    omega

theorem right_iff (s : KeepAlive) (e : Nat × ReaderInput) (h : s.Kept) :
    s.Right e ↔ s.Timely e := by
  obtain ⟨wait, input⟩ := e
  refine forall_congr' fun htick => forall_congr' fun hopen => ?_
  obtain rfl : input = .pingTick := htick
  rw [isOpen_tick h hopen]
  constructor
  · rintro ⟨hclos, hansw⟩ hover
    exact ⟨(hclos hover).2, hansw (hclos hover)⟩
  · intro htim
    exact ⟨fun hover => ⟨hover, (htim hover).1⟩, fun h => (htim h.1).2⟩

end KeepAlive

open KeepAlive

theorem keep_alive_iff (es : List (Nat × ReaderInput)) :
    Guarded step Right {} es ↔ Guarded step Timely {} es := by
  have hany : Guarded step (fun _ _ => True) {} es := guarded_of_forall fun _ _ => trivial
  exact guarded_congr (fun s e hkept _ => kept_step s e hkept)
    (fun s e hkept _ => right_iff s e hkept) ⟨rfl, le_refl _, le_refl _⟩ hany

/-- A peer that never answers is still connected after the second ping. -/
theorem silent_peer_kept :
    let ticks := [(30, ReaderInput.pingTick), (30, .pingTick)]
    (run step {} ticks).isOpen = true ∧ (run step {} ticks).Overdue (run step {} ticks).now ∧
      (run step {} ticks).pongs = [] ∧ ¬Guarded step Right {} ticks := by
  refine ⟨rfl, by unfold Overdue; decide, rfl, fun h => ?_⟩
  have hclos := (h.2.1 rfl rfl).1 (by unfold Overdue; decide)
  exact absurd hclos (by decide)

end Avix.Protocol
