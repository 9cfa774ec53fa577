/-
  PROTOCOL — replay and live events reach a connection once and in order.

  `replay_exactly_once`: in every run of publishers and one connection whose steps meet
  `Uncrossed`: when nothing is under way any more, every event after the sequence number of
  the Subscribe frame that passes the filter, and that was in the ring then or was published
  later, has been sent once, and events are sent in the order of their numbers.

  `Uncrossed` asks that
  * calls of `publish` do not overlap. The number is taken before the ring and the channel, so
    two publishers can come there in the other order;
  * the frame comes when the pump has handled what was published, and nothing is published
    until the replay has been sent. The pump runs all the time, sends what the replay sends, too,
    and gets in between (`sent_twice`);
  * the receiver does not lag by 1024 events;
  * it is the first subscription of the connection;
  * fewer than 2^64 events are published. After that the numbers begin again at 0.
-/
import Avix.Gateway.EventBus

namespace Avix.Protocol

open Lib List EventGateway

/-! ## Statement -/

/-- What is asked of a step, in the state it starts from. -/
def Uncrossed (s : EventGateway) : BusInput → Prop
  | .publish _ _ _ =>
    s.publishing = [] ∧ s.replay = .none ∧ s.seqCounter.toNat + 1 < 2 ^ 64
  | .publishNext _ _ => s.busRx.length < busCapacity
  | .subscribe _ _ =>
    s.subscription = none ∧ s.publishing = [] ∧ s.busRx = [] ∧ s.pumped = none
  | .connect _ _ => True
  | .pumpReceive => True
  | .pumpForward => True
  | .replaySince => True
  | .replayNext => True

/-- Nothing is under way. -/
structure Quiet (s : EventGateway) : Prop where
  publishing : s.publishing = []
  busRx : s.busRx = []
  pumped : s.pumped = none
  replay : s.replay = .none

/-- The event has been sent exactly once. -/
def SentOnce (s : EventGateway) (ev : BusEvent) : Prop :=
  (s.sent.map (·.seq)).count ev.seq = 1

/-- Events in the order of their numbers. -/
def Ordered (events : List BusEvent) : Prop := events.Pairwise (·.seq < ·.seq)

/-! ## What holds between the steps -/

/-- What the client of a subscription is to get, before the filter. -/
def due (sub : EventSubscription) : List BusEvent :=
  (match sub.since with
    | some n => sub.ring.filter (n < ·.seq)
    | none => []) ++ sub.later

/-- The live events that have not been forwarded, oldest first. -/
def live (s : EventGateway) : List BusEvent :=
  s.pumped.toList ++ s.busRx ++ s.publishing.map (·.1)

/-- How far the delivery for a subscription has come. -/
def Delivered (s : EventGateway) (sub : EventSubscription) : Prop :=
  match s.replay with
  | .since n => live s = [] ∧ s.sent = [] ∧ sub = { since := some n, ring := s.ring }
  | .sending events => live s = [] ∧
    (due sub).filter s.filter.shouldReceive = s.sent ++ events.filter s.filter.shouldReceive
  | .none =>
    (due sub).filter s.filter.shouldReceive = s.sent ++ (live s).filter s.filter.shouldReceive

structure InOrder (s : EventGateway) : Prop where
  ring : Ordered s.ring
  ringBelow : ∀ ev ∈ s.ring, ev.seq < s.seqCounter
  /-- At most one call of `publish` is under way, and the event is the newest. -/
  publishing : s.publishing = [] ∨ ∃ ev stage, s.publishing = [(ev, stage)] ∧
    ev.seq < s.seqCounter ∧ (stage = .storing → ∀ ev' ∈ s.ring, ev'.seq < ev.seq)
  /-- Before the subscription nothing is sent. -/
  unsubscribed : s.subscription = none → s.filter.subscribed = [] ∧ s.sent = [] ∧ s.replay = .none
  subscribed : ∀ sub, s.subscription = some sub → s.connected = true ∧ Ordered (due sub) ∧
    (∀ ev ∈ due sub, ev.seq < s.seqCounter) ∧ Delivered s sub

section Steps

variable {s : EventGateway}

theorem inOrder_new : InOrder {} :=
  ⟨List.Pairwise.nil, nofun, .inl rfl, fun _ => ⟨rfl, rfl, rfl⟩, nofun⟩

variable {sub : EventSubscription} {ev : BusEvent}

/-- An event that is newer than all others. -/
theorem Ordered.concat {events : List BusEvent} (h : Ordered events)
    (hnew : ∀ ev' ∈ events, ev'.seq < ev.seq) : Ordered (events ++ [ev]) := by
  refine pairwise_append.mpr ⟨h, pairwise_singleton _ _, fun a ha b hb => ?_⟩
  rw [mem_singleton.mp hb]
  exact hnew a ha

theorem mem_pushRing {ring : List BusEvent} {ev' : BusEvent}
    (h : ev' ∈ EventGateway.pushRing ring ev) : ev' ∈ ring ∨ ev' = ev := by
  unfold pushRing at h
  rcases mem_append.mp h with h | h
  · split_ifs at h
    · exact .inl (mem_of_mem_tail h)
    · exact .inl h
  · exact .inr (mem_singleton.mp h)

theorem Ordered.pushRing {ring : List BusEvent} (h : Ordered ring)
    (hnew : ∀ ev' ∈ ring, ev'.seq < ev.seq) : Ordered (EventGateway.pushRing ring ev) := by
  unfold EventGateway.pushRing
  split_ifs
  · exact Ordered.concat (h.sublist (tail_sublist _))
      fun ev' hev' => hnew ev' (mem_of_mem_tail hev')
  · exact h.concat hnew

theorem due_append_later (sub : EventSubscription) (ev : BusEvent) :
    due { sub with later := sub.later ++ [ev] } = due sub ++ [ev] := by
  unfold due
  dsimp only
  rw [append_assoc]

theorem delivered_none (h : s.replay = .none) :
    Delivered s sub ↔ (due sub).filter s.filter.shouldReceive =
      s.sent ++ (live s).filter s.filter.shouldReceive := by
  unfold Delivered
  rw [h]

/-- While there are live events, no replay is under way. -/
theorem replay_of_live (h : Delivered s sub) (hlive : live s ≠ []) : s.replay = .none := by
  unfold Delivered at h
  cases hrepl : s.replay with
  | none => rfl
  | _ =>
    rw [hrepl] at h
    exact absurd h.1 hlive

theorem Delivered.move {s' : EventGateway} (h : Delivered s sub) (hlive : live s' = live s)
    (hne : live s ≠ []) (hfilt : s'.filter = s.filter) (hsent : s'.sent = s.sent)
    (hrepl : s'.replay = s.replay) : Delivered s' sub := by
  have hnone := replay_of_live h hne
  rw [delivered_none (hrepl.trans hnone), hlive, hfilt, hsent]
  exact (delivered_none hnone).mp h

variable (h : InOrder s)

include h

theorem InOrder.publish {event : AtpEvent} {ownerSession : Option String} {minRole : Role}
    (hpubl : s.publishing = []) (hrepl : s.replay = .none)
    (hseq : s.seqCounter.toNat + 1 < 2 ^ 64) :
    InOrder (s.step (.publish event ownerSession minRole)) := by
  have hnext : s.seqCounter < s.seqCounter + 1 := by
    rw [UInt64.lt_iff_toNat_lt, UInt64.toNat_add, UInt64.toNat_one, Nat.mod_eq_of_lt hseq]
    exact Nat.lt_succ_self _
  refine ⟨h.ring, fun ev hev => UInt64.lt_trans (h.ringBelow ev hev) hnext, .inr ?_,
    fun hnone => ?_, fun sub' hsub' => ?_⟩
  · refine ⟨⟨s.seqCounter, event, ownerSession, minRole⟩, .storing, ?_, hnext,
      fun _ => h.ringBelow⟩
    change s.publishing ++ _ = _
    rw [hpubl]
    rfl
  · exact h.unsubscribed (Option.map_eq_none_iff.mp hnone)
  · obtain ⟨sub, hsub, rfl⟩ := Option.map_eq_some_iff.mp hsub'
    obtain ⟨hconn, hord, hbelow, hdel⟩ := h.subscribed sub hsub
    have hlive : live (s.step (.publish event ownerSession minRole)) =
        live s ++ [⟨s.seqCounter, event, ownerSession, minRole⟩] := by
      have hnew : (s.step (.publish event ownerSession minRole)).publishing =
          s.publishing ++ [(⟨s.seqCounter, event, ownerSession, minRole⟩, .storing)] := rfl
      unfold live
      rw [hnew, map_append, ← append_assoc]
      rfl
    rw [due_append_later]
    refine ⟨hconn, hord.concat hbelow, fun ev hev => ?_, ?_⟩
    · rcases mem_append.mp hev with hev | hev
      · exact UInt64.lt_trans (hbelow ev hev) hnext
      · rw [mem_singleton.mp hev]
        exact hnext
    · have hrepl' : (s.step (.publish event ownerSession minRole)).replay = .none := hrepl
      rw [delivered_none hrepl', hlive, due_append_later, filter_append,
        filter_append, ← append_assoc]
      exact congrArg (· ++ _) ((delivered_none hrepl).mp hdel)

/-- The call of `publish` goes on. -/
theorem InOrder.publishNext (i : Nat) (locked : Bool) (hlag : s.busRx.length < busCapacity) :
    InOrder (s.publishNext i locked) := by
  rcases h.publishing with hnone | ⟨ev, stage, hpub, hbelow, hnew⟩
  · unfold EventGateway.publishNext
    rw [hnone, getElem?_nil]
    exact h
  cases i with
  | succ i =>
    unfold EventGateway.publishNext
    rw [hpub, getElem?_cons_succ, getElem?_nil]
    exact h
  | zero =>
    have hne : live s ≠ [] := by
      unfold live
      rw [hpub]
      simp
    unfold EventGateway.publishNext
    rw [hpub, getElem?_cons_zero]
    cases stage with
    | storing =>
      dsimp only
      refine ⟨?_, fun ev' hev' => ?_, .inr ⟨ev, .sending, rfl, hbelow, nofun⟩,
        h.unsubscribed, fun sub hsub => ?_⟩
      · split_ifs
        · exact h.ring
        · exact h.ring.pushRing (hnew rfl)
      · split_ifs at hev'
        · exact h.ringBelow ev' hev'
        · rcases mem_pushRing hev' with hold | rfl
          · exact h.ringBelow ev' hold
          · exact hbelow
      · obtain ⟨hconn, hord, hdue, hdel⟩ := h.subscribed sub hsub
        refine ⟨hconn, hord, hdue, hdel.move ?_ hne rfl rfl rfl⟩
        unfold live
        rw [hpub]
        rfl
    | sending =>
      dsimp only
      refine ⟨h.ring, h.ringBelow, .inl rfl, h.unsubscribed, fun sub hsub => ?_⟩
      obtain ⟨hconn, hord, hdue, hdel⟩ := h.subscribed sub hsub
      refine ⟨hconn, hord, hdue, hdel.move ?_ hne rfl rfl rfl⟩
      have hqueue : broadcast s.busRx ev = s.busRx ++ [ev] := by
        unfold broadcast
        rw [if_neg (Nat.not_le.mpr hlag)]
      unfold live
      rw [hpub]
      dsimp only
      rw [hconn, if_pos rfl, hqueue]
      simp only [eraseIdx_cons_zero, map_nil, append_nil, map_cons, append_assoc]

theorem InOrder.connect (sessionId : String) (role : Role) :
    InOrder (s.step (.connect sessionId role)) := by
  unfold step
  dsimp only
  split_ifs with hconn
  · exact h
  refine ⟨h.ring, h.ringBelow, h.publishing, fun hnone => ?_, fun sub hsub => ?_⟩
  · exact ⟨rfl, (h.unsubscribed hnone).2⟩
  · exact absurd (h.subscribed sub hsub).1 hconn

theorem InOrder.pumpReceive : InOrder (s.step .pumpReceive) := by
  unfold step
  dsimp only
  cases hpump : s.pumped with
  | some ev => exact h
  | none =>
    cases hrx : s.busRx with
    | nil => exact h
    | cons ev busRx =>
      refine ⟨h.ring, h.ringBelow, h.publishing, h.unsubscribed, fun sub hsub => ?_⟩
      obtain ⟨hconn, hord, hdue, hdel⟩ := h.subscribed sub hsub
      have hlive : live s = [ev] ++ busRx ++ s.publishing.map (·.1) := by
        unfold live
        rw [hpump, hrx]
        rfl
      refine ⟨hconn, hord, hdue, hdel.move hlive.symm ?_ rfl rfl rfl⟩
      rw [hlive]
      simp

theorem InOrder.pumpForward : InOrder (s.step .pumpForward) := by
  unfold step
  dsimp only
  cases hpump : s.pumped with
  | none => exact h
  | some ev =>
    refine ⟨h.ring, h.ringBelow, h.publishing, fun hnone => ?_, fun sub hsub => ?_⟩
    · obtain ⟨hfilt, hsent, hrepl⟩ := h.unsubscribed hnone
      refine ⟨hfilt, ?_, hrepl⟩
      change s.sent ++ [ev].filter s.filter.shouldReceive = []
      rw [hsent, filter_singleton, EventFilter.shouldReceive_of_unsubscribed hfilt]
      rfl
    · obtain ⟨hconn, hord, hdue, hdel⟩ := h.subscribed sub hsub
      have hlive : live s = [ev] ++ (s.busRx ++ s.publishing.map (·.1)) := by
        unfold live
        rw [hpump, append_assoc]
        rfl
      have hnone := replay_of_live hdel (by rw [hlive]; simp)
      refine ⟨hconn, hord, hdue, ?_⟩
      refine (delivered_none (s := { s.deliver ev with pumped := none }) hnone).mpr ?_
      have hall := (delivered_none hnone).mp hdel
      rw [hlive, filter_append, ← append_assoc] at hall
      exact hall

theorem InOrder.subscribe (events : List String) (sinceSeq : Option UInt64)
    (hfirst : s.subscription = none) (hpubl : s.publishing = []) (hrx : s.busRx = [])
    (hpump : s.pumped = none) : InOrder (s.subscribe events sinceSeq) := by
  obtain ⟨-, hsent, hrepl⟩ := h.unsubscribed hfirst
  unfold EventGateway.subscribe
  rw [hrepl]
  cases hconn : s.connected with
  | false => exact h
  | true =>
    dsimp only
    have hlive : ∀ s' : EventGateway, s'.pumped = s.pumped → s'.busRx = s.busRx →
        s'.publishing = s.publishing → live s' = [] := by
      intro s' hpump' hrx' hpubl'
      unfold live
      rw [hpump', hrx', hpubl', hpump, hrx, hpubl]
      rfl
    refine ⟨h.ring, h.ringBelow, h.publishing, fun hnone => ?_, fun sub hsub => ?_⟩
    · cases hnone
    cases hsub
    cases sinceSeq with
    | none =>
      have hdue : due { since := none, ring := s.ring } = [] := rfl
      rw [hdue]
      refine ⟨rfl, List.Pairwise.nil, nofun, ?_⟩
      rw [delivered_none rfl, hdue, hlive]
      · exact (congrArg (· ++ []) hsent).symm
      all_goals rfl
    | some n =>
      have hdue : due { since := some n, ring := s.ring } = s.ring.filter (n < ·.seq) :=
        append_nil _
      rw [hdue]
      refine ⟨rfl, h.ring.filter _, fun ev hev => ?_, hlive _ rfl rfl rfl, hsent, rfl⟩
      exact h.ringBelow ev (mem_of_mem_filter hev)

theorem InOrder.replaySince : InOrder (s.step .replaySince) := by
  unfold step
  dsimp only
  cases hrepl : s.replay with
  | none | sending events => exact h
  | since n =>
    refine ⟨h.ring, h.ringBelow, h.publishing, fun hnone => ?_, fun sub hsub => ?_⟩
    · have := (h.unsubscribed hnone).2.2
      rw [hrepl] at this
      cases this
    · obtain ⟨hconn, hord, hdue, hdel⟩ := h.subscribed sub hsub
      unfold Delivered at hdel
      rw [hrepl] at hdel
      obtain ⟨hlive, hsent, rfl⟩ := hdel
      refine ⟨hconn, hord, hdue, hlive, ?_⟩
      have hsince : due { since := some n, ring := s.ring } = s.ring.filter (n < ·.seq) :=
        append_nil _
      rw [hsince, hsent]
      rfl

theorem InOrder.replayNext : InOrder (s.step .replayNext) := by
  unfold step
  dsimp only
  cases hrepl : s.replay with
  | none | since n => exact h
  | sending events =>
    have hsubs : s.subscription ≠ none := by
      intro hnone
      have := (h.unsubscribed hnone).2.2
      rw [hrepl] at this
      cases this
    cases events with
    | nil =>
      refine ⟨h.ring, h.ringBelow, h.publishing, fun hnone => absurd hnone hsubs,
        fun sub hsub => ?_⟩
      obtain ⟨hconn, hord, hdue, hdel⟩ := h.subscribed sub hsub
      unfold Delivered at hdel
      rw [hrepl] at hdel
      refine ⟨hconn, hord, hdue, (delivered_none rfl).mpr ?_⟩
      change _ = s.sent ++ (live s).filter s.filter.shouldReceive
      rw [hdel.1]
      exact hdel.2
    | cons ev events =>
      refine ⟨h.ring, h.ringBelow, h.publishing, fun hnone => absurd hnone hsubs,
        fun sub hsub => ?_⟩
      obtain ⟨hconn, hord, hdue, hdel⟩ := h.subscribed sub hsub
      unfold Delivered at hdel
      rw [hrepl] at hdel
      refine ⟨hconn, hord, hdue, hdel.1, ?_⟩
      change _ = (s.sent ++ [ev].filter s.filter.shouldReceive) ++
        events.filter s.filter.shouldReceive
      rw [append_assoc, ← filter_append]
      exact hdel.2

theorem InOrder.step (e : BusInput) (hguard : Uncrossed s e) : InOrder (s.step e) := by
  cases e with
  | publish event ownerSession minRole =>
    obtain ⟨hpubl, hrepl, hseq⟩ := hguard
    exact h.publish hpubl hrepl hseq
  | publishNext call locked => exact h.publishNext call locked hguard
  | connect sessionId role => exact h.connect sessionId role
  | pumpReceive => exact h.pumpReceive
  | pumpForward => exact h.pumpForward
  | subscribe events sinceSeq =>
    obtain ⟨hfirst, hpubl, hrx, hpump⟩ := hguard
    exact h.subscribe events sinceSeq hfirst hpubl hrx hpump
  | replaySince => exact h.replaySince
  | replayNext => exact h.replayNext

/-- When nothing is under way, what was due has been sent. -/
theorem InOrder.sent_eq (hquiet : Quiet s) (hsub : s.subscription = some sub) :
    s.sent = (due sub).filter s.filter.shouldReceive := by
  obtain ⟨-, -, -, hdel⟩ := h.subscribed sub hsub
  have hlive : live s = [] := by
    unfold live
    rw [hquiet.pumped, hquiet.busRx, hquiet.publishing]
    rfl
  rw [(delivered_none hquiet.replay).mp hdel, hlive]
  exact (append_nil _).symm

end Steps

/-! ## Main statement -/

theorem replay_exactly_once (es : List BusInput)
    (h : Guarded EventGateway.step Uncrossed {} es)
    (hquiet : Quiet (run EventGateway.step {} es)) (sub : EventSubscription)
    (hsub : (run EventGateway.step {} es).subscription = some sub) (n : UInt64)
    (hsince : sub.since = some n) :
    let s := run step {} es
    (∀ ev, ev ∈ sub.ring ∨ ev ∈ sub.later → n < ev.seq → s.filter.shouldReceive ev = true →
      SentOnce s ev) ∧
    Ordered s.sent := by
  intro s
  have hinv : InOrder s :=
    guarded_invariant (fun _ e hs hguard => hs.step e hguard) inOrder_new h
  have hsent := hinv.sent_eq hquiet hsub
  have hord : Ordered s.sent := by
    rw [hsent]
    exact (hinv.subscribed sub hsub).2.1.filter _
  refine ⟨fun ev hev hn hpass => ?_, hord⟩
  have hmem : ev ∈ s.sent := by
    rw [hsent, mem_filter]
    refine ⟨?_, hpass⟩
    unfold due
    rw [hsince]
    rcases hev with hring | hlater
    · exact mem_append_left _ (mem_filter.mpr ⟨hring, decide_eq_true hn⟩)
    · exact mem_append_right _ hlater
  have hnodup : (s.sent.map (·.seq)).Nodup :=
    pairwise_map.mpr (hord.imp fun hlt => UInt64.ne_of_lt hlt)
  exact count_eq_one_of_mem hnodup (mem_map_of_mem hmem)

/-! ## A subscription among live events -/

/-- An alert that every operator may see. -/
def alert : BusInput := .publish ⟨.sysAlert, "", .null⟩ none .operator

/-- It is published at one go. -/
def alerts : List BusInput := [alert, .publishNext 0 false, .publishNext 0 false]

/-- The pump handles one event. -/
def pumps : List BusInput := [.pumpReceive, .pumpForward]

/-- An operator subscribes to everything after number 0, and one event is replayed. -/
def subscribes : List BusInput :=
  [.subscribe ["*"] (some 0), .replaySince, .replayNext, .replayNext]

def connects : BusInput := .connect "s" .operator

/-- Two alerts are handled before the subscription, and a third comes afterwards. -/
def calmRun : List BusInput :=
  connects :: (alerts ++ pumps ++ alerts ++ pumps ++ subscribes ++ alerts ++ pumps)

theorem uncrossed_next {s : EventGateway} {call : Nat} {locked : Bool}
    (h : s.busRx.length < busCapacity) : Uncrossed s (.publishNext call locked) := h

theorem calmRun_uncrossed : Guarded EventGateway.step Uncrossed {} calmRun :=
  ⟨trivial, ⟨rfl, rfl, by decide⟩, uncrossed_next (by decide), uncrossed_next (by decide), trivial,
    trivial, ⟨rfl, rfl, by decide⟩, uncrossed_next (by decide), uncrossed_next (by decide), trivial,
    trivial, ⟨rfl, rfl, rfl, rfl⟩, trivial, trivial, trivial, ⟨rfl, rfl, by decide⟩,
    uncrossed_next (by decide), uncrossed_next (by decide), trivial, trivial, trivial⟩

/-- The events 1 and 2 have been sent. -/
theorem replay_exactly_once_calm : (run EventGateway.step {} calmRun).sent.map (·.seq) = [1, 2] ∧
    Ordered (run EventGateway.step {} calmRun).sent := by
  refine ⟨by decide, ?_⟩
  exact (replay_exactly_once calmRun calmRun_uncrossed ⟨rfl, rfl, rfl, rfl⟩ _ rfl 0 rfl).2

def lateRun : List BusInput :=
  connects :: (alerts ++ alerts ++ subscribes ++ pumps ++ pumps)

/-- Two publishers take their numbers, and the second one broadcasts first. -/
def crossedRun : List BusInput :=
  connects :: (alerts ++ pumps ++ subscribes ++
    [alert, alert, .publishNext 1 false, .publishNext 1 false, .publishNext 0 false,
      .publishNext 0 false] ++ pumps ++ pumps)

/-- Event 1 is sent twice and event 0 after it; with overlapping publishers event 2 comes before
    event 1. -/
theorem sent_twice : (run EventGateway.step {} lateRun).sent.map (·.seq) = [1, 0, 1] ∧
    (run EventGateway.step {} crossedRun).sent.map (·.seq) = [2, 1] := by
  decide

end Avix.Protocol
