/-
  SECURITY — how a human decision reaches the executor that waits for it.

  A waiter takes only a Resume signal whose payload names its request. `resolve` sends no signal
  at all, and the Resume of `timeout_hil` carries a decision but no `hilId`.

  `outcome_never_delivered`: in every interleaving of every set of calls, no signal that
  names a request is ever sent, so no outcome is delivered to the waiter of its request, and a
  waiter that ends has ended by its own timeout.

  `approved_but_timed_out` is a run in which the manager records "approved" and the waiter
  reports a timeout.
-/
import Avix.Kernel.HilManager

namespace Avix.Security

open Lib

/-! ## No signal names a request -/

/-- The payload has no `hilId`. -/
def Unaddressed (signal : Signal) : Prop := (signal.payload.index "hilId").asStr = none

theorem Unaddressed.not_resumes {signal : Signal} (h : Unaddressed signal) (hilId : String) :
    signal.resumes hilId = false := by
  rw [Unaddressed] at h
  simp [Signal.resumes, h]

/-- No signal that was sent, and none in a channel, names a request. -/
structure Silent (m : HilManager) : Prop where
  sent : ∀ signal ∈ m.sent, Unaddressed signal
  channels : ∀ pid, ∀ signal ∈ m.signalBus.channel pid, Unaddressed signal

/-- The task is not a waiter that ended with a payload. -/
def NotAnswered (t : HilTask) : Prop := ∀ payload w, t ≠ .wait (.ended (some payload)) w

theorem silent_new : Silent .new := by
  refine ⟨by simp [HilManager.new], ?_⟩
  intro pid signal hsign
  cases hsign

theorem Silent.send {m : HilManager} (h : Silent m) {signal : Signal} (hs : Unaddressed signal) :
    Silent (m.send signal) := by
  refine ⟨?_, ?_⟩
  · intro sig hsig
    rcases List.mem_append.mp hsig with hold | hnew
    · exact h.sent sig hold
    · rw [List.mem_singleton.mp hnew]
      exact hs
  · intro pid sig hsig
    rcases SignalBus.mem_channel_send hsig with hold | rfl
    · exact h.channels pid sig hold
    · exact hs

section Takes

variable {m m' : HilManager} {now : DateTime} {t t' : HilTask} {new : List HilTask}

theorem silent_takes (h : Silent m) (ht : Takes m now t m' t' new) : Silent m' := by
  cases ht with
  | sendsResume | pauses => exact h.send rfl
  | @subscribes w sub =>
    refine ⟨h.sent, fun pid signal hsign => h.channels pid signal ?_⟩
    have hchan : (m.signalBus.subscribe w.pid).1.channel pid = m.signalBus.channel pid :=
      SignalBus.channel_subscribe m.signalBus w.pid pid
    exact hchan ▸ hsign
  | _ => exact ⟨h.sent, h.channels⟩

/-- A waiter that polls a silent bus does not end, and no other task is a waiter afterwards. -/
theorem notAnswered_takes (h : Silent m) (hbef : NotAnswered t)
    (ht : Takes m now t m' t' new) : NotAnswered t' ∧ ∀ n ∈ new, NotAnswered n := by
  have hnone : ∀ n ∈ ([] : List HilTask), NotAnswered n := fun _ hn => absurd hn List.not_mem_nil
  cases ht with
  | openPublishes =>
    refine ⟨nofun, fun n hn => ?_⟩
    rw [List.mem_singleton.mp hn]
    exact nofun
  | receives hrecv hres =>
    have hsign := h.channels _ _ (SignalBus.mem_channel_of_recv hrecv)
    rw [hsign.not_resumes] at hres
    cases hres
  | rests hended => exact ⟨hbef, hnone⟩
  | _ => exact ⟨nofun, hnone⟩

end Takes

/-! ## Whole runs -/

/-- The bus is silent and no waiter has been answered. -/
structure Undelivered (s : HilSystem) : Prop where
  silent : Silent s.manager
  waiters : ∀ t ∈ s.tasks, NotAnswered t

theorem undelivered_step (s : HilSystem) (e : HilInput) (h : Undelivered s) :
    Undelivered (s.step e) := by
  have hcall : ∀ c, e = .call c → NotAnswered c.task := by
    rintro c - payload w heq
    cases c with
    | «open» req | resolve args => cases heq
    | wait w' =>
      unfold HilCall.task at heq
      dsimp only at heq
      split_ifs at heq <;> cases heq
  obtain ⟨hsil, hwait⟩ := HilSystem.forall_step (P := Silent) hcall
    (fun hm ht htakes => ⟨silent_takes hm htakes, notAnswered_takes hm ht htakes⟩)
    h.silent h.waiters
  exact ⟨hsil, hwait⟩

/-- Exactly one Resume with the decision on the request was sent to the pid, and a waiter for
    the request ended with that decision. -/
def Delivered (s : HilSystem) (pid : Pid) (hilId decision : String) : Prop :=
  (s.manager.sent.countP fun signal => signal.target == pid && signal.resumes hilId &&
      (signal.payload.index "decision").asStr == some decision) = 1 ∧
    ∃ payload w, .wait (.ended (some payload)) w ∈ s.tasks ∧ w.pid = pid ∧ w.hilId = hilId ∧
      (payload.index "decision").asStr = some decision

theorem outcome_never_delivered (es : List HilInput) :
    (∀ pid hilId decision, ¬ Delivered (run HilSystem.step .init es) pid hilId decision) ∧
      ∀ payload w, .wait (.ended payload) w ∈ (run HilSystem.step .init es).tasks →
        payload = none := by
  have hlast : Undelivered (run HilSystem.step .init es) :=
    run_invariant undelivered_step ⟨silent_new, by simp [HilSystem.init]⟩ es
  refine ⟨fun pid hilId decision hdel => ?_, fun payload w hw => ?_⟩
  · obtain ⟨hone, -⟩ := hdel
    obtain ⟨signal, hsign, hres⟩ := List.countP_pos_iff.mp (hone ▸ Nat.one_pos)
    rw [(hlast.silent.sent signal hsign).not_resumes hilId] at hres
    simp at hres
  · cases payload with
    | none => rfl
    | some p => exact absurd rfl (hlast.waiters _ hw p w)

/-! ## An approved upgrade -/

/-- A request of the agent with pid 57 for the tool `fs/write`. -/
def upgradeHil (hilId approvalToken : String) : HilRequest where
  apiVersion := "avix/v1"
  kind := "HilRequest"
  hilId := hilId
  pid := 57
  agentName := "researcher"
  hilType := .capabilityUpgrade
  tool := some "fs/write"
  args := none
  reason := none
  context := none
  options := none
  urgency := .normal
  approvalToken := approvalToken
  createdAt := ⟨0⟩
  expiresAt := ⟨600000000000⟩
  state := .pending
  atpSessionId := "sess-1"

def resolveCall (hilId approvalToken decision : String) : HilInput :=
  .call (.resolve ⟨hilId, approvalToken, decision, "alice", .null⟩)

/-- `n` steps of the task at position `i`. -/
def stepsOf (i n : Nat) : List HilInput := List.replicate n (.step i ⟨0⟩)

def upgradeWaiter : Waiter := ⟨.capabilityUpgrade, 57, "hil-1"⟩

/-- The request is opened, its executor subscribes, a human approves, the executor polls its
    subscription, and its timeout fires. The tasks are the opening, the timeout it starts, the
    waiter and the approval. -/
def approvalRun : List HilInput :=
  [.call (.open (upgradeHil "hil-1" "tok-1"))] ++ stepsOf 0 4 ++
    [.call (.wait upgradeWaiter)] ++ stepsOf 2 2 ++
    [resolveCall "hil-1" "tok-1" "approved"] ++ stepsOf 3 4 ++ stepsOf 2 1 ++ [.expire 2]

/-- The manager records "approved", no Resume is sent, and the executor reports a timeout. -/
theorem approved_but_timed_out :
    ((run HilSystem.step .init approvalRun).manager.events.filterMap fun
      | .resolved _ body => some (body.hilId, body.outcome)
      | _ => none) = [("hil-1", "approved")] ∧
    (run HilSystem.step .init approvalRun).manager.sent.map (·.kind) = [.pause] ∧
    (run HilSystem.step .init approvalRun).tasks[2]? = some (.wait (.ended none) upgradeWaiter) ∧
    ∀ token, requestTool (fun _ => none) token none =
      (token, .error (.capabilityDenied "HIL timeout")) := by
  refine ⟨rfl, rfl, rfl, fun _ => rfl⟩

end Avix.Security
