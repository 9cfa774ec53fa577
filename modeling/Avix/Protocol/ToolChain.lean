/-
  PROTOCOL — the tool calls of a turn are bounded.

  `tool_chain_bounded_iff`: let `N` be the limit of an executor that no signal reaches.
  For a stream of responses, the following are equivalent:
  * whatever the tools return and the clock says, `run_with_client` dispatches at most `N` tool
    calls and returns after at most `N + 1` responses;
  * one of the first `N + 1` responses does not ask for tools, or they have more than `N` blocks
    of type `tool_use` together.

  The limit counts blocks, and the loop goes on after a response that asks for tools and has no
  block. A model that sends only such responses keeps the call from ever returning
  (`empty_rounds_never_return`).

  Model. `ChainState` is what the count depends on. A step of the task is a step of this machine
  (`chainStep_step`), and the bound is proved about the machine.
-/
import Avix.Executor.DeliverSignal
import Avix.Protocol.TurnProtocol

namespace Avix.Protocol

open Nat Lib ExecutorTask

/-! ## Statement -/

/-- A call of `run_with_client`, and how many responses it has consumed. -/
structure ClientRun where
  task : ExecutorTask
  consumed : Nat

/-- The call has returned. -/
def ClientRun.Returned (r : ClientRun) : Prop := ∃ reason, r.task.pc = .persistIdle reason

/-- A step of the call; the language model answers with the next response. -/
def ClientRun.step {D : Type} (x : ExecutorExternals D) (responses : Nat → LlmCompleteResponse)
    (r : ClientRun) (env : TurnEnv) : ClientRun :=
  match r.task.pc with
  | .persistIdle _ => r
  | .llm _ =>
    ⟨(r.task.step x { env with llm := .response (responses r.consumed) }).1, r.consumed + 1⟩
  | _ => ⟨(r.task.step x env).1, r.consumed⟩

def TaskEvent.isDispatch : TaskEvent → Bool
  | .toolDispatch _ => true
  | _ => false

/-- The number of dispatched tool calls. -/
def dispatches (log : List TaskEvent) : Nat := log.countP TaskEvent.isDispatch

/-- The calls a response asks for; `none` if it does not ask for tools. -/
def callsOf (resp : LlmCompleteResponse) : Option Nat :=
  if resp.stopReason = .toolUse then some (blocksOf "tool_use" resp.content).length else none

/-- The calls of the first `k` responses. -/
def callsUpTo (calls : Nat → Option Nat) (k : Nat) : Nat :=
  ∑ i ∈ Finset.range k, (calls i).getD 0

/-- One of the first `N + 1` responses asks for no tools, or they ask for more than `N` calls. -/
def Ends (N : Nat) (calls : Nat → Option Nat) : Prop :=
  (∃ k ≤ N, calls k = none) ∨ N < callsUpTo calls (N + 1)

section Statement

variable {D : Type} (x : ExecutorExternals D) (responses : Nat → LlmCompleteResponse)
  (t : ExecutorTask) (goal : String)

/-- The call of `run_with_client` for `goal` after `n` steps. -/
def clientRun (envs : Nat → TurnEnv) (n : Nat) : ClientRun :=
  after (ClientRun.step x responses) ⟨t.beginTurn goal, 0⟩ envs n

/-- The call dispatches at most `N` tool calls and returns after at most `N + 1` responses. -/
def Bounded (N : Nat) (envs : Nat → TurnEnv) : Prop :=
  (∀ n, dispatches (clientRun x responses t goal envs n).task.log ≤ dispatches t.log + N) ∧
    ∃ n, (clientRun x responses t goal envs n).Returned ∧
      (clientRun x responses t goal envs n).consumed ≤ N + 1

end Statement

/-! ## The machine of the count -/

inductive ChainStage where
  /-- `steps` steps before the next response, with the value of `chain_count`. -/
  | thinking (chain steps : Nat)
  /-- A round with `left` calls to go. -/
  | working (chain left : Nat)
  | returned
  | elsewhere

structure ChainState where
  stage : ChainStage
  consumed : Nat
  dispatched : Nat

open ChainState

/-- A step of a call with limit `N`; `expires` says that the token can have expired. -/
inductive ChainStep (N : Nat) (calls : Nat → Option Nat) (expires : Prop) :
    ChainState → ChainState → Prop
  | expire {c k d : Nat} (h : expires) :
      ChainStep N calls expires ⟨.thinking c 4, k, d⟩ ⟨.returned, k, d⟩
  | think {c i k d : Nat} :
      ChainStep N calls expires ⟨.thinking c (i + 2), k, d⟩ ⟨.thinking c (i + 1), k, d⟩
  | answer {c k d : Nat} (h : calls k = none) :
      ChainStep N calls expires ⟨.thinking c 1, k, d⟩ ⟨.returned, k + 1, d⟩
  | limit {c k d n : Nat} (h : calls k = some n) (hlimit : N < c + n) :
      ChainStep N calls expires ⟨.thinking c 1, k, d⟩ ⟨.returned, k + 1, d⟩
  | round {c k d n : Nat} (h : calls k = some n) (hlimit : c + n ≤ N) :
      ChainStep N calls expires ⟨.thinking c 1, k, d⟩ ⟨.working (c + n) n, k + 1, d⟩
  | call {c l k d d' : Nat} (h : d' ≤ d + 1) :
      ChainStep N calls expires ⟨.working c (l + 1), k, d⟩ ⟨.working c l, k, d'⟩
  | next {c k d : Nat} : ChainStep N calls expires ⟨.working c 0, k, d⟩ ⟨.thinking c 4, k, d⟩
  | stay {k d : Nat} : ChainStep N calls expires ⟨.returned, k, d⟩ ⟨.returned, k, d⟩

/-- `c` counts the calls of the first `k` responses, all of which ask for tools. -/
structure Counted (N : Nat) (calls : Nat → Option Nat) (k c : Nat) : Prop where
  count : c = callsUpTo calls k
  le : c ≤ N
  asks : ∀ i < k, calls i ≠ none

/-- What holds after every step; `d` calls had been dispatched before. -/
def ChainState.Fits (N d : Nat) (calls : Nat → Option Nat) (s : ChainState) : Prop :=
  match s.stage with
  | .thinking c _ => Counted N calls s.consumed c ∧ s.dispatched ≤ d + c
  | .working c l => Counted N calls s.consumed c ∧ s.dispatched + l ≤ d + c
  | .returned => s.dispatched ≤ d + N
  | .elsewhere => False

section Machine

variable {N d : Nat} {calls : Nat → Option Nat} {expires : Prop} {s s' : ChainState}

theorem callsUpTo_succ (k : Nat) : callsUpTo calls (k + 1) = callsUpTo calls k + (calls k).getD 0 :=
  Finset.sum_range_succ _ k

theorem callsUpTo_mono {j k : Nat} (h : j ≤ k) : callsUpTo calls j ≤ callsUpTo calls k :=
  Finset.sum_le_sum_of_subset (Finset.range_mono h)

theorem Counted.zero : Counted N calls 0 0 := ⟨rfl, zero_le N, nofun⟩

/-- One more response that asks for tools. -/
theorem Counted.succ {k c n : Nat} (h : Counted N calls k c) (hn : calls k = some n)
    (hle : c + n ≤ N) : Counted N calls (k + 1) (c + n) := by
  refine ⟨?_, hle, fun i hi => ?_⟩
  · rw [callsUpTo_succ, hn, Option.getD_some, h.count]
  rcases Nat.lt_succ_iff_lt_or_eq.mp hi with hlt | rfl
  · exact h.asks i hlt
  · rw [hn]
    exact Option.some_ne_none n

/-- A stream that ends does so before the call has consumed `N + 1` responses. -/
theorem Counted.le_of_ends {k c : Nat} (h : Counted N calls k c) (hends : Ends N calls) :
    k ≤ N := by
  by_contra hlt
  rcases hends with ⟨i, hi, hnone⟩ | hmany
  · exact h.asks i (by omega) hnone
  have hmono : callsUpTo calls (N + 1) ≤ callsUpTo calls k := callsUpTo_mono (by omega)
  have hcount := h.count
  have hle := h.le
  omega

theorem fits_step (h : s.Fits N d calls) (hstep : ChainStep N calls expires s s') :
    s'.Fits N d calls := by
  cases hstep with
  | think | next | stay => exact h
  | round hn hlimit =>
    obtain ⟨hcoun, hdisp⟩ := h
    refine ⟨hcoun.succ hn hlimit, ?_⟩
    dsimp only at hdisp ⊢
    omega
  | call hcall =>
    obtain ⟨hcoun, hdisp⟩ := h
    refine ⟨hcoun, ?_⟩
    dsimp only at hdisp ⊢
    omega
  | _ =>
    obtain ⟨hcoun, hdisp⟩ := h
    exact hdisp.trans (Nat.add_le_add_left hcoun.le d)

theorem ChainState.Fits.dispatched_le (h : s.Fits N d calls) : s.dispatched ≤ d + N := by
  unfold ChainState.Fits at h
  split at h
  · exact h.2.trans (Nat.add_le_add_left h.1.le d)
  · have hle := h.1.le
    have hdisp := h.2
    omega
  · exact h
  · exact h.elim

/-- The steps that are left: at most `N + 6` for each response. -/
def ChainState.stepsLeft (N : Nat) (s : ChainState) : Nat :=
  (N + 1 - s.consumed) * (N + 6) +
    match s.stage with
    | .thinking _ i => i
    | .working _ l => l + 5
    | _ => 0

theorem stepsLeft_lt (hends : Ends N calls) (h : s.Fits N d calls)
    (hstep : ChainStep N calls expires s s') (hrun : s.stage ≠ .returned) :
    s'.stepsLeft N < s.stepsLeft N := by
  have hround : ∀ k n, k ≤ N → n ≤ N →
      (N + 1 - (k + 1)) * (N + 6) + (n + 5) < (N + 1 - k) * (N + 6) + 1 := by
    intro k n hk hn
    obtain ⟨m, rfl⟩ := Nat.exists_eq_add_of_le hk
    rw [show k + m + 1 - (k + 1) = m by omega, show k + m + 1 - k = m + 1 by omega, succ_mul]
    omega
  cases hstep with
  | expire _ | think | call _ | next =>
    simp only [stepsLeft]
    omega
  | @answer c k d' _ | @limit c k d' n _ _ =>
    have hlt := hround k 0 (h.1.le_of_ends hends) (zero_le N)
    simp only [stepsLeft]
    omega
  | @round c k d' n hn hlimit =>
    exact hround k n (h.1.le_of_ends hends) (by omega)
  | stay => exact absurd rfl hrun

/-- A stream that ends is not read beyond its first `N + 1` responses. -/
theorem consumed_step (hends : Ends N calls) (h : s.Fits N d calls) (hle : s.consumed ≤ N + 1)
    (hstep : ChainStep N calls expires s s') : s'.consumed ≤ N + 1 := by
  cases hstep with
  | answer _ | limit _ _ | round _ _ => exact succ_le_succ (h.1.le_of_ends hends)
  | _ => exact hle

/-- The first `M` responses ask for tools, and for no more calls than the limit. -/
def GoesOn (N : Nat) (calls : Nat → Option Nat) (M : Nat) : Prop :=
  ∀ k < M, calls k ≠ none ∧ callsUpTo calls (k + 1) ≤ N

theorem goesOn_of_not_ends (h : ¬Ends N calls) : GoesOn N calls (N + 1) := by
  intro k hk
  refine ⟨fun hnone => h (.inl ⟨k, le_of_lt_succ hk, hnone⟩), ?_⟩
  have hle : callsUpTo calls (N + 1) ≤ N := Nat.le_of_not_lt fun hlt => h (.inr hlt)
  exact (callsUpTo_mono hk).trans hle

/-- The call does not return on these responses, unless the token expires. -/
theorem running_step {M : Nat} (hgoes : GoesOn N calls M) (h : s.Fits N d calls)
    (hrun : s.consumed ≤ M → s.stage ≠ .returned) (hstep : ChainStep N calls False s s') :
    s'.consumed ≤ M → s'.stage ≠ .returned := by
  intro hle
  cases hstep with
  | expire hexp => exact hexp.elim
  | @answer c k d' hn => exact absurd hn (hgoes k hle).1
  | @limit c k d' n hn hlimit =>
    have hcount : c = callsUpTo calls k := h.1.count
    have hsum := (hgoes k hle).2
    rw [callsUpTo_succ, hn, Option.getD_some] at hsum
    omega
  | stay => exact absurd rfl (hrun hle)
  | _ => nofun

end Machine

/-! ## The call is a run of the machine -/

def stageOf : TurnPc → ChainStage
  | .iteration turn => .thinking turn.chainCount 4
  | .draining turn => .thinking turn.chainCount 3
  | .requesting turn => .thinking turn.chainCount 2
  | .llm turn => .thinking turn.chainCount 1
  | .tools turn round => .working turn.chainCount round.calls.length
  | .persistIdle _ => .returned
  | _ => .elsewhere

def ClientRun.view (r : ClientRun) : ChainState :=
  ⟨stageOf r.task.pc, r.consumed, dispatches r.task.log⟩

structure Undisturbed (N : Nat) (t : ExecutorTask) : Prop where
  rx : t.signalRx = []
  paused : t.executor.paused = false
  limit : t.executor.maxToolChainLength = N

/-- The token has expired at the start of an iteration. -/
def Expires {D : Type} (x : ExecutorExternals D) (t : ExecutorTask) (env : TurnEnv) : Prop :=
  (t.executor.maybeRenewToken x env.now env.later env.uuid).token.isExpired env.latest = true

theorem returned_iff {r : ClientRun} : r.Returned ↔ r.view.stage = .returned := by
  unfold ClientRun.Returned ClientRun.view stageOf
  cases r.task.pc <;> simp

section Refinement

variable {D : Type} {x : ExecutorExternals D} {responses : Nat → LlmCompleteResponse} {N : Nat}
  {t : ExecutorTask} {env : TurnEnv} {r : ClientRun}

theorem undisturbed_step (h : Undisturbed N t) : Undisturbed N (t.step x env).1 := by
  obtain ⟨taken, hdra⟩ : ∃ taken, t.Drained (t.step x env).1 taken :=
    ⟨_, drained_step⟩
  cases hdra with
  | nothing hrx hcont =>
    exact ⟨hrx.trans h.rx, hcont.1.trans h.paused, hcont.2.2.trans h.limit⟩
  | signal sig hrx hflags =>
    rw [h.rx] at hrx
    cases hrx

@[simp]
theorem dispatches_append (log log' : List TaskEvent) :
    dispatches (log ++ log') = dispatches log + dispatches log' := List.countP_append

theorem callsOf_of_dispatchTools {resp : LlmCompleteResponse} {calls : List AvixToolCall}
    (h : interpretStopReason resp = .dispatchTools calls) : callsOf resp = some calls.length := by
  unfold interpretStopReason at h
  split at h
  · cases h
  · cases h
  · next hstop =>
    rw [callsOf, if_pos hstop, ← TurnAction.dispatchTools.inj h, List.length_map]
    rfl
  · cases h

/-- A step of the call, where `k` responses are consumed before it and `k'` after it. -/
theorem chainStep_stepsTo {taken : Option Signal} {result : ExecutorTask × ExecutorEffect}
    {k k' : Nat} (hstep : ExecutorTask.StepsTo x env t taken result) (h : Undisturbed N t)
    (hstage : stageOf t.pc ≠ .elsewhere) (hrun : ∀ reason, t.pc ≠ .persistIdle reason)
    (hllm : ∀ turn, t.pc = .llm turn → env.llm = .response (responses k) ∧ k' = k + 1)
    (hother : (∀ turn, t.pc ≠ .llm turn) → k' = k) :
    ChainStep N (callsOf ∘ responses) (Expires x t env)
      ⟨stageOf t.pc, k, dispatches t.log⟩ (ClientRun.view ⟨result.1, k'⟩) := by
  have hresp : ∀ {turn resp}, t.pc = .llm turn → env.llm = .response resp →
      resp = responses k ∧ k' = k + 1 := by
    intro turn resp hpc henv
    exact ⟨LlmEvent.response.inj (henv.symm.trans (hllm turn hpc).1), (hllm turn hpc).2⟩
  have hsign : ∀ {sig rest}, t.signalRx ≠ sig :: rest := by
    intro sig rest hrx
    rw [h.rx] at hrx
    cases hrx
  have helse : ∀ {pc}, t.pc = pc → stageOf pc ≠ .elsewhere := by
    rintro pc rfl
    exact hstage
  cases hstep with
  | expires hpc hexp =>
    rw [hpc, hother (by rw [hpc]; nofun)]
    exact .expire hexp
  | iterates hpc =>
    rw [hpc, hother (by rw [hpc]; nofun)]
    exact .think
  | drained hpc =>
    rw [hpc, hother (by rw [hpc]; nofun), h.paused]
    exact .think
  | @requests turn hpc =>
    have hlog : dispatches (t.request turn).log = dispatches t.log := dispatches_append _ _
    rw [hpc, hother (by rw [hpc]; nofun), ClientRun.view, hlog]
    exact .think
  | answers hpc henv hstop =>
    obtain ⟨rfl, rfl⟩ := hresp hpc henv
    rw [hpc]
    exact .answer (if_neg hstop)
  | limits hpc henv hcalls hlimit =>
    obtain ⟨rfl, rfl⟩ := hresp hpc henv
    rw [h.limit] at hlimit
    rw [hpc]
    exact .limit (callsOf_of_dispatchTools hcalls) hlimit
  | works hpc henv hcalls hlimit =>
    obtain ⟨rfl, rfl⟩ := hresp hpc henv
    rw [h.limit] at hlimit
    rw [hpc]
    exact .round (callsOf_of_dispatchTools hcalls) hlimit
  | fails hpc henv | recovers hpc henv => cases henv.symm.trans (hllm _ hpc).1
  | endsRound hpc hcalls =>
    rw [hpc, hother (by rw [hpc]; nofun), stageOf, hcalls]
    exact .next
  | refuses hpc hcalls _ | gates hpc hcalls _ _ _ =>
    rw [hpc, hother (by rw [hpc]; nofun), stageOf, hcalls]
    exact .call (le_succ _)
  | dispatches hpc hcalls _ _ =>
    rw [hpc, hother (by rw [hpc]; nofun), stageOf, hcalls]
    exact .call (dispatches_append _ _).le
  | rests hstays hdra hsig =>
    have hne : ∀ turn, t.pc ≠ .llm turn := by
      intro turn hpc
      cases (hsig turn hpc).symm.trans (hllm turn hpc).1
    unfold ExecutorTask.Stays at hstays
    unfold stageOf at hstage
    cases hpc : t.pc <;> simp_all
  | passes hpc hpass =>
    cases hpass with
    | persist reason => exact absurd hpc (hrun reason)
    | _ => exact absurd rfl (helse hpc)
  | dies hrx _ _ | heeds hrx _ _ | unpauses hrx _ | retries hrx _ | takesGoal hrx _ _
  | stopsWaiting hrx _ _ => exact absurd hrx hsign
  | _ =>
    have hne := helse ‹t.pc = _›
    exact absurd rfl hne

theorem chainStep_step (h : Undisturbed N r.task) (hstage : r.view.stage ≠ .elsewhere) :
    ChainStep N (callsOf ∘ responses) (Expires x r.task env) r.view
      (r.step x responses env).view := by
  unfold ClientRun.step
  split
  · next reason hpc =>
    rw [ClientRun.view, hpc]
    exact .stay
  · next turn hpc =>
    have hstep : r.task.StepsTo x { env with llm := .response (responses r.consumed) } _ _ :=
      stepsTo_step
    have hchain := chainStep_stepsTo hstep h hstage (by rw [hpc]; nofun) (fun _ _ => ⟨rfl, rfl⟩)
      fun hne => absurd hpc (hne turn)
    exact hchain
  · next hpers hllm =>
    exact chainStep_stepsTo stepsTo_step h hstage (fun reason => hpers reason)
      (fun turn hpc => absurd hpc (hllm turn)) fun _ => rfl

/-- What holds after every step of the call. -/
structure Chained (N d : Nat) (calls : Nat → Option Nat) (r : ClientRun) : Prop where
  undisturbed : Undisturbed N r.task
  fits : r.view.Fits N d calls

theorem Chained.stage_ne {d : Nat} {calls : Nat → Option Nat} (h : Chained N d calls r) :
    r.view.stage ≠ .elsewhere := by
  intro hels
  have hfits := h.fits
  unfold ChainState.Fits at hfits
  rw [hels] at hfits
  exact hfits

theorem Chained.chainStep {d : Nat} (h : Chained N d (callsOf ∘ responses) r) :
    ChainStep N (callsOf ∘ responses) (Expires x r.task env) r.view
      (r.step x responses env).view := chainStep_step h.undisturbed h.stage_ne

theorem chained_step {d : Nat} (r : ClientRun) (env : TurnEnv)
    (h : Chained N d (callsOf ∘ responses) r) :
    Chained N d (callsOf ∘ responses) (r.step x responses env) := by
  refine ⟨?_, fits_step h.fits h.chainStep⟩
  unfold ClientRun.step
  split
  · exact h.undisturbed
  all_goals exact undisturbed_step h.undisturbed

theorem chained_start (h : Undisturbed N t) (goal : String) (calls : Nat → Option Nat) :
    Chained N (dispatches t.log) calls ⟨t.beginTurn goal, 0⟩ :=
  ⟨⟨h.rx, h.paused, h.limit⟩, Counted.zero, le_refl _⟩

theorem bounded_of_ends (h : Undisturbed N t) (goal : String)
    (hends : Ends N fun k => callsOf (responses k)) (envs : Nat → TurnEnv) :
    Bounded x responses t goal N envs := by
  have hstart := chained_start h goal fun k => callsOf (responses k)
  have hcha : ∀ n, Chained N (dispatches t.log) (callsOf ∘ responses)
      (clientRun x responses t goal envs n) :=
    after_invariant hstart fun r n hr => chained_step r (envs n) hr
  have hcons : ∀ n, (clientRun x responses t goal envs n).consumed ≤ N + 1 := by
    intro n
    induction n with
    | zero => exact zero_le _
    | succ n ih => exact consumed_step hends (hcha n).fits ih (hcha n).chainStep
  obtain ⟨n, hret⟩ : ∃ n, (clientRun x responses t goal envs n).Returned := by
    refine exists_after_of_decreases (fun r => r.view.stepsLeft N) hstart
      (fun r n hr => chained_step r (envs n) hr) fun r n hr hrun => ?_
    rw [returned_iff] at hrun
    exact stepsLeft_lt hends hr.fits hr.chainStep hrun
  exact ⟨fun n => (hcha n).fits.dispatched_le, n, hret, hcons n⟩

end Refinement

/-! ## A call whose token stays valid -/

open Security

/-- A step an hour before the token expires; no human answers. -/
def calmEnv (token : CapabilityToken) : TurnEnv :=
  let early := token.expiresAt.addSecs (-3600)
  { deskEnv .signal with
    now := early
    later := early
    latest := early
    upgrade := { approvedUpgrade with received := [] } }

section Calm

variable {D : Type} {x : ExecutorExternals D} {responses : Nat → LlmCompleteResponse} {N : Nat}
  {token : CapabilityToken} {t : ExecutorTask} {r : ClientRun}

theorem maybeRenewToken_calm {s : RuntimeExecutor} (h : s.token = token) :
    s.maybeRenewToken x (calmEnv token).now (calmEnv token).later (calmEnv token).uuid = s := by
  have hdue : s.renewalDue (calmEnv token).now = false := by
    simp only [RuntimeExecutor.renewalDue, calmEnv, DateTime.addSecs, DateTime.nanosPerSec, h,
      Bool.and_eq_false_iff, decide_eq_false_iff_not]
    omega
  rw [RuntimeExecutor.maybeRenewToken, hdue]
  rfl

theorem not_expires_calm (h : t.executor.token = token) : ¬Expires x t (calmEnv token) := by
  unfold Expires
  rw [maybeRenewToken_calm h, h, CapabilityToken.isExpired, decide_eq_true_eq]
  change ¬token.expiresAt.nanos < token.expiresAt.nanos + -3600 * DateTime.nanosPerSec
  unfold DateTime.nanosPerSec
  omega

theorem token_dispatch_calm {llm : LlmEvent} (call : AvixToolCall) :
    (t.dispatch x { calmEnv token with llm } call).1.token = t.executor.token := by
  unfold dispatch
  dsimp only
  split_ifs
  · rcases RuntimeExecutor.upgraded_capRequestTool call.args
      (calmEnv token).upgrade with hkept | ⟨payload, new, hpayl, -⟩
    · exact hkept
    · cases hpayl
  · rfl
  · rfl

theorem token_stepsTo_calm {taken : Option Signal} {result : ExecutorTask × ExecutorEffect}
    {llm : LlmEvent} (htoken : t.executor.token = token)
    (hstep : ExecutorTask.StepsTo x { calmEnv token with llm } t taken result) :
    result.1.executor.token = t.executor.token := by
  have hrenew : (t.executor.maybeRenewToken x (calmEnv token).now (calmEnv token).later
      (calmEnv token).uuid).token = t.executor.token := by rw [maybeRenewToken_calm htoken]
  have hhand : ∀ sig, (t.handled sig).1.token = t.executor.token := by
    intro sig
    obtain ⟨⟨_, _, _, _, heq⟩, -⟩ := t.handled_eq sig
    rw [heq]
  cases hstep with
  | expires _ _ | iterates _ => exact hrenew
  | dispatches _ _ _ _ => exact token_dispatch_calm _
  | dies _ _ _ | heeds _ _ _ | unpauses _ _ | retries _ _ => exact hhand _
  | @takesGoal reason | @stopsWaiting reason => cases reason <;> exact hhand _
  | _ => rfl

/-- The executor keeps its token. -/
theorem token_step_calm (htoken : r.task.executor.token = token) :
    (r.step x responses (calmEnv token)).task.executor.token = token := by
  unfold ClientRun.step
  split
  · exact htoken
  all_goals exact (token_stepsTo_calm htoken stepsTo_step).trans htoken

/-- What holds after every step of such a call, on responses that go on. -/
structure GoingOn (N d M : Nat) (calls : Nat → Option Nat) (token : CapabilityToken)
    (r : ClientRun) : Prop extends Chained N d calls r where
  token : r.task.executor.token = token
  running : r.consumed ≤ M → r.view.stage ≠ .returned

theorem goingOn_step {d M : Nat} (hgoes : GoesOn N (callsOf ∘ responses) M)
    (h : GoingOn N d M (callsOf ∘ responses) token r) :
    GoingOn N d M (callsOf ∘ responses) token (r.step x responses (calmEnv token)) := by
  have hstep : ChainStep N (callsOf ∘ responses) (Expires x r.task (calmEnv token))
      r.view (r.step x responses (calmEnv token)).view := h.toChained.chainStep
  rw [eq_false (not_expires_calm h.token)] at hstep
  exact ⟨chained_step r _ h.toChained, token_step_calm h.token,
    running_step hgoes h.fits h.running hstep⟩

/-- The call reads more than these responses before it returns. -/
theorem lt_consumed_of_goesOn (h : Undisturbed N t) (goal : String) {M : Nat}
    (hgoes : GoesOn N (callsOf ∘ responses) M) (n : Nat)
    (hret : (clientRun x responses t goal (fun _ => calmEnv t.executor.token) n).Returned) :
    M < (clientRun x responses t goal (fun _ => calmEnv t.executor.token) n).consumed := by
  have hstart : GoingOn N (dispatches t.log) M (callsOf ∘ responses) t.executor.token
      ⟨t.beginTurn goal, 0⟩ := ⟨chained_start h goal _, rfl, nofun⟩
  have hgoing := after_invariant hstart (fun r _ hr => goingOn_step (x := x) hgoes hr) n
  by_contra hle
  exact hgoing.running (Nat.le_of_not_lt hle) (returned_iff.mp hret)

end Calm

/-! ## Main statement -/

theorem tool_chain_bounded_iff {D : Type} (x : ExecutorExternals D)
    (responses : Nat → LlmCompleteResponse) (t : ExecutorTask) (goal : String)
    (hrx : t.signalRx = []) (hpaused : t.executor.paused = false) :
    (∀ envs, Bounded x responses t goal t.executor.maxToolChainLength envs) ↔
      Ends t.executor.maxToolChainLength fun k => callsOf (responses k) := by
  have h : Undisturbed t.executor.maxToolChainLength t := ⟨hrx, hpaused, rfl⟩
  constructor
  · intro hboun
    by_contra hends
    obtain ⟨-, n, hret, hcons⟩ := hboun fun _ => calmEnv t.executor.token
    exact absurd (lt_consumed_of_goesOn h goal (goesOn_of_not_ends hends) n hret)
      (not_lt.mpr hcons)
  · intro hends envs
    exact bounded_of_ends h goal hends envs

/-- Every answer asks for one call of a tool. -/
def alwaysReads : LlmCompleteResponse :=
  ⟨[.ofMembers [("type", .string "tool_use"), ("name", .string "fs/read")]], .toolUse⟩

/-- The limit ends the turn of a model that never stops calling tools. -/
theorem tool_chain_bounded_lead :
    (∀ envs, Bounded deskExternals (fun _ => alwaysReads) leadTask "" 50 envs) ∧
      Ends 50 fun _ => callsOf alwaysReads := by
  have hcalls : callsOf alwaysReads = some 1 := rfl
  have hends : Ends 50 fun _ => callsOf alwaysReads := .inr (by simp [callsUpTo, hcalls])
  exact ⟨(tool_chain_bounded_iff deskExternals (fun _ => alwaysReads) leadTask "" rfl rfl).mpr
    hends, hends⟩

/-- A model that asks for tools and names none is asked for ever. -/
theorem empty_rounds_never_return :
    ¬∃ n, (clientRun deskExternals (fun _ => ⟨[], .toolUse⟩) leadTask ""
      (fun _ => calmEnv leadTask.executor.token) n).Returned := by
  rintro ⟨n, hret⟩
  have hsum : ∀ k, callsUpTo (fun _ => callsOf ⟨[], .toolUse⟩) k = 0 :=
    fun k => Finset.sum_eq_zero fun _ _ => rfl
  have hgoes : ∀ M, GoesOn 50 (fun _ => callsOf ⟨[], .toolUse⟩) M :=
    fun M k _ => ⟨nofun, by rw [hsum]; exact zero_le _⟩
  exact absurd (lt_consumed_of_goesOn ⟨rfl, rfl, rfl⟩ "" (hgoes _) n hret) (lt_irrefl _)

end Avix.Protocol
