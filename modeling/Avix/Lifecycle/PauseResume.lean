/-
  LIFECYCLE — pausing a session and resuming it.

  `pause_resume`: the owner of a session is paused, executors of the session may end
  their turns and go idle, and the owner is resumed. Then the owner is Running with a Running
  invocation, and processes outside of the session have kept their status. If no idle executor
  has marked the session in between, the session is Running, too, and so is every agent of it
  with its invocation: nobody is left Paused.

  Resuming is not the inverse of pausing. It sets every agent of a paused session to Running, so
  that one who had been paused before, or was waiting, runs as well; an agent that has stopped
  is not left out either, and an executor that goes idle takes the mark away that the other
  agents are resumed by (`resumed_with_the_session`).
-/
import Avix.Kernel.Suspend
import Avix.Security.KilledStaysDead

namespace Avix.Lifecycle

open Lib Option KernelState

variable {D : Type}

/-! ## Idle steps -/

/-- A write by which an executor that ends its turn records that it is idle. -/
structure IdleStep where
  params : SpawnParams
  env : TurnEnv
  effect : ExecutorEffect
  idles : effect = .updateStatus .idle ∨ effect = .markSessionIdle

namespace IdleStep

variable (x : ExecutorExternals D)

def apply (k : KernelState D) (e : IdleStep) : KernelState D :=
  ((LiveKernel.init k).apply x e.params e.env e.effect).kernel

/-- The session of the executor. -/
def sessionId (e : IdleStep) : Uuid :=
  (x.parseUuid e.params.sessionId).toOption.getD LiveKernel.nilUuid

def Marks (e : IdleStep) (id : Uuid) : Prop := e.effect = .markSessionIdle ∧ e.sessionId x = id

end IdleStep

/-- What idle steps leave as it was; `marked` are the sessions they may mark. -/
structure Idled (marked : Uuid → Prop) (k k' : KernelState D) : Prop where
  processTable : k'.processTable = k.processTable
  invocations : k'.activeInvocations = k.activeInvocations
  sessions : k'.activeSessions = k.activeSessions
  /-- An invocation changes its status at most. -/
  record : ∀ id (c : InvocationStatus),
    ((k'.recordStatus id).map fun _ => c) = (k.recordStatus id).map fun _ => c
  session : ∀ id, k'.session id = k.session id ∨
    (marked id ∧ k'.session id = (k.session id).map (·.mark .idle))

section Idled

variable {x : ExecutorExternals D} {k k' k'' : KernelState D} {marked marked' : Uuid → Prop}

theorem Idled.refl (k : KernelState D) : Idled marked k k :=
  ⟨rfl, rfl, rfl, fun _ _ => rfl, fun _ => .inl rfl⟩

section

variable (h : Idled marked k k')

include h

theorem Idled.trans (h' : Idled marked' k' k'') :
    Idled (fun id => marked id ∨ marked' id) k k'' := by
  refine ⟨h'.processTable.trans h.processTable, h'.invocations.trans h.invocations,
    h'.sessions.trans h.sessions, fun id c => (h'.record id c).trans (h.record id c),
    fun id => ?_⟩
  rcases h'.session id with hkept' | ⟨hm', hmark'⟩ <;>
    rcases h.session id with hkept | ⟨hm, hmark⟩
  · exact .inl (hkept'.trans hkept)
  · exact .inr ⟨.inl hm, hkept'.trans hmark⟩
  · exact .inr ⟨.inr hm', hmark'.trans (congrArg _ hkept)⟩
  · refine .inr ⟨.inr hm', ?_⟩
    rw [hmark', hmark, map_map]
    rfl

theorem Idled.mono (hsub : ∀ id, marked id → marked' id) : Idled marked' k k' :=
  ⟨h.processTable, h.invocations, h.sessions, h.record,
    fun id => (h.session id).imp_right fun hm => ⟨hsub id hm.1, hm.2⟩⟩

theorem Idled.keyed (hkeyed : SessionsKeyed k) : SessionsKeyed k' := by
  intro id r hr
  rcases h.session id with hkept | ⟨-, hmark⟩
  · exact hkeyed id r (hkept ▸ hr)
  rw [hmark] at hr
  obtain ⟨r', hr', rfl⟩ := map_eq_some_iff.mp hr
  exact hkeyed id r' hr'

theorem Idled.status (q : Pid) : k'.status q = k.status q := by
  unfold KernelState.status
  rw [h.processTable]

theorem Idled.invocationStatus (q : Pid) (c : InvocationStatus) :
    ((k'.invocationStatus q).map fun _ => c) = (k.invocationStatus q).map fun _ => c := by
  unfold KernelState.invocationStatus
  rw [h.invocations]
  cases k.activeInvocations.lookup q with
  | none => rfl
  | some id => exact h.record id c

end

theorem idled_updateStatus (params : SpawnParams) (env : TurnEnv) (k : KernelState D) :
    Idled (fun _ => False) k
      ((LiveKernel.init k).apply x params env (.updateStatus .idle)).kernel := by
  unfold LiveKernel.apply LiveKernel.changeInvocation
  dsimp only
  split_ifs
  · exact Idled.refl k
  refine ⟨rfl, rfl, rfl, fun inv c => ?_, fun _ => .inl rfl⟩
  have hrec := k.record_modify env.storeFails params.invocationId inv
    fun r => { r with status := .idle }
  refine (congrArg (fun r => (r.map (·.status)).map fun _ => c) hrec).trans ?_
  unfold recordStatus
  split_ifs
  · rw [map_map, map_map, map_map]
    rfl
  · rfl

theorem idled_markSession (hkeyed : SessionsKeyed k) (getFails updateFails : Bool) (id : Uuid) :
    Idled (· = id) k (k.changeSession getFails updateFails id (·.mark .idle)) := by
  refine ⟨rfl, rfl, rfl, fun _ _ => rfl, fun id' => ?_⟩
  unfold session
  unfold changeSession SessionStore.get SessionStore.put
  dsimp only
  cases hstore : k.sessionStore with
  | none => exact .inl rfl
  | some store =>
    simp only [map_some, bind_some]
    cases getFails with
    | true => exact .inl rfl
    | false =>
      cases hget : store.lookup id with
      | none => exact .inl (by simp)
      | some r =>
        cases updateFails with
        | true => exact .inl (by simp)
        | false =>
          have hid : r.id = id := hkeyed id r (by rw [session, hstore]; exact hget)
          simp only [Bool.false_eq_true, if_false]
          by_cases hid' : id' = id
          · refine .inr ⟨hid', ?_⟩
            rw [hid', hget, ← hid]
            exact AList.lookup_insert _
          · refine .inl (AList.lookup_insert_ne ?_)
            exact fun h => hid' (h.trans hid)

/-- One write of an idle executor. -/
theorem IdleStep.idled (e : IdleStep) (hkeyed : SessionsKeyed k) :
    Idled (e.Marks x) k (e.apply x k) := by
  unfold IdleStep.apply
  rcases e.idles with h | h
  · rw [h]
    exact (idled_updateStatus e.params e.env k).mono fun _ => False.elim
  rw [h]
  unfold LiveKernel.apply LiveKernel.markSessionIdle
  dsimp only
  split_ifs
  · exact Idled.refl k
  · exact (idled_markSession hkeyed _ _ _).mono fun id hid => ⟨h, hid.symm⟩

/-- Any number of them. -/
theorem idled_run (steps : List IdleStep) (hkeyed : SessionsKeyed k) :
    Idled (fun id => ∃ e ∈ steps, e.Marks x id) k (run (IdleStep.apply x) k steps) := by
  induction steps generalizing k with
  | nil => exact Idled.refl k
  | cons e steps ih =>
    have hone : Idled (e.Marks x) k (e.apply x k) := e.idled hkeyed
    refine (hone.trans (ih (hone.keyed hkeyed))).mono fun id hid => ?_
    rcases hid with hm | ⟨e', he', hm⟩
    · exact ⟨e, List.mem_cons_self, hm⟩
    · exact ⟨e', List.mem_cons_of_mem _ he', hm⟩

end Idled

/-! ## Statement -/

/-- The agent owns this session. -/
structure Owns (x : Externals D) (k : KernelState D) (pid : Pid) (session : SessionRecord) :
    Prop where
  active : ∃ sid, k.activeSessions.lookup pid = some sid ∧ x.parseUuid sid = .ok session.id
  stored : k.session session.id = some session
  owner : session.ownerPid = pid

/-- Neither Stopped nor Crashed. -/
def Alive (k : KernelState D) (pid : Pid) : Prop :=
  k.status pid ≠ some .stopped ∧ k.status pid ≠ some .crashed

/-- The process and its invocation run, where there are such. -/
structure Resumed (k k' : KernelState D) (pid : Pid) : Prop where
  process : k'.status pid = (k.status pid).map fun _ => .running
  invocation : k'.invocationStatus pid = (k.invocationStatus pid).map fun _ => .running

/-- `pause_agent`, the idle steps of executors, and `resume_agent`. -/
def pauseResume (x : ExecutorExternals D) (k : KernelState D) (pid : Pid)
    (steps : List IdleStep) : KernelState D :=
  resuming.suspend x.toExternals
    (run (IdleStep.apply x) (pausing.suspend x.toExternals k pid) steps) pid

/-! ## The three parts together -/

section Parts

variable {x : ExecutorExternals D} {k k₁ k₂ k' : KernelState D} {pid : Pid}
  {session : SessionRecord} {marked : Uuid → Prop}

theorem Owns.sessionOf (h : Owns x.toExternals k pid session) :
    k.sessionOf x.toExternals pid = some session := by
  obtain ⟨sid, hsid, hparse⟩ := h.active
  have hstor := h.stored
  unfold KernelState.session at hstor
  unfold KernelState.sessionOf
  rw [hsid]
  cases hstore : k.sessionStore with
  | none =>
    rw [hstore] at hstor
    cases hstor
  | some store =>
    rw [hstore] at hstor
    dsimp only
    rw [hparse]
    exact hstor

/-- `k'` is `k` with this session marked. -/
def Marked (k k' : KernelState D) (marked : Uuid) (status : SessionStatus) : Prop :=
  ∀ id, k'.session id =
    if id = marked then (k.session id).map (·.mark status) else k.session id

theorem Owns.mark (h : Owns x.toExternals k pid session) {status : SessionStatus}
    (hsess : k'.activeSessions = k.activeSessions) (hmark : Marked k k' session.id status) :
    Owns x.toExternals k' pid (session.mark status) := by
  refine ⟨hsess ▸ h.active, ?_, h.owner⟩
  exact (hmark session.id).trans ((if_pos rfl).trans (congrArg _ h.stored))

theorem Marked.keyed {id : Uuid} {status : SessionStatus} (hmark : Marked k k' id status)
    (h : SessionsKeyed k) : SessionsKeyed k' := by
  intro id r hr
  rw [hmark id] at hr
  split_ifs at hr
  · obtain ⟨r', hr', rfl⟩ := map_eq_some_iff.mp hr
    exact h id r' hr'
  · exact h id r hr

/-- After idle steps the session is Paused, or Idle because one of them has marked it. -/
theorem Owns.idled (h : Owns x.toExternals k pid (session.mark .paused))
    (hidled : Idled marked k k') :
    Owns x.toExternals k' pid (session.mark .paused) ∨
      (marked session.id ∧ Owns x.toExternals k' pid (session.mark .idle)) := by
  have hact := h.active
  rw [← hidled.sessions] at hact
  rcases hidled.session session.id with hkept | ⟨hm, hmark⟩
  · exact .inl ⟨hact, hkept.trans h.stored, h.owner⟩
  · refine .inr ⟨hm, hact, ?_, h.owner⟩
    exact hmark.trans (congrArg _ h.stored)

/-- An agent that is paused and resumed. -/
theorem resumed_of_suspended {qs qs' : List Pid} (hpause : Suspended pausing qs k k₁)
    (hidled : Idled marked k₁ k₂) (hres : Suspended resuming qs' k₂ k') {q : Pid}
    (hq : q ∈ qs) (hq' : q ∈ qs') : Resumed k k' q := by
  constructor
  · rw [hres.status, if_pos hq', hidled.status, hpause.status, if_pos hq, map_map]
    rfl
  · rw [hres.invocationStatus hq', hidled.invocationStatus, hpause.invocationStatus hq, map_map]
    rfl

/-- An agent that is neither. -/
theorem status_of_suspended {qs qs' : List Pid} (hpause : Suspended pausing qs k k₁)
    (hidled : Idled marked k₁ k₂) (hres : Suspended resuming qs' k₂ k') {q : Pid}
    (hq : q ∉ qs) (hq' : q ∉ qs') : k'.status q = k.status q := by
  rw [hres.status, if_neg hq', hidled.status, hpause.status, if_neg hq]

end Parts

/-! ## Main statement -/

theorem pause_resume (x : ExecutorExternals D) (k : KernelState D) (pid : Pid)
    (session : SessionRecord) (hkeyed : SessionsKeyed k)
    (howns : Owns x.toExternals k pid session) (steps : List IdleStep) :
    let k' := pauseResume x k pid steps
    (Alive k pid → Resumed k k' pid) ∧
    (∀ q, q ≠ pid → q ∉ session.pids → k'.status q = k.status q) ∧
    ((∀ e ∈ steps, ¬ e.Marks x session.id) → (∀ q ∈ session.pids, Alive k q → Resumed k k' q) ∧
      k'.session session.id = some (session.mark .running) ∧
      ∀ q, k'.status q = some .paused → k.status q = some .paused) := by
  intro k'
  have hmem : ∀ q, q ∈ pid :: session.pids.filter (· ≠ pid) ↔ q = pid ∨ q ∈ session.pids := by
    intro q
    by_cases hq : q = pid <;> simp [hq]
  obtain ⟨hpause, hpaus⟩ := suspend_of_cascades hkeyed howns.sessionOf
    (show pausing.cascades pid session = true from beq_iff_eq.mpr howns.owner.symm)
  have howns₁ := howns.mark hpause.sessions hpaus
  have hkey₁ : SessionsKeyed (pausing.suspend x.toExternals k pid) := Marked.keyed hpaus hkeyed
  have hidled := idled_run (x := x) steps hkey₁
  have hkey₂ := hidled.keyed hkey₁
  rcases howns₁.idled hidled with howns₂ | ⟨hmark, howns₂⟩
  · -- the session is still Paused: its agents follow
    obtain ⟨hres, hrunn⟩ := suspend_of_cascades hkey₂ howns₂.sessionOf
      (show resuming.cascades pid (session.mark .paused) = true from rfl)
    have hall : ∀ q, q = pid ∨ q ∈ session.pids → Resumed k k' q := fun q hq =>
      resumed_of_suspended hpause hidled hres ((hmem q).mpr hq) ((hmem q).mpr hq)
    have hrest : ∀ q, ¬ (q = pid ∨ q ∈ session.pids) → k'.status q = k.status q := fun q hq =>
      status_of_suspended hpause hidled hres (mt (hmem q).mp hq) (mt (hmem q).mp hq)
    refine ⟨fun _ => hall pid (.inl rfl), fun q hne hq => hrest q (not_or.mpr ⟨hne, hq⟩),
      fun _ => ⟨fun q hq _ => hall q (.inr hq), ?_, fun q hq => ?_⟩⟩
    · exact (howns₂.mark hres.sessions hrunn).stored
    by_cases hin : q = pid ∨ q ∈ session.pids
    · rw [(hall q hin).process] at hq
      obtain ⟨_, -, hq⟩ := map_eq_some_iff.mp hq
      cases hq
    · rw [← hrest q hin, hq]
  · -- an idle executor has marked it: the owner is resumed alone
    have hres := suspend_of_not_cascades hkey₂ howns₂.sessionOf
      (show ¬ resuming.cascades pid (session.mark .idle) = true by
        simp [resuming, SessionRecord.mark])
    refine ⟨fun _ => ?_, fun q hne hq => ?_, fun hno => ?_⟩
    · exact resumed_of_suspended hpause hidled hres ((hmem pid).mpr (.inl rfl))
        List.mem_cons_self
    · refine status_of_suspended hpause hidled hres (mt (hmem q).mp (not_or.mpr ⟨hne, hq⟩)) ?_
      exact fun h => hne (List.mem_singleton.mp h)
    · obtain ⟨e, he, hm⟩ := hmark
      exact absurd hm (hno e he)

/-! ## A session with an agent that is paused already -/

open Security

/-- Pid 1 owns the session. -/
def teamSession : SessionRecord :=
  { SessionRecord.new "s" "alice" "lead" "lead" "" 1 with pids := [1, 2, 3, 4, 5] }

/-- The agents 1 and 2 run, 3 has been paused, 4 waits for its next goal and 5 has stopped. -/
def teamKernel : KernelState Unit :=
  let entry (pid : Pid) (status : ProcessStatus) : ProcessEntry := { pid, status }
  let table : ProcessTable :=
    [entry 1 .running, entry 2 .running, entry 3 .paused, entry 4 .waiting,
      entry 5 .stopped].foldl ProcessTable.insert ∅
  let store : SessionStore := SessionStore.put ∅ false teamSession
  { officeKernel with
    processTable := table
    sessionStore := some store
    activeSessions := (∅ : HashMap Pid String).insert 1 "s" }

/-- The executor of agent 2 ends its turn. -/
def teamIdles : IdleStep :=
  ⟨⟨2, "helper", "", "alice", "s", "", leadTask.params.token, [], "", none⟩,
    deskEnv (.failed (.noProviderAvailable "text")), .markSessionIdle, .inr rfl⟩

theorem teamKernel_owns : Owns deskExternals.toExternals teamKernel 1 teamSession :=
  ⟨⟨"s", by decide, rfl⟩, by decide, rfl⟩

theorem teamKernel_keyed : SessionsKeyed teamKernel := by
  intro id r hr
  rcases HashMap.of_lookup_insert hr with ⟨rfl, rfl⟩ | ⟨-, hold⟩
  · rfl
  · cases hold

/-- Agent 2 runs again, and so does the session. -/
theorem pause_resume_team : Resumed teamKernel (pauseResume deskExternals teamKernel 1 []) 2 ∧
    (pauseResume deskExternals teamKernel 1 []).session "s" =
      some (teamSession.mark .running) := by
  have h := pause_resume deskExternals teamKernel 1 teamSession teamKernel_keyed teamKernel_owns []
  have halive : Alive teamKernel 2 := ⟨by decide, by decide⟩
  obtain ⟨hagen, hsess, -⟩ := h.2.2 fun e he => absurd he List.not_mem_nil
  exact ⟨hagen 2 (by decide) halive, hsess⟩

/-- The agent that had been paused runs afterwards, the one that was waiting and the one that
    had stopped, too; with an idle step in between the second agent is left Paused. -/
theorem resumed_with_the_session :
    let k' := pauseResume deskExternals teamKernel 1 []
    teamKernel.status 3 = some .paused ∧ k'.status 3 = some .running ∧
      teamKernel.status 4 = some .waiting ∧ k'.status 4 = some .running ∧
      teamKernel.status 5 = some .stopped ∧ k'.status 5 = some .running ∧
      teamKernel.status 2 = some .running ∧
      (pauseResume deskExternals teamKernel 1 [teamIdles]).status 2 = some .paused := by
  decide

/-- A pause of the owner that runs alone. -/
theorem run_suspension_team :
    let s : LiveKernel Unit := { LiveKernel.init teamKernel with calls := [pausing.actions 1] }
    ∃ m, (run (LiveKernel.step deskExternals) s (List.replicate m (.act 0 false))).kernel =
        pausing.suspend deskExternals.toExternals teamKernel 1 ∧
      (run (LiveKernel.step deskExternals) s (List.replicate m (.act 0 false))).calls[0]? =
        some [] :=
  run_suspension (i := 0) rfl

end Avix.Lifecycle
