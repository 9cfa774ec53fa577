/-
  SECURITY — users and the resources of other users.

  `user_isolation_iff`: take any kernel state and any process or signal command that
  `validate_cmd` has accepted for a user `u` below Operator, with any body. What the kernel
  returns and changes for it belongs to `u` if and only if the call it becomes names only
  resources of `u` (`OwnCall`): the pid of a kill, stat, pause, resume or signal, the agents that
  are paused or resumed with it, the session and the `caller` of a spawn, the ids and the username
  of an invocation or message call, the username of a session list, and every agent for a list.

  Reason. The handlers of the gateway set the identity of the caller for the session commands
  only (`asks_callOf`). For the others the kernel takes the ids of the body as they are, and
  `caller` and `username` are injected only where they are missing; `session_ownership_ok` guards
  the four session methods and lets an empty identity through.

  Commands are looked at one by one, with nothing else running and a database that does not fail.
-/
import Avix.Kernel.IpcServer
import Avix.Security.SessionValidity
import Avix.Security.TokenInvariant

namespace Avix.Security

open Except

open SessionRecord hiding id

open KernelServer hiding record session

open Lib KernelState List Option

section Definitions

variable {D : Type} (x : IpcExternals D)

/-! ## Whose a resource is -/

/-- An agent process belongs to the user it was spawned by. -/
def OwnsProcess (u : String) (e : ProcessEntry) : Prop := e.kind = .agent → e.spawnedByUser = u

/-- A message belongs to the user of its session. -/
def OwnsMessage (s : KernelServer D) (u : String) (m : MessageRecord) : Prop :=
  ∃ session, s.session m.sessionId = some session ∧ session.username = u

def OwnsPart (s : KernelServer D) (u : String) (p : PartRecord) : Prop :=
  ∃ m, s.message p.messageId = some m ∧ OwnsMessage s u m

/-- What is returned belongs to the user; an empty conversation tells nothing. -/
def OwnsReply (s : KernelServer D) (u : String) : KernelReply → Prop
  | .agents entries => ∀ e ∈ entries, OwnsProcess u e
  | .agent e => OwnsProcess u e
  | .invocations records => ∀ r ∈ records, r.username = u
  | .conversation username entries => username = u ∨ entries = []
  | .messages records => ∀ m ∈ records, OwnsMessage s u m
  | .parts records => ∀ p ∈ records, OwnsPart s u p
  | .sessions records => ∀ r ∈ records, r.username = u
  | .error _ | .done | .pid _ => True

/-- A resource that has changed is owned, as it was and as it is. -/
def Owned {α : Type} (own : α → Prop) (changed : Prop) (before after : Option α) : Prop :=
  changed → ∀ a, before = some a ∨ after = some a → own a

/-- An agent process: its entry, its task and its executor with the signals it is sent. -/
def process (s : KernelServer D) (p : Pid) :
    Option ProcessEntry × Option SpawnParams × Option ExecutorTask :=
  (s.entry p, s.live.kernel.tasks.lookup p, s.live.executors.lookup p)

/-- What a command returns and changes belongs to the user. -/
structure Confined (u : String) (s s' : KernelServer D) (reply : Option KernelReply) : Prop where
  returned : ∀ r, reply = some r → OwnsReply s u r
  processes : ∀ p, Owned (OwnsProcess u) (process s' p ≠ process s p) (s.entry p) (s'.entry p)
  invocations : ∀ id, Owned (·.username = u) (s'.record id ≠ s.record id) (s.record id)
    (s'.record id)
  sessions : ∀ id, Owned (·.username = u) (s'.session id ≠ s.session id) (s.session id)
    (s'.session id)
  messages : ∀ id, Owned (OwnsMessage s u) (s'.message id ≠ s.message id) (s.message id)
    (s'.message id)
  parts : ∀ id, Owned (OwnsPart s u) (s'.part id ≠ s.part id) (s.part id) (s'.part id)
  conversations : ∀ username sid p,
    s'.conversations username sid p ≠ s.conversations username sid p → username = u

/-! ## Calls that name resources of one user -/

/-- An executor of the agent gets the signals that are sent to it. -/
def HasChannel (s : KernelServer D) (p : Pid) : Prop :=
  s.live.registered.contains p = true ∧ (s.live.executors.lookup p).isSome = true

/-- The resources that a pause, a resume or a signal gets to are owned, or they are already as
    they will be. Timestamps, which change even then, are not part of the records here. -/
@[mk_iff]
structure OwnReach (u : String) (s : KernelServer D) (how : Suspension)
    (statuses invocations signalled : List Pid) (sessions : List Uuid) : Prop where
  processes : ∀ p e, s.entry p = some e → OwnsProcess u e ∨
    (p ∈ statuses → e.status = how.process) ∧ ¬(p ∈ signalled ∧ HasChannel s p)
  invocations : ∀ p ∈ invocations, ∀ id r, s.live.kernel.activeInvocations.lookup p = some id →
    s.record id = some r → r.username = u ∨ r.status = how.invocation
  sessions : ∀ id ∈ sessions, ∀ r, s.session id = some r → r.username = u ∨ r.status = how.session

/-- A pause or resume of the agents, with those that follow in their sessions. -/
def OwnSuspension (u : String) (s : KernelServer D) (how : Suspension) (pids : List Pid) : Prop :=
  let reached := how.reach x.toExecutorExternals s.live pids
  OwnReach u s how reached.1 reached.1 reached.1 reached.2

/-- What a kill gets to is owned, or already as it will be, again up to timestamps. -/
structure OwnKill (u : String) (s : KernelServer D) (pid : Pid) : Prop where
  process : ∀ e, s.entry pid = some e → OwnsProcess u e ∨
    e.status = .stopped ∧ s.live.kernel.tasks.lookup pid = none
  invocation : ∀ id r, s.live.kernel.activeInvocations.lookup pid = some id →
    s.record id = some r → r.username = u ∨ r.status = .killed ∧ r.exitReason = some "killed"
  session : ∀ id r, s.live.kernel.sessionId x.toExternals pid = some id → s.session id = some r →
    r.username = u ∨ pid ∉ r.pids ∧ (pid = r.ownerPid → r.status = .failed)

/-- A spawn names the user as its caller and joins no session of another one. -/
structure OwnSpawn (u : String) (s : KernelServer D) (a : SpawnArgs) : Prop where
  caller : a.callerIdentity = u
  session : ∀ sid id r, s.live.kernel.joinedSession a = some sid → x.parseUuid sid = .ok id →
    s.session id = some r → r.username = u

/-- A spawn that is not refused for its session id. -/
def OwnSpawnCall (u : String) (s : KernelServer D) (a : SpawnArgs) : Prop :=
  s.live.kernel.RejectsSession x.toExternals a ∨ OwnSpawn x u s a

/-- The new invocation of a resumed session. -/
def OwnRespawn (u : String) (s : KernelServer D) (r : ResumeRequest) : Prop :=
  ∀ a, resumeSession r.sessionId r.input (s.session r.sessionId) = .ok a → OwnSpawnCall x u s a

def OwnResume (u : String) (s : KernelServer D) (r : ResumeRequest) (session : SessionRecord) :
    Prop :=
  match session.resumePath r.input with
  | .resumeAgents pids => OwnSuspension x u s resuming pids
  | .startOwner owner _ =>
    if s.live.reaches owner then ∀ e, s.entry owner = some e → OwnsProcess u e
    else OwnRespawn x u s r
  | .newInvocation => OwnRespawn x u s r

/-- A signal: a pause, a resume, or a message for one executor. -/
def OwnSignal (u : String) (s : KernelServer D) (pid : Pid) (name : String) : Prop :=
  if name = "SIGPAUSE" then OwnSuspension x u s pausing [pid]
  else if name = "SIGRESUME" then OwnSuspension x u s resuming [pid]
  else s.live.reaches pid = true → ∀ e, s.entry pid = some e → OwnsProcess u e

/-- A record that is stored again as it is, or is owned, with the one in its place. -/
def OwnCreate {α : Type} (own : α → Prop) (stored : Option α) (new : α) : Prop :=
  stored = some new ∨ own new ∧ ∀ old, stored = some old → own old

/-- The call names only resources of the user. -/
def OwnCall (u : String) (s : KernelServer D) : KernelCall → Prop
  | .spawn a => OwnSpawnCall x u s a
  | .list => ∀ p e, s.entry p = some e → OwnsProcess u e
  | .kill pid => OwnKill x u s pid
  | .stat pid => ∀ e, s.entry pid = some e → OwnsProcess u e
  | .pause pid => OwnSuspension x u s pausing [pid]
  | .resume pid => OwnSuspension x u s resuming [pid]
  | .sessionInvocations sid => ∀ id r, s.record id = some r → r.sessionId = sid → r.username = u
  | .userInvocations username agentName live =>
    username = u ∨ s.userInvocations username agentName live = []
  | .invocationConversation id => ∀ r, s.record id = some r →
    r.username = u ∨ s.conversations r.username r.sessionId r.pid = []
  | .invocationGet id => ∀ r, s.record id = some r → r.username = u
  | .invocationSnapshot id => ∀ r, s.record id = some r →
    r.username = u ∨ r.status.isTerminal = true
  | .messageCreate m => s.history = none ∨ OwnCreate (OwnsMessage s u) (s.message m.id) m
  | .messageGet id => ∀ m, s.message id = some m → OwnsMessage s u m
  | .messageList sid => ∀ id m, s.message id = some m → m.sessionId = sid → OwnsMessage s u m
  | .partCreate p => s.history = none ∨ OwnCreate (OwnsPart s u) (s.part p.id) p
  | .partGet id => ∀ p, s.part id = some p → OwnsPart s u p
  | .partList mid => ∀ id p, s.part id = some p → p.messageId = mid → OwnsPart s u p
  | .sessionList username => username = u ∨ s.sessionList username = []
  -- The kernel has checked the session; only an empty identity gets past the check.
  | .sessionGet r | .sessionDelete r =>
    u = "" → ∀ session, s.session r.sessionId = some session → session.username = u
  | .sessionPause r => ∀ session, s.session r.sessionId = some session →
    u = "" ∨ session.username = u → session.ownerPid ≠ 0 →
      OwnSuspension x u s pausing [session.ownerPid]
  | .sessionResume r => ∀ session, s.session r.sessionId = some session →
    u = "" ∨ session.username = u → OwnResume x u s r session
  | .signal pid name _ => OwnSignal x u s pid name
  | .stub | .listInstalled _ | .package _ => True

structure FreshIds (s : KernelServer D) (ids : SpawnIds) : Prop where
  pid : s.entry ids.pid = none
  pids : ∀ id session, s.session id = some session → ids.pid ∉ session.pids
  session : s.session ids.sessionUuid = none
  uuid : x.parseUuid ids.sessionUuid = .ok ids.sessionUuid
  invocation : s.record ids.invocationUuid = none

end Definitions

section Results

variable {D : Type} {x : IpcExternals D} {u : String} {s : KernelServer D} {ids : SpawnIds}

/-! ## Changes -/

variable {params : SpawnParams} {reply : KernelReply} {k : KernelState D} {id username : String}
  {call : KernelCall} {α : Type} {a : SpawnArgs} {p : Pid} {sessions : List Uuid}
  {live : LiveKernel D} {own : α → Prop} {how : Suspension} {e : ProcessEntry} {f : α → α}
  {after before : Option α} {gs is ps : List Pid}

theorem owned_self {b : Option α} : Owned own (b ≠ b) b b := fun h => absurd rfl h

/-- A change that leaves the owner as it is. -/
theorem owned_map_iff (own : α → Prop) (changed : Prop) (hafter : after = before.map f)
    (hf : ∀ a, own (f a) ↔ own a) :
    Owned own changed before after ↔ ∀ a, before = some a → own a ∨ ¬changed := by
  constructor
  · intro h a ha
    by_cases hchan : changed
    · exact .inl (h hchan a (.inl ha))
    · exact .inr hchan
  · rintro h hchan a (ha | ha)
    · exact (h a ha).resolve_right (not_not.mpr hchan)
    · obtain ⟨old, hold, rfl⟩ := map_eq_some_iff.mp (hafter.symm.trans ha)
      exact (hf old).mpr ((h old hold).resolve_right (not_not.mpr hchan))

/-- As `owned_map_iff`, for a record that is changed under a condition. -/
theorem owned_ite_iff (own : α → Prop) {c : Prop} [Decidable c]
    (hafter : after = if c then before.map f else before) (hf : ∀ a, own (f a) ↔ own a) :
    Owned own (after ≠ before) before after ↔ (c → ∀ a, before = some a → own a ∨ f a = a) := by
  by_cases hc : c
  · rw [if_pos hc] at hafter
    rw [owned_map_iff own _ hafter hf, hafter]
    refine ⟨fun h _ a ha => (h a ha).imp_right fun hsame => ?_, fun h a ha =>
      (h hc a ha).imp_right fun hsame => ?_⟩
    · rw [ha, not_ne_iff] at hsame
      exact some.inj hsame
    · rw [ha, map_some, hsame]
      exact not_not.mpr rfl
  · rw [if_neg hc] at hafter
    rw [hafter]
    exact iff_of_true owned_self fun h => absurd h hc

theorem confined_self {reply : Option KernelReply} (h : ∀ r, reply = some r → OwnsReply s u r) :
    Confined u s s reply where
  returned := h
  processes _ hchanged := absurd rfl hchanged
  invocations _ := owned_self
  sessions _ := owned_self
  messages _ := owned_self
  parts _ := owned_self
  conversations _ _ _ hchanged := absurd rfl hchanged

/-- A call that changes nothing. -/
theorem confined_read : Confined u s s (some reply) ↔ OwnsReply s u reply := by
  constructor
  · intro h
    exact h.returned reply rfl
  · intro h
    refine confined_self ?_
    rintro _ ⟨⟩
    exact h

theorem confined_error (e : RpcError) : Confined u s s (some (.error e)) :=
  confined_read.mpr trivial

theorem confined_done : Confined u s s (some .done) := confined_read.mpr trivial

theorem confined_withLive (live : LiveKernel D) (hreply : OwnsReply s u reply) :
    Confined u s (s.withLive live) (some reply) ↔
      (∀ p, Owned (OwnsProcess u) (process (s.withLive live) p ≠ process s p) (s.entry p)
          ((s.withLive live).entry p)) ∧
        (∀ id, Owned (·.username = u) ((s.withLive live).record id ≠ s.record id) (s.record id)
          ((s.withLive live).record id)) ∧
        ∀ id, Owned (·.username = u) ((s.withLive live).session id ≠ s.session id) (s.session id)
          ((s.withLive live).session id) := by
  constructor
  · intro h
    exact ⟨h.processes, h.invocations, h.sessions⟩
  · rintro ⟨hproc, hinv, hsess⟩
    refine ⟨?_, hproc, hinv, hsess, fun _ => owned_self, fun _ => owned_self,
      fun _ _ _ hchan => absurd rfl hchan⟩
    rintro _ ⟨⟩
    exact hreply

/-! ## Pauses, resumes and signals -/

theorem process_eq_iff_of_moved (h : Moved how ps is gs sessions s.live live)
    (he : s.entry p = some e) :
    process (s.withLive live) p = process s p ↔
      (p ∈ ps → e.status = how.process) ∧ ¬(p ∈ gs ∧ HasChannel s p) := by
  have hentry : (s.withLive live).entry p = s.entry p ↔ (p ∈ ps → e.status = how.process) := by
    have hmoved : (s.withLive live).entry p = _ := h.entry p
    have hget : s.live.kernel.processTable.get p = some e := he
    rw [hmoved, he, hget]
    by_cases hp : p ∈ ps
    · rw [if_pos hp, map_some, some.injEq]
      refine ⟨fun hsame _ => (congrArg ProcessEntry.status hsame).symm, fun hstat => ?_⟩
      rw [← hstat hp]
    · rw [if_neg hp]
      exact iff_of_true rfl fun hmem => absurd hmem hp
  have hexec : (s.withLive live).live.executors.lookup p = s.live.executors.lookup p ↔
      ¬(p ∈ gs ∧ HasChannel s p) := by
    obtain ⟨sent, hsent, hmoved⟩ := h.executor
    rw [show (s.withLive live).live.executors.lookup p = _ from hmoved p]
    unfold HasChannel
    cases ht : s.live.executors.lookup p with
    | none => simp
    | some t =>
      rw [map_some, some.injEq, isSome_some, and_iff_left rfl, ← hsent p]
      refine ⟨fun hsame => ?_, fun hnone => ?_⟩
      · exact append_right_eq_self.mp (congrArg ExecutorTask.signalRx hsame)
      · rw [hnone, append_nil]
  unfold process
  rw [Prod.mk.injEq, Prod.mk.injEq, hentry, hexec,
    show (s.withLive live).live.kernel.tasks = s.live.kernel.tasks from h.tasks]
  simp

theorem confined_moved (h : Moved how ps is gs sessions s.live live)
    (hreply : OwnsReply s u reply) :
    Confined u s (s.withLive live) (some reply) ↔ OwnReach u s how ps is gs sessions := by
  rw [confined_withLive live hreply, ownReach_iff]
  refine and_congr (forall_congr' fun p => ?_) (and_congr ?_ ?_)
  · have hafter : (s.withLive live).entry p = (s.entry p).map fun e =>
        { e with status := if p ∈ ps then how.process else e.status } := by
      refine (h.entry p).trans ?_
      split_ifs <;> simp [entry]
    rw [owned_map_iff _ _ hafter fun _ => Iff.rfl]
    refine forall_congr' fun e => imp_congr_right fun he => or_congr_right ?_
    rw [not_ne_iff, process_eq_iff_of_moved h he]
  · have hiff := fun id => owned_ite_iff (fun r : InvocationRecord => r.username = u)
      (h.record id) fun _ => Iff.rfl
    refine (forall_congr' hiff).trans ⟨fun hown p hp id r hid hr => ?_, fun hown id hid r hr => ?_⟩
    · exact (hown id ⟨p, hp, hid⟩ r hr).imp_right fun hsame =>
        (congrArg InvocationRecord.status hsame).symm
    · obtain ⟨p, hp, hid⟩ := hid
      exact (hown p hp id r hid hr).imp_right fun hstat => by rw [← hstat]
  · have hiff := fun id => owned_ite_iff (fun r : SessionRecord => r.username = u)
      (h.session id) fun _ => Iff.rfl
    refine (forall_congr' hiff).trans ⟨fun hown id hid r hr => ?_, fun hown id hid r hr => ?_⟩
    · exact (hown id hid r hr).imp_right fun hsame => (congrArg SessionRecord.status hsame).symm
    · exact (hown id hid r hr).imp_right fun hstat => by rw [← hstat]; rfl

theorem confined_suspend (hkeyed : SessionsKeyed s.live.kernel) (how : Suspension)
    (pids : List Pid) :
    Confined u s (s.suspend x how pids) (some .done) ↔ OwnSuspension x u s how pids :=
  confined_moved (moved_reach how pids hkeyed) trivial

theorem confined_send {sig : Signal} (hreac : s.live.reaches sig.target = true)
    (hreply : OwnsReply s u reply) :
    Confined u s (s.withLive (s.live.send sig)) (some reply) ↔
      ∀ e, s.entry sig.target = some e → OwnsProcess u e := by
  have hchan : HasChannel s sig.target := by
    unfold LiveKernel.reaches at hreac
    obtain ⟨hreg, hlist⟩ := Bool.and_eq_true_iff.mp hreac
    refine ⟨hreg, ?_⟩
    cases ht : s.live.executors.lookup sig.target with
    | none =>
      rw [ht] at hlist
      cases hlist
    | some t => rfl
  rw [confined_moved (moved_send pausing s.live sig) hreply]
  constructor
  · intro h e he
    refine (h.processes _ e he).resolve_right fun hsame => ?_
    exact hsame.2 ⟨mem_singleton.mpr rfl, hchan⟩
  · intro h
    refine ⟨fun p e he => ?_, nofun, nofun⟩
    by_cases hp : p = sig.target
    · rw [hp] at he
      exact .inl (h e he)
    · exact .inr ⟨nofun, fun hmem => hp (mem_singleton.mp hmem.1)⟩

/-! ## A kill -/

/-- The kernel after a kill, entry by entry and record by record. -/
theorem kill_eq (hkeyed : SessionsKeyed s.live.kernel) (pid : Pid) :
    (∀ p, (s.kill x pid).1.entry p =
        if p = pid then (s.entry p).map fun e => { e with status := .stopped } else s.entry p) ∧
      (∀ id, (s.kill x pid).1.record id =
        if s.live.kernel.activeInvocations.lookup pid = some id
        then (s.record id).map fun r => { r with status := .killed, exitReason := some "killed" }
        else s.record id) ∧
      (∀ id, (s.kill x pid).1.session id =
        if s.live.kernel.sessionId x.toExternals pid = some id
        then (s.session id).map (leaveSession pid .killed) else s.session id) ∧
      (s.kill x pid).1.live.kernel.tasks = s.live.kernel.tasks.erase pid := by
  have habort : s.live.kernel.abortAgent pid false = { s.live.kernel.abortAgent pid false with
        sessionStore := s.live.kernel.sessionStore
        activeSessions := s.live.kernel.activeSessions
        tasks := s.live.kernel.tasks.erase pid } := by
    unfold abortAgent
    rw [finalizeInvocation_frame]
    rfl
  have hsame : ∀ id, (s.live.kernel.abortAgent pid false).session id = s.session id := by
    intro id
    rw [habort]
    rfl
  have hsid : (s.live.kernel.abortAgent pid false).sessionId x.toExternals pid =
      s.live.kernel.sessionId x.toExternals pid := by
    rw [habort]
    rfl
  refine ⟨fun p => ?_, fun id => ?_, fun id => ?_, ?_⟩
  · change ((s.live.kernel.abortAgent pid false).finalizeSessionForPid x.toExternals pid
      .killed).processTable.get p = _
    rw [finalizeSessionForPid_frame]
    exact abortAgent_get pid false p
  · change ((s.live.kernel.abortAgent pid false).finalizeSessionForPid x.toExternals pid
      .killed).record id = _
    rw [finalizeSessionForPid_frame]
    exact record_finalizeInvocation pid .killed (some "killed") id
  · have hfinal := session_finalizeSessionForPid (x := x.toExternals)
      (fun id r hr => hkeyed id r ((hsame id).symm.trans hr)) pid .killed id
    rw [hsame, hsid] at hfinal
    exact hfinal
  · change ((s.live.kernel.abortAgent pid false).finalizeSessionForPid x.toExternals pid
      .killed).tasks = _
    rw [finalizeSessionForPid_frame, habort]

theorem executors_kill (pid : Pid) : (s.kill x pid).1.live.executors =
    match s.live.kernel.tasks.lookup pid with
    | some _ => s.live.executors.erase pid
    | none => s.live.executors := rfl

theorem process_kill_eq_iff (hkeyed : SessionsKeyed s.live.kernel) (pid : Pid)
    (he : s.entry p = some e) :
    process (s.kill x pid).1 p = process s p ↔
      (p = pid → e.status = .stopped ∧ s.live.kernel.tasks.lookup p = none) := by
  obtain ⟨hentry, -, -, htasks⟩ := kill_eq hkeyed pid
  unfold process
  rw [Prod.mk.injEq, Prod.mk.injEq, hentry, htasks, executors_kill, he]
  by_cases hp : p = pid
  · subst hp
    rw [if_pos rfl, AList.lookup_erase, map_some, some.injEq]
    constructor
    · rintro ⟨hstat, htask, -⟩ -
      exact ⟨(congrArg ProcessEntry.status hstat).symm, htask.symm⟩
    · intro h
      obtain ⟨hstat, htask⟩ := h rfl
      rw [htask, ← hstat]
      exact ⟨rfl, rfl, rfl⟩
  · rw [if_neg hp, AList.lookup_erase_ne hp]
    refine iff_of_true ⟨rfl, rfl, ?_⟩ fun h => absurd h hp
    cases s.live.kernel.tasks.lookup pid with
    | none => rfl
    | some params => exact AList.lookup_erase_ne hp

/-- An ended agent leaves its session as it was if it is not in it. -/
theorem leaveSession_eq_self_iff (pid : Pid) (r : SessionRecord) :
    leaveSession pid .killed r = r ↔ pid ∉ r.pids ∧ (pid = r.ownerPid → r.status = .failed) := by
  have hfilt : r.pids.filter (· ≠ pid) = r.pids ↔ pid ∉ r.pids := by
    rw [filter_eq_self]
    refine ⟨fun h hmem => ?_, fun h q hq => ?_⟩
    · exact absurd rfl (of_decide_eq_true (h pid hmem))
    · exact decide_eq_true fun hqp => h (hqp ▸ hq)
  unfold leaveSession
  dsimp only
  rw [show (r.removePid pid).ownerPid = r.ownerPid from rfl]
  split_ifs with howner
  · constructor
    · intro h
      exact ⟨hfilt.mp (congrArg pids h),
        fun _ => (congrArg SessionRecord.status h).symm⟩
    · rintro ⟨hmem, hstat⟩
      unfold removePid mark
      rw [hfilt.mpr hmem]
      dsimp only
      rw [show SessionChange.ownerStatus .killed r.status = r.status from (hstat howner).symm]
  · constructor
    · intro h
      exact ⟨hfilt.mp (congrArg pids h), fun h => absurd h howner⟩
    · rintro ⟨hmem, -⟩
      unfold removePid
      rw [hfilt.mpr hmem]

theorem confined_kill (hkeyed : SessionsKeyed s.live.kernel) (pid : Pid) :
    Confined u s (s.kill x pid).1 (some (s.kill x pid).2) ↔ OwnKill x u s pid := by
  obtain ⟨hentry, hrec, hsess, -⟩ := kill_eq hkeyed pid
  have hreply : OwnsReply s u (s.kill x pid).2 := by
    unfold kill
    dsimp only
    cases s.entry pid <;> exact trivial
  have hmap : ∀ p, (s.kill x pid).1.entry p = (s.entry p).map fun e =>
      { e with status := if p = pid then .stopped else e.status } := by
    intro p
    rw [hentry]
    split_ifs <;> simp
  have hproc := fun p => owned_map_iff (OwnsProcess u)
    (process (s.kill x pid).1 p ≠ process s p) (hmap p) fun _ => Iff.rfl
  have hinv := fun id => owned_ite_iff (fun r : InvocationRecord => r.username = u)
    (hrec id) fun _ => Iff.rfl
  have hsessi := fun id => owned_ite_iff (fun r : SessionRecord => r.username = u)
    (hsess id) fun r => by rw [(leaveSession_id pid .killed r).2]
  refine (confined_withLive _ hreply).trans ((and_congr (forall_congr' hproc)
    (and_congr (forall_congr' hinv) (forall_congr' hsessi))).trans ?_)
  constructor
  · rintro ⟨hp, hi, hs⟩
    refine ⟨fun e he => ?_, fun id r hid hr => ?_, fun id r hid hr => ?_⟩
    · refine (hp pid e he).imp_right fun hsame => ?_
      exact (process_kill_eq_iff hkeyed pid he).mp (not_not.mp hsame) rfl
    · exact (hi id hid r hr).imp_right fun hsame =>
        ⟨(congrArg InvocationRecord.status hsame).symm,
          (congrArg InvocationRecord.exitReason hsame).symm⟩
    · exact (hs id hid r hr).imp_right (leaveSession_eq_self_iff pid r).mp
  · rintro ⟨hp, hi, hs⟩
    refine ⟨fun p e he => ?_, fun id hid r hr => ?_, fun id hid r hr => ?_⟩
    · rw [not_ne_iff, process_kill_eq_iff hkeyed pid he]
      by_cases hpid : p = pid
      · subst hpid
        exact (hp e he).imp_right fun hsame _ => hsame
      · exact .inr fun h => absurd h hpid
    · refine (hi id r hid hr).imp_right fun hsame => ?_
      rw [← hsame.1, ← hsame.2]
    · exact (hs id r hid hr).imp_right (leaveSession_eq_self_iff pid r).mpr

/-! ## A spawn -/

theorem beginSpawn_error_iff (ids : SpawnIds) (a : SpawnArgs) :
    (∃ e, s.live.kernel.beginSpawn x.toExternals a ids.env = .error e) ↔
      s.live.kernel.RejectsSession x.toExternals a := by
  rw [← effectiveSession_eq_error_iff ids.env]
  unfold beginSpawn
  cases s.live.kernel.effectiveSession x.toExternals a ids.env <;> simp

section Spawned

variable (h : s.live.kernel.beginSpawn x.toExternals a ids.env = .ok (k, params))

include h

theorem process_spawn_ne (hp : p ≠ ids.pid) : process (s.spawn x ids a).1 p = process s p := by
  have hspaw := (spawn_eq_ok (spawn_of_beginSpawn h)).2
  have hbegun := beginSpawn_eq_ok h
  unfold KernelServer.spawn
  rw [h]
  unfold process
  refine Prod.ext ((hspaw.entry p).trans (if_neg hp)) (Prod.ext ?_ ?_)
  · exact beginSpawn_tasks h hp
  change AList.lookup p (if k.hasFactory = true then _ else _) = _
  split_ifs
  · rw [hbegun.pid]
    exact AList.lookup_insert_ne hp
  · rfl

theorem owned_spawn_process (hfresh : FreshIds x s ids) :
    (∀ p, Owned (OwnsProcess u) (process (s.spawn x ids a).1 p ≠ process s p) (s.entry p)
      ((s.spawn x ids a).1.entry p)) ↔ a.callerIdentity = u := by
  have hspaw := (spawn_eq_ok (spawn_of_beginSpawn h)).2
  have hentry : (s.spawn x ids a).1.entry ids.pid = some (spawnedEntry a ids.env.pid) := by
    unfold KernelServer.spawn
    rw [h]
    exact (hspaw.entry ids.pid).trans (if_pos rfl)
  constructor
  · intro hown
    have hchan : process (s.spawn x ids a).1 ids.pid ≠ process s ids.pid := by
      intro hsame
      have hnone := (congrArg Prod.fst hsame).trans hfresh.pid
      rw [show (process (s.spawn x ids a).1 ids.pid).1 = _ from hentry] at hnone
      cases hnone
    exact hown ids.pid hchan _ (.inr hentry) rfl
  · intro hcall p hchan e he
    have hp : p = ids.pid := by
      by_contra hne
      exact hchan (process_spawn_ne h hne)
    subst hp
    rw [hfresh.pid, hentry] at he
    obtain rfl := some.inj (he.resolve_left nofun)
    exact fun _ => hcall

theorem owned_spawn_record (hfresh : FreshIds x s ids) (hcall : a.callerIdentity = u)
    (id : String) : Owned (·.username = u) ((s.spawn x ids a).1.record id ≠ s.record id)
      (s.record id) ((s.spawn x ids a).1.record id) := by
  obtain ⟨-, -, -, r, hr, -, huser, hstore⟩ := beginSpawn_goal h
  have hafter : (s.spawn x ids a).1.record id =
      if id = r.id ∧ false = false then s.live.kernel.invocationStore.map fun _ => r
      else s.record id := by
    unfold KernelServer.spawn
    rw [h]
    exact record_create hstore id
  intro hchan record hrec
  by_cases hid : id = r.id
  · have hnone : s.record r.id = none := hr ▸ hfresh.invocation
    rw [hafter, if_pos ⟨hid, rfl⟩, hid, hnone] at hrec
    obtain ⟨_, -, rfl⟩ := map_eq_some_iff.mp (hrec.resolve_left nofun)
    exact huser.trans hcall
  · exact absurd (hafter.trans (if_neg fun hboth => hid hboth.1)) hchan

theorem owned_spawn_session (hkeyed : SessionsKeyed s.live.kernel) (hfresh : FreshIds x s ids)
    (hcall : a.callerIdentity = u) :
    (∀ id, Owned (·.username = u) ((s.spawn x ids a).1.session id ≠ s.session id) (s.session id)
      ((s.spawn x ids a).1.session id)) ↔
      ∀ sid id r, s.live.kernel.joinedSession a = some sid → x.parseUuid sid = .ok id →
        s.session id = some r → r.username = u := by
  have hafter : ∀ id, (s.spawn x ids a).1.session id = k.session id := by
    intro id
    unfold KernelServer.spawn
    rw [h]
    rfl
  cases hjoin : s.live.kernel.joinedSession a with
  | none =>
    obtain ⟨hold, hnew⟩ := session_beginSpawn_new hkeyed hfresh.uuid hjoin h
    refine iff_of_true (fun id hchan r hr => ?_) nofun
    rw [hafter] at hchan hr
    by_cases hid : id = ids.sessionUuid
    · rw [hid, hfresh.session] at hr
      exact (hnew r (hr.resolve_left nofun)).trans hcall
    · exact absurd (hold id hid) hchan
  | some sid =>
    have hjoined := session_beginSpawn_joined hkeyed hjoin h
    have hiff := fun id => owned_ite_iff (fun r : SessionRecord => r.username = u)
      ((hafter id).trans (hjoined id))
      fun r => by rw [(enterSession_id a ids _).2]; rfl
    refine (forall_congr' hiff).trans ⟨fun hown sid' id r hsid hparse hr => ?_,
      fun hown id hid r hr => ?_⟩
    · cases hsid
      have hid : (x.parseUuid sid).toOption = some id := by rw [hparse]; rfl
      refine (hown id hid r hr).resolve_right fun hsame => hfresh.pids id r hr ?_
      rw [← hsame]
      exact mem_pids_enterSession a ids _
    · have hparse : x.parseUuid sid = .ok id := by
        revert hid
        cases x.parseUuid sid with
        | error e => exact nofun
        | ok id' => exact fun hid => congrArg ok (some.inj hid)
      exact .inl (hown sid id r rfl hparse hr)

end Spawned

theorem confined_spawn (hkeyed : SessionsKeyed s.live.kernel) (hfresh : FreshIds x s ids)
    (a : SpawnArgs) :
    Confined u s (s.spawn x ids a).1 (some (s.spawn x ids a).2) ↔ OwnSpawnCall x u s a := by
  cases hbegin : s.live.kernel.beginSpawn x.toExternals a ids.env with
  | error e =>
    have hspawn : s.spawn x ids a = s.failed e := by
      unfold KernelServer.spawn
      rw [hbegin]
    rw [hspawn]
    exact iff_of_true (confined_error _) (.inl ((beginSpawn_error_iff ids a).mp ⟨e, hbegin⟩))
  | ok begun =>
    obtain ⟨k, params⟩ := begun
    have hacc : ¬s.live.kernel.RejectsSession x.toExternals a := by
      intro hrej
      obtain ⟨e, he⟩ := (beginSpawn_error_iff ids a).mpr hrej
      rw [he] at hbegin
      cases hbegin
    have hspawn : ∃ live, s.spawn x ids a = (s.withLive live, .pid ids.pid) := by
      unfold KernelServer.spawn
      rw [hbegin]
      exact ⟨_, rfl⟩
    obtain ⟨live, hspawn⟩ := hspawn
    have hafter : s.withLive live = (s.spawn x ids a).1 := (congrArg Prod.fst hspawn).symm
    have hreply : OwnsReply s u (.pid ids.pid) := trivial
    have hconf := confined_withLive live hreply
    rw [hafter, owned_spawn_process hbegin hfresh] at hconf
    unfold OwnSpawnCall
    rw [or_iff_right hacc, show (s.spawn x ids a).2 = .pid ids.pid from
      congrArg Prod.snd hspawn, hconf]
    constructor
    · rintro ⟨hcall, -, hsess⟩
      exact ⟨hcall, (owned_spawn_session hbegin hkeyed hfresh hcall).mp hsess⟩
    · rintro ⟨hcall, hsess⟩
      exact ⟨hcall, owned_spawn_record hbegin hfresh hcall,
        (owned_spawn_session hbegin hkeyed hfresh hcall).mpr hsess⟩

/-! ## Reads -/

theorem ownsReply_found {what : String} {reply : α → KernelReply} {found : Option α} :
    OwnsReply s u (KernelServer.found what id reply found) ↔
      ∀ a, found = some a → OwnsReply s u (reply a) := by
  cases found with
  | none => exact iff_of_true trivial nofun
  | some a => simp [found]

theorem ownsReply_list :
    OwnsReply s u (.agents s.list) ↔ ∀ p e, s.entry p = some e → OwnsProcess u e := by
  have hmem : ∀ e, e ∈ s.list ↔ (∃ p, s.entry p = some e) ∧ e.kind = .agent := by
    intro e
    unfold list
    rw [mem_filter, HashMap.mem_values, decide_eq_true_iff]
    rfl
  constructor
  · intro h p e he hkind
    exact h e ((hmem e).mpr ⟨⟨p, he⟩, hkind⟩) hkind
  · intro h e he
    obtain ⟨⟨p, hp⟩, -⟩ := (hmem e).mp he
    exact h p e hp

theorem mem_invocations {r : InvocationRecord} :
    r ∈ s.invocations ↔ ∃ id, s.record id = some r := by
  unfold KernelServer.invocations KernelServer.record record
  cases s.live.kernel.invocationStore with
  | none => simp
  | some store => exact HashMap.mem_values

theorem ownsReply_sessionInvocations {sid : String} :
    OwnsReply s u (.invocations (s.invocations.filter (·.sessionId = sid))) ↔
      ∀ id r, s.record id = some r → r.sessionId = sid → r.username = u := by
  constructor
  · intro h id r hr hsid
    exact h r (mem_filter.mpr ⟨mem_invocations.mpr ⟨id, hr⟩, decide_eq_true hsid⟩)
  · intro h r hr
    obtain ⟨hmem, hsid⟩ := mem_filter.mp hr
    obtain ⟨id, hid⟩ := mem_invocations.mp hmem
    exact h id r hid (of_decide_eq_true hsid)

theorem forall_username_iff {user : α → String} {l : List α} (hl : ∀ a ∈ l, user a = username) :
    (∀ a ∈ l, user a = u) ↔ username = u ∨ l = [] := by
  constructor
  · intro h
    cases l with
    | nil => exact .inr rfl
    | cons a l =>
      have ha : a ∈ a :: l := mem_cons_self
      exact .inl ((hl a ha).symm.trans (h a ha))
  · rintro (rfl | rfl)
    · exact hl
    · exact nofun

theorem ownsReply_userInvocations {agentName : Option String} {live : Bool} :
    OwnsReply s u (.invocations (s.userInvocations username agentName live)) ↔
      username = u ∨ s.userInvocations username agentName live = [] := by
  refine forall_username_iff fun r hr => ?_
  have hfilt := (mem_filter.mp (mem_filter.mp hr).1).2
  exact (of_decide_eq_true hfilt).1

theorem ownsReply_sessionList : OwnsReply s u (.sessions (s.sessionList username)) ↔
    username = u ∨ s.sessionList username = [] :=
  forall_username_iff fun _ hr => of_decide_eq_true (mem_filter.mp hr).2

theorem ownsReply_invocationConversation :
    OwnsReply s u (s.invocationConversation id) ↔ ∀ r, s.record id = some r →
      r.username = u ∨ s.conversations r.username r.sessionId r.pid = [] := by
  unfold invocationConversation
  cases s.record id with
  | none => exact iff_of_true (.inr rfl) nofun
  | some r => simp [OwnsReply]

theorem ownsReply_invocationSnapshot :
    OwnsReply s u (s.invocationSnapshot id) ↔ ∀ r, s.record id = some r →
      r.username = u ∨ r.status.isTerminal = true := by
  unfold invocationSnapshot
  cases s.record id with
  | none => exact iff_of_true trivial nofun
  | some r =>
    dsimp only
    split_ifs with hterm
    · refine iff_of_true trivial fun r' hr => .inr ?_
      rw [← some.inj hr]
      exact hterm
    · simp [OwnsReply, hterm]

theorem forall_listed_iff {R : Type} {listed : HistoryStore → List R}
    {records : HistoryStore → HashMap Uuid R} {P own : R → Prop}
    (hlist : ∀ store r, r ∈ listed store ↔ r ∈ (records store).entries.map (·.2) ∧ P r) :
    (∀ r ∈ (s.history.map listed).getD [], own r) ↔
      ∀ id r, (s.history.bind fun store => (records store).lookup id) = some r → P r → own r := by
  cases s.history with
  | none => simp
  | some store =>
    simp only [map_some, getD_some, bind_some, hlist, HashMap.mem_values,
      and_imp, forall_exists_index]
    exact forall_comm

theorem ownsReply_messageList {sid : Uuid} :
    OwnsReply s u (.messages ((s.history.map (·.listMessages sid)).getD [])) ↔
      ∀ id m, s.message id = some m → m.sessionId = sid → OwnsMessage s u m := by
  refine forall_listed_iff fun store m => ?_
  rw [HistoryStore.listMessages, mem_mergeSort, mem_filter, decide_eq_true_eq]

theorem ownsReply_partList {mid : Uuid} :
    OwnsReply s u (.parts ((s.history.map (·.listParts mid)).getD [])) ↔
      ∀ id p, s.part id = some p → p.messageId = mid → OwnsPart s u p := by
  refine forall_listed_iff fun store p => ?_
  rw [HistoryStore.listParts, mem_mergeSort, mem_filter, decide_eq_true_eq]

/-! ## Messages and parts -/

theorem owned_insert_iff {K : Type} [DecidableEq K] {before after : K → Option α} {key : K}
    {new : α} (hafter : ∀ k, after k = if k = key then some new else before k) :
    (∀ k, Owned own (after k ≠ before k) (before k) (after k)) ↔
      OwnCreate own (before key) new := by
  have hkey : after key = some new := (hafter key).trans (if_pos rfl)
  constructor
  · intro h
    by_cases hsame : before key = some new
    · exact .inl hsame
    · have hchan : after key ≠ before key := fun heq => hsame (heq.symm.trans hkey)
      exact .inr ⟨h key hchan new (.inr hkey), fun old hold => h key hchan old (.inl hold)⟩
  · intro h k hchan a ha
    have hk : k = key := by
      by_contra hne
      exact hchan ((hafter k).trans (if_neg hne))
    subst hk
    rcases h with hsame | ⟨hnew, hold⟩
    · exact absurd (hkey.trans hsame.symm) hchan
    rcases ha with ha | ha
    · exact hold a ha
    · rw [← some.inj (hkey.symm.trans ha)]
      exact hnew

theorem confined_withHistory (store : HistoryStore) :
    Confined u s { s with history := some store } (some .done) ↔
      (∀ id, Owned (OwnsMessage s u) (store.messages.lookup id ≠ s.message id) (s.message id)
          (store.messages.lookup id)) ∧
        ∀ id, Owned (OwnsPart s u) (store.parts.lookup id ≠ s.part id) (s.part id)
          (store.parts.lookup id) := by
  constructor
  · intro h
    exact ⟨h.messages, h.parts⟩
  · rintro ⟨hmess, hparts⟩
    refine ⟨?_, fun p hchan => absurd rfl hchan, fun _ => owned_self, fun _ => owned_self,
      hmess, hparts, fun _ _ _ hchan => absurd rfl hchan⟩
    rintro _ ⟨⟩
    trivial

theorem lookups_of_history {store : HistoryStore} (h : s.history = some store) :
    (∀ id, s.message id = store.messages.lookup id) ∧ ∀ id, s.part id = store.parts.lookup id := by
  constructor
  · intro id
    rw [message, h, bind_some]
  · intro id
    rw [part, h, bind_some]

theorem confined_messageCreate (m : MessageRecord) :
    Confined u s (s.changeHistory (·.createMessage m)).1
        (some (s.changeHistory (·.createMessage m)).2) ↔
      s.history = none ∨ OwnCreate (OwnsMessage s u) (s.message m.id) m := by
  unfold changeHistory
  cases hstore : s.history with
  | none => exact iff_of_true (confined_error _) (.inl rfl)
  | some store =>
    obtain ⟨hmess, hpart⟩ := lookups_of_history hstore
    rw [or_iff_right nofun]
    refine (confined_withHistory _).trans ((and_iff_left fun id hchan => ?_).trans
      (owned_insert_iff fun id => ?_))
    · exact absurd (hpart id).symm hchan
    · rw [hmess]
      exact HashMap.lookup_insert_eq_ite store.messages m.id id m

theorem confined_partCreate (p : PartRecord) : Confined u s (s.changeHistory (·.createPart p)).1
      (some (s.changeHistory (·.createPart p)).2) ↔
    s.history = none ∨ OwnCreate (OwnsPart s u) (s.part p.id) p := by
  unfold changeHistory
  cases hstore : s.history with
  | none => exact iff_of_true (confined_error _) (.inl rfl)
  | some store =>
    obtain ⟨hmess, hpart⟩ := lookups_of_history hstore
    rw [or_iff_right nofun]
    refine (confined_withHistory _).trans ((and_iff_right fun id hchan => ?_).trans
      (owned_insert_iff fun id => ?_))
    · exact absurd (hmess id).symm hchan
    · rw [hpart]
      exact HashMap.lookup_insert_eq_ite store.parts p.id id p

/-! ## Sessions -/

theorem sessionOwnershipOk_iff :
    sessionOwnershipOk username u false = true ↔ u = "" ∨ username = u := by
  simp [sessionOwnershipOk]

/-- A session call is made on a session that the check lets through. -/
theorem confined_withSession (r : SessionRequest) {none : KernelServer D × KernelReply}
    {f : SessionRecord → KernelServer D × KernelReply} (hcall : r.callerIdentity = u)
    (hpriv : r.isPrivileged = false) (hnone : Confined u s none.1 (some none.2)) :
    Confined u s (s.withSession r none f).1 (some (s.withSession r none f).2) ↔
      ∀ session, s.session r.sessionId = some session → u = "" ∨ session.username = u →
        Confined u s (f session).1 (some (f session).2) := by
  unfold withSession
  rw [hcall, hpriv]
  cases s.session r.sessionId with
  | none => exact iff_of_true hnone nofun
  | some session =>
    simp only [some.injEq, forall_eq', ← sessionOwnershipOk_iff]
    split_ifs with hok
    · exact ⟨fun h _ => h, fun h => h hok⟩
    · exact iff_of_true (confined_error _) fun h => absurd h hok

theorem session_deleteSession (id id' : Uuid) : (s.withLive (s.deleteSession id)).session id' =
    if id' = id then none else s.session id' := by
  unfold KernelServer.session session KernelServer.deleteSession
  dsimp only [withLive]
  cases s.live.kernel.sessionStore with
  | none => split_ifs <;> rfl
  | some store =>
    split_ifs with hid
    · rw [hid]
      exact AList.lookup_erase _ _
    · exact AList.lookup_erase_ne hid

theorem confined_sessionDelete (id : Uuid) :
    Confined u s (s.withLive (s.deleteSession id)) (some .done) ↔
      ∀ session, s.session id = some session → session.username = u := by
  have hreply : OwnsReply s u .done := trivial
  refine (confined_withLive _ hreply).trans ⟨?_, fun h => ?_⟩
  · rintro ⟨-, -, h⟩ session hsess
    refine h id ?_ session (.inl hsess)
    rw [session_deleteSession, if_pos rfl, hsess]
    exact nofun
  · refine ⟨fun p hchan => absurd rfl hchan, fun _ => owned_self, fun id' hchan r hr => ?_⟩
    rw [session_deleteSession] at hchan hr
    split_ifs at hchan hr with hid
    · subst hid
      exact h r (hr.resolve_right nofun)
    · exact absurd rfl hchan

theorem confined_resumeWith (hkeyed : SessionsKeyed s.live.kernel) (hfresh : FreshIds x s ids)
    (r : ResumeRequest) :
    Confined u s (s.resumeWith x ids r).1 (some (s.resumeWith x ids r).2) ↔ OwnRespawn x u s r := by
  unfold resumeWith OwnRespawn
  cases resumeSession r.sessionId r.input (s.session r.sessionId) with
  | error e => exact iff_of_true (confined_error _) nofun
  | ok a =>
    simp only [ok.injEq, forall_eq']
    exact confined_spawn hkeyed hfresh a

theorem confined_sessionResume (hkeyed : SessionsKeyed s.live.kernel) (hfresh : FreshIds x s ids)
    (r : ResumeRequest) (hcall : r.callerIdentity = u) (hpriv : r.isPrivileged = false) :
    Confined u s (s.sessionResume x ids r).1 (some (s.sessionResume x ids r).2) ↔
      ∀ session, s.session r.sessionId = some session → u = "" ∨ session.username = u →
        OwnResume x u s r session := by
  unfold sessionResume
  refine (confined_withSession ⟨r.sessionId, r.callerIdentity, r.isPrivileged⟩ hcall hpriv
    (confined_error _)).trans ?_
  refine forall_congr' fun session => imp_congr_right fun _ => imp_congr_right fun _ => ?_
  unfold OwnResume
  cases session.resumePath r.input with
  | resumeAgents pids => exact confined_suspend hkeyed resuming pids
  | startOwner owner goal =>
    dsimp only
    split_ifs with hreac
    · exact confined_send hreac trivial
    · exact confined_resumeWith hkeyed hfresh r
  | newInvocation => exact confined_resumeWith hkeyed hfresh r

/-! ## Signals -/

theorem confined_deliver (sig : Signal) : Confined u s (s.deliver sig).1 (some (s.deliver sig).2) ↔
    (s.live.reaches sig.target = true → ∀ e, s.entry sig.target = some e → OwnsProcess u e) := by
  have hreply : OwnsReply s u .done := trivial
  unfold deliver
  split_ifs with hreac
  · rw [confined_send hreac hreply]
    exact ⟨fun h _ => h, fun h => h hreac⟩
  · exact iff_of_true (confined_error _) fun h => absurd h hreac

theorem confined_signal (hkeyed : SessionsKeyed s.live.kernel) (pid : Pid) {name : String}
    (payload : Json) (hname : name ∈ validSignals) :
    Confined u s (s.signal x pid name payload).1 (some (s.signal x pid name payload).2) ↔
      OwnSignal x u s pid name := by
  simp only [validSignals, mem_cons, not_mem_nil, or_false] at hname
  rcases hname with rfl | rfl | rfl | rfl | rfl | rfl | rfl | rfl
  case inr.inl => exact confined_suspend hkeyed pausing [pid]
  case inr.inr.inl => exact confined_suspend hkeyed resuming [pid]
  all_goals exact confined_deliver _

/-! ## From the command to the call -/

/-- What the gateway guarantees for a call. -/
def Asks (u : String) : KernelCall → Prop
  | .sessionGet r | .sessionPause r | .sessionDelete r =>
    r.callerIdentity = u ∧ r.isPrivileged = false
  | .sessionResume r => r.callerIdentity = u ∧ r.isPrivileged = false
  | .signal _ name _ => name ∈ validSignals
  | _ => True

theorem uuidParam_eq_ok {params : Json} {key message : String} {mk : Uuid → KernelCall}
    (h : uuidParam x params key message mk = .ok call) : ∃ uuid, call = mk uuid := by
  unfold uuidParam at h
  split at h
  · next uuid _ => exact ⟨uuid, (ok.inj h).symm⟩
  · cases h

theorem asks_kernelCall {method : String} {params : Json}
    (h : kernelCall x method params = .ok call)
    (hsess : method ∈ sessionOps.map (·.2) →
      params.index "caller_identity" = .string u ∧ params.index "is_privileged" = .bool false)
    (hsign : method = "kernel/signal/send" → strParam params "signal" "" ∈ validSignals) :
    Asks u call := by
  have hset : method ∈ sessionOps.map (·.2) → strParam params "caller_identity" "" = u ∧
      ((params.index "is_privileged").asBool).getD false = false := by
    intro hmeth
    obtain ⟨hcall, hpriv⟩ := hsess hmeth
    unfold strParam
    rw [hcall, hpriv]
    exact ⟨rfl, rfl⟩
  unfold kernelCall at h
  split at h
  case h_10 =>
    cases h
    unfold invocationListParams
    split_ifs <;> trivial
  -- Messages and parts are read from the body.
  case h_14 | h_17 =>
    split at h
    · cases h
      trivial
    · cases h
  case h_15 | h_16 | h_18 | h_19 =>
    obtain ⟨uuid, rfl⟩ := uuidParam_eq_ok h
    trivial
  case h_21 | h_22 | h_23 | h_24 =>
    obtain ⟨uuid, rfl⟩ := uuidParam_eq_ok h
    exact hset (by simp [sessionOps])
  case h_29 =>
    unfold signalParams at h
    dsimp only at h
    split_ifs at h
    cases h
    exact hsign rfl
  case h_30 => cases h
  all_goals
    cases h
    trivial

theorem asks_callOf {v : ValidatedCmd} (hrole : v.callerRole < .operator)
    (h : KernelServer.callOf x v = some (.ok call)) : Asks v.callerIdentity call := by
  have hdisj : ∀ method ∈ bodyMethods,
      method ∉ sessionOps.map (·.2) ∧ method ≠ "kernel/signal/send" := by decide
  have hunpr : ∀ {role : Role}, role < .operator →
      (decide (role = .operator) || decide (role = .admin)) = false := by
    intro role
    cases role <;> decide
  unfold callOf at h
  split at h
  · next method params hroute =>
    have hcall := some.inj h
    unfold route at hroute
    split_ifs at hroute
    · obtain ⟨hmeth, hsign⟩ := forwards_signalRoute hroute
      exact asks_kernelCall hcall (fun hmem => absurd hmem hmeth) hsign
    rcases forwards_procRoute hroute with hbody | ⟨hmem, hcaller, hpriv⟩
    · refine asks_kernelCall hcall (fun hmem => ?_) fun hmeth => ?_
      · exact absurd hmem (hdisj method hbody).1
      · exact absurd hmeth (hdisj method hbody).2
    · refine asks_kernelCall hcall (fun _ => ⟨hcaller, hpriv.trans ?_⟩) fun hmeth => ?_
      · rw [hunpr hrole]
      · rw [hmeth] at hmem
        exact absurd hmem (by decide)
  · cases h

theorem confined_run (hkeyed : SessionsKeyed s.live.kernel) (hfresh : FreshIds x s ids)
    (hasks : Asks u call) :
    Confined u s (s.run x ids call).1 (some (s.run x ids call).2) ↔ OwnCall x u s call := by
  cases call with
  | spawn a => exact confined_spawn hkeyed hfresh a
  | list => exact confined_read.trans ownsReply_list
  | kill pid => exact confined_kill hkeyed pid
  | stat pid => exact confined_read.trans ownsReply_found
  | pause pid => exact confined_suspend hkeyed pausing [pid]
  | resume pid => exact confined_suspend hkeyed resuming [pid]
  | stub | listInstalled username | package params => exact confined_read
  | sessionInvocations sid => exact confined_read.trans ownsReply_sessionInvocations
  | userInvocations username agentName live => exact confined_read.trans ownsReply_userInvocations
  | invocationConversation id => exact confined_read.trans ownsReply_invocationConversation
  | invocationSnapshot id => exact confined_read.trans ownsReply_invocationSnapshot
  | messageCreate m => exact confined_messageCreate m
  | messageList sid => exact confined_read.trans ownsReply_messageList
  | partCreate p => exact confined_partCreate p
  | partList mid => exact confined_read.trans ownsReply_partList
  | sessionList username => exact confined_read.trans ownsReply_sessionList
  | sessionGet r =>
    refine (confined_withSession r hasks.1 hasks.2 (confined_error _)).trans ?_
    simp only [confined_read, OwnsReply, mem_singleton, forall_eq]
    exact ⟨fun h hempty session hs => h session hs (.inl hempty),
      fun h session hs hu => hu.elim (fun hempty => h hempty session hs) id⟩
  | sessionPause r =>
    refine (confined_withSession r hasks.1 hasks.2 (confined_error _)).trans ?_
    refine forall_congr' fun session => imp_congr_right fun _ => imp_congr_right fun _ => ?_
    split_ifs with howner
    · exact iff_of_true (confined_error _) fun h => absurd howner h
    · rw [confined_suspend hkeyed]
      exact ⟨fun h _ => h, fun h => h howner⟩
  | sessionResume r => exact confined_sessionResume hkeyed hfresh r hasks.1 hasks.2
  | sessionDelete r =>
    refine (confined_withSession r hasks.1 hasks.2 confined_done).trans ?_
    simp only [confined_sessionDelete]
    exact ⟨fun h hempty session hs => h session hs (.inl hempty) session hs,
      fun h session hs hu _ hs' => by
        obtain rfl := some.inj (hs.symm.trans hs')
        exact hu.elim (fun hempty => h hempty session hs) id⟩
  | signal pid name payload => exact confined_signal hkeyed pid payload hasks
  | _ =>
    refine confined_read.trans (ownsReply_found.trans ?_)
    simp [OwnsReply, OwnCall]

theorem user_isolation_iff (v : ValidatedCmd) (hrole : v.callerRole < .operator)
    (hkeyed : SessionsKeyed s.live.kernel) (hfresh : FreshIds x s ids) :
    Confined v.callerIdentity s (s.handle x ids v).1 (s.handle x ids v).2 ↔
      ∀ call, KernelServer.callOf x v = some (.ok call) → OwnCall x v.callerIdentity s call := by
  unfold handle
  cases hcall : callOf x v with
  | none =>
    have hnoth : Confined v.callerIdentity s s none := confined_self nofun
    exact iff_of_true hnoth nofun
  | some read =>
    cases read with
    | error e => exact iff_of_true (confined_error e) nofun
    | ok call =>
      simp only [some.injEq, ok.injEq, forall_eq']
      exact confined_run hkeyed hfresh (asks_callOf hrole hcall)

end Results

/-! ## A server with agents of two users -/

def sharedExternals : IpcExternals Unit :=
  { agentExternals officeMac with
    messageOfJson := fun _ => .error "no message"
    partOfJson := fun _ => .error "no part"
    pipePayload := fun _ => .error "no payload" }

/-- The agent of Alice has pid 7, that of Bob pid 9. -/
def sharedTable : ProcessTable :=
  ProcessTable.insert (ProcessTable.insert ∅
    { pid := 7, name := "lead", status := .running, spawnedByUser := "alice" })
    { pid := 9, name := "lead", status := .running, spawnedByUser := "bob" }

def sharedServer : KernelServer Unit where
  live := ⟨{ officeKernel with processTable := sharedTable }, [], ∅, []⟩
  history := none
  conversations := fun _ _ _ => []

def sharedIds : SpawnIds := ⟨⟨0⟩, 11, "s-2", "i-2"⟩

noncomputable def aliceKill (pid : Int) : AtpCmd :=
  ⟨"c-1", aliceToken, .proc, "kill", .ofMembers [("pid", .int pid)]⟩

noncomputable def aliceKillValidated (pid : Int) : ValidatedCmd :=
  ⟨aliceKill pid, "alice", .user, "s-1"⟩

theorem aliceKill_accepted (pid : Int) :
    validateCmd anyCodec ⟨"secret", ∅⟩ ∅ ⟨0⟩ (aliceKill pid) "s-1" false =
      (insert "c-1" ∅, .ok (aliceKillValidated pid)) := by
  have htoken : ATPTokenStore.validate anyCodec ⟨"secret", ∅⟩ (aliceKill pid).token ⟨0⟩ =
      .ok aliceClaims :=
    ATPTokenStore.validate_eq_ok_iff.mpr
      ⟨ATPToken.validate_issue_eq_ok_iff.mpr ⟨rfl, by decide⟩, Finset.notMem_empty _⟩
  have hrole : ¬Role.user < domainMinRole .proc "kill" := by decide
  have hacc : Accepted anyCodec ⟨"secret", ∅⟩ ⟨0⟩ (aliceKill pid) "s-1" false aliceClaims :=
    ⟨htoken, rfl, hrole, rfl, rfl⟩
  exact validateCmd_of_accepted hacc (Finset.notMem_empty _)

theorem sharedServer_keyed : SessionsKeyed sharedServer.live.kernel := by
  intro id session h
  cases h

theorem sharedIds_fresh : FreshIds sharedExternals sharedServer sharedIds :=
  ⟨rfl, nofun, rfl, rfl, rfl⟩

/-- Alice may kill her own agent. -/
theorem user_isolation_own_kill : Confined "alice" sharedServer
    (sharedServer.handle sharedExternals sharedIds (aliceKillValidated 7)).1
    (sharedServer.handle sharedExternals sharedIds (aliceKillValidated 7)).2 := by
  refine (user_isolation_iff (aliceKillValidated 7) (by decide) sharedServer_keyed
    sharedIds_fresh).mpr ?_
  intro call hcall
  obtain rfl : call = .kill 7 := (ok.inj (some.inj hcall)).symm
  refine ⟨fun e he => .inl fun _ => ?_, nofun, nofun⟩
  cases he
  rfl

/-- Alice kills the agent of Bob. -/
theorem bobs_agent_killed : ∃ v,
    validateCmd anyCodec ⟨"secret", ∅⟩ ∅ ⟨0⟩ (aliceKill 9) "s-1" false = (insert "c-1" ∅, .ok v) ∧
      v.callerRole < .operator ∧
      ∃ e e', sharedServer.entry 9 = some e ∧ e.spawnedByUser = "bob" ∧ e.status = .running ∧
        (sharedServer.handle sharedExternals sharedIds v).1.entry 9 = some e' ∧
        e'.status = .stopped :=
  ⟨_, aliceKill_accepted 9, by decide, _, _, rfl, rfl, rfl, rfl, rfl⟩

end Avix.Security
