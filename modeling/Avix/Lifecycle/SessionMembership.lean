/-
  LIFECYCLE — a session record lists the agents of the session.

  `session_membership`: in every run of concurrent `spawn`, `restore_from_invocation`,
  `pause_agent`, `resume_agent`, `idle` and `finalize_session_for_pid` calls whose steps meet
  `OneAtATime`: when all calls have finished, the `pids` of a session are the agents spawned or
  restored into it and not finalised, and `invocation_pids` has one entry for every agent ever
  spawned into it.

  `OneAtATime` asks that
  * a call reads a session to write it back only while no other call holds a copy of it. Of two
    such calls the later write undoes the earlier one (`spawn_lost`);
  * the database does not fail. A failure is only logged;
  * an agent is not finalised while it is being spawned or restored, because it is not in
    `active_sessions` yet;
  * new agents and new sessions have new pids and ids.
-/
import Avix.Session.Membership
import Avix.Security.Attenuation

namespace Avix.Lifecycle

open SessionChange hiding addInvocationPid addPid

open Lib SessionRecord SessionAccess List Option SessionSystem SessionCall

variable {D : Type}

/-! ## Statement -/

/-- The call has still to make this change. -/
def Edits (call : SessionCall) (id : Uuid) (change : SessionChange) : Prop :=
  (∃ e, call.held = some e ∧ e.id = id ∧ e.change = change) ∨ .edit id change ∈ call.rest

def Editing (s : SessionSystem) (id : Uuid) (change : SessionChange) : Prop :=
  ∃ call ∈ s.calls, Edits call id change

/-- A call is going to enter the agent into `active_sessions`. -/
def Activating (s : SessionSystem) (pid : Pid) (sid : String) : Prop :=
  ∃ call ∈ s.calls, SessionAccess.activate pid sid ∈ call.rest

/-- The agent is nowhere, nor on its way. -/
structure NewPid (s : SessionSystem) (pid : Pid) : Prop where
  members : ∀ id, (id, pid) ∉ s.members
  removing : ∀ id status, ¬ Editing s id (.finalize pid status)
  activating : ∀ sid, ¬ Activating s pid sid

/-- The text of a `Uuid` that nobody has used. -/
structure NewSession (x : Externals D) (s : SessionSystem) (id : Uuid) : Prop where
  parses : x.parseUuid id = .ok id
  store : s.store.lookup id = none
  members : ∀ pid, (id, pid) ∉ s.members
  spawned : ∀ pid, (id, pid) ∉ s.spawned

/-- What is asked of a step, in the state it starts from. -/
def OneAtATime (x : Externals D) (s : SessionSystem) : SessionInput → Prop
  | .spawn a env => NewPid s env.pid ∧ (s.joined a = none → NewSession x s env.sessionUuid)
  | .restoreFromInvocation inv => NewPid s inv.pid
  | .finalizeSessionForPid pid _ =>
    (∀ id, ¬ Editing s id (.addPid pid)) ∧ ∀ sid, ¬ Activating s pid sid
  | .act i fails => fails = false ∧ ∀ call id change rest, s.calls[i]? = some call →
    call.held = none → call.rest = .edit id change :: rest → Unclaimed SessionCall.claim s.calls id
  | .pauseAgent _ => True
  | .resumeAgent _ => True
  | .idle _ => True

/-- The records a kernel finds when it starts: no agent runs. -/
def Repaired (store : SessionStore) : Prop :=
  ∀ id r, store.lookup id = some r → r.id = id ∧ r.pids = [] ∧ (r.invocationPids.map (·.pid)).Nodup

/-- The record is right about the agents. -/
structure ListsMembers (s : SessionSystem) (id : Uuid) (r : SessionRecord) : Prop where
  pids : ∀ pid, pid ∈ r.pids ↔ (id, pid) ∈ s.members
  invocationPids : ∀ pid, (id, pid) ∈ s.spawned → (r.invocationPids.map (·.pid)).count pid = 1

/-! ## What a change does to a record -/

section Change

variable {r r' : SessionRecord} {change : SessionChange}

/-- The three lists of a record that is written back. -/
theorem fields_of_apply : change.apply r = some r' → r'.id = r.id ∧ r'.pids = (match change with
      | .addPid pid => (r.addPid pid).pids
      | .finalize pid _ => r.pids.filter (· ≠ pid)
      | _ => r.pids) ∧
    r'.invocationPids = match change with
      | .addInvocationPid info => (r.addInvocationPid info).invocationPids
      | _ => r.invocationPids := by
  intro h
  cases change with
  | addPid pid =>
    cases h
    dsimp only
    unfold addPid
    split_ifs <;> exact ⟨rfl, rfl, rfl⟩
  | addInvocationPid info =>
    cases h
    dsimp only
    unfold addInvocationPid
    split_ifs <;> exact ⟨rfl, rfl, rfl⟩
  | suspend how pid =>
    unfold apply at h
    dsimp only at h
    split_ifs at h
    exact some.inj h ▸ ⟨rfl, rfl, rfl⟩
  | finalize pid status =>
    rw [← some.inj h]
    split_ifs <;> exact ⟨rfl, rfl, rfl⟩
  | _ => exact some.inj h ▸ ⟨rfl, rfl, rfl⟩

theorem mem_addPid (r : SessionRecord) (pid q : Pid) :
    q ∈ (r.addPid pid).pids ↔ q ∈ r.pids ∨ q = pid := by
  unfold addPid
  split_ifs with h
  · rw [contains_iff_mem] at h
    constructor
    · exact .inl
    · rintro (hq | rfl)
      · exact hq
      · exact h
  · simp

theorem mem_pids_of_apply (h : change.apply r = some r') (pid : Pid) : pid ∈ r'.pids ↔
    (pid ∈ r.pids ∧ ∀ status, change ≠ .finalize pid status) ∨ change = .addPid pid := by
  rw [(fields_of_apply h).2.1]
  cases change with
  | addPid q =>
    rw [mem_addPid]
    simp [eq_comm]
  | finalize q status =>
    have hne : (∀ st, finalize q status ≠ .finalize pid st) ↔ pid ≠ q := by
      simp only [ne_eq, finalize.injEq, not_and]
      exact ⟨fun h heq => h status heq.symm rfl, fun h _ heq => absurd heq.symm h⟩
    rw [mem_filter, decide_eq_true_iff, hne]
    simp
  | _ => simp

theorem invocationPids_of_apply (h : change.apply r = some r') :
    (∀ pid, pid ∈ r'.invocationPids.map (·.pid) ↔ pid ∈ r.invocationPids.map (·.pid) ∨
      ∃ info, change = .addInvocationPid info ∧ info.pid = pid) ∧
    ((r.invocationPids.map (·.pid)).Nodup → (r'.invocationPids.map (·.pid)).Nodup) := by
  rw [(fields_of_apply h).2.2]
  cases change with
  | addInvocationPid info =>
    dsimp only
    unfold addInvocationPid
    split_ifs with hany
    · -- there is an entry for the agent already
      refine ⟨fun pid => ⟨.inl, ?_⟩, fun hnodup => hnodup⟩
      rintro (hmem | ⟨_, heq, rfl⟩)
      · exact hmem
      obtain rfl := addInvocationPid.inj heq
      obtain ⟨other, hother, hpid⟩ := any_eq_true.mp hany
      exact mem_map.mpr ⟨other, hother, of_decide_eq_true hpid⟩
    · have hnew : info.pid ∉ r.invocationPids.map (·.pid) := by
        intro hmem
        obtain ⟨other, hother, hpid⟩ := mem_map.mp hmem
        exact hany (any_eq_true.mpr ⟨other, hother, decide_eq_true hpid⟩)
      refine ⟨fun pid => ?_, fun hnodup => ?_⟩
      · simp [eq_comm]
      simp only [map_append, map_cons, map_nil]
      refine nodup_append.mpr ⟨hnodup, nodup_singleton _, fun a ha b hb heq => ?_⟩
      rw [heq, mem_singleton.mp hb] at ha
      exact hnew ha
  | _ => simp

/-- Only a session that need not follow is left as it is. -/
theorem suspend_of_apply_eq_none (h : change.apply r = none) :
    ∃ how pid, change = .suspend how pid := by
  cases change with
  | suspend how pid => exact ⟨how, pid, rfl⟩
  | _ => cases h

variable {id : Uuid} {store : SessionStore}

theorem holds_of_read {e : HeldSession}
    (h : (store.get false id).bind (fun copy => (change.apply copy).map
      fun _ => HeldSession.mk id copy change) = some e) :
    store.lookup id = some e.copy ∧ e.id = id ∧ e.change = change := by
  obtain ⟨copy, hcopy, he⟩ := bind_eq_some_iff.mp h
  obtain ⟨-, -, rfl⟩ := map_eq_some_iff.mp he
  exact ⟨hcopy, rfl, rfl⟩

theorem drops_of_read (hlook : store.lookup id = some r)
    (h : (store.get false id).bind (fun copy => (change.apply copy).map
      fun _ => HeldSession.mk id copy change) = none) :
    ∃ how pid, change = .suspend how pid := by
  have hget : store.get false id = some r := hlook
  rw [hget, bind_some, map_eq_none_iff] at h
  exact suspend_of_apply_eq_none h

end Change

/-! ## Calls that come and go -/

section Calls

variable {s : SessionSystem} {i : Nat} {call call' : SessionCall} {rest : List SessionAccess}

theorem editing_call (id : Uuid) (change : SessionChange) :
    Editing (s.call rest) id change ↔ Editing s id change ∨ .edit id change ∈ rest := by
  unfold Editing call Edits
  simp

theorem activating_call (pid : Pid) (sid : String) :
    Activating (s.call rest) pid sid ↔ Activating s pid sid ∨ .activate pid sid ∈ rest := by
  unfold Activating call
  simp

variable (h : s.calls[i]? = some call)

include h

theorem editing_set (id : Uuid) (change : SessionChange) :
    ∃ others : Prop, (Editing s id change ↔ others ∨ Edits call id change) ∧
      ∀ call', (∃ c ∈ s.calls.set i call', Edits c id change) ↔ others ∨ Edits call' id change :=
  exists_mem_set h fun c => Edits c id change

theorem activating_set (pid : Pid) (sid : String) :
    ∃ others : Prop, (Activating s pid sid ↔ others ∨ .activate pid sid ∈ call.rest) ∧
      ∀ call', (∃ c ∈ s.calls.set i call', activate pid sid ∈ c.rest) ↔
        others ∨ .activate pid sid ∈ call'.rest :=
  exists_mem_set h fun c => activate pid sid ∈ c.rest

variable {change : SessionChange} {id : Uuid}

/-- A call that lets go of its copy makes the changes it still has to make. -/
theorem editing_of_release (hedit : ∃ c ∈ s.calls.set i { rest := call.rest }, Edits c id change) :
    Editing s id change := by
  obtain ⟨others, hold, hnew⟩ := editing_set h id change
  refine hold.mpr (((hnew _).mp hedit).imp_right fun hedit => ?_)
  rcases hedit with ⟨_, hnone, -⟩ | hmem
  · cases hnone
  · exact .inr hmem

theorem release_of_editing {e : HeldSession} (hheld : call.held = some e)
    (hedit : Editing s id change) :
    (∃ c ∈ s.calls.set i { rest := call.rest }, Edits c id change) ∨
      (id = e.id ∧ change = e.change) := by
  obtain ⟨others, hold, hnew⟩ := editing_set h id change
  rcases hold.mp hedit with ho | ⟨e', he', rfl, rfl⟩ | hmem
  · exact .inl ((hnew _).mpr (.inl ho))
  · obtain rfl : e = e' := some.inj (hheld.symm.trans he')
    exact .inr ⟨rfl, rfl⟩
  · exact .inl ((hnew _).mpr (.inr (.inr hmem)))

theorem activating_release (pid : Pid) (sid : String) :
    (∃ c ∈ s.calls.set i { rest := call.rest }, activate pid sid ∈ c.rest) ↔
      Activating s pid sid := by
  obtain ⟨others, hold, hnew⟩ := activating_set h pid sid
  exact (hnew _).trans hold.symm

end Calls

/-! ## What holds between the steps -/

/-- The records and the calls under way account for the agents of every session. -/
structure Accounted (x : Externals D) (s : SessionSystem) : Prop where
  isolated : Isolated SessionCall.claim SessionCall.copy s.store s.calls
  keyed : ∀ id r, s.store.lookup id = some r → r.id = id
  nodup : ∀ id r, s.store.lookup id = some r → (r.invocationPids.map (·.pid)).Nodup
  adding : ∀ id pid, Editing s id (.addPid pid) → (id, pid) ∈ s.members
  removing : ∀ id pid status, Editing s id (.finalize pid status) → (id, pid) ∉ s.members
  joined : ∀ id pid r, (id, pid) ∈ s.members → s.store.lookup id = some r →
    pid ∈ r.pids ∨ Editing s id (.addPid pid)
  left : ∀ id pid r, s.store.lookup id = some r → pid ∈ r.pids →
    (id, pid) ∈ s.members ∨ ∃ status, Editing s id (.finalize pid status)
  recorded : ∀ id pid r, (id, pid) ∈ s.spawned → s.store.lookup id = some r →
    pid ∈ r.invocationPids.map (·.pid) ∨
      ∃ info, info.pid = pid ∧ Editing s id (.addInvocationPid info)
  /-- A member is active in its session, or about to be. -/
  home : ∀ id pid, (id, pid) ∈ s.members →
    (∃ sid, s.activeSessions.lookup pid = some sid ∧ x.parseUuid sid = .ok id) ∨
      ∃ sid, Activating s pid sid
  target : ∀ id pid sid, Activating s pid sid → (id, pid) ∈ s.members → x.parseUuid sid = .ok id

section Steps

variable {x : Externals D} {s : SessionSystem} {i : Nat} {call : SessionCall}
  {rest : List SessionAccess} {id : Uuid} {pid : Pid}

section

variable (h : Accounted x s)

include h

/-- The members stay, and a record is at most written as a call was to write it: a change that was
    to be made still is, has been written, or was a mark that does not follow. -/
structure Follows (s s' : SessionSystem) : Prop where
  members : s'.members = s.members
  spawned : s'.spawned = s.spawned
  isolated : Isolated SessionCall.claim SessionCall.copy s'.store s'.calls
  edits : ∀ id change, Editing s' id change → Editing s id change ∨
    (∀ pid, change ≠ .addPid pid) ∧ ∀ pid status, change ≠ .finalize pid status
  records : ∀ id r', s'.store.lookup id = some r' → ∃ r, s.store.lookup id = some r ∧
    (r' = r ∨ ∃ change, Editing s id change ∧ change.apply r = some r') ∧
    ∀ change, Editing s id change → Editing s' id change ∨ change.apply r = some r' ∨
      ∃ how pid, change = .suspend how pid

theorem Accounted.follow {s' : SessionSystem} (hf : Follows s s')
    (hhome : ∀ id pid, (id, pid) ∈ s.members →
      (∃ sid, s'.activeSessions.lookup pid = some sid ∧ x.parseUuid sid = .ok id) ∨
        ∃ sid, Activating s' pid sid)
    (htarget : ∀ id pid sid, Activating s' pid sid → (id, pid) ∈ s.members →
      x.parseUuid sid = .ok id) : Accounted x s' where
  isolated := hf.isolated
  keyed id r' hr := by
    obtain ⟨r, hold, rfl | ⟨_, -, happly⟩, -⟩ := hf.records id r' hr
    · exact h.keyed id r' hold
    · exact (fields_of_apply happly).1.trans (h.keyed id r hold)
  nodup id r' hr := by
    obtain ⟨r, hold, rfl | ⟨_, -, happly⟩, -⟩ := hf.records id r' hr
    · exact h.nodup id r' hold
    · exact (invocationPids_of_apply happly).2 (h.nodup id r hold)
  adding id pid hadd := by
    rw [hf.members]
    exact h.adding id pid ((hf.edits id _ hadd).resolve_right fun hne => hne.1 pid rfl)
  removing id pid status hrem := by
    rw [hf.members]
    exact h.removing id pid status
      ((hf.edits id _ hrem).resolve_right fun hne => hne.2 pid status rfl)
  joined id pid r' hmem hr := by
    rw [hf.members] at hmem
    obtain ⟨r, hold, hwritten, hkept⟩ := hf.records id r' hr
    rcases h.joined id pid r hmem hold with hin | hadd
    · rcases hwritten with rfl | ⟨change, hedit, happly⟩
      · exact .inl hin
      · refine .inl ((mem_pids_of_apply happly pid).mpr (.inl ⟨hin, fun status heq => ?_⟩))
        exact h.removing id pid status (heq ▸ hedit) hmem
    · rcases hkept _ hadd with hstill | happly | ⟨_, _, heq⟩
      · exact .inr hstill
      · exact .inl ((mem_pids_of_apply happly pid).mpr (.inr rfl))
      · cases heq
  left id pid r' hr hpid := by
    rw [hf.members]
    obtain ⟨r, hold, hwritten, hkept⟩ := hf.records id r' hr
    have hin : pid ∈ r.pids ∨ Editing s id (.addPid pid) := by
      rcases hwritten with rfl | ⟨change, hedit, happly⟩
      · exact .inl hpid
      · refine ((mem_pids_of_apply happly pid).mp hpid).imp (·.1) ?_
        rintro rfl
        exact hedit
    rcases hin with hin | hadd
    · refine (h.left id pid r hold hin).imp_right fun ⟨status, hrem⟩ => ⟨status, ?_⟩
      rcases hkept _ hrem with hstill | happly | ⟨_, _, heq⟩
      · exact hstill
      · simpa using (mem_pids_of_apply happly pid).mp hpid
      · cases heq
    · exact .inl (h.adding id pid hadd)
  recorded id pid r' hmem hr := by
    rw [hf.spawned] at hmem
    obtain ⟨r, hold, hwritten, hkept⟩ := hf.records id r' hr
    rcases h.recorded id pid r hmem hold with hin | ⟨info, hinfo, hrec⟩
    · rcases hwritten with rfl | ⟨change, -, happly⟩
      · exact .inl hin
      · exact .inl (((invocationPids_of_apply happly).1 pid).mpr (.inl hin))
    · rcases hkept _ hrec with hstill | happly | ⟨_, _, heq⟩
      · exact .inr ⟨info, hinfo, hstill⟩
      · exact .inl (((invocationPids_of_apply happly).1 pid).mpr (.inr ⟨info, rfl, hinfo⟩))
      · cases heq
  home id pid hmem := hhome id pid (hf.members ▸ hmem)
  target id pid sid hact hmem := htarget id pid sid hact (hf.members ▸ hmem)

theorem Accounted.proceed {s' : SessionSystem} (hf : Follows s s')
    (hactive : s'.activeSessions = s.activeSessions)
    (hactiv : ∀ pid sid, Activating s' pid sid ↔ Activating s pid sid) : Accounted x s' := by
  refine h.follow hf (fun id pid hmem => ?_) fun id pid sid hact => ?_
  · rw [hactive]
    exact (h.home id pid hmem).imp_right fun ⟨sid, hact⟩ => ⟨sid, (hactiv pid sid).mpr hact⟩
  · exact h.target id pid sid ((hactiv pid sid).mp hact)

theorem Accounted.addCall
    (hedit : ∀ id change, .edit id change ∈ rest →
      (∀ pid, change ≠ .addPid pid) ∧ ∀ pid status, change ≠ .finalize pid status)
    (hactiv : ∀ pid sid, .activate pid sid ∈ rest → ∀ id, (id, pid) ∉ s.members) :
    Accounted x (s.call rest) := by
  refine h.follow ⟨rfl, rfl, h.isolated.append rfl nofun,
    fun id change hq => ((editing_call id change).mp hq).imp_right (hedit id change),
    fun id r hr => ⟨r, hr, .inl rfl, fun change hq => .inl ?_⟩⟩ (fun id pid hmem => ?_)
    fun id pid sid hact hmem => ?_
  · exact (editing_call id change).mpr (.inl hq)
  · exact (h.home id pid hmem).imp_right fun ⟨sid, hact⟩ =>
      ⟨sid, (activating_call pid sid).mpr (.inl hact)⟩
  · rcases (activating_call pid sid).mp hact with hold | hnew
    · exact h.target id pid sid hold hmem
    · exact absurd hmem (hactiv pid sid hnew id)

/-- An access of a call that enters the agent, and no other one, into the session. -/
def Enrolling (x : Externals D) (id : Uuid) (pid : Pid) : SessionAccess → Prop
  | .edit id' (.addPid q) => id' = id ∧ q = pid
  | .edit _ (.finalize _ _) => False
  | .edit _ _ => True
  | .activate q sid => q = pid ∧ x.parseUuid sid = .ok id

/-- A new agent, and maybe a new session with it. -/
structure Enrolls (x : Externals D) (s : SessionSystem) (id : Uuid) (pid : Pid)
    (store : SessionStore) (spawned : List (Uuid × Pid)) (rest : List SessionAccess) : Prop where
  newPid : NewPid s pid
  isolated : Isolated SessionCall.claim SessionCall.copy store s.calls
  /-- The records are the old ones, or the one with only this agent. -/
  records : ∀ id' r, store.lookup id' = some r → s.store.lookup id' = some r ∨
    (id' = id ∧ r.id = id ∧ r.pids = [pid] ∧ r.invocationPids = [] ∧
      ∀ q, (id, q) ∉ s.members ∧ (id, q) ∉ s.spawned)
  adds : .edit id (.addPid pid) ∈ rest
  activates : ∃ sid, .activate pid sid ∈ rest
  recorded : ∀ entry ∈ spawned, entry ∈ s.spawned ∨
    (entry = (id, pid) ∧ ∃ info, info.pid = pid ∧ .edit id (.addInvocationPid info) ∈ rest)
  enrolling : ∀ access ∈ rest, Enrolling x id pid access

theorem Accounted.enroll {store : SessionStore} {spawned : List (Uuid × Pid)}
    (he : Enrolls x s id pid store spawned rest) :
    Accounted x ({ s with store, members := (id, pid) :: s.members, spawned }.call rest) where
  isolated := he.isolated.append rfl nofun
  keyed id' r hr := by
    rcases he.records id' r hr with hold | ⟨rfl, hid, -⟩
    · exact h.keyed id' r hold
    · exact hid
  nodup id' r hr := by
    rcases he.records id' r hr with hold | ⟨-, -, -, hnone, -⟩
    · exact h.nodup id' r hold
    · rw [hnone]
      exact nodup_nil
  adding id' q hadd := by
    rcases (editing_call id' _).mp hadd with hold | hnew
    · exact mem_cons_of_mem _ (h.adding id' q hold)
    · obtain ⟨rfl, rfl⟩ := he.enrolling _ hnew
      exact mem_cons_self
  removing id' q status hrem := by
    rcases (editing_call id' _).mp hrem with hold | hnew
    · refine not_mem_cons_of_ne_of_not_mem (fun heq => ?_) (h.removing id' q status hold)
      obtain ⟨rfl, rfl⟩ := Prod.mk.inj heq
      exact he.newPid.removing id' status hold
    · exact absurd hnew fun hnew => he.enrolling _ hnew
  joined id' q r hmem hr := by
    rcases mem_cons.mp hmem with heq | hold
    · obtain ⟨rfl, rfl⟩ := Prod.mk.inj heq
      exact .inr ((editing_call id' _).mpr (.inr he.adds))
    · rcases he.records id' r hr with hr | ⟨rfl, -, -, -, hnone⟩
      · exact (h.joined id' q r hold hr).imp_right fun hadd =>
          (editing_call id' _).mpr (.inl hadd)
      · exact absurd hold (hnone q).1
  left id' q r hr hq := by
    rcases he.records id' r hr with hr | ⟨rfl, -, hpids, -, -⟩
    · exact (h.left id' q r hr hq).imp (mem_cons_of_mem _) fun ⟨status, hrem⟩ =>
        ⟨status, (editing_call id' _).mpr (.inl hrem)⟩
    · rw [hpids, mem_singleton] at hq
      rw [hq]
      exact .inl mem_cons_self
  recorded id' q r hmem hr := by
    rcases he.recorded _ hmem with hold | ⟨heq, info, hinfo, hnew⟩
    · rcases he.records id' r hr with hr | ⟨rfl, -, -, -, hnone⟩
      · exact (h.recorded id' q r hold hr).imp_right fun ⟨info, hinfo, hrec⟩ =>
          ⟨info, hinfo, (editing_call id' _).mpr (.inl hrec)⟩
      · exact absurd hold (hnone q).2
    · obtain ⟨rfl, rfl⟩ := Prod.mk.inj heq
      exact .inr ⟨info, hinfo, (editing_call id' _).mpr (.inr hnew)⟩
  home id' q hmem := by
    rcases mem_cons.mp hmem with heq | hold
    · obtain ⟨rfl, rfl⟩ := Prod.mk.inj heq
      obtain ⟨sid, hsid⟩ := he.activates
      exact .inr ⟨sid, (activating_call q sid).mpr (.inr hsid)⟩
    · exact (h.home id' q hold).imp_right fun ⟨sid, hact⟩ =>
        ⟨sid, (activating_call q sid).mpr (.inl hact)⟩
  target id' q sid hact hmem := by
    rcases (activating_call q sid).mp hact with hold | hnew
    · rcases mem_cons.mp hmem with heq | hmem
      · cases heq
        exact absurd hold (he.newPid.activating sid)
      · exact h.target id' q sid hold hmem
    · obtain ⟨rfl, hparse⟩ := he.enrolling _ hnew
      rcases mem_cons.mp hmem with heq | hmem
      · rw [(Prod.mk.inj heq).1]
        exact hparse
      · exact absurd hmem (he.newPid.members id')

variable {calls : List SessionCall} {change : SessionChange} {env : SpawnEnv} {a : SpawnArgs}

theorem Accounted.spawnInto (hnew : NewPid s env.pid) (sid : String) :
    Accounted x (s.spawnInto x a env sid) := by
  unfold SessionSystem.spawnInto
  cases hparse : x.parseUuid sid with
  | error e => exact h
  | ok id =>
    refine h.enroll ⟨hnew, h.isolated, fun _ _ hr => .inl hr, ?_, ⟨sid, ?_⟩,
      fun entry hentry => (mem_cons.mp hentry).symm.imp_right fun heq =>
        ⟨heq, ⟨env.pid, env.invocationUuid, a.name, ""⟩, rfl, ?_⟩, ?_⟩ <;>
      simp [SessionSystem.registerAccesses, hparse, Enrolling]

theorem Accounted.spawnNew (hnew : NewPid s env.pid) (hsess : NewSession x s env.sessionUuid) :
    Accounted x (s.spawnNew x a env) := by
  -- nobody holds a copy of a session that is not in the store
  have huncl : Unclaimed claim s.calls env.sessionUuid := by
    intro call hcall hclaim
    obtain ⟨e, he, hid⟩ := map_eq_some_iff.mp hclaim
    have hcopy : call.copy = some e.copy := by
      unfold copy
      rw [he]
      rfl
    have hstor := h.isolated.current call hcall _ _ hclaim hcopy
    rw [hsess.store] at hstor
    cases hstor
  refine h.enroll ⟨hnew, ?_, fun id' r hr => ?_, ?_, ⟨env.sessionUuid, ?_⟩,
    fun entry hentry => (mem_cons.mp hentry).symm.imp_right fun heq =>
      ⟨heq, ⟨env.pid, env.invocationUuid, a.name, ""⟩, rfl, ?_⟩, ?_⟩
  · unfold SessionStore.put
    split_ifs
    · exact h.isolated
    · exact h.isolated.insert huncl _
  · unfold SessionStore.put at hr
    split_ifs at hr
    · exact .inl hr
    rcases HashMap.of_lookup_insert hr with ⟨rfl, rfl⟩ | ⟨-, hold⟩
    · exact .inr ⟨rfl, rfl, rfl, rfl, fun q => ⟨hsess.members q, hsess.spawned q⟩⟩
    · exact .inl hold
  all_goals simp [SessionSystem.registerAccesses, hsess.parses, Enrolling]

theorem Accounted.restoreFromInvocation {inv : InvocationRecord} (hnew : NewPid s inv.pid) :
    Accounted x (s.restoreFromInvocation x inv) := by
  unfold SessionSystem.restoreFromInvocation
  cases hparse : x.parseUuid inv.sessionId with
  | error e =>
    refine h.addCall (by simp) fun pid sid hmem => ?_
    simp only [mem_singleton, activate.injEq] at hmem
    rw [hmem.1]
    exact hnew.members
  | ok id =>
    refine h.enroll ⟨hnew, h.isolated, fun _ _ hr => .inl hr, ?_, ⟨inv.sessionId, ?_⟩,
      fun entry hentry => .inl hentry, ?_⟩ <;> simp [hparse, Enrolling]

theorem Accounted.suspend (how : Suspension) (pid : Pid) : Accounted x (s.suspend x how pid) := by
  unfold SessionSystem.suspend
  split
  · split
    · exact h.addCall (by simp) (by simp)
    · exact h
  · exact h

theorem Accounted.idle (sessionId : String) : Accounted x (s.idle x sessionId) := by
  unfold SessionSystem.idle
  split_ifs
  · exact h
  · exact h.addCall (by simp) (by simp)

/-- What an agent that leaves its session changes at once. Its record is changed later. -/
structure Leaves (s s' : SessionSystem) (pid : Pid) (status : InvocationStatus) : Prop where
  store : s'.store = s.store
  active : s'.activeSessions = s.activeSessions.erase pid
  members : s'.members = s.members.filter (·.2 ≠ pid)
  spawned : s'.spawned = s.spawned
  isolated : Isolated SessionCall.claim SessionCall.copy s'.store s'.calls
  edits : ∀ id change, Editing s' id change → Editing s id change ∨ change = .finalize pid status
  kept : ∀ id change, Editing s id change → Editing s' id change
  activating : ∀ q sid, Activating s' q sid ↔ Activating s q sid
  leaves : ∀ id, (id, pid) ∈ s.members → Editing s' id (.finalize pid status)

theorem Accounted.leave {s' : SessionSystem} {status : InvocationStatus}
    (hl : Leaves s s' pid status) (hadd : ∀ id, ¬ Editing s id (.addPid pid)) : Accounted x s' := by
  have hmem : ∀ {id q}, (id, q) ∈ s'.members ↔ (id, q) ∈ s.members ∧ q ≠ pid := by
    intro id q
    rw [hl.members, mem_filter, decide_eq_true_iff]
  refine ⟨hl.isolated, fun id r hr => h.keyed id r (hl.store ▸ hr),
    fun id r hr => h.nodup id r (hl.store ▸ hr), fun id q hq => ?_, fun id q st hq hin => ?_,
    fun id q r hq hr => ?_, fun id q r hr hq => ?_, fun id q r hq hr => ?_, fun id q hq => ?_,
    fun id q sid hsid hq => ?_⟩
  · rcases hl.edits id _ hq with hq' | hne
    · refine hmem.mpr ⟨h.adding id q hq', ?_⟩
      rintro rfl
      exact hadd id hq'
    · cases hne
  · obtain ⟨hin, hne⟩ := hmem.mp hin
    rcases hl.edits id _ hq with hq' | heq
    · exact h.removing id q st hq' hin
    · exact hne (finalize.inj heq).1
  · exact (h.joined id q r (hmem.mp hq).1 (hl.store ▸ hr)).imp_right (hl.kept id _)
  · rcases h.left id q r (hl.store ▸ hr) hq with hin | ⟨st, hst⟩
    · by_cases hqp : q = pid
      · rw [hqp] at hin ⊢
        exact .inr ⟨status, hl.leaves id hin⟩
      · exact .inl (hmem.mpr ⟨hin, hqp⟩)
    · exact .inr ⟨st, hl.kept id _ hst⟩
  · exact (h.recorded id q r (hl.spawned ▸ hq) (hl.store ▸ hr)).imp_right
      fun ⟨info, hinfo, hrec⟩ => ⟨info, hinfo, hl.kept id _ hrec⟩
  · obtain ⟨hin, hne⟩ := hmem.mp hq
    rw [hl.active, AList.lookup_erase_ne hne]
    exact (h.home id q hin).imp_right fun ⟨sid, hsid⟩ => ⟨sid, (hl.activating q sid).mpr hsid⟩
  · exact h.target id q sid ((hl.activating q sid).mp hsid) (hmem.mp hq).1

theorem Accounted.finalizeSessionForPid (status : InvocationStatus)
    (hadd : ∀ id, ¬ Editing s id (.addPid pid)) (hact : ∀ sid, ¬ Activating s pid sid) :
    Accounted x (s.finalizeSessionForPid x pid status) := by
  -- the session of the agent, if it is in one
  have hhome : ∀ id, (id, pid) ∈ s.members →
      ∃ sid, s.activeSessions.lookup pid = some sid ∧ x.parseUuid sid = .ok id := by
    intro id hid
    exact (h.home id pid hid).resolve_right fun ⟨sid, hsid⟩ => hact sid hsid
  have hnowh : (∀ id, (id, pid) ∉ s.members) →
      Accounted x { s with activeSessions := s.activeSessions.erase pid,
                           members := s.members.filter (·.2 ≠ pid) } := by
    intro hleav
    refine h.leave (?_ : Leaves s _ pid status) hadd
    exact ⟨rfl, rfl, rfl, rfl, h.isolated, fun _ _ hq => .inl hq, fun _ _ hq => hq,
      fun _ _ => Iff.rfl, fun id hid => absurd hid (hleav id)⟩
  unfold SessionSystem.finalizeSessionForPid
  cases hlook : s.activeSessions.lookup pid with
  | none =>
    have hleav : ∀ id, (id, pid) ∉ s.members := by
      intro id hid
      obtain ⟨sid, hsid, -⟩ := hhome id hid
      rw [hlook] at hsid
      cases hsid
    exact hnowh hleav
  | some sid =>
    dsimp only
    cases hparse : x.parseUuid sid with
    | error e =>
      have hleav : ∀ id, (id, pid) ∉ s.members := by
        intro id hid
        obtain ⟨sid', hsid, hparse'⟩ := hhome id hid
        obtain rfl : sid = sid' := some.inj (hlook.symm.trans hsid)
        rw [hparse] at hparse'
        cases hparse'
      exact hnowh hleav
    | ok key =>
      refine h.leave (?_ : Leaves s _ pid status) hadd
      refine ⟨rfl, rfl, rfl, rfl, ?_, fun id change hq => ?_,
        fun id change hq => (editing_call id change).mpr (.inl hq), fun q sid' => ?_,
        fun id hid => ?_⟩
      · exact h.isolated.append rfl nofun
      · refine ((editing_call id change).mp hq).imp_right fun hnew => ?_
        simp only [mem_singleton, edit.injEq] at hnew
        exact hnew.2
      · refine (activating_call q sid').trans ?_
        simp only [mem_singleton, reduceCtorEq, or_false]
        exact Iff.rfl
      · obtain ⟨sid', hsid, hparse'⟩ := hhome id hid
        obtain rfl : sid = sid' := some.inj (hlook.symm.trans hsid)
        obtain rfl : key = id := Except.ok.inj (hparse.symm.trans hparse')
        exact (editing_call key _).mpr (.inr mem_cons_self)

theorem Accounted.read (hcall : s.calls[i]? = some call) (hheld : call.held = none)
    (hrest : call.rest = .edit id change :: rest) (hfree : Unclaimed SessionCall.claim s.calls id) :
    Accounted x (s.act i false) := by
  rw [act_read hcall hheld hrest]
  -- what the call holds now
  obtain ⟨held, hread⟩ : ∃ held, (s.store.get false id).bind (fun copy =>
      (change.apply copy).map fun _ => HeldSession.mk id copy change) = held := ⟨_, rfl⟩
  rw [hread]
  have hholds : ∀ e, held = some e → s.store.lookup id = some e.copy ∧ e.id = id ∧
      e.change = change := fun e he => holds_of_read (hread.trans he)
  have hbef : ∀ id' change', Edits call id' change' ↔
      (id' = id ∧ change' = change) ∨ .edit id' change' ∈ rest := by
    intro id' change'
    unfold Edits
    rw [hheld, hrest]
    simp
  refine h.proceed ⟨rfl, rfl, ?_, fun id' change' hedit => .inl ?_,
    fun id' r hr => ⟨r, hr, .inl rfl, fun change' hedit => ?_⟩⟩ rfl fun pid sid => ?_
  · refine h.isolated.set hcall (fun key hkey => .inr ?_) fun key r hkey hcopy => ?_
    · obtain ⟨e, he, rfl⟩ := map_eq_some_iff.mp hkey
      rw [(hholds e he).2.1]
      exact hfree
    · obtain ⟨e, he, rfl⟩ := map_eq_some_iff.mp hkey
      obtain ⟨e', he', rfl⟩ := map_eq_some_iff.mp hcopy
      obtain rfl : e = e' := some.inj (he.symm.trans he')
      rw [(hholds e he).2.1]
      exact (hholds e he).1
  · obtain ⟨others, hold, hnew⟩ := editing_set hcall id' change'
    rw [hold, hbef]
    rcases (hnew _).mp hedit with ho | ⟨e, he, rfl, rfl⟩ | hmem
    · exact .inl ho
    · exact .inr (.inl ⟨(hholds e he).2.1, (hholds e he).2.2⟩)
    · exact .inr (.inr hmem)
  · obtain ⟨others, hold, hnew⟩ := editing_set hcall id' change'
    rw [hold, hbef] at hedit
    rcases hedit with ho | ⟨rfl, rfl⟩ | hmem
    · exact .inl ((hnew _).mpr (.inl ho))
    · cases hheld' : held with
      | none => exact .inr (.inr (drops_of_read hr (hread.trans hheld')))
      | some e =>
        obtain ⟨-, hid, hchan⟩ := hholds e hheld'
        exact .inl ((hnew _).mpr (.inr (.inl ⟨e, rfl, hid, hchan⟩)))
    · exact .inl ((hnew _).mpr (.inr (.inr hmem)))
  · obtain ⟨others, hold, hnew⟩ := activating_set hcall pid sid
    rw [hold, hrest]
    refine (hnew _).trans ?_
    simp

theorem Accounted.activate (hcall : s.calls[i]? = some call) (hheld : call.held = none)
    {sid : String} (hrest : call.rest = .activate pid sid :: rest) :
    Accounted x (s.act i false) := by
  rw [act_activate hcall hheld hrest]
  have hedits : ∀ id change, Editing { s with
      activeSessions := s.activeSessions.insert pid sid, calls := s.calls.set i { rest } }
      id change ↔ Editing s id change := by
    intro id change
    obtain ⟨others, hold, hnew⟩ := editing_set hcall id change
    rw [hold]
    refine (hnew _).trans ?_
    unfold Edits
    rw [hheld, hrest]
    simp
  have hpend : Activating s pid sid :=
    ⟨call, mem_of_getElem? hcall, by rw [hrest]; exact mem_cons_self⟩
  refine h.follow ⟨rfl, rfl, h.isolated.set hcall nofun nofun,
    fun id change hedit => .inl ((hedits id change).mp hedit),
    fun id r hr => ⟨r, hr, .inl rfl, fun change hedit => .inl ((hedits id change).mpr hedit)⟩⟩
    (fun id q hmem => ?_) fun id q sid' hact hmem => ?_
  · by_cases hq : q = pid
    · rw [hq] at hmem ⊢
      refine .inl ⟨sid, AList.lookup_insert _, h.target id pid sid hpend hmem⟩
    · rcases h.home id q hmem with ⟨sid', hsid', hparse⟩ | ⟨sid', hact⟩
      · refine .inl ⟨sid', ?_, hparse⟩
        exact (AList.lookup_insert_ne hq).trans hsid'
      · obtain ⟨others, hold, hnew⟩ := activating_set hcall q sid'
        refine .inr ⟨sid', (hnew _).mpr ?_⟩
        rw [hold, hrest] at hact
        refine hact.imp_right fun hin => ?_
        rcases mem_cons.mp hin with heq | hin
        · exact absurd (activate.inj heq).1 hq
        · exact hin
  · obtain ⟨others, hold, hnew⟩ := activating_set hcall q sid'
    refine h.target id q sid' (hold.mpr ?_) hmem
    rw [hrest]
    exact ((hnew _).mp hact).imp_right (mem_cons_of_mem _)

theorem Accounted.write (hcall : s.calls[i]? = some call) {e : HeldSession}
    (hheld : call.held = some e) : Accounted x (s.act i false) := by
  have hmemc := mem_of_getElem? hcall
  have hclaim : call.claim = some e.id := by
    unfold claim
    rw [hheld]
    rfl
  have hcurr : s.store.lookup e.id = some e.copy := by
    refine h.isolated.current call hmemc e.id e.copy hclaim ?_
    unfold copy
    rw [hheld]
    rfl
  rw [act_write hcall hheld]
  cases happly : e.change.apply e.copy with
  | none =>
    refine h.proceed ⟨rfl, rfl, h.isolated.set hcall nofun nofun,
      fun _ _ hedit => .inl (editing_of_release hcall hedit),
      fun id r hr => ⟨r, hr, .inl rfl, fun change hedit => ?_⟩⟩ rfl (activating_release hcall)
    refine (release_of_editing hcall hheld hedit).imp_right fun ⟨_, hchan⟩ => .inr ?_
    rw [hchan]
    exact suspend_of_apply_eq_none happly
  | some r' =>
    have hid : r'.id = e.id := (fields_of_apply happly).1.trans (h.keyed e.id e.copy hcurr)
    have hstore : ((some r').map (s.store.put false)).getD s.store = s.store.insert e.id r' := by
      rw [← hid]
      rfl
    rw [hstore]
    refine h.proceed ⟨rfl, rfl, h.isolated.write hcall hclaim rfl r',
      fun _ _ hedit => .inl (editing_of_release hcall hedit), fun id r hr => ?_⟩ rfl
      (activating_release hcall)
    have hkept := fun change (hedit : Editing s id change) =>
      release_of_editing hcall hheld hedit
    rcases HashMap.of_lookup_insert hr with ⟨rfl, rfl⟩ | ⟨hne, hold⟩
    · refine ⟨e.copy, hcurr, .inr ⟨e.change, ⟨call, hmemc, .inl ⟨e, hheld, rfl, rfl⟩⟩, happly⟩,
        fun change hedit => (hkept change hedit).imp_right fun heq => .inl ?_⟩
      rw [heq.2]
      exact happly
    · exact ⟨r, hold, .inl rfl, fun change hedit =>
        .inl ((hkept change hedit).resolve_right fun heq => hne heq.1)⟩

theorem Accounted.step (e : SessionInput) (hguard : OneAtATime x s e) :
    Accounted x (s.step x e) := by
  cases e with
  | spawn a env =>
    obtain ⟨hnew, hsess⟩ := hguard
    change Accounted x (s.spawn x a env)
    unfold spawn
    cases hjoin : s.joined a with
    | none => exact h.spawnNew hnew (hsess hjoin)
    | some sid => exact h.spawnInto hnew sid
  | restoreFromInvocation inv => exact h.restoreFromInvocation hguard
  | pauseAgent pid => exact h.suspend pausing pid
  | resumeAgent pid => exact h.suspend resuming pid
  | idle sessionId => exact h.idle sessionId
  | finalizeSessionForPid pid status =>
    exact h.finalizeSessionForPid status hguard.1 hguard.2
  | act i fails =>
    obtain ⟨rfl, hfree⟩ := hguard
    change Accounted x (s.act i false)
    cases hcall : s.calls[i]? with
    | none =>
      unfold act
      rw [hcall]
      exact h
    | some call =>
      cases hheld : call.held with
      | some e => exact h.write hcall hheld
      | none =>
        cases hrest : call.rest with
        | nil =>
          unfold act
          rw [hcall]
          dsimp only
          rw [hheld]
          rw [hrest]
          exact h
        | cons access rest =>
          cases access with
          | edit id change =>
            exact h.read hcall hheld hrest (hfree call id change rest hcall hheld hrest)
          | activate pid sid => exact h.activate hcall hheld hrest

end

theorem accounted_boot {store : SessionStore} (hstore : Repaired store) :
    Accounted x (.boot store) := by
  have hnone : ∀ {P : SessionCall → Prop}, ¬ ∃ call ∈ (boot store).calls, P call :=
    fun ⟨_, hmem, _⟩ => absurd hmem not_mem_nil
  refine ⟨isolated_nil, fun id r hr => (hstore id r hr).1, fun id r hr => (hstore id r hr).2.2,
    fun _ _ hadd => absurd hadd hnone, fun _ _ _ hrem => absurd hrem hnone,
    nofun, fun id pid r hr hpid => ?_,
    fun id pid r hmem hr => .inl ?_, nofun,
    fun _ _ _ hact => absurd hact hnone⟩
  · rw [(hstore id r hr).2.1] at hpid
    cases hpid
  · obtain ⟨⟨id', r'⟩, hentry, hinfo⟩ := mem_flatMap.mp hmem
    obtain ⟨info, hmem', heq⟩ := mem_map.mp hinfo
    cases heq
    have hlook : store.lookup id' = some r' := AList.mem_lookup_iff.mpr hentry
    obtain rfl : r' = r := some.inj (hlook.symm.trans hr)
    exact mem_map_of_mem hmem'

theorem not_editing_of_finished (hdone : ∀ call ∈ s.calls, call.Finished) (id : Uuid)
    (change : SessionChange) : ¬ Editing s id change := by
  rintro ⟨call, hcall, hedit⟩
  obtain ⟨hheld, hrest⟩ := hdone call hcall
  unfold Edits at hedit
  rw [hheld, hrest] at hedit
  rcases hedit with ⟨_, he, -⟩ | hmem
  · cases he
  · cases hmem

/-- With no call under way the records alone are the account. -/
theorem Accounted.listsMembers (h : Accounted x s) (hdone : ∀ call ∈ s.calls, call.Finished)
    {r : SessionRecord} (hr : s.store.lookup id = some r) : ListsMembers s id r := by
  have hnone := not_editing_of_finished hdone
  constructor
  · intro pid
    constructor
    · intro hpid
      exact (h.left id pid r hr hpid).resolve_right fun ⟨_, hrem⟩ => hnone _ _ hrem
    · intro hmem
      exact (h.joined id pid r hmem hr).resolve_right (hnone _ _)
  · intro pid hmem
    have hin := (h.recorded id pid r hmem hr).resolve_right fun ⟨_, _, hrec⟩ => hnone _ _ hrec
    exact count_eq_one_of_mem (h.nodup id r hr) hin

end Steps

/-! ## Main statement -/

theorem session_membership (x : Externals D) (store : SessionStore) (hstore : Repaired store)
    (es : List SessionInput)
    (h : Guarded (SessionSystem.step x) (OneAtATime x) (.boot store) es)
    (hdone : ∀ call ∈ (run (SessionSystem.step x) (.boot store) es).calls, call.Finished)
    (id : Uuid) (r : SessionRecord)
    (hr : (run (SessionSystem.step x) (.boot store) es).store.lookup id = some r) :
    ListsMembers (run (SessionSystem.step x) (.boot store) es) id r := by
  have hacc : Accounted x (run (step x) (.boot store) es) :=
    guarded_invariant (fun _ e hs hguard => hs.step e hguard) (accounted_boot hstore) h
  exact hacc.listsMembers hdone hr

/-! ## Two agents spawned at the same time -/

open Security

/-- The agent `lead` is spawned as pid 1 into a new session. -/
def leadJoins : List SessionInput :=
  .spawn (spawnOf "lead" none) (envOf 1) :: List.replicate 5 (.act 0 false)

/-- A helper is spawned into the session as pid 2, and finalised. -/
def helperLeaves : List SessionInput :=
  .spawn (spawnOf "helper" (some 1)) (envOf 2) :: List.replicate 7 (.act 1 false) ++
    .finalizeSessionForPid 2 .completed :: List.replicate 2 (.act 2 false)

section Guards

variable {x : Externals D} {s : SessionSystem} {i : Nat} {pid : Pid}

/-- One call goes on while no other one holds a copy. -/
theorem guarded_acts (n : Nat) (h : ∀ call ∈ s.calls.eraseIdx i, call.held.isNone) :
    Guarded (SessionSystem.step x) (OneAtATime x) s (List.replicate n (.act i false)) := by
  induction n generalizing s with
  | zero => trivial
  | succ n ih =>
    refine ⟨⟨rfl, fun call id change rest hcall hheld _ t ht hclaim => ?_⟩, ih ?_⟩
    · obtain ⟨e, he, -⟩ := map_eq_some_iff.mp hclaim
      obtain ⟨j, hj⟩ := mem_iff_getElem?.mp ht
      by_cases hji : j = i
      · rw [hji, hcall] at hj
        rw [← some.inj hj, hheld] at he
        cases he
      · have hnone := h t (mem_eraseIdx_iff_getElem?.mpr ⟨j, hji, hj⟩)
        rw [he] at hnone
        cases hnone
    · have hothers : (s.act i false).calls.eraseIdx i = s.calls.eraseIdx i := by
        unfold act
        repeat' split
        all_goals first | rfl | exact eraseIdx_set_eq
      change ∀ call ∈ (s.act i false).calls.eraseIdx i, _
      rw [hothers]
      exact h

variable (hdone : s.calls.all (fun call => call.held.isNone && call.rest.isEmpty) = true)

include hdone

theorem finished_of_all : ∀ call ∈ s.calls, call.Finished := by
  intro call hcall
  simpa [Finished] using all_eq_true.mp hdone call hcall

theorem not_activating_of_all (sid : String) : ¬ Activating s pid sid := by
  rintro ⟨call, hcall, hmem⟩
  rw [(finished_of_all hdone call hcall).2] at hmem
  cases hmem

theorem newPid_of_all (hpid : pid ∉ s.members.map (·.2)) : NewPid s pid :=
  ⟨fun _ hmem => hpid (mem_map_of_mem hmem),
    fun id _ => not_editing_of_finished (finished_of_all hdone) id _,
    fun sid => not_activating_of_all hdone sid⟩

end Guards

theorem helperLeaves_guarded :
    Guarded (SessionSystem.step officeExternals) (OneAtATime officeExternals) (.boot ∅)
      (leadJoins ++ helperLeaves) := by
  refine guarded_append.mpr ⟨⟨⟨newPid_of_all rfl not_mem_nil, fun _ => ?_⟩,
    guarded_acts 5 (by decide)⟩, ⟨newPid_of_all (by decide) (by decide), fun hnone => ?_⟩,
    guarded_append.mpr ⟨guarded_acts 7 (by decide), ⟨fun id => ?_, fun sid => ?_⟩,
      guarded_acts 2 (by decide)⟩⟩
  · exact ⟨rfl, rfl, fun _ => not_mem_nil, fun _ => not_mem_nil⟩
  · exact absurd hnone (by decide)
  · exact not_editing_of_finished (finished_of_all (by decide)) id _
  · exact not_activating_of_all (by decide) sid

def leadSession (es : List SessionInput) : Option SessionRecord :=
  (run (SessionSystem.step officeExternals) (.boot ∅) es).store.lookup (envOf 1).sessionUuid

theorem session_membership_lead : ∃ r, leadSession (leadJoins ++ helperLeaves) = some r ∧
    r.pids = [1] ∧ r.invocationPids.map (·.pid) = [1, 2] ∧
    ListsMembers (run (SessionSystem.step officeExternals) (.boot ∅) (leadJoins ++ helperLeaves))
      (envOf 1).sessionUuid r := by
  have hsome : (leadSession (leadJoins ++ helperLeaves)).map
      (fun r => (r.pids, r.invocationPids.map (·.pid))) = some ([1], [1, 2]) := by decide
  obtain ⟨r, hr, hlists⟩ := map_eq_some_iff.mp hsome
  obtain ⟨hpids, hinv⟩ := Prod.mk.inj hlists
  exact ⟨r, hr, hpids, hinv, session_membership officeExternals ∅ (nofun) _ helperLeaves_guarded
    (finished_of_all (by decide)) _ r hr⟩

/-- The helpers 2 and 3 are spawned into it. Both calls read the session before either adds its
    pid. -/
def helpersJoin : List SessionInput :=
  [.spawn (spawnOf "helper" (some 1)) (envOf 2), .spawn (spawnOf "helper" (some 1)) (envOf 3),
    .act 1 false, .act 1 false, .act 2 false, .act 2 false, .act 1 false, .act 2 false,
    .act 1 false, .act 2 false, .act 1 false, .act 1 false, .act 1 false, .act 2 false,
    .act 2 false, .act 2 false]

/-- All calls have finished, and agent 2 is not in the record. -/
theorem spawn_lost :
    let s := run (step officeExternals) (.boot ∅) (leadJoins ++ helpersJoin)
    s.calls.all (fun call => call.held.isNone && call.rest.isEmpty) = true ∧
      (leadSession (leadJoins ++ helpersJoin)).map (·.pids) = some [1, 3] ∧
      s.members.map (·.2) = [3, 2, 1] := by
  decide

end Avix.Lifecycle
