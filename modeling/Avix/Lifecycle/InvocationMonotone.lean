/-
  LIFECYCLE — the record of an invocation only goes forward.

  `invocation_monotone`: in every run of the kernel and its executors, restarts included,
  whose steps meet `InTurn`: a record with a terminal status keeps that status, and the counters
  of a record never decrease.

  `InTurn` asks that
  * an operation on a record starts when no other one on it is under way. Each reads the record
    and writes all of it back later, so two at a time lose an update;
  * an agent is not paused, resumed or aborted after its executor has shut down. It stays in
    `active_invocations`, and `update_status` and `finalize` overwrite any status;
  * the process-table entry of an agent that is aborted has counted as much as the record. The
    entry's counters are written, and nothing increments them;
  * a record that is restored has counted nothing. The new executor starts from zero and writes
    its counters before it does anything else;
  * new agents have new pids and invocation ids.

  Without them see `record_goes_back`.
-/
import Avix.Invocation.Writers

namespace Avix.Lifecycle

open AList

open Lib List Option InvocationSystem

/-! ## Statement -/

/-- A later version of a record. -/
structure Advances (r r' : InvocationRow) : Prop where
  status : r.status.isTerminal = true → r'.status = r.status
  counters : r.counters ≤ r'.counters

/-- Every record is still there, in a later version. -/
def AllAdvance (s s' : InvocationSystem) : Prop :=
  ∀ id r, s.rows.lookup id = some r → ∃ r', s'.rows.lookup id = some r' ∧ Advances r r'

/-- No operation on the record is under way. -/
def Free (s : InvocationSystem) (id : String) : Prop := Unclaimed StoreOp.claim s.ops id

/-- The executor has neither shut down nor been aborted. -/
def Live (s : InvocationSystem) (pid : Pid) : Prop :=
  ∃ w, s.executors.lookup pid = some w ∧ w.exited = false

/-- Neither the pid nor the invocation has an executor. -/
def FreshAgent (s : InvocationSystem) (pid : Pid) (id : String) : Prop :=
  s.executors.lookup pid = none ∧ ∀ q w, s.executors.lookup q = some w → w.invocationId ≠ id

/-- What is asked of a step, in the state it starts from. -/
def InTurn (s : InvocationSystem) : InvocationInput → Prop
  | .spawn record _ =>
    s.rows.lookup record.id = none ∧ Free s record.id ∧ FreshAgent s record.pid record.id
  | .restore id => ∀ r, s.rows.lookup id = some r → r.status.isTerminal = false →
    r.counters ≤ {} ∧ Free s id ∧ FreshAgent s r.pid id
  | .persist pid => ∀ w, s.executors.lookup pid = some w → Free s w.invocationId
  | .mark pid _ => ∀ w, s.executors.lookup pid = some w → Free s w.invocationId
  | .recordNextGoal pid _ => ∀ w, s.executors.lookup pid = some w → Free s w.invocationId
  | .shutdownWithStatus pid _ _ => ∀ w, s.executors.lookup pid = some w → Free s w.invocationId
  | .pauseAgent pid => ∀ id, s.activeInvocations.lookup pid = some id → Free s id ∧ Live s pid
  | .resumeAgent pid => ∀ id, s.activeInvocations.lookup pid = some id → Free s id ∧ Live s pid
  | .abortAgent pid => ∀ id, s.activeInvocations.lookup pid = some id →
    Free s id ∧ Live s pid ∧ ∀ r, s.rows.lookup id = some r →
      r.counters ≤ (s.processes.lookup pid).getD {}
  | .snapshotInvocation id => Free s id
  | .restart => True
  | .consume _ _ _ => True
  | .act _ _ => True

/-! ## Versions of a record -/

theorem Advances.refl (r : InvocationRow) : Advances r r := ⟨fun _ => rfl, le_refl _⟩

variable {r : InvocationRow} {s : InvocationSystem}

theorem Advances.trans {r' r'' : InvocationRow} (h : Advances r r') (h' : Advances r' r'') :
    Advances r r'' := by
  refine ⟨fun hterm => ?_, h.counters.trans h'.counters⟩
  have hstat := h.status hterm
  rw [← hstat] at hterm
  exact (h'.status hterm).trans hstat

theorem AllAdvance.refl (s : InvocationSystem) : AllAdvance s s :=
  fun _ r hr => ⟨r, hr, Advances.refl r⟩

variable {change : RowChange} {s' : InvocationSystem}

theorem AllAdvance.trans {s'' : InvocationSystem} (h : AllAdvance s s') (h' : AllAdvance s' s'') :
    AllAdvance s s'' := by
  intro id r hr
  obtain ⟨r', hr', hadv⟩ := h id r hr
  obtain ⟨r'', hr'', hadv'⟩ := h' id r' hr'
  exact ⟨r'', hr'', hadv.trans hadv'⟩

/-- The database is not touched. -/
theorem allAdvance_of_rows_eq (h : s'.rows = s.rows) :
    AllAdvance s s' := fun _ r hr => ⟨r, by rw [h]; exact hr, Advances.refl r⟩

/-! ## What holds between the steps -/

structure Ahead (w : RecordingExecutor) (r : InvocationRow) : Prop where
  unfinished : r.status.isTerminal = false
  counters : r.counters ≤ w.counters

def writtenStatus : RowChange → Option InvocationStatus
  | .finalize status _ _ => some status
  | .updateStatus status => some status
  | .updateGoal _ => none
  | .persistInterim _ => none

def writtenCounters : RowChange → Option Counters
  | .finalize _ counters _ => some counters
  | .updateStatus _ => none
  | .updateGoal _ => none
  | .persistInterim counters => some counters

/-- The operation leaves the executor ahead of the record. -/
structure Fits (w : RecordingExecutor) (change : RowChange) : Prop where
  status : ∀ status, writtenStatus change = some status → status.isTerminal = false
  counters : ∀ counters, writtenCounters change = some counters → counters ≤ w.counters

/-- The operation writes a later version of the record. -/
structure Safe (r : InvocationRow) (change : RowChange) : Prop where
  status : ∀ status, writtenStatus change = some status → r.status.isTerminal = false
  counters : ∀ counters, writtenCounters change = some counters → r.counters ≤ counters

theorem Safe.advances (h : Safe r change) : Advances r (change.apply r) := by
  cases change with
  | finalize status counters exitReason =>
    refine ⟨fun hterm => ?_, h.counters counters rfl⟩
    rw [h.status status rfl] at hterm
    cases hterm
  | updateStatus status =>
    refine ⟨fun hterm => ?_, le_refl _⟩
    rw [h.status status rfl] at hterm
    cases hterm
  | updateGoal goal => exact ⟨fun _ => rfl, le_refl _⟩
  | persistInterim counters => exact ⟨fun _ => rfl, h.counters counters rfl⟩

theorem Ahead.apply {w : RecordingExecutor} (h : Ahead w r) (hfits : Fits w change) :
    Ahead w (change.apply r) := by
  cases change with
  | finalize status counters exitReason =>
    exact ⟨hfits.status status rfl, hfits.counters counters rfl⟩
  | updateStatus status => exact ⟨hfits.status status rfl, h.counters⟩
  | updateGoal goal => exact ⟨h.unfinished, h.counters⟩
  | persistInterim counters => exact ⟨h.unfinished, hfits.counters counters rfl⟩

structure Tidy (s : InvocationSystem) : Prop where
  isolated : Isolated StoreOp.claim StoreOp.copy s.rows s.ops
  /-- An operation under way will write a later version of the record, -/
  safe : ∀ op ∈ s.ops, op.isDone = false → ∀ r, s.rows.lookup op.id = some r → Safe r op.change
  /-- and leave the executor of the invocation ahead. -/
  fits : ∀ op ∈ s.ops, op.isDone = false → ∀ pid w, s.executors.lookup pid = some w →
    w.exited = false → w.invocationId = op.id → Fits w op.change
  ahead : ∀ pid w, s.executors.lookup pid = some w → w.exited = false →
    ∀ r, s.rows.lookup w.invocationId = some r → Ahead w r
  inRange : ∀ pid w, s.executors.lookup pid = some w → w.counters.InRange
  distinct : ∀ p q w v, s.executors.lookup p = some w → s.executors.lookup q = some v →
    w.invocationId = v.invocationId → p = q
  active : ∀ pid id w, s.activeInvocations.lookup pid = some id →
    s.executors.lookup pid = some w → w.invocationId = id

section Steps

variable {s : InvocationSystem} {pid : Pid} {id : String} {w : RecordingExecutor} {op : StoreOp}
  {i : Nat}

theorem tidy_boot (rows : HashMap String InvocationRow) : Tidy (.boot rows) where
  isolated := isolated_nil
  safe _ h := absurd h not_mem_nil
  fits _ h := absurd h not_mem_nil
  ahead _ _ h := by cases h
  inRange _ _ h := by cases h
  distinct _ _ _ _ h := by cases h
  active _ _ _ h := by cases h

theorem claim_of_not_done (h : op.isDone = false) : op.claim = some op.id := by
  unfold StoreOp.claim
  rw [h]
  rfl

section

variable (h : Tidy s)

include h

theorem Tidy.issue (change : RowChange) (issuer : Option Pid) (hfree : Free s id)
    (hsafe : ∀ r, s.rows.lookup id = some r → Safe r change)
    (hfits : ∀ pid w, s.executors.lookup pid = some w → w.exited = false → w.invocationId = id →
      Fits w change) :
    Tidy (s.issue { id, change, issuer }) := by
  refine ⟨?_, fun op hop hdone r hr => ?_, fun op hop hdone q v hv hlive hid => ?_, h.ahead,
    h.inRange, h.distinct, h.active⟩
  · refine h.isolated.append rfl fun key hkey => ?_
    obtain rfl : id = key := some.inj hkey
    exact hfree
  · rcases mem_append.mp hop with hop | hop
    · exact h.safe op hop hdone r hr
    · rw [mem_singleton.mp hop] at hr ⊢
      exact hsafe r hr
  · rcases mem_append.mp hop with hop | hop
    · exact h.fits op hop hdone q v hv hlive hid
    · rw [mem_singleton.mp hop] at hid ⊢
      exact hfits q v hv hlive hid

theorem Tidy.setExecutor {w' : RecordingExecutor} (hw : s.executors.lookup pid = some w)
    (hid : w'.invocationId = w.invocationId) (hcoun : w.counters ≤ w'.counters)
    (hrange : w'.counters.InRange) (hlive : w'.exited = false → w.exited = false) :
    Tidy { s with executors := s.executors.insert pid w' } := by
  -- an entry of the new map comes from one of the old map with the same invocation
  have hold : ∀ q v, (s.executors.insert pid w').lookup q = some v →
      ∃ u, s.executors.lookup q = some u ∧ v.invocationId = u.invocationId ∧
        u.counters ≤ v.counters ∧ v.counters.InRange ∧ (v.exited = false → u.exited = false) := by
    intro q v hv
    rcases HashMap.of_lookup_insert hv with ⟨rfl, rfl⟩ | ⟨-, hv⟩
    · exact ⟨w, hw, hid, hcoun, hrange, hlive⟩
    · exact ⟨v, hv, rfl, le_refl _, h.inRange q v hv, fun hv => hv⟩
  refine ⟨h.isolated, h.safe, fun op hop hdone q v hv hrun heq => ?_, fun q v hv hrun r hr => ?_,
    fun q v hv => ?_, fun p q v v' hv hv' heq => ?_, fun q id v hact hv => ?_⟩
  · obtain ⟨u, hu, huid, hle, -, hrun'⟩ := hold q v hv
    have hfits := h.fits op hop hdone q u hu (hrun' hrun) (huid.symm.trans heq)
    exact ⟨hfits.status, fun c hc => (hfits.counters c hc).trans hle⟩
  · obtain ⟨u, hu, huid, hle, -, hrun'⟩ := hold q v hv
    rw [huid] at hr
    have hahead := h.ahead q u hu (hrun' hrun) r hr
    exact ⟨hahead.unfinished, hahead.counters.trans hle⟩
  · obtain ⟨u, -, -, -, hv, -⟩ := hold q v hv
    exact hv
  · obtain ⟨u, hu, huid, -⟩ := hold p v hv
    obtain ⟨u', hu', huid', -⟩ := hold q v' hv'
    exact h.distinct p q u u' hu hu' (by rw [← huid, ← huid', heq])
  · obtain ⟨u, hu, huid, -⟩ := hold q v hv
    exact huid.trans (h.active q id u hact hu)

theorem Tidy.exit (pid : Pid) : Tidy (s.exit pid) := by
  unfold InvocationSystem.exit
  cases hw : s.executors.lookup pid with
  | none => exact h
  | some w => exact h.setExecutor hw rfl (le_refl _) (h.inRange pid w hw) nofun

/-- A new executor, whose record has counted nothing. -/
theorem Tidy.launch (hfree : Free s id) (hfresh : FreshAgent s pid id)
    (hrow : ∀ r, s.rows.lookup id = some r → Ahead { invocationId := id } r) :
    Tidy (s.launch pid id) := by
  have hold : ∀ q v, (s.launch pid id).executors.lookup q = some v →
      (q = pid ∧ v = { invocationId := id }) ∨ (q ≠ pid ∧ s.executors.lookup q = some v) :=
    fun q v hv => HashMap.of_lookup_insert hv
  refine ⟨h.isolated, h.safe, fun op hop hdone q v hv hrun heq => ?_, fun q v hv hrun r hr => ?_,
    fun q v hv => ?_, fun p q v v' hv hv' heq => ?_, fun q id' v hact hv => ?_⟩
  · rcases hold q v hv with ⟨-, rfl⟩ | ⟨-, hv⟩
    · refine absurd (claim_of_not_done hdone) ?_
      rw [← heq]
      exact hfree op hop
    · exact h.fits op hop hdone q v hv hrun heq
  · rcases hold q v hv with ⟨-, rfl⟩ | ⟨-, hv⟩
    · exact hrow r hr
    · exact h.ahead q v hv hrun r hr
  · rcases hold q v hv with ⟨-, rfl⟩ | ⟨-, hv⟩
    · exact Counters.inRange_zero
    · exact h.inRange q v hv
  · rcases hold p v hv with ⟨hp, rfl⟩ | ⟨-, hv⟩ <;> rcases hold q v' hv' with ⟨hq, rfl⟩ | ⟨-, hv'⟩
    · rw [hp, hq]
    · exact absurd heq.symm (hfresh.2 q v' hv')
    · exact absurd heq (hfresh.2 p v hv)
    · exact h.distinct p q v v' hv hv' heq
  · change (s.activeInvocations.insert pid id).lookup q = some id' at hact
    rcases hold q v hv with ⟨hq, rfl⟩ | ⟨hq, hv⟩
    · rw [hq, lookup_insert] at hact
      exact some.inj hact
    · rw [lookup_insert_ne hq] at hact
      exact h.active q id' v hact hv

theorem Tidy.create (hfree : Free s id) (hfresh : FreshAgent s pid id) (r : InvocationRow) :
    Tidy { s with rows := s.rows.insert id r } := by
  refine ⟨h.isolated.insert hfree r, fun op hop hdone r' hr' => ?_, h.fits,
    fun q v hv hrun r' hr' => ?_, h.inRange, h.distinct, h.active⟩
  · have hne : op.id ≠ id := fun heq => hfree op hop (heq ▸ claim_of_not_done hdone)
    rw [lookup_insert_ne hne] at hr'
    exact h.safe op hop hdone r' hr'
  · change (s.rows.insert id r).lookup v.invocationId = some r' at hr'
    rw [lookup_insert_ne (hfresh.2 q v hv)] at hr'
    exact h.ahead q v hv hrun r' hr'

/-- An operation goes on or comes to its end, and writes nothing. -/
theorem Tidy.setOp (hop : s.ops[i]? = some op) {stage : Stage}
    (hstage : (∃ r, stage = .writing r ∧ op.isDone = false ∧ s.rows.lookup op.id = some r) ∨
      stage = .done) :
    Tidy { s with ops := s.ops.set i { op with stage } } := by
  have hmem := mem_of_getElem? hop
  have hold : ∀ op' ∈ s.ops.set i { op with stage }, op'.isDone = false →
      ∃ op'' ∈ s.ops, op''.isDone = false ∧ op''.id = op'.id ∧ op''.change = op'.change := by
    intro op' hop' hdone
    rcases mem_or_eq_of_mem_set hop' with hop' | rfl
    · exact ⟨op', hop', hdone, rfl, rfl⟩
    rcases hstage with ⟨r, -, hdone', -⟩ | rfl
    · exact ⟨op, hmem, hdone', rfl, rfl⟩
    · cases hdone
  refine ⟨?_, fun op' hop' hdone r hr => ?_, fun op' hop' hdone q v hv hrun heq => ?_, h.ahead,
    h.inRange, h.distinct, h.active⟩
  · refine h.isolated.set hop (fun key hkey => .inl ?_) fun key r hkey hcopy => ?_
    · rcases hstage with ⟨r, rfl, hdone, -⟩ | rfl
      · rw [claim_of_not_done hdone, ← hkey]
        rfl
      · cases hkey
    · rcases hstage with ⟨r', rfl, -, hr'⟩ | rfl
      · obtain rfl : r' = r := some.inj hcopy
        obtain rfl : op.id = key := some.inj hkey
        exact hr'
      · cases hcopy
  · obtain ⟨op'', hop'', hdone'', hid, hchan⟩ := hold op' hop' hdone
    rw [← hchan]
    exact h.safe op'' hop'' hdone'' r (hid ▸ hr)
  · obtain ⟨op'', hop'', hdone'', hid, hchan⟩ := hold op' hop' hdone
    rw [← hchan]
    exact h.fits op'' hop'' hdone'' q v hv hrun (heq.trans hid.symm)

end

variable {copy : InvocationRow}

theorem not_done_of_writing (h : op.stage = .writing copy) : op.isDone = false := by
  unfold StoreOp.isDone
  rw [h]

/-- The copy that an operation is going to write is the record. -/
theorem Tidy.current (h : Tidy s) (hop : op ∈ s.ops) (hstage : op.stage = .writing copy) :
    s.rows.lookup op.id = some copy := by
  refine h.isolated.current op hop op.id copy (claim_of_not_done (not_done_of_writing hstage)) ?_
  unfold StoreOp.copy
  rw [hstage]

theorem Tidy.write (h : Tidy s) (hop : s.ops[i]? = some op) (hstage : op.stage = .writing copy) :
    Tidy { s with
      rows := s.rows.insert op.id (op.change.apply copy)
      ops := s.ops.set i { op with stage := .done } } := by
  have hmem := mem_of_getElem? hop
  have hdone := not_done_of_writing hstage
  have hclaim := claim_of_not_done hdone
  have hisol := h.isolated.write hop hclaim
    (show StoreOp.claim { op with stage := .done } = none from rfl) (op.change.apply copy)
  -- the other operations under way are on other records
  have hother : ∀ op' ∈ s.ops.set i { op with stage := .done }, op'.isDone = false →
      op' ∈ s.ops ∧ op'.id ≠ op.id := by
    intro op' hop' hdone'
    obtain ⟨j, hj⟩ := getElem?_of_mem hop'
    by_cases hji : j = i
    · rw [hji, List.getElem?_set_self (List.getElem?_eq_some_iff.mp hop).1] at hj
      rw [← some.inj hj] at hdone'
      cases hdone'
    · rw [getElem?_set_ne (Ne.symm hji)] at hj
      refine ⟨mem_of_getElem? hj, fun heq => hji ?_⟩
      exact h.isolated.exclusive j i op' op op.id hj hop (heq ▸ claim_of_not_done hdone') hclaim
  refine ⟨hisol, fun op' hop' hdone' r hr => ?_, fun op' hop' hdone' q v hv hrun heq => ?_,
    fun q v hv hrun r hr => ?_, h.inRange, h.distinct, h.active⟩
  · obtain ⟨hop', hne⟩ := hother op' hop' hdone'
    rw [lookup_insert_ne hne] at hr
    exact h.safe op' hop' hdone' r hr
  · exact h.fits op' (hother op' hop' hdone').1 hdone' q v hv hrun heq
  · rcases HashMap.of_lookup_insert hr with ⟨hid, rfl⟩ | ⟨-, hr⟩
    · exact (h.ahead q v hv hrun copy (hid ▸ h.current hmem hstage)).apply
        (h.fits op hmem hdone q v hv hrun hid)
    · exact h.ahead q v hv hrun r hr

theorem Tidy.eraseActive (h : Tidy s) (pid : Pid) :
    Tidy { s with activeInvocations := s.activeInvocations.erase pid } := by
  refine ⟨h.isolated, h.safe, h.fits, h.ahead, h.inRange, h.distinct, fun q id v hact hv => ?_⟩
  by_cases hq : q = pid
  · rw [hq, lookup_erase] at hact
    cases hact
  · rw [lookup_erase_ne hq] at hact
    exact h.active q id v hact hv

theorem rows_exit (s : InvocationSystem) (pid : Pid) : (s.exit pid).rows = s.rows := by
  unfold exit
  split <;> rfl

theorem ops_exit (s : InvocationSystem) (pid : Pid) : (s.exit pid).ops = s.ops := by
  unfold exit
  split <;> rfl

/-- The executors that run are the other ones. -/
theorem lookup_exit {q : Pid} {v : RecordingExecutor}
    (hv : (s.exit pid).executors.lookup q = some v) (hrun : v.exited = false) :
    q ≠ pid ∧ s.executors.lookup q = some v := by
  unfold exit at hv
  cases hw : s.executors.lookup pid with
  | none =>
    rw [hw] at hv
    refine ⟨fun hq => ?_, hv⟩
    rw [hq, hw] at hv
    cases hv
  | some w =>
    rw [hw] at hv
    rcases HashMap.of_lookup_insert hv with ⟨-, rfl⟩ | hother
    · cases hrun
    · exact hother

/-- The last operation for an agent: its executor is gone, so that the record may be finished. -/
theorem Tidy.issueLast (h : Tidy s) (hw : s.executors.lookup pid = some w)
    (hlive : w.exited = false) (change : RowChange) (issuer : Option Pid)
    (hfree : Free s w.invocationId)
    (hcoun : ∀ r, s.rows.lookup w.invocationId = some r →
      ∀ counters, writtenCounters change = some counters → r.counters ≤ counters) :
    Tidy ((s.exit pid).issue { id := w.invocationId, change, issuer }) := by
  refine (h.exit pid).issue change issuer ?_ (fun r hr => ?_) fun q v hv hrun hid => ?_
  · unfold Free
    rw [ops_exit]
    exact hfree
  · rw [rows_exit] at hr
    exact ⟨fun _ _ => (h.ahead pid w hw hlive r hr).unfinished, hcoun r hr⟩
  · obtain ⟨hq, hv⟩ := lookup_exit hv hrun
    exact absurd (h.distinct q pid v w hv hw hid) hq

theorem ready_eq_some (h : s.ready pid = some w) :
    s.executors.lookup pid = some w ∧ w.exited = false := by
  unfold ready at h
  obtain ⟨hw, hready⟩ := filter_eq_some_iff.mp h
  rw [Bool.and_eq_true, Bool.not_eq_true'] at hready
  exact ⟨hw, hready.1⟩

section

variable (h : Tidy s)

include h

/-- An executor starts an operation that leaves it running. -/
theorem Tidy.issueBy {change : RecordingExecutor → RowChange}
    (hfree : ∀ w, s.executors.lookup pid = some w → Free s w.invocationId)
    (hsafe : ∀ w r, Ahead w r → Safe r (change w)) (hfits : ∀ w, Fits w (change w)) :
    Tidy (s.issueBy pid change) := by
  unfold InvocationSystem.issueBy
  cases hready : s.ready pid with
  | none => exact h
  | some w =>
    obtain ⟨hw, hlive⟩ := ready_eq_some hready
    dsimp only
    split_ifs
    · exact h
    refine h.issue (change w) (some pid) (hfree w hw) (fun r hr => ?_)
      fun q v hv hrun hid => ?_
    · exact hsafe w r (h.ahead pid w hw hlive r hr)
    obtain rfl := h.distinct q pid v w hv hw hid
    obtain rfl : w = v := some.inj (hw.symm.trans hv)
    exact hfits w

variable {status : InvocationStatus}

/-- The kernel changes the status of an agent that runs. -/
theorem Tidy.setActive (hopen : status.isTerminal = false)
    (hguard : ∀ id, s.activeInvocations.lookup pid = some id → Free s id ∧ Live s pid) :
    Tidy (s.setActive pid status) := by
  unfold InvocationSystem.setActive
  cases hact : s.activeInvocations.lookup pid with
  | none => exact h
  | some id =>
    obtain ⟨hfree, w, hw, hlive⟩ := hguard id hact
    have hid := h.active pid id w hact hw
    refine h.issue _ none hfree (fun r hr => ⟨fun _ _ => ?_, nofun⟩) fun _ _ _ _ _ => ⟨?_, nofun⟩
    · exact (h.ahead pid w hw hlive r (hid ▸ hr)).unfinished
    · intro status' hstat'
      exact some.inj hstat' ▸ hopen

theorem Tidy.abortAgent (hguard : InTurn s (.abortAgent pid)) : Tidy (s.abortAgent pid) := by
  have hactiv : (s.exit pid).activeInvocations = s.activeInvocations := by
    unfold InvocationSystem.exit
    split <;> rfl
  have hproc : (s.exit pid).processes = s.processes := by
    unfold InvocationSystem.exit
    split <;> rfl
  unfold InvocationSystem.abortAgent
  dsimp only
  rw [hactiv, hproc]
  cases hact : s.activeInvocations.lookup pid with
  | none => exact h.exit pid
  | some id =>
    obtain ⟨hfree, ⟨w, hw, hlive⟩, hcoun⟩ := hguard id hact
    obtain rfl := h.active pid id w hact hw
    have hiss := (h.eraseActive pid).issueLast hw hlive
      (.finalize .killed ((s.processes.lookup pid).getD {}) (some "killed")) none hfree
      fun r hr counters hc => some.inj hc ▸ hcoun r hr
    have hcomm : ({ s with activeInvocations := s.activeInvocations.erase pid } :
        InvocationSystem).exit pid =
        { s.exit pid with
          activeInvocations := s.activeInvocations.erase pid, processes := s.processes } := by
      unfold InvocationSystem.exit
      dsimp only
      rw [hw]
    rw [hcomm] at hiss
    exact hiss

theorem Tidy.shutdownWithStatus {exitReason : Option String}
    (hguard : InTurn s (.shutdownWithStatus pid status exitReason)) :
    Tidy (s.step (.shutdownWithStatus pid status exitReason)) := by
  unfold step
  dsimp only
  cases hready : s.ready pid with
  | none => exact h
  | some w =>
    obtain ⟨hw, hlive⟩ := ready_eq_some hready
    unfold InvocationSystem.issueBy
    rw [hready]
    dsimp only
    split_ifs
    · exact h.exit pid
    have hiss := h.issueLast hw hlive (.finalize status w.counters exitReason) (some pid)
      (hguard w hw) fun r hr counters hc =>
        some.inj hc ▸ (h.ahead pid w hw hlive r hr).counters
    have hcomm : ∀ op, (s.issue op).exit pid = (s.exit pid).issue op := by
      intro op
      unfold InvocationSystem.exit InvocationSystem.issue
      dsimp only
      rw [hw]
    rw [hcomm]
    exact hiss

theorem Tidy.act (i : Nat) (fails : Bool) : Tidy (s.act i fails) := by
  unfold InvocationSystem.act
  cases hop : s.ops[i]? with
  | none => exact h
  | some op =>
    dsimp only
    split_ifs
    · exact h.setOp hop (.inr rfl)
    cases hstage : op.stage with
    | reading =>
      dsimp only
      cases hr : s.rows.lookup op.id with
      | none => exact h.setOp hop (.inr rfl)
      | some r =>
        have hdone : op.isDone = false := by
          unfold StoreOp.isDone
          rw [hstage]
        exact h.setOp hop (.inl ⟨r, rfl, hdone, hr⟩)
    | writing copy => exact h.write hop hstage
    | done => exact h

theorem Tidy.spawn {record : InvocationRecord} {createFails : Bool}
    (hguard : InTurn s (.spawn record createFails)) : Tidy (s.spawn record createFails) := by
  obtain ⟨hnew, hfree, hfresh⟩ := hguard
  unfold InvocationSystem.spawn
  cases createFails with
  | true =>
    refine h.launch hfree hfresh fun r hr => ?_
    rw [show s.rows.lookup record.id = none from hnew] at hr
    cases hr
  | false =>
    refine (h.create hfree hfresh _).launch hfree hfresh fun r hr => ?_
    rw [lookup_insert] at hr
    rw [← some.inj hr]
    exact ⟨rfl, le_refl _⟩

theorem Tidy.restore (hguard : InTurn s (.restore id)) : Tidy (s.restore id) := by
  unfold InvocationSystem.restore
  cases hr : s.rows.lookup id with
  | none => exact h
  | some r =>
    dsimp only
    split_ifs with hterm
    · exact h
    rw [Bool.not_eq_true] at hterm
    obtain ⟨hcoun, hfree, hfresh⟩ := hguard r hr hterm
    refine h.launch hfree hfresh fun r' hr' => ?_
    obtain rfl : r = r' := some.inj (hr.symm.trans hr')
    exact ⟨hterm, hcoun⟩

/-- The kernel writes the counters back that it has read. -/
theorem Tidy.snapshotInvocation (hfree : Free s id) : Tidy (s.snapshotInvocation id) := by
  unfold InvocationSystem.snapshotInvocation
  cases hr : s.rows.lookup id with
  | none => exact h
  | some r =>
    dsimp only
    split_ifs
    · exact h
    refine h.issue _ none hfree (fun r' hr' => ⟨nofun, fun c hc => ?_⟩)
      fun q v hv hrun hid => ⟨nofun, fun c hc => ?_⟩
    · obtain rfl : r = r' := some.inj (hr.symm.trans hr')
      exact some.inj hc ▸ le_refl _
    · exact some.inj hc ▸ (h.ahead q v hv hrun r (hid ▸ hr)).counters

theorem Tidy.step (e : InvocationInput) (hguard : InTurn s e) : Tidy (s.step e) := by
  cases e with
  | spawn record createFails => exact h.spawn hguard
  | restart => exact tidy_boot s.rows
  | restore id => exact h.restore hguard
  | consume pid tokens calls =>
    unfold InvocationSystem.step
    dsimp only
    cases hready : s.ready pid with
    | none => exact h
    | some w =>
      obtain ⟨hw, -⟩ := ready_eq_some hready
      exact h.setExecutor hw rfl (Counters.le_add (h.inRange pid w hw) tokens calls)
        (Counters.inRange_add _ _ _) fun hlive => hlive
  | persist pid =>
    refine h.issueBy hguard (fun w r hahead => ⟨nofun, fun c hc => ?_⟩)
      fun w => ⟨nofun, fun c hc => ?_⟩
    · exact some.inj hc ▸ hahead.counters
    · exact some.inj hc ▸ le_refl _
  | mark pid status =>
    refine h.issueBy hguard (fun w r hahead => ⟨fun _ _ => hahead.unfinished, nofun⟩)
      fun w => ⟨fun st hst => ?_, nofun⟩
    exact some.inj hst ▸ status.2
  | recordNextGoal pid goal =>
    exact h.issueBy hguard (fun _ _ _ => ⟨nofun, nofun⟩) fun _ => ⟨nofun, nofun⟩
  | shutdownWithStatus pid status exitReason => exact h.shutdownWithStatus hguard
  | abortAgent pid => exact h.abortAgent hguard
  | snapshotInvocation id => exact h.snapshotInvocation hguard
  | act op fails => exact h.act op fails
  | _ => exact h.setActive rfl hguard

end

section

variable (s : InvocationSystem)

theorem rows_issueBy (pid : Pid) (change : RecordingExecutor → RowChange) :
    (s.issueBy pid change).rows = s.rows := by
  unfold issueBy
  split
  · split <;> rfl
  · rfl

theorem rows_setActive (pid : Pid) (status : InvocationStatus) :
    (s.setActive pid status).rows = s.rows := by
  unfold setActive
  split <;> rfl

theorem rows_restore (id : String) : (s.restore id).rows = s.rows := by
  unfold restore
  split
  · split_ifs <;> rfl
  · rfl

theorem rows_abortAgent (pid : Pid) : (s.abortAgent pid).rows = s.rows := by
  unfold abortAgent
  dsimp only
  split <;> exact rows_exit s pid

theorem rows_snapshotInvocation (id : String) : (s.snapshotInvocation id).rows = s.rows := by
  unfold snapshotInvocation
  split
  · split_ifs <;> rfl
  · rfl

end

/-- A write is the only access that changes a record there is. -/
theorem Tidy.allAdvance_act (h : Tidy s) (i : Nat) (fails : Bool) :
    AllAdvance s (s.act i fails) := by
  unfold InvocationSystem.act
  cases hop : s.ops[i]? with
  | none => exact AllAdvance.refl s
  | some op =>
    dsimp only
    split_ifs
    · exact allAdvance_of_rows_eq rfl
    cases hstage : op.stage with
    | reading =>
      dsimp only
      cases s.rows.lookup op.id <;> exact allAdvance_of_rows_eq rfl
    | writing copy =>
      intro id r hr
      by_cases hid : id = op.id
      · have hmem := mem_of_getElem? hop
        have hcurr := h.current hmem hstage
        obtain rfl : copy = r := some.inj (hcurr.symm.trans (hid ▸ hr))
        refine ⟨op.change.apply copy, by rw [hid, lookup_insert], ?_⟩
        exact (h.safe op hmem (not_done_of_writing hstage) copy hcurr).advances
      · exact ⟨r, by rw [lookup_insert_ne hid]; exact hr, Advances.refl r⟩
    | done => exact AllAdvance.refl s

/-- Every step leaves every record in a later version. -/
theorem Tidy.allAdvance_step (h : Tidy s) (e : InvocationInput) (hguard : InTurn s e) :
    AllAdvance s (s.step e) := by
  cases e with
  | spawn record createFails =>
    obtain ⟨hnew, -, -⟩ := hguard
    cases createFails with
    | true => exact allAdvance_of_rows_eq rfl
    | false =>
      intro id r hr
      have hid : id ≠ record.id := by
        rintro rfl
        rw [hnew] at hr
        cases hr
      refine ⟨r, ?_, Advances.refl r⟩
      change (s.rows.insert record.id _).lookup id = some r
      rw [lookup_insert_ne hid]
      exact hr
  | restart => exact allAdvance_of_rows_eq rfl
  | restore id => exact allAdvance_of_rows_eq (rows_restore s id)
  | consume pid tokens calls =>
    unfold InvocationSystem.step
    dsimp only
    split
    · exact allAdvance_of_rows_eq rfl
    · exact AllAdvance.refl s
  | persist pid | mark pid status | recordNextGoal pid goal =>
    exact allAdvance_of_rows_eq (rows_issueBy s pid _)
  | shutdownWithStatus pid status exitReason =>
    unfold InvocationSystem.step
    dsimp only
    split
    · exact allAdvance_of_rows_eq ((rows_exit _ pid).trans (rows_issueBy s pid _))
    · exact AllAdvance.refl s
  | pauseAgent pid | resumeAgent pid => exact allAdvance_of_rows_eq (rows_setActive s pid _)
  | abortAgent pid => exact allAdvance_of_rows_eq (rows_abortAgent s pid)
  | snapshotInvocation id => exact allAdvance_of_rows_eq (rows_snapshotInvocation s id)
  | act op fails => exact h.allAdvance_act op fails

end Steps

/-! ## Main statement -/

theorem invocation_monotone (rows : HashMap String InvocationRow) (es es' : List InvocationInput)
    (h : Guarded InvocationSystem.step InTurn (.boot rows) (es ++ es')) :
    AllAdvance (run InvocationSystem.step (.boot rows) es)
      (run InvocationSystem.step (.boot rows) (es ++ es')) := by
  obtain ⟨hes, hes'⟩ := guarded_append.mp h
  have htidy : Tidy (run step (.boot rows) es) :=
    guarded_invariant (fun _ e htidy hguard => htidy.step e hguard) (tidy_boot rows) hes
  rw [run_append]
  exact guarded_related AllAdvance.refl (fun _ _ _ => AllAdvance.trans)
    (fun _ e htidy hguard => ⟨htidy.step e hguard, htidy.allAdvance_step e hguard⟩) htidy hes'

/-! ## A record that goes back -/

/-- The agent `lead` is spawned as pid 1, uses 100 tokens and one tool, and records it. -/
def leadRecords : List InvocationInput :=
  [.spawn { id := "i", agentName := "lead", username := "alice", pid := 1, goal := ""
            sessionId := "s" } false,
    .consume 1 100 1, .persist 1, .act 0 false, .act 0 false]

def leadShutsDown : List InvocationInput :=
  [.shutdownWithStatus 1 .killed none, .act 1 false, .act 1 false]

theorem free_of_all_done (h : s.ops.all StoreOp.isDone = true) (id : String) : Free s id := by
  intro op hop hclaim
  have hdone := all_eq_true.mp h op hop
  unfold StoreOp.claim at hclaim
  rw [if_pos hdone] at hclaim
  cases hclaim

theorem leadRecords_inTurn :
    Guarded InvocationSystem.step InTurn (.boot ∅) (leadRecords ++ leadShutsDown) := by
  refine ⟨⟨rfl, free_of_all_done rfl _, rfl, fun _ _ hw => ?_⟩, trivial, fun _ _ => ?_, trivial,
    trivial, fun _ _ => ?_, trivial, trivial, trivial⟩
  · cases hw
  all_goals exact free_of_all_done (by decide) _

theorem invocation_monotone_lead : AllAdvance (run InvocationSystem.step (.boot ∅) leadRecords)
    (run InvocationSystem.step (.boot ∅) (leadRecords ++ leadShutsDown)) :=
  invocation_monotone ∅ leadRecords leadShutsDown leadRecords_inTurn

/-- What the record of the agent says after a run. -/
def leadRow (es : List InvocationInput) : Option (InvocationStatus × Counters) :=
  ((run InvocationSystem.step (.boot ∅) es).rows.lookup "i").map fun r => (r.status, r.counters)

def leadPaused : List InvocationInput := [.pauseAgent 1, .act 2 false, .act 2 false]

def leadRestored : List InvocationInput :=
  [.restart, .restore "i", .persist 1, .act 0 false, .act 0 false]

def leadAborted : List InvocationInput := [.abortAgent 1, .act 1 false, .act 1 false]

/-- The executor goes idle and has read the record when the abort writes it. -/
def leadAbortedIdle : List InvocationInput :=
  [.mark 1 ⟨.idle, rfl⟩, .act 1 false, .abortAgent 1, .act 2 false, .act 2 false]

/-- A pause takes the agent out of Killed. A restart and restore, and an abort, set the counters
    to zero. An idle executor that has read the record before an abort writes Idle over Killed. -/
theorem record_goes_back : leadRow leadRecords = some (.running, ⟨100, 1⟩) ∧
    leadRow (leadRecords ++ leadShutsDown) = some (.killed, ⟨100, 1⟩) ∧
    leadRow (leadRecords ++ leadShutsDown ++ leadPaused) = some (.paused, ⟨100, 1⟩) ∧
    leadRow (leadRecords ++ leadRestored) = some (.running, ⟨0, 0⟩) ∧
    leadRow (leadRecords ++ leadAborted) = some (.killed, ⟨0, 0⟩) ∧
    leadRow (leadRecords ++ leadAbortedIdle) = some (.killed, ⟨0, 0⟩) ∧
    leadRow (leadRecords ++ leadAbortedIdle ++ [.act 1 false]) = some (.idle, ⟨100, 1⟩) := by
  decide

end Avix.Lifecycle
