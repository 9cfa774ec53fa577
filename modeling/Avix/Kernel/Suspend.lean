/-
  A pause or resume with nothing else in between (`kernel/proc/signals.rs`).

  `LiveKernel.perform` makes a call of the signal handler at one go: the accesses of the call of
  `Kernel/SignalHandler`, each with what follows from it (`run_perform`).

  * `moved_suspension`: which entries, records, channels and sessions a pause or resume changes.

  `Suspension.suspend` is what `pause_agent` and `resume_agent` do to the tables and stores of the
  kernel alone (`run_suspension`).

  * `Suspended how qs k k'`: what `k'` is after the agents `qs` have been suspended in `k`.
-/
import Avix.Kernel.SignalHandler
import Avix.Lib.Run

namespace Avix

open Lib LiveKernel List

namespace KernelState

variable {D : Type} (k : KernelState D)

def status (pid : Pid) : Option ProcessStatus := (k.processTable.get pid).map (·.status)

def recordStatus (id : String) : Option InvocationStatus := (k.record id).map (·.status)

def invocationStatus (pid : Pid) : Option InvocationStatus :=
  (k.activeInvocations.lookup pid).bind k.recordStatus

def session (id : Uuid) : Option SessionRecord := k.sessionStore.bind (·.lookup id)

/-- The session of an agent, as the signal handler reads it. -/
def sessionOf (x : Externals D) (pid : Pid) : Option SessionRecord :=
  match k.activeSessions.lookup pid, k.sessionStore with
  | some sid, some store =>
    match x.parseUuid sid with
    | .ok uuid => store.get false uuid
    | .error _ => none
  | _, _ => none

/-- `update_status` of the active invocation of an agent. -/
def updateInvocation (pid : Pid) (status : InvocationStatus) : KernelState D :=
  match k.activeInvocations.lookup pid with
  | some id =>
    { k with invocationStore := k.invocationStore.map (·.updateStatus false id status) }
  | none => k

def putSession (session : SessionRecord) : KernelState D :=
  { k with sessionStore := k.sessionStore.map (·.put false session) }

end KernelState

open KernelState

namespace Suspension

variable {D : Type} (x : Externals D) (how : Suspension)

/-- The part of one agent. -/
def suspendOne (k : KernelState D) (pid : Pid) : KernelState D :=
  (k.setStatus pid how.process).updateInvocation pid how.invocation

/-- `pause_agent` or `resume_agent`. -/
def suspend (k : KernelState D) (pid : Pid) : KernelState D :=
  let k := how.suspendOne k pid
  match k.sessionOf x pid with
  | some session =>
    if how.cascades pid session then
      ((session.pids.filter (· ≠ pid)).foldl how.suspendOne k).putSession
        (session.mark how.session)
    else k
  | none => k

end Suspension

open Suspension hiding session

/-! ## The call made at one go -/

namespace LiveKernel

variable {D : Type} (x : ExecutorExternals D)

/-- An access and, up to the given depth, what follows from it. -/
def carryOut : Nat → LiveKernel D → KernelAction → LiveKernel D
  | 0, s, a => (s.access x false a).1
  | n + 1, s, a => (s.access x false a).2.foldl (carryOut n) (s.access x false a).1

/-- A call of the signal handler, made at one go: a cascade leads to changes of invocations, and
    these lead to writes. -/
def perform (s : LiveKernel D) (actions : List KernelAction) : LiveKernel D :=
  actions.foldl (carryOut x 2) s

variable {x} {s : LiveKernel D}

theorem perform_append (actions actions' : List KernelAction) :
    s.perform x (actions ++ actions') = (s.perform x actions).perform x actions' :=
  foldl_append

end LiveKernel

/-- How deep the consequences of an access are. -/
def KernelAction.depth : KernelAction → Nat
  | .updateInvocation _ _ => 1
  | .cascade _ _ => 2
  | _ => 0

section Perform

variable {D : Type} {x : ExecutorExternals D} {s : LiveKernel D} {actions : List KernelAction}
  {a : KernelAction} {n : Nat} {pid : Pid}

theorem depth_sessionActions {how : Suspension} {session : SessionRecord}
    (h : a ∈ how.sessionActions pid session) : a.depth ≤ 1 := by
  unfold sessionActions at h
  split_ifs at h
  · simp only [mem_append, mem_map, mem_flatMap, mem_cons, not_mem_nil, or_false] at h
    rcases h with (⟨q, -, rfl⟩ | ⟨q, -, rfl | rfl⟩) | rfl
    · exact Nat.zero_le 1
    · exact Nat.zero_le 1
    · exact Nat.le_refl 1
    · exact Nat.zero_le 1
  · cases h

/-- The consequences of an access are less deep. -/
theorem depth_access {b : KernelAction} (h : b ∈ (s.access x false a).2) : b.depth < a.depth := by
  cases a with
  | updateInvocation pid status =>
    unfold access at h
    dsimp only at h
    split at h
    · rw [mem_singleton.mp h]
      exact Nat.zero_lt_one
    · cases h
  | cascade how pid =>
    unfold access cascadeActions at h
    dsimp only at h
    split at h
    · next sid store _ _ =>
      split at h
      · next uuid _ =>
        cases hsess : store.get false uuid with
        | none =>
          rw [hsess] at h
          cases h
        | some session =>
          rw [hsess] at h
          exact Nat.lt_succ_of_le (depth_sessionActions h)
      · cases h
    · cases h
  | _ => cases h

theorem calls_access (storeFails : Bool) (a : KernelAction) :
    (s.access x storeFails a).1.calls = s.calls := by
  cases a with
  | deliver sig =>
    unfold access send
    dsimp only
    split_ifs
    · split <;> rfl
    · rfl
  | _ => rfl

/-- The calls that are left are no part of what an access does. -/
theorem access_withCalls (calls : List (List KernelAction)) (a : KernelAction) :
    ({ s with calls } : LiveKernel D).access x false a =
      ({ (s.access x false a).1 with calls }, (s.access x false a).2) := by
  cases a with
  | deliver sig =>
    unfold access send
    dsimp only
    split_ifs
    · split <;> rfl
    · rfl
  | _ => rfl

theorem carryOut_withCalls (n : Nat) (s : LiveKernel D) (calls : List (List KernelAction))
    (a : KernelAction) : carryOut x n { s with calls } a = { carryOut x n s a with calls } := by
  induction n generalizing s a with
  | zero =>
    unfold carryOut
    rw [access_withCalls]
  | succ n ih =>
    unfold carryOut
    rw [access_withCalls]
    dsimp only
    generalize (s.access x false a).2 = actions
    generalize (s.access x false a).1 = t
    induction actions generalizing t with
    | nil => rfl
    | cons b actions ih' =>
      rw [foldl_cons, ih]
      exact ih' _

theorem foldl_carryOut_withCalls (n : Nat) (actions : List KernelAction) (s : LiveKernel D)
    (calls : List (List KernelAction)) :
    actions.foldl (carryOut x n) { s with calls } =
      { actions.foldl (carryOut x n) s with calls } := by
  induction actions generalizing s with
  | nil => rfl
  | cons a actions ih =>
    rw [foldl_cons, carryOut_withCalls]
    exact ih _

/-- The accesses of call `i` come to the same as `carryOut`. -/
def CarriesOut (x : ExecutorExternals D) (n : Nat) (actions : List KernelAction) : Prop :=
  ∀ (s : LiveKernel D) (i : Nat) (rest : List KernelAction),
    s.calls[i]? = some (actions ++ rest) → ∃ m,
      run (LiveKernel.step x) s (List.replicate m (.act i false)) =
        { actions.foldl (LiveKernel.carryOut x n) s with calls := s.calls.set i rest }

theorem carriesOut_nil (n : Nat) : CarriesOut x n [] := by
  intro s i rest h
  refine ⟨0, ?_⟩
  obtain ⟨hi, hrest⟩ := List.getElem?_eq_some_iff.mp h
  rw [replicate_zero, run_nil, foldl_nil, ← nil_append rest, ← hrest,
    set_getElem_self]

theorem CarriesOut.append {as bs : List KernelAction} (ha : CarriesOut x n as)
    (hb : CarriesOut x n bs) : CarriesOut x n (as ++ bs) := by
  intro s i rest h
  rw [append_assoc] at h
  obtain ⟨hi, -⟩ := List.getElem?_eq_some_iff.mp h
  obtain ⟨m, hm⟩ := ha s i _ h
  obtain ⟨m', hm'⟩ := hb { as.foldl (carryOut x n) s with
    calls := s.calls.set i (bs ++ rest) } i rest (getElem?_set_self hi)
  refine ⟨m + m', ?_⟩
  rw [replicate_add, run_append, hm, hm', foldl_carryOut_withCalls, foldl_append,
    set_set]

theorem carriesOut_of_forall (h : ∀ a ∈ actions, CarriesOut x n [a]) : CarriesOut x n actions := by
  induction actions with
  | nil => exact carriesOut_nil n
  | cons a actions ih =>
    have ha : CarriesOut x n [a] := h a mem_cons_self
    exact ha.append (ih fun b hb => h b (mem_cons_of_mem _ hb))

/-- One access, and then what follows from it. -/
theorem carriesOut_one (n : Nat) (a : KernelAction) (h : a.depth ≤ n) : CarriesOut x n [a] := by
  induction n generalizing a with
  | zero =>
    intro s i rest hcall
    refine ⟨1, ?_⟩
    have hnew : (s.access x false a).2 = [] :=
      eq_nil_iff_forall_not_mem.mpr fun b hb => by
        have := depth_access hb
        omega
    change s.act x i false = _
    unfold act
    rw [hcall]
    dsimp only [singleton_append]
    rw [hnew, calls_access]
    rfl
  | succ n ih =>
    intro s i rest hcall
    obtain ⟨hi, -⟩ := List.getElem?_eq_some_iff.mp hcall
    have hnew : CarriesOut x n (s.access x false a).2 :=
      carriesOut_of_forall fun b hb => ih b (by have := depth_access hb; omega)
    have hact : s.step x (.act i false) = { (s.access x false a).1 with
          calls := s.calls.set i ((s.access x false a).2 ++ rest) } := by
      change s.act x i false = _
      unfold act
      rw [hcall]
      dsimp only [singleton_append]
      rw [calls_access]
    obtain ⟨m, hm⟩ := hnew { (s.access x false a).1 with
      calls := s.calls.set i ((s.access x false a).2 ++ rest) } i rest (getElem?_set_self hi)
    refine ⟨m + 1, ?_⟩
    rw [replicate_succ, run_cons, hact, hm, foldl_carryOut_withCalls, set_set]
    rfl

theorem run_perform {i : Nat} (h : s.calls[i]? = some actions) :
    ∃ m, run (step x) s (List.replicate m (.act i false)) =
      { s.perform x actions with calls := s.calls.set i [] } := by
  have hdepth : ∀ a : KernelAction, a.depth ≤ 2 := by
    intro a
    cases a <;> simp [KernelAction.depth]
  have hcarr : CarriesOut x 2 actions :=
    carriesOut_of_forall fun a _ => carriesOut_one 2 a (hdepth a)
  exact hcarr s i [] (by rw [h, append_nil])

end Perform

/-! ## Accesses with their consequences -/

section CarryOut

variable {D : Type} {x : ExecutorExternals D} {s : LiveKernel D}

theorem carryOut_setStatus (n : Nat) (pid : Pid) (status : ProcessStatus) :
    carryOut x n s (.setStatus pid status) =
      { s with kernel := s.kernel.setStatus pid status } := by
  cases n <;> rfl

theorem carryOut_deliver (n : Nat) (sig : Signal) : carryOut x n s (.deliver sig) = s.send sig := by
  cases n <;> rfl

theorem carryOut_putSession (n : Nat) (session : SessionRecord) :
    carryOut x n s (.putSession session) = { s with kernel := s.kernel.putSession session } := by
  cases n <;> rfl

theorem carryOut_updateInvocation (n : Nat) (pid : Pid) (status : InvocationStatus) :
    carryOut x (n + 1) s (.updateInvocation pid status) =
      { s with kernel := s.kernel.updateInvocation pid status } := by
  unfold carryOut access updateInvocation
  dsimp only
  cases s.kernel.activeInvocations.lookup pid with
  | none => rfl
  | some id =>
    cases hstore : s.kernel.invocationStore with
    | none =>
      dsimp only [Option.map_none, foldl_nil]
      rw [← hstore]
    | some store =>
      dsimp only [foldl_cons, foldl_nil]
      cases n <;> (dsimp only [carryOut, access, foldl_nil]; rw [hstore])

theorem cascadeActions_eq (how : Suspension) (pid : Pid) : s.cascadeActions x how pid false =
    ((s.kernel.sessionOf x.toExternals pid).map (how.sessionActions pid)).getD [] := by
  unfold cascadeActions sessionOf
  cases s.kernel.activeSessions.lookup pid with
  | none => rfl
  | some sid =>
    cases s.kernel.sessionStore with
    | none => rfl
    | some store =>
      dsimp only
      cases x.parseUuid sid <;> rfl

theorem carryOut_cascade (how : Suspension) (pid : Pid) : carryOut x 2 s (.cascade how pid) =
    match s.kernel.sessionOf x.toExternals pid with
    | some session => (how.sessionActions pid session).foldl (carryOut x 1) s
    | none => s := by
  change (s.cascadeActions x how pid false).foldl (carryOut x 1) s = _
  rw [cascadeActions_eq]
  cases s.kernel.sessionOf x.toExternals pid <;> rfl

theorem kernel_send (sig : Signal) : (s.send sig).kernel = s.kernel := by
  unfold send
  split_ifs
  · split <;> rfl
  · rfl

theorem kernel_delivers (how : Suspension) (n : Nat) (qs : List Pid) (s : LiveKernel D) :
    ((qs.map fun q => .deliver ⟨q, how.signal, .null⟩).foldl (carryOut x n) s).kernel =
      s.kernel := by
  induction qs generalizing s with
  | nil => rfl
  | cons q qs ih =>
    rw [map_cons, foldl_cons, ih, carryOut_deliver, kernel_send]

theorem kernel_suspendAll (how : Suspension) (n : Nat) (qs : List Pid) (s : LiveKernel D) :
    ((qs.flatMap fun q => [.setStatus q how.process, .updateInvocation q how.invocation]).foldl
      (carryOut x (n + 1)) s).kernel = qs.foldl how.suspendOne s.kernel := by
  induction qs generalizing s with
  | nil => rfl
  | cons q qs ih =>
    rw [flatMap_cons, foldl_append, ih, foldl_cons, foldl_cons, foldl_nil,
      carryOut_setStatus, carryOut_updateInvocation]
    rfl

/-- What the call of a pause or resume leaves of the kernel. -/
theorem perform_suspension (how : Suspension) (pid : Pid) :
    (s.perform x (how.actions pid)).kernel = how.suspend x.toExternals s.kernel pid := by
  unfold perform actions suspend
  simp only [foldl_cons, foldl_nil]
  rw [carryOut_setStatus, carryOut_updateInvocation, carryOut_deliver, carryOut_cascade,
    kernel_send]
  change (match (how.suspendOne s.kernel pid).sessionOf x.toExternals pid with
    | some session => _
    | none => _ : LiveKernel D).kernel = _
  cases (how.suspendOne s.kernel pid).sessionOf x.toExternals pid with
  | none => exact kernel_send _
  | some session =>
    dsimp only
    unfold sessionActions
    split_ifs
    · rw [foldl_append, foldl_append, foldl_cons, foldl_nil, carryOut_putSession]
      dsimp only
      rw [kernel_suspendAll, kernel_delivers, kernel_send]
      rfl
    · exact kernel_send _

theorem run_suspension {how : Suspension} {i : Nat}
    (h : s.calls[i]? = some (how.actions pid)) :
    ∃ m, (run (step x) s (List.replicate m (.act i false))).kernel =
        how.suspend x.toExternals s.kernel pid ∧
      (run (step x) s (List.replicate m (.act i false))).calls[i]? = some [] := by
  obtain ⟨m, hm⟩ := run_perform h
  obtain ⟨hi, -⟩ := List.getElem?_eq_some_iff.mp h
  exact ⟨m, hm ▸ perform_suspension how pid, by rw [hm, getElem?_set_self hi]⟩

end CarryOut

/-! ## What a pause or resume changes -/

/-- `s'` is `s` after the entries of `statuses`, the active invocations of `invocations` and the
    sessions `sessions` have been suspended and the agents `signalled` have got a signal. -/
structure Moved {D : Type} (how : Suspension) (statuses invocations signalled : List Pid)
    (sessions : List Uuid) (s s' : LiveKernel D) : Prop where
  entry : ∀ q, s'.kernel.processTable.get q =
    if q ∈ statuses then (s.kernel.processTable.get q).map fun e => { e with status := how.process }
    else s.kernel.processTable.get q
  record : ∀ id, s'.kernel.record id =
    if ∃ q ∈ invocations, s.kernel.activeInvocations.lookup q = some id
    then (s.kernel.record id).map fun r => { r with status := how.invocation }
    else s.kernel.record id
  session : ∀ id, s'.kernel.session id =
    if id ∈ sessions then (s.kernel.session id).map (·.mark how.session) else s.kernel.session id
  executor : ∃ sent : Pid → List Signal,
    (∀ q, sent q = [] ↔ ¬(q ∈ signalled ∧ s.registered.contains q = true)) ∧
      ∀ q, s'.executors.lookup q =
        (s.executors.lookup q).map fun t => { t with signalRx := t.signalRx ++ sent q }
  tasks : s'.kernel.tasks = s.kernel.tasks
  activeInvocations : s'.kernel.activeInvocations = s.kernel.activeInvocations
  activeSessions : s'.kernel.activeSessions = s.kernel.activeSessions
  registered : s'.registered = s.registered

/-- Every session is stored under its id. -/
def SessionsKeyed {D : Type} (k : KernelState D) : Prop :=
  ∀ id session, k.session id = some session → session.id = id

section Moved

variable {D : Type} {x : ExecutorExternals D} {how : Suspension} {s t u : LiveKernel D}
  {ps ps' is is' gs gs' : List Pid} {ids ids' : List Uuid}

theorem Moved.refl (s : LiveKernel D) : Moved how [] [] [] [] s s where
  entry _ := (if_neg not_mem_nil).symm
  record _ := (if_neg (by simp)).symm
  session _ := (if_neg not_mem_nil).symm
  executor := ⟨fun _ => [], by simp, by simp⟩
  tasks := rfl
  activeInvocations := rfl
  activeSessions := rfl
  registered := rfl

theorem Moved.trans (h : Moved how ps is gs ids s t) (h' : Moved how ps' is' gs' ids' t u) :
    Moved how (ps ++ ps') (is ++ is') (gs ++ gs') (ids ++ ids') s u where
  entry q := by
    rw [h'.entry, h.entry]
    by_cases hq : q ∈ ps <;> by_cases hq' : q ∈ ps' <;> simp [hq, hq', Function.comp_def]
  record id := by
    rw [h'.record, h.record, h.activeInvocations]
    simp only [mem_append, or_and_right, exists_or]
    by_cases hq : ∃ q ∈ is, s.kernel.activeInvocations.lookup q = some id <;>
      by_cases hq' : ∃ q ∈ is', s.kernel.activeInvocations.lookup q = some id <;>
      simp only [hq, hq', if_true, if_false, or_true, or_false, Option.map_map, Function.comp_def]
  session id := by
    rw [h'.session, h.session]
    by_cases hid : id ∈ ids <;> by_cases hid' : id ∈ ids' <;>
      simp [hid, hid', Function.comp_def, SessionRecord.mark]
  executor := by
    obtain ⟨sent, hnil, hsent⟩ := h.executor
    obtain ⟨sent', hnil', hsent'⟩ := h'.executor
    refine ⟨fun q => sent q ++ sent' q, fun q => ?_, fun q => ?_⟩
    · rw [append_eq_nil_iff, hnil, hnil', h.registered, mem_append, or_and_right, not_or]
    · rw [hsent', hsent, Option.map_map]
      simp [Function.comp_def]
  tasks := h'.tasks.trans h.tasks
  activeInvocations := h'.activeInvocations.trans h.activeInvocations
  activeSessions := h'.activeSessions.trans h.activeSessions
  registered := h'.registered.trans h.registered

section

variable (how : Suspension)

theorem moved_setStatus (n : Nat) (s : LiveKernel D) (pid : Pid) :
    Moved how [pid] [] [] [] s (carryOut x n s (.setStatus pid how.process)) := by
  rw [carryOut_setStatus]
  refine ⟨fun q => ?_, fun _ => (if_neg (by simp)).symm, fun _ => (if_neg not_mem_nil).symm,
    ⟨fun _ => [], by simp, by simp⟩, rfl, rfl, rfl, rfl⟩
  simp only [mem_singleton]
  exact s.kernel.setStatus_get pid how.process q

/-- A signal gets to the executor of a registered agent and to nothing else. -/
theorem moved_send (s : LiveKernel D) (sig : Signal) :
    Moved how [] [] [sig.target] [] s (s.send sig) := by
  have hkern := kernel_send (s := s) sig
  have hregis : (s.send sig).registered = s.registered := by
    unfold send
    split_ifs
    · split <;> rfl
    · rfl
  refine ⟨fun _ => ?_, fun _ => ?_, fun _ => ?_, ?_, ?_, ?_, ?_, hregis⟩
  · rw [hkern, if_neg not_mem_nil]
  · rw [hkern, if_neg (by simp)]
  · rw [hkern, if_neg not_mem_nil]
  · refine ⟨fun q => if q = sig.target ∧ s.registered.contains q = true then [sig] else [],
      fun q => ?_, fun q => ?_⟩
    · simp only [mem_singleton]
      by_cases h : q = sig.target ∧ s.registered.contains q = true
      · rw [if_pos h]
        exact iff_of_false (cons_ne_nil _ _) (not_not.mpr h)
      · rw [if_neg h]
        exact iff_of_true rfl h
    · unfold send
      dsimp only
      by_cases hreg : s.registered.contains sig.target = true
      · rw [if_pos hreg]
        by_cases hq : q = sig.target
        · subst hq
          rw [if_pos ⟨rfl, hreg⟩]
          cases ht : s.executors.lookup sig.target with
          | none => simp [ht]
          | some t => exact AList.lookup_insert _
        · rw [if_neg fun h => hq h.1]
          cases s.executors.lookup sig.target with
          | none => simp
          | some t => simp [AList.lookup_insert_ne hq]
      · rw [if_neg hreg, if_neg]
        · simp
        · rintro ⟨rfl, h⟩
          exact hreg h
  all_goals rw [hkern]

theorem moved_deliver (n : Nat) (s : LiveKernel D) (pid : Pid) :
    Moved how [] [] [pid] [] s (carryOut x n s (.deliver ⟨pid, how.signal, .null⟩)) := by
  rw [carryOut_deliver]
  exact moved_send how s ⟨pid, how.signal, .null⟩

theorem moved_updateInvocation (n : Nat) (s : LiveKernel D) (pid : Pid) :
    Moved how [] [pid] [] [] s (carryOut x (n + 1) s (.updateInvocation pid how.invocation)) := by
  rw [carryOut_updateInvocation]
  refine ⟨fun q => ?_, fun id => ?_, fun id => ?_, ⟨fun _ => [], by simp, by simp⟩, ?_, ?_, ?_,
    rfl⟩
  all_goals unfold updateInvocation
  · rw [if_neg not_mem_nil]
    cases s.kernel.activeInvocations.lookup pid <;> rfl
  · simp only [mem_singleton, exists_eq_left]
    cases hid : s.kernel.activeInvocations.lookup pid with
    | none => exact (if_neg nofun).symm
    | some id' =>
      refine (s.kernel.record_modify false id' id _).trans ?_
      simp [eq_comm]
  · rw [if_neg not_mem_nil]
    cases s.kernel.activeInvocations.lookup pid <;> rfl
  all_goals cases s.kernel.activeInvocations.lookup pid <;> rfl

theorem moved_putSession (n : Nat) {session : SessionRecord}
    (h : s.kernel.session session.id = some session) :
    Moved how [] [] [] [session.id] s
      (carryOut x n s (.putSession (session.mark how.session))) := by
  rw [carryOut_putSession]
  refine ⟨fun _ => (if_neg not_mem_nil).symm, fun _ => (if_neg (by simp)).symm, fun id => ?_,
    ⟨fun _ => [], by simp, by simp⟩, rfl, rfl, rfl, rfl⟩
  simp only [mem_singleton]
  unfold KernelState.session at h
  unfold KernelState.putSession KernelState.session
  cases hstore : s.kernel.sessionStore with
  | none =>
    rw [hstore] at h
    cases h
  | some store =>
    rw [hstore] at h
    change store.lookup session.id = some session at h
    change (AList.insert session.id (session.mark how.session) store).lookup id = _
    split_ifs with hid
    · rw [hid, AList.lookup_insert]
      change _ = (store.lookup session.id).map _
      rw [h]
      rfl
    · rw [AList.lookup_insert_ne hid]
      rfl

/-- The agents that follow a paused or resumed one, and the session that is marked. -/
def Suspension.followers (how : Suspension) (x : Externals D) (k : KernelState D) (pid : Pid) :
    List Pid × List Uuid :=
  match k.sessionOf x pid with
  | some session =>
    if how.cascades pid session then (session.pids.filter (· ≠ pid), [session.id]) else ([], [])
  | none => ([], [])

theorem moved_delivers (n : Nat) (qs : List Pid) (s : LiveKernel D) : Moved how [] [] qs [] s
    ((qs.map fun q => .deliver ⟨q, how.signal, .null⟩).foldl (carryOut x n) s) := by
  induction qs generalizing s with
  | nil => exact .refl s
  | cons q qs ih => exact (moved_deliver how n s q).trans (ih _)

theorem moved_suspendAll (n : Nat) (qs : List Pid) (s : LiveKernel D) : Moved how qs qs [] [] s
    ((qs.flatMap fun q => [.setStatus q how.process, .updateInvocation q how.invocation]).foldl
      (carryOut x (n + 1)) s) := by
  induction qs generalizing s with
  | nil => exact .refl s
  | cons q qs ih =>
    exact ((moved_setStatus how (n + 1) s q).trans (moved_updateInvocation how n _ q)).trans (ih _)

end

theorem session_of_sessionOf {k : KernelState D} {session : SessionRecord}
    (hkeyed : SessionsKeyed k) (h : k.sessionOf x.toExternals pid = some session) :
    k.session session.id = some session := by
  unfold sessionOf at h
  split at h
  · next sid store _ hstore =>
    split at h
    · next uuid _ =>
      have hfound : k.session uuid = some session := by
        unfold KernelState.session
        rw [hstore]
        exact h
      rw [hkeyed uuid session hfound]
      exact hfound
    · cases h
  · cases h

theorem sessionOf_eq (x : Externals D) (k : KernelState D) (pid : Pid) : k.sessionOf x pid =
    (k.activeSessions.lookup pid).bind fun sid => (x.parseUuid sid).toOption.bind k.session := by
  unfold sessionOf session
  cases k.activeSessions.lookup pid with
  | none => rfl
  | some sid =>
    cases k.sessionStore with
    | none => cases x.parseUuid sid <;> simp [Except.toOption]
    | some store => cases h : x.parseUuid sid <;> simp [h, Except.toOption, SessionStore.get]

theorem Moved.keyed (h : Moved how ps is gs ids s t) (hkeyed : SessionsKeyed s.kernel) :
    SessionsKeyed t.kernel := by
  intro id session hsess
  rw [h.session] at hsess
  split_ifs at hsess
  · obtain ⟨session', hold, rfl⟩ := Option.map_eq_some_iff.mp hsess
    exact hkeyed id session' hold
  · exact hkeyed id session hsess

/-- Without a change of a session the same agents follow. -/
theorem Moved.followers_eq (h : Moved how ps is gs [] s t) (x : Externals D) (pid : Pid) :
    how.followers x t.kernel pid = how.followers x s.kernel pid := by
  have hsess : t.kernel.session = s.kernel.session :=
    funext fun id => (h.session id).trans (if_neg not_mem_nil)
  unfold followers
  rw [sessionOf_eq, sessionOf_eq, h.activeSessions, hsess]

/-- What the cascade of a pause or resume changes. -/
theorem moved_cascade (how : Suspension) (hkeyed : SessionsKeyed s.kernel) (pid : Pid) :
    Moved how (how.followers x.toExternals s.kernel pid).1
      (how.followers x.toExternals s.kernel pid).1 (how.followers x.toExternals s.kernel pid).1
      (how.followers x.toExternals s.kernel pid).2 s
      (carryOut x 2 s (.cascade how pid)) := by
  rw [carryOut_cascade]
  unfold followers
  cases hsess : s.kernel.sessionOf x.toExternals pid with
  | none => exact .refl s
  | some session =>
    unfold sessionActions
    dsimp only
    split_ifs
    · rw [foldl_append, foldl_append]
      have hoth := (moved_delivers (x := x) how 1 (session.pids.filter (· ≠ pid)) s).trans
        (moved_suspendAll (x := x) how 0 (session.pids.filter (· ≠ pid)) _)
      have hfound := session_of_sessionOf hkeyed hsess
      rw [← (hoth.session session.id).trans (if_neg (by simp))] at hfound
      have hmoved := hoth.trans (moved_putSession (x := x) how 1 hfound)
      simp only [nil_append, append_nil] at hmoved
      exact hmoved
    · exact .refl s

theorem moved_suspension (how : Suspension) (hkeyed : SessionsKeyed s.kernel) (pid : Pid) :
    Moved how (pid :: (how.followers x.toExternals s.kernel pid).1)
      (pid :: (how.followers x.toExternals s.kernel pid).1)
      (pid :: (how.followers x.toExternals s.kernel pid).1)
      (how.followers x.toExternals s.kernel pid).2 s (s.perform x (how.actions pid)) := by
  have hself := ((moved_setStatus (x := x) how 2 s pid).trans
    (moved_updateInvocation (x := x) how 1 _ pid)).trans (moved_deliver (x := x) how 2 _ pid)
  have hfoll := hself.followers_eq x.toExternals pid
  have hcasc := moved_cascade (x := x) how (hself.keyed hkeyed) pid
  rw [hfoll] at hcasc
  exact hself.trans hcasc

/-- The agents that a series of pauses or resumes gets to, and the sessions that are marked. -/
def Suspension.reach (how : Suspension) (x : ExecutorExternals D) :
    LiveKernel D → List Pid → List Pid × List Uuid
  | _, [] => ([], [])
  | s, pid :: pids =>
    let followers := how.followers x.toExternals s.kernel pid
    let rest := how.reach x (s.perform x (how.actions pid)) pids
    (pid :: followers.1 ++ rest.1, followers.2 ++ rest.2)

/-- What a series of pauses or resumes changes. -/
theorem moved_reach (how : Suspension) (pids : List Pid) (hkeyed : SessionsKeyed s.kernel) :
    Moved how (how.reach x s pids).1 (how.reach x s pids).1 (how.reach x s pids).1
      (how.reach x s pids).2 s (s.perform x (pids.flatMap how.actions)) := by
  induction pids generalizing s with
  | nil => exact .refl s
  | cons pid pids ih =>
    have hfirst := moved_suspension (x := x) how hkeyed pid
    rw [flatMap_cons, perform_append]
    exact hfirst.trans (ih (hfirst.keyed hkeyed))

end Moved

/-! ## What it changes in the kernel alone -/

/-- `k'` is `k` after the agents `qs` have been suspended. -/
structure Suspended {D : Type} (how : Suspension) (qs : List Pid) (k k' : KernelState D) :
    Prop where
  status : ∀ q, k'.status q =
    if q ∈ qs then (k.status q).map fun _ => how.process else k.status q
  record : ∀ id, k'.recordStatus id =
    if ∃ q ∈ qs, k.activeInvocations.lookup q = some id
    then (k.recordStatus id).map fun _ => how.invocation else k.recordStatus id
  invocations : k'.activeInvocations = k.activeInvocations
  sessions : k'.activeSessions = k.activeSessions

section Suspended

variable {D : Type} {x : ExecutorExternals D} {how : Suspension} {k k' : KernelState D} {pid : Pid}
  {session : SessionRecord} {qs : List Pid}

theorem Moved.suspended {gs : List Pid} {ids : List Uuid} {s t : LiveKernel D}
    (h : Moved how qs qs gs ids s t) : Suspended how qs s.kernel t.kernel := by
  refine ⟨fun q => ?_, fun id => ?_, h.activeInvocations, h.activeSessions⟩
  · unfold status
    rw [h.entry]
    split_ifs
    · rw [Option.map_map, Option.map_map]
      rfl
    · rfl
  · unfold recordStatus
    rw [h.record]
    split_ifs
    · rw [Option.map_map, Option.map_map]
      rfl
    · rfl

theorem Suspended.invocationStatus (h : Suspended how qs k k') {q : Pid} (hq : q ∈ qs) :
    k'.invocationStatus q = (k.invocationStatus q).map fun _ => how.invocation := by
  unfold KernelState.invocationStatus
  rw [h.invocations]
  cases hid : k.activeInvocations.lookup q with
  | none => rfl
  | some id => exact (h.record id).trans (if_pos ⟨q, hq, hid⟩)

/-- What `suspend` changes, with the executors that a kernel by itself does not have. -/
theorem exists_moved_suspend (x : ExecutorExternals D) (how : Suspension)
    (hkeyed : SessionsKeyed k) (pid : Pid) :
    ∃ s', s'.kernel = how.suspend x.toExternals k pid ∧
      Moved how (pid :: (how.followers x.toExternals k pid).1)
        (pid :: (how.followers x.toExternals k pid).1)
        (pid :: (how.followers x.toExternals k pid).1) (how.followers x.toExternals k pid).2
        (init k) s' :=
  ⟨(init k).perform x (how.actions pid), perform_suspension how pid,
    moved_suspension (s := init k) how hkeyed pid⟩

/-- The session follows the agent. -/
theorem suspend_of_cascades (hkeyed : SessionsKeyed k)
    (hsess : k.sessionOf x.toExternals pid = some session)
    (hfoll : how.cascades pid session = true) :
    Suspended how (pid :: session.pids.filter (· ≠ pid)) k (how.suspend x.toExternals k pid) ∧
      ∀ id, (how.suspend x.toExternals k pid).session id =
        if id = session.id then (k.session id).map (·.mark how.session) else k.session id := by
  obtain ⟨s', hkern, hmoved⟩ := exists_moved_suspend x how hkeyed pid
  unfold followers at hmoved
  rw [hsess] at hmoved
  dsimp only at hmoved
  rw [if_pos hfoll] at hmoved
  rw [← hkern]
  refine ⟨hmoved.suspended, fun id => ?_⟩
  rw [hmoved.session]
  simp only [mem_singleton]
  rfl

/-- Only the agent itself is suspended. -/
theorem suspend_of_not_cascades (hkeyed : SessionsKeyed k)
    (hsess : k.sessionOf x.toExternals pid = some session)
    (hstays : ¬ how.cascades pid session = true) :
    Suspended how [pid] k (how.suspend x.toExternals k pid) := by
  obtain ⟨s', hkern, hmoved⟩ := exists_moved_suspend x how hkeyed pid
  unfold followers at hmoved
  rw [hsess] at hmoved
  dsimp only at hmoved
  rw [if_neg hstays] at hmoved
  rw [← hkern]
  exact hmoved.suspended

end Suspended

end Avix
