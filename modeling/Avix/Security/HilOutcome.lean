/-
  SECURITY — one outcome for every human-in-the-loop request.

  `single_outcome`: in every interleaving whose steps are `Orderly`, for requests with
  distinct ids and tokens: every opened request has at most one `hil.resolved` event, its file
  then holds the outcome of that event, and a `resolve` that consumes a token finds the request
  pending with that token. A `resolve` that fails changes nothing, in every interleaving.

  `Orderly` asks of a step that
  * a `resolve` decides "approved" or "denied". Any other text is published as the outcome and
    written to the file as denied;
  * a token is consumed only for the request it was registered for. The token store does not
    know the request;
  * no token is consumed after its request has expired. `resolve` does not look whether the
    request is still pending;
  * no request expires between the consumption of its token and its removal.
  Without the third and the second see `late_or_foreign_resolve_succeeds`.
-/
import Avix.Security.HilDelivery

open Option

open AList hiding replace

open List hiding replace

namespace Avix.Security

open Lib

/-! ## The life of a request -/

inductive Phase where
  /-- The request is not in the pending map yet. -/
  | opening
  /-- It is pending; its token may not be registered yet. -/
  | waiting (registered : Bool)
  /-- A `resolve` has consumed the token, -/
  | deciding (decision : String)
  /-- written the file, -/
  | decided (decision : String)
  /-- removed the request, -/
  | removed (decision : String)
  /-- and published the decision. -/
  | resolved (decision : String)
  /-- The timeout has removed the request and written the file, -/
  | expired
  /-- and published it. -/
  | timedOut

namespace Phase

/-- The phase as a task that has taken the decision knows it. -/
def committed : Phase → List Phase
  | opening => []
  | waiting _ => []
  | ph => [ph]

def pending (r : HilRequest) : Phase → Option HilRequest
  | waiting _ => some r
  | deciding _ => some r
  | decided _ => some r
  | _ => none

/-- Whether the token is registered, and used. -/
def token : Phase → Option Bool
  | opening => none
  | waiting registered => if registered then some false else none
  | expired => some false
  | timedOut => some false
  | _ => some true

def outcomes : Phase → List String
  | resolved decision => [decision]
  | timedOut => ["timeout"]
  | _ => []

/-- The state in the file, once an outcome is written. -/
def fileState : Phase → Option HilState
  | decided decision => some (decidedState decision)
  | removed decision => some (decidedState decision)
  | resolved decision => some (decidedState decision)
  | expired => some .timeout
  | timedOut => some .timeout
  | _ => none

/-- Where `open` can be. -/
def Allows (ph : Phase) : OpenPc → Prop
  | .writeFile => ph = opening
  | .insertPending => ph = opening
  | .returned (.error _) => ph = opening
  | .registerToken => ph = waiting false
  | .publish => ph.token.isSome
  | .returned (.ok _) => ph.token.isSome

/-- With a registered token the phase may change as it likes. -/
theorem Allows.of_token {ph ph' : Phase} {pc : OpenPc} (h : ph.Allows pc)
    (hph : ph.token.isSome) (hph' : ph'.token.isSome) : ph'.Allows pc := by
  cases pc with
  | publish => exact hph'
  | returned result =>
    cases result with
    | ok u => exact hph'
    | error e =>
      rw [show ph = opening from h] at hph
      cases hph
  | registerToken =>
    rw [show ph = waiting false from h] at hph
    cases hph
  | _ =>
    rw [show ph = opening from h] at hph
    cases hph

end Phase

def ValidDecision (decision : String) : Prop := decision = "approved" ∨ decision = "denied"

/-- The decision of a phase is one of the two. -/
def Phase.Valid : Phase → Prop
  | .deciding decision => ValidDecision decision
  | .decided decision => ValidDecision decision
  | .removed decision => ValidDecision decision
  | .resolved decision => ValidDecision decision
  | _ => True

end Avix.Security

namespace Avix

open Lib Security

/-! ## What the tasks say about a request -/

def HilTask.request? : HilTask → Option HilRequest
  | .open _ req => some req
  | _ => none

def HilTask.openPc (hilId : String) : HilTask → Option OpenPc
  | .open pc req => if req.hilId = hilId then some pc else none
  | _ => none

/-- The phase a `resolve` has brought its request to. -/
def ResolvePc.phase (decision : String) : ResolvePc → Option Phase
  | .consume => none
  | .writeState => some (.deciding decision)
  | .removePending _ => some (.decided decision)
  | .publish _ => some (.removed decision)
  | .returned (.ok _) => some (.resolved decision)
  | .returned (.error _) => none

/-- The phase a timeout has brought its request to. -/
def TimeoutPc.phase : TimeoutPc → Option Phase
  | .sleeping => none
  | .sendResume _ => some .expired
  | .publish _ => some .expired
  | .finished => some .timedOut
  | .cancelled => none

def HilTask.commit (hilId : String) : HilTask → Option Phase
  | .resolve pc args => if args.hilId = hilId then pc.phase args.decision else none
  | .timeout pc h _ => if h = hilId then pc.phase else none
  | _ => none

/-- The request a task is about. -/
def HilTask.hilId : HilTask → String
  | .open _ req => req.hilId
  | .resolve _ args => args.hilId
  | .timeout _ h _ => h
  | .wait _ w => w.hilId

def HilEvent.outcome (hilId : String) : HilEvent → Option String
  | .resolved _ body => if body.hilId = hilId then some body.outcome else none
  | .request _ _ => none

namespace HilSystem

variable (s : HilSystem)

/-- The requests that were passed to `open`. -/
def requests : List HilRequest := s.tasks.filterMap HilTask.request?

def opens (hilId : String) : List OpenPc := s.tasks.filterMap (HilTask.openPc hilId)

def commits (hilId : String) : List Phase := s.tasks.filterMap (HilTask.commit hilId)

/-- The outcomes in the `hil.resolved` events of a request. -/
def outcomes (hilId : String) : List String :=
  s.manager.events.filterMap (HilEvent.outcome hilId)

variable {s} {new : List HilTask} {m' : HilManager} {β : Type} {i : Nat} {t t' : HilTask}

theorem filterMap_replace_of_eq {f : HilTask → Option β} (h : s.tasks[i]? = some t)
    (hnew : ∀ n ∈ new, f n = none) (ht : f t' = f t) :
    (s.replace i m' t' new).tasks.filterMap f = s.tasks.filterMap f := by
  rw [replace, filterMap_append, filterMap_eq_nil_iff.mpr hnew, append_nil,
    filterMap_set_of_eq h ht]

theorem filterMap_replace_of_only {f : HilTask → Option β} (h : s.tasks[i]? = some t)
    (hnew : ∀ n ∈ new, f n = none) (honly : s.tasks.filterMap f = (f t).toList) :
    (s.replace i m' t' new).tasks.filterMap f = (f t').toList := by
  rw [replace, filterMap_append, filterMap_eq_nil_iff.mpr hnew, append_nil,
    filterMap_set_of_eq_toList h honly]

end HilSystem

/-! ## What a step publishes and starts -/

theorem outcomes_publish (m : HilManager) (e : HilEvent) (id : String) :
    (m.publish e).events.filterMap (HilEvent.outcome id) =
      m.events.filterMap (HilEvent.outcome id) ++ (e.outcome id).toList := by
  rw [HilManager.publish, filterMap_append]
  cases h : e.outcome id <;> simp [h]

theorem resolvedEvent_outcome (hilId outcome resolvedBy : String) (dest : Recipient)
    (now : DateTime) (id : String) :
    (resolvedEvent hilId outcome resolvedBy dest now).outcome id =
      if hilId = id then some outcome else none := rfl

section Takes

variable {m m' : HilManager} {now : DateTime} {t t' : HilTask} {new : List HilTask} {id : String}

/-- A step publishes at most an outcome of its own request. -/
theorem Takes.outcomes_of_ne (ht : Takes m now t m' t' new) (hne : t.hilId ≠ id) :
    m'.events.filterMap (HilEvent.outcome id) = m.events.filterMap (HilEvent.outcome id) := by
  have hother : ∀ {hilId outcome resolvedBy dest}, hilId ≠ id →
      (m.publish (resolvedEvent hilId outcome resolvedBy dest now)).events.filterMap
        (HilEvent.outcome id) = m.events.filterMap (HilEvent.outcome id) := by
    intro hilId outcome resolvedBy dest h
    rw [outcomes_publish, resolvedEvent_outcome, if_neg h]
    exact append_nil _
  cases ht with
  | openPublishes => exact (outcomes_publish _ _ _).trans (append_nil _)
  | resolves | timesOut => exact hother hne
  | _ => rfl

/-- A started task is a sleeping timeout, which says nothing yet. -/
theorem Takes.started (h : Takes m now t m' t' new) {n : HilTask} (hn : n ∈ new) :
    n.request? = none ∧ ∀ id, n.openPc id = none ∧ n.commit id = none := by
  cases h with
  | openPublishes =>
    rw [mem_singleton.mp hn]
    refine ⟨rfl, fun id => ⟨rfl, ?_⟩⟩
    rw [HilTask.commit, TimeoutPc.phase, ite_self]
  | _ => cases hn

/-- A step does not change which request is opened. -/
theorem Takes.request? (h : Takes m now t m' t' new) : t'.request? = t.request? := by
  cases h <;> rfl

theorem HilTask.openPc_of_ne (h : t.hilId ≠ id) : t.openPc id = none := by
  cases t with
  | «open» pc req => exact if_neg h
  | _ => rfl

theorem HilTask.commit_of_ne (h : t.hilId ≠ id) : t.commit id = none := by
  cases t with
  | resolve pc args | timeout pc hilId pid => exact if_neg h
  | _ => rfl

theorem Takes.hilId (h : Takes m now t m' t' new) : t'.hilId = t.hilId := by
  cases h <;> rfl

namespace HilSystem

variable {s : HilSystem} {i : Nat}

/-- The phases that the tasks know, if no other task than the one that steps knows any. -/
theorem commits_replace (htask : s.tasks[i]? = some t) (ht : Takes s.manager now t m' t' new)
    {id : String} (honly : s.commits id = (t.commit id).toList) :
    (s.replace i m' t' new).commits id = (t'.commit id).toList :=
  filterMap_replace_of_only htask (fun _ hn => ((ht.started hn).2 id).2) honly

theorem requests_replace (htask : s.tasks[i]? = some t) (ht : Takes s.manager now t m' t' new) :
    (s.replace i m' t' new).requests = s.requests :=
  filterMap_replace_of_eq htask (fun _ hn => (ht.started hn).1) ht.request?

theorem mem_requests {pc : OpenPc} {req : HilRequest} (h : s.tasks[i]? = some (.open pc req)) :
    req ∈ s.requests :=
  mem_filterMap.mpr ⟨_, mem_of_getElem? h, rfl⟩

end HilSystem

end Takes

end Avix

namespace Avix.Security

open Lib

/-! ## Phases and states -/

/-- `open` has written the file of the request. -/
def Wrote : OpenPc → Prop
  | .writeFile => False
  | .returned (.error _) => False
  | _ => True

/-- One call has opened the request, and is where the phase allows it to be. -/
def Opened (s : HilSystem) (r : HilRequest) (ph : Phase) : Prop :=
  ∃ pc, s.opens r.hilId = [pc] ∧ ph.Allows pc ∧
    (Wrote pc → ∃ path, VfsPath.parse r.vfsPath = .ok path)

/-- What the phase of a request means. -/
structure InPhase (s : HilSystem) (r : HilRequest) (ph : Phase) : Prop where
  opened : Opened s r ph
  commits : s.commits r.hilId = ph.committed
  pending : s.manager.pending.lookup r.hilId = ph.pending r
  token : s.manager.approvalStore.lookup r.approvalToken = ph.token
  outcomes : s.outcomes r.hilId = ph.outcomes
  file : ∀ state, ph.fileState = some state → s.manager.vfs.lookup r.vfsPath = some { r with state }
  valid : ph.Valid

/-- Two states that agree on everything a phase is about. -/
structure SameView (s s' : HilSystem) (r : HilRequest) : Prop where
  opens : s'.opens r.hilId = s.opens r.hilId
  commits : s'.commits r.hilId = s.commits r.hilId
  pending : s'.manager.pending.lookup r.hilId = s.manager.pending.lookup r.hilId
  token : s'.manager.approvalStore.lookup r.approvalToken =
    s.manager.approvalStore.lookup r.approvalToken
  outcomes : s'.outcomes r.hilId = s.outcomes r.hilId
  file : s'.manager.vfs.lookup r.vfsPath = s.manager.vfs.lookup r.vfsPath

variable {r : HilRequest} {s : HilSystem} {now : DateTime} {ph : Phase}

theorem InPhase.of_sameView {s' : HilSystem} (h : InPhase s r ph) (hv : SameView s s' r) :
    InPhase s' r ph where
  opened := by
    rw [Opened, hv.opens]
    exact h.opened
  commits := hv.commits.trans h.commits
  pending := hv.pending.trans h.pending
  token := hv.token.trans h.token
  outcomes := hv.outcomes.trans h.outcomes
  file state hstate := hv.file.trans (h.file state hstate)
  valid := h.valid

open HilSystem

/-- A step about one request does not touch another. -/
theorem sameView_of_ne {i : Nat} {t t' : HilTask} {m' : HilManager} {new : List HilTask}
    (htask : s.tasks[i]? = some t) (ht : Takes s.manager now t m' t' new) (hne : t.hilId ≠ r.hilId)
    (hpend : ∀ r', s.manager.pending.lookup t.hilId = some r' → r'.hilId = t.hilId)
    (htoken : m'.approvalStore.lookup r.approvalToken =
      s.manager.approvalStore.lookup r.approvalToken) : SameView s (s.replace i m' t' new) r where
  opens := filterMap_replace_of_eq htask (fun n hn => ((ht.started hn).2 _).1) (by
    rw [HilTask.openPc_of_ne hne, HilTask.openPc_of_ne (ht.hilId ▸ hne)])
  commits := filterMap_replace_of_eq htask (fun n hn => ((ht.started hn).2 _).2) (by
    rw [HilTask.commit_of_ne hne, HilTask.commit_of_ne (ht.hilId ▸ hne)])
  pending := by
    have hne' := hne.symm
    cases ht with
    | openInserts => exact lookup_insert_ne hne'
    | removes | expires h => exact lookup_erase_ne hne'
    | _ => rfl
  token := htoken
  outcomes := ht.outcomes_of_ne hne
  file := by
    have hpath : ∀ r' : HilRequest, r'.hilId = t.hilId → r.vfsPath ≠ r'.vfsPath := by
      intro r' hr' heq
      exact hne (hr' ▸ (HilRequest.hilId_eq_of_vfsPath_eq heq).symm)
    cases ht with
    | openWrites h => exact lookup_insert_ne (hpath _ rfl)
    | @decides args req vfs h hvfs =>
      rw [replace, ← hvfs]
      exact (HilManager.writeFile_frame _ _).2 _
        (hpath { req with state := decidedState args.decision } (hpend req h))
    | @expires hilId pid req vfs h hvfs =>
      rw [replace, ← hvfs]
      exact (HilManager.writeFile_frame _ _).2 _
        (hpath { req with state := .timeout } (hpend req h))
    | _ => rfl

/-! ## Steps about the request itself -/

/-- The first outcome of a request. -/
theorem outcomes_resolved {m : HilManager} {id hilId outcome resolvedBy : String} {dest : Recipient}
    (hid : hilId = id) (h : m.events.filterMap (HilEvent.outcome id) = []) :
    (m.publish (resolvedEvent hilId outcome resolvedBy dest now)).events.filterMap
      (HilEvent.outcome id) = [outcome] := by
  rw [outcomes_publish, h, resolvedEvent_outcome, if_pos hid]
  rfl

section Own

variable {s : HilSystem} {i : Nat} {now : DateTime} {r : HilRequest} {ph : Phase} {m' : HilManager}
  {t t' : HilTask} {new : List HilTask} {pc : OpenPc} {ph' : Phase}

/-- The task that opens the request is where the phase says. -/
theorem InPhase.open_pc (h : InPhase s r ph) (htask : s.tasks[i]? = some (.open pc r)) :
    s.opens r.hilId = [pc] ∧ ph.Allows pc ∧
      (Wrote pc → ∃ path, VfsPath.parse r.vfsPath = .ok path) := by
  obtain ⟨pc', hopens, hall, hpath⟩ := h.opened
  have hmem : pc ∈ s.opens r.hilId :=
    mem_filterMap.mpr ⟨_, mem_of_getElem? htask, if_pos rfl⟩
  rw [hopens, mem_singleton] at hmem
  subst hmem
  exact ⟨hopens, hall, hpath⟩

/-- A task that has taken the decision knows the phase, and is the only one. -/
theorem InPhase.commit_eq (h : InPhase s r ph) (htask : s.tasks[i]? = some t)
    (hcomm : t.commit r.hilId = some ph') :
    ph' = ph ∧ s.commits r.hilId = (t.commit r.hilId).toList := by
  have hmem : ph' ∈ s.commits r.hilId :=
    mem_filterMap.mpr ⟨t, mem_of_getElem? htask, hcomm⟩
  rw [h.commits] at hmem
  have hph : ph.committed = [ph] := by
    cases ph <;> first | rfl | cases hmem
  rw [hph, mem_singleton] at hmem
  subst hmem
  exact ⟨rfl, by rw [h.commits, hph, hcomm, toList_some]⟩

theorem inPhase_open (h : InPhase s r ph) (htask : s.tasks[i]? = some (.open pc r))
    (ht : Takes s.manager now (.open pc r) m' t' new) :
    ∃ ph', InPhase (s.replace i m' t' new) r ph' := by
  obtain ⟨hopens, hall, hpath⟩ := h.open_pc htask
  have hcomm : (s.replace i m' t' new).commits r.hilId = s.commits r.hilId :=
    filterMap_replace_of_eq htask (fun n hn => ((ht.started hn).2 _).2) (by
      cases ht <;> rfl)
  have honly : s.opens r.hilId = (HilTask.openPc r.hilId (.open pc r)).toList := by
    rw [hopens, HilTask.openPc, if_pos rfl, toList_some]
  have hopens' : ∀ {pc'}, t' = .open pc' r → (s.replace i m' t' new).opens r.hilId = [pc'] := by
    rintro pc' rfl
    refine (filterMap_replace_of_only htask
      (fun n hn => ((ht.started hn).2 r.hilId).1) honly).trans ?_
    rw [HilTask.openPc, if_pos rfl, toList_some]
  cases ht with
  | @openFails req e hparse =>
    obtain rfl : ph = .opening := hall
    exact ⟨.opening, ⟨.returned (.error e), hopens' rfl, rfl, nofun⟩,
      hcomm.trans h.commits, h.pending, h.token, h.outcomes, nofun, trivial⟩
  | openWrites hparse =>
    obtain rfl : ph = .opening := hall
    exact ⟨.opening, ⟨.insertPending, hopens' rfl, rfl, fun _ => ⟨_, hparse⟩⟩,
      hcomm.trans h.commits, h.pending, h.token, h.outcomes, nofun, trivial⟩
  | openInserts =>
    obtain rfl : ph = .opening := hall
    exact ⟨.waiting false, ⟨.registerToken, hopens' rfl, rfl, fun _ => hpath trivial⟩,
      hcomm.trans h.commits, lookup_insert _, h.token, h.outcomes, nofun, trivial⟩
  | openRegisters =>
    obtain rfl : ph = .waiting false := hall
    refine ⟨.waiting true, ⟨.publish, hopens' rfl, rfl, fun _ => hpath trivial⟩,
      hcomm.trans h.commits, h.pending, ?_, h.outcomes, nofun, trivial⟩
    refine (ApprovalTokenStore.lookup_register _ _ _).trans ?_
    rw [if_pos rfl, h.token]
    rfl
  | openPublishes =>
    refine ⟨ph, ⟨.returned (.ok ()), hopens' rfl, hall, fun _ => hpath trivial⟩,
      hcomm.trans h.commits, h.pending, h.token, ?_, h.file, h.valid⟩
    exact (outcomes_publish _ _ _).trans ((append_nil _).trans h.outcomes)
  | rests =>
    exact ⟨ph, ⟨pc, hopens' rfl, hall, hpath⟩, hcomm.trans h.commits, h.pending, h.token,
      h.outcomes, h.file, h.valid⟩

/-- A step that neither opens the request nor takes or carries a decision on it. -/
theorem InPhase.of_quiet (h : InPhase s r ph) (htask : s.tasks[i]? = some t)
    (hopen : t'.openPc r.hilId = t.openPc r.hilId)
    (hcomm : t'.commit r.hilId = t.commit r.hilId) (hpend : m'.pending = s.manager.pending)
    (hstore : m'.approvalStore = s.manager.approvalStore) (heven : m'.events = s.manager.events)
    (hvfs : m'.vfs = s.manager.vfs) : InPhase (s.replace i m' t' []) r ph := by
  refine h.of_sameView ⟨filterMap_replace_of_eq htask (by simp) hopen,
    filterMap_replace_of_eq htask (by simp) hcomm, ?_, ?_, ?_, ?_⟩
  · exact congrArg (AList.lookup r.hilId) hpend
  · exact congrArg (AList.lookup r.approvalToken) hstore
  · exact congrArg (filterMap (HilEvent.outcome r.hilId)) heven
  · exact congrArg (AList.lookup r.vfsPath) hvfs

/-- A step that does not open the request, once its token is registered. -/
theorem Opened.replace (h : Opened s r ph) (htask : s.tasks[i]? = some t)
    (ht : Takes s.manager now t m' t' new) (hopen : t'.openPc r.hilId = t.openPc r.hilId)
    (hph : ph.token.isSome) (hph' : ph'.token.isSome) : Opened (s.replace i m' t' new) r ph' := by
  have hsame : (s.replace i m' t' new).opens r.hilId = s.opens r.hilId :=
    filterMap_replace_of_eq htask (fun n hn => ((ht.started hn).2 _).1) hopen
  obtain ⟨pc, hopens, hall, hpath⟩ := h
  exact ⟨pc, hsame.trans hopens, hall.of_token hph hph', hpath⟩

/-- Once the token is registered, `open` has written the file. -/
theorem InPhase.path (h : InPhase s r ph) (htoken : ph.token.isSome) :
    ∃ path, VfsPath.parse r.vfsPath = .ok path := by
  obtain ⟨pc, -, hall, hpath⟩ := h.opened
  have hwait : (Phase.waiting true).Allows pc := hall.of_token htoken rfl
  refine hpath ?_
  cases pc with
  | returned result =>
    cases result with
    | ok u => trivial
    | error e => cases hwait
  | writeFile => cases hwait
  | _ => trivial

theorem InPhase.eq_waiting (h : InPhase s r ph) (h' : InPhase s r (.waiting true)) :
    ph = .waiting true := by
  have hcomm : ph.committed = [] := h.commits.symm.trans h'.commits
  have htoken : ph.token = some false := h.token.symm.trans h'.token
  cases ph with
  | opening => cases htoken
  | waiting registered =>
    cases registered with
    | true => rfl
    | false => cases htoken
  | _ => cases hcomm

theorem inPhase_resolve {pc : ResolvePc} {args : ResolveArgs} (h : InPhase s r ph)
    (htask : s.tasks[i]? = some (.resolve pc args))
    (hid : args.hilId = r.hilId) (hvalid : ValidDecision args.decision)
    (hcons : pc = .consume → s.manager.approvalStore.lookup args.approvalToken = some false →
      ph = .waiting true ∧ args.approvalToken = r.approvalToken)
    (ht : Takes s.manager now (.resolve pc args) m' t' new) :
    ∃ ph', InPhase (s.replace i m' t' new) r ph' := by
  have hopen : ∀ {ph' : Phase}, ph.token.isSome → ph'.token.isSome →
      Opened (s.replace i m' t' new) r ph' :=
    h.opened.replace htask ht (by cases ht <;> rfl)
  have hphase : ∀ {pc : ResolvePc}, HilTask.commit r.hilId (.resolve pc args) =
      pc.phase args.decision := if_pos hid
  have hcomm : s.commits r.hilId = (HilTask.commit r.hilId (.resolve pc args)).toList →
      ∀ {pc'}, t' = .resolve pc' args →
        (s.replace i m' t' new).commits r.hilId = (pc'.phase args.decision).toList := by
    rintro honly pc' rfl
    rw [commits_replace htask ht honly, hphase]
  cases ht with
  | consumeFails hfail =>
    exact ⟨ph, h.of_quiet htask rfl (by rw [hphase, hphase]; rfl) rfl rfl rfl rfl⟩
  | consumes hunus =>
    obtain ⟨rfl, htoken⟩ := hcons rfl hunus
    refine ⟨.deciding args.decision, hopen rfl rfl, hcomm ?_ rfl, h.pending, ?_, h.outcomes,
      nofun, hvalid⟩
    · rw [h.commits, hphase]
      rfl
    · rw [← htoken]
      exact lookup_insert _
  | @decides _ req vfs hpend hvfs =>
    obtain ⟨rfl, honly⟩ := h.commit_eq htask hphase
    rw [hid, h.pending] at hpend
    obtain rfl : r = req := some.inj hpend
    obtain ⟨path, hpath⟩ := h.path rfl
    rw [HilManager.writeFile_state _ hpath] at hvfs
    refine ⟨.decided args.decision, hopen rfl rfl, hcomm honly rfl, h.pending, h.token,
      h.outcomes, ?_, hvalid⟩
    intro state hstate
    rw [replace, ← hvfs, ← some.inj hstate]
    exact lookup_insert _
  | decidesNothing hnone =>
    obtain ⟨rfl, -⟩ := h.commit_eq htask hphase
    rw [hid, h.pending] at hnone
    cases hnone
  | removes =>
    obtain ⟨rfl, honly⟩ := h.commit_eq htask hphase
    refine ⟨.removed args.decision, hopen rfl rfl, hcomm honly rfl, ?_, h.token, h.outcomes,
      h.file, hvalid⟩
    rw [← hid]
    exact lookup_erase _ _
  | resolves =>
    obtain ⟨rfl, honly⟩ := h.commit_eq htask hphase
    refine ⟨.resolved args.decision, hopen rfl rfl, hcomm honly rfl, h.pending, h.token, ?_,
      h.file, hvalid⟩
    exact outcomes_resolved hid h.outcomes
  | rests => exact ⟨ph, h.of_quiet htask rfl rfl rfl rfl rfl rfl⟩

theorem inPhase_timeout {pc : TimeoutPc} {hilId : String} {pid : Pid} (h : InPhase s r ph)
    (htask : s.tasks[i]? = some (.timeout pc hilId pid)) (hid : hilId = r.hilId)
    (hexp : pc = .sleeping → ph.pending r = some r → ph = .waiting true)
    (ht : Takes s.manager now (.timeout pc hilId pid) m' t' new) :
    ∃ ph', InPhase (s.replace i m' t' new) r ph' := by
  subst hid
  have hopen : ∀ {ph' : Phase}, ph.token.isSome → ph'.token.isSome →
      Opened (s.replace i m' t' new) r ph' :=
    h.opened.replace htask ht (by cases ht <;> rfl)
  have hphase : ∀ {pc : TimeoutPc}, HilTask.commit r.hilId (.timeout pc r.hilId pid) = pc.phase :=
    if_pos rfl
  have hcomm : s.commits r.hilId = (HilTask.commit r.hilId (.timeout pc r.hilId pid)).toList →
      ∀ {pc'}, t' = .timeout pc' r.hilId pid →
        (s.replace i m' t' new).commits r.hilId = pc'.phase.toList := by
    rintro honly pc' rfl
    rw [commits_replace htask ht honly, hphase]
  cases ht with
  | @expires _ _ req vfs hpend hvfs =>
    rw [h.pending] at hpend
    have hreq : ph.pending r = some r := by
      cases ph <;> first | exact hpend | rfl | cases hpend
    obtain rfl : r = req := some.inj (hreq.symm.trans hpend)
    obtain rfl := hexp rfl hreq
    obtain ⟨path, hpath⟩ := h.path rfl
    rw [HilManager.writeFile_state _ hpath] at hvfs
    have hnone : s.commits r.hilId =
        (HilTask.commit r.hilId (.timeout .sleeping r.hilId pid)).toList := by
      rw [h.commits, hphase]
      rfl
    refine ⟨.expired, hopen rfl rfl, hcomm hnone rfl, lookup_erase _ _, h.token,
      h.outcomes, ?_, trivial⟩
    intro state hstate
    rw [replace, ← hvfs, ← some.inj hstate]
    exact lookup_insert _
  | cancels hnone | sendsResume =>
    exact ⟨ph, h.of_quiet htask rfl (by rw [hphase, hphase]; rfl) rfl rfl rfl rfl⟩
  | timesOut =>
    obtain ⟨rfl, honly⟩ := h.commit_eq htask hphase
    exact ⟨.timedOut, hopen rfl rfl, hcomm honly rfl, h.pending, h.token,
      outcomes_resolved rfl h.outcomes, h.file, trivial⟩
  | rests => exact ⟨ph, h.of_quiet htask rfl rfl rfl rfl rfl rfl⟩

end Own

/-! ## Whole runs -/

/-- A timeout has taken the request. -/
def Expired (s : HilSystem) (hilId : String) : Prop :=
  .expired ∈ s.commits hilId ∨ .timedOut ∈ s.commits hilId

/-- A `resolve` has consumed the token of the request and not yet removed it. -/
def Deciding (s : HilSystem) (hilId : String) : Prop :=
  ∃ decision, .deciding decision ∈ s.commits hilId ∨ .decided decision ∈ s.commits hilId

/-- What is asked of a step, in the state it starts from. -/
def Orderly (s : HilSystem) : HilInput → Prop
  | .call (.open req) =>
    ∀ r ∈ s.requests, r.hilId ≠ req.hilId ∧ r.approvalToken ≠ req.approvalToken
  | .call (.resolve args) => ValidDecision args.decision
  | .call (.wait _) => True
  | .expire _ => True
  | .step i _ =>
    match s.tasks[i]? with
    | some (.resolve .consume args) =>
      -- a step that consumes no token is not restricted
      s.manager.approvalStore.lookup args.approvalToken = some false →
        (∀ r ∈ s.requests, r.approvalToken = args.approvalToken → r.hilId = args.hilId) ∧
          ¬ Expired s args.hilId
    | some (.timeout .sleeping hilId _) => ¬ Deciding s hilId
    | _ => True

/-- Every request is in a phase, and nothing is known about requests that were not opened. -/
structure Consistent (s : HilSystem) : Prop where
  ids : ∀ r ∈ s.requests, ∀ r' ∈ s.requests, r.hilId = r'.hilId → r = r'
  tokens : ∀ r ∈ s.requests, ∀ r' ∈ s.requests, r.approvalToken = r'.approvalToken → r = r'
  phases : ∀ r ∈ s.requests, ∃ ph, InPhase s r ph
  pending : ∀ id r, s.manager.pending.lookup id = some r → r ∈ s.requests ∧ r.hilId = id
  unopened : ∀ id, (∀ r ∈ s.requests, r.hilId ≠ id) → s.commits id = [] ∧ s.outcomes id = []
  unregistered : ∀ token, (∀ r ∈ s.requests, r.approvalToken ≠ token) →
    s.manager.approvalStore.lookup token = none
  decisions : ∀ pc args, .resolve pc args ∈ s.tasks → ValidDecision args.decision
  timeouts : ∀ pc id pid, .timeout pc id pid ∈ s.tasks →
    ∃ r, .open (.returned (.ok ())) r ∈ s.tasks ∧ r.hilId = id

section Step

variable {s : HilSystem} {i : Nat} {now : DateTime} {t t' : HilTask} {m' : HilManager}
  {new : List HilTask}

theorem Consistent.waiting (h : Consistent s) {args : ResolveArgs}
    (htask : s.tasks[i]? = some (.resolve .consume args)) (hg : Orderly s (.step i now))
    (hunus : s.manager.approvalStore.lookup args.approvalToken = some false) :
    ∃ r ∈ s.requests, r.approvalToken = args.approvalToken ∧ r.hilId = args.hilId ∧
      InPhase s r (.waiting true) := by
  simp only [Orderly, htask] at hg
  obtain ⟨hown, hlive⟩ := hg hunus
  have hopen : ∃ r ∈ s.requests, r.approvalToken = args.approvalToken := by
    by_contra hnone
    push Not at hnone
    rw [h.unregistered _ hnone] at hunus
    cases hunus
  obtain ⟨r, hr, htoken⟩ := hopen
  have hid := hown r hr htoken
  obtain ⟨ph, hph⟩ := h.phases r hr
  rw [← htoken, hph.token] at hunus
  rw [← hid, Expired, hph.commits] at hlive
  refine ⟨r, hr, htoken, hid, ?_⟩
  cases ph with
  | waiting registered =>
    cases registered with
    | true => exact hph
    | false => cases hunus
  | expired => exact absurd (.inl (mem_singleton.mpr rfl)) hlive
  | timedOut => exact absurd (.inr (mem_singleton.mpr rfl)) hlive
  | _ => cases hunus

variable {r : HilRequest} {id : String}

/-- A timeout finds a request that waits for a decision, if the step is orderly. -/
theorem Consistent.waiting_of_timeout (h : Consistent s) {hilId : String} {pid : Pid}
    (htask : s.tasks[i]? = some (.timeout .sleeping hilId pid)) (hg : Orderly s (.step i now))
    (hid : hilId = r.hilId) {ph : Phase} (hph : InPhase s r ph) (hpend : ph.pending r = some r) :
    ph = .waiting true := by
  simp only [Orderly, htask] at hg
  rw [hid, Deciding, hph.commits] at hg
  cases ph with
  | waiting registered =>
    cases registered with
    | true => rfl
    | false =>
      -- the timeout was started after the token was registered
      obtain ⟨r', hr', hid'⟩ := h.timeouts _ _ _ (mem_of_getElem? htask)
      obtain ⟨pc, hopens, hall, -⟩ := hph.opened
      have hmem : OpenPc.returned (.ok ()) ∈ s.opens r.hilId :=
        mem_filterMap.mpr ⟨_, hr', if_pos (hid'.trans hid)⟩
      rw [hopens, mem_singleton] at hmem
      rw [← hmem] at hall
      cases hall
  | deciding decision => exact absurd ⟨decision, .inl (mem_singleton.mpr rfl)⟩ hg
  | decided decision => exact absurd ⟨decision, .inr (mem_singleton.mpr rfl)⟩ hg
  | _ => cases hpend

/-- A call that has returned stays. -/
theorem returned_mem_replace (htask : s.tasks[i]? = some t) (ht : Takes s.manager now t m' t' new)
    {result : Except AvixError Unit} (h : .open (.returned result) r ∈ s.tasks) :
    .open (.returned result) r ∈ (s.replace i m' t' new).tasks := by
  obtain ⟨l₁, l₂, hl, hset⟩ := exists_split_of_getElem? htask
  rw [replace, hset]
  refine mem_append_left _ ?_
  rw [hl] at h
  rcases mem_append.mp h with h₁ | h₂
  · exact mem_append_left _ h₁
  rcases mem_cons.mp h₂ with rfl | h₂
  · cases ht
    exact mem_append_right _ mem_cons_self
  · exact mem_append_right _ (mem_cons_of_mem _ h₂)

section Replace

variable (h : Consistent s) (htask : s.tasks[i]? = some t) (ht : Takes s.manager now t m' t' new)

include h htask ht

/-- An orderly step about one request uses no token of another. -/
theorem Consistent.token_of_ne (hg : Orderly s (.step i now)) (hr : r ∈ s.requests)
    (hid : t.hilId ≠ r.hilId) : m'.approvalStore.lookup r.approvalToken =
      s.manager.approvalStore.lookup r.approvalToken := by
  cases ht with
  | @openRegisters req =>
    refine (ApprovalTokenStore.lookup_register _ _ _).trans (if_neg fun htoken => hid ?_)
    exact congrArg HilRequest.hilId (h.tokens req (mem_requests htask) r hr htoken.symm)
  | @consumes args hunus =>
    simp only [Orderly, htask] at hg
    exact lookup_insert_ne fun htoken => hid ((hg hunus).1 r hr htoken).symm
  | _ => rfl

/-- The phase of every request after an orderly step. -/
theorem Consistent.phases_replace (hg : Orderly s (.step i now)) (hr : r ∈ s.requests) :
    ∃ ph, InPhase (s.replace i m' t' new) r ph := by
  obtain ⟨ph, hph⟩ := h.phases r hr
  by_cases hid : t.hilId = r.hilId
  · cases t with
    | «open» pc req =>
      obtain rfl := h.ids req (mem_requests htask) r hr hid
      exact inPhase_open hph htask ht
    | resolve pc args =>
      refine inPhase_resolve hph htask hid (h.decisions _ _ (mem_of_getElem? htask)) ?_ ht
      rintro rfl hunus
      obtain ⟨r', hr', htoken, hid', hph'⟩ := h.waiting htask hg hunus
      obtain rfl := h.ids r' hr' r hr (hid'.trans hid)
      exact ⟨hph.eq_waiting hph', htoken.symm⟩
    | timeout pc hilId pid =>
      refine inPhase_timeout hph htask hid ?_ ht
      rintro rfl hpend
      exact h.waiting_of_timeout htask hg hid hph hpend
    | wait pc w => cases ht <;> exact ⟨ph, hph.of_quiet htask rfl rfl rfl rfl rfl rfl⟩
  · refine ⟨ph, hph.of_sameView (sameView_of_ne htask ht hid ?_ ?_)⟩
    · exact fun r' hr' => (h.pending _ r' hr').2
    · exact h.token_of_ne htask ht hg hr hid

theorem Consistent.pending_replace (hr : m'.pending.lookup id = some r) :
    r ∈ s.requests ∧ r.hilId = id := by
  have herase : ∀ key, (s.manager.pending.erase key).lookup id = some r →
      r ∈ s.requests ∧ r.hilId = id := by
    intro key hkey
    by_cases heq : id = key
    · rw [heq, lookup_erase] at hkey
      cases hkey
    · rw [lookup_erase_ne heq] at hkey
      exact h.pending id r hkey
  cases ht with
  | @openInserts req =>
    by_cases heq : id = req.hilId
    · have hreq : (s.manager.pending.insert req.hilId req).lookup req.hilId = some req :=
        lookup_insert _
      rw [heq] at hr
      obtain rfl := some.inj (hreq.symm.trans hr)
      exact ⟨mem_requests htask, heq.symm⟩
    · exact h.pending id r ((lookup_insert_ne heq).symm.trans hr)
  | removes | expires hpend => exact herase _ hr
  | _ => exact h.pending id r hr

theorem Consistent.unregistered_replace {token : String}
    (hno : ∀ r ∈ s.requests, r.approvalToken ≠ token) : m'.approvalStore.lookup token = none := by
  have hold := h.unregistered token hno
  cases ht with
  | @openRegisters req =>
    have hreq : req ∈ s.requests := mem_requests htask
    exact (ApprovalTokenStore.lookup_register _ _ _).trans ((if_neg (hno req hreq).symm).trans hold)
  | @consumes args hunus =>
    have hne : token ≠ args.approvalToken := by
      rintro rfl
      rw [hold] at hunus
      cases hunus
    exact (lookup_insert_ne hne).trans hold
  | _ => exact hold

theorem Consistent.unopened_replace (hg : Orderly s (.step i now))
    (hno : ∀ r ∈ s.requests, r.hilId ≠ id) :
    (s.replace i m' t' new).commits id = [] ∧ (s.replace i m' t' new).outcomes id = [] := by
  obtain ⟨hcomm, houtc⟩ := h.unopened id hno
  have hquiet : t'.commit id = t.commit id ∧ m'.events.filterMap (HilEvent.outcome id) =
        s.manager.events.filterMap (HilEvent.outcome id) := by
    by_cases hid : t.hilId = id
    · have hnone : t.commit id = none :=
        filterMap_eq_nil_iff.mp hcomm t (mem_of_getElem? htask)
      subst hid
      cases ht with
      | @consumes args hunus =>
        obtain ⟨r, hr, -, hid, -⟩ := h.waiting htask hg hunus
        exact absurd hid (hno r hr)
      | @expires hilId pid req vfs hpend hvfs =>
        obtain ⟨hreq, hid⟩ := h.pending hilId req hpend
        exact absurd hid (hno req hreq)
      | @openPublishes req =>
        exact absurd rfl (hno req (mem_requests htask))
      | consumeFails hfail => exact ⟨by simp [HilTask.commit, ResolvePc.phase], rfl⟩
      | cancels hpend => exact ⟨by simp [HilTask.commit, TimeoutPc.phase], rfl⟩
      | decides hpend | decidesNothing hpend | removes | resolves =>
        simp [HilTask.commit, HilTask.hilId, ResolvePc.phase] at hnone
      | sendsResume | timesOut => simp [HilTask.commit, HilTask.hilId, TimeoutPc.phase] at hnone
      | _ => exact ⟨rfl, rfl⟩
    · rw [HilTask.commit_of_ne hid, HilTask.commit_of_ne (ht.hilId ▸ hid)]
      exact ⟨rfl, ht.outcomes_of_ne hid⟩
  refine ⟨?_, hquiet.2.trans houtc⟩
  exact (filterMap_replace_of_eq htask (fun n hn => ((ht.started hn).2 id).2)
    hquiet.1).trans hcomm

theorem consistent_replace (hg : Orderly s (.step i now)) : Consistent (s.replace i m' t' new) := by
  have hreq := requests_replace htask ht
  refine ⟨?_, ?_, ?_, ?_, ?_, ?_, ?_, ?_⟩
  · rw [hreq]
    exact h.ids
  · rw [hreq]
    exact h.tokens
  · rw [hreq]
    exact fun r hr => h.phases_replace htask ht hg hr
  · rw [hreq]
    exact fun id r hr => h.pending_replace htask ht hr
  · rw [hreq]
    exact fun id hno => h.unopened_replace htask ht hg hno
  · rw [hreq]
    exact fun token hno => h.unregistered_replace htask ht hno
  · intro pc args hmem
    rcases mem_replace hmem with hold | rfl | hnew
    · exact h.decisions pc args hold
    · have hbef : ∃ pc', t = .resolve pc' args := by
        cases ht <;> exact ⟨_, rfl⟩
      obtain ⟨pc', rfl⟩ := hbef
      exact h.decisions pc' args (mem_of_getElem? htask)
    · cases ht <;> simp at hnew
  · intro pc id pid hmem
    have hold : ∀ pc', .timeout pc' id pid ∈ s.tasks →
        ∃ r, .open (.returned (.ok ())) r ∈ (s.replace i m' t' new).tasks ∧ r.hilId = id := by
      intro pc' hmem'
      obtain ⟨r, hr, hid⟩ := h.timeouts pc' id pid hmem'
      exact ⟨r, returned_mem_replace htask ht hr, hid⟩
    rcases mem_replace hmem with hmem' | rfl | hnew
    · exact hold pc hmem'
    · have hbef : ∃ pc', t = .timeout pc' id pid := by
        cases ht <;> exact ⟨_, rfl⟩
      obtain ⟨pc', rfl⟩ := hbef
      exact hold pc' (mem_of_getElem? htask)
    · cases ht with
      | @openPublishes req =>
        obtain ⟨-, rfl, rfl⟩ := HilTask.timeout.inj (mem_singleton.mp hnew)
        refine ⟨req, mem_append_left _ ?_, rfl⟩
        exact List.mem_set (List.getElem?_eq_some_iff.mp htask).1 _
      | _ => cases hnew

end Replace

theorem opens_eq_nil (hno : ∀ r ∈ s.requests, r.hilId ≠ id) : s.opens id = [] := by
  refine filterMap_eq_nil_iff.mpr fun u hu => ?_
  cases u with
  | «open» pc req => exact if_neg (hno req (mem_filterMap.mpr ⟨_, hu, rfl⟩))
  | _ => rfl

/-- A call that starts changes nothing for the requests it does not open. -/
theorem sameView_call (u : HilTask) (hopen : u.openPc r.hilId = none)
    (hcomm : u.commit r.hilId = none) : SameView s { s with tasks := s.tasks ++ [u] } r := by
  refine ⟨?_, ?_, rfl, rfl, rfl, rfl⟩
  · rw [opens, opens, filterMap_append, filterMap_cons_none hopen,
      filterMap_nil, append_nil]
  · rw [commits, commits, filterMap_append,
      filterMap_cons_none hcomm, filterMap_nil, append_nil]

/-- The start of a call; a request that is opened has a new id and a new token. -/
theorem consistent_call {c : HilCall} (h : Consistent s) (hg : Orderly s (.call c)) :
    Consistent { s with tasks := s.tasks ++ [c.task] } := by
  have hmem : ∀ {r}, r ∈ requests { s with tasks := s.tasks ++ [c.task] } →
      r ∈ s.requests ∨ c = .open r := by
    intro r hr
    rw [requests, filterMap_append] at hr
    refine (mem_append.mp hr).imp_right fun hnew => ?_
    cases c with
    | «open» req => rw [mem_singleton.mp hnew]
    | resolve args | wait w => cases hnew
  have hkept : ∀ {r}, r ∈ s.requests → r ∈ requests { s with tasks := s.tasks ++ [c.task] } := by
    intro r hr
    rw [requests, filterMap_append]
    exact mem_append_left _ hr
  have hnew : ∀ {req}, c = .open req → ∀ r ∈ s.requests,
      r.hilId ≠ req.hilId ∧ r.approvalToken ≠ req.approvalToken := by
    rintro req rfl
    exact hg
  have hcomm : ∀ id, c.task.commit id = none := by
    intro id
    cases c with
    | resolve args => exact ite_self _
    | _ => rfl
  have hcommi : ∀ id, commits { s with tasks := s.tasks ++ [c.task] } id = s.commits id := by
    intro id
    rw [commits, filterMap_append, filterMap_cons_none (hcomm id)]
    exact append_nil _
  refine ⟨fun r hr r' hr' hid => ?_, fun r hr r' hr' htoken => ?_, fun r hr => ?_,
    fun id r hr => ?_, fun id hno => ?_, fun token hno => ?_, fun pc args hin => ?_,
    fun pc id pid hin => ?_⟩
  · rcases hmem hr with hold | hopen <;> rcases hmem hr' with hold' | hopen'
    · exact h.ids r hold r' hold' hid
    · exact absurd hid (hnew hopen' r hold).1
    · exact absurd hid.symm (hnew hopen r' hold').1
    · exact HilCall.open.inj (hopen.symm.trans hopen')
  · rcases hmem hr with hold | hopen <;> rcases hmem hr' with hold' | hopen'
    · exact h.tokens r hold r' hold' htoken
    · exact absurd htoken (hnew hopen' r hold).2
    · exact absurd htoken.symm (hnew hopen r' hold').2
    · exact HilCall.open.inj (hopen.symm.trans hopen')
  · rcases hmem hr with hold | rfl
    · obtain ⟨ph, hph⟩ := h.phases r hold
      refine ⟨ph, hph.of_sameView (sameView_call _ ?_ (hcomm _))⟩
      cases c with
      | «open» req => exact if_neg (hnew rfl r hold).1.symm
      | _ => rfl
    · obtain ⟨hnone, houtc⟩ := h.unopened r.hilId fun r' hr' => (hnew rfl r' hr').1
      have hopens : s.opens r.hilId = [] := opens_eq_nil fun r' hr' => (hnew rfl r' hr').1
      refine ⟨.opening, ⟨.writeFile, ?_, rfl, nofun⟩, (hcommi _).trans hnone, ?_,
        h.unregistered _ fun r' hr' => (hnew rfl r' hr').2, houtc, nofun, trivial⟩
      · rw [opens] at hopens ⊢
        rw [filterMap_append, hopens, nil_append]
        simp [HilCall.task, HilTask.openPc]
      · cases hpend : s.manager.pending.lookup r.hilId with
        | none => rfl
        | some r' =>
          obtain ⟨hr', hid'⟩ := h.pending _ r' hpend
          exact absurd hid' (hnew rfl r' hr').1
  · exact (h.pending id r hr).imp_left hkept
  · rw [hcommi]
    exact h.unopened id fun r hr => hno r (hkept hr)
  · exact h.unregistered token fun r hr => hno r (hkept hr)
  · rcases mem_append.mp hin with hold | heq
    · exact h.decisions pc args hold
    · cases c with
      | resolve args' =>
        obtain ⟨-, rfl⟩ := HilTask.resolve.inj (mem_singleton.mp heq)
        exact hg
      | «open» req | wait w => cases mem_singleton.mp heq
  · rcases mem_append.mp hin with hold | heq
    · obtain ⟨r, hr, hid⟩ := h.timeouts pc id pid hold
      exact ⟨r, mem_append_left _ hr, hid⟩
    · cases c <;> cases mem_singleton.mp heq

end Step

theorem consistent_init : Consistent .init where
  ids _ hr := absurd hr not_mem_nil
  tokens _ hr := absurd hr not_mem_nil
  phases _ hr := absurd hr not_mem_nil
  pending id r hr := by
    rw [show init.manager.pending.lookup id = none from rfl] at hr
    cases hr
  unopened _ _ := ⟨rfl, rfl⟩
  unregistered _ _ := rfl
  decisions _ _ hmem := absurd hmem not_mem_nil
  timeouts _ _ _ hmem := absurd hmem not_mem_nil

theorem consistent_step (s : HilSystem) (e : HilInput) (h : Consistent s) (hg : Orderly s e) :
    Consistent (s.step e) := by
  rcases s.step_cases e with ⟨c, rfl⟩ | hsame | ⟨i, now, t, m', t', new, he, htask, ht, hstep⟩
  · exact consistent_call h hg
  · rw [hsame]
    exact h
  · rw [hstep]
    have hord : Orderly s (.step i now) := by
      rcases he with rfl | ⟨pc, w, rfl⟩
      · exact hg
      · simp [Orderly, htask]
    exact consistent_replace h htask ht hord

/-- The published outcome of a request is in its file, and there is at most one. -/
theorem InPhase.single (h : InPhase s r ph) :
    (s.outcomes r.hilId).length ≤ 1 ∧ ∀ outcome ∈ s.outcomes r.hilId,
      ∃ file, s.manager.vfs.lookup r.vfsPath = some file ∧ file.state.asStr = outcome := by
  rw [h.outcomes]
  cases ph with
  | resolved decision =>
    refine ⟨le_rfl, fun outcome hmem => ⟨_, h.file _ rfl, ?_⟩⟩
    rw [mem_singleton.mp hmem]
    rcases (show ValidDecision decision from h.valid) with rfl | rfl <;> rfl
  | timedOut =>
    refine ⟨le_rfl, fun outcome hmem => ⟨_, h.file _ rfl, ?_⟩⟩
    rw [mem_singleton.mp hmem]
    rfl
  | _ => exact ⟨Nat.zero_le _, nofun⟩

theorem single_outcome (es : List HilInput) : (Guarded HilSystem.step Orderly .init es →
      (∀ r ∈ (run HilSystem.step .init es).requests,
        ((run HilSystem.step .init es).outcomes r.hilId).length ≤ 1 ∧
          ∀ outcome ∈ (run HilSystem.step .init es).outcomes r.hilId,
            ∃ file, (run HilSystem.step .init es).manager.vfs.lookup r.vfsPath = some file ∧
              file.state.asStr = outcome) ∧
      ∀ i now args store, (run HilSystem.step .init es).tasks[i]? = some (.resolve .consume args) →
        Orderly (run HilSystem.step .init es) (.step i now) →
        (run HilSystem.step .init es).manager.approvalStore.consume args.approvalToken = .ok store →
        ∃ r, (run HilSystem.step .init es).manager.pending.lookup args.hilId = some r ∧
          r.approvalToken = args.approvalToken) ∧
    ∀ i now args e, (run HilSystem.step .init es).tasks[i]? = some (.resolve .consume args) →
      (run HilSystem.step .init es).manager.approvalStore.consume args.approvalToken = .error e →
      (run HilSystem.step .init es).step (.step i now) = { run HilSystem.step .init es with
          tasks := (run HilSystem.step .init es).tasks.set i
            (.resolve (.returned (.error e)) args) } := by
  refine ⟨fun hes => ?_, fun i now args e htask hfail => ?_⟩
  · have hlast : Consistent (run HilSystem.step .init es) :=
      guarded_invariant consistent_step consistent_init hes
    refine ⟨fun r hr => ?_, fun i now args store htask hg hcons => ?_⟩
    · obtain ⟨ph, hph⟩ := hlast.phases r hr
      exact hph.single
    · obtain ⟨hunus, -⟩ := ApprovalTokenStore.consume_eq_ok hcons
      obtain ⟨r, -, htoken, hid, hph⟩ := hlast.waiting htask hg hunus
      exact ⟨r, hid ▸ hph.pending, htoken⟩
  · rw [HilSystem.step, HilSystem.advance_of_task htask, HilTask.step, resolveStep, hfail,
      append_nil]

/-! ## Runs with and without order -/

/-- The request is opened and approved, and its timeout finds it gone. -/
def approvedRun : List HilInput :=
  [.call (.open (upgradeHil "hil-1" "tok-1"))] ++ stepsOf 0 4 ++
    [resolveCall "hil-1" "tok-1" "approved"] ++ stepsOf 2 4 ++ stepsOf 1 1

theorem approvedRun_orderly : Guarded step Orderly .init approvedRun := by
  refine ⟨?_, trivial, trivial, trivial, trivial, .inl rfl, ?_, trivial, trivial, trivial, ?_,
    trivial⟩
  · exact fun r hr => absurd hr not_mem_nil
  · refine fun _ => ⟨fun r hr _ => ?_, ?_⟩
    · rw [mem_singleton.mp hr]
      rfl
    · rintro (h | h) <;> cases h
  · rintro ⟨decision, h | h⟩ <;> cases mem_singleton.mp h

theorem single_outcome_approved :
    ((run HilSystem.step .init approvedRun).outcomes "hil-1").length ≤ 1 ∧
      ∀ outcome ∈ (run HilSystem.step .init approvedRun).outcomes "hil-1",
        ∃ file, (run HilSystem.step .init approvedRun).manager.vfs.lookup
          "/proc/57/hil-queue/hil-1.yaml" = some file ∧ file.state.asStr = outcome :=
  ((single_outcome approvedRun).1 approvedRun_orderly).1 (upgradeHil "hil-1" "tok-1")
    (mem_singleton.mpr rfl)

/-- The timeout of the request fires, and a human approves it afterwards. -/
def lateRun : List HilInput :=
  [.call (.open (upgradeHil "hil-1" "tok-1"))] ++ stepsOf 0 4 ++ stepsOf 1 3 ++
    [resolveCall "hil-1" "tok-1" "approved"] ++ stepsOf 2 4

/-- The token of the first request is used to approve the second. -/
def foreignRun : List HilInput :=
  [.call (.open (upgradeHil "hil-1" "tok-1"))] ++ stepsOf 0 4 ++
    [.call (.open (upgradeHil "hil-2" "tok-2"))] ++ stepsOf 2 4 ++
    [resolveCall "hil-2" "tok-1" "approved"] ++ stepsOf 4 4

/-- A request that has timed out is resolved a second time, against its file, and a request is
    resolved with the token of another. -/
theorem late_or_foreign_resolve_succeeds :
    (run HilSystem.step .init lateRun).outcomes "hil-1" = ["timeout", "approved"] ∧
    ((run HilSystem.step .init lateRun).manager.vfs.lookup "/proc/57/hil-queue/hil-1.yaml").map
      (·.state) = some .timeout ∧
    (run HilSystem.step .init lateRun).tasks[2]? =
      some (.resolve (.returned (.ok ())) ⟨"hil-1", "tok-1", "approved", "alice", .null⟩) ∧
    (run HilSystem.step .init foreignRun).outcomes "hil-2" = ["approved"] ∧
    (run HilSystem.step .init foreignRun).tasks[4]? =
      some (.resolve (.returned (.ok ())) ⟨"hil-2", "tok-1", "approved", "alice", .null⟩) :=
  ⟨rfl, rfl, rfl, rfl, rfl⟩

end Avix.Security
