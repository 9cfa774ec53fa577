/-
  SECURITY — who can use a pipe, and whose messages come out of it.

  A step of a call is secure (`SecureStep`) when
  * a write, read or close of a pipe that does not exist, or of which the caller is neither
    source nor target, fails at once and changes nothing;
  * a write (a read) succeeds only for a pid that the direction allows;
  * a message is returned to an endpoint only if the other endpoint has written it.

  `pipe_endpoints_iff`: all steps of a run are secure if and only if no close is made by
  an outsider of an existing pipe, and no endpoint reads a bidirectional pipe while the oldest
  message in it is not from its partner.

  Reason. `close` asks only for the partner of the caller and goes on without one. Both
  directions of a bidirectional pipe share one queue.
-/
import Avix.Pipe.Manager

open List Option

namespace Avix

open Lib

/-! ## What a call does -/

/-- How a call has ended. -/
inductive PipeOutcome where
  | failed
  | opened
  | wrote
  | read (result : ReadResult)
  | closed
  | panicked

namespace PipeTask

def starting : PipeTask → Option (String × Pid)
  | .write .lookup pipeId callerPid _ => some (pipeId, callerPid)
  | .read .lookup pipeId callerPid => some (pipeId, callerPid)
  | .close .lookup pipeId callerPid _ _ => some (pipeId, callerPid)
  | .closeAll (.closing pipeId .lookup _) pid _ => some (pipeId, pid)
  | _ => none

def outcome : PipeTask → Option PipeOutcome
  | .open (.returned (.ok _)) _ _ => some .opened
  | .open (.returned (.error _)) _ _ => some .failed
  | .open .panicked _ _ => some .panicked
  | .write (.returned (.ok _)) _ _ _ => some .wrote
  | .write (.returned (.error _)) _ _ _ => some .failed
  | .read (.returned (.ok result)) _ _ => some (.read result)
  | .read (.returned (.error _)) _ _ => some .failed
  | .close (.returned (.ok _)) _ _ _ _ => some .closed
  | .close (.returned (.error _)) _ _ _ _ => some .failed
  -- one of the pipes that are closed one by one
  | .closeAll (.closing _ (.returned (.ok _)) _) _ _ => some .closed
  | .closeAll (.closing _ (.returned (.error _)) _) _ _ => some .failed
  | .closeAll .returned _ _ => some .closed
  | _ => none

/-- The configuration of the pipe that a write or read works on. -/
def config (m : PipeManager) : PipeTask → Option PipeConfig
  | .write .lookup pipeId _ _ => (m.pipes.lookup pipeId).map (·.config)
  | .write (.checkClosed pipe _) _ _ _ => m.heap[pipe]?.map (·.config)
  | .write (.enqueue pipe _) _ _ _ => m.heap[pipe]?.map (·.config)
  | .read .lookup pipeId _ => (m.pipes.lookup pipeId).map (·.config)
  | .read (.receiving pipe) _ _ => m.heap[pipe]?.map (·.config)
  | _ => none

end PipeTask

end Avix

namespace Avix.Security

open Lib

/-- The caller is neither source nor target of the pipe, or there is no such pipe. -/
def Outsider (m : PipeManager) (pipeId : String) (pid : Pid) : Prop :=
  ∀ record, m.pipes.lookup pipeId = some record → record.config.partner pid = none

/-- The step of a call from `t` to `t'` that takes the manager from `m` to `m'`. -/
structure SecureCall (m m' : PipeManager) (t t' : PipeTask) : Prop where
  outsider : ∀ pipeId pid, t.starting = some (pipeId, pid) → Outsider m pipeId pid →
    t'.outcome = some .failed ∧ m' = m
  wrote : ∀ pc pipeId pid message, t = .write pc pipeId pid message → t.outcome = none →
    t'.outcome = some .wrote → ∃ c, t.config m = some c ∧ c.canWrite pid = true
  read : ∀ pc pipeId pid result, t = .read pc pipeId pid → t.outcome = none →
    t'.outcome = some (.read result) → ∃ c, t.config m = some c ∧ c.canRead pid = true ∧
        ∀ msg, result = .message msg → c.partner pid = some msg.writer

section Codec

variable (parseError : PipeEncoding → String → Option String)

def SecureStep (s : PipeSystem) : PipeInput → Prop
  | .call _ => True
  | .step i env => ∀ t, s.tasks[i]? = some t →
    SecureCall s.manager (t.step parseError s.manager env).1 t (t.step parseError s.manager env).2
  | .expire i => ∀ t, s.tasks[i]? = some t → t.starting = none →
    SecureCall s.manager s.manager t (PipeSystem.expireTask t)

end Codec

/-- A close is by an endpoint, and the message that a read of a bidirectional pipe will get is
    from the reader's partner. -/
def MindsEndpoints (m : PipeManager) : PipeTask → Prop
  | .close .lookup pipeId pid _ _ =>
    ∀ record, m.pipes.lookup pipeId = some record → record.config.partner pid ≠ none
  | .closeAll (.closing pipeId .lookup _) pid _ =>
    ∀ record, m.pipes.lookup pipeId = some record → record.config.partner pid ≠ none
  | .read (.receiving pipe) _ pid =>
    ∀ p msg rest, m.heap[pipe]? = some p → p.config.direction = .bidirectional →
      p.buffer = msg :: rest → p.config.partner pid = some msg.writer
  | _ => True

def EndpointStep (s : PipeSystem) : PipeInput → Prop
  | .step i _ => ∀ t, s.tasks[i]? = some t → MindsEndpoints s.manager t
  | _ => True

/-! ## What every run keeps -/

/-- There is a pipe at this position, and its configuration has the property. -/
def HasPipe (heap : List Pipe) (pipe : Nat) (P : PipeConfig → Prop) : Prop :=
  ∃ p, heap[pipe]? = some p ∧ P p.config

/-- Records and queues fit the configurations of their pipes. -/
structure PipesSound (m : PipeManager) : Prop where
  records : ∀ pipeId record, m.pipes.lookup pipeId = some record →
    HasPipe m.heap record.pipe (· = record.config)
  buffers : ∀ p ∈ m.heap, ∀ msg ∈ p.buffer, p.config.canWrite msg.writer = true

/-- A call that holds a pipe was allowed to take it. -/
def Authorised (m : PipeManager) : PipeTask → Prop
  | .open (.writeManifest pipe _) config _ => HasPipe m.heap pipe (· = config)
  | .open (.insert pipe _) config _ => HasPipe m.heap pipe (· = config)
  | .write (.checkClosed pipe _) _ pid _ => HasPipe m.heap pipe fun c => c.canWrite pid = true
  | .write (.enqueue pipe _) _ pid _ => HasPipe m.heap pipe fun c => c.canWrite pid = true
  | .read (.receiving pipe) _ pid => HasPipe m.heap pipe fun c => c.canRead pid = true
  | _ => True

/-- Every pipe stays where it is, with its configuration. -/
def KeepsPipes (heap heap' : List Pipe) : Prop :=
  ∀ (pipe : Nat) (p : Pipe), heap[pipe]? = some p →
    ∃ p', heap'[pipe]? = some p' ∧ p'.config = p.config

theorem KeepsPipes.refl (heap : List Pipe) : KeepsPipes heap heap := fun _ p h => ⟨p, h, rfl⟩

theorem keepsPipes_append (heap new : List Pipe) : KeepsPipes heap (heap ++ new) := by
  intro pipe p h
  refine ⟨p, ?_, rfl⟩
  rw [List.getElem?_append_left (List.getElem?_eq_some_iff.mp h).1]
  exact h

variable {P : PipeConfig → Prop} {message : String} {channels : Bool} {t' : PipeTask}
  {heap : List Pipe} {pc : WritePc} {p p' : Pipe}

theorem keepsPipes_set {i : Nat} (h : heap[i]? = some p) (hc : p'.config = p.config) :
    KeepsPipes heap (heap.set i p') := by
  intro pipe q hq
  by_cases hi : i = pipe
  · subst hi
    rw [h] at hq
    cases hq
    exact ⟨p', List.getElem?_set_self (List.getElem?_eq_some_iff.mp h).1, hc⟩
  · exact ⟨q, by rw [getElem?_set_ne hi]; exact hq, rfl⟩

variable {m m' : PipeManager} {pipeId : String} {pid : Pid} {t : PipeTask} {pipe : Nat}

theorem HasPipe.mono {heap' : List Pipe} (h : HasPipe heap pipe P) (hk : KeepsPipes heap heap') :
    HasPipe heap' pipe P := by
  obtain ⟨p, hp, hP⟩ := h
  obtain ⟨p', hp', hc⟩ := hk pipe p hp
  exact ⟨p', hp', by rwa [hc]⟩

theorem Authorised.mono (h : Authorised m t) (hk : KeepsPipes m.heap m'.heap) :
    Authorised m' t := by
  unfold Authorised at h ⊢
  split at h
  case h_6 => trivial
  all_goals exact HasPipe.mono h hk

/-- What a step of a call keeps: the pipes, and its own right to go on. -/
structure KeepsSound (m m' : PipeManager) (t' : PipeTask) : Prop where
  sound : PipesSound m'
  pipes : KeepsPipes m.heap m'.heap
  authorised : Authorised m' t'

theorem KeepsSound.same (h : PipesSound m) (ht : Authorised m t') : KeepsSound m m t' :=
  ⟨h, .refl _, ht⟩

/-- A pipe may be replaced by one with the same configuration whose messages were allowed. -/
theorem PipesSound.setPipe (h : PipesSound m) (hp : m.heap[pipe]? = some p)
    (hc : p'.config = p.config) (hbuf : ∀ msg ∈ p'.buffer, p'.config.canWrite msg.writer = true) :
    PipesSound (m.setPipe pipe p') where
  records pipeId record hr := (h.records pipeId record hr).mono (keepsPipes_set hp hc)
  buffers q hq := by
    rcases mem_or_eq_of_mem_set hq with hold | rfl
    · exact h.buffers q hold
    · exact hbuf

theorem PipesSound.ofHeap (h : PipesSound m) (hheap : m'.heap = m.heap)
    (hr : ∀ pipeId record, m'.pipes.lookup pipeId = some record →
      m.pipes.lookup pipeId = some record) :
    PipesSound m' := by
  refine ⟨fun pipeId record hl => ?_, ?_⟩
  · rw [hheap]
    exact h.records pipeId record (hr pipeId record hl)
  · rw [hheap]
    exact h.buffers

open PipeManager

theorem keepsSound_open (h : PipesSound m) {pc : OpenPipePc} {config : PipeConfig} {vfs : Bool}
    (ht : Authorised m (.open pc config vfs)) (env : PipeEnv) :
    KeepsSound m (m.openStep env config vfs pc).1
      (.open (m.openStep env config vfs pc).2 config vfs) := by
  cases pc with
  | create =>
    rw [openStep]
    split
    · exact .same h trivial
    next p hp =>
    have hconf : p.config = config ∧ p.buffer = [] := by
      unfold Pipe.new at hp
      split_ifs at hp
      cases hp
      exact ⟨rfl, rfl⟩
    have hkeep := keepsPipes_append m.heap [p]
    have hnew : HasPipe (m.heap ++ [p]) m.heap.length (· = config) :=
      ⟨p, getElem?_concat_length, hconf.1⟩
    refine ⟨⟨fun pipeId record hl => (h.records pipeId record hl).mono hkeep, ?_⟩, hkeep, ?_⟩
    · intro q hq msg hmsg
      rcases mem_append.mp hq with hold | hq
      · exact h.buffers q hold msg hmsg
      · rw [mem_singleton.mp hq, hconf.2] at hmsg
        cases hmsg
    · cases vfs with
      | false | true => exact hnew
  | writeManifest pipe pipeId =>
    rw [openStep]
    split
    · exact .same h trivial
    · exact .same h ht
  | insert pipe pipeId =>
    refine ⟨⟨fun pipeId' record hl => ?_, h.buffers⟩, .refl _, trivial⟩
    rcases HashMap.of_lookup_insert hl with ⟨-, rfl⟩ | ⟨-, hold⟩
    · exact ht
    · exact h.records pipeId' record hold
  | _ => exact .same h trivial

variable (parseError : PipeEncoding → String → Option String)

theorem keepsSound_write (h : PipesSound m)
    (ht : Authorised m (.write pc pipeId pid message)) :
    KeepsSound m (m.writeStep parseError pipeId pid message pc).1
      (.write (m.writeStep parseError pipeId pid message pc).2 pipeId pid message) := by
  cases pc with
  | lookup =>
    rw [writeStep]
    split
    · exact .same h trivial
    next record hrec =>
    split_ifs with hcan
    · split
      · exact .same h trivial
      · obtain ⟨p, hp, hc⟩ := h.records pipeId record hrec
        refine .same h ⟨p, hp, ?_⟩
        rwa [hc]
    · exact .same h trivial
  | checkClosed pipe policy =>
    rw [writeStep]
    split
    · exact .same h ht
    split_ifs
    · exact .same h trivial
    · exact .same h ht
  | enqueue pipe policy =>
    rw [writeStep.eq_def]
    dsimp only
    split
    · exact .same h ht
    next p hp =>
    split_ifs
    · refine ⟨h.setPipe hp rfl fun msg hmsg => ?_, keepsPipes_set hp rfl, trivial⟩
      rcases mem_append.mp hmsg with hold | hnew
      · exact h.buffers p (mem_of_getElem? hp) msg hold
      rw [mem_singleton.mp hnew]
      obtain ⟨q, hq, hcan⟩ := ht
      rw [hp] at hq
      cases hq
      exact hcan
    · split
      · exact .same h ht
      all_goals exact .same h trivial
  | returned result => exact .same h trivial

theorem keepsSound_read (h : PipesSound m) {pc : ReadPc} (ht : Authorised m (.read pc pipeId pid)) :
    KeepsSound m (m.readStep pipeId pid pc).1 (.read (m.readStep pipeId pid pc).2 pipeId pid) := by
  cases pc with
  | lookup =>
    rw [readStep]
    split
    · exact .same h trivial
    next record hrec =>
    split_ifs with hcan
    · split
      · exact .same h trivial
      · next p hp =>
        split_ifs
        · exact .same h trivial
        obtain ⟨q, hq, hc⟩ := h.records pipeId record hrec
        refine .same h ⟨q, hq, ?_⟩
        rwa [hc]
    · exact .same h trivial
  | receiving pipe =>
    rw [readStep]
    split
    · exact .same h ht
    next p hp =>
    split
    · exact .same h ht
    next msg rest hbuf =>
    refine ⟨h.setPipe hp rfl fun m' hm' => ?_, keepsPipes_set hp rfl, trivial⟩
    refine h.buffers p (mem_of_getElem? hp) m' ?_
    rw [hbuf]
    exact mem_cons_of_mem _ hm'
  | returned result => exact .same h trivial

/-- A close takes a record away and marks a pipe. -/
theorem sound_closeStep (h : PipesSound m) (pipeId : String) (pid : Pid) (channels : Bool)
    (reason : String) (pc : ClosePc) :
    PipesSound (m.closeStep pipeId pid channels reason pc).1 ∧
      KeepsPipes m.heap (m.closeStep pipeId pid channels reason pc).1.heap := by
  cases pc with
  | lookup =>
    rw [closeStep]
    split <;> exact ⟨h, .refl _⟩
  | setClosed pipe partner =>
    rw [closeStep]
    split
    · exact ⟨h, .refl _⟩
    · next p hp =>
      exact ⟨h.setPipe hp rfl (h.buffers p (mem_of_getElem? hp)), keepsPipes_set hp rfl⟩
  | remove partner =>
    refine ⟨h.ofHeap rfl fun id record hl => ?_, .refl _⟩
    by_cases hid : id = pipeId
    · rw [hid] at hl
      cases (AList.lookup_erase pipeId m.pipes).symm.trans hl
    · exact (AList.lookup_erase_ne hid).symm.trans hl
  | signal partner =>
    rw [closeStep.eq_def]
    dsimp only
    split
    · exact ⟨h.ofHeap rfl fun _ _ hl => hl, .refl _⟩
    · exact ⟨h, .refl _⟩
  | returned result => exact ⟨h, .refl _⟩

theorem sound_closeAllStep (h : PipesSound m) (pid : Pid) (channels : Bool) (pc : CloseAllPc) :
    PipesSound (m.closeAllStep pid channels pc).1 ∧
      KeepsPipes m.heap (m.closeAllStep pid channels pc).1.heap := by
  unfold closeAllStep
  split
  · exact ⟨h, .refl _⟩
  · exact ⟨h, .refl _⟩
  · exact sound_closeStep h _ pid channels _ _
  · exact ⟨h, .refl _⟩

theorem keepsSound_step (h : PipesSound m)
    (ht : Authorised m t) (env : PipeEnv) :
    KeepsSound m (t.step parseError m env).1 (t.step parseError m env).2 := by
  cases t with
  | «open» pc config vfs => exact keepsSound_open h ht env
  | write pc pipeId pid message => exact keepsSound_write parseError h ht
  | read pc pipeId pid => exact keepsSound_read h ht
  | close pc pipeId pid channels reason =>
    obtain ⟨hs, hk⟩ := sound_closeStep h pipeId pid channels reason pc
    exact ⟨hs, hk, trivial⟩
  | closeAll pc pid channels =>
    obtain ⟨hs, hk⟩ := sound_closeAllStep h pid channels pc
    exact ⟨hs, hk, trivial⟩

/-- The invariant of every run. -/
structure PipeSystemSound (s : PipeSystem) : Prop where
  manager : PipesSound s.manager
  tasks : ∀ t ∈ s.tasks, Authorised s.manager t

theorem pipeSystemSound_init : PipeSystemSound .init :=
  ⟨⟨nofun, nofun⟩, nofun⟩

theorem authorised_task (m : PipeManager) (c : PipeCall) : Authorised m c.task := by
  cases c <;> trivial

theorem authorised_expireTask (h : Authorised m t) : Authorised m (PipeSystem.expireTask t) := by
  unfold PipeSystem.expireTask
  split
  · trivial
  · exact h

theorem pipeSystemSound_step (s : PipeSystem)
    (e : PipeInput) (h : PipeSystemSound s) : PipeSystemSound (s.step parseError e) := by
  cases e with
  | call c =>
    refine ⟨h.manager, fun t ht => ?_⟩
    rcases mem_append.mp ht with hold | hnew
    · exact h.tasks t hold
    · rw [mem_singleton.mp hnew]
      exact authorised_task _ c
  | step i env =>
    rw [PipeSystem.step]
    split
    · next t htask =>
      have hstep := keepsSound_step parseError h.manager (h.tasks t (mem_of_getElem? htask)) env
      refine ⟨hstep.sound, fun u hu => ?_⟩
      rcases mem_or_eq_of_mem_set hu with hold | rfl
      · exact (h.tasks u hold).mono hstep.pipes
      · exact hstep.authorised
    · exact h
  | expire i =>
    rw [PipeSystem.step]
    split
    · next t htask =>
      refine ⟨h.manager, fun u hu => ?_⟩
      rcases mem_or_eq_of_mem_set hu with hold | rfl
      · exact h.tasks u hold
      · exact authorised_expireTask (h.tasks t (mem_of_getElem? htask))
    · exact h

/-! ## When a step is secure -/

/-- Of a call that is neither a write nor a read only the start counts. -/
theorem secureCall_iff_outsider (hwrite : ∀ pc pipeId pid message, t ≠ .write pc pipeId pid message)
    (hread : ∀ pc pipeId pid, t ≠ .read pc pipeId pid) :
    SecureCall m m' t t' ↔ ∀ pipeId pid, t.starting = some (pipeId, pid) →
      Outsider m pipeId pid → t'.outcome = some .failed ∧ m' = m := by
  constructor
  · intro h
    exact h.outsider
  · intro h
    exact ⟨h, fun pc pipeId pid message heq => absurd heq (hwrite pc pipeId pid message),
      fun pc pipeId pid _ heq => absurd heq (hread pc pipeId pid)⟩

theorem config_of_hasPipe (h : HasPipe m.heap pipe P) :
    ∃ c, m.heap[pipe]?.map (·.config) = some c ∧ P c := by
  obtain ⟨p, hp, hP⟩ := h
  exact ⟨p.config, by rw [hp]; rfl, hP⟩

theorem secureCall_write
    (ht : Authorised m (.write pc pipeId pid message)) :
    SecureCall m (m.writeStep parseError pipeId pid message pc).1
      (.write pc pipeId pid message)
      (.write (m.writeStep parseError pipeId pid message pc).2 pipeId pid message) := by
  refine ⟨fun pipeId' pid' hstart hout => ?_, fun pc' pipeId' pid' message' heq hopen hwrote => ?_,
    nofun⟩
  · cases pc with
    | lookup =>
      cases hstart
      rw [writeStep]
      split
      · exact ⟨rfl, rfl⟩
      next record hrec =>
      rw [PipeConfig.not_canWrite_of_partner (hout record hrec)]
      exact ⟨rfl, rfl⟩
    | _ => cases hstart
  · cases heq
    cases pc with
    | lookup =>
      -- finding the pipe is not yet writing to it
      rw [writeStep] at hwrote
      split at hwrote
      · cases hwrote
      split_ifs at hwrote
      · split at hwrote
        all_goals cases hwrote
      · cases hwrote
    | returned result => cases result <;> cases hopen
    | _ => exact config_of_hasPipe ht

theorem secureCall_read_iff (h : PipesSound m) {pc : ReadPc}
    (ht : Authorised m (.read pc pipeId pid)) :
    SecureCall m (m.readStep pipeId pid pc).1 (.read pc pipeId pid)
        (.read (m.readStep pipeId pid pc).2 pipeId pid) ↔
      MindsEndpoints m (.read pc pipeId pid) := by
  cases pc with
  | lookup =>
    refine iff_of_true ⟨fun _ _ hstart hout => ?_, nofun,
      fun pc' pipeId' pid' result heq hopen hread => ?_⟩ trivial
    · cases hstart
      rw [readStep]
      split
      · exact ⟨rfl, rfl⟩
      next record hrec =>
      rw [PipeConfig.not_canRead_of_partner (hout record hrec)]
      exact ⟨rfl, rfl⟩
    · cases heq
      rw [readStep] at hread
      split at hread
      · cases hread
      next record hrec =>
      split_ifs at hread with hcan
      · refine ⟨record.config, congrArg (Option.map PipeRecord.config) hrec, hcan,
        fun msg hmsg => ?_⟩
        -- at this point only "closed" can be the result
        subst hmsg
        split at hread
        · cases hread
        split_ifs at hread <;> cases hread
      · cases hread
  | receiving pipe =>
    obtain ⟨p, hp, hcan⟩ := ht
    have hconf : PipeTask.config m (.read (.receiving pipe) pipeId pid) = some p.config :=
      congrArg (Option.map Pipe.config) hp
    constructor
    · intro hsec q msg rest hq _ hbuf
      rw [hp] at hq
      cases hq
      have hret : (m.readStep pipeId pid (.receiving pipe)).2 = .returned (.ok (.message msg)) := by
        rw [readStep, hp]
        dsimp only
        rw [hbuf]
      obtain ⟨c, hc, -, hpart⟩ := hsec.read _ _ _ (.message msg) rfl rfl (by rw [hret]; rfl)
      rw [hconf] at hc
      cases hc
      exact hpart msg rfl
    · intro hminds
      refine ⟨nofun, nofun, fun pc' pipeId' pid' result heq _ hread => ?_⟩
      cases heq
      refine ⟨p.config, hconf, hcan, fun msg hmsg => ?_⟩
      subst hmsg
      rw [readStep, hp] at hread
      dsimp only at hread
      split at hread
      · cases hread
      next msg' rest hbuf =>
      cases hread
      by_cases hdir : p.config.direction = .bidirectional
      · exact hminds p msg rest hp hdir hbuf
      refine PipeConfig.partner_of_oneWay hdir hcan ?_
      refine h.buffers p (mem_of_getElem? hp) msg ?_
      rw [hbuf]
      exact mem_cons_self
  | returned result =>
    refine iff_of_true ⟨nofun, nofun, fun pc' pipeId' pid' result' heq hopen _ => ?_⟩ trivial
    cases heq
    cases result <;> cases hopen

/-- Closing starts with the lookup, which fails only when there is no such pipe. -/
theorem secure_lookup_iff (m : PipeManager) (pipeId : String) (pid : Pid) (channels : Bool)
    (reason : String) (failed : ClosePc → Prop) (hfail : ∀ e, failed (.returned (.error e)))
    (hgo : ∀ pipe partner, ¬failed (.setClosed pipe partner)) :
    (Outsider m pipeId pid → failed (m.closeStep pipeId pid channels reason .lookup).2 ∧
        (m.closeStep pipeId pid channels reason .lookup).1 = m) ↔
      ∀ record, m.pipes.lookup pipeId = some record → record.config.partner pid ≠ none := by
  rw [closeStep]
  split
  · next hnone =>
    refine iff_of_true (fun _ => ⟨hfail _, rfl⟩) fun record hrec => ?_
    rw [hnone] at hrec
    cases hrec
  · next record hrec =>
    have hone : ∀ record', m.pipes.lookup pipeId = some record' → record' = record := by
      intro record' h
      rw [hrec] at h
      exact (some.inj h).symm
    constructor
    · intro h record' hrec' hpart
      rw [hone record' hrec'] at hpart
      exact hgo _ _ (h fun r hr => by rw [hone r hr]; exact hpart).1
    · intro h hout
      exact absurd (hout record hrec) (h record hrec)

/-- What is asked of the start of a call, for the only way it can start. -/
theorem forall_starting_iff {start : Option (String × Pid)} (hstart : start = some (pipeId, pid))
    {P : String → Pid → Prop} :
    (∀ pipeId' pid', start = some (pipeId', pid') → P pipeId' pid') ↔ P pipeId pid := by
  constructor
  · intro h
    exact h pipeId pid hstart
  · intro h pipeId' pid' hstart'
    obtain ⟨rfl, rfl⟩ := Prod.mk.inj (some.inj (hstart.symm.trans hstart'))
    exact h

theorem secureCall_close_iff {pc : ClosePc} {reason : String} :
    SecureCall m (m.closeStep pipeId pid channels reason pc).1
        (.close pc pipeId pid channels reason)
        (.close (m.closeStep pipeId pid channels reason pc).2 pipeId pid channels reason) ↔
      MindsEndpoints m (.close pc pipeId pid channels reason) := by
  refine (secureCall_iff_outsider (fun _ _ _ _ h => ?_) fun _ _ _ h => ?_).trans ?_
  · cases h
  · cases h
  cases pc with
  | lookup =>
    exact (forall_starting_iff rfl).trans (secure_lookup_iff m pipeId pid channels reason
      (fun pc => (PipeTask.close pc pipeId pid channels reason).outcome = some .failed)
      (fun _ => rfl) fun _ _ => nofun)
  | _ => exact iff_of_true nofun trivial

theorem secureCall_closeAll_iff {pc : CloseAllPc} :
    SecureCall m (m.closeAllStep pid channels pc).1 (.closeAll pc pid channels)
        (.closeAll (m.closeAllStep pid channels pc).2 pid channels) ↔
      MindsEndpoints m (.closeAll pc pid channels) := by
  refine (secureCall_iff_outsider (fun _ _ _ _ h => ?_) fun _ _ _ h => ?_).trans ?_
  · cases h
  · cases h
  cases pc with
  | closing pipeId pc rest =>
    cases pc with
    | lookup =>
      exact (forall_starting_iff rfl).trans (secure_lookup_iff m pipeId pid channels "owner_exited"
        (fun pc => (PipeTask.closeAll (.closing pipeId pc rest) pid channels).outcome =
          some .failed) (fun _ => rfl) fun _ _ => nofun)
    | _ => exact iff_of_true nofun trivial
  | _ => exact iff_of_true nofun trivial

theorem secureCall_step_iff (h : PipesSound m)
    (ht : Authorised m t) (env : PipeEnv) :
    SecureCall m (t.step parseError m env).1 t (t.step parseError m env).2 ↔
      MindsEndpoints m t := by
  cases t with
  | «open» pc config vfs =>
    refine iff_of_true ((secureCall_iff_outsider (fun _ _ _ _ h => ?_) fun _ _ _ h => ?_).mpr
      fun _ _ h => ?_) trivial
    all_goals cases h
  | write pc pipeId pid message => exact iff_of_true (secureCall_write parseError ht) trivial
  | read pc pipeId pid => exact secureCall_read_iff h ht
  | close pc pipeId pid channels reason => exact secureCall_close_iff
  | closeAll pc pid channels => exact secureCall_closeAll_iff

/-- A read that times out returns no message. -/
theorem secureCall_expireTask (ht : Authorised m t) (hstart : t.starting = none) :
    SecureCall m m t (PipeSystem.expireTask t) := by
  refine ⟨fun _ _ h => ?_, ?_, ?_⟩
  · rw [hstart] at h
    cases h
  · rintro pc pipeId pid message rfl hopen hwrote
    rw [PipeSystem.expireTask, hopen] at hwrote
    · cases hwrote
    · exact nofun
  · rintro pc pipeId pid result rfl hopen hread
    cases pc with
    | lookup => cases hstart
    | receiving pipe =>
      have hpipe : HasPipe m.heap pipe fun c => c.canRead pid = true := ht
      obtain ⟨c, hc, hcan⟩ := config_of_hasPipe hpipe
      refine ⟨c, hc, hcan, fun msg hmsg => ?_⟩
      subst hmsg
      cases hread
    | returned result' => cases result' <;> cases hopen

theorem secureStep_iff (s : PipeSystem)
    (e : PipeInput) (h : PipeSystemSound s) : SecureStep parseError s e ↔ EndpointStep s e := by
  cases e with
  | call c => exact Iff.rfl
  | step i env =>
    refine forall_congr' fun t => forall_congr' fun htask => ?_
    exact secureCall_step_iff parseError h.manager (h.tasks t (mem_of_getElem? htask)) env
  | expire i =>
    refine iff_of_true (fun t htask hstart => ?_) trivial
    exact secureCall_expireTask (h.tasks t (mem_of_getElem? htask)) hstart

theorem pipe_endpoints_iff (parseError : PipeEncoding → String → Option String)
    (es : List PipeInput) :
    Guarded (PipeSystem.step parseError) (SecureStep parseError) .init es ↔
      Guarded (PipeSystem.step parseError) EndpointStep .init es :=
  guarded_congr (H := fun _ _ => True) (fun s e h _ => pipeSystemSound_step parseError s e h)
    (fun s e h _ => secureStep_iff parseError s e h) pipeSystemSound_init
    (guarded_of_split fun _ _ _ _ => trivial)

/-! ## Runs on fixed pipes -/

def openPipe (direction : PipeConfig.PipeDirection) : List PipeInput :=
  [.call (.open { sourcePid := 10, targetPid := 20, direction } false),
    .step 0 { pipeUuid := "1" }, .step 0 {}]

def ownMessageRun : List PipeInput :=
  openPipe .bidirectional ++
    [.call (.write "pipe-1" 10 "hello"), .step 1 {}, .step 1 {}, .step 1 {},
      .call (.read "pipe-1" 10), .step 2 {}]

/-- Pid 30, which has nothing to do with the pipe, closes it. -/
def outsiderCloses : List PipeInput :=
  openPipe .out ++ [.call (.close "pipe-1" 30 false "done")]

theorem outsider_closes_and_own_message_returned :
    (∃ m, (run (PipeSystem.step fun _ _ => none) .init
        (outsiderCloses ++ [.step 1 {}, .step 1 {}, .step 1 {}, .step 1 {}])) =
          ⟨m, [.open (.returned (.ok "pipe-1")) { sourcePid := 10, targetPid := 20 } false,
            .close (.returned (.ok ())) "pipe-1" 30 false "done"]⟩ ∧
        m.pipes.lookup "pipe-1" = none ∧ m.heap.map (·.closed) = [true]) ∧
      (run (PipeSystem.step fun _ _ => none) .init (ownMessageRun ++ [.step 2 {}])).tasks[2]? =
        some (.read (.returned (.ok (.message ⟨"hello", 10⟩))) "pipe-1" 10) ∧
      ¬Guarded (PipeSystem.step fun _ _ => none) (SecureStep fun _ _ => none) .init
        (outsiderCloses ++ [.step 1 {}]) ∧
      ¬Guarded (PipeSystem.step fun _ _ => none) (SecureStep fun _ _ => none) .init
        (ownMessageRun ++ [.step 2 {}]) := by
  refine ⟨⟨_, rfl, rfl, rfl⟩, rfl, ?_, ?_⟩
  · intro h
    have hlast := ((guarded_append.mp h).2).1 _ rfl
    exact absurd (hlast.outsider "pipe-1" 30 rfl fun record hrec => by
      cases hrec
      decide).1 nofun
  · intro h
    have hlast := ((guarded_append.mp h).2).1 _ rfl
    obtain ⟨c, hc, -, hpart⟩ := hlast.read _ _ _ (.message ⟨"hello", 10⟩) rfl rfl rfl
    cases hc
    exact absurd (hpart _ rfl) (by decide)

end Avix.Security
