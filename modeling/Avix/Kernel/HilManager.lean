/-
  The human-in-the-loop manager and its callers as a concurrent system
  (`kernel/hil_manager.rs`, `executor/hil/*.rs`).

  Model. `HilManager` is the state that the calls share. Every call of `open`, `resolve` or one
  of the executor's waiters, and every timeout that `open` starts, is a task with a program
  counter. One step of a task is what it does between two points at which another task can run:
  * `open` writes the file, inserts into the pending map, registers the token, and publishes
    `hil.request` and starts the timeout;
  * `resolve` consumes the token, looks the request up and writes its file (under the read lock
    of the pending map, which no insertion or removal can overlap), removes the request, and
    publishes `hil.resolved`;
  * the timeout removes the request and writes its file (under the write lock), sends the
    Resume signal, and publishes `hil.resolved`;
  * a waiter sends Pause (only `cap/request-tool` does), subscribes, and polls its subscription.
  A list of events is thus any interleaving of any calls.

  A file holds the request that was serialised to it last; serialising a request does not fail.
  `sent` is not in the source: it keeps every signal handed to the bus.
-/
import Avix.Executor.HilWait
import Avix.Kernel.Hil
import Avix.Lib.Run
import Avix.Memfs.MemFs

namespace Avix

/-! ## Shared state -/

/-- The body of a `hil.request` event. -/
structure HilRequestBody where
  hilId : String
  pid : Pid
  sessionId : String
  approvalToken : String
  hilType : HilType
  tool : Option String
  reason : Option String
  prompt : String
  timeoutSecs : UInt32
  urgency : HilUrgency

/-- The body of a `hil.resolved` event. -/
structure HilResolvedBody where
  hilId : String
  pid : Pid
  sessionId : String
  outcome : String
  resolvedBy : String
  resolvedAt : DateTime

/-- An event the manager publishes, with the session that owns it. -/
inductive HilEvent where
  | request (owner : String) (body : HilRequestBody)
  | resolved (owner : String) (body : HilResolvedBody)

structure HilManager where
  pending : HashMap String HilRequest
  approvalStore : ApprovalTokenStore
  /-- What was published on the event bus. -/
  events : List HilEvent
  vfs : HashMap String HilRequest
  signalBus : SignalBus
  sent : List Signal

namespace HilManager

def new : HilManager := ⟨∅, ∅, [], ∅, .new, []⟩

/-- Write the file of a request; a path that does not parse is skipped. -/
def writeFile (m : HilManager) (req : HilRequest) : HilManager :=
  match VfsPath.parse req.vfsPath with
  | .ok path => { m with vfs := m.vfs.insert path.asStr req }
  | .error _ => m

variable {req : HilRequest} {m : HilManager} {path : VfsPath}

theorem writeFile_of_parse (h : VfsPath.parse req.vfsPath = .ok path) :
    m.writeFile req = { m with vfs := m.vfs.insert req.vfsPath req } := by
  rw [writeFile, h]
  dsimp only
  rw [VfsPath.asStr_of_parse h]

/-- The file of a request does not depend on its state. -/
theorem writeFile_state (state : HilState) (h : VfsPath.parse req.vfsPath = .ok path) :
    m.writeFile { req with state } =
      { m with vfs := m.vfs.insert req.vfsPath { req with state } } := by
  have hpath : { req with state }.vfsPath = req.vfsPath := rfl
  rw [← hpath] at h
  rw [writeFile_of_parse h, hpath]

/-- Writing a file changes no other part of the manager, and no other file. -/
theorem writeFile_frame (m : HilManager) (req : HilRequest) :
    m.writeFile req = { m with vfs := (m.writeFile req).vfs } ∧
      ∀ path ≠ req.vfsPath, (m.writeFile req).vfs.lookup path = m.vfs.lookup path := by
  cases h : VfsPath.parse req.vfsPath with
  | error e =>
    have hsame : m.writeFile req = m := by rw [writeFile, h]
    rw [hsame]
    exact ⟨rfl, fun _ _ => rfl⟩
  | ok path =>
    rw [writeFile_of_parse h]
    exact ⟨rfl, fun _ hne => AList.lookup_insert_ne hne⟩

/-- `SignalBus::send`. -/
def send (m : HilManager) (signal : Signal) : HilManager :=
  { m with signalBus := m.signalBus.send signal, sent := m.sent ++ [signal] }

def publish (m : HilManager) (event : HilEvent) : HilManager :=
  { m with events := m.events ++ [event] }

end HilManager

/-! ## Tasks -/

inductive OpenPc where
  | writeFile
  | insertPending
  | registerToken
  | publish
  | returned (result : Except AvixError Unit)

/-- The arguments of `HilManager::resolve`. -/
structure ResolveArgs where
  hilId : String
  approvalToken : String
  decision : String
  resolvedBy : String
  payload : Json

/-- The recipient of an event, as `resolve` and `timeout_hil` read it from the request. -/
structure Recipient where
  owner : String
  pid : Pid
  atpSessionId : String

def HilRequest.recipient (req : HilRequest) : Recipient :=
  ⟨req.agentName, req.pid, req.atpSessionId⟩

inductive ResolvePc where
  | consume
  | writeState
  | removePending (dest : Recipient)
  | publish (dest : Recipient)
  | returned (result : Except AvixError Unit)

inductive TimeoutPc where
  | sleeping
  | sendResume (dest : Recipient)
  | publish (dest : Recipient)
  | finished
  /-- The request was no longer pending. -/
  | cancelled

/-- Who waits for the decision on which request. -/
structure Waiter where
  hilType : HilType
  pid : Pid
  hilId : String

inductive WaitPc where
  | pause
  | subscribe
  | receiving (sub : Subscription)
  /-- The loop returned a payload, or `none` when its timeout ended it. -/
  | ended (payload : Option Json)

inductive HilTask where
  | open (pc : OpenPc) (req : HilRequest)
  | resolve (pc : ResolvePc) (args : ResolveArgs)
  | timeout (pc : TimeoutPc) (hilId : String) (pid : Pid)
  | wait (pc : WaitPc) (w : Waiter)

/-- The prompt of a `hil.request` event. -/
def HilRequest.prompt (req : HilRequest) : String :=
  match req.tool, req.reason with
  | some t, some r => "Agent requests capability: " ++ t ++ ". Reason: " ++ r
  | some t, none => "Agent requests capability: " ++ t
  | none, some r => r
  | none, none => "Agent requires human approval"

/-- The `hil.request` event of a request. -/
def HilRequest.requestEvent (req : HilRequest) (now : DateTime) : HilEvent :=
  let secs := (req.expiresAt.nanos - now.nanos).tdiv DateTime.nanosPerSec
  .request req.agentName
    { hilId := req.hilId, pid := req.pid, sessionId := req.atpSessionId
      approvalToken := req.approvalToken, hilType := req.hilType, tool := req.tool
      reason := req.reason, prompt := req.prompt, timeoutSecs := UInt32.ofNat (max secs 0).toNat
      urgency := req.urgency }

/-- `HilManager::push_resolved`. -/
def resolvedEvent (hilId outcome resolvedBy : String) (dest : Recipient) (now : DateTime) :
    HilEvent :=
  .resolved dest.owner
    { hilId, pid := dest.pid, sessionId := dest.atpSessionId, outcome, resolvedBy,
      resolvedAt := now }

/-- The state `resolve` writes for a decision. -/
def decidedState (decision : String) : HilState :=
  if decision = "approved" then .approved else .denied

/-- The signal `timeout_hil` sends. -/
def timeoutSignal (pid : Pid) : Signal :=
  ⟨pid, .resume, .ofMembers [("decision", .string "timeout")]⟩

/-- What a step leaves: the shared state, the task, and the tasks it has started. -/
abbrev Stepped := HilManager × HilTask × List HilTask

/-- One step of `HilManager::open`. -/
def openStep (m : HilManager) (now : DateTime) (req : HilRequest) : OpenPc → Stepped
  | .writeFile =>
    match VfsPath.parse req.vfsPath with
    | .error e => (m, .open (.returned (.error e)) req, [])
    | .ok _ => (m.writeFile req, .open .insertPending req, [])
  | .insertPending =>
    ({ m with pending := m.pending.insert req.hilId req }, .open .registerToken req, [])
  | .registerToken =>
    ({ m with approvalStore := m.approvalStore.register req.approvalToken }, .open .publish req, [])
  | .publish =>
    (m.publish (req.requestEvent now), .open (.returned (.ok ())) req,
      [.timeout .sleeping req.hilId req.pid])
  | .returned result => (m, .open (.returned result) req, [])

/-- One step of `HilManager::resolve`. -/
def resolveStep (m : HilManager) (now : DateTime) (args : ResolveArgs) : ResolvePc → Stepped
  | .consume =>
    match m.approvalStore.consume args.approvalToken with
    | .error e => (m, .resolve (.returned (.error e)) args, [])
    | .ok approvalStore => ({ m with approvalStore }, .resolve .writeState args, [])
  | .writeState =>
    match m.pending.lookup args.hilId with
    | some req =>
      (m.writeFile { req with state := decidedState args.decision },
        .resolve (.removePending req.recipient) args, [])
    | none => (m, .resolve (.removePending ⟨"", 0, ""⟩) args, [])
  | .removePending dest =>
    ({ m with pending := m.pending.erase args.hilId }, .resolve (.publish dest) args, [])
  | .publish dest =>
    (m.publish (resolvedEvent args.hilId args.decision args.resolvedBy dest now),
      .resolve (.returned (.ok ())) args, [])
  | .returned result => (m, .resolve (.returned result) args, [])

/-- One step of `HilManager::timeout_hil`. -/
def timeoutStep (m : HilManager) (now : DateTime) (hilId : String) (pid : Pid) : TimeoutPc → Stepped
  | .sleeping =>
    match m.pending.lookup hilId with
    | some req =>
      (({ m with pending := m.pending.erase hilId }).writeFile { req with state := .timeout },
        .timeout (.sendResume req.recipient) hilId pid, [])
    | none => (m, .timeout .cancelled hilId pid, [])
  | .sendResume dest => (m.send (timeoutSignal pid), .timeout (.publish dest) hilId pid, [])
  | .publish dest =>
    (m.publish (resolvedEvent hilId "timeout" "kernel" { dest with pid } now),
      .timeout .finished hilId pid, [])
  | .finished => (m, .timeout .finished hilId pid, [])
  | .cancelled => (m, .timeout .cancelled hilId pid, [])

def waitStep (m : HilManager) (w : Waiter) : WaitPc → Stepped
  | .pause => (m.send ⟨w.pid, .pause, .null⟩, .wait .subscribe w, [])
  | .subscribe =>
    let (signalBus, sub) := m.signalBus.subscribe w.pid
    ({ m with signalBus }, .wait (.receiving sub) w, [])
  | .receiving sub =>
    match m.signalBus.recv sub with
    | none => (m, .wait (.receiving sub) w, [])
    | some (none, sub) => (m, .wait (.receiving sub) w, [])
    | some (some signal, sub) =>
      if signal.resumes w.hilId then (m, .wait (.ended (some signal.payload)) w, [])
      else (m, .wait (.receiving sub) w, [])
  | .ended payload => (m, .wait (.ended payload) w, [])

def HilTask.step (m : HilManager) (now : DateTime) : HilTask → Stepped
  | .open pc req => openStep m now req pc
  | .resolve pc args => resolveStep m now args pc
  | .timeout pc hilId pid => timeoutStep m now hilId pid pc
  | .wait pc w => waitStep m w pc

/-! ## The system -/

/-- The manager and all calls made so far. -/
structure HilSystem where
  manager : HilManager
  tasks : List HilTask

/-- A call from outside. -/
inductive HilCall where
  | open (req : HilRequest)
  | resolve (args : ResolveArgs)
  | wait (w : Waiter)

def HilCall.task : HilCall → HilTask
  | .open req => .open .writeFile req
  | .resolve args => .resolve .consume args
  | .wait w => .wait (if w.hilType = .capabilityUpgrade then .pause else .subscribe) w

inductive HilInput where
  | call (c : HilCall)
  /-- The task at position `i` runs to its next step. -/
  | step (i : Nat) (now : DateTime)
  /-- The timeout of the waiter at position `i` fires. -/
  | expire (i : Nat)

namespace HilSystem

def init : HilSystem := ⟨.new, []⟩

/-- The waiter's own timeout ends its loop. -/
def expireTask : HilTask → HilTask
  | .wait (.receiving _) w => .wait (.ended none) w
  | t => t

/-- The task at position `i` takes a step. -/
def advance (s : HilSystem) (i : Nat) (now : DateTime) : HilSystem :=
  match s.tasks[i]? with
  | some t =>
    let r := t.step s.manager now
    ⟨r.1, s.tasks.set i r.2.1 ++ r.2.2⟩
  | none => s

def expire (s : HilSystem) (i : Nat) : HilSystem :=
  match s.tasks[i]? with
  | some t => { s with tasks := s.tasks.set i (expireTask t) }
  | none => s

def step (s : HilSystem) : HilInput → HilSystem
  | .call c => { s with tasks := s.tasks ++ [c.task] }
  | .step i now => s.advance i now
  | .expire i => s.expire i

theorem advance_of_task {s : HilSystem} {i : Nat} {t : HilTask} (h : s.tasks[i]? = some t)
    (now : DateTime) :
    s.advance i now = ⟨(t.step s.manager now).1, s.tasks.set i (t.step s.manager now).2.1 ++
        (t.step s.manager now).2.2⟩ := by
  unfold advance
  rw [h]

/-- Replace the task at position `i`, add the started tasks and set the shared state. -/
def replace (s : HilSystem) (i : Nat) (m' : HilManager) (t' : HilTask) (new : List HilTask) :
    HilSystem :=
  ⟨m', s.tasks.set i t' ++ new⟩

end HilSystem

/-! ## What a step can do -/

def HilTask.Ended : HilTask → Prop
  | .open (.returned _) _ => True
  | .resolve (.returned _) _ => True
  | .timeout .finished _ _ => True
  | .timeout .cancelled _ _ => True
  | .wait (.ended _) _ => True
  | _ => False

/-- Every step of a task, and the timeout of a waiter: the task before, and the shared state, the
    task and the started tasks after it. -/
inductive Takes (m : HilManager) (now : DateTime) :
    HilTask → HilManager → HilTask → List HilTask → Prop
  | openFails {req e} (h : VfsPath.parse req.vfsPath = .error e) :
      Takes m now (.open .writeFile req) m (.open (.returned (.error e)) req) []
  | openWrites {req path} (h : VfsPath.parse req.vfsPath = .ok path) :
      Takes m now (.open .writeFile req) { m with vfs := m.vfs.insert req.vfsPath req }
        (.open .insertPending req) []
  | openInserts {req} :
      Takes m now (.open .insertPending req) { m with pending := m.pending.insert req.hilId req }
        (.open .registerToken req) []
  | openRegisters {req} : Takes m now (.open .registerToken req)
        { m with approvalStore := m.approvalStore.register req.approvalToken }
        (.open .publish req) []
  | openPublishes {req} : Takes m now (.open .publish req) (m.publish (req.requestEvent now))
        (.open (.returned (.ok ())) req) [.timeout .sleeping req.hilId req.pid]
  | consumeFails {args e} (h : m.approvalStore.consume args.approvalToken = .error e) :
      Takes m now (.resolve .consume args) m (.resolve (.returned (.error e)) args) []
  | consumes {args} (h : m.approvalStore.lookup args.approvalToken = some false) :
      Takes m now (.resolve .consume args)
        { m with approvalStore := m.approvalStore.insert args.approvalToken true }
        (.resolve .writeState args) []
  | decides {args req vfs} (h : m.pending.lookup args.hilId = some req)
      (hvfs : m.writeFile { req with state := decidedState args.decision } = { m with vfs }) :
      Takes m now (.resolve .writeState args) { m with vfs }
        (.resolve (.removePending req.recipient) args) []
  | decidesNothing {args} (h : m.pending.lookup args.hilId = none) :
      Takes m now (.resolve .writeState args) m (.resolve (.removePending ⟨"", 0, ""⟩) args) []
  | removes {args dest} : Takes m now (.resolve (.removePending dest) args)
        { m with pending := m.pending.erase args.hilId } (.resolve (.publish dest) args) []
  | resolves {args dest} : Takes m now (.resolve (.publish dest) args)
        (m.publish (resolvedEvent args.hilId args.decision args.resolvedBy dest now))
        (.resolve (.returned (.ok ())) args) []
  | expires {hilId pid req vfs} (h : m.pending.lookup hilId = some req)
      (hvfs : ({ m with pending := m.pending.erase hilId }).writeFile
        { req with state := .timeout } = { m with pending := m.pending.erase hilId, vfs }) :
      Takes m now (.timeout .sleeping hilId pid) { m with pending := m.pending.erase hilId, vfs }
        (.timeout (.sendResume req.recipient) hilId pid) []
  | cancels {hilId pid} (h : m.pending.lookup hilId = none) :
      Takes m now (.timeout .sleeping hilId pid) m (.timeout .cancelled hilId pid) []
  | sendsResume {hilId pid dest} :
      Takes m now (.timeout (.sendResume dest) hilId pid) (m.send (timeoutSignal pid))
        (.timeout (.publish dest) hilId pid) []
  | timesOut {hilId pid dest} : Takes m now (.timeout (.publish dest) hilId pid)
        (m.publish (resolvedEvent hilId "timeout" "kernel" { dest with pid } now))
        (.timeout .finished hilId pid) []
  | pauses {w} :
      Takes m now (.wait .pause w) (m.send ⟨w.pid, .pause, .null⟩) (.wait .subscribe w) []
  | subscribes {w sub} :
      Takes m now (.wait .subscribe w) { m with signalBus := (m.signalBus.subscribe w.pid).1 }
        (.wait (.receiving sub) w) []
  | polls {w sub sub'} : Takes m now (.wait (.receiving sub) w) m (.wait (.receiving sub') w) []
  | receives {w sub sub' signal} (h : m.signalBus.recv sub = some (some signal, sub'))
      (hresumes : signal.resumes w.hilId = true) :
      Takes m now (.wait (.receiving sub) w) m (.wait (.ended (some signal.payload)) w) []
  | givesUp {w sub} : Takes m now (.wait (.receiving sub) w) m (.wait (.ended none) w) []
  | rests {t} (h : t.Ended) : Takes m now t m t []

theorem HilManager.exists_writeFile_eq (m : HilManager) (req : HilRequest) :
    ∃ vfs, m.writeFile req = { m with vfs } :=
  ⟨_, (m.writeFile_frame req).1⟩

theorem takes_step (m : HilManager) (now : DateTime) (t : HilTask) :
    Takes m now t (t.step m now).1 (t.step m now).2.1 (t.step m now).2.2 := by
  cases t with
  | «open» pc req =>
    cases pc with
    | writeFile =>
      rw [HilTask.step, openStep]
      split
      · next e h => exact .openFails h
      next path h =>
      dsimp only
      rw [HilManager.writeFile_of_parse h]
      exact .openWrites h
    | insertPending => exact .openInserts
    | registerToken => exact .openRegisters
    | publish => exact .openPublishes
    | returned result => exact .rests trivial
  | resolve pc args =>
    cases pc with
    | consume =>
      rw [HilTask.step, resolveStep]
      split
      · next e h => exact .consumeFails h
      next store h =>
      obtain ⟨hunus, rfl⟩ := ApprovalTokenStore.consume_eq_ok h
      exact .consumes hunus
    | writeState =>
      rw [HilTask.step, resolveStep]
      split
      · next req h =>
        obtain ⟨vfs, hvfs⟩ := m.exists_writeFile_eq { req with state := decidedState args.decision }
        dsimp only
        rw [hvfs]
        exact .decides h hvfs
      · next h => exact .decidesNothing h
    | removePending dest => exact .removes
    | publish dest => exact .resolves
    | returned result => exact .rests trivial
  | timeout pc hilId pid =>
    cases pc with
    | sleeping =>
      rw [HilTask.step, timeoutStep]
      split
      · next req h =>
        obtain ⟨vfs, hvfs⟩ := HilManager.exists_writeFile_eq
          { m with pending := m.pending.erase hilId } { req with state := .timeout }
        dsimp only
        rw [hvfs]
        exact .expires h hvfs
      · next h => exact .cancels h
    | sendResume dest => exact .sendsResume
    | publish dest => exact .timesOut
    | _ => exact .rests trivial
  | wait pc w =>
    cases pc with
    | pause => exact .pauses
    | subscribe => exact .subscribes
    | receiving sub =>
      rw [HilTask.step, waitStep]
      split
      · exact .polls
      · exact .polls
      next signal sub' h =>
      split_ifs with hres
      · exact .receives h hres
      · exact .polls
    | ended payload => exact .rests trivial

namespace HilSystem

variable {s : HilSystem} {i : Nat} {t t' : HilTask} {m' : HilManager} {new : List HilTask}

theorem mem_replace {u : HilTask} (hu : u ∈ (s.replace i m' t' new).tasks) :
    u ∈ s.tasks ∨ u = t' ∨ u ∈ new := by
  rcases List.mem_append.mp hu with hset | hnew
  · exact (List.mem_or_eq_of_mem_set hset).imp_right .inl
  · exact .inr (.inr hnew)

/-- A step of the system starts a call, changes nothing, or replaces a task. -/
theorem step_cases (s : HilSystem) (e : HilInput) : (∃ c, e = .call c) ∨ s.step e = s ∨
    ∃ i now t m' t' new, (e = .step i now ∨ ∃ pc w, t = .wait pc w) ∧ s.tasks[i]? = some t ∧
      Takes s.manager now t m' t' new ∧ s.step e = s.replace i m' t' new := by
  cases e with
  | call c => exact .inl ⟨c, rfl⟩
  | step i now =>
    refine .inr ?_
    rw [step, advance]
    cases htask : s.tasks[i]? with
    | none => exact .inl rfl
    | some t =>
      exact .inr ⟨i, now, t, _, _, _, .inl rfl, htask, takes_step s.manager now t, rfl⟩
  | expire i =>
    refine .inr ?_
    rw [step, expire]
    cases htask : s.tasks[i]? with
    | none => exact .inl rfl
    | some t =>
      dsimp only
      unfold expireTask
      split
      · next sub w =>
        refine .inr ⟨i, ⟨0⟩, _, s.manager, _, [], .inr ⟨_, w, rfl⟩, htask, .givesUp, ?_⟩
        rw [replace, List.append_nil]
      · refine .inl ?_
        obtain ⟨hi, rfl⟩ := List.getElem?_eq_some_iff.mp htask
        rw [List.set_getElem_self]

/-- What every step of a task keeps, of the shared state and of each task, holds along with every
    step of the system. -/
theorem forall_step {P : HilManager → Prop} {Q : HilTask → Prop} {e : HilInput}
    (hcall : ∀ c, e = .call c → Q c.task)
    (htakes : ∀ {now t m' t' new}, P s.manager → Q t → Takes s.manager now t m' t' new →
      P m' ∧ Q t' ∧ ∀ n ∈ new, Q n)
    (hP : P s.manager) (hQ : ∀ t ∈ s.tasks, Q t) :
    P (s.step e).manager ∧ ∀ t ∈ (s.step e).tasks, Q t := by
  rcases s.step_cases e with ⟨c, rfl⟩ | hsame | ⟨i, now, t, m', t', new, -, htask, ht, hstep⟩
  · refine ⟨hP, fun t ht => ?_⟩
    rcases List.mem_append.mp ht with hold | hnew
    · exact hQ t hold
    · exact List.mem_singleton.mp hnew ▸ hcall c rfl
  · rw [hsame]
    exact ⟨hP, hQ⟩
  · obtain ⟨hP', hnext, hnew⟩ := htakes hP (hQ t (List.mem_of_getElem? htask)) ht
    rw [hstep]
    refine ⟨hP', fun u hu => ?_⟩
    rcases mem_replace hu with hold | rfl | hstar
    · exact hQ u hold
    · exact hnext
    · exact hnew u hstar

end HilSystem

end Avix
