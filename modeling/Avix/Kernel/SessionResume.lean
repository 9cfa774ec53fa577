/-
  Resuming a session (`kernel/ipc_server.rs`, `kernel/proc/mod.rs`), and the kernel with the
  requests and store calls that are under way.

  Model. A `kernel/proc/session/resume` request goes through stages: it reads the session and
  chooses a path (`resumePath`); it sends a SIGSTART; it reads the session again and spawns an
  agent. Executors, signals and other requests can come in between.

  A call of the invocation store reads a record and later writes a changed copy. The operations
  of `LiveKernel` do both at once; `readRecord` and `writeRecord` are the calls that others come
  in between. Only the executor of an invocation changes its goal, so a copy that is written back
  has the goal that was read. A session record can be overwritten at any time (`putSession`).

  Ghost state: which executor has accepted which goal; the goals given to no executor; the goals
  with which an executor has called `run_with_client`.
-/
import Avix.Executor.GoalFlow
import Avix.Kernel.SignalHandler

namespace Avix

open Lib

/-! ## The request -/

def sessionOwnershipOk (sessionUsername callerIdentity : String) (isPrivileged : Bool) : Bool :=
  callerIdentity = "" || isPrivileged || sessionUsername = callerIdentity

/-- What a resume does with the session it has read. -/
inductive ResumePath where
  | resumeAgents (pids : List Pid)
  | startOwner (owner : Pid) (goal : String)
  | newInvocation
  deriving DecidableEq, Repr

namespace SessionRecord

/-- A paused session with agents is resumed without looking at the input. -/
def resumePath (session : SessionRecord) (input : Option String) : ResumePath :=
  if session.status = .paused ∧ session.pids ≠ [] then .resumeAgents session.pids
  else if session.status = .idle ∧ session.pids ≠ [] then
    .startOwner session.ownerPid (input.getD session.goal)
  else .newInvocation

/-- The agent `ProcHandler::resume_session` spawns. -/
def resumeArgs (session : SessionRecord) (sessionId : Uuid) (input : Option String) :
    SpawnArgs where
  name := session.primaryAgent
  goal := input.getD session.goal
  sessionId := sessionId
  atpSessionId := ""
  callerIdentity := session.username
  parentPid := none

end SessionRecord

/-- The text of `{:?}`. -/
def SessionStatus.debug : SessionStatus → String
  | .running => "Running"
  | .idle => "Idle"
  | .paused => "Paused"
  | .completed => "Completed"
  | .failed => "Failed"
  | .archived => "Archived"

/-- `ProcHandler::resume_session`, from the session it has read to the spawn. -/
def resumeSession (sessionId : Uuid) (input : Option String) :
    Option SessionRecord → Except AvixError SpawnArgs
  | none => .error (.notFound ("session " ++ sessionId ++ " not found"))
  | some session =>
    match session.status with
    | .idle | .running | .paused => .ok (session.resumeArgs sessionId input)
    | status => .error (.invalidInput ("session " ++ sessionId ++
        " is not Idle, Running, or Paused (status: " ++ status.debug ++ ")"))

/-- The parameters of `kernel/proc/session/resume`; an id that does not parse is refused. -/
structure ResumeRequest where
  sessionId : Uuid
  input : Option String
  callerIdentity : String
  isPrivileged : Bool

/-- How far a request has got. -/
inductive ResumeCall where
  | check (r : ResumeRequest)
  | start (r : ResumeRequest) (owner : Pid) (goal : String)
  | respawn (r : ResumeRequest)
  | replied

/-! ## The kernel with its requests -/

/-- The executor still has the receiver of its channel: `run_turn_loop` drops it at its end, and a
    restored executor that never got there keeps it until it is unregistered. -/
def ExecutorTask.listens (t : ExecutorTask) : Bool :=
  match t.pc with
  | .unregistering => t.params.restoreFromPid.isSome && t.log.all fun
    | .took sig => sig.goal?.isNone
    | _ => true
  | .ended => false
  | _ => true

/-- `SignalChannelRegistry::send` succeeds. -/
def LiveKernel.reaches {D : Type} (s : LiveKernel D) (pid : Pid) : Bool :=
  s.registered.contains pid && ((s.executors.lookup pid).map (·.listens)).getD false

structure GoalSystem (D : Type) where
  live : LiveKernel D
  requests : List ResumeCall
  /-- The records that calls of the invocation store have read. -/
  copies : List InvocationRecord
  accepted : List (Pid × String)
  dropped : List String
  ran : List (Pid × String)

/-- What a stage of a request takes from outside. -/
structure ResumeEnv where
  storeFails : Bool
  spawn : SpawnEnv

inductive GoalInput where
  | kernel (input : KernelInput)
  | request (r : ResumeRequest)
  /-- A request goes on to its next stage. -/
  | proceed (call : Nat) (env : ResumeEnv)
  | putSession (session : SessionRecord)
  | readRecord (id : String)
  | writeRecord (copy : Nat) (status : InvocationStatus) (exitReason : Option String)

namespace GoalSystem

variable {D : Type} (x : ExecutorExternals D) (s : GoalSystem D)

def init (k : KernelState D) : GoalSystem D := ⟨.init k, [], [], [], [], []⟩

/-- A spawn gives the new agent its first goal, if an executor is launched. -/
def spawn (a : SpawnArgs) (env : SpawnEnv) : GoalSystem D :=
  match s.live.kernel.beginSpawn x.toExternals a env with
  | .error _ => s
  | .ok (k, _) =>
    let s := { s with live := s.live.spawn x a env }
    if k.hasFactory then { s with accepted := s.accepted ++ [(env.pid, a.goal)] }
    else { s with dropped := s.dropped ++ [a.goal] }

/-- A SIGSTART that reaches its executor is an accepted goal. -/
def accepts (sig : Signal) : GoalSystem D :=
  match sig.goal? with
  | some goal =>
    if s.live.reaches sig.target then { s with accepted := s.accepted ++ [(sig.target, goal)] }
    else s
  | none => s

/-- An access of the signal handler. -/
def act (call : Nat) (storeFails : Bool) : GoalSystem D :=
  let s' :=
    match s.live.calls[call]? with
    | some (.deliver sig :: _) => s.accepts sig
    | _ => s
  { s' with live := s.live.act x call storeFails }

/-- A step of an executor; at the top of the turn loop it calls `run_with_client`. -/
def stepExecutor (pid : Pid) (env : TurnEnv) : GoalSystem D :=
  let begun := (s.live.executors.lookup pid).bind (·.begins)
  { s with
    live := s.live.stepExecutor x pid env
    ran := s.ran ++ begun.toList.map fun goal => (pid, goal) }

def readSession (storeFails : Bool) (id : Uuid) : Option SessionRecord :=
  s.live.kernel.sessionStore.bind (·.get storeFails id)

def reply (call : Nat) (stage : ResumeCall) : GoalSystem D :=
  { s with requests := s.requests.set call stage }

/-- The signal for the owner of an idle session. -/
def startSignal (owner : Pid) (goal : String) : Signal :=
  ⟨owner, .start, .ofMembers [("goal", .string goal)]⟩

/-- `kernel/proc/session/resume`, one stage. -/
def proceed (call : Nat) (env : ResumeEnv) : GoalSystem D :=
  match s.requests[call]? with
  | some (.check r) =>
    match s.readSession env.storeFails r.sessionId with
    | none => s.reply call .replied
    | some session =>
      if sessionOwnershipOk session.username r.callerIdentity r.isPrivileged then
        match session.resumePath r.input with
        | .resumeAgents pids =>
          { s with
            live := { s.live with calls := s.live.calls ++ [pids.flatMap resumeAgent] }
            dropped := s.dropped ++ r.input.toList }.reply call .replied
        | .startOwner owner goal => s.reply call (.start r owner goal)
        | .newInvocation => s.reply call (.respawn r)
      else s.reply call .replied
  | some (.start r owner goal) =>
    let sig := startSignal owner goal
    if s.live.reaches owner then
      { s.accepts sig with live := s.live.send sig }.reply call .replied
    else s.reply call (.respawn r)
  | some (.respawn r) =>
    match resumeSession r.sessionId r.input (s.readSession env.storeFails r.sessionId) with
    | .error _ => s.reply call .replied
    | .ok a => (s.spawn x a env.spawn).reply call .replied
  | _ => s

/-- Change the kernel alone. -/
def withKernel (k : KernelState D) : GoalSystem D := { s with live := { s.live with kernel := k } }

def step : GoalInput → GoalSystem D
  | .kernel (.spawn a env) => s.spawn x a env
  | .kernel (.act call storeFails) => s.act x call storeFails
  | .kernel (.step pid env) => s.stepExecutor x pid env
  | .kernel input => { s with live := s.live.step x input }
  | .request r => { s with requests := s.requests ++ [.check r] }
  | .proceed call env => s.proceed x call env
  | .putSession session =>
    s.withKernel { s.live.kernel with
      sessionStore := s.live.kernel.sessionStore.map (·.put false session) }
  | .readRecord id => { s with copies := s.copies ++ (s.live.kernel.record id).toList }
  | .writeRecord copy status exitReason =>
    match s.copies[copy]? with
    | some r =>
      s.withKernel { s.live.kernel with
        invocationStore := s.live.kernel.invocationStore.map
          (·.insert r.id { r with status, exitReason }) }
    | none => s

end GoalSystem

end Avix
