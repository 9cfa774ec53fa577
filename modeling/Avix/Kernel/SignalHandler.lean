/-
  Signals from the kernel to its agents (`kernel/proc/signals.rs`, `signal/channels.rs`), and
  the kernel together with the executors that run.

  Model. A call of the signal handler is the list of the accesses it still has to make to
  tables, stores and channels (`KernelAction`); an access may add further ones in front.
  Between two accesses of one call the executors and other calls can come in. The status change
  at the end of a spawn is such a call, too, because the executor already runs then.

  A signal channel holds 64 signals and a sender waits for room; here its send takes place
  later. The results of the calls are left out, except for an unknown signal.

  `kernel/proc/kill` aborts the task without a signal and is not part of this model.
-/
import Avix.Executor.TurnLoop

namespace Avix

open Lib

/-! ## Pausing and resuming -/

/-- What `pause_agent` and `resume_agent` do differently. -/
structure Suspension where
  process : ProcessStatus
  invocation : InvocationStatus
  signal : SignalKind
  session : SessionStatus
  /-- Whether the other agents of the session follow the agent. -/
  cascades : Pid → SessionRecord → Bool

/-- The session follows its owner. -/
def pausing : Suspension :=
  ⟨.paused, .paused, .pause, .paused, fun pid session => pid == session.ownerPid⟩

/-- A paused session follows any of its agents. -/
def resuming : Suspension :=
  ⟨.running, .running, .resume, .running, fun _ session => session.status == .paused⟩

/-- One access of the signal handler. -/
inductive KernelAction where
  | setStatus (pid : Pid) (status : ProcessStatus)
  /-- Look up the active invocation, and then write its status. -/
  | updateInvocation (pid : Pid) (status : InvocationStatus)
  | writeInvocation (id : String) (status : InvocationStatus)
  | deliver (sig : Signal)
  /-- Read the session of the agent, and go on with the other agents if they follow. -/
  | cascade (how : Suspension) (pid : Pid)
  | putSession (session : SessionRecord)

namespace Suspension

variable (how : Suspension)

def actions (pid : Pid) : List KernelAction :=
  [.setStatus pid how.process, .updateInvocation pid how.invocation,
    .deliver ⟨pid, how.signal, .null⟩, .cascade how pid]

/-- The part for the session, as it was read. -/
def sessionActions (pid : Pid) (session : SessionRecord) : List KernelAction :=
  if how.cascades pid session then
    let others := session.pids.filter (· ≠ pid)
    others.map (fun q => .deliver ⟨q, how.signal, .null⟩) ++
      others.flatMap (fun q => [.setStatus q how.process, .updateInvocation q how.invocation]) ++
      [.putSession (session.mark how.session)]
  else []

end Suspension

/-- `SignalHandler::pause_agent`. -/
def pauseAgent (pid : Pid) : List KernelAction := pausing.actions pid

/-- `SignalHandler::resume_agent`. -/
def resumeAgent (pid : Pid) : List KernelAction := resuming.actions pid

/-- `SignalHandler::send_signal`. -/
def sendSignal (pid : Pid) (signal : String) (payload : Json) :
    Except AvixError (List KernelAction) :=
  match signal with
  | "SIGPAUSE" => .ok (pauseAgent pid)
  | "SIGRESUME" => .ok (resumeAgent pid)
  | "SIGSTART" => .ok [.deliver ⟨pid, .start, payload⟩]
  | "SIGKILL" => .ok [.deliver ⟨pid, .kill, payload⟩]
  | "SIGSTOP" => .ok [.deliver ⟨pid, .stop, payload⟩]
  | "SIGSAVE" => .ok [.deliver ⟨pid, .save, payload⟩]
  | "SIGPIPE" => .ok [.deliver ⟨pid, .pipe, payload⟩]
  | "SIGESCALATE" => .ok [.deliver ⟨pid, .escalate, payload⟩]
  | other => .error (.configParse ("unknown signal: " ++ other))

/-! ## The kernel and its executors -/

structure LiveKernel (D : Type) where
  kernel : KernelState D
  /-- `SignalChannelRegistry`: the agents whose channel is registered. -/
  registered : List Pid
  executors : HashMap Pid ExecutorTask
  /-- The calls of the signal handler, with the accesses that are left. -/
  calls : List (List KernelAction)

/-- What can happen next. -/
inductive KernelInput where
  | spawn (a : SpawnArgs) (env : SpawnEnv)
  | restore (inv : InvocationRecord) (now : DateTime) (storeFails : StoreCall → Bool)
  | signal (pid : Pid) (name : String) (payload : Json)
  /-- A call of the handler makes its next access. -/
  | act (call : Nat) (storeFails : Bool)
  /-- An executor takes a step. -/
  | step (pid : Pid) (env : TurnEnv)

namespace LiveKernel

variable {D : Type} (x : ExecutorExternals D) (s : LiveKernel D)

/-- A kernel without running executors. -/
def init (k : KernelState D) : LiveKernel D := ⟨k, [], ∅, []⟩

/-- `SignalChannelRegistry::send`. -/
def send (sig : Signal) : LiveKernel D :=
  if s.registered.contains sig.target then
    match s.executors.lookup sig.target with
    | some t =>
      { s with executors :=
          s.executors.insert sig.target { t with signalRx := t.signalRx ++ [sig] } }
    | none => s
  else s

/-- The accesses that follow from the session of an agent. -/
def cascadeActions (how : Suspension) (pid : Pid) (storeFails : Bool) : List KernelAction :=
  match s.kernel.activeSessions.lookup pid, s.kernel.sessionStore with
  | some sid, some store =>
    match x.parseUuid sid with
    | .ok uuid => ((store.get storeFails uuid).map (how.sessionActions pid)).getD []
    | .error _ => []
  | _, _ => []

/-- Make one access; the second component is what the call does next because of it. -/
def access (storeFails : Bool) : KernelAction → LiveKernel D × List KernelAction
  | .setStatus pid status => ({ s with kernel := s.kernel.setStatus pid status }, [])
  | .updateInvocation pid status =>
    (s, match s.kernel.activeInvocations.lookup pid, s.kernel.invocationStore with
      | some id, some _ => [.writeInvocation id status]
      | _, _ => [])
  | .writeInvocation id status =>
    ({ s with kernel := { s.kernel with
        invocationStore := s.kernel.invocationStore.map (·.updateStatus storeFails id status) } },
      [])
  | .deliver sig => (s.send sig, [])
  | .cascade how pid => (s, s.cascadeActions x how pid storeFails)
  | .putSession session =>
    ({ s with kernel := { s.kernel with
        sessionStore := s.kernel.sessionStore.map (·.put storeFails session) } }, [])

def act (call : Nat) (storeFails : Bool) : LiveKernel D :=
  match s.calls[call]? with
  | some (action :: rest) =>
    let (s, new) := s.access x storeFails action
    { s with calls := s.calls.set call (new ++ rest) }
  | _ => s

/-- Change the invocation of an executor, if it has one. -/
def changeInvocation (id : String) (f : InvocationStore → InvocationStore) : LiveKernel D :=
  if id = "" then s
  else { s with kernel := { s.kernel with invocationStore := s.kernel.invocationStore.map f } }

/-- `Uuid::default()`. -/
def nilUuid : Uuid := "00000000-0000-0000-0000-000000000000"

/-- Mark the session of an executor as idle, if it has one. -/
def markSessionIdle (sessionId : String) (env : TurnEnv) : LiveKernel D :=
  let uuid := (x.parseUuid sessionId).toOption.getD nilUuid
  if sessionId = "" then s
  else { s with
    kernel := s.kernel.changeSession env.storeFails env.updateFails uuid (·.mark .idle) }

/-- The effect of a step of the executor launched with `params`. -/
def apply (params : SpawnParams) (env : TurnEnv) : ExecutorEffect → LiveKernel D
  | .none => s
  | .register =>
    { s with registered :=
        if s.registered.contains params.pid then s.registered else s.registered ++ [params.pid] }
  | .unregister => { s with registered := s.registered.filter (· ≠ params.pid) }
  | .setStatus status => { s with kernel := s.kernel.setStatus params.pid status }
  | .updateStatus status =>
    s.changeInvocation params.invocationId
      (·.updateStatus env.storeFails params.invocationId status)
  | .updateGoal goal =>
    s.changeInvocation params.invocationId (·.updateGoal env.storeFails params.invocationId goal)
  | .finalize status exitReason =>
    s.changeInvocation params.invocationId
      (·.finalize env.storeFails params.invocationId status exitReason)
  | .markSessionIdle => s.markSessionIdle x params.sessionId env

def stepExecutor (pid : Pid) (env : TurnEnv) : LiveKernel D :=
  match s.executors.lookup pid with
  | some t =>
    let (t', effect) := t.step x env
    { s with executors := s.executors.insert pid t' }.apply x t.params env effect
  | none => s

/-- `IpcExecutorFactory::launch`, if a factory is wired. -/
def launch (k : KernelState D) (params : SpawnParams) : LiveKernel D :=
  { s with
    kernel := k
    executors :=
      if k.hasFactory then s.executors.insert params.pid (.new params (.new k.masterKey))
      else s.executors }

/-- `AgentManager::spawn`; its last access is left for later. -/
def spawn (a : SpawnArgs) (env : SpawnEnv) : LiveKernel D :=
  match s.kernel.beginSpawn x.toExternals a env with
  | .error _ => s
  | .ok (k, params) =>
    { s.launch k params with calls := s.calls ++ [[.setStatus env.pid .running]] }

/-- `AgentManager::restore_from_invocation`. -/
def restore (inv : InvocationRecord) (now : DateTime) (storeFails : StoreCall → Bool) :
    LiveKernel D :=
  let k := (s.kernel.restoreFromInvocation x.toExternals inv now storeFails).1
  match k.tasks.lookup inv.pid with
  | some params => s.launch k params
  | none => { s with kernel := k }

def step : KernelInput → LiveKernel D
  | .spawn a env => s.spawn x a env
  | .restore inv now storeFails => s.restore x inv now storeFails
  | .signal pid name payload =>
    match sendSignal pid name payload with
    | .ok actions => { s with calls := s.calls ++ [actions] }
    | .error _ => s
  | .act call storeFails => s.act x call storeFails
  | .step pid env => s.stepExecutor x pid env

end LiveKernel

end Avix
