/-
  The task of an executor: launch, turn loop and waits (`bootstrap/executor_factory.rs`,
  `executor/runtime_executor.rs`, `executor/runtime_executor/dispatch_manager.rs`).

  Model. `TurnPc` is the program counter of the task that `IpcExecutorFactory::launch` starts.
  A step runs to the next point where another task can come in between. It changes the task and
  has at most one `ExecutorEffect` on what the task shares with the kernel, so that a step can
  be read without the shared state. `log` records the signals that were taken from the channel,
  the calls of the language model and the dispatched tools; it is not in the source.

  What a step takes from outside is in `TurnEnv`: the clock, which branch of the `select!` is
  ready and with which response, the result of a dispatched tool, and whether the database
  fails. The executor holds a sender of its own channel, so the channel is never closed.
-/
import Avix.Executor.RuntimeExecutor
import Avix.Executor.StopReason

namespace Avix

open Lib List

/-! ## Signals -/

/-- What a step does to the tables, stores and channels shared with the kernel. -/
inductive ExecutorEffect where
  | none
  /-- `SignalChannelRegistry::register` and `unregister`. -/
  | register
  | unregister
  /-- `ProcessTable::set_status` of the own entry. -/
  | setStatus (status : ProcessStatus)
  /-- `InvocationStore::update_status`, `update_goal` and `finalize` of the own invocation. -/
  | updateStatus (status : InvocationStatus)
  | updateGoal (goal : String)
  | finalize (status : InvocationStatus) (exitReason : Option String)
  /-- `SessionRecord::mark_idle` of the own session. -/
  | markSessionIdle
  deriving DecidableEq, Repr

/-- The signals that end an executor. -/
def Signal.kills (sig : Signal) : Bool := sig.kind = .kill || sig.kind = .stop

namespace RuntimeExecutor

variable (s : RuntimeExecutor)

def injectPendingMessage (msg : String) : RuntimeExecutor :=
  { s with pendingMessages := s.pendingMessages ++ [msg] }

/-- The message a SIGPIPE brings. -/
def pipeMessage (sig : Signal) : String :=
  "[SIGPIPE]: " ++ ((sig.payload.index "text").asStr).getD "[pipe data]"

def handleSignalBetweenTurns (sig : Signal) : RuntimeExecutor × ExecutorEffect :=
  match sig.kind with
  | .kill => ({ s with killed := true }, .none)
  | .stop => ({ s with killed := true }, .none)
  | .pause => ({ s with paused := true }, .updateStatus .paused)
  | .resume => ({ s with paused := false }, .updateStatus .running)
  | .save => ({ s with snapshotRequested := true }, .none)
  | .pipe => (s.injectPendingMessage (pipeMessage sig), .none)
  | _ => (s, .none)

/-- `RuntimeExecutor::handle_signal_during_llm`: a resume leaves the invocation as it is. -/
def handleSignalDuringLlm (sig : Signal) : RuntimeExecutor × ExecutorEffect :=
  match sig.kind with
  | .kill => ({ s with killed := true }, .none)
  | .stop => ({ s with killed := true }, .none)
  | .pause => ({ s with paused := true }, .updateStatus .paused)
  | .pipe => (s.injectPendingMessage (pipeMessage sig), .none)
  | .resume => ({ s with paused := false }, .none)
  | _ => (s, .none)

/-- Append an entry to the conversation. -/
def say (role : ConversationRole) (content : String) : RuntimeExecutor :=
  { s with conversationHistory := s.conversationHistory ++ [.fromRoleContent role content] }

end RuntimeExecutor

/-! ## The task -/

/-- Why an executor waits for its next goal. -/
inductive WaitReason where
  /-- It was restored and has not run yet. -/
  | restored
  | idle
  | failed
  deriving DecidableEq, Repr

/-- The local variables of `run_with_client`. -/
structure Turn where
  messages : List Json
  chainCount : Nat

/-- The local variables of the loop over the tool calls of a response. -/
structure ToolRound where
  content : List Json
  calls : List AvixToolCall
  results : List Json
  dispatched : List ToolCallEntry

inductive TurnPc where
  /-- `launch`, up to the registration of the signal channel. -/
  | starting
  /-- The top of the loop of `run_turn_loop`. -/
  | settingRunning (goal : String)
  /-- `run_with_client`: the top of its loop, the loop over waiting signals, the loop of a
      paused executor, the call of the language model and the wait for it, the tool calls. -/
  | iteration (turn : Turn)
  | draining (turn : Turn)
  | pausedWait (turn : Turn)
  | requesting (turn : Turn)
  | llm (turn : Turn)
  | tools (turn : Turn) (round : ToolRound)
  /-- `idle` or `persist_turn_error`, first the invocation and then the session. -/
  | persistIdle (reason : WaitReason)
  | sessionIdle (reason : WaitReason)
  | settingWaiting (reason : WaitReason)
  /-- `wait_for_next_goal`. -/
  | waiting (reason : WaitReason)
  | recordGoal (goal : String)
  /-- `shutdown_with_status(Killed)`, then the status of the process. -/
  | finalizing
  | crashing
  | unregistering
  | ended

inductive TaskEvent where
  | took (sig : Signal)
  | llmCall (messages : List Json)
  | toolDispatch (call : AvixToolCall)

/-- A branch of the `select!` around the call of the language model. -/
inductive LlmEvent where
  | response (resp : LlmCompleteResponse)
  | failed (e : AvixError)
  | signal

/-- What a step takes from outside. -/
structure TurnEnv where
  /-- Three readings of the clock in the order of a turn's start. -/
  now : DateTime
  later : DateTime
  latest : DateTime
  uuid : String
  /-- The executor cannot be built. -/
  spawnFails : Bool
  /-- The conversation `read_conversation` returns. -/
  history : List ConversationEntry
  llm : LlmEvent
  /-- What `cap/request-tool` takes from outside, and the result of any other tool. -/
  upgrade : RuntimeExecutor.UpgradeEnv
  toolResult : Except AvixError Json
  /-- The database fails at the first or the second access of the step. -/
  storeFails : Bool
  updateFails : Bool

structure ExecutorTask where
  params : SpawnParams
  executor : RuntimeExecutor
  signalRx : List Signal
  pc : TurnPc
  log : List TaskEvent

namespace ExecutorTask

/-- The task `launch` starts. -/
def new (params : SpawnParams) (handler : KernelResourceHandler) : ExecutorTask :=
  ⟨params, .ofParams params handler, [], .starting, []⟩

variable {D : Type} (x : ExecutorExternals D) (env : TurnEnv) (t : ExecutorTask)

def goto (pc : TurnPc) : ExecutorTask := { t with pc }

/-- Receive from the channel, if it is not empty. -/
def take : Option (Signal × ExecutorTask) :=
  match t.signalRx with
  | [] => none
  | sig :: rest => some (sig, { t with signalRx := rest, log := t.log ++ [.took sig] })

/-- `run_with_client` returns an error: `persist_turn_error` comes next. -/
def failTurn (e : AvixError) : ExecutorTask :=
  { t with
    executor := t.executor.say .system ("[Turn failed: " ++ e.display ++ "]")
    pc := .persistIdle .failed }

/-- `run_with_client` returns a result: `idle` comes next. -/
def finishTurn (text : String) : ExecutorTask :=
  { t with executor := t.executor.say .assistant text, pc := .persistIdle .idle }

/-- `launch` builds the executor and registers its channel; a restored one loads its
    conversation and waits. -/
def start : ExecutorTask × ExecutorEffect :=
  if env.spawnFails then (t.goto .ended, .setStatus .crashed)
  else if t.params.restoreFromPid.isSome then
    ({ t with
        executor := { t.executor with conversationHistory := env.history }
        pc := .persistIdle .restored }, .register)
  else (t.goto (.settingRunning t.params.goal), .register)

/-- The start of `run_with_client`. -/
def beginTurn (goal : String) : ExecutorTask :=
  let message := Json.ofMembers [("role", .string "user"), ("content", .string goal)]
  { t with executor := t.executor.say .user goal, pc := .iteration ⟨[message], 0⟩ }

/-- The top of the loop: the token is renewed and must not have expired. -/
def iterate (turn : Turn) : ExecutorTask :=
  let t := { t with executor := t.executor.maybeRenewToken x env.now env.later env.uuid }
  if t.executor.token.isExpired env.latest then
    t.failTurn (.capabilityDenied "capability token expired; cannot begin turn")
  else t.goto (.draining turn)

/-- The loop `while let Ok(sig) = signal_rx.try_recv()`. -/
def drain (turn : Turn) : ExecutorTask × ExecutorEffect :=
  match t.take with
  | none => (t.goto (if t.executor.paused then .pausedWait turn else .requesting turn), .none)
  | some (sig, t) =>
    let (executor, effect) := t.executor.handleSignalBetweenTurns sig
    let t := { t with executor }
    if executor.killed then (t.failTurn (.cancelled "killed between turns"), effect)
    else (t, effect)

/-- The loop of a paused executor. -/
def waitPaused (turn : Turn) : ExecutorTask × ExecutorEffect :=
  match t.take with
  | none => (t, .none)
  | some (sig, t) =>
    let (executor, effect) := t.executor.handleSignalBetweenTurns sig
    let t := { t with executor }
    if executor.killed then (t.failTurn (.cancelled "killed while paused"), effect)
    else if executor.paused then (t, effect)
    else (t.goto (.requesting turn), effect)

/-- The call of the language model starts. -/
def request (turn : Turn) : ExecutorTask :=
  { t with
    executor := { t.executor with snapshotRequested := false }
    pc := .llm turn
    log := t.log ++ [.llmCall turn.messages] }

/-- The answer when the tool calls of a turn are used up. -/
def limitText (limit : Nat) : String :=
  "I have reached the tool call limit of " ++ toString limit ++
    " for this invocation. Please review the work completed so far and provide new instructions."

/-- A response of the language model. -/
def respond (turn : Turn) (resp : LlmCompleteResponse) : ExecutorTask :=
  match interpretStopReason resp with
  | .returnResult text => t.finishTurn text
  | .summariseContext => t.finishTurn (textOf resp.content)
  | .dispatchTools calls =>
    let chainCount := turn.chainCount + calls.length
    if t.executor.maxToolChainLength < chainCount then
      t.finishTurn (limitText t.executor.maxToolChainLength)
    else
      let message :=
        Json.ofMembers [("role", .string "assistant"), ("content", .array resp.content)]
      t.goto (.tools ⟨turn.messages ++ [message], chainCount⟩ ⟨resp.content, calls, [], []⟩)

/-- The call of the language model fails. -/
def llmFailed (turn : Turn) (e : AvixError) : ExecutorTask :=
  match e with
  | .cancelled _ =>
    if t.executor.killed then t.failTurn (.cancelled "SIGKILL/SIGSTOP")
    else t.goto (.iteration turn)
  | e => t.failTurn e

/-- A signal interrupts the call of the language model. -/
def interrupt (turn : Turn) : ExecutorTask × ExecutorEffect :=
  match t.take with
  | none => (t, .none)
  | some (sig, t) =>
    let (executor, effect) := t.executor.handleSignalDuringLlm sig
    let t := { t with executor }
    if executor.killed then (t.failTurn (.cancelled "SIGKILL/SIGSTOP during LLM"), effect)
    else (t.goto (.iteration turn), effect)

/-- The `select!` around the call of the language model. -/
def awaitLlm (turn : Turn) : ExecutorTask × ExecutorEffect :=
  match env.llm with
  | .response resp => (t.respond turn resp, .none)
  | .failed e => (t.llmFailed turn e, .none)
  | .signal => t.interrupt turn

/-! ## Tool calls -/

/-- A `tool_result` block. -/
def toolResult (call : AvixToolCall) (content : String) : Json :=
  .ofMembers [("type", .string "tool_result"), ("tool_use_id", .string call.callId),
    ("content", .string content)]

/-- `dispatch_category2` or `dispatch_via_router`. -/
def dispatch (call : AvixToolCall) : RuntimeExecutor × Except AvixError Json :=
  if call.name = "cap/request-tool" then
    let (executor, answer) := t.executor.capRequestTool x call.args env.upgrade
    (executor, .ok answer)
  else if call.name = "cap/escalate" then
    let guidance := RuntimeExecutor.strArg call.args "reason"
    (t.executor.injectPendingMessage ("[Human guidance]: " ++ guidance),
      .ok (.ofMembers [("selectedOption", .string "acknowledged"), ("guidance", .string guidance)]))
  else (t.executor, env.toolResult)

def dispatchCall (turn : Turn) (round : ToolRound) (call : AvixToolCall) : ExecutorTask :=
  let (executor, result) := t.dispatch x env call
  let t : ExecutorTask := { t with executor, log := t.log ++ [.toolDispatch call] }
  match result with
  | .ok v => t.goto (.tools turn { round with
      results := round.results ++ [toolResult call (x.jsonText v)]
      dispatched := round.dispatched ++ [⟨call.callId, call.name, call.args, some v⟩] })
  | .error e => t.goto (.tools turn { round with
      results := round.results ++ [toolResult call ("Error: " ++ e.display)] })

/-- One round of the loop over the calls: a call that is not valid or waits for a human gets a
    result without being dispatched. -/
def callTool (turn : Turn) (round : ToolRound) (call : AvixToolCall) : ExecutorTask :=
  let (toolBudgets, verdict) :=
    validateToolCall env.now t.executor.token call t.executor.toolBudgets
  let t := { t with executor := { t.executor with toolBudgets } }
  match verdict with
  | .error e => t.goto (.tools turn { round with
      results := round.results ++ [toolResult call ("Error: " ++ e.display)] })
  | .ok () =>
    if t.executor.hilRequiredTools.contains call.name then
      match t.executor.kernel with
      | some true => t.dispatchCall x env turn round call
      | some false => t.goto (.tools turn { round with
          results := round.results ++ [toolResult call
            "Tool call requires human approval (HIL gate). Not yet approved."] })
      | none =>
        { t with
          executor := t.executor.injectPendingMessage ("[System]: HIL required for " ++ call.name)
          pc := .tools turn { round with
            results := round.results ++ [toolResult call "Tool call requires human approval."] } }
    else t.dispatchCall x env turn round call

/-- The end of a round of tool calls: the results go into the next message. -/
def endRound (turn : Turn) (round : ToolRound) : ExecutorTask :=
  let text := textOf round.content
  let message := Json.ofMembers [("role", .string "user"), ("content", .array round.results)]
  let entry : ConversationEntry := ⟨.assistant, text, round.dispatched⟩
  let history := t.executor.conversationHistory
  { t with
    executor := { t.executor with conversationHistory :=
      if round.dispatched.isEmpty && text = "" then history else history ++ [entry] }
    pc := .iteration { turn with messages := turn.messages ++ [message] } }

def runTools (turn : Turn) (round : ToolRound) : ExecutorTask :=
  match round.calls with
  | [] => t.endRound turn round
  | call :: rest => t.callTool x env turn { round with calls := rest } call

/-! ## Waiting for the next goal -/

/-- `wait_for_next_goal` returns a goal; a restored executor does not record it. -/
def resume (reason : WaitReason) (goal : String) : ExecutorTask :=
  match reason with
  | .restored => t.goto (.settingRunning goal)
  | _ => t.goto (.recordGoal goal)

/-- `wait_for_next_goal` returns nothing: only after a failed turn is the agent shut down. -/
def stopWaiting (reason : WaitReason) : ExecutorTask :=
  match reason with
  | .failed => t.goto .finalizing
  | _ => t.goto .unregistering

/-- A signal taken in `wait_for_next_goal`. -/
def handleWaiting (reason : WaitReason) (sig : Signal) : ExecutorTask × ExecutorEffect :=
  if sig.kind = .start then
    (t.resume reason (((sig.payload.index "goal").asStr).getD ""), .none)
  else if sig.kills then
    ({ t with executor := { t.executor with killed := true } }.stopWaiting reason, .none)
  else
    let (executor, effect) := t.executor.handleSignalBetweenTurns sig
    let t := { t with executor }
    if executor.killed then (t.stopWaiting reason, effect) else (t, effect)

/-- One round of `wait_for_next_goal`. -/
def waitForNextGoal (reason : WaitReason) : ExecutorTask × ExecutorEffect :=
  match t.take with
  | none => (t, .none)
  | some (sig, t) => t.handleWaiting reason sig

def recordNextGoal (goal : String) : ExecutorTask × ExecutorEffect :=
  ({ t with executor := { t.executor with goal }, pc := .settingRunning goal }, .updateGoal goal)

/-! ## The step -/

def step : ExecutorTask × ExecutorEffect :=
  match t.pc with
  | .starting => t.start env
  | .settingRunning goal => (t.beginTurn goal, .setStatus .running)
  | .iteration turn => (t.iterate x env turn, .none)
  | .draining turn => t.drain turn
  | .pausedWait turn => t.waitPaused turn
  | .requesting turn => (t.request turn, .none)
  | .llm turn => t.awaitLlm env turn
  | .tools turn round => (t.runTools x env turn round, .none)
  | .persistIdle reason => (t.goto (.sessionIdle reason), .updateStatus .idle)
  | .sessionIdle reason => (t.goto (.settingWaiting reason), .markSessionIdle)
  | .settingWaiting reason => (t.goto (.waiting reason), .setStatus .waiting)
  | .waiting reason => t.waitForNextGoal reason
  | .recordGoal goal => t.recordNextGoal goal
  | .finalizing => (t.goto .crashing, .finalize .killed none)
  | .crashing => (t.goto .unregistering, .setStatus .crashed)
  | .unregistering => (t.goto .ended, .unregister)
  | .ended => (t, .none)

/-! ## What a step can do -/

/-- The signal the step takes from the channel. -/
def takes : Option Signal :=
  match t.pc with
  | .draining _ => t.signalRx.head?
  | .pausedWait _ => t.signalRx.head?
  | .waiting _ => t.signalRx.head?
  | .llm _ =>
    match env.llm with
    | .signal => t.signalRx.head?
    | _ => none
  | _ => none

/-- The places a step can leave the task at. -/
def Stays : Prop :=
  match t.pc with
  | .draining _ => True
  | .pausedWait _ => True
  | .llm _ => True
  | .waiting _ => True
  | .ended => True
  | _ => False

/-- How a signal is handled at the place that takes it. -/
def handled (sig : Signal) : RuntimeExecutor × ExecutorEffect :=
  match t.pc with
  | .llm _ => t.executor.handleSignalDuringLlm sig
  | _ => t.executor.handleSignalBetweenTurns sig

/-- The task that has taken and handled a signal and leaves `rest` in the channel. -/
def heeding (sig : Signal) (rest : List Signal) : ExecutorTask :=
  { t with
    executor := (t.handled sig).1
    signalRx := rest
    log := t.log ++ [.took sig] }

/-- The steps that only move on. -/
inductive Passes : TurnPc → TurnPc → ExecutorEffect → Prop
  | persist (reason : WaitReason) :
      Passes (.persistIdle reason) (.sessionIdle reason) (.updateStatus .idle)
  | session (reason : WaitReason) :
      Passes (.sessionIdle reason) (.settingWaiting reason) .markSessionIdle
  | wait (reason : WaitReason) :
      Passes (.settingWaiting reason) (.waiting reason) (.setStatus .waiting)
  | finalize : Passes .finalizing .crashing (.finalize .killed none)
  | crash : Passes .crashing .unregistering (.setStatus .crashed)
  | unregister : Passes .unregistering .ended .unregister

/-- Everything a step can do, by the signal it takes and its result. Proofs about steps are by
    cases on this. -/
inductive StepsTo : Option Signal → ExecutorTask × ExecutorEffect → Prop
  | crashes (hpc : t.pc = .starting) (h : env.spawnFails = true) :
      StepsTo none (t.goto .ended, .setStatus .crashed)
  | restores (hpc : t.pc = .starting) (h : t.params.restoreFromPid.isSome = true) :
      StepsTo none ({ t with
        executor := { t.executor with conversationHistory := env.history }
        pc := .persistIdle .restored }, .register)
  | launches (hpc : t.pc = .starting) (h : t.params.restoreFromPid.isSome = false) :
      StepsTo none (t.goto (.settingRunning t.params.goal), .register)
  | begins {goal : String} (hpc : t.pc = .settingRunning goal) :
      StepsTo none (t.beginTurn goal, .setStatus .running)
  | expires {turn : Turn} {e : AvixError} (hpc : t.pc = .iteration turn)
      (h : (t.executor.maybeRenewToken x env.now env.later env.uuid).token.isExpired
        env.latest = true) :
      StepsTo none ({ t with executor :=
        t.executor.maybeRenewToken x env.now env.later env.uuid }.failTurn e, .none)
  | iterates {turn : Turn} (hpc : t.pc = .iteration turn) : StepsTo none ({ t with
        executor := t.executor.maybeRenewToken x env.now env.later env.uuid
        pc := .draining turn }, .none)
  | drained {turn : Turn} (hpc : t.pc = .draining turn) :
      StepsTo none (t.goto (if t.executor.paused then .pausedWait turn else .requesting turn),
        .none)
  /-- The channel is empty where the task waits, or the task has ended. -/
  | rests (hstays : t.Stays) (hpc : ∀ turn, t.pc ≠ .draining turn)
      (hllm : ∀ turn, t.pc = .llm turn → env.llm = .signal) : StepsTo none (t, .none)
  /-- A signal that kills ends the turn. -/
  | dies {sig : Signal} {rest : List Signal} {e : AvixError} (hrx : t.signalRx = sig :: rest)
      (hstays : t.Stays) (hpc : ∀ reason, t.pc ≠ .waiting reason) :
      StepsTo (some sig) ((t.heeding sig rest).failTurn e, (t.handled sig).2)
  /-- A signal is handled, and the task stays where it is. -/
  | heeds {sig : Signal} {rest : List Signal} (hrx : t.signalRx = sig :: rest)
      (hstays : t.Stays) (hstart : ∀ reason, t.pc = .waiting reason → sig.kind ≠ .start) :
      StepsTo (some sig) (t.heeding sig rest, (t.handled sig).2)
  | unpauses {turn : Turn} {sig : Signal} {rest : List Signal} (hrx : t.signalRx = sig :: rest)
      (hpc : t.pc = .pausedWait turn) :
      StepsTo (some sig) ((t.heeding sig rest).goto (.requesting turn), (t.handled sig).2)
  | retries {turn : Turn} {sig : Signal} {rest : List Signal} (hrx : t.signalRx = sig :: rest)
      (hpc : t.pc = .llm turn) :
      StepsTo (some sig) ((t.heeding sig rest).goto (.iteration turn), (t.handled sig).2)
  | requests {turn : Turn} (hpc : t.pc = .requesting turn) : StepsTo none (t.request turn, .none)
  | answers {turn : Turn} {resp : LlmCompleteResponse} {text : String} (hpc : t.pc = .llm turn)
      (hllm : env.llm = .response resp) (h : resp.stopReason ≠ .toolUse) :
      StepsTo none (t.finishTurn text, .none)
  | limits {turn : Turn} {resp : LlmCompleteResponse} {calls : List AvixToolCall} {text : String}
      (hpc : t.pc = .llm turn) (hllm : env.llm = .response resp)
      (hcalls : interpretStopReason resp = .dispatchTools calls)
      (h : t.executor.maxToolChainLength < turn.chainCount + calls.length) :
      StepsTo none (t.finishTurn text, .none)
  | works {turn : Turn} {resp : LlmCompleteResponse} {calls : List AvixToolCall}
      (hpc : t.pc = .llm turn) (hllm : env.llm = .response resp)
      (hcalls : interpretStopReason resp = .dispatchTools calls)
      (h : turn.chainCount + calls.length ≤ t.executor.maxToolChainLength) :
      StepsTo none (t.goto (.tools ⟨turn.messages ++ [.ofMembers [("role", .string "assistant"),
          ("content", .array resp.content)]], turn.chainCount + calls.length⟩
        ⟨resp.content, calls, [], []⟩), .none)
  | fails {turn : Turn} {e e' : AvixError} (hpc : t.pc = .llm turn) (hllm : env.llm = .failed e) :
      StepsTo none (t.failTurn e', .none)
  | recovers {turn : Turn} {e : AvixError} (hpc : t.pc = .llm turn) (hllm : env.llm = .failed e) :
      StepsTo none (t.goto (.iteration turn), .none)
  | endsRound {turn : Turn} {round : ToolRound} (hpc : t.pc = .tools turn round)
      (h : round.calls = []) : StepsTo none (t.endRound turn round, .none)
  /-- A call is not valid. -/
  | refuses {turn : Turn} {round : ToolRound} {call : AvixToolCall} {rest : List AvixToolCall}
      {toolBudgets : ToolBudgets} {e : AvixError} {content : String}
      (hpc : t.pc = .tools turn round) (hcalls : round.calls = call :: rest)
      (h : validateToolCall env.now t.executor.token call t.executor.toolBudgets =
        (toolBudgets, .error e)) :
      StepsTo none ({ t with
        executor := { t.executor with toolBudgets }
        pc := .tools turn { round with
          calls := rest, results := round.results ++ [toolResult call content] } }, .none)
  /-- A valid call waits for a human. -/
  | gates {turn : Turn} {round : ToolRound} {call : AvixToolCall} {rest : List AvixToolCall}
      {toolBudgets : ToolBudgets} {content : String} {pendingMessages : List String}
      (hpc : t.pc = .tools turn round) (hcalls : round.calls = call :: rest)
      (h : validateToolCall env.now t.executor.token call t.executor.toolBudgets =
        (toolBudgets, .ok ()))
      (hhil : call.name ∈ t.executor.hilRequiredTools) (hkernel : t.executor.kernel ≠ some true) :
      StepsTo none ({ t with
        executor := { t.executor with toolBudgets, pendingMessages }
        pc := .tools turn { round with
          calls := rest, results := round.results ++ [toolResult call content] } }, .none)
  | dispatches {turn : Turn} {round : ToolRound} {call : AvixToolCall} {rest : List AvixToolCall}
      {toolBudgets : ToolBudgets} {content : String} {dispatched : List ToolCallEntry}
      (hpc : t.pc = .tools turn round) (hcalls : round.calls = call :: rest)
      (h : validateToolCall env.now t.executor.token call t.executor.toolBudgets =
        (toolBudgets, .ok ()))
      (hopen : call.name ∈ t.executor.hilRequiredTools → t.executor.kernel = some true) :
      StepsTo none ({ t with
        executor := ({ t with executor := { t.executor with toolBudgets } }.dispatch x env call).1
        log := t.log ++ [.toolDispatch call]
        pc := .tools turn { round with
          calls := rest, results := round.results ++ [toolResult call content]
          dispatched } }, .none)
  | passes {pc pc' : TurnPc} {effect : ExecutorEffect} (hpc : t.pc = pc)
      (h : Passes pc pc' effect) : StepsTo none (t.goto pc', effect)
  | takesGoal {reason : WaitReason} {sig : Signal} {rest : List Signal}
      (hrx : t.signalRx = sig :: rest) (hpc : t.pc = .waiting reason) (hstart : sig.kind = .start) :
      StepsTo (some sig) ((t.heeding sig rest).resume reason
        (((sig.payload.index "goal").asStr).getD ""), .none)
  | stopsWaiting {reason : WaitReason} {sig : Signal} {rest : List Signal}
      (hrx : t.signalRx = sig :: rest) (hpc : t.pc = .waiting reason) (hstart : sig.kind ≠ .start) :
      StepsTo (some sig) ((t.heeding sig rest).stopWaiting reason, (t.handled sig).2)
  | records {goal : String} (hpc : t.pc = .recordGoal goal) : StepsTo none (t.recordNextGoal goal)

variable {x env t} {taken : Option Signal} {turn : Turn} {t' : ExecutorTask}

theorem stepsTo_drain (hpc : t.pc = .draining turn) :
    StepsTo x env t t.signalRx.head? (t.drain turn) := by
  obtain ⟨_, _, signalRx⟩ := t
  cases hpc
  cases signalRx with
  | nil => exact .drained rfl
  | cons sig rest =>
    unfold drain
    dsimp only [take]
    split_ifs
    · exact .dies rfl trivial nofun
    · exact .heeds rfl trivial nofun

theorem stepsTo_waitPaused (hpc : t.pc = .pausedWait turn) :
    StepsTo x env t t.signalRx.head? (t.waitPaused turn) := by
  obtain ⟨_, _, signalRx⟩ := t
  cases hpc
  cases signalRx with
  | nil => exact .rests trivial nofun nofun
  | cons sig rest =>
    unfold waitPaused
    dsimp only [take]
    split_ifs
    · exact .dies rfl trivial nofun
    · exact .heeds rfl trivial nofun
    · exact .unpauses rfl rfl

theorem stepsTo_interrupt (hpc : t.pc = .llm turn) (hllm : env.llm = .signal) :
    StepsTo x env t t.signalRx.head? (t.interrupt turn) := by
  obtain ⟨_, _, signalRx⟩ := t
  cases hpc
  cases signalRx with
  | nil => exact .rests trivial nofun fun _ _ => hllm
  | cons sig rest =>
    unfold interrupt
    dsimp only [take]
    split_ifs
    · exact .dies rfl trivial nofun
    · exact .retries rfl rfl

theorem stepsTo_respond {resp : LlmCompleteResponse} (hpc : t.pc = .llm turn)
    (hllm : env.llm = .response resp) : StepsTo x env t none (t.respond turn resp, .none) := by
  unfold respond
  cases hact : interpretStopReason resp with
  | dispatchTools calls =>
    dsimp only
    split_ifs with hlimit
    · exact .limits hpc hllm hact hlimit
    · exact .works hpc hllm hact (Nat.le_of_not_lt hlimit)
  | _ =>
    refine .answers hpc hllm fun hstop => ?_
    rw [interpretStopReason, hstop] at hact
    cases hact

theorem stepsTo_llmFailed {e : AvixError} (hpc : t.pc = .llm turn) (hllm : env.llm = .failed e) :
    StepsTo x env t none (t.llmFailed turn e, .none) := by
  unfold llmFailed
  split
  · split_ifs
    · exact .fails hpc hllm
    · exact .recovers hpc hllm
  · exact .fails hpc hllm

theorem stepsTo_runTools {round : ToolRound} (hpc : t.pc = .tools turn round) :
    StepsTo x env t none (t.runTools x env turn round, .none) := by
  unfold runTools
  split
  · next hcalls => exact .endsRound hpc hcalls
  next call rest hcalls =>
  unfold callTool
  cases hvalid : validateToolCall env.now t.executor.token call t.executor.toolBudgets with
  | mk toolBudgets verdict =>
    cases verdict with
    | error e => apply StepsTo.refuses hpc hcalls hvalid
    | ok _ =>
      have hdisp : (call.name ∈ t.executor.hilRequiredTools →
          t.executor.kernel = some true) → StepsTo x env t none
            ({ t with executor := { t.executor with toolBudgets } }.dispatchCall x env turn
              { round with calls := rest } call, .none) := by
        intro hopen
        unfold dispatchCall
        dsimp only
        split <;> apply StepsTo.dispatches hpc hcalls hvalid hopen
      dsimp only
      split_ifs with hhil
      · have hmem := contains_iff_mem.mp hhil
        split
        · next hkern => exact hdisp fun _ => hkern
        all_goals
          next hkern => apply StepsTo.gates hpc hcalls hvalid hmem (by rw [hkern]; nofun)
      · exact hdisp fun hmem => absurd (contains_iff_mem.mpr hmem) hhil

theorem stepsTo_waitForNextGoal {reason : WaitReason} (hpc : t.pc = .waiting reason) :
    StepsTo x env t t.signalRx.head? (t.waitForNextGoal reason) := by
  have hstays : t.Stays := by
    rw [Stays, hpc]
    trivial
  have hhand : ∀ sig, t.executor.handleSignalBetweenTurns sig = t.handled sig := by
    intro sig
    rw [handled, hpc]
  unfold waitForNextGoal take
  cases hrx : t.signalRx with
  | nil => exact .rests hstays (by rw [hpc]; nofun) (by rw [hpc]; nofun)
  | cons sig rest =>
    dsimp only
    unfold handleWaiting
    split_ifs with hstart hkills
    · -- a SIGSTART changes nothing in the executor
      have hign : t.handled sig = (t.executor, .none) := by
        rw [← hhand, RuntimeExecutor.handleSignalBetweenTurns, hstart]
      have hgoal : StepsTo x env t _ _ := .takesGoal hrx hpc hstart
      rwa [heeding, hign] at hgoal
    · -- between turns, a signal that kills does the same
      have hkill : t.handled sig = ({ t.executor with killed := true }, .none) := by
        rw [Signal.kills, Bool.or_eq_true, decide_eq_true_eq, decide_eq_true_eq] at hkills
        rw [← hhand, RuntimeExecutor.handleSignalBetweenTurns]
        rcases hkills with hkind | hkind <;> rw [hkind]
      have hstops : StepsTo x env t _ _ := .stopsWaiting hrx hpc hstart
      rwa [heeding, hkill] at hstops
    · dsimp only
      rw [hhand]
      split_ifs
      · exact .stopsWaiting hrx hpc hstart
      · exact .heeds hrx hstays fun _ _ => hstart

theorem stepsTo_step : StepsTo x env t (t.takes env) (t.step x env) := by
  unfold step takes
  cases hpc : t.pc with
  | starting =>
    dsimp only
    unfold start
    split_ifs with hfails hrest
    · exact .crashes hpc hfails
    · exact .restores hpc hrest
    · exact .launches hpc (Bool.eq_false_iff.mpr hrest)
  | settingRunning goal => exact .begins hpc
  | iteration turn =>
    dsimp only
    unfold iterate
    dsimp only
    split_ifs with hexp
    · exact .expires hpc hexp
    · exact .iterates hpc
  | draining turn => exact stepsTo_drain hpc
  | pausedWait turn => exact stepsTo_waitPaused hpc
  | requesting turn => exact .requests hpc
  | llm turn =>
    dsimp only
    unfold awaitLlm
    cases hllm : env.llm with
    | response resp => exact stepsTo_respond hpc hllm
    | failed e => exact stepsTo_llmFailed hpc hllm
    | signal => exact stepsTo_interrupt hpc hllm
  | tools turn round => exact stepsTo_runTools hpc
  | waiting reason => exact stepsTo_waitForNextGoal hpc
  | recordGoal goal => exact .records hpc
  | ended => exact .rests (by rw [Stays, hpc]; trivial) (by rw [hpc]; nofun) (by rw [hpc]; nofun)
  | persistIdle reason => exact .passes hpc (.persist reason)
  | sessionIdle reason => exact .passes hpc (.session reason)
  | settingWaiting reason => exact .passes hpc (.wait reason)
  | finalizing => exact .passes hpc .finalize
  | crashing => exact .passes hpc .crash
  | unregistering => exact .passes hpc .unregister

/-- A signal changes the flags and the messages of the executor only, and records no goal. -/
theorem handled_eq (t : ExecutorTask) (sig : Signal) :
    (∃ pendingMessages paused killed snapshotRequested, (t.handled sig).1 =
        { t.executor with pendingMessages, paused, killed, snapshotRequested }) ∧
      ∀ goal, (t.handled sig).2 ≠ .updateGoal goal := by
  unfold handled RuntimeExecutor.handleSignalDuringLlm RuntimeExecutor.handleSignalBetweenTurns
  split <;> cases sig.kind <;> exact ⟨⟨_, _, _, _, rfl⟩, nofun⟩

/-- A tool of the executor changes its token, messages and denied tools, and adds to the
    conversation. -/
theorem dispatch_eq (t : ExecutorTask) (x : ExecutorExternals D) (env : TurnEnv)
    (toolBudgets : ToolBudgets) (call : AvixToolCall) :
    ∃ token entries deniedTools pendingMessages,
      ({ t with executor := { t.executor with toolBudgets } }.dispatch x env call).1 =
        { t.executor with
          token, deniedTools, pendingMessages, toolBudgets
          conversationHistory := t.executor.conversationHistory ++ entries } := by
  unfold dispatch
  split_ifs
  · obtain ⟨token, entries, deniedTools, h⟩ :=
      ({ t.executor with toolBudgets } : RuntimeExecutor).capRequestTool_eq x call.args env.upgrade
    exact ⟨token, entries, deniedTools, _, h⟩
  · exact ⟨_, [], _, _, by rw [append_nil]; rfl⟩
  · exact ⟨_, [], _, _, by rw [append_nil]⟩

/-! ## What a step does to the log -/

/-- A Kill or Stop has been taken. -/
def tookKill (t : ExecutorTask) : Bool :=
  t.log.any fun
    | .took sig => sig.kills
    | _ => false

/-- `t'` is the same task later, and `taken` is the signal it has taken meanwhile. -/
structure Follows (t t' : ExecutorTask) (taken : Option Signal) : Prop where
  params : t'.params = t.params
  log : ∃ new, t'.log = t.log ++ new ∧ ∀ sig, .took sig ∈ new → taken = some sig

theorem Follows.of_eq (hpar : t'.params = t.params) (hlog : t'.log = t.log) : Follows t t' taken :=
  ⟨hpar, [], by rw [hlog, append_nil], nofun⟩

theorem Follows.of_append {e : TaskEvent} (hpar : t'.params = t.params)
    (hlog : t'.log = t.log ++ [e]) (he : ∀ sig, e = .took sig → taken = some sig) :
    Follows t t' taken :=
  ⟨hpar, [e], hlog, fun sig hsig => he sig (mem_singleton.mp hsig).symm⟩

theorem StepsTo.follows {r : ExecutorTask × ExecutorEffect} (h : StepsTo x env t taken r) :
    Follows t r.1 taken := by
  have htook : ∀ {sig : Signal} {t' : ExecutorTask}, t'.params = t.params →
      t'.log = t.log ++ [.took sig] → Follows t t' (some sig) := by
    intro sig t' hpar hlog
    refine .of_append hpar hlog fun s hs => ?_
    rw [TaskEvent.took.inj hs]
  cases h with
  | dies _ _ _ | heeds _ _ _ | unpauses _ _ | retries _ _ => exact htook rfl rfl
  | @takesGoal reason | @stopsWaiting reason => cases reason <;> exact htook rfl rfl
  | requests _ | dispatches _ _ _ _ => exact .of_append rfl rfl nofun
  | _ => exact .of_eq rfl rfl

theorem follows_step : Follows t (t.step x env).1 (t.takes env) := stepsTo_step.follows

/-- A Kill or Stop that was not taken before is the one the step takes. -/
theorem Follows.tookKill (h : Follows t t' taken) (hkill : t'.tookKill = true) :
    t.tookKill = true ∨ ∃ sig, taken = some sig ∧ sig.kills = true := by
  obtain ⟨new, hlog, hnew⟩ := h.log
  unfold ExecutorTask.tookKill at hkill ⊢
  rw [hlog, any_append, Bool.or_eq_true] at hkill
  refine hkill.imp id fun hany => ?_
  obtain ⟨e, he, hkills⟩ := any_eq_true.mp hany
  cases e with
  | took sig => exact ⟨sig, hnew sig he, hkills⟩
  | _ => cases hkills

/-- A Kill or Stop taken in the wait after a failed turn shuts the agent down. -/
theorem step_of_kill {sig : Signal} (hpc : t.pc = .waiting .failed)
    (htakes : t.takes env = some sig) (hkills : sig.kills = true) :
    (t.step x env).2 = .none ∧ (t.step x env).1.pc = .finalizing ∧
      (t.step x env).1.log = t.log ++ [.took sig] := by
  unfold takes at htakes
  rw [hpc] at htakes
  obtain ⟨rest, hrx⟩ : ∃ rest, t.signalRx = sig :: rest := head?_eq_some_iff.mp htakes
  have hstart : sig.kind ≠ .start := by
    intro hstart
    rw [Signal.kills, hstart] at hkills
    cases hkills
  unfold step waitForNextGoal take
  rw [hpc, hrx]
  dsimp only
  rw [handleWaiting, if_neg hstart, if_pos hkills]
  exact ⟨rfl, rfl, rfl⟩

end ExecutorTask

end Avix
