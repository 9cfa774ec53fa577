/-
  PROTOCOL — the messages sent to the language model.

  `turn_protocol`: in every run of an executor task, whatever the language model answers,
  the tools return, the humans decide and the signals say: the roles of the messages of a call
  alternate, beginning with `user`, and every assistant message is followed by a user message
  with exactly one `tool_result` for each of its `tool_use` blocks, in the same order.

  A result carries the id of its block. Where the block has no string as its id, the executor
  reads the id as the empty string, and so does the result (`answered_with_empty_id`).

  What carries the proof: the messages of a call are a `Dialogue`, and the ids of the results made
  so far and of the calls that are left are together the ids of the blocks (`Answering`).
-/
import Avix.Security.KilledStaysDead

namespace Avix.Protocol

open Lib List

/-! ## Statement -/

/-- The blocks of a message; a text is no block. -/
def blocks (m : Json) : List Json :=
  match m.index "content" with
  | .array items => items
  | _ => []

def blocksOf (type : String) (content : List Json) : List Json :=
  content.filter fun c => (c.index "type").asStr == some type

/-- The id of a `tool_use` block, as the executor reads it. -/
def blockId (c : Json) : Json := .string (((c.index "id").asStr).getD "")

/-- The user message `u` answers the tool calls of the assistant message `a`. -/
def Answers (a u : Json) : Prop :=
  (blocksOf "tool_result" (blocks u)).map (·.index "tool_use_id") =
    (blocksOf "tool_use" (blocks a)).map blockId

/-- The roles alternate, beginning with `user`. -/
def Alternates (ms : List Json) : Prop :=
  ∀ i m, ms[i]? = some m → (m.index "role").asStr = some (if i % 2 = 0 then "user" else "assistant")

/-- Every assistant message is followed by its answer. -/
def Answered (ms : List Json) : Prop :=
  ∀ i a, ms[i]? = some a → (a.index "role").asStr = some "assistant" →
    ∃ u, ms[i + 1]? = some u ∧ (u.index "role").asStr = some "user" ∧ Answers a u

/-- What happens to an executor task: a step, or a signal is put into its channel. -/
inductive TaskInput where
  | step (env : TurnEnv)
  | receive (sig : Signal)

def advance {D : Type} (x : ExecutorExternals D) (t : ExecutorTask) : TaskInput → ExecutorTask
  | .step env => (t.step x env).1
  | .receive sig => { t with signalRx := t.signalRx ++ [sig] }

/-! ## Dialogues -/

def message (role : String) (content : Json) : Json :=
  .ofMembers [("role", .string role), ("content", content)]

@[simp]
theorem message_role (role : String) (content : Json) :
    ((message role content).index "role").asStr = some role := by
  simp [message, Json.ofMembers, Json.asStr]

@[simp]
theorem blocks_message (role : String) (items : List Json) :
    blocks (message role (.array items)) = items := by
  simp [blocks, message, Json.ofMembers]

/-- A goal, and rounds of an assistant message and its answer. -/
inductive Dialogue : List Json → Prop
  | goal (content : Json) : Dialogue [message "user" content]
  | round {ms : List Json} (content results : List Json) (h : Dialogue ms)
      (hanswers : Answers (message "assistant" (.array content))
        (message "user" (.array results))) :
      Dialogue (ms ++ [message "assistant" (.array content), message "user" (.array results)])

variable {ms : List Json}

theorem Dialogue.odd_length (h : Dialogue ms) : ms.length % 2 = 1 := by
  induction h with
  | goal content => rfl
  | round content results h hansw ih =>
    simp only [length_append, length_cons, length_nil]
    omega

/-- A message of a longer list is one of the first part or one of the round added to it. -/
theorem getElem?_append_round {a u m : Json} {i : Nat} (h : (ms ++ [a, u])[i]? = some m) :
    (i < ms.length ∧ ms[i]? = some m) ∨ (i = ms.length ∧ m = a) ∨ (i = ms.length + 1 ∧ m = u) := by
  by_cases hi : i < ms.length
  · rw [getElem?_append_left hi] at h
    exact .inl ⟨hi, h⟩
  rw [getElem?_append_right (by omega)] at h
  obtain ⟨j, rfl⟩ : ∃ j, i = ms.length + j := ⟨i - ms.length, by omega⟩
  rw [Nat.add_sub_cancel_left] at h
  match j, h with
  | 0, h => exact .inr (.inl ⟨rfl, (Option.some.inj h).symm⟩)
  | 1, h => exact .inr (.inr ⟨rfl, (Option.some.inj h).symm⟩)

theorem Dialogue.alternates (h : Dialogue ms) : Alternates ms := by
  induction h with
  | goal content =>
    intro i m hm
    obtain ⟨rfl, rfl⟩ : i = 0 ∧ m = message "user" content := by
      cases i with
      | zero => exact ⟨rfl, (Option.some.inj hm).symm⟩
      | succ i => cases hm
    exact message_role _ _
  | round content results h hansw ih =>
    intro i m hm
    have hodd := h.odd_length
    rcases getElem?_append_round hm with ⟨-, hold⟩ | ⟨rfl, rfl⟩ | ⟨rfl, rfl⟩
    · exact ih i m hold
    · rw [if_neg (by omega)]
      exact message_role _ _
    · rw [if_pos (by omega)]
      exact message_role _ _

theorem Dialogue.answered (h : Dialogue ms) : Answered ms := by
  induction h with
  | goal content =>
    intro i a ha hrole
    cases i with
    | zero =>
      rw [← Option.some.inj ha, message_role] at hrole
      exact absurd (Option.some.inj hrole) (by decide)
    | succ i => cases ha
  | @round ms content results h hansw ih =>
    intro i a ha hrole
    rcases getElem?_append_round ha with ⟨-, hold⟩ | ⟨rfl, rfl⟩ | ⟨rfl, rfl⟩
    · obtain ⟨u, hu, hrest⟩ := ih i a hold hrole
      have hi : i + 1 < ms.length := (List.getElem?_eq_some_iff.mp hu).1
      exact ⟨u, (getElem?_append_left hi).trans hu, hrest⟩
    · refine ⟨message "user" (.array results), ?_, message_role _ _, hansw⟩
      rw [getElem?_append_right (by omega), Nat.add_sub_cancel_left]
      rfl
    · rw [message_role] at hrole
      exact absurd (Option.some.inj hrole) (by decide)

/-! ## Working off the tool calls -/

/-- A block that reports the result of a call. -/
def IsResult (c : Json) : Prop := (c.index "type").asStr = some "tool_result"

theorem isResult_toolResult (call : AvixToolCall) (content : String) :
    IsResult (ExecutorTask.toolResult call content) := by
  simp [IsResult, ExecutorTask.toolResult, Json.ofMembers, Json.asStr]

theorem toolResult_id (call : AvixToolCall) (content : String) :
    (ExecutorTask.toolResult call content).index "tool_use_id" = .string call.callId := by
  simp [ExecutorTask.toolResult, Json.ofMembers]

/-- The ids of the results and of the calls that are left are the ids of the blocks. -/
structure Answering (round : ToolRound) : Prop where
  results : ∀ c ∈ round.results, IsResult c
  ids : round.results.map (·.index "tool_use_id") ++
      round.calls.map (fun call => Json.string call.callId) =
    (blocksOf "tool_use" round.content).map blockId

variable {round : ToolRound}

/-- One more call has got its result. -/
theorem Answering.next {round' : ToolRound} {call : AvixToolCall} {rest : List AvixToolCall}
    {content : String} (h : Answering round) (hcalls : round.calls = call :: rest)
    (hcont : round'.content = round.content) (hrest : round'.calls = rest)
    (hres : round'.results = round.results ++ [ExecutorTask.toolResult call content]) :
    Answering round' := by
  constructor
  · intro c hc
    rw [hres] at hc
    rcases mem_append.mp hc with hold | hnew
    · exact h.results c hold
    · rw [mem_singleton.mp hnew]
      exact isResult_toolResult call content
  · rw [hcont, ← h.ids, hres, hrest, hcalls, map_append, map_cons, map_nil,
      toolResult_id, map_cons, append_assoc, singleton_append]

theorem Answering.answers (h : Answering round) (hcalls : round.calls = []) :
    Answers (message "assistant" (.array round.content))
      (message "user" (.array round.results)) := by
  unfold Answers
  rw [blocks_message, blocks_message, ← h.ids, hcalls, map_nil, append_nil]
  congr 1
  refine filter_eq_self.mpr fun c hc => ?_
  rw [show (c.index "type").asStr = some "tool_result" from h.results c hc]
  rfl

/-- The calls of a response are its `tool_use` blocks. -/
theorem answering_start {resp : LlmCompleteResponse} {calls : List AvixToolCall}
    (h : interpretStopReason resp = .dispatchTools calls) :
    Answering ⟨resp.content, calls, [], []⟩ := by
  refine ⟨nofun, ?_⟩
  unfold interpretStopReason at h
  split at h
  · cases h
  · cases h
  · rw [← TurnAction.dispatchTools.inj h]
    simp only [map_nil, nil_append, map_map]
    rfl
  · cases h

/-! ## The task -/

/-- The messages of the turn a task is in. -/
def InProtocol : TurnPc → Prop
  | .iteration turn => Dialogue turn.messages
  | .draining turn => Dialogue turn.messages
  | .pausedWait turn => Dialogue turn.messages
  | .requesting turn => Dialogue turn.messages
  | .llm turn => Dialogue turn.messages
  | .tools turn round => Answering round ∧ ∃ ms, Dialogue ms ∧
      turn.messages = ms ++ [message "assistant" (.array round.content)]
  | _ => True

/-- Every call of the language model is a dialogue, except for those in `old`. -/
structure Speaks (old : List TaskEvent) (t : ExecutorTask) : Prop where
  pc : InProtocol t.pc
  calls : ∀ ms, .llmCall ms ∈ t.log → .llmCall ms ∈ old ∨ Dialogue ms

section Task

variable {D : Type} {x : ExecutorExternals D} {env : TurnEnv} {old : List TaskEvent}
  {t : ExecutorTask} {t' : ExecutorTask} {round : ToolRound}

section

variable (h : Speaks old t)

include h

/-- A step that calls nothing. -/
theorem Speaks.of_log (hpc : InProtocol t'.pc) (hlog : t'.log = t.log) : Speaks old t' := by
  refine ⟨hpc, fun ms hms => h.calls ms ?_⟩
  rw [← hlog]
  exact hms

/-- A step that takes a signal or dispatches a tool. -/
theorem Speaks.of_append {e : TaskEvent} (hpc : InProtocol t'.pc) (hlog : t'.log = t.log ++ [e])
    (he : ∀ ms, e ≠ .llmCall ms) : Speaks old t' := by
  refine ⟨hpc, fun ms hms => ?_⟩
  rw [hlog] at hms
  rcases mem_append.mp hms with hold | hnew
  · exact h.calls ms hold
  · exact absurd (mem_singleton.mp hnew).symm (he ms)

/-- The messages of the turn. -/
theorem Speaks.messages {pc : TurnPc} (hpc : t.pc = pc) : InProtocol pc := by
  rw [← hpc]
  exact h.pc

variable {turn : Turn}

theorem speaks_request (hms : Dialogue turn.messages) : Speaks old (t.request turn) := by
  refine ⟨hms, fun ms hmem => ?_⟩
  rcases mem_append.mp hmem with hold | hnew
  · exact h.calls ms hold
  · rw [TaskEvent.llmCall.inj (mem_singleton.mp hnew)]
    exact .inr hms

end

/-- A call gets exactly one result, whatever becomes of it. -/
theorem inProtocol_next {call : AvixToolCall} {rest : List AvixToolCall} {content : String}
    {dispatched : List ToolCallEntry} (h : InProtocol (.tools turn round))
    (hcalls : round.calls = call :: rest) :
    InProtocol (.tools turn { round with
      calls := rest
      results := round.results ++ [ExecutorTask.toolResult call content]
      dispatched }) :=
  ⟨h.1.next hcalls rfl rfl rfl, h.2⟩

theorem inProtocol_endRound (h : InProtocol (.tools turn round)) (hcalls : round.calls = []) :
    InProtocol (t.endRound turn round).pc := by
  obtain ⟨hansw, ms, hms, hturn⟩ := h
  have hround := Dialogue.round round.content round.results hms (hansw.answers hcalls)
  change Dialogue (turn.messages ++ [message "user" (.array round.results)])
  rw [hturn, append_assoc]
  exact hround

theorem speaks_stepsTo {taken : Option Signal} {r : ExecutorTask × ExecutorEffect}
    (h : Speaks old t) (hstep : ExecutorTask.StepsTo x env t taken r) : Speaks old r.1 := by
  cases hstep with
  | begins _ => exact h.of_log (Dialogue.goal _) rfl
  | @iterates turn hpc | @recovers turn _ hpc _ =>
    have hms : Dialogue turn.messages := h.messages hpc
    exact h.of_log hms rfl
  | @drained turn hpc =>
    have hms : Dialogue turn.messages := h.messages hpc
    refine h.of_log ?_ rfl
    cases t.executor.paused <;> exact hms
  | rests _ _ _ => exact h
  | dies _ _ _ => exact h.of_append trivial rfl nofun
  | heeds _ _ _ => exact h.of_append h.pc rfl nofun
  | @unpauses turn _ _ _ hpc | @retries turn _ _ _ hpc =>
    have hms : Dialogue turn.messages := h.messages hpc
    exact h.of_append hms rfl nofun
  | requests hpc => exact speaks_request h (h.messages hpc)
  | @works turn _ _ hpc _ hcalls _ =>
    exact h.of_log ⟨answering_start hcalls, turn.messages, h.messages hpc, rfl⟩ rfl
  | endsRound hpc hcalls => exact h.of_log (inProtocol_endRound (h.messages hpc) hcalls) rfl
  | refuses hpc hcalls _ | gates hpc hcalls _ _ _ =>
    exact h.of_log (inProtocol_next (h.messages hpc) hcalls) rfl
  | dispatches hpc hcalls _ _ =>
    exact h.of_append (inProtocol_next (h.messages hpc) hcalls) rfl nofun
  | passes _ hpass => cases hpass <;> exact h.of_log trivial rfl
  | @takesGoal reason | @stopsWaiting reason => cases reason <;> exact h.of_append trivial rfl nofun
  | _ => exact h.of_log trivial rfl

theorem speaks_step (h : Speaks old t) : Speaks old (t.step x env).1 :=
  speaks_stepsTo h ExecutorTask.stepsTo_step

end Task

/-! ## Main statement -/

theorem turn_protocol {D : Type} (x : ExecutorExternals D) (t : ExecutorTask) (goal : String)
    (es : List TaskInput) (ms : List Json)
    (hcall : .llmCall ms ∈ (run (advance x) (t.beginTurn goal) es).log) :
    .llmCall ms ∈ t.log ∨ Alternates ms ∧ Answered ms := by
  have hstep : ∀ (u : ExecutorTask) (input : TaskInput), Speaks t.log u →
      Speaks t.log (advance x u input) := by
    intro u input hu
    cases input with
    | step env => exact speaks_step hu
    | receive sig => exact ⟨hu.pc, hu.calls⟩
  have hstart : Speaks t.log (t.beginTurn goal) :=
    ⟨Dialogue.goal (.string goal), fun ms hms => .inl hms⟩
  have hfinal := run_invariant hstep hstart es
  exact (hfinal.calls ms hcall).imp_right fun h => ⟨h.alternates, h.answered⟩

/-! ## A block without a string id -/

open Security

/-- A block that calls the tool `fs/read`. -/
def readBlock (id : Json) : Json :=
  .ofMembers [("type", .string "tool_use"), ("id", id), ("name", .string "fs__read"),
    ("input", .null)]

/-- The agent `lead` is answered with two blocks, and calls the language model again. -/
def twoReads (id id' : Json) : List TaskInput :=
  List.replicate 10 (.step (deskEnv (.response ⟨[readBlock id, readBlock id'], .toolUse⟩)))

def afterReads (id id' : Json) : ExecutorTask :=
  run (advance deskExternals) (leadTask.beginTurn "read") (twoReads id id')

/-- The messages of the second call. -/
def secondCall (id id' : Json) : Option (List Json) :=
  ((afterReads id id').log.filterMap fun e => match e with
    | .llmCall ms => some ms
    | _ => none)[1]?

theorem mem_log_of_secondCall {id id' : Json} (h : secondCall id id' = some ms) :
    .llmCall ms ∈ (afterReads id id').log := by
  obtain ⟨e, he, hms⟩ := mem_filterMap.mp (mem_of_getElem? h)
  cases e with
  | llmCall ms' =>
    rw [← Option.some.inj hms]
    exact he
  | took sig | toolDispatch call => cases hms

theorem turn_protocol_reads : ∃ goal a u,
    secondCall (.string "a") (.string "b") = some [goal, a, u] ∧
      (blocksOf "tool_use" (blocks a)).map blockId = [.string "a", .string "b"] ∧
      Alternates [goal, a, u] ∧ Answered [goal, a, u] := by
  obtain ⟨goal, a, u, hcall, hids⟩ : ∃ goal a u,
      secondCall (.string "a") (.string "b") = some [goal, a, u] ∧
      (blocksOf "tool_use" (blocks a)).map blockId = [.string "a", .string "b"] :=
    ⟨_, _, _, rfl, rfl⟩
  have h := turn_protocol deskExternals leadTask "read" (twoReads (.string "a") (.string "b"))
    [goal, a, u] (mem_log_of_secondCall hcall)
  exact ⟨goal, a, u, hcall, hids, h.resolve_left nofun⟩

/-- A block whose id is a number gets a result with an empty id. -/
theorem answered_with_empty_id : ∃ goal a u, secondCall (.int 5) (.string "b") = some [goal, a, u] ∧
    (blocksOf "tool_use" (blocks a)).map (·.index "id") = [.int 5, .string "b"] ∧
    (blocksOf "tool_result" (blocks u)).map (·.index "tool_use_id") = [.string "", .string "b"] :=
  ⟨_, _, _, rfl, rfl, rfl⟩

end Avix.Protocol
