/-
  The conversation of an invocation, in memory and in its file (`invocation/store.rs`,
  `executor/runtime_executor.rs`, `executor/runtime_executor/dispatch_manager.rs`).

  An executor appends to its history and saves all of it from time to time, each time over the
  old file. Which steps of the task save is `ExecutorTask.save?`; what is saved is the history
  after the step.

  Model. A file is the list of entries that `read_conversation` decodes. `serde_json` gives back
  what it has written, except that a result that is null comes back as none (`stored`). The file
  of an invocation is named after user, session and pid, and only its executor writes it. A write
  that fails leaves the file as it was.

  * `continues_step`: the history of an executor that runs only grows.
-/
import Avix.Executor.TurnLoop

namespace Avix

open Lib

/-! ## The file -/

/-- `result: Option<Value>`, written and read. -/
def storedResult : Option Json → Option Json
  | some .null => none
  | result => result

def ToolCallEntry.stored (c : ToolCallEntry) : ToolCallEntry :=
  { c with result := storedResult c.result }

/-- An entry, written and read. -/
def ConversationEntry.stored (e : ConversationEntry) : ConversationEntry :=
  { e with toolCalls := e.toolCalls.map ToolCallEntry.stored }

@[simp]
theorem storedResult_storedResult (result : Option Json) :
    storedResult (storedResult result) = storedResult result := by
  cases result with
  | none => rfl
  | some v => cases v <;> rfl

@[simp]
theorem ToolCallEntry.stored_stored (c : ToolCallEntry) : c.stored.stored = c.stored := by
  simp [stored]

@[simp]
theorem ConversationEntry.stored_stored (e : ConversationEntry) : e.stored.stored = e.stored := by
  simp [stored, Function.comp_def]

/-- `<username>/.sessions/<session_id>/<pid>.jsonl`, if it exists. -/
abbrev ConversationFile := Option (List ConversationEntry)

/-- `InvocationStore::write_conversation_structured`. -/
def writeConversation (entries : List ConversationEntry) : ConversationFile :=
  some (entries.map ConversationEntry.stored)

/-- `InvocationStore::read_conversation`: a file that cannot be read is an empty one. -/
def readConversation (readFails : Bool) (file : ConversationFile) : List ConversationEntry :=
  if readFails then [] else file.getD []

/-- `InvocationStore::persist_interim` and `persist_interim_structured`. -/
def persistInterim (entries : List ConversationEntry) (file : ConversationFile) :
    ConversationFile :=
  if entries.isEmpty then file else writeConversation entries

/-! ## Saving -/

/-- How a step saves. -/
inductive SaveCall where
  /-- `persist_interim` and `persist_interim_structured`. -/
  | interim
  /-- `write_conversation_structured` at the shutdown. -/
  | flush
  deriving DecidableEq, Repr

def SaveCall.apply (entries : List ConversationEntry) (file : ConversationFile) :
    SaveCall → ConversationFile
  | .interim => persistInterim entries file
  | .flush => writeConversation entries

namespace ExecutorTask

variable {D : Type} (x : ExecutorExternals D) (env : TurnEnv) (t : ExecutorTask)

/-- The step has ended the turn with a result. -/
def finishes : Bool :=
  match (t.step x env).1.pc with
  | .persistIdle .idle => true
  | _ => false

/-- Whether the step saves the conversation. Every call that is dispatched is logged. -/
def save? : Option SaveCall :=
  match t.pc with
  | .requesting _ => if t.executor.snapshotRequested then some .interim else none
  | .llm _ =>
    match env.llm with
    | .response _ => if t.finishes x env then some .interim else none
    | .signal => if t.signalRx.head?.map (·.kind) = some .save then some .interim else none
    | .failed _ => none
  | .tools _ _ => if t.log.length < (t.step x env).1.log.length then some .interim else none
  | .persistIdle _ => some .interim
  | .finalizing => some .flush
  | _ => none

/-! ## The history grows -/

/-- The conversation in memory. -/
def history : List ConversationEntry := t.executor.conversationHistory

/-- `t'` is a later state of the same executor: nothing is lost from its history. -/
structure Continues (t t' : ExecutorTask) : Prop where
  history : t.history <+: t'.history
  launched : t'.pc ≠ .starting

variable {x env t}

theorem Continues.of_eq {t' : ExecutorTask} (h : t'.history = t.history) (hpc : t'.pc ≠ .starting) :
    Continues t t' := ⟨h ▸ List.prefix_rfl, hpc⟩

theorem Continues.of_append {t' : ExecutorTask} {entries : List ConversationEntry}
    (h : t'.history = t.history ++ entries) (hpc : t'.pc ≠ .starting) : Continues t t' :=
  ⟨h ▸ List.prefix_append _ _, hpc⟩

theorem history_handled (t : ExecutorTask) (sig : Signal) :
    (t.handled sig).1.conversationHistory = t.history := by
  obtain ⟨⟨_, _, _, _, heq⟩, -⟩ := t.handled_eq sig
  rw [heq]
  rfl

theorem StepsTo.continues {taken : Option Signal} {r : ExecutorTask × ExecutorEffect}
    (h : StepsTo x env t taken r) (hpc : t.pc ≠ .starting) : Continues t r.1 := by
  have hrenew : (t.executor.maybeRenewToken x env.now env.later env.uuid).conversationHistory =
      t.history := by
    obtain ⟨token, heq⟩ := t.executor.maybeRenewToken_eq x env.now env.later env.uuid
    rw [heq]
    rfl
  cases h with
  | crashes hstar _ | restores hstar _ => exact absurd hstar hpc
  | begins _ | answers _ _ _ | limits _ _ _ _ | fails _ _ => exact .of_append rfl nofun
  | expires _ _ => exact .of_append (congrArg (· ++ _) hrenew) nofun
  | iterates _ => exact .of_eq hrenew nofun
  | drained _ =>
    refine .of_eq rfl ?_
    dsimp only [goto]
    split_ifs <;> nofun
  | rests _ _ _ => exact .of_eq rfl hpc
  | @dies sig => exact .of_append (congrArg (· ++ _) (t.history_handled sig)) nofun
  | @heeds sig => exact .of_eq (t.history_handled sig) hpc
  | @unpauses _ sig | @retries _ sig => exact .of_eq (t.history_handled sig) nofun
  | @takesGoal reason sig | @stopsWaiting reason sig =>
    cases reason <;> exact .of_eq (t.history_handled sig) nofun
  | endsRound _ _ =>
    refine ⟨?_, nofun⟩
    show t.history <+: if _ then t.history else t.history ++ [_]
    split_ifs
    · exact List.prefix_rfl
    · exact List.prefix_append _ _
  | @dispatches _ _ call _ toolBudgets _ _ _ _ _ _ =>
    obtain ⟨_, entries, _, _, heq⟩ := t.dispatch_eq x env toolBudgets call
    exact .of_append (congrArg RuntimeExecutor.conversationHistory heq) nofun
  | passes _ h => cases h <;> exact .of_eq rfl nofun
  | _ => exact .of_eq rfl nofun

theorem continues_step (hpc : t.pc ≠ .starting) : Continues t (t.step x env).1 :=
  stepsTo_step.continues hpc

end ExecutorTask

end Avix
