/-
  LIFECYCLE — the conversation of an executor across turns and restarts.

  `conversation_continuity_iff`: take any run of one executor: any goals, responses,
  signals and failed turns, and kernel restarts that restore it from its conversation file. Then
  * the first request of every turn contains, in order, the goals and final texts of all earlier
    turns in the executor's history and then the new goal, and
  * the conversation in the file is at any time a prefix of the one at any later time,
  if and only if no turn that gets to a request begins with a goal or a final text of an earlier
  turn in its history. The second part always holds. Assumed: a restore can read the file.

  Reason. `run_with_client` starts every turn with a message list that holds nothing but the new
  goal; the history is written to the file and never sent.
-/
import Avix.Invocation.Conversation
import Avix.Security.KilledStaysDead

namespace Avix.Lifecycle

open Lib ExecutorTask List

/-! ## One executor and its file -/

/-- A turn that has begun, with the history before it. -/
structure OpenTurn where
  history : List ConversationEntry
  goal : String

structure FirstRequest extends OpenTurn where
  messages : List Json

/-- An executor and its conversation file. Not in the source: the turn that has not made its
    first request yet, and the first requests that were made. -/
structure ConversationSystem where
  task : ExecutorTask
  file : ConversationFile
  opened : Option OpenTurn
  requests : List FirstRequest

/-- Whether the conversation file can be read and written. -/
structure DiskEnv where
  readFails : Bool
  writeFails : Bool

inductive ConversationInput where
  | step (env : TurnEnv) (disk : DiskEnv)
  /-- A signal comes into the channel. -/
  | receive (sig : Signal)
  /-- The kernel restarts, and `restore_from_invocation` launches a new executor. -/
  | restart (goal : String) (token : CapabilityToken) (handler : KernelResourceHandler)

namespace ConversationSystem

/-- A new agent, which has no file yet. -/
def spawned (params : SpawnParams) (handler : KernelResourceHandler) : ConversationSystem :=
  ⟨.new { params with restoreFromPid := none } handler, none, none, []⟩

variable {D : Type} (x : ExecutorExternals D) (s : ConversationSystem)

def persisted : List ConversationEntry := s.file.getD []

/-- A step of the task that takes its history from the file, if it is restored. -/
def envOf (env : TurnEnv) (disk : DiskEnv) : TurnEnv :=
  { env with history := readConversation disk.readFails s.file }

def nextTask (env : TurnEnv) (disk : DiskEnv) : ExecutorTask :=
  (s.task.step x (s.envOf env disk)).1

/-- The file after the step. -/
def nextFile (env : TurnEnv) (disk : DiskEnv) : ConversationFile :=
  match s.task.save? x (s.envOf env disk) with
  | some call =>
    if disk.writeFails then s.file else call.apply (s.nextTask x env disk).history s.file
  | none => s.file

def step : ConversationInput → ConversationSystem
  | .step env disk =>
    let s' := { s with task := s.nextTask x env disk, file := s.nextFile x env disk }
    match s.task.pc with
    | .settingRunning goal => { s' with opened := some ⟨s.task.history, goal⟩ }
    | .requesting turn =>
      { s' with
        opened := none
        requests := s.requests ++ (s.opened.map fun o => ⟨o, turn.messages⟩).toList }
    | _ => s'
  | .receive sig => { s with task := { s.task with signalRx := s.task.signalRx ++ [sig] } }
  | .restart goal token handler =>
    { s with
      task := .new { s.task.params with
        goal, token, atpSessionId := "", deniedTools := []
        restoreFromPid := some s.task.params.pid } handler
      opened := none }

end ConversationSystem

open ConversationSystem hiding step

/-! ## Recorded conversations -/

/-- Something said in a conversation. -/
structure Utterance where
  role : String
  text : String
  deriving DecidableEq, Repr

/-- The goals and final texts of a history. A goal is an entry of the user; the final text of a
    turn is the entry of the assistant, without tool calls, that ends it. -/
def spoken : List ConversationEntry → List Utterance
  | [] => []
  | e :: rest =>
    if e.role = .user then ⟨"user", e.content⟩ :: spoken rest
    else if e.role = .assistant ∧ e.toolCalls.isEmpty ∧
        rest.head?.all (fun next => next.role = .user) then
      ⟨"assistant", e.content⟩ :: spoken rest
    else spoken rest

/-- A message of a request, as text. -/
def utteranceOf (m : Json) : Utterance where
  role := ((m.index "role").asStr).getD ""
  text :=
    match m.index "content" with
    | .string text => text
    | .array items => textOf items
    | _ => ""

/-- The request contains what was said in earlier turns, in order, and then the goal. -/
def FirstRequest.Recalls (r : FirstRequest) : Prop :=
  List.Sublist (spoken r.history ++ [⟨"user", r.goal⟩]) (r.messages.map utteranceOf)

/-- The message that begins a turn. -/
def goalMessage (goal : String) : Json :=
  .ofMembers [("role", .string "user"), ("content", .string goal)]

theorem utteranceOf_goalMessage (goal : String) :
    utteranceOf (goalMessage goal) = ⟨"user", goal⟩ := by
  have hrole : (goalMessage goal).index "role" = .string "user" := by
    rw [goalMessage, Json.index_ofMembers]
    rfl
  have hcont : (goalMessage goal).index "content" = .string goal := by
    rw [goalMessage, Json.index_ofMembers]
    rfl
  rw [utteranceOf, hrole, hcont]
  rfl

/-! ## The requests -/

/-- Before its first request, a turn has only its goal to send. -/
def OnlyGoal (goal : String) : TurnPc → Prop
  | .iteration turn => turn.messages = [goalMessage goal]
  | .draining turn => turn.messages = [goalMessage goal]
  | .pausedWait turn => turn.messages = [goalMessage goal]
  | .requesting turn => turn.messages = [goalMessage goal]
  | .llm _ => False
  | .tools _ _ => False
  | _ => True

section Steps

variable {D : Type} {x : ExecutorExternals D} {env : TurnEnv} {t : ExecutorTask} {goal : String}

theorem onlyGoal_stepsTo {taken : Option Signal} {r : ExecutorTask × ExecutorEffect}
    (hstep : ExecutorTask.StepsTo x env t taken r) (h : OnlyGoal goal t.pc)
    (hreq : ∀ turn, t.pc ≠ .requesting turn)
    (hrunn : ∀ goal', t.pc ≠ .settingRunning goal') : OnlyGoal goal r.1.pc := by
  have hgoal : ∀ {pc}, t.pc = pc → OnlyGoal goal pc := fun hpc => hpc ▸ h
  cases hstep with
  | begins hpc => exact absurd hpc (hrunn _)
  | requests hpc => exact absurd hpc (hreq _)
  | iterates hpc | unpauses _ hpc =>
    rw [hpc] at h
    exact h
  | drained hpc =>
    rw [hpc] at h
    dsimp only [goto]
    split_ifs <;> exact h
  | rests _ _ _ | heeds _ _ _ => exact h
  | retries _ hpc | works hpc _ _ _ | recovers hpc _ | endsRound hpc _ | refuses hpc _ _
  | gates hpc _ _ _ _ | dispatches hpc _ _ _ => exact (hgoal hpc).elim
  | @takesGoal reason | @stopsWaiting reason => cases reason <;> trivial
  | passes _ hpass => cases hpass <;> trivial
  | _ => trivial

/-- As long as the turn makes no request, there is nothing else to send. -/
theorem onlyGoal_step (h : OnlyGoal goal t.pc) (hreq : ∀ turn, t.pc ≠ .requesting turn)
    (hrunn : ∀ goal', t.pc ≠ .settingRunning goal') : OnlyGoal goal (t.step x env).1.pc :=
  onlyGoal_stepsTo stepsTo_step h hreq hrunn

end Steps

/-- What is known of the turns of a run. -/
structure GoalsOnly (s : ConversationSystem) : Prop where
  opened : ∀ o, s.opened = some o → OnlyGoal o.goal s.task.pc
  requests : ∀ r ∈ s.requests, r.messages = [goalMessage r.goal]

section Run

variable {D : Type} {x : ExecutorExternals D}

theorem goalsOnly_step (s : ConversationSystem) (e : ConversationInput) (h : GoalsOnly s) :
    GoalsOnly (s.step x e) := by
  cases e with
  | receive sig => exact ⟨h.opened, h.requests⟩
  | restart goal token handler => exact ⟨nofun, h.requests⟩
  | step env disk =>
    unfold ConversationSystem.step
    dsimp only
    split
    case h_1 goal hpc =>
      refine ⟨fun o ho => ?_, h.requests⟩
      cases ho
      show OnlyGoal goal (s.task.step x (s.envOf env disk)).1.pc
      unfold step
      rw [hpc]
      exact rfl
    case h_2 turn hpc =>
      refine ⟨nofun, fun r hr => ?_⟩
      rcases mem_append.mp hr with hold | hnew
      · exact h.requests r hold
      obtain ⟨o, ho, rfl⟩ := Option.map_eq_some_iff.mp (Option.mem_toList.mp hnew)
      have hgoal := h.opened o ho
      rw [hpc] at hgoal
      exact hgoal
    case h_3 hrunn hreq =>
      refine ⟨fun o ho => ?_, h.requests⟩
      exact onlyGoal_step (h.opened o ho) (fun turn => hreq turn) fun goal => hrunn goal

theorem goalsOnly_run (params : SpawnParams) (handler : KernelResourceHandler)
    (es : List ConversationInput) :
    GoalsOnly (run (ConversationSystem.step x) (.spawned params handler) es) :=
  run_invariant goalsOnly_step
    ⟨fun _ ho => absurd ho (Option.some_ne_none _).symm, fun _ hr => absurd hr not_mem_nil⟩ es

/-- A request of nothing but the goal recalls exactly an empty past. -/
theorem recalls_iff {r : FirstRequest} (h : r.messages = [goalMessage r.goal]) :
    r.Recalls ↔ spoken r.history = [] := by
  rw [FirstRequest.Recalls, h, map_singleton, utteranceOf_goalMessage]
  constructor
  · intro hsub
    have hleng := hsub.length_le
    rw [length_append, length_singleton] at hleng
    exact length_eq_zero_iff.mp (by omega)
  · intro hnone
    rw [hnone, nil_append]

/-! ## The file -/

/-- A restore can read the file. -/
def Reads (s : ConversationSystem) : ConversationInput → Prop
  | .step _ disk =>
    s.task.pc = .starting → s.task.params.restoreFromPid.isSome → disk.readFails = false
  | _ => True

/-- The file holds the beginning of the history in memory. -/
structure Behind (s : ConversationSystem) : Prop where
  read : s.persisted.map ConversationEntry.stored = s.persisted
  new : s.task.pc = .starting → s.task.params.restoreFromPid = none → s.file = none
  behind : s.task.pc ≠ .starting → s.task.pc ≠ .ended →
    s.persisted <+: s.task.history.map ConversationEntry.stored

theorem persisted_apply (entries : List ConversationEntry) (file : ConversationFile)
    (call : SaveCall) :
    call.apply entries file = file ∨ call.apply entries file = writeConversation entries := by
  cases call with
  | flush => exact .inr rfl
  | interim =>
    unfold SaveCall.apply persistInterim
    dsimp only
    split_ifs
    · exact .inl rfl
    · exact .inr rfl

/-- A step leaves the file, or writes the whole history into it. -/
theorem nextFile_cases (s : ConversationSystem) (env : TurnEnv) (disk : DiskEnv) :
    s.nextFile x env disk = s.file ∨
      s.nextFile x env disk = writeConversation (s.nextTask x env disk).history ∧
        s.task.pc ≠ .starting ∧ s.task.pc ≠ .ended := by
  unfold nextFile
  split
  · rename_i call hsave
    split_ifs
    · exact .inl rfl
    refine (persisted_apply _ s.file call).imp id fun h => ⟨h, fun hpc => ?_, fun hpc => ?_⟩ <;>
    · rw [save?, hpc] at hsave
      cases hsave
  · exact .inl rfl

theorem behind_step_task {s s' : ConversationSystem} (env : TurnEnv) (disk : DiskEnv)
    (htask : s'.task = s.nextTask x env disk) (hfile : s'.file = s.nextFile x env disk)
    (h : Behind s) (hreads : Reads s (.step env disk)) :
    Behind s' ∧ s.persisted <+: s'.persisted := by
  by_cases hstart : s.task.pc = .starting
  · -- the executor is launched: a restored one has the history from the file
    have hsame : s'.persisted = s.persisted := by
      rcases nextFile_cases s env disk with hold | ⟨-, hne, -⟩
      · rw [persisted, hfile, hold, persisted]
      · exact absurd hstart hne
    have hnext : s.nextTask x env disk = (s.task.start (s.envOf env disk)).1 := by
      unfold nextTask step
      rw [hstart]
    refine ⟨⟨hsame ▸ h.read, fun hpc _ => ?_, fun _ hended => ?_⟩, hsame ▸ prefix_rfl⟩
    · rw [htask, hnext] at hpc
      unfold start at hpc
      split_ifs at hpc <;> cases hpc
    · rw [htask, hnext] at hended ⊢
      rw [hsame]
      unfold start at hended ⊢
      split_ifs at hended ⊢ with hfails hrest
      · exact absurd rfl hended
      · show s.persisted <+: (readConversation disk.readFails s.file).map _
        rw [hreads hstart hrest]
        exact (h.read.symm ▸ prefix_rfl)
      · have hnone := h.new hstart (Option.not_isSome_iff_eq_none.mp hrest)
        rw [persisted, hnone]
        exact nil_prefix
  · have hcont : ExecutorTask.Continues s.task (s.nextTask x env disk) :=
      continues_step hstart
    have hgrows := hcont.history.map ConversationEntry.stored
    have hnew : s'.task.pc ≠ .starting := htask ▸ hcont.launched
    rcases nextFile_cases s env disk with hold | ⟨hwrit, -, hended⟩
    · have hsame : s'.persisted = s.persisted := by
        rw [persisted, hfile, hold, persisted]
      refine ⟨⟨hsame ▸ h.read, fun hpc => absurd hpc hnew, fun _ hended' => ?_⟩, hsame ▸ prefix_rfl⟩
      rw [hsame, htask]
      refine (h.behind hstart fun hended => hended' ?_).trans hgrows
      rw [htask, nextTask, step, hended]
      exact hended
    · have hall : s'.persisted = (s.nextTask x env disk).history.map ConversationEntry.stored := by
        rw [persisted, hfile, hwrit]
        rfl
      refine ⟨⟨?_, fun hpc => absurd hpc hnew, fun _ _ => ?_⟩, ?_⟩
      · rw [hall, map_map]
        exact map_congr_left fun e _ => e.stored_stored
      · rw [hall, htask]
      · rw [hall]
        exact (h.behind hstart hended).trans hgrows

theorem behind_step (s : ConversationSystem) (e : ConversationInput) (h : Behind s)
    (hreads : Reads s e) : Behind (s.step x e) ∧ s.persisted <+: (s.step x e).persisted := by
  cases e with
  | receive sig => exact ⟨⟨h.read, h.new, h.behind⟩, prefix_rfl⟩
  | restart goal token handler =>
    exact ⟨⟨h.read, fun _ => nofun, fun hpc => absurd rfl hpc⟩, prefix_rfl⟩
  | step env disk =>
    refine behind_step_task (x := x) env disk ?_ ?_ h hreads <;>
    · unfold ConversationSystem.step
      dsimp only
      split <;> rfl

/-- What is persisted stays the beginning of what is persisted later. -/
theorem persisted_prefix {s : ConversationSystem} {es : List ConversationInput} (h : Behind s)
    (hreads : Guarded (ConversationSystem.step x) Reads s es) :
    s.persisted <+: (run (ConversationSystem.step x) s es).persisted :=
  guarded_related (R := fun s s' => s.persisted <+: s'.persisted) (fun _ => prefix_rfl)
    (fun _ _ _ => List.IsPrefix.trans) behind_step h hreads

/-- The conversation goes on across turns. -/
structure Continuous (x : ExecutorExternals D) (s : ConversationSystem)
    (es : List ConversationInput) : Prop where
  recalls : ∀ r ∈ (run (ConversationSystem.step x) s es).requests, r.Recalls
  persists : ∀ earlier later rest, es = earlier ++ later ++ rest →
    (run (ConversationSystem.step x) s earlier).persisted <+:
      (run (ConversationSystem.step x) s (earlier ++ later)).persisted

theorem conversation_continuity_iff (x : ExecutorExternals D) (params : SpawnParams)
    (handler : KernelResourceHandler) (es : List ConversationInput)
    (hreads : Guarded (ConversationSystem.step x) Reads (.spawned params handler) es) :
    Continuous x (.spawned params handler) es ↔
      ∀ r ∈ (run (ConversationSystem.step x) (.spawned params handler) es).requests,
        spoken r.history = [] := by
  have hgoals := (goalsOnly_run (x := x) params handler es).requests
  have hstart : Behind (.spawned params handler) :=
    ⟨rfl, fun _ _ => rfl, fun hpc => absurd rfl hpc⟩
  constructor
  · intro h r hr
    exact (recalls_iff (hgoals r hr)).mp (h.recalls r hr)
  · intro h
    refine ⟨fun r hr => (recalls_iff (hgoals r hr)).mpr (h r hr), ?_⟩
    rintro earlier later rest rfl
    have hboth := (guarded_append.mp hreads).1
    rw [guarded_append] at hboth
    have hbeh : Behind (run (ConversationSystem.step x) (.spawned params handler) earlier) :=
      guarded_invariant (fun s e hs he => (behind_step s e hs he).1) hstart hboth.1
    rw [run_append]
    exact persisted_prefix hbeh hboth.2

end Run

/-! ## Two turns -/

open Security

def reporterParams : SpawnParams :=
  ⟨1, "lead", "write the report", "alice", "sess-1", "", readerExecutor.token, [], "inv-1", none⟩

/-- The language model answers with a text. -/
def doneResponse : LlmCompleteResponse :=
  ⟨[.ofMembers [("type", .string "text"), ("text", .string "Done.")]], .endTurn⟩

/-- Steps of the executor, with a disk that works. -/
def turnSteps (n : Nat) : List ConversationInput :=
  List.replicate n (.step (deskEnv (.response doneResponse)) ⟨false, false⟩)

/-- The first turn up to its request, and on to the wait for the next goal. -/
def firstTurn : List ConversationInput := turnSteps 10

/-- The next goal comes, and the second turn makes its request. -/
def secondTurn : List ConversationInput :=
  firstTurn ++ [.receive ⟨1, .start, .ofMembers [("goal", .string "shorten it")]⟩] ++ turnSteps 6

def reporter (es : List ConversationInput) : ConversationSystem :=
  run (ConversationSystem.step deskExternals) (.spawned reporterParams (.new officeKey)) es

theorem reads_steps {s : ConversationSystem} (n : Nat) :
    Guarded (ConversationSystem.step deskExternals) Reads s (turnSteps n) := by
  induction n generalizing s with
  | zero => trivial
  | succ n ih => exact ⟨fun _ _ => rfl, ih⟩

/-- The first turn has nothing to recall. -/
theorem first_turn_continuous : (reporter firstTurn).requests.map (·.goal) = ["write the report"] ∧
    Continuous deskExternals (.spawned reporterParams (.new officeKey)) firstTurn := by
  have hpast : (reporter firstTurn).requests.map (fun r => spoken r.history) = [[]] := by
    decide +kernel
  refine ⟨by decide +kernel, (conversation_continuity_iff deskExternals reporterParams
    (.new officeKey) firstTurn (reads_steps 10)).mpr fun r hr => ?_⟩
  have hmem : spoken r.history ∈ [[]] := hpast ▸ mem_map_of_mem hr
  exact mem_singleton.mp hmem

/-- The second turn knows the first goal and its answer, and sends only the new goal. -/
theorem second_turn_forgets : ∃ r ∈ (reporter secondTurn).requests,
    spoken r.history = [⟨"user", "write the report"⟩, ⟨"assistant", "Done."⟩] ∧
    r.messages = [goalMessage "shorten it"] ∧ ¬r.Recalls := by
  have hturns : (reporter secondTurn).requests.map (fun r => (r.goal, spoken r.history)) =
      [("write the report", []),
        ("shorten it", [⟨"user", "write the report"⟩, ⟨"assistant", "Done."⟩])] := by
    decide +kernel
  have hsec : ("shorten it", [⟨"user", "write the report"⟩, ⟨"assistant", "Done."⟩]) ∈
      (reporter secondTurn).requests.map (fun r => (r.goal, spoken r.history)) := by
    rw [hturns]
    exact mem_cons_of_mem _ mem_cons_self
  obtain ⟨r, hr, heq⟩ := mem_map.mp hsec
  obtain ⟨hgoal, hpast⟩ := Prod.mk.inj heq
  have hmess : r.messages = [goalMessage r.goal] :=
    (goalsOnly_run reporterParams (.new officeKey) secondTurn).requests r hr
  refine ⟨r, hr, hpast, hgoal ▸ hmess, fun hrec => ?_⟩
  rw [recalls_iff hmess, hpast] at hrec
  cases hrec

end Avix.Lifecycle
