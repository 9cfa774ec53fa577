/-
  The writers of invocation records (`invocation/store.rs`, and its callers in
  `kernel/proc/agent.rs`, `kernel/proc/signals.rs`, `kernel/proc/mod.rs`,
  `executor/runtime_executor.rs` and `bootstrap/executor_factory.rs`).

  Every operation of the store but `create` reads the record in one transaction, changes it and
  inserts it in another (`StoreOp`); in between the operations of other tasks come in. The
  kernel has any number of them under way, an executor waits for its own. A restart loses
  everything but the rows of the database.

  `InvocationRow` adds the counters to the record of `Session/Store`. For an operation that is
  not interrupted the two models agree (`lookup_records_write`).

  An executor counts tokens and tool calls itself, from zero also when it is restored. The
  process table has counters, too; its `record_tokens` and `increment_tool_calls_total` are
  called by nobody.
-/
import Avix.Session.Store
import Avix.Lib.Run
import Avix.Lib.ReadWrite

namespace Avix

open Lib

/-! ## Rows and operations -/

/-- `tokens_consumed` and `tool_calls_total`. -/
structure Counters where
  tokensConsumed : Nat := 0
  toolCallsTotal : Nat := 0
  deriving DecidableEq, Repr

namespace Counters

instance : LE Counters :=
  ⟨fun c d => c.tokensConsumed ≤ d.tokensConsumed ∧ c.toolCallsTotal ≤ d.toolCallsTotal⟩

instance : Preorder Counters where
  le_refl c := ⟨Nat.le_refl _, Nat.le_refl _⟩
  le_trans _ _ _ h h' := ⟨h.1.trans h'.1, h.2.trans h'.2⟩

/-- `saturating_add` to a `u64` and to a `u32`. -/
def add (c : Counters) (tokens calls : Nat) : Counters :=
  ⟨min (c.tokensConsumed + tokens) (2 ^ 64 - 1), min (c.toolCallsTotal + calls) (2 ^ 32 - 1)⟩

/-- The values of a `u64` and a `u32`. -/
def InRange (c : Counters) : Prop := c.tokensConsumed < 2 ^ 64 ∧ c.toolCallsTotal < 2 ^ 32

theorem le_add {c : Counters} (h : c.InRange) (tokens calls : Nat) : c ≤ c.add tokens calls := by
  obtain ⟨htok, hcalls⟩ := h
  constructor
  · change c.tokensConsumed ≤ min (c.tokensConsumed + tokens) (2 ^ 64 - 1)
    omega
  · change c.toolCallsTotal ≤ min (c.toolCallsTotal + calls) (2 ^ 32 - 1)
    omega

theorem inRange_add (c : Counters) (tokens calls : Nat) : (c.add tokens calls).InRange := by
  constructor
  · change min (c.tokensConsumed + tokens) (2 ^ 64 - 1) < 2 ^ 64
    omega
  · change min (c.toolCallsTotal + calls) (2 ^ 32 - 1) < 2 ^ 32
    omega

theorem inRange_zero : ({} : Counters).InRange := ⟨by decide, by decide⟩

end Counters

/-- `invocation::InvocationRecord` with its counters. -/
structure InvocationRow extends InvocationRecord where
  counters : Counters := {}
  deriving DecidableEq, Repr

/-- What an operation of `InvocationStore` does to the record it has read. -/
inductive RowChange where
  | finalize (status : InvocationStatus) (counters : Counters) (exitReason : Option String)
  | updateStatus (status : InvocationStatus)
  | updateGoal (goal : String)
  /-- `persist_interim` and `persist_interim_structured`. -/
  | persistInterim (counters : Counters)

namespace RowChange

def apply (r : InvocationRow) : RowChange → InvocationRow
  | .finalize status counters exitReason => { r with status, counters, exitReason }
  | .updateStatus status => { r with status }
  | .updateGoal goal => { r with goal }
  | .persistInterim counters => { r with counters }

/-- The operation at one go, on the records without counters. -/
def onStore (store : InvocationStore) (id : String) : RowChange → InvocationStore
  | .finalize status _ exitReason => store.finalize false id status exitReason
  | .updateStatus status => store.updateStatus false id status
  | .updateGoal goal => store.updateGoal false id goal
  | .persistInterim _ => store

end RowChange

/-- The records without their counters. -/
def records (rows : HashMap String InvocationRow) : InvocationStore where
  entries := rows.entries.map (Sigma.map id fun _ => InvocationRow.toInvocationRecord)
  nodupKeys := by
    have hkeys := rows.nodupKeys
    unfold List.NodupKeys List.keys at hkeys ⊢
    rw [List.map_map]
    exact hkeys

theorem lookup_records (rows : HashMap String InvocationRow) (id : String) :
    (records rows).lookup id = (rows.lookup id).map InvocationRow.toInvocationRecord :=
  List.dlookup_map₂ id

theorem lookup_records_write {rows : HashMap String InvocationRow} {id : String}
    {r : InvocationRow} (hr : rows.lookup id = some r) (change : RowChange) (id' : String) :
    (records (rows.insert id (change.apply r))).lookup id' =
      (change.onStore (records rows) id).lookup id' := by
  have hrec : (records rows).lookup id = some r.toInvocationRecord := by
    rw [lookup_records, hr]
    rfl
  have hmod : ∀ f, (InvocationStore.modify (records rows) false id f).lookup id' =
      if id' = id then some (f r.toInvocationRecord) else (records rows).lookup id' := by
    intro f
    split_ifs with h
    · rw [h, InvocationStore.lookup_modify_self, hrec]
      rfl
    · exact InvocationStore.lookup_modify_ne h f
  have hins : (records (rows.insert id (change.apply r))).lookup id' =
      if id' = id then some (change.apply r).toInvocationRecord
      else (records rows).lookup id' := by
    rw [lookup_records]
    split_ifs with h
    · rw [h, AList.lookup_insert]
      rfl
    · rw [AList.lookup_insert_ne h, lookup_records]
  rw [hins]
  cases change with
  | finalize status counters exitReason =>
    exact (hmod fun record => { record with status, exitReason }).symm
  | updateStatus status => exact (hmod fun record => { record with status }).symm
  | updateGoal goal => exact (hmod fun record => { record with goal }).symm
  | persistInterim counters =>
    split_ifs with h
    · rw [h]
      exact hrec.symm
    · rfl

/-- How far an operation has come. -/
inductive Stage where
  | reading
  | writing (copy : InvocationRow)
  | done

/-- An operation of the store on the record `id`. -/
structure StoreOp where
  id : String
  change : RowChange
  /-- The executor that waits for it, if it is not one of the kernel. -/
  issuer : Option Pid := none
  stage : Stage := .reading

namespace StoreOp

def isDone (op : StoreOp) : Bool :=
  match op.stage with
  | .done => true
  | _ => false

/-- The record an operation works on until it is done. -/
def claim (op : StoreOp) : Option String := if op.isDone then none else some op.id

def copy (op : StoreOp) : Option InvocationRow :=
  match op.stage with
  | .writing copy => some copy
  | _ => none

end StoreOp

/-! ## The system -/

/-- The part of a `RuntimeExecutor` that it writes to the store. -/
structure RecordingExecutor where
  invocationId : String
  counters : Counters := {}
  /-- It has shut down, or its task was aborted. -/
  exited : Bool := false
  deriving DecidableEq, Repr

structure InvocationSystem where
  rows : HashMap String InvocationRow
  activeInvocations : HashMap Pid String := ∅
  /-- The counters of the process table. -/
  processes : HashMap Pid Counters := ∅
  executors : HashMap Pid RecordingExecutor := ∅
  ops : List StoreOp := []

/-- A status an agent comes back from. -/
abbrev OpenStatus := { status : InvocationStatus // status.isTerminal = false }

inductive InvocationInput where
  /-- `AgentManager::spawn`. -/
  | spawn (record : InvocationRecord) (createFails : Bool)
  | restart
  /-- `restore_interrupted_agents` comes to this record. -/
  | restore (id : String)
  /-- An executor counts what it uses. -/
  | consume (pid : Pid) (tokens calls : Nat)
  /-- `idle`, `persist_turn_error`, `save_invocation_state` and `take_interim_snapshot` write the
      counters, -/
  | persist (pid : Pid)
  /-- and the first two then the status. So does an executor that handles a pause or resume. -/
  | mark (pid : Pid) (status : OpenStatus)
  /-- `record_next_goal`. -/
  | recordNextGoal (pid : Pid) (goal : String)
  /-- `shutdown_with_status`. -/
  | shutdownWithStatus (pid : Pid) (status : InvocationStatus) (exitReason : Option String)
  | pauseAgent (pid : Pid)
  | resumeAgent (pid : Pid)
  | abortAgent (pid : Pid)
  | snapshotInvocation (id : String)
  /-- An operation makes its next transaction; it may fail. -/
  | act (op : Nat) (fails : Bool)

namespace InvocationSystem

variable (s : InvocationSystem)

/-- The kernel starts on a database. -/
def boot (rows : HashMap String InvocationRow) : InvocationSystem := { rows }

def issue (op : StoreOp) : InvocationSystem := { s with ops := s.ops ++ [op] }

/-- The executor waits for an operation. -/
def busy (pid : Pid) : Bool := s.ops.any fun op => op.issuer = some pid && !op.isDone

/-- What an executor that runs and does not wait starts. -/
def ready (pid : Pid) : Option RecordingExecutor :=
  (s.executors.lookup pid).filter fun w => !w.exited && !s.busy pid

def issueBy (pid : Pid) (change : RecordingExecutor → RowChange) : InvocationSystem :=
  match s.ready pid with
  | some w =>
    if w.invocationId = "" then s
    else s.issue { id := w.invocationId, change := change w, issuer := some pid }
  | none => s

/-- The executor starts nothing any more. -/
def exit (pid : Pid) : InvocationSystem :=
  match s.executors.lookup pid with
  | some w => { s with executors := s.executors.insert pid { w with exited := true } }
  | none => s

def launch (pid : Pid) (id : String) : InvocationSystem :=
  { s with
    activeInvocations := s.activeInvocations.insert pid id
    processes := s.processes.insert pid {}
    executors := s.executors.insert pid { invocationId := id } }

def spawn (record : InvocationRecord) (createFails : Bool) : InvocationSystem :=
  let row : InvocationRow := { record with status := .running, exitReason := none }
  { s with rows := if createFails then s.rows else s.rows.insert record.id row }.launch
    record.pid record.id

def restore (id : String) : InvocationSystem :=
  match s.rows.lookup id with
  | some r => if r.status.isTerminal then s else s.launch r.pid id
  | none => s

/-- `update_status` of the active invocation of an agent. -/
def setActive (pid : Pid) (status : InvocationStatus) : InvocationSystem :=
  match s.activeInvocations.lookup pid with
  | some id => s.issue { id, change := .updateStatus status }
  | none => s

/-- `abort_agent` with `finalize_invocation`. The task is gone at once here; `JoinHandle::abort`
    stops it at its next await. -/
def abortAgent (pid : Pid) : InvocationSystem :=
  let s := s.exit pid
  match s.activeInvocations.lookup pid with
  | some id =>
    let counters := (s.processes.lookup pid).getD {}
    { s with activeInvocations := s.activeInvocations.erase pid }.issue
      { id, change := .finalize .killed counters (some "killed") }
  | none => s

/-- `snapshot_invocation` writes back the counters it has read. -/
def snapshotInvocation (id : String) : InvocationSystem :=
  match s.rows.lookup id with
  | some r =>
    if r.status.isTerminal then s else s.issue { id, change := .persistInterim r.counters }
  | none => s

/-- The next transaction of an operation. -/
def act (i : Nat) (fails : Bool) : InvocationSystem :=
  match s.ops[i]? with
  | none => s
  | some op =>
    let finish (rows : HashMap String InvocationRow) : InvocationSystem :=
      { s with rows, ops := s.ops.set i { op with stage := .done } }
    if fails then finish s.rows
    else
      match op.stage with
      | .reading =>
        match s.rows.lookup op.id with
        | some r => { s with ops := s.ops.set i { op with stage := .writing r } }
        | none => finish s.rows
      | .writing copy => finish (s.rows.insert op.id (op.change.apply copy))
      | .done => s

def step : InvocationInput → InvocationSystem
  | .spawn record createFails => s.spawn record createFails
  | .restart => boot s.rows
  | .restore id => s.restore id
  | .consume pid tokens calls =>
    match s.ready pid with
    | some w =>
      { s with executors :=
          s.executors.insert pid { w with counters := w.counters.add tokens calls } }
    | none => s
  | .persist pid => s.issueBy pid fun w => .persistInterim w.counters
  | .mark pid status => s.issueBy pid fun _ => .updateStatus status
  | .recordNextGoal pid goal => s.issueBy pid fun _ => .updateGoal goal
  | .shutdownWithStatus pid status exitReason =>
    match s.ready pid with
    | some _ => (s.issueBy pid fun w => .finalize status w.counters exitReason).exit pid
    | none => s
  | .pauseAgent pid => s.setActive pid .paused
  | .resumeAgent pid => s.setActive pid .running
  | .abortAgent pid => s.abortAgent pid
  | .snapshotInvocation id => s.snapshotInvocation id
  | .act op fails => s.act op fails

end InvocationSystem

end Avix
