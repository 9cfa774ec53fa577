/-
  The kernel's process table (`process/entry.rs`, `process/table.rs`).

  The documentation of `ProcessEntry` says that the capability fields are populated at spawn
  and kept in sync as the agent runs, by `set_token`.
-/
import Avix.Types.Basic

namespace Avix

inductive ProcessKind where
  | agent | service | kernel
  deriving DecidableEq, Repr

inductive ProcessStatus where
  | pending | running | paused | waiting | stopped | crashed
  deriving DecidableEq, Repr

inductive WaitingOn where
  | humanApproval | pipeRead | pipeWrite | signal
  deriving DecidableEq, Repr

structure ProcessEntry where
  pid : Pid := 0
  name : String := ""
  kind : ProcessKind := .agent
  status : ProcessStatus := .pending
  parent : Option Pid := none
  spawnedByUser : String := ""
  grantedTools : List String := []
  tokenExpiresAt : Option DateTime := none
  goal : String := ""
  waitingOn : Option WaitingOn := none
  deniedTools : List String := []
  deriving DecidableEq, Repr

abbrev ProcessTable := HashMap Pid ProcessEntry

namespace ProcessTable

def insert (table : ProcessTable) (entry : ProcessEntry) : ProcessTable :=
  AList.insert entry.pid entry table

def get (table : ProcessTable) (pid : Pid) : Option ProcessEntry := table.lookup pid

/-- The helpers below change one present entry and fail with `InvalidPid` otherwise. -/
def modify (table : ProcessTable) (pid : Pid) (f : ProcessEntry → ProcessEntry) :
    Except AvixError ProcessTable :=
  match table.lookup pid with
  | some e => .ok (AList.insert pid (f e) table)
  | none => .error (.invalidPid pid.display)

def setStatus (table : ProcessTable) (pid : Pid) (status : ProcessStatus) :
    Except AvixError ProcessTable :=
  table.modify pid fun e => { e with status }

variable (table : ProcessTable)

theorem get_insert (entry : ProcessEntry) (pid : Pid) :
    (insert table entry).get pid = if pid = entry.pid then some entry else table.get pid := by
  unfold insert get
  split_ifs with h
  · rw [h, AList.lookup_insert]
  · rw [AList.lookup_insert_ne h]

variable {f : ProcessEntry → ProcessEntry} {pid : Pid}

theorem get_of_modify {table' : ProcessTable} (h : table.modify pid f = .ok table') (p : Pid) :
    table'.get p = if p = pid then (table.get pid).map f else table.get p := by
  unfold modify at h
  split at h
  next e he =>
    cases h
    unfold get
    split_ifs with hp
    · rw [hp, AList.lookup_insert, he, Option.map_some]
    · rw [AList.lookup_insert_ne hp]
  next => cases h

/-- The helpers fail only for an absent entry. -/
theorem get_of_modify_error {e : AvixError} (h : table.modify pid f = .error e) :
    table.get pid = none := by
  unfold modify at h
  split at h
  next => cases h
  next hnone => exact hnone

end ProcessTable

end Avix
