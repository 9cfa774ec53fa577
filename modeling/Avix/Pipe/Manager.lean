/-
  Pipes between two agents (`pipe/config.rs`, `pipe/channel.rs`, `pipe/manager.rs`).

  Model. `PipeManager` is what the calls share: the table of open pipes and, since a call keeps
  its `Arc<Pipe>` after the record has left the table, the list of all pipes ever created; an
  `Arc` is a position in it. Every call is a task with a program counter, and one step of a task
  is what it does between two points at which another task can run:
  * `open` creates the pipe, writes its manifest, and inserts the record;
  * `write` finds the record and checks the caller, looks at the closed flag, and puts the message
    into the queue;
  * `read` finds the record and checks the caller, and takes a message from the queue;
  * `close` finds the record, sets the closed flag, removes the record, and sends SIGPIPE;
  * `close_pipes_for_pid` collects the pipes of a pid and closes them one by one.
  A list of events is thus any interleaving of any calls.

  The queue is a `tokio::sync::mpsc` channel whose two ends the pipe itself owns: it never closes
  of its own, and a full one makes `send` wait. Creating one of capacity zero panics.

  Ghost state: the writer of every message, and the configuration a pipe was opened with.
-/
import Avix.Signal.Bus
import Avix.Lib.Run

namespace Avix

/-! ## Configuration -/

/-- `pipe::config::PipeDirection`. -/
inductive PipeConfig.PipeDirection where
  /-- `Out`: source to target. -/
  | out
  /-- `In`: target to source. -/
  | into
  | bidirectional
  deriving DecidableEq, Repr

inductive BackpressurePolicy where
  | block
  | drop
  | error
  deriving DecidableEq, Repr

inductive PipeEncoding where
  | text
  | json
  | yaml
  deriving DecidableEq, Repr

structure PipeConfig where
  sourcePid : Pid
  targetPid : Pid
  direction : PipeConfig.PipeDirection := .out
  bufferTokens : Nat := 8192
  backpressure : BackpressurePolicy := .block
  encoding : PipeEncoding := .text
  deriving DecidableEq, Repr

namespace PipeConfig

def canWrite (c : PipeConfig) (pid : Pid) : Bool :=
  match c.direction with
  | .out => pid == c.sourcePid
  | .into => pid == c.targetPid
  | .bidirectional => pid == c.sourcePid || pid == c.targetPid

def canRead (c : PipeConfig) (pid : Pid) : Bool :=
  match c.direction with
  | .out => pid == c.targetPid
  | .into => pid == c.sourcePid
  | .bidirectional => pid == c.sourcePid || pid == c.targetPid

def partner (c : PipeConfig) (closerPid : Pid) : Option Pid :=
  if closerPid = c.sourcePid then some c.targetPid
  else if closerPid = c.targetPid then some c.sourcePid
  else none

variable {c : PipeConfig} {pid : Pid}

theorem partner_eq_none_iff : c.partner pid = none ↔ pid ≠ c.sourcePid ∧ pid ≠ c.targetPid := by
  unfold partner
  split_ifs with hs ht
  · simp [hs]
  · simp [ht]
  · simp [hs, ht]

/-- Only an endpoint may write. -/
theorem not_canWrite_of_partner (h : c.partner pid = none) : c.canWrite pid = false := by
  obtain ⟨hs, ht⟩ := partner_eq_none_iff.mp h
  unfold canWrite
  split
  · exact beq_false_of_ne hs
  · exact beq_false_of_ne ht
  · rw [beq_false_of_ne hs, beq_false_of_ne ht, Bool.or_false]

/-- Only an endpoint may read. -/
theorem not_canRead_of_partner (h : c.partner pid = none) : c.canRead pid = false := by
  obtain ⟨hs, ht⟩ := partner_eq_none_iff.mp h
  unfold canRead
  split
  · exact beq_false_of_ne ht
  · exact beq_false_of_ne hs
  · rw [beq_false_of_ne hs, beq_false_of_ne ht, Bool.or_false]

/-- In a pipe of one direction the writer is the partner of the reader. -/
theorem partner_of_oneWay {reader writer : Pid} (hdir : c.direction ≠ .bidirectional)
    (hr : c.canRead reader = true) (hw : c.canWrite writer = true) :
    c.partner reader = some writer := by
  unfold canRead at hr
  unfold canWrite at hw
  unfold partner
  cases hd : c.direction with
  | out =>
    rw [hd] at hr hw
    have hread : reader = c.targetPid := eq_of_beq hr
    have hwrit : writer = c.sourcePid := eq_of_beq hw
    split_ifs with hsour
    · rw [hwrit, ← hsour, hread]
    · rw [hwrit]
  | into =>
    rw [hd] at hr hw
    rw [if_pos (eq_of_beq hr), ← (eq_of_beq hw : writer = c.targetPid)]
  | bidirectional => exact absurd hd hdir

end PipeConfig

/-! ## Pipes -/

/-- A message in the queue, with the pid that wrote it. -/
structure PipeMessage where
  text : String
  writer : Pid
  deriving DecidableEq, Repr

structure Pipe where
  id : String
  ownerPid : Pid
  capacity : Nat
  buffer : List PipeMessage := []
  closed : Bool := false
  config : PipeConfig
  deriving DecidableEq, Repr

/-- `Pipe::new` as `open` calls it; `none` is the panic of `mpsc::channel`. -/
def Pipe.new (id : String) (config : PipeConfig) : Option Pipe :=
  if config.bufferTokens = 0 ∨ maxPermits < config.bufferTokens then none
  else some { id, ownerPid := config.sourcePid, capacity := config.bufferTokens, config }

/-- `pipe::manager::PipeRecord`; `pipe` is the `Arc<Pipe>`. -/
structure PipeRecord where
  pipe : Nat
  config : PipeConfig
  deriving DecidableEq, Repr

inductive ReadResult where
  | message (msg : PipeMessage)
  | closed
  | timeout
  deriving DecidableEq, Repr

/-- `pipe::manager::PipeManager`, with the pipes and the signals handed to the registry. -/
structure PipeManager where
  pipes : HashMap String PipeRecord
  heap : List Pipe
  sent : List Signal

def PipeManager.new : PipeManager := ⟨∅, [], []⟩

/-- What a step takes from outside: the fresh ids, and whether the VFS refuses a write. -/
structure PipeEnv where
  pipeUuid : String := ""
  channelUuid : String := ""
  vfsError : Option AvixError := none

section Codec

-- the parser of an encoding: `none` accepts a text, `some e` refuses it with the error `e`
variable (parseError : PipeEncoding → String → Option String)

def validateEncoding (message : String) : PipeEncoding → Except AvixError Unit
  | .text => .ok ()
  | .json =>
    match parseError .json message with
    | some e => .error (.configParse ("pipe encoding=json: invalid JSON: " ++ e))
    | none => .ok ()
  | .yaml =>
    match parseError .yaml message with
    | some e => .error (.configParse ("pipe encoding=yaml: invalid YAML: " ++ e))
    | none => .ok ()

/-! ## Calls -/

inductive OpenPipePc where
  | create
  | writeManifest (pipe : Nat) (pipeId : String)
  | insert (pipe : Nat) (pipeId : String)
  | returned (result : Except AvixError String)
  | panicked

inductive WritePc where
  | lookup
  | checkClosed (pipe : Nat) (policy : BackpressurePolicy)
  | enqueue (pipe : Nat) (policy : BackpressurePolicy)
  | returned (result : Except AvixError Unit)

inductive ReadPc where
  | lookup
  | receiving (pipe : Nat)
  | returned (result : Except AvixError ReadResult)

inductive ClosePc where
  | lookup
  | setClosed (pipe : Nat) (partner : Option Pid)
  | remove (partner : Option Pid)
  | signal (partner : Option Pid)
  | returned (result : Except AvixError Unit)

inductive CloseAllPc where
  | collect
  /-- Closing one pipe, with those still to be closed. -/
  | closing (pipeId : String) (pc : ClosePc) (rest : List String)
  | returned

def pipeNotFound (pipeId : String) : AvixError := .notFound ("pipe '" ++ pipeId ++ "' not found")

namespace PipeManager

variable (m : PipeManager)

def setPipe (pipe : Nat) (p : Pipe) : PipeManager := { m with heap := m.heap.set pipe p }

/-- One step of `PipeManager::open`; `vfs` says whether a VFS was passed. -/
def openStep (env : PipeEnv) (config : PipeConfig) (vfs : Bool) :
    OpenPipePc → PipeManager × OpenPipePc
  | .create =>
    match Pipe.new env.channelUuid config with
    | none => (m, .panicked)
    | some p =>
      let pipeId := "pipe-" ++ env.pipeUuid
      ({ m with heap := m.heap ++ [p] },
        if vfs then .writeManifest m.heap.length pipeId else .insert m.heap.length pipeId)
  | .writeManifest pipe pipeId =>
    match env.vfsError with
    | some e => (m, .returned (.error e))
    | none => (m, .insert pipe pipeId)
  | .insert pipe pipeId =>
    ({ m with pipes := m.pipes.insert pipeId ⟨pipe, config⟩ }, .returned (.ok pipeId))
  | .returned result => (m, .returned result)
  | .panicked => (m, .panicked)

/-- What `write` returns on a closed pipe. -/
def closedResult (pipeId : String) (p : Pipe) : BackpressurePolicy → Except AvixError Unit
  | .block => .error (.io ("pipe write failed: SIGPIPE: pipe " ++ p.id ++ " is closed"))
  | .drop => .ok ()
  | .error => .error (.io ("pipe '" ++ pipeId ++ "' is closed"))

/-- One step of `PipeManager::write`. -/
def writeStep (pipeId : String) (callerPid : Pid) (message : String) :
    WritePc → PipeManager × WritePc
  | .lookup =>
    match m.pipes.lookup pipeId with
    | none => (m, .returned (.error (pipeNotFound pipeId)))
    | some record =>
      if record.config.canWrite callerPid then
        match validateEncoding parseError message record.config.encoding with
        | .error e => (m, .returned (.error e))
        | .ok () => (m, .checkClosed record.pipe record.config.backpressure)
      else
        (m, .returned (.error (.capabilityDenied ("pid " ++ callerPid.display ++
          " is not allowed to write to pipe '" ++ pipeId ++ "'"))))
  | .checkClosed pipe policy =>
    match m.heap[pipe]? with
    | none => (m, .checkClosed pipe policy)
    | some p =>
      if p.closed then (m, .returned (closedResult pipeId p policy)) else (m, .enqueue pipe policy)
  | .enqueue pipe policy =>
    match m.heap[pipe]? with
    | none => (m, .enqueue pipe policy)
    | some p =>
      if p.buffer.length < p.capacity then
        (m.setPipe pipe { p with buffer := p.buffer ++ [⟨message, callerPid⟩] }, .returned (.ok ()))
      else
        match policy with
        | .block => (m, .enqueue pipe policy)
        | .drop => (m, .returned (.ok ()))
        | .error => (m, .returned (.error (.io ("pipe '" ++ pipeId ++ "' is full"))))
  | .returned result => (m, .returned result)

/-- One step of `PipeManager::read`. -/
def readStep (pipeId : String) (callerPid : Pid) : ReadPc → PipeManager × ReadPc
  | .lookup =>
    match m.pipes.lookup pipeId with
    | none => (m, .returned (.error (pipeNotFound pipeId)))
    | some record =>
      if record.config.canRead callerPid then
        match m.heap[record.pipe]? with
        | none => (m, .lookup)
        | some p =>
          if p.closed then (m, .returned (.ok .closed)) else (m, .receiving record.pipe)
      else
        (m, .returned (.error (.capabilityDenied ("pid " ++ callerPid.display ++
          " is not allowed to read from pipe '" ++ pipeId ++ "'"))))
  | .receiving pipe =>
    match m.heap[pipe]? with
    | none => (m, .receiving pipe)
    | some p =>
      match p.buffer with
      | [] => (m, .receiving pipe)
      | msg :: rest => (m.setPipe pipe { p with buffer := rest }, .returned (.ok (.message msg)))
  | .returned result => (m, .returned result)

def pipeSignal (pipeId closeReason : String) (partner : Pid) : Signal :=
  ⟨partner, .pipe, .ofMembers [("pipeId", .string pipeId), ("reason", .string closeReason)]⟩

/-- One step of `PipeManager::close`; `channels` says whether a registry was passed. -/
def closeStep (pipeId : String) (callerPid : Pid) (channels : Bool) (closeReason : String) :
    ClosePc → PipeManager × ClosePc
  | .lookup =>
    match m.pipes.lookup pipeId with
    | none => (m, .returned (.error (pipeNotFound pipeId)))
    | some record => (m, .setClosed record.pipe (record.config.partner callerPid))
  | .setClosed pipe partner =>
    match m.heap[pipe]? with
    | none => (m, .remove partner)
    | some p => (m.setPipe pipe { p with closed := true }, .remove partner)
  | .remove partner => ({ m with pipes := m.pipes.erase pipeId }, .signal partner)
  | .signal partner =>
    match channels, partner with
    | true, some pid => ({ m with sent := m.sent ++ [pipeSignal pipeId closeReason pid] },
        .returned (.ok ()))
    | _, _ => (m, .returned (.ok ()))
  | .returned result => (m, .returned result)

/-- The pipes a pid is an endpoint of. -/
def pipesOf (pid : Pid) : List String :=
  (m.pipes.entries.filter fun e => e.2.config.sourcePid == pid || e.2.config.targetPid == pid).map
    (·.1)

def closeNext : List String → CloseAllPc
  | [] => .returned
  | pipeId :: rest => .closing pipeId .lookup rest

/-- One step of `PipeManager::close_pipes_for_pid`. -/
def closeAllStep (pid : Pid) (channels : Bool) : CloseAllPc → PipeManager × CloseAllPc
  | .collect => (m, closeNext (m.pipesOf pid))
  -- the result of closing one pipe is ignored
  | .closing _ (.returned _) rest => (m, closeNext rest)
  | .closing pipeId pc rest =>
    let r := m.closeStep pipeId pid channels "owner_exited" pc
    (r.1, .closing pipeId r.2 rest)
  | .returned => (m, .returned)

end PipeManager

inductive PipeTask where
  | open (pc : OpenPipePc) (config : PipeConfig) (vfs : Bool)
  | write (pc : WritePc) (pipeId : String) (callerPid : Pid) (message : String)
  | read (pc : ReadPc) (pipeId : String) (callerPid : Pid)
  | close (pc : ClosePc) (pipeId : String) (callerPid : Pid) (channels : Bool)
      (closeReason : String)
  | closeAll (pc : CloseAllPc) (pid : Pid) (channels : Bool)

def PipeTask.step (m : PipeManager) (env : PipeEnv) : PipeTask → PipeManager × PipeTask
  | .open pc config vfs =>
    let r := m.openStep env config vfs pc
    (r.1, .open r.2 config vfs)
  | .write pc pipeId callerPid message =>
    let r := m.writeStep parseError pipeId callerPid message pc
    (r.1, .write r.2 pipeId callerPid message)
  | .read pc pipeId callerPid =>
    let r := m.readStep pipeId callerPid pc
    (r.1, .read r.2 pipeId callerPid)
  | .close pc pipeId callerPid channels closeReason =>
    let r := m.closeStep pipeId callerPid channels closeReason pc
    (r.1, .close r.2 pipeId callerPid channels closeReason)
  | .closeAll pc pid channels =>
    let r := m.closeAllStep pid channels pc
    (r.1, .closeAll r.2 pid channels)

/-! ## The system -/

inductive PipeCall where
  | open (config : PipeConfig) (vfs : Bool)
  | write (pipeId : String) (callerPid : Pid) (message : String)
  | read (pipeId : String) (callerPid : Pid)
  | close (pipeId : String) (callerPid : Pid) (channels : Bool) (closeReason : String)
  | closePipesForPid (pid : Pid) (channels : Bool)

def PipeCall.task : PipeCall → PipeTask
  | .open config vfs => .open .create config vfs
  | .write pipeId callerPid message => .write .lookup pipeId callerPid message
  | .read pipeId callerPid => .read .lookup pipeId callerPid
  | .close pipeId callerPid channels closeReason =>
    .close .lookup pipeId callerPid channels closeReason
  | .closePipesForPid pid channels => .closeAll .collect pid channels

inductive PipeInput where
  | call (c : PipeCall)
  /-- The task at position `i` runs to its next step. -/
  | step (i : Nat) (env : PipeEnv)
  /-- The timeout of the read at position `i` fires. -/
  | expire (i : Nat)

structure PipeSystem where
  manager : PipeManager
  tasks : List PipeTask

namespace PipeSystem

def init : PipeSystem := ⟨.new, []⟩

def expireTask : PipeTask → PipeTask
  | .read (.receiving _) pipeId callerPid => .read (.returned (.ok .timeout)) pipeId callerPid
  | t => t

def step (s : PipeSystem) : PipeInput → PipeSystem
  | .call c => { s with tasks := s.tasks ++ [c.task] }
  | .step i env =>
    match s.tasks[i]? with
    | some t =>
      let r := t.step parseError s.manager env
      ⟨r.1, s.tasks.set i r.2⟩
    | none => s
  | .expire i =>
    match s.tasks[i]? with
    | some t => { s with tasks := s.tasks.set i (expireTask t) }
    | none => s

end PipeSystem

end Codec

end Avix
