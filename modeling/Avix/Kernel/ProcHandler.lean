/-
  The kernel's handler for processes and its file of agents (`kernel/proc/mod.rs`,
  `kernel/proc/persistence.rs`, `kernel/proc/types.rs`).

  `ProcHandler::spawn` lets the agent manager spawn the agent and then adds a record of it to
  `agents.yaml`. The new text goes to a temporary file, which is renamed to `agents.yaml`.

  Where the operating system fails is an argument (`AgentsFileEnv`); reading and writing YAML is
  a parameter (`AgentsCodec`). The temporary file is left out: nothing reads it.
-/
import Avix.Kernel.AgentManager

namespace Avix

structure AgentRecord where
  pid : Pid
  name : String
  goal : String
  sessionId : String
  spawnedAt : DateTime
  deriving DecidableEq, Repr

abbrev AgentsYaml := List AgentRecord

/-- `serde_yaml::from_str` and `serde_yaml::to_string`, with the text of a failure. -/
structure AgentsCodec where
  parse : String → Except String AgentsYaml
  render : AgentsYaml → Except String String

/-- What an access of `agents.yaml` takes from outside. -/
structure AgentsFileEnv where
  now : DateTime
  /-- The text of the error, where reading, writing or renaming fails. -/
  readError : Option String
  writeError : Option String
  renameError : Option String

section AgentsFile

variable (codec : AgentsCodec) (env : AgentsFileEnv)

/-- `persistence::load_agents_yaml`; `none` is a file that does not exist. -/
def loadAgentsYaml : Option String → Except AvixError AgentsYaml
  | none => .ok []
  | some text =>
    match env.readError with
    | some e => .error (.io e)
    | none => (codec.parse text).mapError .configParse

/-- `persistence::save_agents_yaml`, with the file afterwards. -/
def saveAgentsYaml (file : Option String) (agents : AgentsYaml) :
    Option String × Except AvixError Unit :=
  match codec.render agents with
  | .error e => (file, .error (.configParse e))
  | .ok text =>
    match env.writeError with
    | some e => (file, .error (.io e))
    | none =>
      match env.renameError with
      | some e => (file, .error (.io e))
      | none => (some text, .ok ())

/-- Replace the record of a pid, or append it. -/
def AgentsYaml.record (agents : AgentsYaml) (r : AgentRecord) : AgentsYaml :=
  match agents.findIdx? (·.pid = r.pid) with
  | some i => agents.set i r
  | none => agents ++ [r]

/-- The records `persist_agent_record` saves. A file that cannot be read counts as empty. -/
def agentsWith (file : Option String) (pid : Pid) (name goal sessionId : String) : AgentsYaml :=
  AgentsYaml.record ((loadAgentsYaml codec env file).toOption.getD [])
    ⟨pid, name, goal, sessionId, env.now⟩

def persistAgentRecord (file : Option String) (pid : Pid) (name goal sessionId : String) :
    Option String × Except AvixError Unit :=
  saveAgentsYaml codec env file (agentsWith codec env file pid name goal sessionId)

/-- Saving fails at one of its three steps. -/
def SaveFails (agents : AgentsYaml) : Prop :=
  (∃ e, codec.render agents = .error e) ∨ env.writeError.isSome ∨ env.renameError.isSome

theorem saveFails_iff (file : Option String) {agents : AgentsYaml} :
    SaveFails codec env agents ↔ ∃ e, (saveAgentsYaml codec env file agents).2 = .error e := by
  unfold SaveFails saveAgentsYaml
  cases codec.render agents with
  | error e => simp
  | ok text =>
    cases env.writeError with
    | some e => simp
    | none => cases env.renameError <;> simp

end AgentsFile

/-! ## The handler -/

/-- `kernel::proc::ProcHandler`, as far as it spawns agents. -/
structure ProcHandler (D : Type) where
  manager : KernelState D
  agentsYaml : Option String

/-- What `ProcHandler::spawn` takes from outside. -/
structure ProcSpawnEnv where
  spawn : SpawnEnv
  file : AgentsFileEnv

namespace ProcHandler

variable {D : Type} (x : Externals D) (codec : AgentsCodec) (h : ProcHandler D)

def spawn (a : SpawnArgs) (env : ProcSpawnEnv) : ProcHandler D × Except AvixError Pid :=
  match h.manager.spawn x a env.spawn with
  | (manager, .error e) => ({ h with manager }, .error e)
  | (manager, .ok pid) =>
    let (agentsYaml, saved) :=
      persistAgentRecord codec env.file h.agentsYaml pid a.name a.goal a.sessionId
    (⟨manager, agentsYaml⟩, saved.map fun _ => pid)

end ProcHandler

end Avix
