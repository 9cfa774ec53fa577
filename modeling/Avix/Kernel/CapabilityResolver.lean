/-
  From capability groups to tool names (`kernel/capability_resolver.rs`, `syscall/registry.rs`).

  `mem_resolveCapabilities` says which tools a list of capability groups resolves to: the
  always-present ones, the system calls a group matches, and the registered tools whose name starts
  with the group's name part.

  Of a system call's descriptor only the name and the domain are read here.
-/
import Avix.Router.Dispatcher

namespace Avix

open Lib List

/-- The part of `syscall::SyscallDescriptor` the resolver reads. -/
structure SyscallDescriptor where
  name : String
  domain : String
  deriving DecidableEq, Repr

/-- `SyscallRegistry::new().list()`. -/
def syscalls : List SyscallDescriptor :=
  [⟨"kernel/proc/spawn", "proc"⟩, ⟨"kernel/proc/kill", "proc"⟩, ⟨"kernel/proc/list", "proc"⟩,
    ⟨"kernel/proc/info", "proc"⟩, ⟨"kernel/proc/wait", "proc"⟩, ⟨"kernel/proc/signal", "proc"⟩,
    ⟨"kernel/fs/read", "fs"⟩, ⟨"kernel/fs/write", "fs"⟩, ⟨"kernel/fs/list", "fs"⟩,
    ⟨"kernel/fs/exists", "fs"⟩, ⟨"kernel/fs/delete", "fs"⟩, ⟨"kernel/fs/watch", "fs"⟩,
    ⟨"kernel/cap/issue", "cap"⟩, ⟨"kernel/cap/validate", "cap"⟩, ⟨"kernel/cap/revoke", "cap"⟩,
    ⟨"kernel/cap/policy", "cap"⟩, ⟨"kernel/sys/info", "sys"⟩, ⟨"kernel/sys/boot-log", "sys"⟩,
    ⟨"kernel/sys/reboot", "sys"⟩, ⟨"kernel/sched/cron-add", "sched"⟩,
    ⟨"kernel/sched/cron-remove", "sched"⟩, ⟨"kernel/sched/cron-list", "sched"⟩,
    ⟨"kernel/snap/save", "snap"⟩, ⟨"kernel/snap/restore", "snap"⟩, ⟨"kernel/snap/list", "snap"⟩,
    ⟨"kernel/snap/delete", "snap"⟩, ⟨"proc/package/install-agent", "package"⟩,
    ⟨"proc/package/install-service", "package"⟩, ⟨"proc/package/uninstall-agent", "package"⟩,
    ⟨"proc/package/uninstall-service", "package"⟩, ⟨"proc/package/trust-add", "package"⟩,
    ⟨"proc/package/trust-list", "package"⟩, ⟨"proc/package/trust-remove", "package"⟩]

/-- `cap.split_once(':').unwrap_or((cap, "*"))`: the namespace and the filter of a group. -/
def splitCapability (cap : String) : String × String := (splitOnce ':' cap).getD (cap, "*")

/-- The group includes the system call. -/
def syscallMatches (cap : String) (sc : SyscallDescriptor) : Bool :=
  let (ns, filter) := splitCapability cap
  if ns = "kernel" then filter = "*" || sc.domain = filter
  else sc.domain = ns && (filter = "*" || startsWith sc.name ("kernel/" ++ ns ++ "/" ++ filter))

/-- The group includes the registered tool. -/
def toolMatches (cap : String) (name : String) : Bool :=
  let (ns, filter) := splitCapability cap
  startsWith name (if filter = "*" then ns ++ "/" else ns ++ "/" ++ filter)

/-- The names one group adds to the set. -/
def capabilityGroup (reg : ToolRegistry) (cap : String) : List String :=
  (syscalls.filter (syscallMatches cap)).map (·.name) ++
    (reg.getAllEntries.map (·.name.asStr)).filter (toolMatches cap)

/-- `CapabilityResolver::resolve`: the set in the order of a `BTreeSet`. -/
def resolveCapabilities (reg : ToolRegistry) (capabilities : List String) : List String :=
  let granted := capabilities.foldl (fun set cap => set ++ capabilityGroup reg cap) []
  ((granted ++ alwaysPresent).dedup).insertionSort (· ≤ ·)

theorem mem_capabilityGroup {reg : ToolRegistry} {cap tool : String} :
    tool ∈ capabilityGroup reg cap ↔
      (∃ sc ∈ syscalls, syscallMatches cap sc = true ∧ sc.name = tool) ∨
        (∃ e ∈ reg.getAllEntries, e.name.asStr = tool) ∧ toolMatches cap tool = true := by
  unfold capabilityGroup
  simp only [mem_append, mem_map, mem_filter, and_assoc]

theorem mem_resolveCapabilities {reg : ToolRegistry} {caps : List String} {tool : String} :
    tool ∈ resolveCapabilities reg caps ↔
      tool ∈ alwaysPresent ∨ ∃ cap ∈ caps, tool ∈ capabilityGroup reg cap := by
  unfold resolveCapabilities
  rw [mem_insertionSort, mem_dedup, mem_append, foldl_append_eq_append,
    nil_append, mem_flatten, or_comm]
  simp only [mem_map, exists_exists_and_eq_and]

end Avix
