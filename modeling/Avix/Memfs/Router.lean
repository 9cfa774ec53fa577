/-
  The VFS router (`memfs/router.rs`, `memfs/context.rs`).

  One router is shared by the kernel and all agents. It holds the caller context that the
  permission checks read: `set_caller` replaces it for everybody.

  An operation is a permission check and then its effect on the provider that serves the
  path; the two are separate here (`authorize`, `perform`), as other tasks can run between
  them. `list` and `exists` have no permission check.

  Each in-memory mount has its own file map. The YAML text of a list of names
  (`serde_yaml::to_string`) is a parameter.
-/
import Avix.Lib.Path
import Avix.Memfs.MemFs
import Avix.Tools.Registry
import Avix.Types.Token

namespace Avix

open Lib

/-! ## Callers and permissions -/

structure VfsCallerContext where
  username : String
  crews : List String
  isAdmin : Bool
  token : Option CapabilityToken

/-- `memfs::VfsPermissions`, with its default. -/
structure VfsPermissions where
  owner : String := "rwx"
  crew : String := "rw-"
  all : String := "r--"

namespace VfsPermissions

/-- `VfsPermissions::for_path`: every branch of the source is the default. -/
def forPath (_path : String) : VfsPermissions := {}

/-- `VfsPermissions::effective_for`. The username is compared with the owner bits, and the
    crews with the crew bits. -/
def effectiveFor (perms : VfsPermissions) (caller : VfsCallerContext) : String :=
  if caller.isAdmin then "rwx"
  else if caller.username = perms.owner then perms.owner
  else if perms.crew ≠ "" ∧ caller.crews.contains perms.crew then perms.crew
  else perms.all

def canRead (perms : VfsPermissions) (caller : VfsCallerContext) : Bool :=
  (perms.effectiveFor caller).toList.contains 'r'

def canWrite (perms : VfsPermissions) (caller : VfsCallerContext) : Bool :=
  (perms.effectiveFor caller).toList.contains 'w'

def canExecute (perms : VfsPermissions) (caller : VfsCallerContext) : Bool :=
  (perms.effectiveFor caller).toList.contains 'x'

end VfsPermissions

/-! ## The router -/

/-- `memfs::VfsRouter`, with the disk its local providers work on. Both mount tables are
    sorted by falling length of the mount point. A memory mount has a file system of its own: that
    the source may mount one `Arc<MemFs>` at two places, or share it with others, is left out. -/
structure VfsRouter (D : Type) where
  mounts : List (String × LocalProvider)
  memMounts : List (String × MemFs)
  toolRegistry : Option ToolRegistry
  caller : Option VfsCallerContext
  default : MemFs
  disk : D

/-- The path is the mount point or lies below it. -/
def mountMatches (mountPoint path : String) : Bool :=
  path = mountPoint || startsWith path (mountPoint ++ "/")

theorem mountMatches_iff {m path : String} :
    mountMatches m path = true ↔ InTree '/' m.toList path.toList := by
  have hslash : (m ++ "/").toList = m.toList ++ ['/'] := by simp
  rw [inTree_iff, mountMatches, startsWith, hslash, Bool.or_eq_true, decide_eq_true_eq,
    List.isPrefixOf_iff_prefix, String.toList_inj]

namespace VfsRouter

variable {D : Type} (r : VfsRouter D)

def setCaller (caller : Option VfsCallerContext) : VfsRouter D := { r with caller }

def checkAccess (path : VfsPath) (required : String) : Except AvixError Unit :=
  match r.caller with
  | none => .error (.capabilityDenied "no caller context")
  | some caller =>
    let perms := VfsPermissions.forPath path.asStr
    if required = "r" ∧ !perms.canRead caller then
      .error (.capabilityDenied ("no read permission on " ++ path.asStr))
    else if required = "w" ∧ !perms.canWrite caller then
      .error (.capabilityDenied ("no write permission on " ++ path.asStr))
    else if required = "x" ∧ !perms.canExecute caller then
      .error (.capabilityDenied ("no execute permission on " ++ path.asStr))
    else .ok ()

/-- A mount table with one entry added or replaced, longest mount points first. -/
def mountAt {α : Type} (mounts : List (String × α)) (mountPoint : String) (provider : α) :
    List (String × α) :=
  let mountPoint := trimEnd '/' mountPoint
  (mounts.filter (·.1 ≠ mountPoint) ++ [(mountPoint, provider)]).insertionSort
    fun a b => b.1.utf8ByteSize ≤ a.1.utf8ByteSize

def mount (mountPoint : String) (provider : LocalProvider) : VfsRouter D :=
  { r with mounts := mountAt r.mounts mountPoint provider }

def mountMemfs (mountPoint : String) (fs : MemFs) : VfsRouter D :=
  { r with memMounts := mountAt r.memMounts mountPoint fs }

/-- `VfsRouter::route`: the first matching local mount and the path below it. -/
def route (path : String) : Option (LocalProvider × String) :=
  (r.mounts.find? fun m => mountMatches m.1 path).map fun m =>
    (m.2, trimStart '/' (dropPrefix path m.1))

/-- The in-memory file system that serves a path no local mount serves. -/
def memFor (path : String) : MemFs :=
  match r.memMounts.find? fun m => mountMatches m.1 path with
  | some m => m.2
  | none => r.default

/-- Replace the in-memory file system that serves a path. -/
def setMemFor (path : String) (fs : MemFs) : VfsRouter D :=
  match r.memMounts.findIdx? fun m => mountMatches m.1 path with
  | some i => { r with memMounts := r.memMounts.modify i fun m => (m.1, fs) }
  | none => { r with default := fs }

/-! ## Permission checks -/

/-- The check at the head of `read`, `write` and `delete`: none without a caller context. -/
def requirePermission (can : VfsPermissions → VfsCallerContext → Bool) (verb : String)
    (path : VfsPath) : Except AvixError Unit :=
  match r.caller with
  | none => .ok ()
  | some caller =>
    let perms := VfsPermissions.forPath path.asStr
    if can perms caller then .ok ()
    else .error (.capabilityDenied ("permission denied: cannot " ++ verb ++ " " ++ path.asStr ++
      " (effective: " ++ perms.effectiveFor caller ++ ")"))

end VfsRouter

/-- The operations of the router's public interface. -/
inductive VfsOp where
  | read (path : VfsPath)
  | write (path : VfsPath) (content : Bytes)
  | delete (path : VfsPath)
  | list (dir : VfsPath)
  deriving DecidableEq

/-- What an operation returns. -/
inductive VfsValue where
  | bytes (content : Bytes)
  | unit
  | names (entries : List String)
  deriving DecidableEq

namespace VfsOp

def path : VfsOp → VfsPath
  | read p => p
  | write p _ => p
  | delete p => p
  | list p => p

/-- The right an operation needs, as `check_access` spells it. -/
def required : VfsOp → String
  | read _ => "r"
  | write _ _ => "w"
  | delete _ => "w"
  | list _ => "r"

/-- The operation changes the file at its path. -/
def mutates : VfsOp → Bool
  | write _ _ => true
  | delete _ => true
  | _ => false

end VfsOp

namespace VfsRouter

variable {D : Type} (r : VfsRouter D)

/-- The permission check of an operation. -/
def authorize : VfsOp → Except AvixError Unit
  | .read p => r.requirePermission VfsPermissions.canRead "read" p
  | .write p _ => r.requirePermission VfsPermissions.canWrite "write" p
  | .delete p => r.requirePermission VfsPermissions.canWrite "delete" p
  | .list _ => .ok ()

/-! ## The lazily filled tool tree -/

/-- `VfsRouter::generate_tool_yaml` without a caller, as `populate_tools_memfs` calls it. -/
def generateToolYaml (entry : ToolEntry) : String :=
  let text (key : String) (fallback : String) : String :=
    ((entry.descriptor.get? key).bind Json.asStr).getD fallback
  let description := text "description" ""
  let caps := entry.capabilitiesRequired
  let state := match entry.state with
    | .available => "available"
    | .unavailable => "unavailable"
    | .degraded => "degraded"
  let handlerSig := text "handler_signature" ""
  "name: " ++ entry.name.asStr ++ "\n" ++
  "description: " ++ description ++ "\n" ++
  "short: " ++ text "short" description ++ "\n" ++
  "detailed: |\n" ++
  String.join ((lines (text "detailed" "")).map fun line => "  " ++ line ++ "\n") ++
  "domain: " ++ text "domain" "" ++ "\n" ++
  "capabilities_required:\n" ++
  String.join (caps.map fun cap => "  - " ++ cap ++ "\n") ++
  "state: " ++ state ++ "\n" ++
  "owner: " ++ entry.owner ++ "\n" ++
  "permissions:\n" ++
  "  owner: " ++ entry.permissions.owner ++ "\n" ++
  "  crew: " ++ (if entry.permissions.crew = "" then "---" else entry.permissions.crew) ++ "\n" ++
  "  all: " ++ entry.permissions.all ++ "\n" ++
  (if state = "unavailable" ∧ caps ≠ [] then "request_access: cap/request-tool\n" else "") ++
  (if handlerSig ≠ "" then "handler_signature: " ++ handlerSig ++ "\n" else "")

def populateToolsMemfs (yamlOfNames : List String → String) (fs : MemFs)
    (registry : ToolRegistry) : MemFs :=
  let entries := registry.getAllEntries
  let toolNames := entries.map (·.name.asStr)
  let nsOf (name : String) : String := (splitChar '/' name).headD ""
  let namespaces := (toolNames.map nsOf).dedup
  let fs := namespaces.foldl (fun fs ns =>
    let inNs := toolNames.filter fun n => nsOf n = ns
    AList.insert ("/tools/" ++ ns)
      (utf8 ("\n".intercalate (inNs.map fun n => replaceChar '/' "-" n ++ ".yaml"))) fs) fs
  let fs := AList.insert "/tools" (utf8 ("\n".intercalate (namespaces.map (· ++ "/")))) fs
  let fs := entries.foldl (fun fs entry =>
    AList.insert ("/tools/" ++ replaceChar '/' "-" entry.name.asStr ++ ".yaml")
      (utf8 (generateToolYaml entry)) fs) fs
  AList.insert "/tools/index.yaml" (utf8 (yamlOfNames toolNames)) fs

/-- What `read` does for a path that starts with `/tools`: fill the in-memory mount named
    `tools` from the registry unless it has its index file. -/
def populateForRead (yamlOfNames : List String → String) (path : VfsPath) : VfsRouter D :=
  if startsWith path.asStr "/tools" then
    match r.memMounts.findIdx? (·.1 = "tools"), r.toolRegistry with
    | some i, some registry =>
      { r with memMounts := r.memMounts.modify i fun m =>
          if (AList.lookup "/tools/index.yaml" m.2).isSome then m
          else (m.1, populateToolsMemfs yamlOfNames m.2 registry) }
    | _, _ => r
  else r

/-! ## Effects -/

variable (fs : FileSystem D) (yamlOfNames : List String → String)

/-- The effect of an operation whose check has passed. -/
def perform : VfsOp → VfsRouter D × Except AvixError VfsValue
  | .read p =>
    let r := r.populateForRead yamlOfNames p
    match r.route p.asStr with
    | some (provider, rel) => (r, (provider.read fs r.disk rel).map .bytes)
    | none => (r, ((r.memFor p.asStr).read p).map .bytes)
  | .write p content =>
    match r.route p.asStr with
    | some (provider, rel) =>
      let (disk, result) := provider.write fs r.disk rel content
      ({ r with disk }, result.map fun _ => .unit)
    | none => (r.setMemFor p.asStr ((r.memFor p.asStr).write p content), .ok .unit)
  | .delete p =>
    match r.route p.asStr with
    | some (provider, rel) =>
      let (disk, result) := provider.delete fs r.disk rel
      ({ r with disk }, result.map fun _ => .unit)
    | none =>
      let (mem, result) := (r.memFor p.asStr).delete p
      (r.setMemFor p.asStr mem, result.map fun _ => .unit)
  | .list p =>
    match r.route p.asStr with
    | some (provider, rel) => (r, (provider.list fs r.disk rel).map .names)
    | none => (r, ((r.memFor p.asStr).list p).map .names)

/-- `VfsRouter::exists`: a path that is an in-memory mount point counts, and a path that the local
    mount does not have is looked for in memory. -/
def existsPath (p : VfsPath) : Bool :=
  ((r.route p.asStr).any fun (provider, rel) => provider.existsPath fs r.disk rel) ||
    (r.memMounts.any fun m => p.asStr = m.1 ||
      startsWith p.asStr (m.1 ++ "/") && (m.2.lookup p.asStr).isSome) ||
    (r.default.lookup p.asStr).isSome

/-- An operation with nothing running between its check and its effect. -/
def operate (op : VfsOp) : VfsRouter D × Except AvixError VfsValue :=
  match r.authorize op with
  | .error e => (r, .error e)
  | .ok () => r.perform fs yamlOfNames op

/-! ## Effects and the caller -/

section Caller

variable (c : Option VfsCallerContext)

theorem setMemFor_setCaller (path : String) (mem : MemFs) :
    (r.setCaller c).setMemFor path mem = (r.setMemFor path mem).setCaller c := by
  unfold setMemFor setCaller
  dsimp only
  cases r.memMounts.findIdx? fun m => mountMatches m.1 path <;> rfl

theorem populateForRead_setCaller (path : VfsPath) :
    (r.setCaller c).populateForRead yamlOfNames path =
      (r.populateForRead yamlOfNames path).setCaller c := by
  obtain ⟨mounts, memMounts, registry, caller, default, disk⟩ := r
  unfold populateForRead setCaller
  dsimp only
  split_ifs
  · cases memMounts.findIdx? (·.1 = "tools") <;> cases registry <;> rfl
  · rfl

/-- The effect of an operation neither reads nor changes the caller. -/
theorem perform_setCaller (op : VfsOp) : (r.setCaller c).perform fs yamlOfNames op =
    ((r.perform fs yamlOfNames op).1.setCaller c, (r.perform fs yamlOfNames op).2) := by
  have hroute : ∀ (r : VfsRouter D) p, (r.setCaller c).route p = r.route p := fun _ _ => rfl
  have hmem : ∀ (r : VfsRouter D) p, (r.setCaller c).memFor p = r.memFor p := fun _ _ => rfl
  have hdisk : ∀ r : VfsRouter D, (r.setCaller c).disk = r.disk := fun _ => rfl
  cases op with
  | read p =>
    simp only [perform, populateForRead_setCaller, hroute, hmem, hdisk]
    cases (r.populateForRead yamlOfNames p).route p.asStr <;> dsimp only
  | write p content | delete p =>
    simp only [perform, hroute, hmem, hdisk, setMemFor_setCaller]
    cases r.route p.asStr <;> dsimp only [setCaller]
  | list p =>
    simp only [perform, hroute, hmem, hdisk]
    cases r.route p.asStr <;> dsimp only [setCaller]

theorem perform_caller (op : VfsOp) : (r.perform fs yamlOfNames op).1.caller = r.caller :=
  congrArg (fun x => x.1.caller) (r.perform_setCaller fs yamlOfNames r.caller op)

end Caller

end VfsRouter

end Avix
