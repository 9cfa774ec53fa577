/-
  The file methods of the kernel's IPC server (`fs/*` of `dispatch_request` in
  `kernel/ipc_server.rs`), and the gateway's way to it (`LiveIpcRouter` and `ipc_code_to_atp` in
  `gateway/handlers/mod.rs`).

  The state is the VFS router. `serverMethods` are the other methods that `dispatch_request` knows
  (`Kernel/IpcServer`, the package calls and the lists of services and tools); what they do is a
  parameter here, as no file command reaches them. The transport does not fail.
-/
import Avix.Kernel.IpcServer

namespace Avix

open Lib

/-- A file operation, with its path as it is written. -/
inductive FileAsk where
  | read (path : String)
  | write (path content : String)
  | list (path : String)
  | delete (path : String)
  deriving DecidableEq, Repr

/-- The operation of the router, if the path can be parsed. -/
def FileAsk.op : FileAsk → Except AvixError VfsOp
  | .read path => (VfsPath.parse path).map .read
  | .write path content => (VfsPath.parse path).map fun p => .write p (utf8 content)
  | .list path => (VfsPath.parse path).map .list
  | .delete path => (VfsPath.parse path).map .delete

/-- What the server takes from outside. -/
structure FileExternals (D : Type) where
  fileSystem : FileSystem D
  yamlOfNames : List String → String
  /-- `base64::engine::general_purpose::STANDARD`. -/
  base64 : Bytes → String
  /-- The other methods. -/
  other : VfsRouter D → String → Json → VfsRouter D × Except RpcError Json

/-- The methods of `dispatch_request` other than `fs/*`. -/
def serverMethods : List String :=
  ["spawn", "list", "kill", "stat", "pause", "resume", "wait", "setcap", "list-installed",
    "invocation-list", "invocation-conversation", "invocation-get", "invocation-snapshot",
    "message-create", "message-get", "message-list", "part-create", "part-get", "part-list",
    "session/list", "session/get", "session/pause", "session/resume", "session/delete",
    "package/install-agent", "package/uninstall-agent", "package/install-service",
    "package/uninstall-service"].map ("kernel/proc/" ++ ·) ++
  ["kernel/sys/service-list", "kernel/sys/tool-list", "kernel/signal/send"]

section Dispatch

variable {D : Type} (x : FileExternals D) (vfs : VfsRouter D)

/-- The text of a file: as it is, or in base64, and which of the two. -/
def fileText (data : Bytes) : String × String :=
  match fromUtf8 data with
  | some text => (text, "utf-8")
  | none => (x.base64 data, "base64")

/-- The result of an operation as JSON. -/
def valueJson : VfsValue → Json
  | .bytes data =>
    .ofMembers [("content", .string (fileText x data).1), ("encoding", .string (fileText x data).2)]
  | .unit => .ofMembers [("ok", .bool true)]
  | .names entries => .ofMembers [("entries", .array (entries.map .string))]

/-- Parse the path, apply the operation to the router and answer. -/
def fileCall (ask : FileAsk) : VfsRouter D × Except RpcError Json :=
  match ask.op with
  | .error e => (vfs, .error ⟨-32602, e.display⟩)
  | .ok op =>
    let result := vfs.operate x.fileSystem x.yamlOfNames op
    (result.1,
      match result.2 with
      | .ok value => .ok (valueJson x value)
      | .error e => .error ⟨-32000, e.display⟩)

/-- `fs/exists`. -/
def existsCall (path : String) : Except RpcError Json :=
  match VfsPath.parse path with
  | .error e => .error ⟨-32602, e.display⟩
  | .ok p => .ok (.ofMembers [("exists", .bool (vfs.existsPath x.fileSystem p))])

def dispatchRequest (method : String) (params : Json) : VfsRouter D × Except RpcError Json :=
  let path := strParam params "path" ""
  match method with
  | "fs/read" => fileCall x vfs (.read path)
  | "fs/write" => fileCall x vfs (.write path (strParam params "content" ""))
  | "fs/list" => fileCall x vfs (.list path)
  | "fs/exists" => (vfs, existsCall x vfs path)
  | "fs/delete" => fileCall x vfs (.delete path)
  | method =>
    if method ∈ serverMethods then x.other vfs method params
    else (vfs, .error ⟨-32601, "unknown kernel method: " ++ method⟩)

/-! ## The gateway -/

def ipcCodeToAtp (msg : String) (code : Int) : AtpErrorCode :=
  if code = -32003 then .enotfound
  else if code = -32002 then .eperm
  else if containsStr msg "not found" ∨ containsStr msg "ENOENT" then .enotfound
  else if containsStr msg "permission" ∨ containsStr msg "EPERM" then .eperm
  else if containsStr msg "conflict" ∨ containsStr msg "ECONFLICT" then .econflict
  else if containsStr msg "unavailable" ∨ containsStr msg "EUNAVAIL" then .eunavail
  else .einternal

/-- `LiveIpcRouter::call`. -/
def liveCall (method : String) (params : Json) : VfsRouter D × Except AtpError Json :=
  let reply := dispatchRequest x vfs method params
  (reply.1, reply.2.mapError fun e => ⟨ipcCodeToAtp e.message e.code, e.message⟩)

/-- A file command of the gateway, with the kernel behind it. -/
def gatewayFs (v : ValidatedCmd) : VfsRouter D × AtpReply :=
  match fsRoute v with
  | .error reply => (vfs, reply)
  | .ok (method, params) =>
    let reply := liveCall x vfs method params
    (reply.1, ⟨v.cmd.id, reply.2⟩)

end Dispatch

end Avix
