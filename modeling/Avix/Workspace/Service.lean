/-
  The workspace service (`services/workspace/src/handlers.rs`, `services/workspace/src/main.rs`,
  `services/workspace/src/error.rs`).

  A request sets the user of the handlers, which all requests share, and then runs as a program
  (`Lib/Calls`) that reads this user once, to make the root of the workspace, and calls the kernel
  for every file operation.

  `serde_json::from_value` of the parameters is a parameter (`ParamsCodec`); an unknown kind of
  value gets the error text it returns. The reply to a kernel call is the result of the response,
  or the text of the error of the response or of the IPC client. The time of a request, as
  `chrono` formats it for a snapshot without a name, comes with the request.
-/
import Avix.Kernel.IpcServer
import Avix.Lib.Calls

namespace Avix

open Lib

namespace Workspace

/-! ## Errors, parameters, responses -/

inductive WorkspaceError where
  | pathOutsideWorkspace (path : String)
  | projectNotFound (project : String)
  | fileNotFound (path : String)
  | io (e : String)
  | ipc (e : String)
  | invalidRequest (e : String)
  deriving DecidableEq, Repr

def WorkspaceError.display : WorkspaceError → String
  | .pathOutsideWorkspace path => "path outside workspace: " ++ path
  | .projectNotFound project => "project not found: " ++ project
  | .fileNotFound path => "file not found: " ++ path
  | .io e => "IO error: " ++ e
  | .ipc e => "IPC error: " ++ e
  | .invalidRequest e => "invalid request: " ++ e

structure ListParams where
  project : Option String

structure ReadParams where
  path : String

structure WriteParams where
  path : String
  content : String

structure DeleteParams where
  path : String

structure CreateProjectParams where
  projectName : String
  description : Option String
  template : Option String

structure SnapshotParams where
  project : String
  name : Option String

structure SearchParams where
  query : String
  project : Option String
  searchType : Option String

structure SetDefaultParams where
  project : String

/-- `serde_json::from_value` for the parameters of each method. -/
structure ParamsCodec where
  list : Json → Except String ListParams
  read : Json → Except String ReadParams
  write : Json → Except String WriteParams
  delete : Json → Except String DeleteParams
  createProject : Json → Except String CreateProjectParams
  snapshot : Json → Except String SnapshotParams
  search : Json → Except String SearchParams
  setDefault : Json → Except String SetDefaultParams

def requiredMember (params : Json) (key : String) : Except String String :=
  match (params.get? key).bind Json.asStr with
  | some s => .ok s
  | none => .error ("missing field `" ++ key ++ "`")

def optionalMember (params : Json) (key : String) : Option String :=
  (params.get? key).bind Json.asStr

/-- The parameters from the members of an object whose members are strings. -/
def ParamsCodec.ofMembers : ParamsCodec where
  list params := .ok ⟨optionalMember params "project"⟩
  read params := (requiredMember params "path").map ReadParams.mk
  write params := do
    let path ← requiredMember params "path"
    let content ← requiredMember params "content"
    return ⟨path, content⟩
  delete params := (requiredMember params "path").map DeleteParams.mk
  createProject params := (requiredMember params "project_name").map fun name =>
    ⟨name, optionalMember params "description", optionalMember params "template"⟩
  snapshot params := (requiredMember params "project").map fun project =>
    ⟨project, optionalMember params "name"⟩
  search params := (requiredMember params "query").map fun query =>
    ⟨query, optionalMember params "project", optionalMember params "search_type"⟩
  setDefault params := (requiredMember params "project").map SetDefaultParams.mk

/-- `FileEntry` of a name in a directory, as JSON. -/
def fileEntry (dir name : String) : Json :=
  .ofMembers [("path", .string (dir ++ "/" ++ name)), ("name", .string name),
    ("is_dir", .bool false), ("size", .int 0), ("modified", .null)]

/-- `SearchResult` as JSON. -/
def searchResult (path : String) (line : Option Nat) (snippet : Option String) : Json :=
  .ofMembers [("path", .string path), ("line", match line with | some n => .int n | none => .null),
    ("snippet", match snippet with | some s => .string s | none => .null)]

/-! ## The kernel client -/

structure KernelRequest where
  method : String
  params : Json

/-- The result of a response, or the text of an error. -/
abbrev IpcReply := Except String (Option Json)

/-- What a handler does: it may read the user and call the kernel. -/
abbrev Handler (α : Type) := Prog String KernelRequest IpcReply α

def callKernel {α : Type} (method : String) (params : Json) (decode : Option Json → α) :
    Handler (Except WorkspaceError α) :=
  .call ⟨method, params⟩ fun
    | .error e => pure (.error (.ipc e))
    | .ok result => pure (.ok (decode result))

def member (result : Option Json) (key : String) : Option Json := result.bind (Json.get? key)

/-- `serde_json::from_value::<Vec<String>>`. -/
def strings (j : Json) : Option (List String) := j.asArray.bind fun items => items.mapM Json.asStr

namespace VfsClient

def list (path : String) : Handler (Except WorkspaceError (List String)) :=
  callKernel "kernel/fs/list" (.ofMembers [("path", .string path)]) fun result =>
    ((member result "entries").bind strings).getD []

def read (path : String) : Handler (Except WorkspaceError String) :=
  callKernel "kernel/fs/read" (.ofMembers [("path", .string path)]) fun result =>
    ((member result "content").bind Json.asStr).getD ""

def write (path content : String) : Handler (Except WorkspaceError Nat) :=
  callKernel "kernel/fs/write"
    (.ofMembers [("path", .string path), ("content", .string content)]) fun result =>
      (((member result "bytes_written").bind Json.asU64).map UInt64.toNat).getD content.utf8ByteSize

def delete (path : String) : Handler (Except WorkspaceError Bool) :=
  callKernel "kernel/fs/delete" (.ofMembers [("path", .string path)]) fun result =>
    ((member result "deleted").bind Json.asBool).getD false

end VfsClient

/-! ## Handlers -/

def extractCallerUser (params : Json) : String :=
  (((params.get? "_caller").bind (Json.get? "user")).bind Json.asStr).getD "anonymous"

def workspaceRoot (user : String) : String := "/users/" ++ user ++ "/workspace"

def getWorkspaceRoot : Handler String := .ask fun user => pure (workspaceRoot user)

/-- The path of a file parameter: an absolute one has to start with the root. -/
def targetPath (root path : String) : Except WorkspaceError String :=
  if startsWith path "/" then
    if startsWith path root then .ok path else .error (.pathOutsideWorkspace path)
  else .ok (root ++ "/" ++ path)

/-- The directory of an optional project. -/
def projectPath (root : String) : Option String → String
  | some project => root ++ "/" ++ project
  | none => root

/-- The names in a directory; an error of the kernel is no error here. -/
def namesIn (path : String) : Handler (Except WorkspaceError (List String)) := do
  match ← VfsClient.list path with
  | .ok names => return .ok names
  | .error (.ipc _) => return .ok []
  | .error e => return .error e

def handleList (p : ListParams) : Handler (Except WorkspaceError Json) := do
  let root ← getWorkspaceRoot
  let target := projectPath root p.project
  match ← namesIn target with
  | .error e => return .error e
  | .ok names => return .ok (.ofMembers [("entries", .array (names.map (fileEntry target)))])

/-- What `handle_read` does with its target. -/
def readTarget (target : String) : Handler (Except WorkspaceError Json) := do
  match ← VfsClient.read target with
  | .error _ => return .error (.fileNotFound target)
  | .ok content =>
    return .ok (.ofMembers [("content", .string content),
      ("metadata", .ofMembers [("size", .int 0), ("created", .null), ("modified", .null)])])

/-- What `handle_write` does with its target: only a missing file is no error of the read. -/
def writeTarget (content target : String) : Handler (Except WorkspaceError Json) := do
  let before ← VfsClient.read target
  let blocked : Option WorkspaceError := match before with
    | .ok _ => none
    | .error (.fileNotFound _) => none
    | .error e => some e
  match blocked with
  | some e => return .error e
  | none =>
    match ← VfsClient.write target content with
    | .error e => return .error e
    | .ok n => return .ok (.ofMembers [("path", .string target), ("bytes_written", .int n)])

/-- What `handle_delete` does with its target. -/
def deleteTarget (target : String) : Handler (Except WorkspaceError Json) := do
  match ← VfsClient.delete target with
  | .error e => return .error e
  | .ok deleted => return .ok (.ofMembers [("path", .string target), ("deleted", .bool deleted)])

/-- The beginning of `handle_read`, `handle_write` and `handle_delete`. -/
def onTarget (path : String) (body : String → Handler (Except WorkspaceError Json)) :
    Handler (Except WorkspaceError Json) := do
  let root ← getWorkspaceRoot
  match targetPath root path with
  | .error e => return .error e
  | .ok target => body target

def handleRead (p : ReadParams) : Handler (Except WorkspaceError Json) :=
  onTarget p.path readTarget

def handleInfo : Handler (Except WorkspaceError Json) := do
  let root ← getWorkspaceRoot
  match ← namesIn root with
  | .error e => return .error e
  | .ok projects =>
    return .ok (.ofMembers [("root", .string root), ("projects", .array (projects.map .string)),
      ("default_project", .null)])

def handleWrite (p : WriteParams) : Handler (Except WorkspaceError Json) :=
  onTarget p.path (writeTarget p.content)

def handleDelete (p : DeleteParams) : Handler (Except WorkspaceError Json) :=
  onTarget p.path deleteTarget

def templateFiles (p : CreateProjectParams) : List (String × String) :=
  match p.template with
  | some "python" =>
    [("main.py", "#!/usr/bin/env python3\n\ndef main():\n    pass\n\n" ++
        "if __name__ == \"__main__\":\n    main()\n"),
      ("requirements.txt", ""),
      ("README.md", "# " ++ p.projectName ++ "\n\n" ++ p.description.getD "")]
  | some "web" =>
    [("index.html", "<!DOCTYPE html>\n<html>\n<head>\n    <title>TODO</title>\n</head>\n" ++
        "<body>\n    <h1>TODO</h1>\n</body>\n</html>\n"),
      ("style.css", "body \x7b font-family: sans-serif; margin: 2rem; \x7d\n"),
      ("script.js", "// TODO\n")]
  | _ => []

/-- The loop of `handle_create_project`; it returns the names of the files. -/
def writeFiles (dir : String) :
    List (String × String) → Handler (Except WorkspaceError (List String))
  | [] => return .ok []
  | (name, content) :: rest => do
    match ← VfsClient.write (dir ++ "/" ++ name) content with
    | .error e => return .error e
    | .ok _ =>
      match ← writeFiles dir rest with
      | .error e => return .error e
      | .ok names => return .ok (name :: names)

def handleCreateProject (p : CreateProjectParams) : Handler (Except WorkspaceError Json) := do
  let root ← getWorkspaceRoot
  let dir := root ++ "/" ++ p.projectName
  match ← writeFiles dir (templateFiles p) with
  | .error e => return .error e
  | .ok files =>
    return .ok (.ofMembers [("path", .string dir), ("files", .array (files.map .string))])

/-- `list(path).await.unwrap_or_default()`. -/
def filesIn (path : String) : Handler (List String) := do
  match ← VfsClient.list path with
  | .ok names => return names
  | .error _ => return []

/-- The loop of `handle_snapshot`; it returns the number of files that could be read. -/
def copyFiles (source target : String) : List String → Handler Nat
  | [] => return 0
  | file :: rest => do
    match ← VfsClient.read (source ++ "/" ++ file) with
    | .error _ => copyFiles source target rest
    | .ok content =>
      let _ ← VfsClient.write (target ++ "/" ++ file) content
      let count ← copyFiles source target rest
      return count + 1

/-- `handle_snapshot`, at a time. -/
def handleSnapshot (now : String) (p : SnapshotParams) : Handler (Except WorkspaceError Json) := do
  let root ← getWorkspaceRoot
  let project := root ++ "/" ++ p.project
  let snapshot := root ++ "/.snapshots/" ++ p.project ++ "/" ++ p.name.getD now
  let files ← filesIn project
  let count ← copyFiles project snapshot files
  return .ok (.ofMembers [("path", .string snapshot), ("files", .int count)])

def matchesIn (path query content : String) : List Json :=
  ((lines content).zipIdx.filter fun l => containsStr l.1 query).map fun l =>
    searchResult path (some ((l.2 + 1) % 2 ^ 32)) (some (String.ofList (l.1.toList.take 100)))

/-- The loop of `handle_search` over the contents of files. -/
def searchContents (dir query : String) : List String → Handler (List Json)
  | [] => return []
  | file :: rest => do
    let path := dir ++ "/" ++ file
    match ← VfsClient.read path with
    | .error _ => searchContents dir query rest
    | .ok content =>
      let others ← searchContents dir query rest
      return matchesIn path query content ++ others

def handleSearch (p : SearchParams) : Handler (Except WorkspaceError Json) := do
  let root ← getWorkspaceRoot
  let dir := projectPath root p.project
  match p.searchType.getD "name" with
  | "name" =>
    let files ← filesIn dir
    let found := files.filter fun file => containsStr file p.query
    return .ok (.ofMembers [("results",
      .array (found.map fun file => searchResult (dir ++ "/" ++ file) none none))])
  | "content" =>
    let files ← filesIn dir
    let results ← searchContents dir p.query files
    return .ok (.ofMembers [("results", .array results)])
  | _ => return .ok (.ofMembers [("results", .array [])])

def handleSetDefault (p : SetDefaultParams) : Handler (Except WorkspaceError Json) := do
  let root ← getWorkspaceRoot
  let _ ← VfsClient.write (root ++ "/.default") p.project
  return .ok (.ofMembers [("project", .string (root ++ "/" ++ p.project))])

/-! ## Requests -/

/-- A request to the service, and the time it comes. -/
structure Request where
  method : String
  params : Json
  now : String

def Request.user (req : Request) : String := extractCallerUser req.params

def answer {α : Type} (decoded : Except String α)
    (handler : α → Handler (Except WorkspaceError Json)) : Handler (Except RpcError Json) :=
  match decoded with
  | .error e => return .error ⟨-32602, "invalid params: " ++ e⟩
  | .ok p => do
    match ← handler p with
    | .ok result => return .ok result
    | .error e => return .error ⟨-32000, e.display⟩

/-- `WorkspaceService::handle_request`, after the user has been set. -/
def handleRequest (codec : ParamsCodec) (req : Request) : Handler (Except RpcError Json) :=
  match req.method with
  | "workspace.list" => answer (codec.list req.params) handleList
  | "workspace.read" => answer (codec.read req.params) handleRead
  | "workspace.info" => answer (.ok ()) fun _ => handleInfo
  | "workspace.write" => answer (codec.write req.params) handleWrite
  | "workspace.delete" => answer (codec.delete req.params) handleDelete
  | "workspace.create-project" => answer (codec.createProject req.params) handleCreateProject
  | "workspace.snapshot" => answer (codec.snapshot req.params) (handleSnapshot req.now)
  | "workspace.search" => answer (codec.search req.params) handleSearch
  | "workspace.set-default" => answer (codec.setDefault req.params) handleSetDefault
  | method => return .error ⟨-32601, "method not found: " ++ method⟩

/-- A service that handles requests at once: its handlers and their calls. -/
abbrev Service := Pool Request String KernelRequest IpcReply (Except RpcError Json)

/-- `WorkspaceService::new`. -/
def Service.new : Service := ⟨"anonymous", [], []⟩

abbrev ServiceEvent := PoolEvent Request IpcReply

/-- A request comes and sets the user, a handler goes on, or a reply of the kernel comes. -/
def Service.step (codec : ParamsCodec) : Service → ServiceEvent → Service :=
  Pool.step Request.user (handleRequest codec)

end Workspace

end Avix
