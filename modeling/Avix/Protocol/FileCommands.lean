/-
  PROTOCOL — file commands and the VFS router.

  `file_commands_iff`: in a sequence of file commands, through the gateway and through the
  workspace service, the reply to each read, write, list and delete is what the same operation on
  the kernel's VFS router gives, if and only if the router refuses each of these commands, and
  finds no name for a list through the workspace service.

  Reason. Both front ends call `kernel/fs/<op>`, and `dispatch_request` knows `fs/<op>` only: it
  answers every such call with an unknown method. The gateway hands the error on; it has no op
  `delete`. The workspace service takes the error of a list for an empty directory, and answers all
  else with an error; its write gives up when the read before it fails.

  A reply counts by its outcome: the text that was read, the names, success or refusal; error codes
  and texts are not compared.
-/
import Avix.Kernel.FileCalls
import Avix.Workspace.Service

namespace Avix.Protocol

open Lib Workspace

/-! ## Statement -/

/-- What a file command comes to. -/
inductive Outcome where
  | content (text : String)
  | done
  | names (entries : List String)
  | refused
  deriving DecidableEq

section Statement

variable {D : Type} (x : FileExternals D)

def valueOutcome : VfsValue → Outcome
  | .bytes data => .content (fileText x data).1
  | .unit => .done
  | .names entries => .names entries

/-- The operation on the router, and what it comes to. -/
def routerApply (vfs : VfsRouter D) (ask : FileAsk) : VfsRouter D × Outcome :=
  match ask.op with
  | .error _ => (vfs, .refused)
  | .ok op =>
    let result := vfs.operate x.fileSystem x.yamlOfNames op
    (result.1,
      match result.2 with
      | .ok value => valueOutcome x value
      | .error _ => .refused)

/-- A command through one of the front ends. -/
inductive FileCommand where
  | gateway (v : ValidatedCmd)
  | workspace (req : Request)

/-- The path of a file parameter in the workspace of a user. -/
def pathIn (user path : String) : String :=
  if startsWith path "/" then path else workspaceRoot user ++ "/" ++ path

/-- The operation that a read, write, list or delete command asks for. -/
def asked (codec : ParamsCodec) : FileCommand → Option FileAsk
  | .gateway v =>
    let path := strParam v.cmd.body "path" ""
    match v.cmd.op with
    | "read" => some (.read path)
    | "write" => some (.write path (strParam v.cmd.body "content" ""))
    | "list" => some (.list path)
    | "delete" => some (.delete path)
    | _ => none
  | .workspace req =>
    match req.method with
    | "workspace.read" =>
      (codec.read req.params).toOption.map fun p => .read (pathIn req.user p.path)
    | "workspace.write" =>
      (codec.write req.params).toOption.map fun p => .write (pathIn req.user p.path) p.content
    | "workspace.list" =>
      (codec.list req.params).toOption.map fun p =>
        .list (projectPath (workspaceRoot req.user) p.project)
    | "workspace.delete" =>
      (codec.delete req.params).toOption.map fun p => .delete (pathIn req.user p.path)
    | _ => none

/-- What the kernel's reply says, and the gateway's. -/
def kernelOutcome {ε : Type} (ask : FileAsk) : Except ε Json → Outcome
  | .error _ => .refused
  | .ok body =>
    match ask with
    | .read _ => .content (strParam body "content" "")
    | .write _ _ => .done
    | .list _ => .names ((strings (body.index "entries")).getD [])
    | .delete _ => .done

/-- What the reply of the workspace service says. -/
def workspaceOutcome (ask : FileAsk) : Except RpcError Json → Outcome
  | .error _ => .refused
  | .ok body =>
    match ask with
    | .read _ => .content (strParam body "content" "")
    | .write _ _ => .done
    | .list _ => .names (((body.index "entries").asArray.getD []).map fun e => strParam e "name" "")
    | .delete _ => if (body.index "deleted").asBool = some true then .done else .refused

/-- A kernel call of the workspace service. -/
def ipcAnswer (vfs : VfsRouter D) (q : KernelRequest) : VfsRouter D × IpcReply :=
  let reply := dispatchRequest x vfs q.method q.params
  (reply.1,
    match reply.2 with
    | .ok result => .ok (some result)
    | .error e => .error e.message)

/-- A command with the kernel behind its front end; the outcome is read as the answer to `ask`. -/
def perform (codec : ParamsCodec) (vfs : VfsRouter D) (ask : FileAsk) :
    FileCommand → VfsRouter D × Outcome
  | .gateway v =>
    let reply := gatewayFs x vfs v
    (reply.1, kernelOutcome ask reply.2.result)
  | .workspace req =>
    let reply := (handleRequest codec req).serve (ipcAnswer x) req.user vfs
    (reply.1, workspaceOutcome ask reply.2)

/-- From the same router on, every read, write, list and delete comes to the same as on the router
    itself. Commands that are none of these are left out of the sequence. -/
def Refines (codec : ParamsCodec) (vfs model : VfsRouter D) : List FileCommand → Prop
  | [] => True
  | cmd :: rest =>
    match asked codec cmd with
    | none => Refines codec vfs model rest
    | some ask =>
      (perform x codec vfs ask cmd).2 = (routerApply x model ask).2 ∧
        Refines codec (perform x codec vfs ask cmd).1 (routerApply x model ask).1 rest

/-- Nothing, as the front end of the command says it. -/
def nothing (ask : FileAsk) : FileCommand → Outcome
  | .gateway _ => .refused
  | .workspace _ =>
    match ask with
    | .list _ => .names []
    | _ => .refused

def CarriesOutNone (codec : ParamsCodec) (model : VfsRouter D) : List FileCommand → Prop
  | [] => True
  | cmd :: rest =>
    match asked codec cmd with
    | none => CarriesOutNone codec model rest
    | some ask =>
      (routerApply x model ask).2 = nothing ask cmd ∧
        CarriesOutNone codec (routerApply x model ask).1 rest

end Statement

/-! ## The front ends -/

section FrontEnds

variable {D : Type} {x : FileExternals D} {vfs : VfsRouter D}

/-- The methods that the front ends call. -/
def calledMethods : List String :=
  ["kernel/fs/read", "kernel/fs/write", "kernel/fs/list", "kernel/fs/delete"]

variable {codec : ParamsCodec} {user method : String} {α : Type}

theorem dispatchRequest_called (h : method ∈ calledMethods) (params : Json) :
    dispatchRequest x vfs method params =
      (vfs, .error ⟨-32601, "unknown kernel method: " ++ method⟩) := by
  simp only [calledMethods, List.mem_cons, List.not_mem_nil, or_false] at h
  rcases h with rfl | rfl | rfl | rfl <;> rfl

theorem gatewayFs_error {v : ValidatedCmd} (hop : v.cmd.op ∈ ["read", "write", "list", "delete"]) :
    ∃ e, (gatewayFs x vfs v).2.result = .error e := by
  have hcall : "kernel/fs/" ++ v.cmd.op ∈ calledMethods := by
    simp only [List.mem_cons, List.not_mem_nil, or_false] at hop
    rcases hop with hop | hop | hop | hop <;> rw [hop] <;> decide
  unfold gatewayFs fsRoute
  split_ifs with hsecr hknown
  · exact ⟨_, rfl⟩
  · dsimp only
    rw [liveCall, dispatchRequest_called hcall]
    exact ⟨_, rfl⟩
  · exact ⟨_, rfl⟩

/-- A call of the workspace service gets an error. -/
theorem serve_callKernel (h : method ∈ calledMethods) (params : Json) (decode : Option Json → α)
    (user : String) :
    (callKernel method params decode).serve (ipcAnswer x) user vfs =
      (vfs, .error (.ipc ("unknown kernel method: " ++ method))) := by
  simp only [callKernel, Prog.serve, ipcAnswer, dispatchRequest_called h]
  rfl

/-- The reply of a program is an error. -/
def Fails {ε α : Type} (p : Handler (Except ε α)) (user : String) (x : FileExternals D)
    (vfs : VfsRouter D) : Prop := ∃ e, (p.serve (ipcAnswer x) user vfs).2 = .error e

theorem fails_readTarget (target user : String) : Fails (readTarget target) user x vfs := by
  rw [Fails, readTarget, Prog.serve_bind, VfsClient.read, serve_callKernel (by decide)]
  exact ⟨_, rfl⟩

theorem fails_writeTarget (content target user : String) :
    Fails (writeTarget content target) user x vfs := by
  rw [Fails, writeTarget, Prog.serve_bind, VfsClient.read, serve_callKernel (by decide)]
  exact ⟨_, rfl⟩

theorem fails_deleteTarget (target user : String) : Fails (deleteTarget target) user x vfs := by
  rw [Fails, deleteTarget, Prog.serve_bind, VfsClient.delete, serve_callKernel (by decide)]
  exact ⟨_, rfl⟩

theorem fails_root {ε α : Type} {f : String → Handler (Except ε α)}
    (h : Fails (f (workspaceRoot user)) user x vfs) : Fails (getWorkspaceRoot >>= f) user x vfs := h

theorem fails_onTarget {path : String} {body : String → Handler (Except WorkspaceError Json)}
    (h : ∀ target, Fails (body target) user x vfs) : Fails (onTarget path body) user x vfs := by
  refine fails_root ?_
  split
  · exact ⟨_, rfl⟩
  · exact h _

theorem fails_answer {p : α} {handler : α → Handler (Except WorkspaceError Json)}
    (h : Fails (handler p) user x vfs) : Fails (answer (.ok p) handler) user x vfs := by
  obtain ⟨e, he⟩ := h
  rw [Fails, answer, Prog.serve_bind, he]
  exact ⟨_, rfl⟩

theorem serve_handleList (p : ListParams) (user : String) :
    ((answer (.ok p) handleList).serve (ipcAnswer x) user vfs).2 =
      .ok (.ofMembers [("entries", .array [])]) := by
  have hnames : ((namesIn (projectPath (workspaceRoot user) p.project)).serve (ipcAnswer x) user
      vfs) = (vfs, .ok []) := by
    rw [namesIn, Prog.serve_bind, VfsClient.list, serve_callKernel (by decide)]
    rfl
  have hlist : ((handleList p).serve (ipcAnswer x) user vfs).2 =
      .ok (.ofMembers [("entries", .array [])]) := by
    rw [handleList, Prog.serve_bind]
    change (Prog.serve (ipcAnswer x) user
      (namesIn (projectPath (workspaceRoot user) p.project) >>= _) vfs).2 = _
    rw [Prog.serve_bind, hnames]
    rfl
  rw [answer, Prog.serve_bind, hlist]
  rfl

theorem perform_of_fails {req : Request} (ask : FileAsk)
    (h : Fails (handleRequest codec req) req.user x vfs) :
    (perform x codec vfs ask (.workspace req)).2 = .refused := by
  obtain ⟨e, he⟩ := h
  rw [perform, he]
  rfl

/-- Whatever the router holds, a command comes to nothing. -/
theorem perform_outcome {cmd : FileCommand} {ask : FileAsk} (h : asked codec cmd = some ask) :
    (perform x codec vfs ask cmd).2 = nothing ask cmd := by
  cases cmd with
  | gateway v =>
    have hop : v.cmd.op ∈ ["read", "write", "list", "delete"] := by
      simp only [asked] at h
      split at h
      case h_5 => cases h
      all_goals
        rename_i hop
        simp [hop]
    obtain ⟨e, he⟩ : ∃ e, (gatewayFs x vfs v).2.result = .error e := gatewayFs_error hop
    rw [perform, he]
    rfl
  | workspace req =>
    simp only [asked] at h
    split at h
    · rename_i hmeth
      obtain ⟨p, hp, rfl⟩ := Option.map_eq_some_iff.mp h
      refine perform_of_fails _ ?_
      rw [handleRequest, hmeth, eq_ok_of_toOption hp]
      exact fails_answer (fails_onTarget fun target => fails_readTarget target _)
    · rename_i hmeth
      obtain ⟨p, hp, rfl⟩ := Option.map_eq_some_iff.mp h
      refine perform_of_fails _ ?_
      rw [handleRequest, hmeth, eq_ok_of_toOption hp]
      exact fails_answer (fails_onTarget fun target => fails_writeTarget p.content target _)
    · rename_i hmeth
      obtain ⟨p, hp, rfl⟩ := Option.map_eq_some_iff.mp h
      have hlist : handleRequest codec req = answer (.ok p) handleList := by
        rw [handleRequest, hmeth, eq_ok_of_toOption hp]
        rfl
      rw [perform, hlist]
      dsimp only
      rw [serve_handleList]
      rfl
    · rename_i hmeth
      obtain ⟨p, hp, rfl⟩ := Option.map_eq_some_iff.mp h
      refine perform_of_fails _ ?_
      rw [handleRequest, hmeth, eq_ok_of_toOption hp]
      exact fails_answer (fails_onTarget fun target => fails_deleteTarget target _)
    · cases h

end FrontEnds

theorem file_commands_iff {D : Type} (x : FileExternals D) (codec : ParamsCodec)
    (vfs : VfsRouter D) (cmds : List FileCommand) :
    Refines x codec vfs vfs cmds ↔ CarriesOutNone x codec vfs cmds := by
  have hany : ∀ vfs model : VfsRouter D,
      Refines x codec vfs model cmds ↔ CarriesOutNone x codec model cmds := by
    induction cmds with
    | nil => exact fun _ _ => Iff.rfl
    | cons cmd rest ih =>
      intro vfs model
      unfold Refines CarriesOutNone
      cases hasked : asked codec cmd with
      | none => exact ih vfs model
      | some ask =>
        dsimp only
        rw [perform_outcome hasked, ih]
        exact and_congr_left fun _ => eq_comm
  exact hany vfs vfs

/-! ## Examples -/

namespace Notes

/-- A kernel without disk and mounts. -/
def externals : FileExternals Unit where
  fileSystem := .noDisk
  yamlOfNames _ := ""
  base64 _ := ""
  other vfs _ _ := (vfs, .ok .null)

/-- One file, in memory. -/
def vfs : VfsRouter Unit where
  mounts := []
  memMounts := []
  toolRegistry := none
  caller := none
  default := AList.insert "/users/alice/workspace/plan.md" (utf8 "plan") ∅
  disk := ()

def gateway (op : String) (body : List (String × Json)) : FileCommand :=
  .gateway ⟨⟨"f-1", "", .fs, op, .ofMembers body⟩, "alice", .user, "s-1"⟩

def workspace (method : String) (params : List (String × Json)) : FileCommand :=
  .workspace
    ⟨method, .ofMembers (("_caller", .ofMembers [("user", .string "alice")]) :: params), ""⟩

end Notes

/-- Through neither front end the file is read or removed, or another one written, though the
    router would do it. -/
theorem file_commands_lost :
    (∃ v ask, Notes.gateway "read" [("path", .string "/users/alice/workspace/plan.md")] =
        .gateway v ∧ asked .ofMembers (.gateway v) = some ask ∧
      (routerApply Notes.externals Notes.vfs ask).2 = .content "plan" ∧
      (gatewayFs Notes.externals Notes.vfs v).2.result =
        .error ⟨.einternal, "unknown kernel method: kernel/fs/read"⟩) ∧
    (∃ req ask, Notes.workspace "workspace.write" [("path", .string "new.md"),
        ("content", .string "x")] = .workspace req ∧
      asked .ofMembers (.workspace req) = some ask ∧
      (routerApply Notes.externals Notes.vfs ask).2 = .done ∧
      ((handleRequest .ofMembers req).serve (ipcAnswer Notes.externals) "alice" Notes.vfs).2 =
        .error ⟨-32000, "IPC error: unknown kernel method: kernel/fs/read"⟩) ∧
    (∃ req ask, Notes.workspace "workspace.delete" [("path", .string "plan.md")] = .workspace req ∧
      asked .ofMembers (.workspace req) = some ask ∧
      (routerApply Notes.externals Notes.vfs ask).2 = .done ∧
      ((handleRequest .ofMembers req).serve (ipcAnswer Notes.externals) "alice" Notes.vfs).2 =
        .error ⟨-32000, "IPC error: unknown kernel method: kernel/fs/delete"⟩) ∧
    ¬Refines Notes.externals .ofMembers Notes.vfs Notes.vfs
      [Notes.workspace "workspace.delete" [("path", .string "plan.md")]] := by
  refine ⟨⟨_, _, rfl, rfl, ?_, rfl⟩, ⟨_, _, rfl, rfl, rfl, rfl⟩, ⟨_, _, rfl, rfl, rfl, rfl⟩, ?_⟩
  · change Outcome.content (fileText Notes.externals (utf8 "plan")).1 = _
    rw [fileText, fromUtf8_utf8]
  · rintro ⟨hsame, -⟩
    have href : Outcome.refused = Outcome.done := hsame
    cases href

end Avix.Protocol
