/-
  SECURITY — the workspace service keeps to the workspace of the caller.

  `workspace_confined`: in every run of a workspace service, with any interleaving of
  requests and any replies of the kernel, in which
  * a request comes only while no request of another user has yet to read the user;
  * an absolute path of a read, write or delete starts with the text of the workspace's root
    exactly if it lies in the workspace, by components,
  every kernel request that the kernel's path parsing accepts addresses a path in the workspace of
  the user that the request was made for, and an absolute and a relative path of one file are
  treated alike.

  Reason. What is joined to the root with a slash lies below it. A request sets the user for all
  handlers, and each handler reads it once; the check of an absolute path compares texts.

  Pieces of a path are what stands between slashes, without empty ones and single dots.
-/
import Avix.Lib.DotDot
import Avix.Workspace.Service

namespace Avix.Security

open Lib Workspace Prog List

/-! ## Statement -/

/-- The path is the user's workspace or lies below it. -/
def InWorkspace (user path : String) : Prop := pieces (workspaceRoot user) <+: pieces path

instance (user path : String) : Decidable (InWorkspace user path) :=
  inferInstanceAs (Decidable (_ <+: _))

/-- The path of a kernel request, as the kernel reads it. -/
def requestPath (q : KernelRequest) : String := ((q.params.index "path").asStr).getD ""

/-- The request is rejected by the kernel's path parsing, or addresses the workspace. -/
def StaysIn (user : String) (q : KernelRequest) : Prop :=
  ∀ path, VfsPath.parse (requestPath q) = .ok path → InWorkspace user path.asStr

/-- What a request on one file asks for, beside the path. -/
inductive FileOp where
  | read
  | write (content : String)
  | delete

/-- The path and the operation of a request on one file. -/
def fileRequest (codec : ParamsCodec) (req : Request) : Option (String × FileOp) :=
  match req.method with
  | "workspace.read" => (codec.read req.params).toOption.map fun p => (p.path, .read)
  | "workspace.write" => (codec.write req.params).toOption.map fun p => (p.path, .write p.content)
  | "workspace.delete" => (codec.delete req.params).toOption.map fun p => (p.path, .delete)
  | _ => none

/-- One user's requests for the same on the same file, once by an absolute path and once by a
    relative one. -/
structure SameFile (codec : ParamsCodec) (req req' : Request) : Prop where
  user : req'.user = req.user
  spelling : ∃ path path' op, fileRequest codec req = some (path, op) ∧
    fileRequest codec req' = some (path', op) ∧
    startsWith path "/" = true ∧ startsWith path' "/" = false ∧
    pieces path = pieces (workspaceRoot req.user ++ "/" ++ path')

/-- The same request to the kernel, on the same file. -/
def SameRequest (q q' : KernelRequest) : Prop :=
  q.method = q'.method ∧ pieces (requestPath q) = pieces (requestPath q') ∧
    q.params.index "content" = q'.params.index "content"

/-- The same result but for the spelling of the path, or the same kind of error. -/
def SameResult : Except RpcError Json → Except RpcError Json → Prop
  | .ok result, .ok result' => ∀ key, key ≠ "path" → result.index key = result'.index key
  | .error e, .error e' => e.code = e'.code
  | _, _ => False

/-- Whatever the kernel replies, both requests lead to the same kernel requests and result. -/
structure TreatedAlike (codec : ParamsCodec) (req req' : Request) : Prop where
  alike : (handleRequest codec req).Alike req.user SameRequest SameResult (handleRequest codec req')

/-- The text of an absolute path starts with the root exactly if it is in the workspace. -/
structure PlainSpelling (user path : String) : Prop where
  ends : startsWith path (workspaceRoot user) = true →
    path = workspaceRoot user ∨ startsWith path (workspaceRoot user ++ "/") = true
  begins : InWorkspace user path → startsWith path (workspaceRoot user) = true

/-- The condition on a step. -/
def KeepsApart (codec : ParamsCodec) (s : Service) : ServiceEvent → Prop
  | .start req => Pool.Apart Request.user s req ∧
    ∀ path op, fileRequest codec req = some (path, op) → startsWith path "/" = true →
      PlainSpelling req.user path
  | _ => True

/-! ## Paths -/

theorem inWorkspace_root (user : String) : InWorkspace user (workspaceRoot user) := prefix_rfl

variable {codec : ParamsCodec} {path user : String} {req : Request}

/-- What is joined to a path lies below it. -/
theorem InWorkspace.join (h : InWorkspace user path) (name : String) :
    InWorkspace user (path ++ "/" ++ name) := by
  rw [InWorkspace, pieces_slash]
  exact h.trans (prefix_append _ _)

theorem inWorkspace_projectPath (user : String) (project : Option String) :
    InWorkspace user (projectPath (workspaceRoot user) project) := by
  cases project with
  | none => exact inWorkspace_root user
  | some project => exact (inWorkspace_root user).join project

theorem inWorkspace_of_startsWith (h : PlainSpelling user path)
    (hstar : startsWith path (workspaceRoot user) = true) : InWorkspace user path := by
  rcases h.ends hstar with rfl | hslash
  · exact inWorkspace_root user
  obtain ⟨rest, hrest⟩ := isPrefixOf_iff_prefix.mp hslash
  have heq : path = workspaceRoot user ++ "/" ++ String.ofList rest := by
    rw [← String.toList_inj, String.toList_append, String.toList_ofList, hrest]
  rw [heq]
  exact (inWorkspace_root user).join _

theorem inWorkspace_targetPath {target : String}
    (hpath : startsWith path "/" = true → PlainSpelling user path)
    (h : targetPath (workspaceRoot user) path = .ok target) : InWorkspace user target := by
  unfold targetPath at h
  split_ifs at h with habs hstar
  · cases h
    exact inWorkspace_of_startsWith (hpath habs) hstar
  · cases h
    exact (inWorkspace_root user).join path

/-! ## What the handlers send -/

theorem requestPath_one (method path : String) :
    requestPath ⟨method, .ofMembers [("path", .string path)]⟩ = path := by
  simp [requestPath, Json.index_ofMembers, Json.asStr]

theorem requestPath_two (method path content : String) :
    requestPath ⟨method, .ofMembers [("path", .string path), ("content", .string content)]⟩ =
      path := by
  simp [requestPath, Json.index_ofMembers, Json.asStr, lookup_cons]

section Sends

variable {user : String}

theorem staysIn_of_inWorkspace {q : KernelRequest} (h : InWorkspace user (requestPath q)) :
    StaysIn user q := fun _ hparse => VfsPath.asStr_of_parse hparse ▸ h

variable {α : Type}

theorem sends_callKernel {method : String} {params : Json} {decode : Option Json → α}
    (h : InWorkspace user (requestPath ⟨method, params⟩)) :
    (callKernel method params decode).Sends (StaysIn user) := by
  refine ⟨staysIn_of_inWorkspace h, fun reply => ?_⟩
  cases reply <;> trivial

variable {path : String} (h : InWorkspace user path)

include h

theorem sends_list : (VfsClient.list path).Sends (StaysIn user) :=
  sends_callKernel (by rwa [requestPath_one])

theorem sends_read : (VfsClient.read path).Sends (StaysIn user) :=
  sends_callKernel (by rwa [requestPath_one])

theorem sends_write (content : String) : (VfsClient.write path content).Sends (StaysIn user) :=
  sends_callKernel (by rwa [requestPath_two])

theorem sends_delete : (VfsClient.delete path).Sends (StaysIn user) :=
  sends_callKernel (by rwa [requestPath_one])

theorem sends_namesIn : (namesIn path).Sends (StaysIn user) := by
  refine sends_bind (sends_list h) fun names => ?_
  split <;> trivial

theorem sends_filesIn : (filesIn path).Sends (StaysIn user) := by
  refine sends_bind (sends_list h) fun names => ?_
  split <;> trivial

theorem sends_readTarget : (readTarget path).Sends (StaysIn user) := by
  refine sends_bind (sends_read h) fun content => ?_
  split <;> trivial

theorem sends_writeTarget (content : String) : (writeTarget content path).Sends (StaysIn user) := by
  refine sends_bind (sends_read h) fun before => ?_
  dsimp only
  split
  · trivial
  · refine sends_bind (sends_write h content) fun written => ?_
    split <;> trivial

theorem sends_deleteTarget : (deleteTarget path).Sends (StaysIn user) := by
  refine sends_bind (sends_delete h) fun deleted => ?_
  split <;> trivial

theorem sends_writeFiles (files : List (String × String)) :
    (writeFiles path files).Sends (StaysIn user) := by
  induction files with
  | nil => trivial
  | cons file rest ih =>
    refine sends_bind (sends_write (h.join _) _) fun written => ?_
    split
    · trivial
    · refine sends_bind ih fun names => ?_
      split <;> trivial

theorem sends_copyFiles {target : String} (htarg : InWorkspace user target)
    (files : List String) : (copyFiles path target files).Sends (StaysIn user) := by
  induction files with
  | nil => trivial
  | cons file rest ih =>
    refine sends_bind (sends_read (h.join file)) fun content => ?_
    split
    · exact ih
    · refine sends_bind (sends_write (htarg.join file) _) fun _ => ?_
      exact sends_bind ih fun _ => trivial

theorem sends_searchContents (query : String) (files : List String) :
    (searchContents path query files).Sends (StaysIn user) := by
  induction files with
  | nil => trivial
  | cons file rest ih =>
    refine sends_bind (sends_read (h.join file)) fun content => ?_
    split
    · exact ih
    · exact sends_bind ih fun _ => trivial

end Sends

/-! ## Requests -/

section Ready

variable {user : String}

theorem ready_root {f : String → Handler α}
    (h : (f (workspaceRoot user)).Sends (StaysIn user)) :
    (getWorkspaceRoot >>= f).Ready user (StaysIn user) := h

theorem alike_root {res : α → α → Prop} {f f' : String → Handler α}
    (h : (f (workspaceRoot user)).Alike user SameRequest res (f' (workspaceRoot user))) :
    (getWorkspaceRoot >>= f).Alike user SameRequest res (getWorkspaceRoot >>= f') := h

theorem ready_handleList (p : ListParams) : (handleList p).Ready user (StaysIn user) := by
  refine ready_root (sends_bind (sends_namesIn (inWorkspace_projectPath user p.project)) ?_)
  intro names
  split <;> trivial

theorem ready_handleInfo : handleInfo.Ready user (StaysIn user) := by
  refine ready_root (sends_bind (sends_namesIn (inWorkspace_root user)) fun names => ?_)
  split <;> trivial

theorem ready_onTarget {path : String} {body : String → Handler (Except WorkspaceError Json)}
    (hpath : startsWith path "/" = true → PlainSpelling user path)
    (hbody : ∀ target, InWorkspace user target → (body target).Sends (StaysIn user)) :
    (onTarget path body).Ready user (StaysIn user) := by
  refine ready_root ?_
  split
  · trivial
  · rename_i target htarg
    exact hbody target (inWorkspace_targetPath hpath htarg)

theorem ready_handleCreateProject (p : CreateProjectParams) :
    (handleCreateProject p).Ready user (StaysIn user) := by
  refine ready_root (sends_bind
    (sends_writeFiles ((inWorkspace_root user).join p.projectName) _) fun files => ?_)
  split <;> trivial

theorem ready_handleSnapshot (now : String) (p : SnapshotParams) :
    (handleSnapshot now p).Ready user (StaysIn user) := by
  have hproj := (inWorkspace_root user).join p.project
  have hsnap : InWorkspace user
      (workspaceRoot user ++ "/.snapshots/" ++ p.project ++ "/" ++ p.name.getD now) := by
    refine InWorkspace.join ?_ _
    have hslas : workspaceRoot user ++ "/.snapshots/" =
        workspaceRoot user ++ "/" ++ ".snapshots" ++ "/" := by
      rw [String.append_assoc, String.append_assoc]
      rfl
    rw [hslas]
    exact ((inWorkspace_root user).join _).join _
  refine ready_root (sends_bind (sends_filesIn hproj) fun files => ?_)
  exact sends_bind (sends_copyFiles hproj hsnap files) fun _ => trivial

theorem ready_handleSearch (p : SearchParams) : (handleSearch p).Ready user (StaysIn user) := by
  have hdir := inWorkspace_projectPath user p.project
  refine ready_root ?_
  dsimp only
  split
  · exact sends_bind (sends_filesIn hdir) fun _ => trivial
  · refine sends_bind (sends_filesIn hdir) fun files => ?_
    exact sends_bind (sends_searchContents hdir p.query files) fun _ => trivial
  · trivial

theorem ready_handleSetDefault (p : SetDefaultParams) :
    (handleSetDefault p).Ready user (StaysIn user) := by
  have hdef : InWorkspace user (workspaceRoot user ++ "/.default") := by
    have hslash : workspaceRoot user ++ "/.default" = workspaceRoot user ++ "/" ++ ".default" := by
      rw [String.append_assoc]
      rfl
    rw [hslash]
    exact (inWorkspace_root user).join _
  exact ready_root (sends_bind (sends_write hdef p.project) fun _ => trivial)

theorem ready_answer {decoded : Except String α}
    {handler : α → Handler (Except WorkspaceError Json)}
    (h : ∀ p, decoded = .ok p → (handler p).Ready user (StaysIn user)) :
    (answer decoded handler).Ready user (StaysIn user) := by
  cases decoded with
  | error e => trivial
  | ok p =>
    refine ready_bind (h p rfl) fun result => ?_
    split <;> trivial

theorem ready_handleRequest {codec : ParamsCodec} {req : Request}
    (hpath : ∀ path op, fileRequest codec req = some (path, op) → startsWith path "/" = true →
      PlainSpelling req.user path) :
    (handleRequest codec req).Ready req.user (StaysIn req.user) := by
  unfold handleRequest
  split
  · exact ready_answer fun p _ => ready_handleList p
  · rename_i hmeth
    refine ready_answer fun p hp => ready_onTarget (hpath p.path .read ?_) fun _ => sends_readTarget
    rw [fileRequest, hmeth, hp]
    rfl
  · exact ready_answer fun _ _ => ready_handleInfo
  · rename_i hmeth
    refine ready_answer fun p hp => ready_onTarget (hpath p.path (.write p.content) ?_)
      fun _ h => sends_writeTarget h p.content
    rw [fileRequest, hmeth, hp]
    rfl
  · rename_i hmeth
    refine ready_answer fun p hp => ready_onTarget (hpath p.path .delete ?_)
      fun _ => sends_deleteTarget
    rw [fileRequest, hmeth, hp]
    rfl
  · exact ready_answer fun p _ => ready_handleCreateProject p
  · exact ready_answer fun p _ => ready_handleSnapshot req.now p
  · exact ready_answer fun p _ => ready_handleSearch p
  · exact ready_answer fun p _ => ready_handleSetDefault p
  · trivial

end Ready

/-! ## Spellings -/

section Alike

variable {user target target' : String}

/-- The same result but for the path, or errors. -/
def SameOutcome : Except WorkspaceError Json → Except WorkspaceError Json → Prop
  | .ok result, .ok result' => ∀ key, key ≠ "path" → result.index key = result'.index key
  | .error _, .error _ => True
  | _, _ => False

theorem alike_callKernel {method : String} {params params' : Json}
    {decode : Option Json → α} (h : SameRequest ⟨method, params⟩ ⟨method, params'⟩) :
    (callKernel method params decode).Alike user SameRequest Eq
      (callKernel method params' decode) := by
  refine ⟨h, fun reply => ?_⟩
  cases reply <;> rfl

variable (h : pieces target = pieces target')

include h

theorem sameRequest_one (method : String) :
    SameRequest ⟨method, .ofMembers [("path", .string target)]⟩
      ⟨method, .ofMembers [("path", .string target')]⟩ := by
  refine ⟨rfl, by rwa [requestPath_one, requestPath_one], ?_⟩
  simp [Json.index_ofMembers, lookup_cons]

theorem sameRequest_two (method content : String) :
    SameRequest ⟨method, .ofMembers [("path", .string target), ("content", .string content)]⟩
      ⟨method, .ofMembers [("path", .string target'), ("content", .string content)]⟩ := by
  refine ⟨rfl, by rwa [requestPath_two, requestPath_two], ?_⟩
  simp [Json.index_ofMembers]

theorem alike_readTarget :
    (readTarget target).Alike user SameRequest SameOutcome (readTarget target') := by
  refine alike_bind (alike_callKernel (sameRequest_one h _)) ?_
  rintro content _ rfl
  cases content with
  | error e => trivial
  | ok content => exact fun _ _ => rfl

theorem alike_writeTarget (content : String) :
    (writeTarget content target).Alike user SameRequest SameOutcome
      (writeTarget content target') := by
  refine alike_bind (alike_callKernel (sameRequest_one h _)) ?_
  rintro before _ rfl
  dsimp only
  split
  · trivial
  refine alike_bind (alike_callKernel (sameRequest_two h _ content)) ?_
  rintro written _ rfl
  cases written with
  | error e => trivial
  | ok n =>
    intro key hkey
    simp [Json.index_ofMembers, lookup_cons, beq_false_of_ne hkey]

theorem alike_deleteTarget :
    (deleteTarget target).Alike user SameRequest SameOutcome (deleteTarget target') := by
  refine alike_bind (alike_callKernel (sameRequest_one h _)) ?_
  rintro deleted _ rfl
  cases deleted with
  | error e => trivial
  | ok deleted =>
    intro key hkey
    simp [Json.index_ofMembers, lookup_cons, beq_false_of_ne hkey]

end Alike

/-- What is done with the path of a request on one file. -/
def FileOp.body : FileOp → String → Handler (Except WorkspaceError Json)
  | .read => readTarget
  | .write content => writeTarget content
  | .delete => deleteTarget

theorem FileOp.alike_body {target target' : String} (op : FileOp)
    (h : pieces target = pieces target') :
    (op.body target).Alike user SameRequest SameOutcome (op.body target') := by
  cases op with
  | read => exact alike_readTarget h
  | write content => exact alike_writeTarget h content
  | delete => exact alike_deleteTarget h

theorem handleRequest_of_fileRequest {op : FileOp} (h : fileRequest codec req = some (path, op)) :
    handleRequest codec req = answer (.ok ()) fun _ => onTarget path op.body := by
  unfold fileRequest at h
  split at h
  case h_4 => cases h
  all_goals
    rename_i hmeth
    obtain ⟨p, hp, heq⟩ := Option.map_eq_some_iff.mp h
    cases heq
    rw [handleRequest, hmeth, eq_ok_of_toOption hp]
    rfl

theorem alike_onTarget {path' : String} {op : FileOp} (hpath : PlainSpelling user path)
    (habs : startsWith path "/" = true) (hrel : startsWith path' "/" = false)
    (h : pieces path = pieces (workspaceRoot user ++ "/" ++ path')) :
    (onTarget path op.body).Alike user SameRequest SameOutcome (onTarget path' op.body) := by
  have hin : InWorkspace user path := by
    rw [InWorkspace, h]
    exact (inWorkspace_root user).join path'
  have htarg : targetPath (workspaceRoot user) path = .ok path := by
    rw [targetPath, if_pos habs, if_pos (hpath.begins hin)]
  have htarg' : targetPath (workspaceRoot user) path' =
      .ok (workspaceRoot user ++ "/" ++ path') := by
    rw [targetPath, hrel, if_neg Bool.false_ne_true]
  refine alike_root ?_
  rw [htarg, htarg']
  exact op.alike_body h

theorem treatedAlike {req' : Request} (h : SameFile codec req req')
    (hpath : ∀ path op, fileRequest codec req = some (path, op) → startsWith path "/" = true →
      PlainSpelling req.user path) :
    TreatedAlike codec req req' := by
  obtain ⟨path, path', op, hreq, hreq', habs, hrel, hpiec⟩ := h.spelling
  constructor
  rw [handleRequest_of_fileRequest hreq, handleRequest_of_fileRequest hreq']
  refine alike_bind (alike_onTarget (hpath path op hreq habs) habs hrel hpiec) ?_
  intro result result' hsame
  cases result with
  | error e =>
    cases result' with
    | error e' => rfl
    | ok _ => exact hsame.elim
  | ok _ =>
    cases result' with
    | error e' => exact hsame.elim
    | ok _ => exact hsame

/-! ## Runs -/

theorem guarded_start {s : Service} {events : List ServiceEvent}
    (h : Guarded (Service.step codec) (KeepsApart codec) s events) (hmem : .start req ∈ events) :
    ∀ path op, fileRequest codec req = some (path, op) → startsWith path "/" = true →
      PlainSpelling req.user path := by
  obtain ⟨before, after, rfl⟩ := append_of_mem hmem
  exact (guarded_append.mp h).2.1.2

theorem workspace_confined (codec : ParamsCodec) (events : List ServiceEvent)
    (h : Guarded (Service.step codec) (KeepsApart codec) .new events) :
    (∀ e ∈ (run (Service.step codec) .new events).sent, StaysIn e.1.user e.2) ∧
      ∀ req req', .start req ∈ events → .start req' ∈ events → SameFile codec req req' →
        TreatedAlike codec req req' := by
  have hnew : Pool.Inv Request.user (fun req => StaysIn req.user) Service.new :=
    ⟨nofun, nofun⟩
  have hstart : ∀ (s : Service) req, KeepsApart codec s (.start req) →
      Pool.Apart Request.user s req ∧ (handleRequest codec req).Ready req.user (StaysIn req.user) :=
    fun _ _ hguard => ⟨hguard.1, ready_handleRequest hguard.2⟩
  exact ⟨Pool.pool_sent hstart hnew h,
    fun _ _ hreq _ hsame => treatedAlike hsame (guarded_start h hreq)⟩

/-! ## Examples -/

namespace Desk

/-- A user reads a file. -/
def read (user path : String) : Request where
  method := "workspace.read"
  params := .ofMembers [("_caller", .ofMembers [("user", .string user)]), ("path", .string path)]
  now := "20260101-000000"

/-- Alice reads a file by both of its paths, and Bob one of his own in between. -/
def events : List ServiceEvent :=
  [.start (read "alice" "/users/alice/workspace/plan.md"), .step 0, .start (read "bob" "plan.md"),
    .step 1, .start (read "alice" "plan.md"), .step 2, .step 1, .step 0, .step 2]

theorem guarded_events : Guarded (Service.step .ofMembers) (KeepsApart .ofMembers) .new events := by
  have hrelative : ∀ {req : Request}, fileRequest .ofMembers req = some ("plan.md", .read) →
      ∀ path op, fileRequest .ofMembers req = some (path, op) → startsWith path "/" = true →
        PlainSpelling req.user path := by
    intro req hread path op hfile habs
    obtain ⟨rfl, -⟩ := Prod.mk.inj (Option.some.inj (hread.symm.trans hfile))
    exact absurd habs (by decide)
  refine ⟨⟨nofun, fun path op hfile _ => ?_⟩, trivial, ⟨?_, hrelative rfl⟩, trivial,
    ⟨?_, hrelative rfl⟩, trivial, trivial, trivial, trivial, trivial⟩
  · have hread : fileRequest .ofMembers (read "alice" "/users/alice/workspace/plan.md") =
        some ("/users/alice/workspace/plan.md", .read) := rfl
    obtain ⟨rfl, -⟩ := Prod.mk.inj (Option.some.inj (hread.symm.trans hfile))
    exact ⟨fun _ => Or.inr (by decide), fun _ => by decide⟩
  -- whoever was there before has read its user
  · rintro job hjob ⟨k, hk⟩
    obtain rfl := mem_singleton.mp hjob
    cases hk
  · rintro job hjob ⟨k, hk⟩
    rcases mem_pair.mp hjob with rfl | rfl <;> cases hk

end Desk

theorem workspace_confined_alice :
    (∀ e ∈ (run (Service.step .ofMembers) .new Desk.events).sent, StaysIn e.1.user e.2) ∧
      TreatedAlike .ofMembers (Desk.read "alice" "/users/alice/workspace/plan.md")
        (Desk.read "alice" "plan.md") := by
  have hsame : SameFile .ofMembers (Desk.read "alice" "/users/alice/workspace/plan.md")
      (Desk.read "alice" "plan.md") :=
    ⟨rfl, "/users/alice/workspace/plan.md", "plan.md", .read, rfl, rfl, by decide, by decide,
      by decide⟩
  have hfirst : .start (Desk.read "alice" "/users/alice/workspace/plan.md") ∈ Desk.events :=
    mem_cons_self
  have hsec : .start (Desk.read "alice" "plan.md") ∈ Desk.events :=
    mem_append_right (Desk.events.take 4) mem_cons_self
  obtain ⟨hsent, halike⟩ := workspace_confined .ofMembers Desk.events Desk.guarded_events
  exact ⟨hsent, halike _ _ hfirst hsec hsame⟩

/-- Alice leaves her workspace by a path that only begins like it; a request of Bob sends her into
    his; and a path of her file with two slashes is refused. -/
theorem outside_by_text_and_by_turn : (∃ q, (run (Service.step .ofMembers) .new
        [.start (Desk.read "alice" "/users/alice/workspace-old/plan.md"), .step 0, .step 0]).sent =
          [(Desk.read "alice" "/users/alice/workspace-old/plan.md", q)] ∧ ¬StaysIn "alice" q) ∧
    (∃ q, (run (Service.step .ofMembers) .new
        [.start (Desk.read "alice" "plan.md"), .start (Desk.read "bob" "plan.md"), .step 0,
          .step 0]).sent = [(Desk.read "alice" "plan.md", q)] ∧
        requestPath q = "/users/bob/workspace/plan.md" ∧ ¬StaysIn "alice" q) ∧
    SameFile .ofMembers (Desk.read "alice" "/users//alice/workspace/plan.md")
      (Desk.read "alice" "plan.md") ∧
    ¬TreatedAlike .ofMembers (Desk.read "alice" "/users//alice/workspace/plan.md")
      (Desk.read "alice" "plan.md") := by
  refine ⟨⟨_, rfl, fun h => ?_⟩, ⟨_, rfl, rfl, fun h => ?_⟩,
    ⟨rfl, "/users//alice/workspace/plan.md", "plan.md", .read, rfl, rfl, by decide, by decide,
      by decide⟩, fun ⟨h⟩ => h⟩
  · exact absurd (h ⟨"/users/alice/workspace-old/plan.md", by decide, by decide⟩ rfl) (by decide)
  · exact absurd (h ⟨"/users/bob/workspace/plan.md", by decide, by decide⟩ rfl) (by decide)

end Avix.Security
