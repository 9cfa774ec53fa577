/-
  SECURITY — the veto on `/secrets` and `/proc` at the gateway.

  `fs_veto_iff`: for a file system command that is accepted and forwarded to the kernel,
  the following are equivalent:
  * the path the kernel resolves it to is not `/secrets` or below it for a read, list, stat or
    write, and is not `/proc` or below it for a write or delete;
  * it is not a list of `/secrets` or below, not a read, stat or write of `/secrets` itself, and
    not a write of `/proc` itself.

  The gateway compares the beginning of the path with `/secrets/` and `/proc/`, so the
  directories themselves pass, and no check covers `list`. A list of `/secrets/alice` reaches the
  kernel (`list_of_secrets_forwarded`).

  Spelling does not matter otherwise: no mount point of the kernel is the root (`KernelVfs`), so two
  paths it identifies lie in the same top-level directory.
-/
import Avix.Gateway.Handlers
import Avix.Memfs.Router

namespace Avix.Security

open Lib List

/-! ## The file system of the kernel -/

/-- A router without a provider at the root. -/
structure KernelVfs (D : Type) where
  router : VfsRouter D
  rooted : ∀ m ∈ router.mounts, m.1 ≠ ""

/-- The mounts of `phase2::mount_persistent_trees`. -/
def persistentTrees (root : String) : List (String × LocalProvider) :=
  [("/etc/avix", ⟨root ++ "/etc"⟩), ("/users", ⟨root ++ "/data/users"⟩),
    ("/crews", ⟨root ++ "/data/crews"⟩), ("/services", ⟨root ++ "/data/services"⟩),
    ("/bin", ⟨root ++ "/data/bin"⟩)]

section Boot

variable {D : Type}

def mountAll (r : VfsRouter D) (trees : List (String × LocalProvider)) : VfsRouter D :=
  trees.foldl (fun r tree => r.mount tree.1 tree.2) r

variable {r : VfsRouter D}

theorem mount_rooted {mountPoint : String} (provider : LocalProvider) (h : ∀ m ∈ r.mounts, m.1 ≠ "")
    (hpoint : trimEnd '/' mountPoint ≠ "") :
    ∀ m ∈ (r.mount mountPoint provider).mounts, m.1 ≠ "" := by
  intro m hm
  have hmem := (perm_insertionSort _ _).mem_iff.mp hm
  rcases mem_append.mp hmem with hold | hnew
  · exact h m (mem_of_mem_filter hold)
  · rw [mem_singleton.mp hnew]
    exact hpoint

theorem mountAll_rooted {trees : List (String × LocalProvider)} (h : ∀ m ∈ r.mounts, m.1 ≠ "")
    (htrees : ∀ tree ∈ trees, trimEnd '/' tree.1 ≠ "") :
    ∀ m ∈ (mountAll r trees).mounts, m.1 ≠ "" := by
  induction trees generalizing r with
  | nil => exact h
  | cons tree trees ih =>
    have hmount := mount_rooted tree.2 h (htrees tree mem_cons_self)
    exact ih hmount fun t ht => htrees t (mem_cons_of_mem _ ht)

theorem persistentTrees_rooted (root : String) :
    ∀ tree ∈ persistentTrees root, trimEnd '/' tree.1 ≠ "" := by
  simp only [persistentTrees, forall_mem_cons, not_mem_nil, false_imp_iff, implies_true, and_true]
  decide

theorem mountMemfs_mounts (r : VfsRouter D) (mountPoint : String) (fs : MemFs) :
    (r.mountMemfs mountPoint fs).mounts = r.mounts := rfl

/-- The router before any mount. -/
def unmountedRouter (disk : D) : VfsRouter D := ⟨[], [], none, none, ∅, disk⟩

/-- The router after boot, with the tools in memory. -/
def KernelVfs.boot (root : String) (tools : MemFs) (disk : D) : KernelVfs D where
  router := (mountAll (unmountedRouter disk) (persistentTrees root)).mountMemfs "/tools" tools
  rooted := by
    rw [mountMemfs_mounts]
    exact mountAll_rooted (nofun) (persistentTrees_rooted root)

end Boot

/-- Where the router serves a path: below the mount point, without the slashes that `route`
    trims, or at the path itself. -/
def resolve {D : Type} (r : VfsRouter D) (path : String) : String :=
  match r.mounts.find? fun m => mountMatches m.1 path with
  | some m => m.1 ++ "/" ++ trimStart '/' (dropPrefix path m.1)
  | none => path

def requestedPath (params : Json) : Option VfsPath :=
  (params.index "path").asStr.bind fun s => (VfsPath.parse s).toOption

/-! ## Statement -/

/-- The operation may touch this path. -/
def Permitted (op path : String) : Prop :=
  (op ∈ ["read", "list", "stat", "write"] → mountMatches "/secrets" path = false) ∧
    (op ∈ ["write", "delete"] → mountMatches "/proc" path = false)

/-- The commands the veto lets through. -/
def SlipsThrough (op path : String) : Prop :=
  (op = "list" ∧ mountMatches "/secrets" path = true) ∨
    (op ∈ ["read", "stat", "write"] ∧ path = "/secrets") ∨ (op = "write" ∧ path = "/proc")

/-! ## Paths -/

variable {op path : String}

/-- Past the comparison of beginnings only the directory itself matches. -/
theorem mountMatches_of_not_startsWith {m : String} (h : startsWith path (m ++ "/") = false) :
    mountMatches m path = decide (path = m) := by
  rw [mountMatches, h, Bool.or_false]

/-- The router keeps a path in its top-level directory. -/
theorem resolve_matches {D : Type} (vfs : KernelVfs D) {name : List Char} (hname : '/' ∉ name)
    (path : String) :
    mountMatches (String.ofList ('/' :: name)) (resolve vfs.router path) =
      mountMatches (String.ofList ('/' :: name)) path := by
  rw [Bool.eq_iff_iff, mountMatches_iff, mountMatches_iff, String.toList_ofList]
  unfold resolve
  cases hfind : vfs.router.mounts.find? fun m => mountMatches m.1 path with
  | none => exact Iff.rfl
  | some m =>
    have hm : m.1.toList ≠ [] := fun hnil =>
      vfs.rooted m (mem_of_find?_eq_some hfind) (String.toList_eq_nil_iff.mp hnil)
    have hpath : InTree '/' m.1.toList path.toList := by
      have := find?_some hfind
      exact mountMatches_iff.mp this
    refine inTree_top_iff hname hm ?_ hpath
    simp [InTree]

/-! ## What the gateway checks -/

section Checks

variable {codec : TokenCodec} {store : ATPTokenStore} {now : DateTime} {cmd : AtpCmd}
  {boundSessionId : String} {isAdminPort : Bool} {claims : ATPTokenClaims}

theorem path_of_requestedPath {path : VfsPath} (h : requestedPath cmd.body = some path) :
    cmd.path = path.asStr ∧ (cmd.body.index "path").asStr = some path.asStr := by
  unfold requestedPath at h
  obtain ⟨s, hs, hparse⟩ := Option.bind_eq_some_iff.mp h
  have hasStr : path.asStr = s := by
    cases hp : VfsPath.parse s with
    | error e =>
      rw [hp] at hparse
      cases hparse
    | ok path' =>
      rw [hp] at hparse
      cases hparse
      exact VfsPath.asStr_of_parse hp
  rw [AtpCmd.path, hs, hasStr]
  exact ⟨rfl, rfl⟩

/-- A write has been compared with both beginnings. -/
theorem not_startsWith_of_write
    (h : Accepted codec store now cmd boundSessionId isAdminPort claims) (hfs : cmd.domain = .fs)
    (hop : cmd.op = "write") :
    startsWith cmd.path "/secrets/" = false ∧ startsWith cmd.path "/proc/" = false := by
  have hveto := h.veto
  rw [AtpCmd.checkVeto, if_pos hfs, checkFsHardVeto, if_neg (not_not.mpr hop),
    refuseIf_eq_ok_iff, not_or] at hveto
  exact ⟨Bool.eq_false_of_not_eq_true hveto.1, Bool.eq_false_of_not_eq_true hveto.2⟩

/-- A read or stat has been compared with `/secrets/`. -/
theorem not_startsWith_of_read {op path : String} {body : Json}
    (h : readsSecrets op body = false) (hop : op ∈ ["read", "stat"])
    (hpath : (body.index "path").asStr = some path) : startsWith path "/secrets/" = false := by
  have hmem : op ∈ ["read", "stat", "watch"] := by
    simp only [mem_cons, not_mem_nil, or_false] at hop ⊢
    tauto
  rw [readsSecrets, hpath, decide_eq_true hmem, Bool.true_and] at h
  exact h

end Checks

/-! ## Main statement -/

/-- An accepted and forwarded command on one path. -/
theorem permitted_iff (hread : op ∈ ["read", "stat"] → startsWith path "/secrets/" = false)
    (hwrite : op = "write" → startsWith path "/secrets/" = false ∧ startsWith path "/proc/" = false)
    (hdel : op ≠ "delete") : Permitted op path ↔ ¬SlipsThrough op path := by
  unfold Permitted SlipsThrough
  by_cases hop : op = "write"
  · subst hop
    obtain ⟨hsecr, hproc⟩ := hwrite rfl
    have hs : mountMatches "/secrets" path = decide (path = "/secrets") :=
      mountMatches_of_not_startsWith hsecr
    have hp : mountMatches "/proc" path = decide (path = "/proc") :=
      mountMatches_of_not_startsWith hproc
    simp [hs, hp]
  · by_cases hrs : op ∈ ["read", "stat"]
    · have hs : mountMatches "/secrets" path = decide (path = "/secrets") :=
        mountMatches_of_not_startsWith (hread hrs)
      rw [hs]
      rcases mem_pair.mp hrs with rfl | rfl <;> simp
    · simp only [mem_cons, not_mem_nil, or_false, not_or] at hrs
      simp [hop, hrs.1, hrs.2, hdel]

theorem fs_veto_iff {D : Type} (vfs : KernelVfs D) (codec : TokenCodec) (store : ATPTokenStore)
    (seen seen' : ReplayGuard) (now : DateTime) (cmd : AtpCmd) (boundSessionId : String)
    (isAdminPort : Bool) (v : ValidatedCmd) (method : String) (params : Json)
    (hfs : cmd.domain = .fs)
    (haccept : validateCmd codec store seen now cmd boundSessionId isAdminPort = (seen', .ok v))
    (hforward : fsRoute v = .ok (method, params)) :
    (∀ path, requestedPath params = some path → Permitted cmd.op (resolve vfs.router path.asStr)) ↔
      ∀ path, requestedPath params = some path → ¬SlipsThrough cmd.op path.asStr := by
  obtain ⟨claims, hacc, -, rfl⟩ := validateCmd_eq_ok haccept
  obtain ⟨hban, hop, -, rfl⟩ := fsRoute_eq_ok_iff.mp hforward
  refine forall_congr' fun path => forall_congr' fun hpath => ?_
  obtain ⟨hcmd, hbody⟩ := path_of_requestedPath hpath
  have hsecr : mountMatches "/secrets" (resolve vfs.router path.asStr) =
      mountMatches "/secrets" path.asStr := resolve_matches vfs (by decide) path.asStr
  have hproc : mountMatches "/proc" (resolve vfs.router path.asStr) =
      mountMatches "/proc" path.asStr := resolve_matches vfs (by decide) path.asStr
  have hres : Permitted cmd.op (resolve vfs.router path.asStr) ↔ Permitted cmd.op path.asStr := by
    unfold Permitted
    rw [hsecr, hproc]
  rw [hres]
  refine permitted_iff (fun hrs => not_startsWith_of_read hban hrs hbody) (fun hw => ?_) ?_
  · rw [← hcmd]
    exact not_startsWith_of_write hacc hfs hw
  · rintro hdel
    rw [hdel] at hop
    exact absurd hop (by decide)

/-! ## A list of the secrets -/

def guestClaims : ATPTokenClaims where
  sub := "bob"
  uid := 1002
  role := .guest
  crews := []
  sessionId := "s-1"
  iat := ⟨0⟩
  exp := ⟨0⟩
  scope := ["fs"]

noncomputable def guestStore : ATPTokenStore := ⟨"secret", ∅⟩

/-- A codec with any message authentication. -/
noncomputable def guestCodec : TokenCodec := .plain fun _ _ => []

/-- A command of the guest, on the path given. -/
noncomputable def guestCmd (op path : String) : AtpCmd where
  id := "c-1"
  token := guestStore.issue guestCodec guestClaims
  domain := .fs
  op := op
  body := .ofMembers [("path", .string path)]

def guestVfs : KernelVfs Unit := .boot "/var/avix" ∅ ()

/-- What becomes of such a command if it is let through. -/
noncomputable def guestCmdValidated (op path : String) : ValidatedCmd :=
  ⟨guestCmd op path, "bob", .guest, "s-1"⟩

theorem guestCmd_accepted (hop : op ∈ ["read", "list", "stat"]) :
    validateCmd guestCodec guestStore ∅ ⟨0⟩ (guestCmd op path) "s-1" false =
      (insert "c-1" ∅, .ok (guestCmdValidated op path)) := by
  have htoken : guestStore.validate guestCodec (guestCmd op path).token ⟨0⟩ = .ok guestClaims :=
    ATPTokenStore.validate_eq_ok_iff.mpr
      ⟨ATPToken.validate_issue_eq_ok_iff.mpr ⟨rfl, rfl⟩, Finset.notMem_empty _⟩
  have hacc : Accepted guestCodec guestStore ⟨0⟩ (guestCmd op path) "s-1" false guestClaims := by
    refine ⟨htoken, rfl, ?_, rfl, ?_⟩
    · rw [show domainMinRole (guestCmd op path).domain (guestCmd op path).op = .guest from
        if_pos hop]
      decide
    · have hwrite : op ≠ "write" := by
        rintro rfl
        exact absurd hop (by decide)
      exact (if_pos rfl).trans (if_pos hwrite)
  exact validateCmd_of_accepted hacc (Finset.notMem_empty _)

/-- A read in the home of a user is let through and stays there. -/
theorem fs_veto_users : ∃ path,
    requestedPath (guestCmd "read" "/users/bob/notes").body = some path ∧
      Permitted "read" (resolve guestVfs.router path.asStr) := by
  have hslips : ∀ path, requestedPath (guestCmd "read" "/users/bob/notes").body = some path →
      ¬SlipsThrough "read" path.asStr := by
    intro path hpath
    obtain ⟨-, hbody⟩ := path_of_requestedPath hpath
    have hpath : path.asStr = "/users/bob/notes" := (Option.some.inj hbody).symm
    rw [hpath]
    unfold SlipsThrough
    decide
  refine ⟨⟨"/users/bob/notes", rfl, rfl⟩, rfl, ?_⟩
  exact (fs_veto_iff guestVfs guestCodec guestStore ∅ _ ⟨0⟩ (guestCmd "read" "/users/bob/notes")
    "s-1" false _ _ _ rfl (guestCmd_accepted (by decide)) rfl).mpr hslips _ rfl

/-- A guest's list of `/secrets/alice` is forwarded to the kernel. -/
theorem list_of_secrets_forwarded : ∃ seen v path,
    validateCmd guestCodec guestStore ∅ ⟨0⟩ (guestCmd "list" "/secrets/alice") "s-1" false =
        (seen, .ok v) ∧
      fsRoute v = .ok ("kernel/fs/list", (guestCmd "list" "/secrets/alice").body) ∧
      requestedPath (guestCmd "list" "/secrets/alice").body = some path ∧
      ¬Permitted "list" (resolve guestVfs.router path.asStr) := by
  refine ⟨_, _, ⟨"/secrets/alice", rfl, rfl⟩, guestCmd_accepted (by decide), rfl, rfl, ?_⟩
  intro h
  have hmatch := h.1 (by decide)
  revert hmatch
  decide

end Avix.Security
