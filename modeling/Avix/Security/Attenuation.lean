/-
  SECURITY — when a child agent holds no more than its parent.

  The README says that a child agent can never exceed its parent's permissions. `spawn` takes
  the tools of a child from the child's manifest and the tool registry alone; the parent's
  token is not read.

  `child_within_parent_iff`: the tools of a child stay within its parent's exactly when
  every tool that the child's manifest requests is one the parent has, or always present.
  Along a run of the kernel in which every spawn meets this condition, no agent holds a tool
  that one of its ancestors does not (`within_of_descends`), whatever happens to the registry
  and to the manifests in between. Pids are taken to be fresh, as `Pid::generate` documents.
-/
import Avix.Lib.Run
import Avix.Kernel.AgentManager

namespace Avix

open Lib KernelState Option

/-! ## Runs of the kernel -/

/-- A step of the kernel: a spawn, an abort, or a change of what grants are computed from. -/
inductive KernelEvent (D : Type) where
  | spawn (a : SpawnArgs) (env : SpawnEnv)
  | abort (pid : Pid) (storeFails : Bool)
  | setToolRegistry (reg : Option ToolRegistry)
  | setManifests (vfs : Option (VfsRouter D))

namespace KernelState

variable {D : Type}

def step (x : Externals D) (s : KernelState D) : KernelEvent D → KernelState D
  | .spawn a env => (s.spawn x a env).1
  | .abort pid storeFails => s.abortAgent pid storeFails
  | .setToolRegistry reg => { s with toolRegistry := reg }
  | .setManifests vfs => { s with manifestScanner := vfs }

end KernelState

namespace Security

variable {D : Type} (x : Externals D)

def Within (tools parentTools : List String) : Prop :=
  ∀ tool ∈ tools, tool ∈ parentTools ∨ tool ∈ alwaysPresent

/-- What the manifest of the agent to be spawned requests is among the parent's tools or
    always present. -/
def RequestsWithin (s : KernelState D) (a : SpawnArgs) (parentTools : List String) : Prop :=
  ∀ tool, s.Requests x a.name a.callerIdentity tool → tool ∈ parentTools ∨ tool ∈ alwaysPresent

theorem Within.trans {tools parentTools grandTools : List String} (h : Within tools parentTools)
    (h' : Within parentTools grandTools) : Within tools grandTools := by
  intro tool htool
  rcases h tool htool with hp | hp
  · exact h' tool hp
  · exact .inr hp

theorem within_iff_requestsWithin (s : KernelState D) (a : SpawnArgs) (env : SpawnEnv)
    (parentTools : List String) :
    Within (s.spawnedToken x a env).grantedTools parentTools ↔
      RequestsWithin x s a parentTools := by
  unfold Within RequestsWithin spawnedToken
  simp only [CapabilityToken.mint_grantedTools, mem_resolveGrantedTools]
  constructor
  · intro h tool htool
    exact h tool (.inr htool)
  · rintro h tool (htool | htool)
    · exact .inr htool
    · exact h tool htool

/-! ## Whole runs -/

/-- The spawn uses a fresh pid, and its parent, if it has one, is an agent whose tools cover
    the requests. -/
def SpawnsWithin (s : KernelState D) : KernelEvent D → Prop
  | .spawn a env => s.minted.lookup env.pid = none ∧
      ∀ p, a.parentPid = some p → ∃ tp, s.minted.lookup p = some tp ∧
        RequestsWithin x s a tp.grantedTools
  | _ => True

/-- Every agent has a token that is within its parent's. -/
def Attenuated (s : KernelState D) : Prop :=
  ∀ c entry, s.processTable.get c = some entry → ∃ tc, s.minted.lookup c = some tc ∧
    ∀ p, entry.parent = some p → ∃ tp, s.minted.lookup p = some tp ∧
      Within tc.grantedTools tp.grantedTools

variable {s : KernelState D} {cap name : String}

theorem attenuated_spawn (h : Attenuated s) {a : SpawnArgs} {env : SpawnEnv}
    (hfresh : s.minted.lookup env.pid = none)
    (hwith : ∀ p, a.parentPid = some p →
      ∃ tp, s.minted.lookup p = some tp ∧ RequestsWithin x s a tp.grantedTools) :
    Attenuated (s.spawn x a env).1 := by
  rcases hspawn : s.spawn x a env with ⟨s', result⟩
  cases result with
  | error e => exact spawn_eq_error hspawn ▸ h
  | ok c =>
    obtain ⟨-, hs⟩ := spawn_eq_ok hspawn
    -- a token that is there already is not replaced
    have hkeep : ∀ q tq, s.minted.lookup q = some tq → s'.minted.lookup q = some tq := by
      intro q tq hq
      have hne : q ≠ env.pid := by
        rintro rfl
        rw [hfresh] at hq
        cases hq
      rw [hs.minted, AList.lookup_insert_ne hne, hq]
    intro c' entry hentry
    rw [hs.entry] at hentry
    split_ifs at hentry with hc
    · cases hentry
      refine ⟨s.spawnedToken x a env, by rw [hc, hs.minted, AList.lookup_insert], ?_⟩
      intro p hpar
      obtain ⟨tp, htp, hreq⟩ := hwith p hpar
      exact ⟨tp, hkeep p tp htp, (within_iff_requestsWithin x s a env _).mpr hreq⟩
    · obtain ⟨tc, htc, hin⟩ := h c' entry hentry
      refine ⟨tc, hkeep c' tc htc, fun p hpar => ?_⟩
      obtain ⟨tp, htp, hw⟩ := hin p hpar
      exact ⟨tp, hkeep p tp htp, hw⟩

theorem attenuated_abort (h : Attenuated s) (pid : Pid) (storeFails : Bool) :
    Attenuated (s.abortAgent pid storeFails) := by
  intro c entry hentry
  rw [abortAgent_minted]
  rw [abortAgent_get] at hentry
  have hold : ∃ old, s.processTable.get c = some old ∧ old.parent = entry.parent := by
    split_ifs at hentry
    · obtain ⟨old, hold, rfl⟩ := map_eq_some_iff.mp hentry
      exact ⟨old, hold, rfl⟩
    · exact ⟨entry, hentry, rfl⟩
  obtain ⟨old, hold, hpar⟩ := hold
  rw [← hpar]
  exact h c old hold

theorem attenuated_step (s : KernelState D) (e : KernelEvent D) (h : Attenuated s)
    (hg : SpawnsWithin x s e) : Attenuated (s.step x e) := by
  cases e with
  | spawn a env => exact attenuated_spawn x h hg.1 hg.2
  | abort pid storeFails => exact attenuated_abort h pid storeFails
  | _ => exact h

/-- `p` is the parent, or a parent's parent and so on, of `c`. -/
def Descends (s : KernelState D) : Pid → Pid → Prop :=
  Relation.TransGen fun p c => ∃ entry, s.processTable.get c = some entry ∧ entry.parent = some p

theorem within_of_descends (h : Attenuated s) {p c : Pid} (hd : Descends s p c)
    {tp : CapabilityToken} (hp : s.minted.lookup p = some tp) :
    ∃ tc, s.minted.lookup c = some tc ∧ Within tc.grantedTools tp.grantedTools := by
  induction hd with
  | single hchild =>
    obtain ⟨entry, hentry, hpar⟩ := hchild
    obtain ⟨tc, htc, hin⟩ := h _ entry hentry
    obtain ⟨tp', htp', hwith⟩ := hin p hpar
    rw [hp] at htp'
    obtain rfl := some.inj htp'
    exact ⟨tc, htc, hwith⟩
  | tail hd hchild ih =>
    obtain ⟨tq, htq, hq⟩ := ih
    obtain ⟨entry, hentry, hpar⟩ := hchild
    obtain ⟨tc, htc, hin⟩ := h _ entry hentry
    obtain ⟨tq', htq', hwith⟩ := hin _ hpar
    rw [htq] at htq'
    obtain rfl := some.inj htq'
    exact ⟨tc, htc, hwith.trans hq⟩

/-- A kernel without agents. -/
def Booted (s : KernelState D) : Prop := s.processTable = ∅

theorem attenuated_of_booted (h : Booted s) : Attenuated s := by
  intro c entry hentry
  rw [Booted] at h
  rw [h] at hentry
  cases hentry

theorem child_within_parent_iff :
    (∀ (s s' : KernelState D) (a : SpawnArgs) (env : SpawnEnv) (p c : Pid) (tp : CapabilityToken),
      a.parentPid = some p → s.minted.lookup p = some tp → s.spawn x a env = (s', .ok c) →
        ((∃ tc, s'.minted.lookup c = some tc ∧ Within tc.grantedTools tp.grantedTools) ↔
          RequestsWithin x s a tp.grantedTools)) ∧
    ∀ (s : KernelState D) (es : List (KernelEvent D)), Booted s →
      Guarded (KernelState.step x) (SpawnsWithin x) s es →
      ∀ (p c : Pid) (tp : CapabilityToken),
        (run (KernelState.step x) s es).minted.lookup p = some tp →
        Descends (run (KernelState.step x) s es) p c →
        ∃ tc, (run (KernelState.step x) s es).minted.lookup c = some tc ∧
          Within tc.grantedTools tp.grantedTools := by
  constructor
  · intro s s' a env p c tp _ _ hspawn
    obtain ⟨rfl, hs⟩ := KernelState.spawn_eq_ok hspawn
    rw [hs.minted, AList.lookup_insert, ← within_iff_requestsWithin x s a env]
    simp
  · intro s es hboot hguard p c tp hp hd
    have hfinal : Attenuated (run (KernelState.step x) s es) :=
      guarded_invariant (attenuated_step x) (attenuated_of_booted hboot) hguard
    exact within_of_descends hfinal hd hp

/-! ## Three installed agents -/

/-- The agents of the example and the capability group each requests. -/
def installedAgents : List (String × String) :=
  [("lead", "net:*"), ("clerk", "net:fetch"), ("helper", "db:*")]

def manifestText (name cap : String) : String :=
  "apiVersion: avix/v1\nkind: Agent\nmetadata:\n  name: " ++ name ++ "\n  version: 1.0.0\n" ++
    "spec:\n  requestedCapabilities: [\"" ++ cap ++ "\"]\n"

def officeKey : Bytes := utf8 "test-master-key-32-bytes-padded!"

/-- HMAC-SHA256 under `officeKey` of the payloads of the agents' tokens. -/
def officeMac : Hmac := fun _ payload =>
  if payload = utf8 "0|3600|cap/escalate,cap/list,cap/request-tool,job/watch,net/fetch" then
    [245, 152, 24, 195, 183, 222, 122, 69, 73, 109, 254, 23, 37, 213, 61, 149,
     130, 172, 244, 94, 81, 142, 213, 111, 160, 16, 209, 202, 245, 169, 36, 173]
  else
    [154, 243, 32, 90, 220, 109, 138, 7, 223, 203, 175, 251, 212, 220, 60, 35,
     69, 32, 244, 222, 149, 22, 189, 208, 180, 151, 238, 234, 60, 233, 213, 1]

def officeExternals : Externals Unit where
  hmac := officeMac
  parseUuid := .ok
  parseManifest text :=
    (installedAgents.find? fun a => manifestText a.1 a.2 = text).map fun a => ⟨"Agent", a.1, [a.2]⟩
  fileSystem := .noDisk
  yamlOfNames _ := ""

/-- The manifests under `/bin`. -/
def officeVfs : VfsRouter Unit where
  mounts := []
  memMounts := []
  toolRegistry := none
  caller := none
  default := installedAgents.foldl (fun fs a =>
    AList.insert ("/bin/" ++ a.1 ++ "@1.0.0/manifest.yaml") (utf8 (manifestText a.1 a.2)) fs) ∅
  disk := ()

/-- The tools `db/query` and `net/fetch`. -/
def officeTools : ToolRegistry := ToolRegistry.add ∅ [
  { name := ⟨"db/query", by decide, by decide⟩, owner := "db", state := .available },
  { name := ⟨"net/fetch", by decide, by decide⟩, owner := "net", state := .available }]

/-- A kernel without agents. -/
def officeKernel : KernelState Unit where
  processTable := ∅
  masterKey := officeKey
  hasFactory := true
  tasks := ∅
  invocationStore := none
  sessionStore := none
  manifestScanner := some officeVfs
  activeInvocations := ∅
  activeSessions := ∅
  toolRegistry := some officeTools
  minted := ∅

def spawnOf (name : String) (parentPid : Option Pid) : SpawnArgs :=
  { name, goal := "", sessionId := "", atpSessionId := "", callerIdentity := "alice", parentPid }

def envOf (pid : Pid) : SpawnEnv :=
  { now := ⟨0⟩, pid, sessionUuid := "67e55044-10b1-426f-9247-bb680e5fe0c8"
    invocationUuid := "3f2504e0-4f89-11d3-9a0c-0305e82c3301", storeFails := fun _ => false }

/-- The kernel after the agent `lead` has been spawned as pid 1. -/
def leadKernel : KernelState Unit :=
  officeKernel.step officeExternals (.spawn (spawnOf "lead" none) (envOf 1))

def officeEntries : List String := ["helper@1.0.0", "clerk@1.0.0", "lead@1.0.0"]

theorem officeVfs_list :
    vfsList officeExternals officeVfs ⟨"/bin", by decide, by decide⟩ = .ok officeEntries := by
  rfl

/-- The manifest found for an agent, from its only entry under `/bin`. -/
theorem officeVfs_manifest {path : VfsPath}
    (hentry : officeEntries.filter (fun e => ! startsWith e "." && startsWith e (name ++ "@")) =
      [name ++ "@1.0.0"])
    (hpath : VfsPath.parse ("/bin" ++ "/" ++ (name ++ "@1.0.0") ++ "/manifest.yaml") = .ok path)
    (hread : vfsRead officeExternals officeVfs path = .ok (utf8 (manifestText name cap)))
    (hparse : officeExternals.parseManifest (manifestText name cap) = some ⟨"Agent", name, [cap]⟩) :
    getManifest officeExternals officeVfs name "alice" = some ⟨"Agent", name, [cap]⟩ := by
  have hload : loadManifest officeExternals officeVfs "/bin" name (name ++ "@1.0.0") =
      some ⟨"Agent", name, [cap]⟩ := by
    rw [loadManifest_of_read officeExternals officeVfs hpath hread, hparse]
    simp [Option.filter]
  have hdir : VfsPath.parse "/bin" = .ok ⟨"/bin", by decide, by decide⟩ := rfl
  unfold getManifest getManifestFromDir
  simp [hdir, officeVfs_list, Except.toOption, hentry, hload]

/-- The tools granted for one capability group of the manifest. -/
theorem office_tools {s : KernelState Unit} (hvfs : s.manifestScanner = some officeVfs)
    (hreg : s.toolRegistry = some officeTools)
    (h : getManifest officeExternals officeVfs name "alice" = some ⟨"Agent", name, [cap]⟩) :
    s.resolveGrantedTools officeExternals name "alice" = resolveCapabilities officeTools [cap] := by
  simp [resolveGrantedTools, hvfs, hreg, h]

theorem lead_manifest :
    getManifest officeExternals officeVfs "lead" "alice" = some ⟨"Agent", "lead", ["net:*"]⟩ :=
  officeVfs_manifest (by decide) rfl rfl (by decide)

theorem clerk_manifest : getManifest officeExternals officeVfs "clerk" "alice" =
    some ⟨"Agent", "clerk", ["net:fetch"]⟩ :=
  officeVfs_manifest (by decide) rfl rfl (by decide)

theorem helper_manifest :
    getManifest officeExternals officeVfs "helper" "alice" = some ⟨"Agent", "helper", ["db:*"]⟩ :=
  officeVfs_manifest (by decide) rfl rfl (by decide)

theorem lead_spawned :
    officeKernel.spawn officeExternals (spawnOf "lead" none) (envOf 1) = (leadKernel, .ok 1) :=
  Prod.ext rfl rfl

/-- What `leadKernel` grants for a manifest with one capability group. -/
theorem leadKernel_tools
    (h : getManifest officeExternals officeVfs name "alice" = some ⟨"Agent", name, [cap]⟩) :
    leadKernel.resolveGrantedTools officeExternals name "alice" =
      resolveCapabilities officeTools [cap] := by
  obtain ⟨-, hs⟩ := spawn_eq_ok lead_spawned
  exact office_tools hs.scanner hs.registry h

/-- The token of `lead`. -/
def leadToken : CapabilityToken :=
  officeKernel.spawnedToken officeExternals (spawnOf "lead" none) (envOf 1)

theorem lead_minted : leadKernel.minted.lookup 1 = some leadToken := by
  obtain ⟨-, hs⟩ := spawn_eq_ok lead_spawned
  rw [hs.minted]
  exact AList.lookup_insert _

theorem leadToken_tools : leadToken.grantedTools = resolveCapabilities officeTools ["net:*"] := by
  rw [leadToken, spawnedToken, CapabilityToken.mint_grantedTools]
  exact office_tools rfl rfl lead_manifest

/-- `clerk` requests only what `lead` holds. -/
theorem clerk_within_lead :
    RequestsWithin officeExternals leadKernel (spawnOf "clerk" (some 1))
      leadToken.grantedTools := by
  intro tool htool
  have hmem : tool ∈ leadKernel.resolveGrantedTools officeExternals "clerk" "alice" :=
    (mem_resolveGrantedTools officeExternals leadKernel).mpr (.inr htool)
  rw [leadKernel_tools clerk_manifest, show resolveCapabilities officeTools ["net:fetch"] =
    resolveCapabilities officeTools ["net:*"] by decide] at hmem
  rw [leadToken_tools]
  exact .inl hmem

/-- `lead` spawns `clerk`, whose only request `net/fetch` is among the tools of `lead`. -/
theorem child_within_parent_iff_clerk :
    ∃ tc,
      (leadKernel.spawn officeExternals (spawnOf "clerk" (some 1)) (envOf 2)).1.minted.lookup 2 =
        some tc ∧ Within tc.grantedTools leadToken.grantedTools :=
  ((child_within_parent_iff officeExternals).1 leadKernel _ (spawnOf "clerk" (some 1)) (envOf 2) 1 2
    leadToken rfl lead_minted (Prod.ext rfl rfl)).mpr clerk_within_lead

/-- The kernel after `lead` has spawned `helper` as pid 2. -/
def helperKernel : KernelState Unit :=
  leadKernel.step officeExternals (.spawn (spawnOf "helper" (some 1)) (envOf 2))

theorem helper_spawned : leadKernel.spawn officeExternals (spawnOf "helper" (some 1)) (envOf 2) =
    (helperKernel, .ok 2) :=
  Prod.ext rfl rfl

set_option maxRecDepth 2000 in
/-- `lead` spawns `helper`, which is granted `db/query` although `lead` is not. -/
theorem helper_exceeds_lead :
    (leadKernel.spawn officeExternals (spawnOf "helper" (some 1)) (envOf 2)).2 = .ok 2 ∧
      ∃ tp tc, helperKernel.minted.lookup 1 = some tp ∧ helperKernel.minted.lookup 2 = some tc ∧
        "db/query" ∈ tc.grantedTools ∧ "db/query" ∉ tp.grantedTools ∧
        "db/query" ∉ alwaysPresent := by
  obtain ⟨-, hs⟩ := KernelState.spawn_eq_ok helper_spawned
  have htools : (leadKernel.spawnedToken officeExternals (spawnOf "helper" (some 1))
      (envOf 2)).grantedTools = resolveCapabilities officeTools ["db:*"] :=
    leadKernel_tools helper_manifest
  refine ⟨by rw [helper_spawned], leadToken,
    leadKernel.spawnedToken officeExternals (spawnOf "helper" (some 1)) (envOf 2),
    ?_, ?_, ?_, ?_, ?_⟩
  · rw [hs.minted, AList.lookup_insert_ne (by decide), lead_minted]
  · rw [hs.minted]
    exact AList.lookup_insert _
  · rw [htools]
    decide
  · rw [leadToken_tools]
    decide
  · decide

end Security

end Avix
