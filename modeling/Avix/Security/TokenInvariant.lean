/-
  SECURITY — the token of a running executor.

  `token_invariant`: let the executor start with a token that verifies under the kernel
  key. Along every run of renewals, upgrades and restores whose steps are `KeepsToken`, its token
  verifies under that key, is issued to the same agent, and grants only tools of the first
  token or of a token that came with an approved upgrade.

  `KeepsToken` says, step by step:
  * a renewal that is due finds a resource handler that holds the kernel key. Without one,
    `maybe_renew_token` moves `expires_at` and leaves the old signature in place;
  * a token that comes with an approved upgrade verifies under the key and has the same
    `issued_to`. The executor installs any token that parses;
  * a restore finds no snapshot it can load. Every restore that succeeds installs
    `CapabilityToken::test_token`, which is unsigned and issued to nobody.
-/
import Avix.Executor.RuntimeExecutor
import Avix.Security.Attenuation

namespace Avix.Security

open Lib RuntimeExecutor CapabilityToken

section Invariant

variable {D : Type} (x : ExecutorExternals D) (key : Bytes)

/-- The step keeps a verified token verified and with its owner. -/
def KeepsToken (s : RuntimeExecutor) : TokenEvent D → Prop
  | .renew now _ _ => s.renewalDue now = true →
      ∃ handler, s.resourceHandler = some handler ∧ handler.hmacKey = key
  | .requestTool _ env => ∀ payload token, awaitResume env.hilId env.received = some payload →
      payload.approves → x.tokenOfJson (payload.index "new_capability_token") = some token →
      token.verifySignature x.hmac key = true ∧ token.issuedTo = s.token.issuedTo
  | .restore vfs snapshotName _ => ∀ file, s.loadSnapshot x vfs snapshotName ≠ .ok file

/-- The tools of the token that comes with the answer to an upgrade, if it is approved. -/
def upgradeTools : TokenEvent D → List String
  | .requestTool _ env =>
    match awaitResume env.hilId env.received with
    | some payload =>
      if payload.approves then
        ((x.tokenOfJson (payload.index "new_capability_token")).map (·.grantedTools)).getD []
      else []
    | none => []
  | _ => []

/-- The token verifies under the key, is issued to `who` and grants only `tools`. -/
structure Holds (who : Option IssuedTo) (tools : List String) (token : CapabilityToken) : Prop where
  verifies : token.verifySignature x.hmac key = true
  owner : token.issuedTo = who
  granted : ∀ tool ∈ token.grantedTools, tool ∈ tools

variable {x key} {who : Option IssuedTo} {tools : List String} {s : RuntimeExecutor}

theorem Holds.mono {tools' : List String} {token : CapabilityToken}
    (h : Holds x key who tools token) (hsub : ∀ tool ∈ tools, tool ∈ tools') :
    Holds x key who tools' token :=
  ⟨h.verifies, h.owner, fun tool htool => hsub tool (h.granted tool htool)⟩

section

variable (h : Holds x key who tools s.token)

include h

theorem holds_maybeRenewToken {now later : DateTime} {uuid : String}
    (hg : s.renewalDue now = true → ∃ handler, s.resourceHandler = some handler ∧
      handler.hmacKey = key) :
    Holds x key who tools (s.maybeRenewToken x now later uuid).token := by
  unfold maybeRenewToken
  by_cases hdue : s.renewalDue now = true
  · obtain ⟨handler, hhand, rfl⟩ := hg hdue
    have hnew : s.renewedToken x handler later uuid = _ := renewedToken_of_verifies h.verifies
    rw [if_pos hdue, hhand, Option.bind_some, hnew]
    exact ⟨verifySignature_mint _ _ _ _ _ _, h.owner, h.granted⟩
  · rw [if_neg hdue]
    exact h

theorem holds_tokenStep {e : TokenEvent D} (hg : KeepsToken x key s e) :
    Holds x key who (tools ++ upgradeTools x e) (s.tokenStep x e).token := by
  cases e with
  | renew now later uuid =>
    exact (holds_maybeRenewToken h hg).mono fun tool htool => List.mem_append_left _ htool
  | requestTool args env =>
    rcases upgraded_capRequestTool args env with htoken | ⟨payload, token, hpayl,
      happr, hnew, htoken⟩
    · rw [tokenStep, htoken]
      exact h.mono fun tool htool => List.mem_append_left _ htool
    obtain ⟨hver, howner⟩ := hg payload token hpayl happr hnew
    rw [tokenStep, htoken]
    refine ⟨hver, howner.trans h.owner, fun tool htool => List.mem_append_right _ ?_⟩
    rw [upgradeTools, hpayl]
    simpa [happr, hnew] using htool
  | restore vfs snapshotName now =>
    rw [tokenStep, restoreFromSnapshot_of_error hg]
    exact h.mono fun tool htool => List.mem_append_left _ htool

theorem holds_run {es : List (TokenEvent D)} (hg : Guarded (tokenStep x) (KeepsToken x key) s es) :
    Holds x key who (tools ++ es.flatMap (upgradeTools x)) (run (tokenStep x) s es).token := by
  induction es generalizing s tools with
  | nil => simpa using h
  | cons e es ih =>
    have := ih (holds_tokenStep h hg.1) hg.2
    rwa [List.append_assoc] at this

end

theorem token_invariant (s : RuntimeExecutor) (es : List (TokenEvent D))
    (hstart : s.token.verifySignature x.hmac key = true)
    (hsteps : Guarded (tokenStep x) (KeepsToken x key) s es) :
    (run (tokenStep x) s es).token.verifySignature x.hmac key = true ∧
      (run (tokenStep x) s es).token.issuedTo = s.token.issuedTo ∧
      ∀ tool ∈ (run (tokenStep x) s es).token.grantedTools,
        tool ∈ s.token.grantedTools ∨ tool ∈ es.flatMap (upgradeTools x) := by
  have hfirst : Holds x key s.token.issuedTo s.token.grantedTools s.token :=
    ⟨hstart, rfl, fun tool htool => htool⟩
  have hlast := holds_run hfirst hsteps
  exact ⟨hlast.verifies, hlast.owner,
    fun tool htool => List.mem_append.mp (hlast.granted tool htool)⟩

end Invariant

/-! ## An executor with a snapshot -/

def readerOwner : IssuedTo := ⟨1, "lead", "alice"⟩

/-- HMAC-SHA256 under `officeKey` of the payloads of the tokens below. -/
def readerMac : Hmac := fun _ payload =>
  if payload = utf8 "0|3600|fs/read" then
    [182, 10, 21, 147, 62, 253, 163, 135, 134, 233, 31, 250, 185, 115, 2, 192,
     227, 49, 101, 151, 120, 239, 212, 212, 17, 24, 105, 248, 206, 135, 92, 74]
  else
    [86, 72, 8, 95, 243, 136, 11, 143, 62, 207, 129, 226, 141, 96, 0, 163,
     169, 192, 222, 241, 230, 233, 188, 132, 81, 183, 43, 33, 112, 199, 76, 129]

/-- The text of an object whose values need no escapes. -/
def plainText : Json → String
  | .object members =>
    let field := fun m : String × Json => "\"" ++ m.1 ++ "\":" ++
      match m.2 with
      | .string s => "\"" ++ s ++ "\""
      | .int n => toString n
      | _ => "null"
    "\x7b" ++ ",".intercalate (members.map field) ++ "\x7d"
  | _ => "null"

/-- The snapshot `lead-20260101-0000` and its text, up to the checksum. -/
def snapshotText (checksum : String) : String :=
  "apiVersion: avix/v1\nkind: Snapshot\nmetadata:\n  name: lead-20260101-0000\n" ++
  "  agentName: lead\n  sourcePid: 1\n  capturedAt: 2026-01-01T00:00:00Z\n" ++
  "  capturedBy: kernel\n  trigger: manual\nspec:\n  goal: summarise\n" ++
  "  contextSummary: done\n  contextTokenCount: 1\n  memory:\n    episodicEvents: 0\n" ++
  "    semanticKeys: 0\n  pendingRequests: []\n  pipes: []\n  environment:\n" ++
  "    temperature: 0.7\n    capabilityToken: sha256:b21c4bdd200680571deef7165e9fffa0" ++
  "52e38bde515a987c559134be54e0bd42\n    grantedTools:\n    - fs/write\n  checksum: " ++
  checksum ++ "\n"

def snapshotFile (checksum : String) : SnapshotFile where
  apiVersion := "avix/v1"
  kind := "Snapshot"
  metadata :=
    { name := "lead-20260101-0000", agentName := "lead", sourcePid := 1
      capturedAt := ⟨1767225600000000000⟩, capturedBy := .kernel, trigger := .manual }
  spec :=
    { goal := "summarise", contextSummary := "done", contextTokenCount := 1, episodicEvents := 0
      semanticKeys := 0, pendingRequests := [], pipes := []
      environment :=
        { temperature := 7 / 10
          capabilityToken :=
            "sha256:b21c4bdd200680571deef7165e9fffa052e38bde515a987c559134be54e0bd42"
          grantedTools := ["fs/write"] }
      checksum }

/-- The checksum `capture` embeds. -/
def snapshotChecksum : String :=
  "sha256:74b209cb0525bfb3c5344cbf11f01c5bd6ae97faa3653926069635bef3cd9d4c"

/-- Externals that know the snapshot, with a given MAC. -/
def agentExternals (hmac : Hmac) : ExecutorExternals Unit :=
  { officeExternals with
    hmac
    tokenOfJson := fun _ => none
    jsonText := plainText
    parseSnapshot := fun text =>
      if text = snapshotText snapshotChecksum then .ok (snapshotFile snapshotChecksum)
      else .error "invalid YAML"
    snapshotYaml := fun file =>
      some (snapshotText (if file.spec.checksum = "" then "''" else file.spec.checksum))
    utf8Error := fun _ => "invalid utf-8 sequence"
    sha256 := fun _ =>
      [116, 178, 9, 203, 5, 37, 191, 179, 197, 52, 76, 191, 17, 240, 28, 91,
       214, 174, 151, 250, 163, 101, 57, 38, 6, 150, 53, 190, 243, 205, 157, 76] }

def readerExternals : ExecutorExternals Unit := agentExternals readerMac

/-- An executor as the factory builds it, with a token minted at 0 s. -/
def readerExecutor : RuntimeExecutor :=
  RuntimeExecutor.ofParams
    { pid := 1, agentName := "lead", goal := "", spawnedBy := "alice", sessionId := ""
      atpSessionId := "", invocationId := ""
      token := CapabilityToken.mint readerMac ⟨0⟩ ["fs/read"] (some readerOwner) 3600 officeKey }
    (.new officeKey)

/-- An approved upgrade whose answer carries no token. -/
def approvedUpgrade : UpgradeEnv where
  now := ⟨3400000000000⟩
  requestUuid := "67e55044-10b1-426f-9247-bb680e5fe0c8"
  hilId := "3f2504e0-4f89-11d3-9a0c-0305e82c3301"
  approvalToken := "9b2d7c1e-52a4-4b8f-8f0e-6a1c3d5e7f90"
  opened := .ok ()
  received := [⟨1, .resume, .ofMembers [("hilId", .string "3f2504e0-4f89-11d3-9a0c-0305e82c3301"),
    ("decision", .string "approved")]⟩]
  resolvedAt := "1970-01-01T00:56:40Z"

/-- A renewal 200 s before expiry, an approved upgrade, and a restore without a file system. -/
def readerEvents : List (TokenEvent Unit) :=
  [.renew ⟨3400000000000⟩ ⟨3400000000000⟩ "67e55044-10b1-426f-9247-bb680e5fe0c8",
    .requestTool (.ofMembers [("tool", .string "fs/write")]) approvedUpgrade,
    .restore none "lead-20260101-0000" ⟨3400000000000⟩]

theorem token_invariant_reader :
    (run (tokenStep readerExternals) readerExecutor readerEvents).token.verifySignature readerMac
        officeKey = true ∧
      (run (tokenStep readerExternals) readerExecutor readerEvents).token.issuedTo =
        some readerOwner ∧
      ∀ tool ∈ (run (tokenStep readerExternals) readerExecutor readerEvents).token.grantedTools,
        tool ∈ ["fs/read"] ∨ tool ∈ readerEvents.flatMap (upgradeTools readerExternals) := by
  refine token_invariant readerExecutor readerEvents
    (verifySignature_mint _ _ _ _ _ _) ⟨?_, ?_, ?_, trivial⟩
  · intro _
    exact ⟨.new officeKey, rfl, rfl⟩
  · intro payload token _ _ hnone
    cases hnone
  · intro file hfile
    cases hfile

/-- A file system with the snapshot in the home of `alice`. -/
def snapshotVfs : VfsRouter Unit :=
  { officeVfs with
    default := AList.singleton "/users/alice/snapshots/lead-20260101-0000.yaml"
      (utf8 (snapshotText snapshotChecksum)) }

theorem snapshot_parses : readerExternals.parseSnapshot (snapshotText snapshotChecksum) =
    .ok (snapshotFile snapshotChecksum) := by
  simp only [readerExternals, agentExternals, ↓reduceIte]

set_option maxRecDepth 2000 in
theorem snapshot_loads :
    readerExecutor.loadSnapshot readerExternals (some snapshotVfs) "lead-20260101-0000" =
      .ok (snapshotFile snapshotChecksum) :=
  loadSnapshot_of_read rfl rfl snapshot_parses rfl

/-- A restore replaces a minted token by one that is unsigned, issued to nobody and grants a
    tool the minted one did not. -/
theorem restored_token_unsigned : readerExecutor.token.verifySignature readerMac officeKey = true ∧
    ∃ s', (readerExecutor.restoreFromSnapshot readerExternals (some snapshotVfs)
        "lead-20260101-0000" ⟨0⟩).1 = s' ∧
      s'.token.verifySignature readerMac officeKey = false ∧
      readerExecutor.token.issuedTo = some readerOwner ∧ s'.token.issuedTo = none ∧
      "fs/write" ∈ s'.token.grantedTools ∧ "fs/write" ∉ readerExecutor.token.grantedTools := by
  refine ⟨verifySignature_mint _ _ _ _ _ _, _, rfl, ?_⟩
  rw [restoreFromSnapshot, snapshot_loads]
  exact ⟨verifySignature_testToken _ _ _ _, rfl, rfl, by decide, by decide⟩

end Avix.Security
