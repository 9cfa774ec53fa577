/-
  SECURITY — the checksum of a snapshot (`snapshot/capture.rs`, `snapshot/checksum.rs`).

  `capture` embeds the digest of the file's YAML with an empty checksum, `verify_checksum` computes
  it again. How `chrono` writes the time in the name is a parameter.

  `snapshot_integrity_iff`: if SHA-256 is injective and YAML round-trips, the captured file
  passes, before and after it is written and parsed, and no file that differs from one that passes
  in the checksum only, or in other fields only, passes, exactly if byte 200 of the last answer in
  the history is not inside a character.

  Reason. The summary is cut at byte 200, and `capture` panics inside a character
  (`capture_inside_character`). Two files that pass with one checksum have the same YAML.
-/
import Avix.Auth.AtpToken
import Avix.Memory.Previews
import Avix.Security.TokenInvariant

namespace Avix.Security

open Lib Option

structure CaptureParams where
  agentName : String
  pid : Pid
  goal : String
  messageHistory : List ConversationEntry
  temperature : ℚ
  grantedTools : List String
  trigger : SnapshotTrigger
  capturedBy : CapturedBy
  episodicEvents : UInt32
  semanticKeys : UInt32
  pendingRequests : List PendingRequest
  openPipes : List SnapshotPipe

/-- The same file with another checksum. -/
def withChecksum (file : SnapshotFile) (checksum : String) : SnapshotFile :=
  { file with spec := { file.spec with checksum } }

section Capture

variable {D : Type} (x : ExecutorExternals D)

def sha256Hex (data : Bytes) : String := String.ofList (hexEncode (x.sha256 data))

/-- `none`: the summary panics. -/
def capture (timeText : DateTime → String) (capturedAt : DateTime) (params : CaptureParams) :
    Option SnapshotFile := do
  let name := params.agentName ++ "-" ++ timeText capturedAt
  let contextChars := (params.messageHistory.map (·.content.utf8ByteSize)).sum
  let contextSummary ← buildContextSummary params.messageHistory
  let file : SnapshotFile :=
    { apiVersion := "avix/v1"
      kind := "Snapshot"
      metadata :=
        { name, capturedAt, agentName := params.agentName, sourcePid := params.pid
          capturedBy := params.capturedBy, trigger := params.trigger }
      spec :=
        { goal := params.goal, contextSummary
          contextTokenCount := .ofNat (max (contextChars / 4) 1)
          episodicEvents := params.episodicEvents, semanticKeys := params.semanticKeys
          pendingRequests := params.pendingRequests, pipes := params.openPipes
          environment :=
            { temperature := params.temperature
              capabilityToken := "sha256:" ++ sha256Hex x (utf8 (",".intercalate
                params.grantedTools))
              grantedTools := params.grantedTools }
          checksum := "" } }
  some (withChecksum file ("sha256:" ++ computeChecksum x file))

/-- Every file has a YAML text, which parses to the file. -/
def YamlRoundTrips : Prop :=
  ∀ file, ∃ text, x.snapshotYaml file = some text ∧ x.parseSnapshot text = .ok file

def Passes (file : SnapshotFile) : Prop := verifyChecksum x file = .ok ()

structure SnapshotIntegrity (timeText : DateTime → String) (now : DateTime)
    (params : CaptureParams) : Prop where
  captured : ∃ file, capture x timeText now params = some file ∧ Passes x file ∧
    ∃ text saved, x.snapshotYaml file = some text ∧ x.parseSnapshot text = .ok saved ∧
      Passes x saved
  field : ∀ f g, Passes x f → Passes x g → f.spec.checksum = g.spec.checksum → f = g
  checksum : ∀ f c, Passes x f → Passes x (withChecksum f c) → c = f.spec.checksum

variable {x} {f g : SnapshotFile} {c : String}

theorem computeChecksum_withChecksum : computeChecksum x (withChecksum f c) = computeChecksum x f :=
  rfl

theorem passes_iff : Passes x f ↔ f.spec.checksum = "sha256:" ++ computeChecksum x f := by
  rw [← stripStart_eq_some_iff, Passes, verifyChecksum, stripStart]
  dsimp only
  split_ifs <;> simp_all

theorem withChecksum_eq_of_computeChecksum_eq (hsha : Function.Injective x.sha256)
    (hyaml : YamlRoundTrips x) (h : computeChecksum x f = computeChecksum x g) :
    withChecksum f "" = withChecksum g "" := by
  obtain ⟨text, htext, hparse⟩ := hyaml (withChecksum f "")
  obtain ⟨text', htext', hparse'⟩ := hyaml (withChecksum g "")
  have hdata := hsha (hexEncode_injective (String.ofList_injective h))
  change utf8 ((x.snapshotYaml (withChecksum f "")).getD "") =
    utf8 ((x.snapshotYaml (withChecksum g "")).getD "") at hdata
  rw [htext, htext'] at hdata
  have hsame : text = text' := utf8_injective hdata
  rw [hsame, hparse'] at hparse
  exact (Except.ok.inj hparse).symm

theorem eq_of_withChecksum_eq (h : withChecksum f "" = withChecksum g "")
    (hc : f.spec.checksum = g.spec.checksum) : f = g := by
  have hback := congrArg (withChecksum · f.spec.checksum) h
  calc f = withChecksum (withChecksum g "") f.spec.checksum := hback
    _ = g := by rw [hc]; rfl

theorem captured_cases {timeText : DateTime → String} {now : DateTime} {params : CaptureParams}
    (h : capture x timeText now params = some f) :
    Passes x f ∧ ∃ s, buildContextSummary params.messageHistory = some s := by
  obtain ⟨summary, hsummary, hfile⟩ := bind_eq_some_iff.mp h
  refine ⟨?_, summary, hsummary⟩
  rw [← some.inj hfile, passes_iff, computeChecksum_withChecksum]
  rfl

theorem exists_buildContextSummary_iff {history : List ConversationEntry} :
    (∃ s, buildContextSummary history = some s) ↔
      ∀ e, lastAssistant history = some e → ¬Across 200 e.content.toList := by
  rw [← isSome_iff_exists, buildContextSummary]
  cases lastAssistant history with
  | none => simp
  | some entry => simp [preview, sliceBytes, ← String.utf8Len_toList, takeBytes_isSome_iff]

theorem snapshot_integrity_iff (hsha : Function.Injective x.sha256) (hyaml : YamlRoundTrips x)
    (timeText : DateTime → String) (now : DateTime) (params : CaptureParams) :
    SnapshotIntegrity x timeText now params ↔
      ∀ e, lastAssistant params.messageHistory = some e → ¬Across 200 e.content.toList := by
  rw [← exists_buildContextSummary_iff]
  constructor
  · rintro ⟨⟨file, hfile, -⟩, -, -⟩
    exact (captured_cases hfile).2
  · rintro ⟨summary, hsummary⟩
    refine ⟨?_, fun f g hf hg hc => ?_, fun f c hf hc => ?_⟩
    · obtain ⟨file, hfile⟩ : ∃ file, capture x timeText now params = some file :=
        ⟨_, bind_eq_some_iff.mpr ⟨summary, hsummary, rfl⟩⟩
      obtain ⟨text, htext, hparse⟩ := hyaml file
      have hpass := (captured_cases hfile).1
      exact ⟨file, hfile, hpass, text, file, htext, hparse, hpass⟩
    · rw [passes_iff] at hf hg
      rw [hf, hg] at hc
      refine eq_of_withChecksum_eq (withChecksum_eq_of_computeChecksum_eq hsha hyaml ?_) ?_
      · simpa using hc
      · rw [hf, hg, hc]
    · rw [passes_iff] at hf hc
      rw [hf, ← computeChecksum_withChecksum, ← hc]
      rfl

end Capture

/-! ## Codecs with both properties -/

instance countableUInt32 : Countable UInt32 :=
  Function.Injective.countable fun _ _ h => UInt32.toNat_inj.mp h

instance countableUInt64 : Countable UInt64 :=
  Function.Injective.countable fun _ _ h => UInt64.toNat_inj.mp h

deriving instance Countable for SnapshotTrigger, CapturedBy, SnapshotMetadata, PendingRequest,
  SnapshotPipe, SnapshotEnvironment, SnapshotSpec, SnapshotFile

instance infiniteString : Infinite String :=
  .of_injective String.ofList fun _ _ h => String.ofList_injective h

/-- Some text for each snapshot. -/
noncomputable def anyText : SnapshotFile ↪ String :=
  (nonempty_embedding_nat SnapshotFile).some.trans (Infinite.natEmbedding String)

/-- Data is its own digest. -/
noncomputable def textExternals : ExecutorExternals Unit :=
  { readerExternals with
    parseSnapshot := decodeBy anyText
    snapshotYaml := fun file => some (anyText file)
    sha256 := id }

theorem yamlRoundTrips_text : YamlRoundTrips textExternals := fun file =>
  ⟨_, rfl, decodeBy_encode anyText.injective file⟩

/-- An agent whose last answer is `content`. -/
def answered (content : String) : CaptureParams :=
  { agentName := "lead", pid := 1, goal := "summarise"
    messageHistory := [.fromRoleContent .assistant content]
    temperature := 7 / 10, grantedTools := ["fs/write"], trigger := .manual, capturedBy := .kernel
    episodicEvents := 0, semanticKeys := 0, pendingRequests := [], openPipes := [] }

theorem lastAssistant_answered (content : String) :
    lastAssistant (answered content).messageHistory = some (.fromRoleContent .assistant content) :=
  rfl

/-- An answer that is cut between two characters. -/
theorem snapshot_integrity_text :
    Function.Injective textExternals.sha256 ∧ YamlRoundTrips textExternals ∧
      SnapshotIntegrity textExternals (fun _ => "20260101-0000") ⟨0⟩
        (answered (String.ofList (.replicate 300 'a'))) := by
  refine ⟨Function.injective_id, yamlRoundTrips_text, ?_⟩
  rw [snapshot_integrity_iff Function.injective_id yamlRoundTrips_text]
  rintro e he ⟨p, c, rest, htext, hlt, hgt⟩
  rw [lastAssistant_answered, some.injEq] at he
  rw [← he] at htext
  have hc : c ∈ List.replicate 300 'a' := by
    rw [← String.toList_ofList (l := .replicate 300 'a')]
    exact htext ▸ List.mem_append_right p List.mem_cons_self
  rw [List.eq_of_mem_replicate hc] at hgt
  exact absurd hgt (Nat.not_lt.mpr hlt)

/-- An answer of 201 bytes whose last character has two of them. -/
theorem capture_inside_character :
    capture textExternals (fun _ => "20260101-0000") ⟨0⟩
      (answered (String.ofList (List.replicate 199 'a' ++ ['é']))) = none := by
  rw [eq_none_iff_forall_ne_some]
  intro file hfile
  refine exists_buildContextSummary_iff.mp (captured_cases hfile).2 _ (lastAssistant_answered _)
    ⟨.replicate 199 'a', 'é', [], String.toList_ofList, ?_⟩
  rw [utf8Len_replicate]
  decide

end Avix.Security
