/-
  Shared types of the kernel: process ids, clock instants, errors, and the maps the
  source keeps in `HashMap`s.

  * `Pid` is the `u64` of `types::Pid`. `Pid(0)` is the kernel and prints as "kernel".
  * `DateTime` is a `chrono::DateTime<Utc>` as nanoseconds since the Unix epoch. Leap
    seconds have no representation of their own. `Utc::now()` is not a function of the
    state, so every modelled operation that reads the clock takes the instant as an argument.
  * `AvixError` is `error::AvixError`, constructor by constructor, with its `Display` text.
  * `HashMap` is Mathlib's `AList`: a list of key-value pairs without duplicate keys.
-/
import Mathlib

namespace Avix

/-- `types::Pid` (a `u64`). -/
abbrev Pid := UInt64

namespace Pid

/-- `impl Display for Pid`. -/
def display (p : Pid) : String :=
  if p = 0 then "kernel" else toString p.toNat

end Pid

/-- A `chrono::DateTime<Utc>`, in nanoseconds since the Unix epoch. -/
structure DateTime where
  nanos : Int
  deriving DecidableEq, Repr

namespace DateTime

/-- Nanoseconds in a second. -/
def nanosPerSec : Int := 1000000000

/-- `DateTime::timestamp`: whole seconds since the epoch, rounded down. -/
def timestamp (t : DateTime) : Int := t.nanos / nanosPerSec

/-- The nanoseconds past `timestamp`. -/
def subsecNanos (t : DateTime) : Int := t.nanos % nanosPerSec

/-- `t + chrono::Duration::seconds(n)`. -/
def addSecs (t : DateTime) (n : Int) : DateTime := ⟨t.nanos + n * nanosPerSec⟩

instance : LT DateTime := ⟨fun a b => a.nanos < b.nanos⟩

instance (a b : DateTime) : Decidable (a < b) :=
  inferInstanceAs (Decidable (a.nanos < b.nanos))

/-- An instant is its whole seconds and its nanoseconds past them. -/
theorem eq_iff (a b : DateTime) :
    a = b ↔ a.timestamp = b.timestamp ∧ a.subsecNanos = b.subsecNanos := by
  constructor
  · rintro rfl
    exact ⟨rfl, rfl⟩
  · rintro ⟨hs, hn⟩
    obtain ⟨a⟩ := a
    obtain ⟨b⟩ := b
    simp only [timestamp, subsecNanos, nanosPerSec] at hs hn
    rw [DateTime.mk.injEq]
    omega

end DateTime

/-- `error::AvixError`. -/
inductive AvixError where
  | invalidPid (s : String)
  | invalidIpcAddr (s : String)
  | invalidToolName (name reason : String)
  | unknownCredentialType (s : String)
  | configParse (s : String)
  | capabilityDenied (s : String)
  | noProviderAvailable (s : String)
  | providerNotPermitted (s : String)
  | adapterError (s : String)
  | io (s : String)
  | ipcTimeout
  | ipcFrameTooLarge
  | invalidInput (s : String)
  | notFound (s : String)
  | manifestNotFound (path : String)
  | manifestSignatureMismatch (path : String)
  | manifestKindMismatch (expected found : String)
  | requiredToolDenied (tool agent : String)
  | modelRequirementsNotMet (reason : String)
  | serialization (s : String)
  | mcpProtocol (s : String)
  | mcpUnreachable (s : String)
  | cancelled (s : String)
  deriving DecidableEq, Repr

/-- The `#[error("..")]` texts. -/
def AvixError.display : AvixError → String
  | .invalidPid s => "invalid PID: " ++ s
  | .invalidIpcAddr s => "invalid IPC address: " ++ s
  | .invalidToolName name reason => "invalid tool name '" ++ name ++ "': " ++ reason
  | .unknownCredentialType s => "unknown credential type: " ++ s
  | .configParse s => "config parse error: " ++ s
  | .capabilityDenied s => "capability denied: " ++ s
  | .noProviderAvailable s => "no provider available for modality: " ++ s
  | .providerNotPermitted s => "provider not permitted: " ++ s
  | .adapterError s => "adapter error: " ++ s
  | .io s => "IO error: " ++ s
  | .ipcTimeout => "IPC call timed out"
  | .ipcFrameTooLarge => "IPC frame too large"
  | .invalidInput s => "invalid input: " ++ s
  | .notFound s => "not found: " ++ s
  | .manifestNotFound path => "manifest not found at path: " ++ path
  | .manifestSignatureMismatch path => "manifest signature mismatch at path: " ++ path
  | .manifestKindMismatch expected found =>
      "manifest kind mismatch: expected '" ++ expected ++ "', found '" ++ found ++ "'"
  | .requiredToolDenied tool agent =>
      "required tool '" ++ tool ++ "' denied for agent '" ++ agent ++ "'"
  | .modelRequirementsNotMet reason => "model requirements not met: " ++ reason
  | .serialization s => "serialization error: " ++ s
  | .mcpProtocol s => "MCP protocol error: " ++ s
  | .mcpUnreachable s => "MCP server unreachable: " ++ s
  | .cancelled s => "cancelled: " ++ s

/-- `Semaphore::MAX_PERMITS`, also the largest capacity of a channel. -/
def maxPermits : Nat := 2 ^ 61 - 1

/-- A `std::collections::HashMap`. -/
abbrev HashMap (K V : Type) := AList (fun _ : K => V)

variable {K V α β ε : Type}

theorem HashMap.lookup_insert_eq_ite [DecidableEq K] (m : HashMap K V) (k k' : K) (v : V) :
    (AList.insert k v m).lookup k' = if k' = k then some v else m.lookup k' := by
  split_ifs with hk
  · rw [hk, AList.lookup_insert]
  · exact AList.lookup_insert_ne hk

/-- A key that is found after an insertion is the new one or was there before. -/
theorem HashMap.of_lookup_insert [DecidableEq K] {m : HashMap K V} {k k' : K} {v w : V}
    (h : (AList.insert k v m).lookup k' = some w) :
    (k' = k ∧ w = v) ∨ (k' ≠ k ∧ m.lookup k' = some w) := by
  rw [lookup_insert_eq_ite] at h
  split_ifs at h with hk
  · exact .inl ⟨hk, (Option.some.inj h).symm⟩
  · exact .inr ⟨hk, h⟩

/-- The `?` of the source goes on only with a value. -/
theorem bind_eq_ok_iff {x : Except ε α} {f : α → Except ε β} {b : β} :
    x >>= f = .ok b ↔ ∃ a, x = .ok a ∧ f a = .ok b := by
  cases x <;> simp [bind, Except.bind]

theorem map_eq_ok_iff {x : Except ε α} {f : α → β} {b : β} :
    x.map f = .ok b ↔ ∃ a, x = .ok a ∧ f a = b := by
  cases x <;> simp [Except.map]

theorem eq_ok_of_toOption {x : Except ε α} {a : α} (h : x.toOption = some a) : x = .ok a := by
  cases x with
  | error e => cases h
  | ok b => exact congrArg Except.ok (Option.some.inj h)

/-- `if c { return Err(e) }`. -/
def refuseIf {ε : Type} (c : Prop) [Decidable c] (e : ε) : Except ε Unit :=
  if c then .error e else .ok ()

theorem refuseIf_eq_ok_iff {c : Prop} [Decidable c] {e : ε} {u : Unit} :
    refuseIf c e = .ok u ↔ ¬ c := by
  unfold refuseIf
  split_ifs with h <;> simp [h]

theorem mapError_eq_ok_iff {ε' : Type} {x : Except ε α} {f : ε → ε'} {a : α} :
    x.mapError f = .ok a ↔ x = .ok a := by
  cases x <;> simp [Except.mapError]

end Avix
