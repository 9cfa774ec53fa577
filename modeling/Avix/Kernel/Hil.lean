/-
  Human-in-the-loop requests and approval tokens (`kernel/hil.rs`, `kernel/approval_token.rs`).

  An approval token is registered unused and can be consumed once. The store does not record
  which request a token was registered for.
-/
import Avix.Lib.Bytes
import Avix.Lib.Join
import Avix.Types.Json

namespace Avix

open Lib

inductive HilType where
  | toolCallApproval
  | capabilityUpgrade
  | escalation
  deriving DecidableEq, Repr

/-- `kernel::hil::HilState`. -/
inductive HilState where
  | pending
  | approved
  | denied
  | timeout
  deriving DecidableEq, Repr

/-- The serialised name of a state. -/
def HilState.asStr : HilState → String
  | .pending => "pending"
  | .approved => "approved"
  | .denied => "denied"
  | .timeout => "timeout"

inductive HilUrgency where
  | low
  | normal
  | high
  deriving DecidableEq, Repr

structure HilOption where
  id : String
  label : String

/-- `kernel::hil::HilRequest`. -/
structure HilRequest where
  apiVersion : String
  kind : String
  hilId : String
  pid : Pid
  agentName : String
  hilType : HilType
  tool : Option String
  args : Option Json
  reason : Option String
  context : Option String
  options : Option (List HilOption)
  urgency : HilUrgency
  approvalToken : String
  createdAt : DateTime
  expiresAt : DateTime
  state : HilState
  atpSessionId : String

def HilRequest.vfsPath (req : HilRequest) : String :=
  "/proc/" ++ req.pid.display ++ "/hil-queue/" ++ req.hilId ++ ".yaml"

theorem Pid.slash_not_mem_display (p : Pid) : '/' ∉ p.display.toList := by
  unfold Pid.display
  split_ifs
  · decide
  intro h
  have hint : '/' ∈ (toString (p.toNat : Int)).toList := h
  rcases mem_toString_int hint with hc | hc <;> exact absurd hc (by decide)

/-- Requests with different ids have different files, also when their pids differ. -/
theorem HilRequest.hilId_eq_of_vfsPath_eq {r r' : HilRequest} (h : r.vfsPath = r'.vfsPath) :
    r.hilId = r'.hilId := by
  have hchars := congrArg String.toList h
  unfold HilRequest.vfsPath at hchars
  simp only [String.toList_append, List.append_assoc] at hchars
  -- a displayed pid has no slash, so the paths split at the same place
  obtain ⟨-, hrest⟩ := append_sep_inj_of_not_mem '/' r.pid.slash_not_mem_display
    r'.pid.slash_not_mem_display (List.append_cancel_left hchars)
  have hid : "hil-queue/".toList ++ (r.hilId.toList ++ ".yaml".toList) =
    "hil-queue/".toList ++ (r'.hilId.toList ++ ".yaml".toList) := hrest
  exact String.toList_inj.mp (List.append_cancel_right (List.append_cancel_left hid))

/-- `kernel::approval_token::ApprovalTokenStore`: the tokens, and whether each has been used. -/
abbrev ApprovalTokenStore := HashMap String Bool

namespace ApprovalTokenStore

/-- `ApprovalTokenStore::register`: a token that is there stays as it is. -/
def register (store : ApprovalTokenStore) (tokenId : String) : ApprovalTokenStore :=
  match store.lookup tokenId with
  | some _ => store
  | none => AList.insert tokenId false store

def consume (store : ApprovalTokenStore) (tokenId : String) : Except AvixError ApprovalTokenStore :=
  match store.lookup tokenId with
  | none => .error (.capabilityDenied "token not found")
  | some true => .error (.capabilityDenied "EUSED: token already used")
  | some false => .ok (AList.insert tokenId true store)

theorem lookup_register (store : ApprovalTokenStore) (t t' : String) :
    (store.register t).lookup t' =
      if t' = t then some ((store.lookup t).getD false) else store.lookup t' := by
  unfold register
  by_cases h : t' = t
  · rw [if_pos h, h]
    cases hl : store.lookup t with
    | none => exact AList.lookup_insert _
    | some used => exact hl
  · rw [if_neg h]
    cases store.lookup t with
    | none => exact AList.lookup_insert_ne h
    | some used => rfl

/-- A token is consumed when it is registered and unused. -/
theorem consume_eq_ok {store store' : ApprovalTokenStore} {t : String}
    (h : store.consume t = .ok store') :
    store.lookup t = some false ∧ store' = AList.insert t true store := by
  unfold consume at h
  split at h
  · cases h
  · cases h
  · next hl => exact ⟨hl, (Except.ok.inj h).symm⟩

end ApprovalTokenStore

end Avix
