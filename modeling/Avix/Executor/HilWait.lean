/-
  How an executor waits for the decision on a capability upgrade (`executor/hil/cap_upgrade.rs`).

  The waiter subscribes to its own pid and loops over the received signals until one is a Resume
  whose payload names the request (`Signal.resumes`), or until its timeout. So it is a function of
  the payload that ended the loop, `none` for the timeout.
-/
import Avix.Signal.Bus
import Avix.Types.Token

namespace Avix

/-- The signal a waiter for `hilId` takes from its subscription. -/
def Signal.resumes (signal : Signal) (hilId : String) : Bool :=
  signal.kind = .resume && (signal.payload.index "hilId").asStr == some hilId

/-- The payload the loop returns for the signals received before the timeout. -/
def awaitResume (hilId : String) (received : List Signal) : Option Json :=
  (received.find? (·.resumes hilId)).map (·.payload)

/-- `tokio::time::timeout(..).map_err(..)`. -/
def orTimedOut (text : String) : Option Json → Except AvixError Json
  | some payload => .ok payload
  | none => .error (.capabilityDenied text)

/-- `CapabilityUpgrader::request_tool`: the token afterwards, and the result. `tokenOfJson` is
    `serde_json::from_value`. -/
def requestTool (tokenOfJson : Json → Option CapabilityToken) (token : CapabilityToken)
    (payload : Option Json) : CapabilityToken × Except AvixError Unit :=
  match orTimedOut "HIL timeout" payload with
  | .error e => (token, .error e)
  | .ok payload =>
    if ((payload.index "decision").asStr).getD "denied" ≠ "approved" then
      (token, .error (.capabilityDenied "capability upgrade denied"))
    else ((tokenOfJson (payload.index "new_capability_token")).getD token, .ok ())

/-- The payload approves the request. -/
def Json.approves (payload : Json) : Prop := (payload.index "decision").asStr = some "approved"

instance (payload : Json) : Decidable payload.approves :=
  inferInstanceAs (Decidable (_ = _))

/-- A granted upgrade was approved by a payload, and installs the token of that payload if it
    has one. -/
theorem requestTool_eq_ok {tokenOfJson : Json → Option CapabilityToken}
    {token token' : CapabilityToken}
    {payload : Option Json} (h : requestTool tokenOfJson token payload = (token', .ok ())) :
    ∃ p, payload = some p ∧ p.approves ∧
      token' = (tokenOfJson (p.index "new_capability_token")).getD token := by
  cases payload with
  | none => cases (Prod.mk.inj h).2
  | some p =>
    refine ⟨p, rfl, ?_⟩
    unfold requestTool orTimedOut at h
    dsimp only at h
    split_ifs at h with hd
    · cases (Prod.mk.inj h).2
    refine ⟨?_, (Prod.mk.inj h).1.symm⟩
    unfold Json.approves
    cases hs : (p.index "decision").asStr with
    | none =>
      rw [hs] at hd
      exact absurd hd (by decide)
    | some d =>
      rw [hs, Option.getD_some, not_not] at hd
      rw [hd]

end Avix
