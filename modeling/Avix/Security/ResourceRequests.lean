/-
  SECURITY — what an agent gets for a resource request.

  `resource_request_sound_iff`: for every request and token, an answer is given only for a
  token that verifies, has not expired and was issued to the requesting agent, with one grant of
  the right kind for each item in order, without a sum that wraps, with a renewed token that
  verifies and keeps tools and owner, and with no tool that the token does not hold, if and only
  if the request is refused (the token does not verify or its signature is not that of the
  request), or the token has not expired and was issued to the agent and no item asks for more
  than 2^32 - 1 - 64000 context tokens.

  Reason. `handle` compares signatures and looks neither at `expires_at` nor at `issued_to` or
  `agent_pid`; `64_000 + amount` is a `u32` (in a debug build the sum panics).
-/
import Avix.Kernel.ResourceRequest

namespace Avix.Security

open Lib

variable (hmac : Hmac) (now : DateTime) (handler : KernelResourceHandler)

/-! ## Sound answers -/

def IssuedToAgent (token : CapabilityToken) (pid : Pid) : Prop :=
  ∃ owner, token.issuedTo = some owner ∧ owner.pid = pid

/-- The grant answers the item; a denial repeats the name that was asked for and tells nothing
    else, and a renewed token verifies and keeps tools and owner. -/
def AnswersItem (token : CapabilityToken) : ResourceItem → ResourceGrant → Prop
  | .contextTokens amount _, .contextTokens _ amount' newTotal _ _ =>
    amount' = amount ∧ newTotal.toNat = 64000 + amount.toNat
  | .tool name _ _, .tool granted name' _ reason suggestion =>
    name' = name ∧ (granted = false → reason = some "HIL approval required" ∧ suggestion = none)
  | .pipe targetPid direction bufferTokens _, .pipe _ targetPid' _ direction' bufferTokens' _ =>
    targetPid' = targetPid ∧ direction' = direction ∧ bufferTokens' = bufferTokens
  | .tokenRenewal _, .tokenRenewal _ newToken _ _ =>
    ∀ renewed, newToken = some renewed → renewed.verifySignature hmac handler.hmacKey = true ∧
      renewed.grantedTools = token.grantedTools ∧ renewed.issuedTo = token.issuedTo
  | _, _ => False

/-- The tools that the agent holds by the grant. -/
def grantedTools : ResourceGrant → List String
  | .tool granted name newToken _ _ =>
    (if granted then [name] else []) ++ (newToken.map (·.grantedTools)).getD []
  | .tokenRenewal _ newToken _ _ => (newToken.map (·.grantedTools)).getD []
  | .contextTokens .. | .pipe .. => []

/-- An answer as it should be. -/
structure SoundAnswer (req : ResourceRequest) (token : CapabilityToken) (resp : ResourceResponse) :
    Prop where
  verifies : token.verifySignature hmac handler.hmacKey = true
  fresh : token.isExpired now = false
  issuedTo : IssuedToAgent token req.agentPid
  grants : List.Forall₂ (AnswersItem hmac handler token) req.requests resp.grants
  tools : ∀ grant ∈ resp.grants, ∀ tool ∈ grantedTools grant, token.hasTool tool = true

/-! ## What `handle` does -/

theorem toNat_add_eq_iff (amount : UInt32) :
    (64000 + amount).toNat = 64000 + amount.toNat ↔ 64000 + amount.toNat < 2 ^ 32 := by
  have hsum : (64000 + amount).toNat = (64000 + amount.toNat) % 2 ^ 32 := UInt32.toNat_add _ _
  rw [hsum, Nat.mod_eq_iff_lt (by decide)]

variable (token : CapabilityToken)

theorem answers_dispatchItem_iff (uuid : String) (item : ResourceItem) :
    AnswersItem hmac handler token item (handler.dispatchItem hmac now token uuid item) ↔
      ∀ amount reason, item = .contextTokens amount reason → 64000 + amount.toNat < 2 ^ 32 := by
  cases item with
  | contextTokens amount reason =>
    refine (and_iff_right rfl).trans ((toNat_add_eq_iff amount).trans ⟨?_, fun h => ?_⟩)
    · rintro h _ _ ⟨⟩
      exact h
    · exact h amount reason rfl
  | tool name urgency reason => exact iff_of_true ⟨rfl, fun _ => ⟨rfl, rfl⟩⟩ nofun
  | pipe targetPid direction bufferTokens reason => exact iff_of_true ⟨rfl, rfl, rfl⟩ nofun
  | tokenRenewal reason =>
    refine iff_of_true (fun renewed hren => ?_) nofun
    cases hren
    exact ⟨CapabilityToken.verifySignature_mint _ _ _ _ _ _, rfl, rfl⟩

/-- No item is answered with a tool that the token does not hold. -/
theorem hasTool_of_mem_grantedTools (uuid : String) (item : ResourceItem)
    {tool : String} (h : tool ∈ grantedTools (handler.dispatchItem hmac now token uuid item)) :
    token.hasTool tool = true := by
  cases item with
  | tokenRenewal reason => exact (token.hasTool_iff tool).mpr h
  | _ => cases h

/-- The grants are those of the items, one by one. -/
theorem forall₂_dispatchItem_iff (uuids : Nat → String)
    (items : List ResourceItem) (n : Nat) :
    List.Forall₂ (AnswersItem hmac handler token) items
        ((items.zipIdx n).map fun (item, i) =>
          handler.dispatchItem hmac now token (uuids i) item) ↔
      ∀ amount reason, .contextTokens amount reason ∈ items → 64000 + amount.toNat < 2 ^ 32 := by
  induction items generalizing n with
  | nil => exact iff_of_true .nil nofun
  | cons item items ih =>
    rw [List.zipIdx_cons, List.map_cons, List.forall₂_cons, ih, answers_dispatchItem_iff]
    constructor
    · rintro ⟨hitem, hitems⟩ amount reason hmem
      rcases List.mem_cons.mp hmem with heq | hmem
      · exact hitem amount reason heq.symm
      · exact hitems amount reason hmem
    · intro h
      exact ⟨fun amount reason heq => h amount reason (heq ▸ List.mem_cons_self),
        fun amount reason hmem => h amount reason (List.mem_cons_of_mem _ hmem)⟩

theorem resource_request_sound_iff (uuids : Nat → String) (req : ResourceRequest)
    (token : CapabilityToken) :
    (∀ resp, handler.handle hmac now uuids req token = .ok resp →
        SoundAnswer hmac now handler req token resp) ↔
      token.verifySignature hmac handler.hmacKey = false ∨
        req.capabilityTokenSignature ≠ token.signature ∨
        token.isExpired now = false ∧ IssuedToAgent token req.agentPid ∧
          ∀ amount reason, .contextTokens amount reason ∈ req.requests →
            64000 + amount.toNat < 2 ^ 32 := by
  by_cases hver : token.verifySignature hmac handler.hmacKey = true
  · by_cases hsig : req.capabilityTokenSignature = token.signature
    · rw [handler.handle_of_verifies hmac now hver hsig, or_iff_right (by simp [hver]),
        or_iff_right (not_not.mpr hsig)]
      constructor
      · intro h
        have hsound := h _ rfl
        exact ⟨hsound.fresh, hsound.issuedTo,
          (forall₂_dispatchItem_iff hmac now handler token uuids _ 0).mp hsound.grants⟩
      · rintro ⟨hfresh, howner, hamo⟩ resp hresp
        cases hresp
        refine ⟨hver, hfresh, howner,
          (forall₂_dispatchItem_iff hmac now handler token uuids _ 0).mpr hamo, ?_⟩
        intro grant hgrant tool htool
        obtain ⟨⟨item, i⟩, -, rfl⟩ := List.mem_map.mp hgrant
        exact hasTool_of_mem_grantedTools hmac now handler token _ item htool
    · refine iff_of_true (fun resp hresp => ?_) (.inr (.inl hsig))
      rw [KernelResourceHandler.handle, if_neg (by simp [hver]), if_pos hsig] at hresp
      cases hresp
  · have hfails := eq_false_of_ne_true hver
    refine iff_of_true (fun resp hresp => ?_) (.inl hfails)
    rw [KernelResourceHandler.handle, if_pos hfails] at hresp
    cases hresp

/-! ## A token of another agent, long expired -/

/-- Agent 9 renews the token that was minted for agent 7 two hours ago, and asks for all context
    tokens. -/
theorem expired_token_of_another_renewed : ∃ token resp renewed,
    token = CapabilityToken.mint (fun _ _ => []) ⟨0⟩ ["fs/read"] (some ⟨7, "lead", "alice"⟩) 3600 []
        ∧ token.isExpired ⟨7200 * 1000000000⟩ = true ∧
      KernelResourceHandler.handle (fun _ _ => []) ⟨7200 * 1000000000⟩ (.new []) (fun _ => "")
        ⟨9, "req-1", ⟨0⟩, token.signature, [.tokenRenewal "", .contextTokens 0xFFFFFFFF ""]⟩ token =
          .ok resp ∧
      resp.grants = [.tokenRenewal true (some renewed) (some renewed.expiresAt) none,
        .contextTokens true 0xFFFFFFFF 63999 none none] ∧
      renewed.isExpired ⟨7200 * 1000000000⟩ = false :=
  ⟨_, _, _, rfl, by decide, rfl, rfl, by decide⟩

end Avix.Security
