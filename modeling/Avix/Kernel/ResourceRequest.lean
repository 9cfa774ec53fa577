/-
  Resource requests (`kernel/resource_request.rs`).

  An agent asks the kernel for context tokens, a tool, a pipe or a new token. `handle` checks
  the agent's token under the handler's key before it looks at the items, and answers each item
  in order. Uuids and the clock are arguments.
-/
import Avix.Types.Token

namespace Avix

open Lib

inductive Urgency where
  | low
  | normal
  | high
  deriving DecidableEq, Repr

/-- `resource_request::PipeDirection`. -/
inductive PipeDirection where
  | input
  | output
  | bidirectional
  deriving DecidableEq, Repr

inductive ResourceItem where
  | contextTokens (amount : UInt32) (reason : String)
  | tool (name : String) (urgency : Urgency) (reason : String)
  | pipe (targetPid : Pid) (direction : PipeDirection) (bufferTokens : UInt32) (reason : String)
  | tokenRenewal (reason : String)

structure ResourceRequest where
  agentPid : Pid
  requestId : String
  timestamp : DateTime
  capabilityTokenSignature : String
  requests : List ResourceItem

inductive ResourceGrant where
  | contextTokens (granted : Bool) (amount newTotal : UInt32) (expiresAt : Option DateTime)
      (reason : Option String)
  | tool (granted : Bool) (name : String) (newToken : Option CapabilityToken)
      (reason suggestion : Option String)
  | pipe (granted : Bool) (targetPid : Pid) (pipeId : Option String) (direction : PipeDirection)
      (bufferTokens : UInt32) (reason : Option String)
  | tokenRenewal (granted : Bool) (newToken : Option CapabilityToken)
      (expiresAt : Option DateTime) (reason : Option String)

structure ResourceResponse where
  requestId : String
  respondedAt : DateTime
  grants : List ResourceGrant

structure KernelResourceHandler where
  hmacKey : Bytes
  renewalTtlSecs : Int

namespace KernelResourceHandler

def new (hmacKey : Bytes) : KernelResourceHandler := ⟨hmacKey, 3600⟩

variable (hmac : Hmac) (now : DateTime) (handler : KernelResourceHandler)

def dispatchItem (token : CapabilityToken) (uuid : String) : ResourceItem → ResourceGrant
  | .contextTokens amount _ => .contextTokens true amount (64000 + amount) none none
  | .tool name _ _ => .tool false name none (some "HIL approval required") none
  | .pipe targetPid direction bufferTokens _ =>
    .pipe true targetPid (some ("pipe-" ++ uuid)) direction bufferTokens none
  | .tokenRenewal _ =>
    let newToken := CapabilityToken.mint hmac now token.grantedTools token.issuedTo
      handler.renewalTtlSecs handler.hmacKey
    .tokenRenewal true (some newToken) (some newToken.expiresAt) none

/-- `KernelResourceHandler::handle`; `uuids i` is generated for the item at position `i`. -/
def handle (uuids : Nat → String) (req : ResourceRequest) (currentToken : CapabilityToken) :
    Except AvixError ResourceResponse :=
  if currentToken.verifySignature hmac handler.hmacKey = false then
    .error (.capabilityDenied "capability token signature is invalid")
  else if req.capabilityTokenSignature ≠ currentToken.signature then
    .error (.capabilityDenied "request token signature does not match current token")
  else
    .ok
      { requestId := req.requestId
        respondedAt := now
        grants := req.requests.zipIdx.map fun (item, i) =>
          handler.dispatchItem hmac now currentToken (uuids i) item }

/-- A request that carries the signature of a token that verifies is answered. -/
theorem handle_of_verifies {uuids : Nat → String} {req : ResourceRequest}
    {token : CapabilityToken} (h : token.verifySignature hmac handler.hmacKey = true)
    (hsig : req.capabilityTokenSignature = token.signature) :
    handler.handle hmac now uuids req token = .ok
      { requestId := req.requestId
        respondedAt := now
        grants := req.requests.zipIdx.map fun (item, i) =>
          handler.dispatchItem hmac now token (uuids i) item } := by
  rw [handle, h, if_neg (by decide), if_neg (not_not.mpr hsig)]

end KernelResourceHandler

end Avix
