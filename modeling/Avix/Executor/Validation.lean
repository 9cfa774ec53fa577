/-
  The executor's check of a tool call (`executor/validation.rs`).

  The router has a check of its own (`checkCapability`). The two lists of tools that need no
  grant differ: `sys/tools` is only in this one. A token without any tool passes this check for
  every tool.
-/
import Avix.Types.Token
import Avix.Types.Json

namespace Avix

structure AvixToolCall where
  callId : String
  name : String
  args : Json

/-- `validation::ALWAYS_PRESENT`. -/
def validationAlwaysPresent : List String :=
  ["cap/request-tool", "cap/escalate", "cap/list", "job/watch", "sys/tools"]

abbrev ToolBudgets := HashMap String UInt32

namespace ToolBudgets

def remaining (budgets : ToolBudgets) (tool : String) : Option UInt32 := budgets.lookup tool

def decrement (budgets : ToolBudgets) (tool : String) : ToolBudgets :=
  match budgets.lookup tool with
  | some b => AList.insert tool (if b = 0 then 0 else b - 1) budgets
  | none => budgets

end ToolBudgets

/-- `validation::validate_tool_call`, at the instant `now`. -/
def validateToolCall (now : DateTime) (token : CapabilityToken) (call : AvixToolCall)
    (budgets : ToolBudgets) : ToolBudgets × Except AvixError Unit :=
  if token.isExpired now then
    (budgets, .error (.capabilityDenied "capability token has expired"))
  else if ! token.grantedTools.isEmpty && ! token.hasTool call.name &&
      ! validationAlwaysPresent.contains call.name then
    (budgets, .error (.capabilityDenied ("Tool not granted: " ++ call.name)))
  else
    match budgets.remaining call.name with
    | some remaining =>
      if remaining = 0 then
        (budgets, .error (.capabilityDenied ("budget exhausted for tool: " ++ call.name)))
      else (budgets.decrement call.name, .ok ())
    | none => (budgets, .ok ())

/-- Without a budget on the tool, an unexpired token admits it when it grants nothing, grants
    the tool, or the tool needs no grant. -/
theorem validateToolCall_ok_iff {now : DateTime} {token : CapabilityToken} {call : AvixToolCall}
    {budgets : ToolBudgets} (hfresh : token.isExpired now = false)
    (hbudg : budgets.remaining call.name = none) :
    (validateToolCall now token call budgets).2 = .ok () ↔
      token.grantedTools = [] ∨ call.name ∈ token.grantedTools ∨
        call.name ∈ validationAlwaysPresent := by
  unfold validateToolCall
  rw [hfresh, hbudg, ← token.hasTool_iff]
  have hempty : token.grantedTools.isEmpty = true ↔ token.grantedTools = [] := List.isEmpty_iff
  have hpres : validationAlwaysPresent.contains call.name = true ↔
      call.name ∈ validationAlwaysPresent := List.contains_iff_mem
  rw [← hempty, ← hpres]
  cases token.grantedTools.isEmpty <;> cases token.hasTool call.name <;>
    cases validationAlwaysPresent.contains call.name <;> simp

end Avix
