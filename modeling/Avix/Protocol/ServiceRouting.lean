/-
  PROTOCOL — what the service registry knows after a list of calls.

  `registry_coherent_iff`: after every list of calls, the flag of each service is the one
  of its last registration, false if it was deregistered since; each tool routes to the service it
  was registered for last; and no tool routes to a service that was deregistered and not
  registered again — exactly if
  * a service that was registered with the flag since it was last deregistered, was registered
    with it the last time;
  * no tool was registered last for a service whose last call was a deregistration.

  Reason. A registration without the flag does not take the service out of `caller_scoped`
  (`register` does not even look), and `deregister` leaves the tools of the service in place.
-/
import Avix.Lib.LastWrite
import Avix.Lib.Run
import Avix.Router.Dispatcher

namespace Avix.Protocol

open Lib

inductive RegistryCall where
  | register (name endpoint : String)
  | registerWithMeta (name endpoint : String) (callerScoped : Bool)
  | deregister (name : String)
  | registerTool (tool service : String)

namespace RegistryCall

def apply (reg : ServiceRegistry) : RegistryCall → ServiceRegistry
  | register name endpoint => reg.register name endpoint
  | registerWithMeta name endpoint callerScoped => reg.registerWithMeta name endpoint callerScoped
  | deregister name => reg.deregister name
  | registerTool tool service => reg.registerTool tool service

/-- The flag that the call asks for. -/
def flag (name : String) : RegistryCall → Option Bool
  | register n _ => if n = name then some false else none
  | registerWithMeta n _ callerScoped => if n = name then some callerScoped else none
  | deregister n => if n = name then some false else none
  | registerTool _ _ => none

/-- A registration with the flag, or a deregistration. -/
def scope (name : String) : RegistryCall → Option Bool
  | registerWithMeta n _ true => if n = name then some true else none
  | deregister n => if n = name then some false else none
  | _ => none

/-- Whether the service is gone after the call. -/
def gone (name : String) : RegistryCall → Option Bool
  | register n _ => if n = name then some false else none
  | registerWithMeta n _ _ => if n = name then some false else none
  | deregister n => if n = name then some true else none
  | registerTool _ _ => none

def service (tool : String) : RegistryCall → Option (Option String)
  | registerTool t s => if t = tool then some (some s) else none
  | _ => none

end RegistryCall

open RegistryCall

/-- `ServiceRegistry::new`, and then some calls. -/
def registryAfter (calls : List RegistryCall) : ServiceRegistry := run apply ⟨∅, ∅, ∅⟩ calls

/-- What the registry should know. -/
structure Coherent (calls : List RegistryCall) : Prop where
  flags : ∀ name, (registryAfter calls).isCallerScoped name = lastWrite (flag name) false calls
  routes : ∀ tool, (registryAfter calls).serviceForTool tool = lastWrite (service tool) none calls
  live : ∀ tool name, (registryAfter calls).serviceForTool tool = some name →
    lastWrite (gone name) false calls = false

/-- The condition on the calls. -/
structure WellUsed (calls : List RegistryCall) : Prop where
  flags : ∀ name, lastWrite (scope name) false calls = true →
    lastWrite (flag name) false calls = true
  tools : ∀ tool name, lastWrite (service tool) none calls = some name →
    lastWrite (gone name) false calls = false

section

variable (calls : List RegistryCall)

theorem registryAfter_concat (call : RegistryCall) :
    registryAfter (calls ++ [call]) = call.apply (registryAfter calls) :=
  run_append _ _ calls [call]

/-- The set has the services that were registered with the flag since they were last
    deregistered. -/
theorem isCallerScoped_registryAfter (name : String) :
    (registryAfter calls).isCallerScoped name = lastWrite (scope name) false calls := by
  induction calls using List.reverseRecOn with
  | nil => rfl
  | append_singleton calls call ih =>
    rw [registryAfter_concat, lastWrite_concat, ← ih]
    unfold ServiceRegistry.isCallerScoped
    cases call with
    | registerWithMeta n endpoint callerScoped =>
      cases callerScoped with
      | false => rfl
      | true =>
        rcases eq_or_ne n name with rfl | hn
        · simp [apply, scope, ServiceRegistry.registerWithMeta]
        · simp [apply, scope, ServiceRegistry.registerWithMeta, hn, hn.symm]
    | deregister n =>
      rcases eq_or_ne n name with rfl | hn
      · simp [apply, scope, ServiceRegistry.deregister]
      · simp [apply, scope, ServiceRegistry.deregister, hn, hn.symm]
    | _ => rfl

theorem serviceForTool_registryAfter (tool : String) :
    (registryAfter calls).serviceForTool tool = lastWrite (service tool) none calls := by
  induction calls using List.reverseRecOn with
  | nil => rfl
  | append_singleton calls call ih =>
    rw [registryAfter_concat, lastWrite_concat, ← ih]
    cases call with
    | registerTool t s =>
      by_cases ht : t = tool
      · simp [apply, service, ServiceRegistry.registerTool, ServiceRegistry.serviceForTool, ht]
      simp only [apply, service, ServiceRegistry.registerTool, ServiceRegistry.serviceForTool,
        if_neg ht, Option.getD_none]
      exact AList.lookup_insert_ne (Ne.symm ht)
    | _ => rfl

end

/-- A service whose last registration had the flag has it in the set. -/
theorem scope_of_flag {calls : List RegistryCall} {name : String}
    (h : lastWrite (flag name) false calls = true) : lastWrite (scope name) false calls = true := by
  induction calls using List.reverseRecOn with
  | nil => exact h
  | append_singleton calls call ih =>
    rw [lastWrite_concat] at h ⊢
    cases call with
    | registerWithMeta n endpoint callerScoped =>
      cases callerScoped <;> by_cases hn : n = name <;> simp_all [flag, scope]
    | register n endpoint | deregister n => by_cases hn : n = name <;> simp_all [flag, scope]
    | registerTool t s => exact ih h

theorem registry_coherent_iff (calls : List RegistryCall) : Coherent calls ↔ WellUsed calls := by
  constructor
  · intro h
    refine ⟨fun name hscope => ?_, fun tool name hserv => ?_⟩
    · rw [← h.flags, isCallerScoped_registryAfter, hscope]
    · exact h.live tool name ((h.routes tool).trans hserv)
  · intro h
    refine ⟨fun name => ?_, serviceForTool_registryAfter calls, fun tool name hrout => ?_⟩
    · rw [isCallerScoped_registryAfter, Bool.eq_iff_iff]
      exact ⟨h.flags name, scope_of_flag⟩
    · exact h.tools tool name ((serviceForTool_registryAfter calls tool).symm.trans hrout)

/-- A service is registered with the flag and then without it; its tool outlives it. -/
theorem registry_incoherent :
    let calls := [registerWithMeta "mem" "/run/mem.sock" true, registerTool "mem/read" "mem",
      registerWithMeta "mem" "/run/mem.sock" false]
    (registryAfter calls).isCallerScoped "mem" = true ∧ lastWrite (flag "mem") false calls = false ∧
      (registryAfter (calls ++ [deregister "mem"])).serviceForTool "mem/read" = some "mem" ∧
      ¬Coherent calls := by
  refine ⟨by decide, by decide, by decide, fun h => ?_⟩
  exact absurd (h.flags "mem") (by decide)

end Avix.Protocol
