/-
  Calls and removals of tools that run at the same time (`add`, `acquire` and `remove` of
  `tool_registry/registry.rs`).

  A record of the registry has a semaphore, and a call holds one of its permits
  (`ToolCallGuard`). A draining removal marks its tools, waits for each of them until the
  semaphore has all its permits, and takes the records out.

  Model. Semaphores are shared, so a record has the number of its semaphore; `add` creates a new
  one for every entry. A task is where it stands: a step is what it does under one lock, or one
  look at a semaphore. Tasks are taken in any order, which covers the queue of a semaphore and
  the sleep between two looks. The events that the registry sends are left out.
-/
import Avix.Lib.Semaphore
import Avix.Tools.Registry

namespace Avix

open Lib

/-! ## The records -/

structure ToolRecord where
  entry : ToolEntry
  semaphore : Nat

/-- `ToolRegistry`, with the semaphores of its records. -/
structure RecordRegistry where
  inner : HashMap String ToolRecord := ∅
  semaphores : Semaphores := []

namespace RecordRegistry

variable (r : RecordRegistry)

def insert (entry : ToolEntry) : RecordRegistry where
  inner := AList.insert entry.name.asStr ⟨entry, r.semaphores.length⟩ r.inner
  semaphores := r.semaphores ++ [maxPermits]

/-- `ToolRegistry::add`. -/
def add (entries : List ToolEntry) : RecordRegistry := entries.foldl insert r

/-- `guard.get_mut(name)` with the state set to unavailable. -/
def setUnavailable (inner : HashMap String ToolRecord) (name : String) :
    HashMap String ToolRecord :=
  match AList.lookup name inner with
  | some rec => AList.insert name { rec with entry.state := .unavailable } inner
  | none => inner

/-- Phase 1 of `ToolRegistry::remove`. -/
def markUnavailable (names : List String) : RecordRegistry :=
  { r with inner := names.foldl setUnavailable r.inner }

/-- Phase 3 of `ToolRegistry::remove`. -/
def removeAll (names : List String) : RecordRegistry :=
  { r with inner := names.foldl (fun inner name => AList.erase name inner) r.inner }

/-- The semaphore of a tool. -/
def semaphoreOf (name : String) : Option Nat := (AList.lookup name r.inner).map (·.semaphore)

end RecordRegistry

/-! ## The tasks -/

/-- A task in `ToolRegistry::acquire`, and what became of its guard. -/
inductive Call where
  /-- It has the semaphore, and waits for a permit. -/
  | pending (name : String) (semaphore : Nat)
  /-- It has a `ToolCallGuard`. -/
  | holding (name : String) (semaphore : Nat)
  | dropped
  | failed (e : AvixError)
  deriving DecidableEq

/-- The semaphore a call has a permit of. -/
def Call.permit : Call → Option Nat
  | .holding _ semaphore => some semaphore
  | _ => none

/-- A task in `ToolRegistry::remove`: the tools that are `done` were idle when it looked. -/
inductive Removal where
  /-- Before phase 1. -/
  | marking (names : List String)
  /-- Phase 2, before it takes the semaphore of `name`. -/
  | looking (done : List String) (name : String) (left : List String)
  /-- Phase 2, in the loop for `name`. -/
  | waiting (done : List String) (name : String) (semaphore : Nat) (left : List String)
  /-- Before phase 3. -/
  | removing (names : List String)
  | returned (names : List String)
  deriving DecidableEq

namespace Removal

/-- Where `remove(names, drain)` begins. -/
def start (names : List String) (drain : Bool) : Removal :=
  if drain then .marking names else .removing names

/-- The loop of phase 2, at the next tool. -/
def next (done left : List String) : Removal :=
  match left with
  | [] => .removing done
  | name :: left => .looking done name left

end Removal

/-! ## The system -/

structure DrainSystem where
  registry : RecordRegistry := {}
  calls : List Call := []
  removals : List Removal := []

inductive DrainEvent where
  | add (entries : List ToolEntry)
  /-- `acquire`, with the read lock. -/
  | acquire (name : String)
  /-- `acquire_owned` of a call returns. -/
  | permit (call : Nat)
  /-- The guard of a call is dropped. -/
  | drop (call : Nat)
  | remove (names : List String) (drain : Bool)
  /-- The next step of a removal. -/
  | proceed (removal : Nat)

namespace DrainSystem

variable (s : DrainSystem)

/-- `ToolRegistry::acquire` under the read lock. -/
def acquire (name : String) : Call :=
  match s.registry.semaphoreOf name with
  | some semaphore => .pending name semaphore
  | none => .failed (.configParse ("tool not found: " ++ name))

/-- `acquire_owned`. -/
def permit (i : Nat) : DrainSystem :=
  match s.calls[i]? with
  | some (.pending name semaphore) =>
    match s.registry.semaphores.acquire semaphore with
    | some semaphores =>
      { s with
        registry.semaphores := semaphores
        calls := s.calls.set i (.holding name semaphore) }
    | none => s
  | _ => s

/-- `ToolCallGuard` is dropped. -/
def drop (i : Nat) : DrainSystem :=
  match s.calls[i]? with
  | some (.holding _ semaphore) =>
    { s with
      registry.semaphores := s.registry.semaphores.release semaphore
      calls := s.calls.set i .dropped }
  | _ => s

/-- `ToolRegistry::remove`, one step. -/
def proceed (i : Nat) : DrainSystem :=
  match s.removals[i]? with
  | some (.marking names) =>
    { s with
      registry := s.registry.markUnavailable names
      removals := s.removals.set i (.next [] names) }
  | some (.looking done name left) =>
    match s.registry.semaphoreOf name with
    | some semaphore => { s with removals := s.removals.set i (.waiting done name semaphore left) }
    | none => { s with removals := s.removals.set i (.next (done ++ [name]) left) }
  | some (.waiting done name semaphore left) =>
    if s.registry.semaphores.available semaphore = some maxPermits then
      { s with removals := s.removals.set i (.next (done ++ [name]) left) }
    else s
  | some (.removing names) =>
    { s with
      registry := s.registry.removeAll names
      removals := s.removals.set i (.returned names) }
  | _ => s

def step : DrainEvent → DrainSystem
  | .add entries => { s with registry := s.registry.add entries }
  | .acquire name => { s with calls := s.calls ++ [s.acquire name] }
  | .permit i => s.permit i
  | .drop i => s.drop i
  | .remove names drain => { s with removals := s.removals ++ [.start names drain] }
  | .proceed i => s.proceed i

end DrainSystem

/-! ## What the operations do to the records -/

namespace RecordRegistry

variable {r : RecordRegistry} {name : String}

theorem semaphoreOf_insert (entry : ToolEntry) : (r.insert entry).semaphoreOf name =
    if name = entry.name.asStr then some r.semaphores.length else r.semaphoreOf name := by
  unfold semaphoreOf insert
  rw [HashMap.lookup_insert_eq_ite]
  split_ifs <;> rfl

theorem semaphoreOf_add {entries : List ToolEntry} (h : ∀ e ∈ entries, e.name.asStr ≠ name) :
    (r.add entries).semaphoreOf name = r.semaphoreOf name := by
  unfold add
  induction entries generalizing r with
  | nil => rfl
  | cons e entries ih =>
    rw [List.forall_mem_cons] at h
    rw [List.foldl_cons, ih h.2, semaphoreOf_insert, if_neg h.1.symm]

theorem semaphoreOf_markUnavailable (names : List String) :
    (r.markUnavailable names).semaphoreOf name = r.semaphoreOf name := by
  unfold markUnavailable semaphoreOf
  dsimp only
  generalize r.inner = inner
  induction names generalizing inner with
  | nil => rfl
  | cons n names ih =>
    rw [List.foldl_cons, ih, setUnavailable]
    cases hn : AList.lookup n inner with
    | none => rfl
    | some rec =>
      dsimp only
      rw [HashMap.lookup_insert_eq_ite]
      split_ifs with hname
      · rw [hname, hn]
        rfl
      · rfl

theorem lookup_removeAll (names : List String) : AList.lookup name (r.removeAll names).inner =
    if name ∈ names then none else AList.lookup name r.inner := by
  unfold removeAll
  dsimp only
  generalize r.inner = inner
  induction names generalizing inner with
  | nil => rfl
  | cons n names ih =>
    rw [List.foldl_cons, ih]
    by_cases hname : name = n
    · subst hname
      rw [AList.lookup_erase]
      simp
    · rw [AList.lookup_erase_ne hname]
      simp [hname]

theorem semaphoreOf_removeAll (names : List String) : (r.removeAll names).semaphoreOf name =
    if name ∈ names then none else r.semaphoreOf name := by
  rw [semaphoreOf, lookup_removeAll]
  split_ifs <;> rfl

theorem balanced_add {calls : List Call}
    (h : Balanced Call.permit maxPermits r.semaphores calls) (entries : List ToolEntry) :
    Balanced Call.permit maxPermits (r.add entries).semaphores calls := by
  unfold add
  induction entries generalizing r with
  | nil => exact h
  | cons entry entries ih => exact ih h.create

end RecordRegistry

/-! ## What a step can do -/

inductive RemovalStep (registry : RecordRegistry) : Removal → Removal → RecordRegistry → Prop where
  | mark (names : List String) :
      RemovalStep registry (.marking names) (.next [] names) (registry.markUnavailable names)
  | look {done left : List String} {name : String} {semaphore : Nat}
      (h : registry.semaphoreOf name = some semaphore) :
      RemovalStep registry (.looking done name left) (.waiting done name semaphore left) registry
  | gone {done left : List String} {name : String} (h : registry.semaphoreOf name = none) :
      RemovalStep registry (.looking done name left) (.next (done ++ [name]) left) registry
  | idle {done left : List String} {name : String} {semaphore : Nat}
      (h : registry.semaphores.available semaphore = some maxPermits) :
      RemovalStep registry (.waiting done name semaphore left) (.next (done ++ [name]) left)
        registry
  | remove (names : List String) :
      RemovalStep registry (.removing names) (.returned names) (registry.removeAll names)

variable {registry registry' : RecordRegistry} {r r' : Removal}

theorem RemovalStep.semaphores_eq (h : RemovalStep registry r r' registry') :
    registry'.semaphores = registry.semaphores := by
  cases h <;> rfl

/-- A removal leaves a tool its semaphore, or takes it out. -/
theorem RemovalStep.semaphoreOf_eq (h : RemovalStep registry r r' registry') (name : String) :
    registry'.semaphoreOf name = registry.semaphoreOf name ∨
      registry'.semaphoreOf name = none ∧ ∃ names, r = .removing names ∧ name ∈ names := by
  cases h with
  | mark names => exact .inl (RecordRegistry.semaphoreOf_markUnavailable names)
  | look _ | gone _ | idle _ => exact .inl rfl
  | remove names =>
    rw [RecordRegistry.semaphoreOf_removeAll]
    split_ifs with hname
    · exact .inr ⟨rfl, names, rfl, hname⟩
    · exact .inl rfl

namespace DrainSystem

variable {s : DrainSystem}

theorem permit_acquire (name : String) : (s.acquire name).permit = none := by
  unfold acquire
  split <;> rfl

theorem permit_cases (i : Nat) : s.permit i = s ∨
    ∃ name semaphore semaphores, s.calls[i]? = some (.pending name semaphore) ∧
      s.registry.semaphores.acquire semaphore = some semaphores ∧
      s.permit i = { s with
        registry.semaphores := semaphores
        calls := s.calls.set i (.holding name semaphore) } := by
  unfold permit
  split
  · next name semaphore hcall =>
    split
    · next semaphores hacq => exact .inr ⟨name, semaphore, semaphores, hcall, hacq, rfl⟩
    · exact .inl rfl
  · exact .inl rfl

theorem drop_cases (i : Nat) : s.drop i = s ∨
    ∃ name semaphore, s.calls[i]? = some (.holding name semaphore) ∧ s.drop i = { s with
        registry.semaphores := s.registry.semaphores.release semaphore
        calls := s.calls.set i .dropped } := by
  unfold drop
  split
  · next name semaphore hcall => exact .inr ⟨name, semaphore, hcall, rfl⟩
  · exact .inl rfl

/-- What a removal does: it neither starts nor ends a call. -/
theorem proceed_cases (i : Nat) : s.proceed i = s ∨ ∃ r r' registry, s.removals[i]? = some r ∧
    RemovalStep s.registry r r' registry ∧
    s.proceed i = { s with registry, removals := s.removals.set i r' } := by
  unfold proceed
  split
  · next names hr => exact .inr ⟨_, _, _, hr, .mark names, rfl⟩
  · next done name left hr =>
    refine .inr ?_
    split
    · next semaphore hsem => exact ⟨_, _, _, hr, .look hsem, rfl⟩
    · next hsem => exact ⟨_, _, _, hr, .gone hsem, rfl⟩
  · next done name semaphore left hr =>
    split_ifs with hfull
    · exact .inr ⟨_, _, _, hr, .idle hfull, rfl⟩
    · exact .inl rfl
  · next names hr => exact .inr ⟨_, _, _, hr, .remove names, rfl⟩
  · exact .inl rfl

end DrainSystem

end Avix
