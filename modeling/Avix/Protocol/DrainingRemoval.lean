/-
  PROTOCOL — draining removals (`remove` with `drain` in `tool_registry/registry.rs`).

  `draining_removal_closes`: take any interleaving of `add`, `acquire` and draining
  removals of a registry that starts empty, in which

  * a call takes its permit from the semaphore that is registered under its name, and not after
    a removal that has not returned yet has found the tool idle;
  * `add` does not replace a tool while a guard of it is outstanding, nor add one while a removal
    waits for a tool of the name or has found it idle, and has not returned.

  When a removal returns, no guard of any of its tools is outstanding, and no `acquire` of one
  succeeds before the next `add` of it.

  Reason. A guard is then always of the registered semaphore (`Orderly`, `DrainInv`).

  Neither condition is enforced. `acquire` does not read the state that phase 1 sets, and looks
  the semaphore up before it waits for a permit; `add` replaces the semaphore (`removed_in_use`).
-/
import Avix.Tools.Draining

namespace Avix.Protocol

open Lib DrainSystem List RecordRegistry

/-! ## Closed tools -/

/-- A guard of a tool is outstanding. -/
def Call.Holds (name : String) (c : Call) : Prop := ∃ semaphore, c = .holding name semaphore

instance (name : String) (c : Call) : Decidable (Call.Holds name c) :=
  match c with
  | .holding name' semaphore => decidable_of_iff (name' = name)
      ⟨fun h => ⟨semaphore, h ▸ rfl⟩, fun ⟨_, h⟩ => (Call.holding.inj h).1⟩
  | .pending _ _ | .dropped | .failed _ => isFalse fun ⟨_, h⟩ => nomatch h

/-- A removal of the tools returns. -/
def Returns (s : DrainSystem) (e : DrainEvent) (names : List String) : Prop :=
  ∃ i, e = .proceed i ∧ s.removals[i]? = some (.removing names)

/-- An `acquire` of the tool succeeds. -/
def Acquires (name : String) (s : DrainSystem) (e : DrainEvent) : Prop :=
  ∃ i semaphore, e = .permit i ∧ s.calls[i]? = some (.pending name semaphore) ∧
    (s.registry.semaphores.acquire semaphore).isSome

def Adds (name : String) (e : DrainEvent) : Prop :=
  ∃ entries, e = .add entries ∧ ∃ entry ∈ entries, entry.name.asStr = name

/-- What a removal leaves, and what holds in the rest of the run. -/
structure Closed (names : List String) (s : DrainSystem) (rest : List DrainEvent) : Prop where
  idle : ∀ name ∈ names, ∀ c ∈ s.calls, ¬Call.Holds name c
  refuses : ∀ name ∈ names, ∀ after, after <+: rest → (∀ e ∈ after, ¬Adds name e) →
    Guarded DrainSystem.step (fun s e => ¬Acquires name s e) s after

/-! ## The condition -/

/-- The tools that a removal has found idle, until it returns. -/
def Removal.found : Removal → List String
  | .looking done _ _ => done
  | .waiting done _ _ _ => done
  | .removing names => names
  | _ => []

/-- A removal waits for a tool of the name, or has found it idle. -/
def Removal.Concerns (name : String) (r : Removal) : Prop :=
  name ∈ Removal.found r ∨ ∃ done semaphore left, r = .waiting done name semaphore left

instance (name : String) (r : Removal) : Decidable (Removal.Concerns name r) :=
  match r with
  | .waiting done name' semaphore left => decidable_of_iff (name ∈ done ∨ name' = name)
      (or_congr_right ⟨fun h => ⟨done, semaphore, left, h ▸ rfl⟩,
        fun ⟨_, _, _, h⟩ => (Removal.waiting.inj h).2.1⟩)
  | .looking done _ _ => decidable_of_iff (name ∈ done)
      ⟨.inl, fun h => h.resolve_right fun ⟨_, _, _, h⟩ => nomatch h⟩
  | .removing names => decidable_of_iff (name ∈ names)
      ⟨.inl, fun h => h.resolve_right fun ⟨_, _, _, h⟩ => nomatch h⟩
  | .marking _ | .returned _ =>
    isFalse fun h => h.elim List.not_mem_nil fun ⟨_, _, _, h⟩ => nomatch h

/-- The condition on a step. -/
def Orderly (s : DrainSystem) : DrainEvent → Prop
  | .add entries => ∀ entry ∈ entries, (∀ c ∈ s.calls, ¬Call.Holds entry.name.asStr c) ∧
      ∀ r ∈ s.removals, ¬Removal.Concerns entry.name.asStr r
  | .permit i => ∀ name semaphore, s.calls[i]? = some (.pending name semaphore) →
      s.registry.semaphoreOf name = some semaphore ∧ ∀ r ∈ s.removals, name ∉ Removal.found r
  | .remove _ drain => drain = true
  | _ => True

instance (s : DrainSystem) : (e : DrainEvent) → Decidable (Orderly s e)
  | .add entries => inferInstanceAs (Decidable (∀ entry ∈ entries, _ ∧ _))
  | .permit i =>
    match h : s.calls[i]? with
    | some (.pending name semaphore) => decidable_of_iff
        (s.registry.semaphoreOf name = some semaphore ∧ ∀ r ∈ s.removals, name ∉ Removal.found r)
        ⟨fun ho name' semaphore' heq => by
            obtain ⟨rfl, rfl⟩ := Call.pending.inj (Option.some.inj (h.symm.trans heq))
            exact ho,
          fun ho => ho name semaphore h⟩
    | some (.holding _ _) | some .dropped | some (.failed _) | none =>
      isTrue fun _ _ heq => nomatch h.symm.trans heq
  | .remove _ drain => inferInstanceAs (Decidable (drain = true))
  | .acquire _ | .drop _ | .proceed _ => isTrue trivial

/-! ## The invariant -/

/-- What a removal knows of the tools. -/
structure RemovalInv (registry : RecordRegistry) (calls : List Call) (r : Removal) : Prop where
  /-- What it has found idle is idle. -/
  idle : ∀ name ∈ Removal.found r, ∀ c ∈ calls, ¬Call.Holds name c
  /-- The semaphore it watches is the one of the tool, if the tool is still there. -/
  watched : ∀ done name semaphore left, r = .waiting done name semaphore left →
    ∀ current, registry.semaphoreOf name = some current → current = semaphore

structure DrainInv (s : DrainSystem) : Prop where
  balanced : Balanced Call.permit maxPermits s.registry.semaphores s.calls
  /-- Every guard is of the semaphore that is registered. -/
  registered : ∀ name semaphore, .holding name semaphore ∈ s.calls →
    s.registry.semaphoreOf name = some semaphore
  removals : ∀ r ∈ s.removals, RemovalInv s.registry s.calls r

variable {s : DrainSystem}

theorem drainInv_empty : DrainInv {} :=
  ⟨Balanced.empty, nofun, nofun⟩

variable {registry : RecordRegistry} {name : String}

/-- A removal knows as much after a step of others: no guard of a tool it has found idle is new,
    and the tool it waits for has not got another semaphore. -/
theorem RemovalInv.mono {registry' : RecordRegistry} {calls calls' : List Call} {r : Removal}
    (h : RemovalInv registry calls r)
    (hcalls : ∀ name ∈ Removal.found r, ∀ c ∈ calls', Call.Holds name c → c ∈ calls)
    (hreg : ∀ name, Removal.Concerns name r → ∀ current, registry'.semaphoreOf name = some current →
        registry.semaphoreOf name = some current) :
    RemovalInv registry' calls' r where
  idle name hname c hc hholds := h.idle name hname c (hcalls name hname c hc hholds) hholds
  watched done name semaphore left hr current hcurrent :=
    h.watched done name semaphore left hr current
      (hreg name (.inr ⟨done, semaphore, left, hr⟩) current hcurrent)

/-- The tools found idle when the loop goes on. -/
theorem found_next (done left : List String) : Removal.found (.next done left) = done := by
  cases left <;> rfl

theorem next_ne_waiting {done left done' left' : List String} {semaphore : Nat} :
    Removal.next done left ≠ .waiting done' name semaphore left' := by
  cases left <;> exact nofun

/-- A removal that goes on with the loop knows what it has found. -/
theorem removalInv_next {calls : List Call} {done : List String}
    (h : ∀ name ∈ done, ∀ c ∈ calls, ¬Call.Holds name c) (left : List String) :
    RemovalInv registry calls (.next done left) where
  idle name hname := h name (found_next done left ▸ hname)
  watched _ _ _ _ hr := absurd hr next_ne_waiting

section

variable (h : DrainInv s)

include h

theorem DrainInv.add {entries : List ToolEntry} (ho : Orderly s (.add entries)) :
    DrainInv (s.step (.add entries)) where
  balanced := balanced_add h.balanced entries
  registered name semaphore hholding := by
    refine (semaphoreOf_add fun entry hentry hname => ?_).trans
      (h.registered name semaphore hholding)
    exact (ho entry hentry).1 _ hholding ⟨semaphore, hname ▸ rfl⟩
  removals r hr := by
    refine (h.removals r hr).mono (fun _ _ c hc _ => hc) fun name hconc current hcurr => ?_
    refine (semaphoreOf_add fun entry hentry hname => ?_).symm.trans hcurr
    exact (ho entry hentry).2 r hr (hname ▸ hconc)

theorem DrainInv.acquire (name : String) : DrainInv (s.step (.acquire name)) := by
  have hold : ∀ name' semaphore, .holding name' semaphore ∈ s.calls ++ [s.acquire name] →
      .holding name' semaphore ∈ s.calls := by
    intro name' semaphore hmem
    refine (mem_append.mp hmem).resolve_right fun hnew => ?_
    have hperm := s.permit_acquire name
    rw [← mem_singleton.mp hnew] at hperm
    exact absurd hperm nofun
  refine ⟨h.balanced.spawn (s.permit_acquire name), fun name' semaphore hmem =>
    h.registered name' semaphore (hold name' semaphore hmem), fun r hr => ?_⟩
  refine (h.removals r hr).mono ?_ fun _ _ _ hcurr => hcurr
  rintro name' - c hc ⟨semaphore, rfl⟩
  exact hold name' semaphore hc

theorem DrainInv.permit {i : Nat} (ho : Orderly s (.permit i)) : DrainInv (s.step (.permit i)) := by
  rcases s.permit_cases i with heq | ⟨name, semaphore, semaphores, hcall, hacq, heq⟩
  · rwa [step, heq]
  rw [step, heq]
  obtain ⟨hreg, hnotF⟩ := ho name semaphore hcall
  refine ⟨h.balanced.acquire hcall rfl rfl hacq, fun name' semaphore' hmem => ?_, fun r hr => ?_⟩
  · rcases mem_or_eq_of_mem_set hmem with hmem | hnew
    · exact h.registered name' semaphore' hmem
    · obtain ⟨rfl, rfl⟩ := Call.holding.inj hnew
      exact hreg
  · refine (h.removals r hr).mono ?_ fun _ _ _ hcurr => hcurr
    rintro name' hfound c hc ⟨semaphore', rfl⟩
    rcases mem_or_eq_of_mem_set hc with hc | hnew
    · exact hc
    · obtain ⟨rfl, -⟩ := Call.holding.inj hnew
      exact absurd hfound (hnotF r hr)

theorem DrainInv.drop (i : Nat) : DrainInv (s.step (.drop i)) := by
  rcases s.drop_cases i with heq | ⟨name, semaphore, hcall, heq⟩
  · rwa [step, heq]
  rw [step, heq]
  have hold : ∀ name' semaphore', .holding name' semaphore' ∈ s.calls.set i .dropped →
      .holding name' semaphore' ∈ s.calls := fun _ _ hmem =>
    (mem_or_eq_of_mem_set hmem).resolve_right nofun
  refine ⟨h.balanced.release hcall rfl rfl, fun name' semaphore' hmem =>
    h.registered name' semaphore' (hold name' semaphore' hmem), fun r hr => ?_⟩
  refine (h.removals r hr).mono ?_ fun _ _ _ hcurr => hcurr
  rintro name' - c hc ⟨semaphore', rfl⟩
  exact hold name' semaphore' hc

theorem DrainInv.remove (names : List String) : DrainInv (s.step (.remove names true)) := by
  refine ⟨h.balanced, h.registered, fun r hr => ?_⟩
  rcases mem_append.mp hr with hr | hr
  · exact h.removals r hr
  · obtain rfl := mem_singleton.mp hr
    exact ⟨nofun, nofun⟩

/-- The removal itself: what it finds idle is idle. -/
theorem DrainInv.removalStep {r r' : Removal} (hr : r ∈ s.removals)
    (hstep : RemovalStep s.registry r r' registry) : RemovalInv registry s.calls r' := by
  have hinv := h.removals r hr
  cases hstep with
  | mark names => exact removalInv_next (fun _ hname => absurd hname not_mem_nil) names
  | look hsem =>
    refine ⟨hinv.idle, fun _ _ _ _ heq current hcurr => ?_⟩
    obtain ⟨rfl, rfl, rfl, rfl⟩ := Removal.waiting.inj heq
    exact Option.some.inj (hcurr.symm.trans hsem)
  | gone hsem =>
    refine removalInv_next (fun name hname c hc hholds => ?_) _
    rcases mem_append.mp hname with hname | hname
    · exact hinv.idle name hname c hc hholds
    obtain rfl := mem_singleton.mp hname
    obtain ⟨semaphore, rfl⟩ := hholds
    exact absurd (hsem.symm.trans (h.registered _ semaphore hc)) nofun
  | idle hfull =>
    refine removalInv_next (fun name hname c hc hholds => ?_) _
    rcases mem_append.mp hname with hname | hname
    · exact hinv.idle name hname c hc hholds
    -- a guard of the tool would be of the semaphore that has all its permits
    obtain rfl := mem_singleton.mp hname
    obtain ⟨semaphore, rfl⟩ := hholds
    have hcurr := hinv.watched _ _ _ _ rfl semaphore (h.registered _ semaphore hc)
    exact h.balanced.not_held_of_full hfull _ hc (congrArg some hcurr)
  | remove names =>
    exact ⟨nofun, nofun⟩

theorem DrainInv.proceed (i : Nat) : DrainInv (s.step (.proceed i)) := by
  rcases s.proceed_cases i with heq | ⟨r, r', registry, hr, hstep, heq⟩
  · rwa [step, heq]
  rw [step, heq]
  refine ⟨hstep.semaphores_eq ▸ h.balanced, fun name semaphore hmem => ?_, fun r'' hr'' => ?_⟩
  · rcases hstep.semaphoreOf_eq name with hsame | ⟨-, names, rfl, hname⟩
    · exact hsame.trans (h.registered name semaphore hmem)
    · have hidle := (h.removals _ (mem_of_getElem? hr)).idle name hname
      exact absurd ⟨semaphore, rfl⟩ (hidle _ hmem)
  · rcases mem_or_eq_of_mem_set hr'' with hr'' | rfl
    · refine (h.removals r'' hr'').mono (fun _ _ c hc _ => hc) fun name _ current hcurr => ?_
      rcases hstep.semaphoreOf_eq name with hsame | ⟨hnone, -⟩
      · exact hsame.symm.trans hcurr
      · exact absurd (hnone.symm.trans hcurr) nofun
    · exact h.removalStep (mem_of_getElem? hr) hstep

theorem DrainInv.step {e : DrainEvent} (ho : Orderly s e) : DrainInv (s.step e) := by
  cases e with
  | add entries => exact h.add ho
  | acquire name => exact h.acquire name
  | permit i => exact h.permit ho
  | drop i => exact h.drop i
  | remove names drain =>
    obtain rfl : drain = true := ho
    exact h.remove names
  | proceed i => exact h.proceed i

end

/-! ## After a removal -/

theorem semaphoreOf_step (h : s.registry.semaphoreOf name = none) {e : DrainEvent}
    (hadd : ¬Adds name e) : (s.step e).registry.semaphoreOf name = none := by
  cases e with
  | add entries =>
    exact (semaphoreOf_add fun entry hentry hname =>
      hadd ⟨entries, rfl, entry, hentry, hname⟩).trans h
  | acquire _ | remove _ _ => exact h
  | permit i =>
    rcases s.permit_cases i with heq | ⟨_, _, _, -, -, heq⟩ <;> rwa [step, heq]
  | drop i =>
    rcases s.drop_cases i with heq | ⟨_, _, -, heq⟩ <;> rwa [step, heq]
  | proceed i =>
    rcases s.proceed_cases i with heq | ⟨_, _, _, -, hstep, heq⟩
    · rwa [step, heq]
    rw [step, heq]
    rcases hstep.semaphoreOf_eq name with hsame | ⟨hnone, -⟩
    · exact hsame.trans h
    · exact hnone

/-- A tool that is not registered is not acquired until it is added. -/
theorem refuses_run {es : List DrainEvent} (h : s.registry.semaphoreOf name = none)
    (ho : Guarded step Orderly s es) (hadd : ∀ e ∈ es, ¬Adds name e) :
    Guarded step (fun s e => ¬Acquires name s e) s es := by
  induction es generalizing s with
  | nil => trivial
  | cons e es ih =>
    rw [forall_mem_cons] at hadd
    refine ⟨?_, ih (semaphoreOf_step h hadd.1) ho.2 hadd.2⟩
    rintro ⟨i, semaphore, rfl, hcall, -⟩
    exact absurd (h.symm.trans (ho.1 name semaphore hcall).1) nofun

theorem draining_removal_closes {es : List DrainEvent} (ho : Guarded DrainSystem.step Orderly {} es)
    {es₁ es₂ : List DrainEvent} {e : DrainEvent} (hsplit : es = es₁ ++ e :: es₂)
    {names : List String} (hreturns : Returns (run DrainSystem.step {} es₁) e names) :
    Closed names (run DrainSystem.step {} (es₁ ++ [e])) es₂ := by
  subst hsplit
  rw [guarded_append] at ho
  obtain ⟨ho₁, -, ho₂⟩ := ho
  have hinv : DrainInv (run step {} es₁) :=
    guarded_invariant (fun _ _ h ho => h.step ho) drainInv_empty ho₁
  rw [run_append, run_cons, run_nil]
  generalize run step {} es₁ = s at *
  obtain ⟨i, rfl, hi⟩ := hreturns
  have hstep : s.step (.proceed i) = { s with
      registry := s.registry.removeAll names
      removals := s.removals.set i (.returned names) } := by
    simp only [step, proceed, hi]
  rw [hstep] at ho₂ ⊢
  refine ⟨(hinv.removals _ (mem_of_getElem? hi)).idle, fun name hname after hafter hadd => ?_⟩
  obtain ⟨es₃, rfl⟩ := hafter
  refine refuses_run ?_ (guarded_append.mp ho₂).1 hadd
  exact (semaphoreOf_removeAll names).trans (if_pos hname)

/-! ## Any run -/

/-- In any run, also one that adds a tool again while it is in use or removes it without draining,
    a permit is left with its semaphore or held by one call. -/
theorem permits_conserved (es : List DrainEvent) :
    let s := run step {} es
    Balanced Call.permit maxPermits s.registry.semaphores s.calls := by
  refine run_invariant (fun (s : DrainSystem) e (h : Balanced Call.permit maxPermits
    s.registry.semaphores s.calls) => ?_) .empty es
  cases e with
  | add entries => exact balanced_add h entries
  | acquire name => exact h.spawn (s.permit_acquire name)
  | permit i =>
    rcases s.permit_cases i with heq | ⟨_, _, _, hcall, hacq, heq⟩ <;> rw [step, heq]
    · exact h
    · exact h.acquire hcall rfl rfl hacq
  | drop i =>
    rcases s.drop_cases i with heq | ⟨_, _, hcall, heq⟩ <;> rw [step, heq]
    · exact h
    · exact h.release hcall rfl rfl
  | remove names drain => exact h
  | proceed i =>
    rcases s.proceed_cases i with heq | ⟨_, _, _, _, hstep, heq⟩ <;> rw [step, heq]
    · exact h
    · rwa [hstep.semaphores_eq]

/-! ## Runs of one tool -/

section OneTool

def readTool : ToolEntry :=
  { name := .fsRead, owner := "svc", state := .available }

/-- The removal of the tool by the removal `i` that waits for nobody. -/
def removed (i : Nat) : List DrainEvent :=
  .remove ["fs/read"] true :: List.replicate 4 (.proceed i)

/-- A call is on its way when the removal begins: the removal waits for it. -/
theorem draining_removal_waits :
    let es := [.add [readTool], .acquire "fs/read", .permit 0, .remove ["fs/read"] true,
      .proceed 0, .proceed 0, .proceed 0, .drop 0, .proceed 0]
    Closed ["fs/read"] (run step {} (es ++ [.proceed 0])) [.acquire "fs/read"] :=
  draining_removal_closes (by decide) rfl ⟨0, rfl, rfl⟩

/-- A removal returns and its tool is in use: a call got its guard after the last look of the
    removal; the record was replaced before the removal, or while it waited. And a call gets its
    guard after the removal has returned. -/
theorem removed_in_use :
    let gap : List DrainEvent := [.add [readTool], .remove ["fs/read"] true, .proceed 0,
      .proceed 0, .proceed 0, .acquire "fs/read", .permit 0, .proceed 0]
    let replaced : List DrainEvent :=
      [.add [readTool], .acquire "fs/read", .permit 0, .add [readTool]] ++ removed 0
    let added : List DrainEvent := [.add [readTool], .remove ["fs/read"] true, .proceed 0,
      .proceed 0, .add [readTool], .acquire "fs/read", .permit 0, .proceed 0, .proceed 0]
    let late : List DrainEvent := [.add [readTool], .acquire "fs/read"] ++ removed 0
    (∀ es ∈ [gap, replaced, added, late], (run step {} es).removals = [.returned ["fs/read"]]) ∧
    (∀ es ∈ [gap, replaced, added], ¬Closed ["fs/read"] (run step {} es) []) ∧
    ¬Closed ["fs/read"] (run step {} late) [.permit 0] := by
  intro gap replaced added late
  refine ⟨by decide, fun es hes hclos => ?_, fun hclos => ?_⟩
  · have hheld : ∀ es ∈ [gap, replaced, added],
        ∃ c ∈ (run step {} es).calls, Call.Holds "fs/read" c := by decide
    obtain ⟨c, hc, hholds⟩ := hheld es hes
    exact hclos.idle "fs/read" (mem_singleton.mpr rfl) c hc hholds
  · have href := hclos.refuses "fs/read" (mem_singleton.mpr rfl) [.permit 0]
      (prefix_refl _) (by rintro e he ⟨entries, rfl, -⟩; simp at he)
    exact href.1 ⟨0, 0, rfl, rfl, rfl⟩

end OneTool

end Avix.Protocol
