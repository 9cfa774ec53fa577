/-
  SECURITY — whose permissions a VFS operation is checked against.

  Every agent sets the caller context of the shared router once, when its executor starts
  (`init_vfs_caller`), and then issues operations. The router has one caller slot, documented
  as set per request, so an operation is checked against the agent that set it last.

  The contexts agents set differ in their effect only in one way: `effective_for` compares the
  username with the owner bits, so the user named `rwx` may write and nobody else may
  (`effectiveFor_context`).

  `authorised_per_caller_iff`: the slot does no harm exactly when all agents agree on
  this:

  * if they do, a run is the run of a router with one fixed caller (`pin_run`), which does not
    mention the agents' own `set_caller` calls;
  * if they do not, one agent writes with the rights of another.
-/
import Avix.Lib.Run
import Avix.Memfs.Router

namespace Avix

open Lib VfsRouter VfsPermissions List

/-! ## Agents on a shared router -/

/-- What `RuntimeExecutor::init_vfs_caller` reads of an agent. -/
structure VfsAgent where
  spawnedBy : String
  token : CapabilityToken

/-- The context `init_vfs_caller` sets. -/
def VfsAgent.context (a : VfsAgent) : VfsCallerContext :=
  { username := a.spawnedBy, crews := [], isAdmin := false, token := some a.token }

/-- A step of one of the agents. An operation is its check and, if that passes, its effect. -/
inductive VfsEvent (ι : Type) where
  | setCaller (a : ι)
  | start (a : ι) (op : VfsOp)
  | finish (a : ι)
  deriving DecidableEq

/-- The router, the operation each agent is in, and the results so far. -/
structure SharedVfs (D ι : Type) where
  router : VfsRouter D
  pending : ι → Option VfsOp
  log : List (ι × VfsOp × Except AvixError VfsValue)

namespace SharedVfs

variable {D ι : Type} [DecidableEq ι]

/-- No operation has been issued. -/
def initial (router : VfsRouter D) : SharedVfs D ι := ⟨router, fun _ => none, []⟩

variable (fs : FileSystem D) (yamlOfNames : List String → String) (agents : ι → VfsAgent)

/-- One step. An agent issues an operation only when it is in none. -/
def step (s : SharedVfs D ι) : VfsEvent ι → SharedVfs D ι
  | .setCaller a => { s with router := s.router.setCaller (some (agents a).context) }
  | .start a op =>
    match s.pending a with
    | some _ => s
    | none =>
      match s.router.authorize op with
      | .error e => { s with log := s.log ++ [(a, op, .error e)] }
      | .ok () => { s with pending := Function.update s.pending a (some op) }
  | .finish a =>
    match s.pending a with
    | none => s
    | some op =>
      let (router, result) := s.router.perform fs yamlOfNames op
      { router, pending := Function.update s.pending a none, log := s.log ++ [(a, op, result)] }

end SharedVfs

open SharedVfs

namespace Security

/-! ## Permissions of agents -/

theorem effectiveFor_context (a : VfsAgent) (path : String) :
    (forPath path).effectiveFor a.context =
      if a.spawnedBy = "rwx" then "rwx" else "r--" := by
  simp [effectiveFor, forPath, VfsAgent.context]

/-- The check depends on the caller only through its permission bits. -/
theorem authorize_congr {D : Type} {r r' : VfsRouter D} {c c' : VfsCallerContext}
    (hr : r.caller = some c) (hr' : r'.caller = some c')
    (h : ∀ path, (forPath path).effectiveFor c = (forPath path).effectiveFor c') (op : VfsOp) :
    r.authorize op = r'.authorize op := by
  have hcheck : ∀ (bit : Char) (verb : String) (path : VfsPath),
      r.requirePermission (fun perms c => (perms.effectiveFor c).toList.contains bit) verb path =
        r'.requirePermission (fun perms c => (perms.effectiveFor c).toList.contains bit) verb
          path := by
    intro bit verb path
    simp [requirePermission, hr, hr', h]
  cases op with
  | read p => exact hcheck 'r' "read" p
  | write p content => exact hcheck 'w' "write" p
  | delete p => exact hcheck 'w' "delete" p
  | list p => rfl

/-! ## Schedules and what is asked of them -/

section Schedules

variable {D ι : Type} [DecidableEq ι]

/-- The agent that takes the step. -/
def agentOf : VfsEvent ι → ι
  | .setCaller a => a
  | .start a _ => a
  | .finish a => a

def isSetCaller : VfsEvent ι → Bool
  | .setCaller _ => true
  | _ => false

/-- Each agent calls `init_vfs_caller` once, before its operations. -/
def CallsOnce (es : List (VfsEvent ι)) : Prop :=
  ∀ a, es.filter (agentOf · = a) = [] ∨ ∃ rest, es.filter (agentOf · = a) = .setCaller a :: rest ∧
      rest.all (! isSetCaller ·) = true

/-- The schedule without the `set_caller` calls of agents other than `a`. -/
def withoutOthersCalls (a : ι) (es : List (VfsEvent ι)) : List (VfsEvent ι) :=
  es.filter fun e => ! (isSetCaller e && agentOf e ≠ a)

/-- An agent other than `a` writes or deletes the path. -/
def othersWrite (a : ι) (es : List (VfsEvent ι)) (p : VfsPath) : Bool :=
  es.any fun
    | .start b op => b ≠ a && op.mutates && op.path = p
    | _ => false

variable (fs : FileSystem D) (yamlOfNames : List String → String) (agents : ι → VfsAgent)
  (router : VfsRouter D)

/-- The results of a schedule. -/
def results (es : List (VfsEvent ι)) : List (ι × VfsOp × Except AvixError VfsValue) :=
  (run (SharedVfs.step fs yamlOfNames agents) (SharedVfs.initial router) es).log

/-- The results of agent `a` on paths that no other agent writes. -/
def ownResults (a : ι) (es : List (VfsEvent ι)) : List (ι × VfsOp × Except AvixError VfsValue) :=
  (results fs yamlOfNames agents router es).filter fun x =>
    x.1 = a && ! othersWrite a es x.2.1.path

/-- Authorisation is per caller: what succeeds is permitted to the agent that issued it, and
    an agent's results on its own paths do not depend on the others' `set_caller` calls. -/
structure AuthorisedPerCaller : Prop where
  permitted : ∀ es : List (VfsEvent ι), CallsOnce es → ∀ a op v,
    (a, op, .ok v) ∈ results fs yamlOfNames agents router es →
      (router.setCaller (some (agents a).context)).checkAccess op.path op.required = .ok ()
  independent : ∀ (a : ι) (es es' : List (VfsEvent ι)), CallsOnce es → CallsOnce es' →
    withoutOthersCalls a es = withoutOthersCalls a es' →
      ownResults fs yamlOfNames agents router a es = ownResults fs yamlOfNames agents router a es'

end Schedules

/-! ## Runs of agents with the same permission bits -/

section SameBits

variable {D ι : Type} [DecidableEq ι] {fs : FileSystem D} {yamlOfNames : List String → String}
  {agents : ι → VfsAgent}

/-- The slot holds the context of some agent whenever an operation is checked. -/
def SlotIsAgent (agents : ι → VfsAgent) (s : SharedVfs D ι) : VfsEvent ι → Prop
  | .start _ _ => ∃ b, s.router.caller = some (agents b).context
  | _ => True

theorem caller_step (s : SharedVfs D ι) (e : VfsEvent ι) :
    (SharedVfs.step fs yamlOfNames agents s e).router.caller =
      match e with
      | .setCaller a => some (agents a).context
      | _ => s.router.caller := by
  cases e with
  | setCaller a => rfl
  | start a op =>
    simp only [step]
    split
    · rfl
    · split <;> rfl
  | finish a =>
    simp only [step]
    split
    · rfl
    · exact s.router.perform_caller fs yamlOfNames _

variable {es : List (VfsEvent ι)}

/-- After a `set_caller` the slot holds an agent's context for ever. -/
theorem caller_run {s : SharedVfs D ι}
    (h : (∃ a, s.router.caller = some (agents a).context) ∨ ∃ a, .setCaller a ∈ es) :
    ∃ a, (run (SharedVfs.step fs yamlOfNames agents) s es).router.caller =
      some (agents a).context := by
  induction es generalizing s with
  | nil =>
    rcases h with h | ⟨a, h⟩
    · exact h
    · cases h
  | cons e es ih =>
    apply ih
    rw [caller_step]
    rcases h with ⟨a, h⟩ | ⟨a, h⟩
    · left
      cases e with
      | setCaller b => exact ⟨b, rfl⟩
      | _ => exact ⟨a, h⟩
    · rcases mem_cons.mp h with rfl | h
      · exact .inl ⟨a, rfl⟩
      · exact .inr ⟨a, h⟩

/-- In a schedule where each agent sets the caller before its operations, every check sees the
    context of some agent. -/
theorem guarded_of_callsOnce (h : CallsOnce es) (s : SharedVfs D ι) :
    Guarded (SharedVfs.step fs yamlOfNames agents) (SlotIsAgent agents) s es := by
  apply guarded_of_split
  rintro es₁ e es₂ rfl
  cases e with
  | start a op =>
    apply caller_run
    right
    refine ⟨a, ?_⟩
    -- the first step of `a` is its `set_caller`, so it lies before this one
    rcases h a with hnil | ⟨rest, hown, -⟩
    · simp [agentOf] at hnil
    have hfirst : ∃ rest', es₁.filter (agentOf · = a) = .setCaller a :: rest' := by
      rw [filter_append, filter_cons_of_pos (by simp [agentOf])] at hown
      cases hes : es₁.filter (agentOf · = a) with
      | nil => rw [hes] at hown; cases hown
      | cons x xs =>
        rw [hes] at hown
        exact ⟨xs, by rw [(List.cons.inj hown).1]⟩
    obtain ⟨rest', hes⟩ := hfirst
    exact mem_of_mem_filter (hes ▸ mem_cons_self)
  | _ => trivial

/-- The system with a fixed caller in the slot. -/
def pin (c : Option VfsCallerContext) (s : SharedVfs D ι) : SharedVfs D ι :=
  { s with router := s.router.setCaller c }

variable (hsame : ∀ a b, (agents a).spawnedBy = "rwx" → (agents b).spawnedBy = "rwx")

include hsame

omit [DecidableEq ι] in
theorem effectiveFor_eq (a b : ι) (path : String) : (forPath path).effectiveFor (agents a).context =
    (forPath path).effectiveFor (agents b).context := by
  have hab := hsame a b
  have hba := hsame b a
  rw [effectiveFor_context, effectiveFor_context]
  split_ifs <;> grind

/-- A step other than `set_caller` does the same with any agent in the slot. -/
theorem pin_step (a : ι) (s : SharedVfs D ι) (e : VfsEvent ι) (hslot : SlotIsAgent agents s e)
    (he : isSetCaller e = false) :
    pin (some (agents a).context) (SharedVfs.step fs yamlOfNames agents s e) =
      SharedVfs.step fs yamlOfNames agents (pin (some (agents a).context) s) e := by
  cases e with
  | setCaller b => cases he
  | start b op =>
    obtain ⟨b', hb'⟩ := hslot
    have hauth : (s.router.setCaller (some (agents a).context)).authorize op =
        s.router.authorize op :=
      authorize_congr rfl hb' (effectiveFor_eq hsame a b') op
    simp only [step, pin, hauth]
    cases s.pending b with
    | some _ => rfl
    | none => cases s.router.authorize op <;> rfl
  | finish b =>
    simp only [step, pin]
    cases s.pending b with
    | none => rfl
    | some op => simp [perform_setCaller]

theorem pin_run (a : ι) (h : CallsOnce es) (s : SharedVfs D ι) :
    pin (some (agents a).context) (run (SharedVfs.step fs yamlOfNames agents) s es) =
      run (SharedVfs.step fs yamlOfNames agents) (pin (some (agents a).context) s)
        (es.filter (! isSetCaller ·)) := by
  refine run_simulates_filter (R := fun s t => pin (some (agents a).context) s = t)
    ?_ ?_ rfl (guarded_of_callsOnce h s)
  · rintro s t e rfl he
    cases e with
    | setCaller b => rfl
    | start b op | finish b => cases he
  · rintro s t e rfl hslot he
    exact pin_step hsame a s e hslot (by simpa using he)

theorem results_eq (a : ι) (h : CallsOnce es) (router : VfsRouter D) :
    results fs yamlOfNames agents router es = (run (SharedVfs.step fs yamlOfNames agents)
        (SharedVfs.initial (router.setCaller (some (agents a).context)))
        (es.filter (! isSetCaller ·))).log := by
  have hpin : (pin _ (run (step fs yamlOfNames agents)
      (initial router) es)).log = _ :=
    congrArg log (pin_run hsame a h (initial router))
  exact hpin

end SameBits

/-! ## What passes the check of one fixed agent -/

section FixedCaller

variable {D ι : Type} [DecidableEq ι] {fs : FileSystem D} {yamlOfNames : List String → String}
  {agents : ι → VfsAgent} {a : VfsAgent}

/-- An operation that passes the check of an agent is permitted by `check_access`. -/
theorem checkAccess_of_authorize {r r' : VfsRouter D} {op : VfsOp} (hr : r.caller = some a.context)
    (hr' : r'.caller = some a.context) (h : r.authorize op = .ok ()) :
    r'.checkAccess op.path op.required = .ok () := by
  have hread : ∀ path, (forPath path).canRead a.context = true := by
    intro path
    unfold canRead
    rw [effectiveFor_context]
    split_ifs <;> decide
  cases op with
  | read p | list p => simp [checkAccess, hr', VfsOp.required, hread]
  | write p content | delete p =>
    simp only [authorize, requirePermission, hr] at h
    have hw : (forPath p.asStr).canWrite a.context = true := by
      by_contra hno
      simp [hno] at h
    simp [checkAccess, hr', VfsOp.required, VfsOp.path, hw]

/-- The slot holds the context, and whatever is under way or has succeeded passed its check. -/
structure Checked (a : VfsAgent) (s : SharedVfs D ι) : Prop where
  caller : s.router.caller = some a.context
  pending : ∀ b op, s.pending b = some op → s.router.authorize op = .ok ()
  log : ∀ b op v, (b, op, .ok v) ∈ s.log → s.router.authorize op = .ok ()

omit [DecidableEq ι] in
theorem checked_initial (a : VfsAgent) (router : VfsRouter D) :
    Checked a (SharedVfs.initial (router.setCaller (some a.context)) : SharedVfs D ι) where
  caller := rfl
  pending _ _ h := by cases h
  log _ _ _ h := by cases h

theorem checked_step {s : SharedVfs D ι} (h : Checked a s) {e : VfsEvent ι}
    (he : isSetCaller e = false) : Checked a (SharedVfs.step fs yamlOfNames agents s e) := by
  obtain ⟨hcall, hpend, hlog⟩ := h
  cases e with
  | setCaller b => cases he
  | start b op =>
    simp only [step]
    cases hp : s.pending b with
    | some _ => exact ⟨hcall, hpend, hlog⟩
    | none =>
      cases hauth : s.router.authorize op with
      | error err =>
        refine ⟨hcall, hpend, fun b' op' v hmem => hlog b' op' v ?_⟩
        simpa using hmem
      | ok _ =>
        refine ⟨hcall, fun b' op' hb' => ?_, hlog⟩
        simp only [Function.update_apply] at hb'
        split_ifs at hb'
        · exact Option.some.inj hb' ▸ hauth
        · exact hpend b' op' hb'
  | finish b =>
    simp only [step]
    cases hp : s.pending b with
    | none => exact ⟨hcall, hpend, hlog⟩
    | some op =>
      -- the effect keeps the caller, so what passed the check still does
      have hcall' : (s.router.perform fs yamlOfNames op).1.caller = some a.context :=
        (s.router.perform_caller fs yamlOfNames op).trans hcall
      have hsame : ∀ op', (s.router.perform fs yamlOfNames op).1.authorize op' =
          s.router.authorize op' :=
        authorize_congr hcall' hcall fun _ => rfl
      refine ⟨hcall', fun b' op' hb' => ?_, fun b' op' v hmem => ?_⟩
      · rw [hsame]
        simp only [Function.update_apply] at hb'
        split_ifs at hb'
        exact hpend b' op' hb'
      · rw [hsame]
        rcases mem_append.mp hmem with hmem | hmem
        · exact hlog b' op' v hmem
        · simp only [mem_singleton, Prod.mk.injEq] at hmem
          exact hmem.2.1 ▸ hpend b op hp

theorem checked_run {s : SharedVfs D ι} (h : Checked a s) {es : List (VfsEvent ι)}
    (hes : ∀ e ∈ es, isSetCaller e = false) :
    Checked a (run (SharedVfs.step fs yamlOfNames agents) s es) := by
  induction es generalizing s with
  | nil => exact h
  | cons e es ih =>
    exact ih (checked_step h (hes e mem_cons_self)) fun e' he' =>
      hes e' (mem_cons_of_mem _ he')

end FixedCaller

/-! ## The result -/

section Result

variable {D ι : Type} [DecidableEq ι]

/-- The steps other than `set_caller` are the same in both schedules. -/
theorem filter_of_withoutOthersCalls {a : ι} {es es' : List (VfsEvent ι)}
    (h : withoutOthersCalls a es = withoutOthersCalls a es') :
    es.filter (! isSetCaller ·) = es'.filter (! isSetCaller ·) := by
  have hfilt : ∀ es : List (VfsEvent ι),
      (withoutOthersCalls a es).filter (! isSetCaller ·) = es.filter (! isSetCaller ·) := by
    intro es
    unfold withoutOthersCalls
    rw [filter_filter]
    apply filter_congr
    intro e _
    cases isSetCaller e <;> simp
  rw [← hfilt es, ← hfilt es', h]

theorem othersWrite_eq (a : ι) (es : List (VfsEvent ι)) (p : VfsPath) :
    othersWrite a es p = othersWrite a (es.filter (! isSetCaller ·)) p := by
  unfold othersWrite
  rw [any_filter]
  congr 1
  funext e
  cases e <;> simp [isSetCaller]

/-- A write that passed its check does not fail with a denial. -/
theorem perform_write_not_denied (fs : FileSystem D) (yamlOfNames : List String → String)
    (r : VfsRouter D) (p : VfsPath) (content : Bytes) (m : String) :
    (r.perform fs yamlOfNames (.write p content)).2 ≠ .error (.capabilityDenied m) := by
  simp only [perform]
  cases r.route p.asStr with
  | none => simp
  | some pr =>
    obtain ⟨provider, rel⟩ := pr
    intro hden
    cases hres : (provider.write fs r.disk rel content).2 with
    | ok u => simp [hres, Except.map] at hden
    | error e =>
      obtain ⟨m', rfl⟩ := LocalProvider.write_eq_error fs provider r.disk hres
      simp [hres, Except.map] at hden

variable (fs : FileSystem D) (yamlOfNames : List String → String) (agents : ι → VfsAgent)
  (router : VfsRouter D)

theorem authorisedPerCaller_of_same
    (hsame : ∀ a b, (agents a).spawnedBy = "rwx" → (agents b).spawnedBy = "rwx") :
    AuthorisedPerCaller fs yamlOfNames agents router where
  permitted es hes a op v hmem := by
    rw [results_eq hsame a hes] at hmem
    have hfinal : Checked (agents a) (run (step fs yamlOfNames agents) _
        (es.filter (! isSetCaller ·))) :=
      checked_run (checked_initial (agents a) router) (by simp)
    exact checkAccess_of_authorize hfinal.caller rfl (hfinal.log a op v hmem)
  independent a es es' hes hes' herase := by
    have hvis := filter_of_withoutOthersCalls herase
    unfold ownResults
    rw [results_eq hsame a hes, results_eq hsame a hes', hvis]
    simp [othersWrite_eq a es, othersWrite_eq a es', hvis]

/-- Two agents set the caller, then `b` writes. -/
def raceSchedule (first second b : ι) (p : VfsPath) : List (VfsEvent ι) :=
  [.setCaller first, .setCaller second, .start b (.write p []), .finish b]

theorem callsOnce_race {first second b : ι} (hne : first ≠ second)
    (hb : b = first ∨ b = second) (p : VfsPath) : CallsOnce (raceSchedule first second b p) := by
  intro c
  unfold raceSchedule
  by_cases h1 : first = c
  · subst h1
    right
    rcases hb with rfl | rfl <;> simp [filter, agentOf, isSetCaller, Ne.symm hne]
  · by_cases h2 : second = c
    · subst h2
      right
      rcases hb with rfl | rfl <;> simp [filter, agentOf, isSetCaller, hne]
    · left
      rcases hb with rfl | rfl <;> simp [filter, agentOf, h1, h2]

/-- The write is checked against the agent that set the caller last. -/
theorem results_race (first second b : ι) (p : VfsPath) :
    results fs yamlOfNames agents router (raceSchedule first second b p) = [(b, .write p [],
        ((router.setCaller (some (agents second).context)).operate fs yamlOfNames
          (.write p [])).2)] := by
  simp only [results, raceSchedule, run_cons, run_nil, step, initial, operate, setCaller]
  cases hauth : authorize _ (VfsOp.write p []) with
  | error e | ok u => simp

/-- Nobody else writes the path. -/
theorem ownResults_race (first second b : ι) (p : VfsPath) :
    ownResults fs yamlOfNames agents router b (raceSchedule first second b p) = [(b, .write p [],
        ((router.setCaller (some (agents second).context)).operate fs yamlOfNames
          (.write p [])).2)] := by
  unfold ownResults
  rw [results_race]
  simp [othersWrite, raceSchedule]

theorem same_of_authorisedPerCaller (h : AuthorisedPerCaller fs yamlOfNames agents router)
    (a b : ι) (ha : (agents a).spawnedBy = "rwx") : (agents b).spawnedBy = "rwx" := by
  by_contra hb
  have hne : a ≠ b := fun hab => hb (hab ▸ ha)
  let p : VfsPath := ⟨"/f", by decide, by decide⟩
  have hind := h.independent b (raceSchedule b a b p) (raceSchedule a b b p)
    (callsOnce_race hne.symm (.inl rfl) p) (callsOnce_race hne (.inr rfl) p)
    (by simp [withoutOthersCalls, raceSchedule, isSetCaller, agentOf, hne])
  rw [ownResults_race, ownResults_race] at hind
  simp only [List.cons.injEq, Prod.mk.injEq, true_and, and_true] at hind
  -- with the slot set by `a` the write goes ahead, with the slot set by `b` it is denied
  have hwrite : (router.setCaller (some (agents a).context)).authorize (.write p []) = .ok () := by
    simp [authorize, requirePermission, setCaller, canWrite, effectiveFor_context, ha]
  have hdeny : ∃ m, (router.setCaller (some (agents b).context)).authorize (.write p []) =
      .error (.capabilityDenied m) := by
    simp [authorize, requirePermission, setCaller, canWrite, effectiveFor_context, hb]
  obtain ⟨m, hdeny⟩ := hdeny
  simp only [operate, hwrite, hdeny] at hind
  exact perform_write_not_denied fs yamlOfNames _ p [] m hind

theorem authorised_per_caller_iff : AuthorisedPerCaller fs yamlOfNames agents router ↔
    ∀ a b, (agents a).spawnedBy = "rwx" → (agents b).spawnedBy = "rwx" :=
  ⟨same_of_authorisedPerCaller fs yamlOfNames agents router,
    authorisedPerCaller_of_same fs yamlOfNames agents router⟩

end Result

/-! ## Two users -/

/-- A router with no mounts, so that the disk is not used. -/
def bareRouter : VfsRouter Unit := ⟨[], [], none, none, ∅, ()⟩

/-- One agent of the user `rwx` and one of `alice`. -/
def twoAgents (isRwx : Bool) : VfsAgent :=
  ⟨if isRwx then "rwx" else "alice", CapabilityToken.testToken ⟨0⟩ []⟩

def notesPath : VfsPath := ⟨"/users/rwx/notes.txt", by decide, by decide⟩

/-- The agent of `alice` writes after that of `rwx` has set the caller. -/
theorem alice_writes_as_rwx : CallsOnce (raceSchedule false true false notesPath) ∧
    (false, .write notesPath [], .ok .unit) ∈ results .noDisk (fun _ => "") twoAgents bareRouter
      (raceSchedule false true false notesPath) ∧
    (bareRouter.setCaller (some (twoAgents false).context)).checkAccess notesPath "w" =
      .error (.capabilityDenied "no write permission on /users/rwx/notes.txt") := by
  refine ⟨callsOnce_race (by decide) (.inl rfl) _, ?_, by decide⟩
  rw [results_race]
  exact mem_singleton.mpr rfl

end Security

end Avix
