/-
  Programs that read a shared variable and call a server, and pools of them.

  A program is a tree: it is done, or reads the variable, or makes a call and goes on with the
  reply, whatever it is. Many programs run at once in a pool: to start one sets the variable, and
  between any two steps of a program the others may take steps.

  * `sends_bind`, `alike_bind`, `serve_bind`: what a program sends, that two programs do the same,
    and what a server answers, one part of a program after the other.
  * `pool_sent`: if a program starts only while those that have not yet read the variable expect
    the same value, then each program of the pool sends what it sends alone.
-/
import Avix.Lib.Run

namespace Avix.Lib

/-- A program with the shared variable `S`, requests `Q`, replies `R` and result `α`. -/
inductive Prog (S Q R α : Type) where
  | done (a : α)
  | ask (k : S → Prog S Q R α)
  | call (q : Q) (k : R → Prog S Q R α)

namespace Prog

variable {S Q R α β σ : Type}

/-- One program after the other. -/
def bind (f : α → Prog S Q R β) : Prog S Q R α → Prog S Q R β
  | done a => f a
  | ask k => ask fun s => (k s).bind f
  | call q k => call q fun r => (k r).bind f

instance : Monad (Prog S Q R) where
  pure := done
  bind p f := p.bind f

/-! ## What a program sends -/

/-- The program does not read the variable, and all it may send has the property. -/
def Sends (P : Q → Prop) : Prog S Q R α → Prop
  | done _ => True
  | ask _ => False
  | call q k => P q ∧ ∀ r, (k r).Sends P

variable {f : α → Prog S Q R β} {p : Prog S Q R α} {P : Q → Prop} {s : S}

theorem sends_bind (h : p.Sends P) (hf : ∀ a, (f a).Sends P) : (p >>= f).Sends P := by
  induction p with
  | done a => exact hf a
  | ask k => exact h.elim
  | call q k ih => exact ⟨h.1, fun r => ih r (h.2 r)⟩

/-- The program reads the variable at once or not at all; with the value `s` all it may send has
    the property. -/
def Ready (s : S) (P : Q → Prop) : Prog S Q R α → Prop
  | ask k => (k s).Sends P
  | p => p.Sends P

theorem ready_bind (h : p.Ready s P) (hf : ∀ a, (f a).Sends P) : (p >>= f).Ready s P := by
  cases p with
  | done a =>
    have hfa := hf a
    change (f a).Ready s P
    cases hp : f a with
    | done b => trivial
    | ask k =>
      rw [hp] at hfa
      exact hfa.elim
    | call q k =>
      rw [hp] at hfa
      exact hfa
  | ask k => exact sends_bind h hf
  | call q k => exact ⟨h.1, fun r => sends_bind (h.2 r) hf⟩

/-! ## Two programs that do the same -/

/-- With the value `s`, the programs make related calls and, given the same replies, have related
    results. -/
def Alike (s : S) (rel : Q → Q → Prop) (res : α → β → Prop) : Prog S Q R α → Prog S Q R β → Prop
  | done a, done b => res a b
  | ask k, ask k' => Alike s rel res (k s) (k' s)
  | call q k, call q' k' => rel q q' ∧ ∀ r, Alike s rel res (k r) (k' r)
  | _, _ => False

theorem alike_bind {rel : Q → Q → Prop} {α' β' : Type} {res : α → α' → Prop} {res' : β → β' → Prop}
    {p' : Prog S Q R α'} {f' : α' → Prog S Q R β'} (h : Alike s rel res p p')
    (hf : ∀ a a', res a a' → Alike s rel res' (f a) (f' a')) :
    Alike s rel res' (p >>= f) (p' >>= f') := by
  induction p generalizing p' with
  | done a =>
    cases p' with
    | done a' => exact hf a a' h
    | ask k | call q k => exact h.elim
  | ask k ih =>
    cases p' with
    | done a' | call q k => exact h.elim
    | ask k' => exact ih s h
  | call q k ih =>
    cases p' with
    | done a' | ask k' => exact h.elim
    | call q' k' => exact ⟨h.1, fun r => ih r (h.2 r)⟩

/-! ## With a server -/

/-- The program alone, with a server that answers its calls one after the other. -/
def serve (answer : σ → Q → σ × R) (s : S) : Prog S Q R α → σ → σ × α
  | done a, t => (t, a)
  | ask k, t => (k s).serve answer s t
  | call q k, t => (k (answer t q).2).serve answer s (answer t q).1

theorem serve_bind (answer : σ → Q → σ × R) (s : S) (p : Prog S Q R α) (f : α → Prog S Q R β)
    (t : σ) :
    (p >>= f).serve answer s t =
      (f (p.serve answer s t).2).serve answer s (p.serve answer s t).1 := by
  induction p generalizing t with
  | done a => rfl
  | ask k ih => exact ih s t
  | call q k ih => exact ih _ _

end Prog

/-! ## Pools -/

/-- Where a program of a pool stands. -/
inductive JobState (S Q R α : Type) where
  | running (p : Prog S Q R α)
  | waiting (k : R → Prog S Q R α)

/-- A program of a pool, with what it was started for. -/
structure Job (I S Q R α : Type) where
  owner : I
  state : JobState S Q R α

/-- The job is about to read the variable. -/
def Job.Asks {I S Q R α : Type} (job : Job I S Q R α) : Prop :=
  ∃ k, job.state = .running (.ask k)

structure Pool (I S Q R α : Type) where
  shared : S
  jobs : List (Job I S Q R α)
  sent : List (I × Q)

inductive PoolEvent (I R : Type) where
  | start (i : I)
  | step (n : Nat)
  | answer (n : Nat) (r : R)

namespace Pool

variable {I S Q R α : Type} (value : I → S) (program : I → Prog S Q R α)

/-- The job `n` goes on as `state`. -/
def put (pool : Pool I S Q R α) (n : Nat) (job : Job I S Q R α) (state : JobState S Q R α) :
    Pool I S Q R α :=
  { pool with jobs := pool.jobs.set n ⟨job.owner, state⟩ }

/-- What happens to a pool: a job starts and sets the variable, a job reads it or sends a request,
    or its reply comes. -/
def step (pool : Pool I S Q R α) : PoolEvent I R → Pool I S Q R α
  | .start i =>
    { pool with shared := value i, jobs := pool.jobs ++ [⟨i, .running (program i)⟩] }
  | .step n =>
    match pool.jobs[n]? with
    | some job =>
      match job.state with
      | .running (.ask k) => pool.put n job (.running (k pool.shared))
      | .running (.call q k) =>
        { pool.put n job (.waiting k) with sent := pool.sent ++ [(job.owner, q)] }
      | _ => pool
    | none => pool
  | .answer n r =>
    match pool.jobs[n]? with
    | some job =>
      match job.state with
      | .waiting k => pool.put n job (.running (k r))
      | _ => pool
    | none => pool

variable (P : I → Q → Prop)

/-- The jobs that have not read the variable expect the value that a new job sets. -/
def Apart (pool : Pool I S Q R α) (i : I) : Prop :=
  ∀ job ∈ pool.jobs, job.Asks → value job.owner = value i

/-- What the job may still send has the property, if it has read its value or will read it. -/
def Safe (shared : S) (job : Job I S Q R α) : Prop :=
  match job.state with
  | .running (.ask k) => shared = value job.owner ∧ (k (value job.owner)).Sends (P job.owner)
  | .running p => p.Sends (P job.owner)
  | .waiting k => ∀ r, (k r).Sends (P job.owner)

/-- All jobs are safe, and all that was sent has the property. -/
structure Inv (pool : Pool I S Q R α) : Prop where
  safe : ∀ job ∈ pool.jobs, Safe value P pool.shared job
  sent : ∀ e ∈ pool.sent, P e.1 e.2

variable {value program P} {pool : Pool I S Q R α} {n : Nat} {i : I} {job : Job I S Q R α}
  {p : Prog S Q R α} {shared : S}

theorem safe_of_sends (h : p.Sends (P i)) : Safe value P shared ⟨i, .running p⟩ := by
  cases p with
  | done a => trivial
  | ask k => exact h.elim
  | call q k => exact h

theorem safe_of_ready (h : p.Ready (value i) (P i)) : Safe value P (value i) ⟨i, .running p⟩ := by
  cases p with
  | done a => trivial
  | ask k => exact ⟨rfl, h⟩
  | call q k => exact h

/-- Setting the variable harms no job that expects the same value. -/
theorem safe_of_shared {shared' : S} (h : Safe value P shared job)
    (hasks : job.Asks → shared' = value job.owner) : Safe value P shared' job := by
  obtain ⟨i, state⟩ := job
  cases state with
  | waiting k => exact h
  | running p =>
    cases p with
    | done a => trivial
    | ask k => exact ⟨hasks ⟨k, rfl⟩, h.2⟩
    | call q k => exact h

section

variable (h : Inv value P pool)

include h

theorem inv_put {state : JobState S Q R α} (hsafe : Safe value P pool.shared ⟨job.owner, state⟩) :
    Inv value P (pool.put n job state) := by
  refine ⟨fun j hj => ?_, h.sent⟩
  rcases List.mem_or_eq_of_mem_set hj with hj | rfl
  · exact h.safe j hj
  · exact hsafe

theorem inv_start (hapart : Apart value pool i) (hready : (program i).Ready (value i) (P i)) :
    Inv value P (step value program pool (.start i)) := by
  refine ⟨fun job hjob => ?_, h.sent⟩
  rcases List.mem_append.mp hjob with hold | hnew
  · exact safe_of_shared (h.safe job hold) fun hasks => (hapart job hold hasks).symm
  · obtain rfl := List.mem_singleton.mp hnew
    exact safe_of_ready hready

theorem inv_step : Inv value P (step value program pool (.step n)) := by
  unfold step
  dsimp only
  split
  · next job hjob =>
    have hsafe := h.safe job (List.mem_of_getElem? hjob)
    unfold Safe at hsafe
    split
    · next k hstate =>
      rw [hstate] at hsafe
      refine inv_put h (safe_of_sends ?_)
      rw [hsafe.1]
      exact hsafe.2
    · next q k hstate =>
      rw [hstate] at hsafe
      have hput : Inv value P (pool.put n job (.waiting k)) := inv_put h hsafe.2
      refine ⟨hput.safe, fun e he => ?_⟩
      rcases List.mem_append.mp he with hold | hnew
      · exact h.sent e hold
      · obtain rfl := List.mem_singleton.mp hnew
        exact hsafe.1
    · exact h
  · exact h

theorem inv_answer {r : R} : Inv value P (step value program pool (.answer n r)) := by
  unfold step
  dsimp only
  split
  · next job hjob =>
    have hsafe := h.safe job (List.mem_of_getElem? hjob)
    unfold Safe at hsafe
    split
    · next k hstate =>
      rw [hstate] at hsafe
      exact inv_put h (safe_of_sends (hsafe r))
    · exact h
  · exact h

end

theorem pool_sent {G : Pool I S Q R α → PoolEvent I R → Prop}
    (hG : ∀ pool i, G pool (.start i) → Apart value pool i ∧ (program i).Ready (value i) (P i))
    {events : List (PoolEvent I R)} (h0 : Inv value P pool)
    (hg : Guarded (step value program) G pool events) :
    ∀ e ∈ (run (step value program) pool events).sent, P e.1 e.2 := by
  refine (guarded_invariant (fun pool event hinv hguard => ?_) h0 hg).sent
  cases event with
  | start i =>
    obtain ⟨hapart, hready⟩ := hG pool i hguard
    exact inv_start hinv hapart hready
  | step n => exact inv_step hinv
  | answer n r => exact inv_answer hinv

end Pool

end Avix.Lib
