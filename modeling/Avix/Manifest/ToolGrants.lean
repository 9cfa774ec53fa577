/-
  SECURITY — the tools that the manifest of an agent is granted (`agent_manifest/resolver.rs`).

  `tool_grants_exact`: `ToolGrantResolver::resolve` succeeds exactly when every required
  tool is permitted, that is allowed and not denied. It then grants the permitted tools of the
  manifest and the built-in ones. The grants grow with the manifest and the allowed tools and shrink
  with the denied ones, so neither order nor repetition matters to them.

  The loops over the optional and the built-in tools skip what is granted already. The loop over the
  required tools does not, so the list has a name twice exactly when the manifest requires one twice
  (`required_twice_granted_twice`).
-/
import Avix.Types.Basic

namespace Avix

structure ManifestTools where
  required : List String
  optional : List String

structure UserToolPermissions where
  allowedTools : List String
  deniedTools : List String

def UserToolPermissions.Permits (p : UserToolPermissions) (tool : String) : Prop :=
  tool ∈ p.allowedTools ∧ tool ∉ p.deniedTools

namespace ToolGrantResolver

/-- `ALWAYS_GRANTED`. -/
def alwaysGranted : List String := ["cap/request-tool", "cap/escalate", "cap/list", "job/watch"]

/-- The loop over the required tools. -/
def pushRequired (permitted : List String) (agentName : String) (granted : List String) :
    List String → Except AvixError (List String)
  | [] => .ok granted
  | tool :: tools =>
    if permitted.contains tool then pushRequired permitted agentName (granted ++ [tool]) tools
    else .error (.requiredToolDenied tool agentName)

/-- The other two loops. -/
def pushNew (granted tools : List String) : List String :=
  tools.foldl (fun granted tool => if granted.contains tool then granted else granted ++ [tool])
    granted

def resolve (manifestTools : ManifestTools) (userPermissions : UserToolPermissions)
    (agentName : String) : Except AvixError (List String) := do
  let permitted :=
    userPermissions.allowedTools.filter (!userPermissions.deniedTools.contains ·)
  let granted ← pushRequired permitted agentName [] manifestTools.required
  return pushNew (pushNew granted (manifestTools.optional.filter permitted.contains)) alwaysGranted

/-! ## The loops -/

theorem pushRequired_eq_ok_iff {permitted granted' : List String} {agentName : String}
    (tools : List String) : ∀ granted,
    pushRequired permitted agentName granted tools = .ok granted' ↔
      (∀ tool ∈ tools, tool ∈ permitted) ∧ granted' = granted ++ tools := by
  induction tools with
  | nil => simp [pushRequired, eq_comm]
  | cons tool tools ih =>
    intro granted
    unfold pushRequired
    by_cases h : tool ∈ permitted
    · simp [h, ih]
    · simp [h]

theorem pushNew_spec (tools : List String) : ∀ granted,
    (∀ t, t ∈ pushNew granted tools ↔ t ∈ granted ∨ t ∈ tools) ∧
      ((pushNew granted tools).Nodup ↔ granted.Nodup) := by
  induction tools with
  | nil => simp [pushNew]
  | cons tool tools ih =>
    intro granted
    have hcons : pushNew granted (tool :: tools) =
        pushNew (if granted.contains tool then granted else granted ++ [tool]) tools := rfl
    rw [hcons]
    by_cases h : tool ∈ granted
    · rw [if_pos (List.contains_iff_mem.mpr h), (ih granted).2]
      have heq : ∀ t, t = tool → t ∈ granted := fun t ht => ht ▸ h
      simp only [ih, List.mem_cons]
      grind
    · rw [if_neg (List.contains_iff_mem.not.mpr h), (ih _).2]
      have hne : ∀ t ∈ granted, t ≠ tool := fun t ht heq => h (heq ▸ ht)
      simpa [ih, List.nodup_append, or_assoc] using fun _ => hne

variable {m : ManifestTools} {p : UserToolPermissions} {agentName : String} {granted : List String}

theorem mem_permitted (t : String) :
    t ∈ p.allowedTools.filter (!p.deniedTools.contains ·) ↔ p.Permits t := by
  simp [UserToolPermissions.Permits]

theorem resolve_eq_ok_iff : resolve m p agentName = .ok granted ↔
    (∀ t ∈ m.required, p.Permits t) ∧ granted = pushNew (pushNew m.required
      (m.optional.filter (p.allowedTools.filter (!p.deniedTools.contains ·)).contains))
      alwaysGranted := by
  unfold resolve
  rw [bind_eq_ok_iff]
  simp only [pushRequired_eq_ok_iff, List.nil_append, mem_permitted]
  constructor
  · rintro ⟨_, ⟨hall, rfl⟩, hgran⟩
    exact ⟨hall, (Except.ok.inj hgran).symm⟩
  · rintro ⟨hall, rfl⟩
    exact ⟨_, ⟨hall, rfl⟩, rfl⟩

theorem mem_granted_iff (h : resolve m p agentName = .ok granted) (t : String) : t ∈ granted ↔
    ((t ∈ m.required ∨ t ∈ m.optional) ∧ p.Permits t) ∨ t ∈ alwaysGranted := by
  obtain ⟨hall, rfl⟩ := resolve_eq_ok_iff.mp h
  rw [(pushNew_spec _ _).1, (pushNew_spec _ _).1, List.mem_filter, List.contains_iff_mem,
    mem_permitted, or_and_right, and_iff_left_of_imp (hall t)]

theorem nodup_granted_iff (h : resolve m p agentName = .ok granted) :
    granted.Nodup ↔ m.required.Nodup := by
  obtain ⟨-, rfl⟩ := resolve_eq_ok_iff.mp h
  rw [(pushNew_spec _ _).2, (pushNew_spec _ _).2]

/-! ## Main statement -/

theorem tool_grants_exact (m : ManifestTools) (p : UserToolPermissions) (agentName : String) :
    ((∃ granted, resolve m p agentName = .ok granted) ↔ ∀ t ∈ m.required, p.Permits t) ∧
      ∀ granted, resolve m p agentName = .ok granted → (∀ t, t ∈ granted ↔
          ((t ∈ m.required ∨ t ∈ m.optional) ∧ p.Permits t) ∨ t ∈ alwaysGranted) ∧
        (granted.Nodup ↔ m.required.Nodup) ∧
        ∀ m' p' agentName' granted', resolve m' p' agentName' = .ok granted' →
          m.required ++ m.optional ⊆ m'.required ++ m'.optional →
          p.allowedTools ⊆ p'.allowedTools → p'.deniedTools ⊆ p.deniedTools →
          granted ⊆ granted' := by
  refine ⟨⟨fun ⟨_, h⟩ => (resolve_eq_ok_iff.mp h).1, fun h => ⟨_, resolve_eq_ok_iff.mpr ⟨h, rfl⟩⟩⟩,
    fun granted h => ⟨mem_granted_iff h, nodup_granted_iff h, ?_⟩⟩
  intro m' p' agentName' granted' h' htools hall hdenied t ht
  rw [mem_granted_iff h, ← List.mem_append] at ht
  rw [mem_granted_iff h', ← List.mem_append]
  refine ht.imp_left fun ⟨hmem, hperm⟩ => ⟨htools hmem, hall hperm.1, fun hden => ?_⟩
  exact hperm.2 (hdenied hden)

theorem required_twice_granted_twice : ∃ granted,
    resolve ⟨["fs/read", "fs/read"], []⟩ ⟨["fs/read"], []⟩ "coder" = .ok granted ∧
      ¬ granted.Nodup :=
  ⟨_, rfl, by decide⟩

end ToolGrantResolver

end Avix
