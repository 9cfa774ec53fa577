/-
  JSON values (`serde_json::Value`).

  An object is the list of its members in key order, as `serde_json` keeps them by default
  (a `BTreeMap`). `Json.insertKey` is the map's `insert`. Numbers are integers or rationals.
-/
import Avix.Types.Basic

namespace Avix

open List

inductive Json where
  | null
  | bool (b : Bool)
  | int (n : Int)
  | float (q : ℚ)
  | string (s : String)
  | array (items : List Json)
  | object (members : List (String × Json))

namespace Json

/-- `Map::insert` on members in key order. -/
def insertKey (key : String) (value : Json) : List (String × Json) → List (String × Json)
  | [] => [(key, value)]
  | (k, v) :: rest =>
    if k = key then (key, value) :: rest
    else if key < k then (key, value) :: (k, v) :: rest
    else (k, v) :: insertKey key value rest

/-- `json!({ .. })`. -/
def ofMembers (members : List (String × Json)) : Json :=
  object (members.foldl (fun acc m => insertKey m.1 m.2 acc) [])

/-- `Value::get` with a string: `none` for a value that is not an object. -/
def get? (key : String) : Json → Option Json
  | object members => members.lookup key
  | _ => none

/-- `value[key]`: `null` for a missing key and for a value that is not an object. -/
def index (j : Json) (key : String) : Json := (j.get? key).getD null

/-- `value[key] = new`: `null` becomes an object; any other value that is not one panics. -/
def setIndex (j : Json) (key : String) (new : Json) : Option Json :=
  match j with
  | null => some (ofMembers [(key, new)])
  | object members => some (object (insertKey key new members))
  | _ => none

/-- `Value::is_number`. -/
def isNumber : Json → Bool
  | int _ => true
  | float _ => true
  | _ => false

/-- `Value::as_str`. -/
def asStr : Json → Option String
  | string s => some s
  | _ => none

/-- `Value::as_bool`. -/
def asBool : Json → Option Bool
  | bool b => some b
  | _ => none

def asU64 : Json → Option UInt64
  | int n => if 0 ≤ n ∧ n < 2 ^ 64 then some (UInt64.ofNat n.toNat) else none
  | _ => none

/-- `Value::as_array`. -/
def asArray : Json → Option (List Json)
  | array items => some items
  | _ => none

theorem lookup_insertKey (key : String) (value : Json) (members : List (String × Json)) :
    (insertKey key value members).lookup key = some value := by
  induction members with
  | nil => simp [insertKey]
  | cons m rest ih =>
    obtain ⟨k, v⟩ := m
    unfold insertKey
    split_ifs with h1 h2
    · simp
    · simp
    · rw [lookup_cons, beq_false_of_ne (Ne.symm h1)]
      exact ih

variable {key key' : String}

theorem lookup_insertKey_ne (h : key' ≠ key) (value : Json) (members : List (String × Json)) :
    (insertKey key value members).lookup key' = members.lookup key' := by
  induction members with
  | nil => simp [insertKey, h]
  | cons m rest ih =>
    obtain ⟨k, v⟩ := m
    unfold insertKey
    split_ifs with h1 h2
    · subst h1
      simp [lookup_cons, beq_false_of_ne h]
    · simp [lookup_cons, beq_false_of_ne h]
    · simp [lookup_cons, ih]

@[simp]
theorem index_insertKey (key : String) (value : Json) (members : List (String × Json)) :
    (object (insertKey key value members)).index key = value := by
  rw [index, get?, lookup_insertKey, Option.getD_some]

@[simp]
theorem index_insertKey_ne (h : key' ≠ key) (value : Json) (members : List (String × Json)) :
    (object (insertKey key value members)).index key' = (object members).index key' := by
  rw [index, get?, lookup_insertKey_ne h]
  rfl

/-- The last member of a key counts. -/
theorem get?_ofMembers (key : String) (members : List (String × Json)) :
    (ofMembers members).get? key = members.reverse.lookup key := by
  induction members using reverseRecOn with
  | nil => rfl
  | append_singleton members m ih =>
    have hstep : (ofMembers (members ++ [m])).get? key =
        (insertKey m.1 m.2 (members.foldl (fun acc m => insertKey m.1 m.2 acc) [])).lookup key := by
      simp [ofMembers, get?]
    rw [hstep, reverse_append, reverse_singleton, singleton_append]
    by_cases hkey : key = m.1
    · rw [hkey, lookup_insertKey, lookup_cons_self]
    · rw [lookup_insertKey_ne hkey, lookup_cons, beq_false_of_ne hkey]
      exact ih

theorem index_ofMembers (key : String) (members : List (String × Json)) :
    (ofMembers members).index key = (members.reverse.lookup key).getD null := by
  rw [index, get?_ofMembers]

theorem setIndex_eq_some {j j' : Json} {new : Json} (h : j.setIndex key new = some j') :
    j'.index key = new ∧ ∀ key' ≠ key, j'.index key' = j.index key' := by
  unfold setIndex at h
  split at h
  · cases h
    refine ⟨by simp [index_ofMembers], fun key' hkey => ?_⟩
    rw [index_ofMembers]
    simp [lookup_cons, beq_false_of_ne hkey, index, get?]
  · cases h
    exact ⟨index_insertKey _ _ _, fun key' hkey => index_insertKey_ne hkey _ _⟩
  · cases h

end Json

end Avix
