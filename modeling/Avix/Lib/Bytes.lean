/-
  Byte strings: the UTF-8 bytes of a string, lower-case hexadecimal, and decimal
  numerals. Each coding is injective, and decimals contain no separator.
-/
import Mathlib

namespace Avix.Lib

/-- A byte vector. -/
abbrev Bytes := List UInt8

/-- The UTF-8 bytes of a string. -/
def utf8 (s : String) : Bytes := s.toByteArray.data.toList

theorem utf8_injective : Function.Injective utf8 := by
  intro s t h
  unfold utf8 at h
  rw [Array.toList_inj] at h
  exact String.toByteArray_inj.mp (ByteArray.ext h)

/-- `std::str::from_utf8`. -/
def fromUtf8 (bytes : Bytes) : Option String := String.fromUTF8? ⟨bytes.toArray⟩

theorem fromUtf8_utf8 (s : String) : fromUtf8 (utf8 s) = some s := by
  have harr : (⟨(utf8 s).toArray⟩ : ByteArray) = s.toByteArray := by
    simp [utf8]
  have hvalid : s.toByteArray.IsValidUTF8 := s.isValidUTF8
  unfold fromUtf8 String.fromUTF8?
  rw [harr, dif_pos hvalid]
  rfl

/-! ## Hexadecimal -/

/-- The lower-case hexadecimal digit of a nibble. -/
def hexDigit (n : Nat) : Char :=
  if n < 10 then Char.ofNat (48 + n) else Char.ofNat (87 + n)

/-- Two digits a byte, high nibble first. -/
def hexEncode : Bytes → List Char
  | [] => []
  | b :: bs => hexDigit (b.toNat / 16) :: hexDigit (b.toNat % 16) :: hexEncode bs

theorem hexDigit_inj : ∀ m < 16, ∀ n < 16, hexDigit m = hexDigit n → m = n := by decide

theorem hexEncode_injective : Function.Injective hexEncode := by
  intro xs
  induction xs with
  | nil =>
    intro ys h
    cases ys with
    | nil => rfl
    | cons y ys => simp [hexEncode] at h
  | cons x xs ih =>
    intro ys h
    cases ys with
    | nil => simp [hexEncode] at h
    | cons y ys =>
      simp only [hexEncode, List.cons.injEq] at h
      obtain ⟨hhi, hlo, hrest⟩ := h
      have hx := x.toNat_lt
      have hy := y.toNat_lt
      have hdiv := hexDigit_inj _ (by omega) _ (by omega) hhi
      have hmod := hexDigit_inj _ (Nat.mod_lt _ (by decide)) _ (Nat.mod_lt _ (by decide)) hlo
      rw [UInt8.toNat_inj.mp (show x.toNat = y.toNat by omega), ih hrest]

/-! ## Decimals -/

/-- The characters of a decimal numeral are digits, after an optional minus sign. -/
theorem mem_toString_int {n : Int} {c : Char} (h : c ∈ (toString n).toList) :
    c = '-' ∨ c.isDigit = true := by
  have hn : toString n = Int.repr n := rfl
  rw [hn] at h
  cases n with
  | ofNat m =>
    right
    simp only [Int.repr, Nat.toList_repr] at h
    exact Nat.isDigit_of_mem_toDigits (by decide) (by decide) h
  | negSucc m =>
    simp only [Int.repr, String.toList_append, List.mem_append, Nat.toList_repr] at h
    rcases h with h | h
    · left
      simpa using h
    · right
      exact Nat.isDigit_of_mem_toDigits (by decide) (by decide) h

theorem bar_not_mem_toString_int (n : Int) : '|' ∉ (toString n).toList := by
  intro h
  rcases mem_toString_int h with h | h <;> exact absurd h (by decide)

end Avix.Lib
