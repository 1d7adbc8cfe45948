import Mathlib.Data.List.Basic

set_option autoImplicit false

/-! # Bytes as hexadecimal digits -/

namespace Hex

/-- The codes of the lower-case hexadecimal digits. -/
def isLower (n : Nat) : Bool := (48 ≤ n && n ≤ 57) || (97 ≤ n && n ≤ 102)

def isDigit (c : Char) : Bool := isLower c.toNat

def digits (b : UInt8) : List Char :=
  [Nat.digitChar (b.toNat / 16), Nat.digitChar (b.toNat % 16)]

def text (bytes : List UInt8) : String := String.ofList (bytes.flatMap digits)

theorem isDigit_digitChar {n : Nat} (h : n < 16) : isDigit (Nat.digitChar n) = true := by
  have hall : ∀ m : Fin 16, isDigit (Nat.digitChar m) = true := by decide
  exact hall ⟨n, h⟩

theorem isDigit_of_mem_digits {b c} (h : c ∈ digits b) : isDigit c = true := by
  have hb := b.toNat_lt
  rcases List.mem_cons.1 h with rfl | h
  · exact isDigit_digitChar (by omega)
  · rw [List.mem_singleton] at h
    rw [h]
    exact isDigit_digitChar (by omega)

theorem all_toList_text (bytes : List UInt8) : (text bytes).toList.all isDigit = true := by
  rw [text, String.toList_ofList, List.all_eq_true]
  intro c hc
  obtain ⟨b, -, hb⟩ := List.mem_flatMap.1 hc
  exact isDigit_of_mem_digits hb

theorem length_toList_text (bytes : List UInt8) :
    (text bytes).toList.length = 2 * bytes.length := by
  rw [text, String.toList_ofList]
  induction bytes with
  | nil => rfl
  | cons =>
    rw [List.flatMap_cons, List.length_append]
    simp only [digits, List.length_cons, List.length_nil]
    omega

end Hex
