import Mathlib.Tactic

set_option autoImplicit false

/-! # Decimal digits as bytes

Decimal numerals over byte strings: the shortest numeral of a number (`decimal`), the
numeral padded to a fixed width (`fixed`), and the value of a digit string
(`digitsValue?`). Both numerals read back to the number they were written from
(`digitsValue?_decimal`, `digitsValue?_fixed`).
-/

namespace Decimal

open List

abbrev Bytes := List UInt8

/-- The ASCII digit of `d`, for `d < 10`. -/
def digit (d : Nat) : UInt8 := UInt8.ofNat (48 + d)

def isDigit (b : UInt8) : Bool := 48 ≤ b.toNat && b.toNat ≤ 57

def digit? (b : UInt8) : Option Nat := if isDigit b then some (b.toNat - 48) else none

/-- The value of a list of digits, most significant first. -/
def value (l : List Nat) : Nat := l.foldl (fun a d => 10 * a + d) 0

/-- The value of a string of ASCII digits; `none` as soon as a byte is no digit. -/
def digitsValue? (s : Bytes) : Option Nat := (s.mapM digit?).map value

variable {d n k : Nat}

theorem digit_toNat (h : d < 10) : (digit d).toNat = 48 + d := by
  simp only [digit, UInt8.toNat_ofNat']
  omega

theorem isDigit_digit (h : d < 10) : isDigit (digit d) = true := by
  simp only [isDigit, digit_toNat h, Bool.and_eq_true, decide_eq_true_eq]
  omega

theorem digit?_digit (h : d < 10) : digit? (digit d) = some d := by
  rw [digit?, if_pos (isDigit_digit h), digit_toNat h]
  congr 1
  omega

/-! ## Values -/

@[simp] theorem value_nil : value [] = 0 := rfl

theorem value_append_singleton (l : List Nat) (d : Nat) : value (l ++ [d]) = 10 * value l + d := by
  simp [value]

theorem value_append_zeros (l : List Nat) (k : Nat) :
    value (l ++ .replicate k 0) = value l * 10 ^ k := by
  induction k with
  | zero => simp
  | succ k ih =>
    rw [replicate_succ', ← append_assoc, value_append_singleton, ih]
    ring

theorem value_reverse_digits (n : Nat) : value (Nat.digits 10 n).reverse = n := by
  have h : ∀ l, value l.reverse = .ofDigits 10 l := by
    intro l
    rw [value, foldl_reverse, Nat.ofDigits_eq_foldr]
    congr 1
    funext x y
    simp
    omega
  rw [h, Nat.ofDigits_digits]

variable {l : List Nat}

theorem mapM_digit?_map_digit (h : ∀ d ∈ l, d < 10) : (l.map digit).mapM digit? = some l := by
  induction l with
  | nil => rfl
  | cons d t ih =>
    rw [map_cons, mapM_cons, digit?_digit (h d (by simp)),
      ih fun e he => h e (by simp [he])]
    rfl

theorem digitsValue?_map_digit (h : ∀ d ∈ l, d < 10) :
    digitsValue? (l.map digit) = some (value l) := by
  rw [digitsValue?, mapM_digit?_map_digit h]
  rfl

/-! ## The shortest numeral -/

/-- The digits of `n`, most significant first, without leading zeros; `0` is `[0]`. -/
def digitsOf (n : Nat) : List Nat := if n = 0 then [0] else (Nat.digits 10 n).reverse

/-- The shortest decimal numeral of `n`. -/
def decimal (n : Nat) : Bytes := (digitsOf n).map digit

theorem digitsOf_lt (n : Nat) : ∀ d ∈ digitsOf n, d < 10 := by
  intro d hd
  unfold digitsOf at hd
  split at hd
  · simp only [mem_singleton] at hd
    omega
  · exact Nat.digits_lt_base (by omega) (List.mem_reverse.mp hd)

theorem value_digitsOf (n : Nat) : value (digitsOf n) = n := by
  unfold digitsOf
  split
  · next h => subst h; rfl
  · exact value_reverse_digits n

theorem digitsOf_ne_nil (n : Nat) : digitsOf n ≠ [] := by
  unfold digitsOf
  split
  · simp
  · next h =>
      intro hnil
      rw [reverse_eq_nil_iff, Nat.digits_eq_nil_iff_eq_zero] at hnil
      exact h hnil

/-- A numeral of two digits or more does not start with `0`. -/
theorem digitsOf_head {t} (h : digitsOf n = d :: t) (hd : d = 0) : t = [] := by
  unfold digitsOf at h
  split at h
  · simp only [List.cons.injEq] at h
    exact h.2.symm
  next hn =>
    have hlast := Nat.getLast_digit_ne_zero 10 hn
    exfalso
    apply hlast
    have hrev : Nat.digits 10 n = t.reverse ++ [d] := by
      rw [← reverse_reverse (Nat.digits 10 n), h, reverse_cons]
    simp only [hrev, getLast_append_singleton]
    exact hd

theorem digitsOf_length_le (hk : 0 < k) (h : n < 10 ^ k) : (digitsOf n).length ≤ k := by
  unfold digitsOf
  split
  · exact hk
  · rw [length_reverse]
    exact (Nat.digits_length_le_iff (by omega) n).mpr h

theorem digitsValue?_decimal (n : Nat) : digitsValue? (decimal n) = some n := by
  rw [decimal, digitsValue?_map_digit (digitsOf_lt n), value_digitsOf]

theorem decimal_isDigit (n : Nat) : ∀ b ∈ decimal n, isDigit b = true := by
  intro b hb
  obtain ⟨d, hd, rfl⟩ := List.mem_map.mp hb
  exact isDigit_digit (digitsOf_lt n d hd)

theorem decimal_length_le (hk : 0 < k) (h : n < 10 ^ k) : (decimal n).length ≤ k := by
  rw [decimal, length_map]
  exact digitsOf_length_le hk h

/-! ## Numerals of fixed width -/

/-- The last `k` digits of `n`, most significant first. -/
def fixedDigits : Nat → Nat → List Nat
  | 0, _ => []
  | k + 1, n => fixedDigits k (n / 10) ++ [n % 10]

/-- The last `k` digits of `n` as a numeral, padded with zeros. -/
def fixed (k n : Nat) : Bytes := (fixedDigits k n).map digit

theorem fixedDigits_lt : ∀ (k n : Nat), ∀ d ∈ fixedDigits k n, d < 10
  | 0, _ => by simp [fixedDigits]
  | k + 1, n => by
      intro d hd
      rcases List.mem_append.mp hd with hd | hd
      · exact fixedDigits_lt k _ d hd
      · simp only [mem_singleton] at hd
        omega

@[simp] theorem fixedDigits_length (k n : Nat) : (fixedDigits k n).length = k := by
  induction k generalizing n with
  | zero => rfl
  | succ k ih => simp [fixedDigits, ih]

@[simp] theorem fixed_length (k n : Nat) : (fixed k n).length = k := by
  simp [fixed]

theorem value_fixedDigits (h : n < 10 ^ k) : value (fixedDigits k n) = n := by
  induction k generalizing n with
  | zero =>
    simp only [pow_zero, Nat.lt_one_iff] at h
    subst h
    rfl
  | succ k ih =>
    have hdiv : n / 10 < 10 ^ k := by
      rw [Nat.div_lt_iff_lt_mul (by omega)]
      rwa [pow_succ] at h
    rw [fixedDigits, value_append_singleton, ih hdiv]
    omega

theorem digitsValue?_fixed (h : n < 10 ^ k) : digitsValue? (fixed k n) = some n := by
  rw [fixed, digitsValue?_map_digit (fixedDigits_lt k n), value_fixedDigits h]

theorem fixed_two (n : Nat) : fixed 2 n = [digit (n / 10 % 10), digit (n % 10)] := by
  simp [fixed, fixedDigits]

theorem fixed_four (n : Nat) :
    fixed 4 n =
      [digit (n / 1000 % 10), digit (n / 100 % 10), digit (n / 10 % 10), digit (n % 10)] := by
  simp [fixed, fixedDigits, Nat.div_div_eq_div_mul]

end Decimal
