import PrivateVm.Basic.Decimal
import Mathlib.Data.String.Basic

set_option autoImplicit false

/-! # Byte strings as UTF-8

`runes` reads a byte string, with `none` for each byte that begins no character. A byte string is
valid when it is the bytes of a text.
-/

namespace Utf8

open Decimal List

def utf8 (text : String) : Bytes := text.toUTF8.data.toList

/-- The bytes of some text. -/
def Valid (value : Bytes) : Prop := ∃ text : String, value = utf8 text

theorem valid_utf8 (text : String) : Valid (utf8 text) := ⟨text, rfl⟩

theorem utf8_ofList (l : List Char) : utf8 (.ofList l) = l.flatMap String.utf8EncodeChar := by
  simp [utf8, List.utf8Encode]

theorem utf8_eq_flatMap (text : String) :
    utf8 text = text.toList.flatMap String.utf8EncodeChar := by
  rw [← utf8_ofList, String.ofList_toList]

/-! ## Reading one character -/

/-- What the first byte of a character outside ASCII says: how many bytes follow, its own bits,
and the range of the byte after it. -/
def lead (b : UInt8) : Option (Nat × Nat × Nat × Nat) :=
  let n := b.toNat
  if n < 0xC2 then none
  else if n < 0xE0 then some (1, n - 0xC0, 0x80, 0xBF)
  else if n = 0xE0 then some (2, n - 0xE0, 0xA0, 0xBF)
  else if n = 0xED then some (2, n - 0xE0, 0x80, 0x9F)
  else if n < 0xF0 then some (2, n - 0xE0, 0x80, 0xBF)
  else if n = 0xF0 then some (3, n - 0xF0, 0x90, 0xBF)
  else if n < 0xF4 then some (3, n - 0xF0, 0x80, 0xBF)
  else if n = 0xF4 then some (3, n - 0xF0, 0x80, 0x8F)
  else none

/-- The bytes that follow, the next of them within a range. -/
def continued : Nat → Nat → Nat → Nat → Bytes → Option (Char × Bytes)
  | 0, acc, _, _, rest => some (Char.ofNat acc, rest)
  | _ + 1, _, _, _, [] => none
  | need + 1, acc, lo, hi, b :: rest =>
    if lo ≤ b.toNat ∧ b.toNat ≤ hi then
      continued need (64 * acc + (b.toNat - 0x80)) 0x80 0xBF rest
    else none

/-- The character at the front of a byte string and what is left of the string. -/
def decodeRune : Bytes → Option (Char × Bytes)
  | [] => none
  | b :: rest =>
    if b.toNat < 0x80 then some (Char.ofNat b.toNat, rest)
    else (lead b).bind fun (need, acc, lo, hi) => continued need acc lo hi rest

/-- The characters of a byte string, read with fuel; a byte that begins none is `none`. -/
def runesFrom : Nat → Bytes → List (Option Char)
  | 0, _ => []
  | _ + 1, [] => []
  | fuel + 1, b :: rest =>
    match decodeRune (b :: rest) with
    | some (c, rest) => some c :: runesFrom fuel rest
    | none => none :: runesFrom fuel rest

def runes (value : Bytes) : List (Option Char) := runesFrom value.length value

/-! ## Valid strings -/

variable {n v : Nat}

theorem toNat_ofNat_lt (h : n < 256) : (UInt8.ofNat n).toNat = n := Nat.mod_eq_of_lt h

/-- The bytes of a character, by the size of its number. -/
theorem utf8EncodeChar_of_lt {c} (h : c.toNat < 0x80) :
    String.utf8EncodeChar c = [.ofNat c.toNat] := if_pos (Nat.lt_succ_iff.1 h)

variable {need acc lo hi : Nat} {value : Bytes}

theorem continued_cons (hlo : lo ≤ n) (hhi : n ≤ hi) (hn : n < 256) (rest : Bytes) :
    continued (need + 1) acc lo hi (.ofNat n :: rest) =
      continued need (64 * acc + (n - 0x80)) 0x80 0xBF rest := by
  rw [continued, toNat_ofNat_lt hn, if_pos ⟨hlo, hhi⟩]

theorem decodeRune_cons (h80 : 0x80 ≤ n) (hn : n < 256)
    (hlead : lead (.ofNat n) = some (need, acc, lo, hi)) (rest : Bytes) :
    decodeRune (.ofNat n :: rest) = continued need acc lo hi rest := by
  rw [decodeRune, toNat_ofNat_lt hn, if_neg (by omega), hlead]
  rfl

theorem decodeRune_two (h80 : 0x80 ≤ v) (h : v < 0x800) (rest : Bytes) :
    decodeRune (.ofNat (v / 64 % 32 + 192) :: .ofNat (v % 64 + 128) :: rest) =
      some (.ofNat v, rest) := by
  have hlead : lead (.ofNat (v / 64 % 32 + 192)) = some (1, v / 64, 0x80, 0xBF) := by
    simp only [lead, toNat_ofNat_lt (show v / 64 % 32 + 192 < 256 by omega)]
    rw [if_neg (by omega), if_pos (by omega)]
    have hacc : v / 64 % 32 + 192 - 0xC0 = v / 64 := by omega
    rw [hacc]
  have hsum : 64 * (v / 64) + (v % 64 + 128 - 0x80) = v := by omega
  rw [decodeRune_cons (by omega) (by omega) hlead,
    continued_cons (by omega) (by omega) (by omega), continued, hsum]

theorem decodeRune_three (h800 : 0x800 ≤ v) (h : v < 0x10000) (hs : v < 0xD800 ∨ 0xDFFF < v)
    (rest : Bytes) :
    decodeRune (.ofNat (v / 4096 % 16 + 224) :: .ofNat (v / 64 % 64 + 128) ::
        .ofNat (v % 64 + 128) :: rest) = some (.ofNat v, rest) := by
  -- the range of the second byte keeps out overlong forms and surrogates
  have hlead : ∃ lo hi, lead (.ofNat (v / 4096 % 16 + 224)) = some (2, v / 4096, lo, hi) ∧
      lo ≤ v / 64 % 64 + 128 ∧ v / 64 % 64 + 128 ≤ hi := by
    have hacc : v / 4096 % 16 + 224 - 0xE0 = v / 4096 := by omega
    simp only [lead, toNat_ofNat_lt (show v / 4096 % 16 + 224 < 256 by omega), hacc]
    split_ifs <;> first | omega | exact ⟨_, _, rfl, by omega, by omega⟩
  obtain ⟨lo, hi, hlead, hlo, hhi⟩ := hlead
  have hsum : 64 * (64 * (v / 4096) + (v / 64 % 64 + 128 - 0x80)) + (v % 64 + 128 - 0x80) = v := by
    omega
  rw [decodeRune_cons (by omega) (by omega) hlead, continued_cons hlo hhi (by omega),
    continued_cons (by omega) (by omega) (by omega), continued, hsum]

theorem decodeRune_four (h10000 : 0x10000 ≤ v) (h : v < 0x110000) (rest : Bytes) :
    decodeRune (.ofNat (v / 262144 % 8 + 240) :: .ofNat (v / 4096 % 64 + 128) ::
        .ofNat (v / 64 % 64 + 128) :: .ofNat (v % 64 + 128) :: rest) =
      some (.ofNat v, rest) := by
  have hlead : ∃ lo hi, lead (.ofNat (v / 262144 % 8 + 240)) = some (3, v / 262144, lo, hi) ∧
      lo ≤ v / 4096 % 64 + 128 ∧ v / 4096 % 64 + 128 ≤ hi := by
    have hacc : v / 262144 % 8 + 240 - 0xF0 = v / 262144 := by omega
    simp only [lead, toNat_ofNat_lt (show v / 262144 % 8 + 240 < 256 by omega), hacc]
    split_ifs <;> first | omega | exact ⟨_, _, rfl, by omega, by omega⟩
  obtain ⟨lo, hi, hlead, hlo, hhi⟩ := hlead
  have hsum : 64 * (64 * (64 * (v / 262144) + (v / 4096 % 64 + 128 - 0x80)) +
      (v / 64 % 64 + 128 - 0x80)) + (v % 64 + 128 - 0x80) = v := by omega
  rw [decodeRune_cons (by omega) (by omega) hlead, continued_cons hlo hhi (by omega),
    continued_cons (by omega) (by omega) (by omega),
    continued_cons (by omega) (by omega) (by omega), continued, hsum]

/-- **The bytes of a character are read as that character.** -/
theorem decodeRune_utf8EncodeChar (c : Char) (rest : Bytes) :
    decodeRune (String.utf8EncodeChar c ++ rest) = some (c, rest) := by
  have hval : c.toNat < 0xD800 ∨ 0xDFFF < c.toNat ∧ c.toNat < 0x110000 := c.valid
  have hback : .ofNat c.toNat = c := Char.ofNat_toNat c
  by_cases h80 : c.toNat < 0x80
  · rw [utf8EncodeChar_of_lt h80, cons_append, nil_append, decodeRune,
      toNat_ofNat_lt (by omega), if_pos h80, hback]
  have hnat : c.val.toNat = c.toNat := rfl
  have hrest : some (c, rest) = some (.ofNat c.toNat, rest) := by rw [hback]
  unfold String.utf8EncodeChar
  rw [hnat, if_neg (by omega), hrest]
  generalize c.toNat = v at hval h80
  split_ifs
  · exact decodeRune_two (by omega) (by omega) rest
  · exact decodeRune_three (by omega) (by omega) (by omega) rest
  · exact decodeRune_four (by omega) (by omega) rest

theorem runesFrom_flatMap {l : List Char} {fuel : Nat}
    (h : (l.flatMap String.utf8EncodeChar).length ≤ fuel) :
    runesFrom fuel (l.flatMap String.utf8EncodeChar) = l.map some := by
  induction l generalizing fuel with
  | nil => cases fuel <;> rfl
  | cons c l ih =>
    have hrune := decodeRune_utf8EncodeChar c (l.flatMap String.utf8EncodeChar)
    rw [flatMap_cons] at h ⊢
    obtain ⟨b, bs, hb⟩ := exists_cons_of_ne_nil (@String.utf8EncodeChar_ne_nil c)
    rw [hb, cons_append] at h hrune ⊢
    cases fuel with
    | zero => simp at h
    | succ fuel =>
      rw [length_cons, length_append] at h
      have hrest := @ih fuel (by omega)
      simp only [runesFrom, hrune, hrest, map_cons]

theorem valid_nil : Valid [] := ⟨"", rfl⟩

theorem Valid.append {value'} (h : Valid value) (h' : Valid value') : Valid (value ++ value') := by
  obtain ⟨text, rfl⟩ := h
  obtain ⟨text', rfl⟩ := h'
  refine ⟨.ofList (text.toList ++ text'.toList), ?_⟩
  rw [utf8_ofList, flatMap_append, ← utf8_eq_flatMap, ← utf8_eq_flatMap]

theorem toNat_ofNat_ascii : ∀ n < 0x80, (Char.ofNat n).toNat = n := by decide

theorem valid_ascii (h : ∀ b ∈ value, b.toNat < 0x80) : Valid value := by
  induction value with
  | nil => exact valid_nil
  | cons b value ih =>
    obtain ⟨hb, hvalue⟩ := forall_mem_cons.1 h
    have hc := toNat_ofNat_ascii _ hb
    have hsing : Valid [b] := by
      refine ⟨.ofList [.ofNat b.toNat], ?_⟩
      rw [utf8_ofList, flatMap_singleton, utf8EncodeChar_of_lt (by omega), hc,
        UInt8.ofNat_toNat]
    exact hsing.append (ih hvalue)

/-- The characters of a valid string are those of its text. -/
theorem runes_utf8 (text : String) : runes (utf8 text) = text.toList.map some := by
  rw [utf8_eq_flatMap]
  exact runesFrom_flatMap (Nat.le_refl _)

end Utf8
