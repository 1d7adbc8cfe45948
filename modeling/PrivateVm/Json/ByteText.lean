import PrivateVm.Basic.Utf8
import PrivateVm.Json.Text

set_option autoImplicit false

/-! # JSON strings of arbitrary bytes

`quoteBytes` puts the escape of the replacement character in the place of each byte that begins no
character, so that only valid UTF-8 survives (`utf8_unquote_quoteBytes`, `mend_eq_self`).
-/

namespace Json

open Decimal Utf8 List

/-- What is written for a character, and for a byte that begins none. -/
def quoteRune : Option Char → Bytes
  | some c => quoteChar c
  | none => unicodeEscape 0xFFFD

def quoteBytes (value : Bytes) : Bytes := (runes value).flatMap quoteRune

/-- A byte string with each malformed byte replaced. -/
def mend (value : Bytes) : Bytes :=
  utf8 (String.ofList ((runes value).map (·.getD replacement)))

theorem mend_utf8 (text : String) : mend (utf8 text) = utf8 text := by
  have hmap : (text.toList.map some).map (·.getD replacement) = text.toList := by simp
  rw [mend, runes_utf8, hmap, String.ofList_toList]

/-- **Replacing changes exactly the strings that are not valid.** -/
theorem mend_eq_self {value} : mend value = value ↔ Valid value := by
  constructor
  · intro h
    exact ⟨_, h.symm⟩
  · rintro ⟨text, rfl⟩
    exact mend_utf8 text

/-! ## The pieces of what was written -/

/-- A piece that stands for a character whatever follows it. -/
def Piece.Spells (p : Piece) (c : Char) : Prop :=
  p = .char c ∨ ∃ u, p = .unit u ∧ isHighSurrogate u = false ∧ isLowSurrogate u = false ∧
    Char.ofNat u = c

variable {c : Char} {b : UInt8} {need acc lo hi : Nat}

theorem assemble_spells {p} (h : p.Spells c) (rest : List Piece) :
    assemble (p :: rest) = c :: assemble rest := by
  rcases h with rfl | ⟨u, rfl, hhigh, hlow, rfl⟩
  · rfl
  have hlone : loneUnit u = .ofNat u := by simp [loneUnit, hhigh, hlow]
  cases rest with
  | nil => simp [assemble, hlone]
  | cons q =>
    cases q with
    | char => simp [assemble, hlone]
    | unit => simp [assemble, hlone, hhigh]

theorem textLead_of_lead (h : lead b = some (need, acc, lo, hi)) :
    textLead b = ([], .utf8 1 need acc lo hi) := by
  simp only [lead] at h
  simp only [textLead]
  by_cases hC2 : b.toNat < 0xC2
  · rw [if_pos hC2] at h
    cases h
  · rw [if_neg (by omega), if_neg (by omega), if_neg hC2]
    split_ifs at h ⊢ <;> simp_all

theorem lead_pos (h : lead b = some (need, acc, lo, hi)) : 0 < need := by
  simp only [lead] at h
  split_ifs at h <;> simp only [Option.some.injEq, Prod.mk.injEq] at h <;> omega

/-- The continuation bytes of a character are collected into it. -/
theorem piecesFrom_continued {pending : Nat} {bs rest}
    (h : continued (need + 1) acc lo hi bs = some (c, rest)) :
    piecesFrom (.utf8 pending (need + 1) acc lo hi) bs = .char c :: piecesFrom .plain rest := by
  induction need generalizing acc lo hi pending bs with
  | zero =>
    cases bs with
    | nil => cases h
    | cons =>
      rw [continued] at h
      split at h
      · next hrange =>
          rw [continued, Option.some.injEq, Prod.mk.injEq] at h
          obtain ⟨rfl, rfl⟩ := h
          simp only [piecesFrom, textStep, hrange, and_self, if_true, cons_append,
            nil_append]
      · cases h
  | succ need ih =>
    cases bs with
    | nil => cases h
    | cons =>
      rw [continued] at h
      split at h
      · next hrange =>
          have hrest := @ih _ _ _ (pending + 1) _ h
          simpa [piecesFrom, textStep, hrange] using hrest
      · cases h

/-- A character outside ASCII, written as it is. -/
theorem piecesFrom_encode (h : 0x80 ≤ c.toNat) (rest : Bytes) :
    piecesFrom .plain (String.utf8EncodeChar c ++ rest) = .char c :: piecesFrom .plain rest := by
  have hrune := decodeRune_utf8EncodeChar c rest
  obtain ⟨b, bs, hb⟩ := exists_cons_of_ne_nil (@String.utf8EncodeChar_ne_nil c)
  rw [hb, cons_append] at hrune ⊢
  rw [decodeRune] at hrune
  by_cases hascii : b.toNat < 0x80
  · -- the number of an ASCII character is its byte
    rw [if_pos hascii, Option.some.injEq, Prod.mk.injEq] at hrune
    have hc : c.toNat = b.toNat := by
      rw [← hrune.1]
      exact toNat_ofNat_ascii _ hascii
    omega
  · rw [if_neg hascii] at hrune
    obtain ⟨⟨need, acc, lo, hi⟩, hlead, hcont⟩ := Option.bind_eq_some_iff.1 hrune
    obtain ⟨k, rfl⟩ := Nat.exists_eq_add_one.2 (lead_pos hlead)
    simp only [piecesFrom, textStep, textLead_of_lead hlead]
    exact piecesFrom_continued hcont

theorem hexVal_hexDigit : ∀ d < 16, hexVal (hexDigit d) = d := by decide

/-- An escape of four digits is read as its code unit. -/
theorem piecesFrom_unicodeEscape {u : Nat} (h : u < 65536) (rest : Bytes) :
    piecesFrom .plain (unicodeEscape u ++ rest) = .unit u :: piecesFrom .plain rest := by
  have hback : textStep .plain 92 = ([], .esc) := by decide
  have hu : textStep .esc 117 = ([], .hex 4 0) := by decide
  have hdgt : ∀ k left acc, left ≠ 1 → textStep (.hex left acc) (hexDigit (k % 16)) =
      ([], .hex (left - 1) (16 * acc + k % 16)) := by
    intro k left acc hleft
    rw [textStep, if_neg hleft, hexVal_hexDigit _ (Nat.mod_lt _ (by omega))]
  have hlast : ∀ k acc, textStep (.hex 1 acc) (hexDigit (k % 16)) =
      ([.unit (16 * acc + k % 16)], .plain) := by
    intro k acc
    rw [textStep, if_pos rfl, hexVal_hexDigit _ (Nat.mod_lt _ (by omega))]
  have hsum : 16 * (16 * (16 * (16 * 0 + u / 4096 % 16) + u / 256 % 16) + u / 16 % 16) + u % 16 =
      u := by omega
  simp only [unicodeEscape, cons_append, nil_append, piecesFrom, hback, hu,
    hdgt _ 4 _ (by omega), hdgt _ 3 _ (by omega), hdgt _ 2 _ (by omega), hlast, hsum]

/-- The characters with an escape of one letter. -/
def shortEscapes : List (Nat × UInt8) :=
  [(34, 34), (92, 92), (8, 98), (12, 102), (10, 110), (13, 114), (9, 116)]

/-- The four ways of writing a character. -/
inductive Quoted (c : Char) : Bytes → Prop where
  | short (e : UInt8) (h : (c.toNat, e) ∈ shortEscapes) : Quoted c [92, e]
  | escaped (h : c.toNat < 0xD800) : Quoted c (unicodeEscape c.toNat)
  | ascii (h32 : 32 ≤ c.toNat) (h80 : c.toNat < 0x80) (hquote : c.toNat ≠ 34)
      (hback : c.toNat ≠ 92) : Quoted c [UInt8.ofNat c.toNat]
  | wide (h : 0x80 ≤ c.toNat) : Quoted c (String.utf8EncodeChar c)

theorem quoted_quoteChar (c : Char) : Quoted c (quoteChar c) := by
  have hshort {e} (h : (c.toNat, e) ∈ shortEscapes) : Quoted c [92, e] := .short e h
  simp only [quoteChar]
  split_ifs with h₁ h₂ h₃ h₄ h₅ h₆
  · rcases h₁ with h | h <;> rw [h] <;> exact hshort (by rw [h]; decide)
  · exact hshort (by rw [h₂]; decide)
  · exact hshort (by rw [h₃]; decide)
  · exact hshort (by rw [h₄]; decide)
  · exact hshort (by rw [h₅]; decide)
  · exact hshort (by rw [h₆]; decide)
  · exact .escaped (by omega)
  · exact .ascii (by omega) (by omega) (by omega) (by omega)
  · exact .wide (by omega)

theorem textStep_short : ∀ e ∈ shortEscapes,
    textStep .esc e.2 = ([.char (.ofNat e.1)], .plain) := by
  decide

theorem spells_unit {u : Nat} (h : u < 0xD800 ∨ 0xDFFF < u) (hc : .ofNat u = c) :
    (Piece.unit u).Spells c := by
  refine .inr ⟨u, rfl, ?_, ?_, hc⟩
  · simp only [isHighSurrogate, Bool.and_eq_false_iff, decide_eq_false_iff_not]
    omega
  · simp only [isLowSurrogate, Bool.and_eq_false_iff, decide_eq_false_iff_not]
    omega

/-- **Whatever is written for a character is read as that character.** -/
theorem piecesFrom_quoteRune (r : Option Char) (rest : Bytes) :
    ∃ p, p.Spells (r.getD replacement) ∧
      piecesFrom .plain (quoteRune r ++ rest) = p :: piecesFrom .plain rest := by
  cases r with
  | none =>
    exact ⟨.unit 0xFFFD, spells_unit (by omega) rfl, piecesFrom_unicodeEscape (by omega) rest⟩
  | some c =>
    change ∃ p : Piece, p.Spells c ∧ piecesFrom .plain (quoteChar c ++ rest) = _
    have hc : .ofNat c.toNat = c := Char.ofNat_toNat c
    have hquot := quoted_quoteChar c
    generalize quoteChar c = raw at hquot ⊢
    cases hquot with
    | short e h =>
      have hback : textStep .plain 92 = ([], .esc) := by decide
      have hstep := textStep_short _ h
      rw [hc] at hstep
      refine ⟨.char c, .inl rfl, ?_⟩
      simp only [cons_append, nil_append, piecesFrom, hback, hstep]
    | escaped h =>
      exact ⟨.unit c.toNat, spells_unit (.inl h) hc, piecesFrom_unicodeEscape (by omega) rest⟩
    | ascii h32 h80 hquote hback =>
      refine ⟨.char c, .inl rfl, ?_⟩
      simp only [cons_append, nil_append, piecesFrom, textStep, textLead,
        toNat_ofNat_lt (show c.toNat < 256 by omega), if_neg hback, if_pos h80, hc]
    | wide h => exact ⟨.char c, .inl rfl, piecesFrom_encode h rest⟩

theorem assemble_quoteRunes (rs : List (Option Char)) :
    assemble (piecesFrom .plain (rs.flatMap quoteRune)) = rs.map (·.getD replacement) := by
  induction rs with
  | nil => rfl
  | cons r rs ih =>
    obtain ⟨p, hp, hpiec⟩ := piecesFrom_quoteRune r (rs.flatMap quoteRune)
    rw [flatMap_cons, hpiec, assemble_spells hp, ih, map_cons]

/-- **What is read back from a written string**: the string with its malformed bytes replaced. -/
theorem utf8_unquote_quoteBytes (value : Bytes) :
    utf8 (unquote (quoteBytes value)) = mend value := by
  rw [unquote, quoteBytes, assemble_quoteRunes, mend]

/-! ## The lexer takes a written string in -/

theorem written_unicodeEscape (u : Nat) : Written (unicodeEscape u) := by
  have hhex : ∀ k, isHex (hexDigit (k % 16)) = true := by
    intro k
    have hall : ∀ d < 16, isHex (hexDigit d) = true := by decide
    exact hall _ (Nat.mod_lt _ (by omega))
  intro acc rest
  have hback : lexStep (.str acc) 92 = some ([], .esc (92 :: acc)) := by simp [lexStep]
  have hu : lexStep (.esc (92 :: acc)) 117 = some ([], .hex 4 (117 :: 92 :: acc)) := by
    simp [lexStep]
  have hdgt : ∀ k left acc, left ≠ 1 → lexStep (.hex left acc) (hexDigit (k % 16)) =
      some ([], .hex (left - 1) (hexDigit (k % 16) :: acc)) := by
    intro k left acc hleft
    rw [lexStep, if_pos (hhex k), if_neg hleft]
  have hlast : ∀ k acc, lexStep (.hex 1 acc) (hexDigit (k % 16)) =
      some ([], .str (hexDigit (k % 16) :: acc)) := by
    intro k acc
    rw [lexStep, if_pos (hhex k), if_pos rfl]
  simp only [unicodeEscape, cons_append]
  rw [lexFrom_cons_silent _ hback, lexFrom_cons_silent _ hu,
    lexFrom_cons_silent _ (hdgt _ _ _ (by omega)), lexFrom_cons_silent _ (hdgt _ _ _ (by omega)),
    lexFrom_cons_silent _ (hdgt _ _ _ (by omega)), lexFrom_cons_silent _ (hlast _ _)]
  rfl

theorem plainByte_of_high (h : 0x80 ≤ b.toNat) : PlainByte b := by
  refine ⟨by omega, ?_, ?_⟩ <;> rintro rfl <;> exact absurd h (by decide)

theorem high_utf8EncodeChar (h : 0x80 ≤ c.toNat) :
    ∀ b ∈ String.utf8EncodeChar c, 0x80 ≤ b.toNat := by
  have hval : c.val.toNat = c.toNat := rfl
  unfold String.utf8EncodeChar
  rw [if_neg (by omega)]
  split_ifs <;>
    · simp only [forall_mem_cons, not_mem_nil, false_imp_iff, implies_true, and_true,
        UInt8.toNat_ofNat']
      omega

theorem written_quoteRune (r : Option Char) : Written (quoteRune r) := by
  cases r with
  | none => exact written_unicodeEscape 0xFFFD
  | some c =>
    change Written (quoteChar c)
    have hquot := quoted_quoteChar c
    generalize quoteChar c = raw at hquot ⊢
    cases hquot with
    | short e h =>
      intro acc rest
      have hback : lexStep (.str acc) 92 = some ([], .esc (92 :: acc)) := by simp [lexStep]
      have hlett : ∀ e ∈ shortEscapes, e.2 ≠ 117 ∧
          e.2 ∈ ([98, 102, 110, 114, 116, 92, 47, 34]) := by decide
      obtain ⟨hu, hmem⟩ := hlett _ h
      have hstep : lexStep (.esc (92 :: acc)) e = some ([], .str (e :: 92 :: acc)) := by
        rw [lexStep, if_neg hu, if_pos hmem]
      simp only [cons_append]
      rw [lexFrom_cons_silent _ hback, lexFrom_cons_silent _ hstep]
      rfl
    | escaped => exact written_unicodeEscape _
    | ascii h32 h80 hquote hback =>
      apply written_plainByte
      have hn := toNat_ofNat_lt (show c.toNat < 256 by omega)
      refine ⟨by omega, ?_, ?_⟩ <;> intro heq <;> rw [heq] at hn
      · exact hquote hn.symm
      · exact hback hn.symm
    | wide h => exact written_plain fun b hb => plainByte_of_high (high_utf8EncodeChar h b hb)

theorem written_quoteBytes (value : Bytes) : Written (quoteBytes value) := by
  unfold quoteBytes
  induction runes value with
  | nil => exact written_nil
  | cons r rs ih =>
    exact (written_quoteRune r).append ih

end Json
