import PrivateVm.Json.Lexer

set_option autoImplicit false

/-! # JSON strings and field names

`quote` escapes what the common encoder escapes, and `unquote` reads raw bytes back to text, with
the replacement character for whatever is malformed; `unquote_quote` holds for the strings that
need no escape (`SafeText`). `foldName` is the key under which a decoder looks up a struct field
when no field has the exact name.
-/

namespace Json

open Decimal List

/-! ## Writing -/

/-- The hexadecimal digit of `d`, for `d < 16`. -/
def hexDigit (d : Nat) : UInt8 := UInt8.ofNat (if d < 10 then 48 + d else 87 + d)

/-- A code unit as an escape of four hexadecimal digits. -/
def unicodeEscape (u : Nat) : Bytes :=
  [92, 117, hexDigit (u / 4096 % 16), hexDigit (u / 256 % 16), hexDigit (u / 16 % 16),
    hexDigit (u % 16)]

/-- A printable ASCII character that is written as it is: no quote, backslash, `<`, `>`
or `&`. -/
def SafeChar (c : Char) : Prop :=
  32 ≤ c.toNat ∧ c.toNat < 127 ∧ c.toNat ∉ [34, 92, 60, 62, 38]

instance (c : Char) : Decidable (SafeChar c) := inferInstanceAs (Decidable (_ ∧ _))

def quoteChar (c : Char) : Bytes :=
  let n := c.toNat
  if n = 34 ∨ n = 92 then [92, UInt8.ofNat n]
  else if n = 8 then [92, 98]
  else if n = 12 then [92, 102]
  else if n = 10 then [92, 110]
  else if n = 13 then [92, 114]
  else if n = 9 then [92, 116]
  else if n < 32 ∨ n = 60 ∨ n = 62 ∨ n = 38 ∨ n = 0x2028 ∨ n = 0x2029 then unicodeEscape n
  else if n < 128 then [UInt8.ofNat n]
  else String.utf8EncodeChar c

def quote (s : String) : Bytes := s.toList.flatMap quoteChar

/-! ## Reading -/

def replacement : Char := Char.ofNat 0xFFFD

/-- A part of a string: a character, or the code unit of a `\u` escape. -/
inductive Piece where
  | char (c : Char)
  | unit (u : Nat)
  deriving DecidableEq

/-- Where the reader of a string stands. In `utf8` the bytes of a character are being
collected: how many were read, how many are missing, the bits so far, and the range the
next byte must fall in. -/
inductive TextState where
  | plain
  | esc
  | hex (left acc : Nat)
  | utf8 (pending need acc lo hi : Nat)
  deriving DecidableEq

def hexVal (b : UInt8) : Nat :=
  if isDigit b then b.toNat - 48
  else if 97 ≤ b.toNat then b.toNat - 87
  else b.toNat - 55

/-- The first byte of a character or of an escape. -/
def textLead (b : UInt8) : List Piece × TextState :=
  let n := b.toNat
  if n = 92 then ([], .esc)
  else if n < 0x80 then ([.char (Char.ofNat n)], .plain)
  else if n < 0xC2 then ([.char replacement], .plain)
  else if n < 0xE0 then ([], .utf8 1 1 (n - 0xC0) 0x80 0xBF)
  else if n = 0xE0 then ([], .utf8 1 2 (n - 0xE0) 0xA0 0xBF)
  else if n = 0xED then ([], .utf8 1 2 (n - 0xE0) 0x80 0x9F)
  else if n < 0xF0 then ([], .utf8 1 2 (n - 0xE0) 0x80 0xBF)
  else if n = 0xF0 then ([], .utf8 1 3 (n - 0xF0) 0x90 0xBF)
  else if n < 0xF4 then ([], .utf8 1 3 (n - 0xF0) 0x80 0xBF)
  else if n = 0xF4 then ([], .utf8 1 3 (n - 0xF0) 0x80 0x8F)
  else ([.char replacement], .plain)

def textStep : TextState → UInt8 → List Piece × TextState
  | .plain, b => textLead b
  | .esc, b =>
    if b = 117 then ([], .hex 4 0)
    else if b = 98 then ([.char (Char.ofNat 8)], .plain)
    else if b = 102 then ([.char (Char.ofNat 12)], .plain)
    else if b = 110 then ([.char (Char.ofNat 10)], .plain)
    else if b = 114 then ([.char (Char.ofNat 13)], .plain)
    else if b = 116 then ([.char (Char.ofNat 9)], .plain)
    else ([.char (Char.ofNat b.toNat)], .plain)
  | .hex left acc, b =>
    if left = 1 then ([.unit (16 * acc + hexVal b)], .plain)
    else ([], .hex (left - 1) (16 * acc + hexVal b))
  | .utf8 pending need acc lo hi, b =>
    if lo ≤ b.toNat ∧ b.toNat ≤ hi then
      if need = 1 then ([.char (Char.ofNat (64 * acc + (b.toNat - 0x80)))], .plain)
      else ([], .utf8 (pending + 1) (need - 1) (64 * acc + (b.toNat - 0x80)) 0x80 0xBF)
    else
      -- every byte read so far is malformed by itself; this one starts anew
      let r := textLead b
      (List.replicate pending (.char replacement) ++ r.1, r.2)

def piecesFrom : TextState → Bytes → List Piece
  | .utf8 pending _ _ _ _, [] => List.replicate pending (.char replacement)
  | _, [] => []
  | s, b :: bs => (textStep s b).1 ++ piecesFrom (textStep s b).2 bs

def isHighSurrogate (u : Nat) : Bool := 0xD800 ≤ u && u < 0xDC00
def isLowSurrogate (u : Nat) : Bool := 0xDC00 ≤ u && u < 0xE000

/-- The character of a code unit that stands alone. -/
def loneUnit (u : Nat) : Char :=
  if isHighSurrogate u || isLowSurrogate u then replacement else Char.ofNat u

/-- Join the parts; a high and a low surrogate make one character. -/
def assemble : List Piece → List Char
  | [] => []
  | .char c :: rest => c :: assemble rest
  | .unit u :: .unit w :: rest =>
    if isHighSurrogate u && isLowSurrogate w then
      Char.ofNat (0x10000 + (u - 0xD800) * 1024 + (w - 0xDC00)) :: assemble rest
    else loneUnit u :: assemble (.unit w :: rest)
  | .unit u :: rest => loneUnit u :: assemble rest

def unquote (raw : Bytes) : String := String.ofList (assemble (piecesFrom .plain raw))

/-! ## Field names -/

def foldRune (c : Char) : Char :=
  if 97 ≤ c.toNat ∧ c.toNat ≤ 122 then Char.ofNat (c.toNat - 32)
  else if c.toNat = 0x17F then 'S'
  else if c.toNat = 0x212A then 'K'
  else c

def foldName (key : String) : List Char := key.toList.map foldRune

/-! ## Text that needs no escape -/

/-- Text all of whose characters are written as they are. -/
def SafeText (s : String) : Prop := ∀ c ∈ s.toList, SafeChar c

instance (s : String) : Decidable (SafeText s) := List.decidableBAll SafeChar s.toList

variable {c : Char} {s : String}

theorem quoteChar_safe (h : SafeChar c) : quoteChar c = [.ofNat c.toNat] := by
  obtain ⟨h32, h127, hne⟩ := h
  simp only [mem_cons] at hne
  simp only [quoteChar]
  rw [if_neg (by omega), if_neg (by omega), if_neg (by omega), if_neg (by omega),
    if_neg (by omega), if_neg (by omega), if_neg (by omega), if_pos (by omega)]

theorem quote_safe (h : SafeText s) : quote s = s.toList.map fun c => .ofNat c.toNat := by
  have key : ∀ l : List Char, (∀ c ∈ l, SafeChar c) →
      l.flatMap quoteChar = l.map fun c => .ofNat c.toNat := by
    intro l hl
    induction l with
    | nil => rfl
    | cons c t ih =>
      rw [flatMap_cons, quoteChar_safe (hl c (by simp)), ih fun d hd => hl d (by simp [hd])]
      rfl
  exact key s.toList h

theorem toNat_ofNat_safe (h : SafeChar c) : (UInt8.ofNat c.toNat).toNat = c.toNat :=
  Nat.mod_eq_of_lt (by have := h.2.1; omega)

theorem quote_plain (h : SafeText s) : ∀ b ∈ quote s, PlainByte b := by
  intro b hb
  rw [quote_safe h] at hb
  obtain ⟨c, hc, rfl⟩ := List.mem_map.mp hb
  have hn := toNat_ofNat_safe (h c hc)
  obtain ⟨h32, -, hne⟩ := h c hc
  simp only [mem_cons, not_or] at hne
  have hbyte : ∀ k, k < 256 → c.toNat ≠ k → .ofNat c.toNat ≠ UInt8.ofNat k := by
    intro k hk hck heq
    have := congrArg UInt8.toNat heq
    rw [hn, UInt8.toNat_ofNat', Nat.mod_eq_of_lt hk] at this
    exact hck this
  exact ⟨by omega, hbyte 34 (by omega) hne.1, hbyte 92 (by omega) hne.2.1⟩

theorem quote_length (h : SafeText s) : (quote s).length = s.toList.length := by
  rw [quote_safe h, length_map]

theorem textStep_safe (h : SafeChar c) :
    textStep .plain (.ofNat c.toNat) = ([.char c], .plain) := by
  have hn := toNat_ofNat_safe h
  obtain ⟨h32, h127, hne⟩ := h
  simp only [mem_cons, not_or] at hne
  simp only [textStep, textLead, hn, if_neg hne.2.1, if_pos (by omega : c.toNat < 0x80),
    Char.ofNat_toNat]

theorem piecesFrom_safe {l : List Char} (h : ∀ c ∈ l, SafeChar c) :
    piecesFrom .plain (l.map fun c => .ofNat c.toNat) = l.map .char := by
  induction l with
  | nil => rfl
  | cons c t ih =>
    rw [map_cons, piecesFrom, textStep_safe (h c (by simp)), ih fun d hd => h d (by simp [hd])]
    rfl

theorem assemble_chars (l : List Char) : assemble (l.map .char) = l := by
  induction l with
  | nil => rfl
  | cons c t ih => rw [map_cons, assemble, ih]

/-- **Safe text survives** being quoted and read. -/
theorem unquote_quote (h : SafeText s) : unquote (quote s) = s := by
  rw [unquote, quote_safe h, piecesFrom_safe h, assemble_chars, String.ofList_toList]

end Json
