import Mathlib.Algebra.Ring.Nat
import Mathlib.Data.List.DropRight

set_option autoImplicit false

/-! # Texts

A text is a list of characters. The functions are those of Go's `bytes`, `strings`, `net` and
`encoding/base64` on valid UTF-8: cutting a text into lines, trimming white space, splitting at a
character, splitting an address with a port, and base 64. The length of a text is that of its
encoding.
-/

namespace Text

open List

/-! ## White space -/

def isSpace (c : Char) : Bool :=
  [0x09, 0x0a, 0x0b, 0x0c, 0x0d, 0x20, 0x85, 0xa0, 0x1680, 0x2028, 0x2029, 0x202f, 0x205f,
    0x3000].contains c.toNat || (0x2000 ≤ c.toNat && c.toNat ≤ 0x200a)

def trimSpace (text : List Char) : List Char := (text.dropWhile isSpace).rdropWhile isSpace

/-- A text that neither starts nor ends with white space. -/
def Trimmed (text : List Char) : Prop :=
  (∀ c ∈ text.head?, isSpace c = false) ∧ ∀ c ∈ text.getLast?, isSpace c = false

variable {text : List Char} {parts : List (List Char)} {c : Char}

theorem Trimmed.trimSpace (h : Trimmed text) : trimSpace text = text := by
  cases text with
  | nil => rfl
  | cons c rest =>
    have hc : isSpace c = false := h.1 c rfl
    have hdrop : (c :: rest).dropWhile isSpace = c :: rest :=
      dropWhile_cons_of_neg (by simp [hc])
    rw [Text.trimSpace, hdrop, rdropWhile_eq_self_iff]
    intro hne
    rw [Bool.not_eq_true]
    exact h.2 _ (List.getLast?_eq_some_getLast hne)

theorem Trimmed.of_forall (h : ∀ c ∈ text, isSpace c = false) : Trimmed text :=
  ⟨fun c hc => h c (mem_of_mem_head? hc), fun c hc => h c (mem_of_mem_getLast? hc)⟩

theorem trimSpace_space (text : List Char) : trimSpace (' ' :: text) = trimSpace text := rfl

theorem Trimmed.trimSpace_append (h : Trimmed text) (hne : text ≠ []) :
    Text.trimSpace (text ++ [' ']) = text := by
  obtain ⟨c, rest, rfl⟩ := exists_cons_of_ne_nil hne
  have hc : isSpace c = false := h.1 c rfl
  have htrim := h.trimSpace
  rw [Text.trimSpace, dropWhile_cons_of_neg (by simp [hc])] at htrim
  rw [Text.trimSpace, cons_append, dropWhile_cons_of_neg (by simp [hc]),
    ← cons_append, rdropWhile_concat_pos _ _ _ (by decide), htrim]

/-! ## Lines -/

/-- The lines of a text, without their ends. What follows the last end is a line unless it is
empty. -/
def lines : List Char → List (List Char)
  | [] => []
  | c :: rest =>
    if c = '\n' then [] :: lines rest
    else match lines rest with
      | [] => [[c]]
      | line :: others => (c :: line) :: others

theorem lines_append {line} (h : '\n' ∉ line) (rest : List Char) :
    lines (line ++ '\n' :: rest) = line :: lines rest := by
  induction line with
  | nil => simp [lines]
  | cons c line ih =>
    obtain ⟨hc, hline⟩ := not_or.1 (mt mem_cons.2 h)
    rw [cons_append, lines, if_neg (Ne.symm hc), ih hline]

theorem lines_flatMap {ls} (h : ∀ line ∈ ls, '\n' ∉ line) :
    lines (ls.flatMap (· ++ ['\n'])) = ls := by
  induction ls with
  | nil => rfl
  | cons line ls ih =>
    obtain ⟨hline, hls⟩ := forall_mem_cons.1 h
    rw [flatMap_cons, append_assoc, singleton_append, lines_append hline, ih hls]

/-! ## Lists with commas -/

/-- The elements of a list, with a comma and a space between them. -/
def commaSeparated (parts : List (List Char)) : List Char := [',', ' '].intercalate parts

theorem commaSeparated_eq (part : List Char) (parts : List (List Char)) :
    commaSeparated (part :: parts) = [','].intercalate (part :: parts.map (' ' :: ·)) := by
  induction parts generalizing part with
  | nil => rfl
  | cons other parts ih =>
    have hih := ih other
    simp only [commaSeparated, intercalate_cons_cons] at hih ⊢
    rw [hih]
    cases parts with
    | nil | cons => simp

/-- Splitting at the commas gives the elements back. -/
theorem splitOn_commaSeparated (hne : parts ≠ []) (hcomma : ∀ part ∈ parts, ',' ∉ part)
    (htrim : ∀ part ∈ parts, Trimmed part) :
    ((commaSeparated parts).splitOn ',').map trimSpace = parts := by
  cases parts with
  | nil => exact absurd rfl hne
  | cons part parts =>
    have hspac : ∀ l ∈ part :: parts.map (' ' :: ·), ',' ∉ l := by
      refine forall_mem_cons.2 ⟨hcomma part mem_cons_self, ?_⟩
      intro l hl
      obtain ⟨other, hother, rfl⟩ := mem_map.1 hl
      have hnot := hcomma other (mem_cons_of_mem _ hother)
      simp [hnot]
    rw [commaSeparated_eq, splitOn_intercalate ',' hspac (cons_ne_nil _ _),
      map_cons, (htrim part mem_cons_self).trimSpace, map_map]
    congr 1
    -- the space in front of each other element is trimmed
    refine (map_congr_left fun other hother => ?_).trans (map_id parts)
    exact (trimSpace_space other).trans (htrim other (mem_cons_of_mem _ hother)).trimSpace

theorem commaSeparated_cons_cons (part other : List Char) (parts : List (List Char)) :
    commaSeparated (part :: other :: parts) =
      part ++ ',' :: ' ' :: commaSeparated (other :: parts) := by
  simp [commaSeparated]

variable {sep after host port : List Char}

theorem mem_intercalate (h : c ∈ sep.intercalate parts) : c ∈ sep ∨ ∃ part ∈ parts, c ∈ part := by
  induction parts with
  | nil => cases h
  | cons part parts ih =>
    cases parts with
    | nil => exact .inr ⟨part, mem_singleton.2 rfl, by simpa using h⟩
    | cons =>
      rw [intercalate_cons_cons, mem_append, mem_append] at h
      rcases h with (h | h) | h
      · exact .inr ⟨part, mem_cons_self, h⟩
      · exact .inl h
      · rcases ih h with h | ⟨part', hpart', h⟩
        · exact .inl h
        · exact .inr ⟨part', mem_cons_of_mem _ hpart', h⟩

theorem length_intercalate_le {k : Nat} (h : ∀ part ∈ parts, part.length ≤ k) :
    (sep.intercalate parts).length ≤ (k + sep.length) * parts.length := by
  induction parts with
  | nil => simp
  | cons part parts ih =>
    obtain ⟨hpart, hparts⟩ := forall_mem_cons.1 h
    have ih := ih hparts
    rw [length_cons, Nat.mul_succ]
    cases parts with
    | nil =>
      simp
      omega
    | cons =>
      simp only [intercalate_cons_cons, length_append] at ih ⊢
      omega

theorem commaSeparated_ne_nil (hne : parts ≠ []) (hparts : ∀ part ∈ parts, part ≠ []) :
    commaSeparated parts ≠ [] := by
  cases parts with
  | nil => exact absurd rfl hne
  | cons part parts =>
    have hpart := hparts part mem_cons_self
    cases parts with
    | nil => simpa [commaSeparated] using hpart
    | cons => simp [commaSeparated_cons_cons]

theorem Trimmed.append {first last} (hfst : Trimmed first) (hlast : Trimmed last) (hne : first ≠ [])
    (hne' : last ≠ []) (between : List Char) : Trimmed (first ++ between ++ last) := by
  refine ⟨fun c hc => ?_, fun c hc => ?_⟩
  · rw [append_assoc, List.head?_append_of_ne_nil _ hne] at hc
    exact hfst.1 c hc
  · rw [List.getLast?_append_of_ne_nil _ hne'] at hc
    exact hlast.2 c hc

theorem Trimmed.commaSeparated (hparts : ∀ part ∈ parts, part ≠ [])
    (htrimm : ∀ part ∈ parts, Trimmed part) : Trimmed (commaSeparated parts) := by
  induction parts with
  | nil => exact .of_forall (forall_mem_nil _)
  | cons part parts ih =>
    obtain ⟨hpart, hparts⟩ := forall_mem_cons.1 hparts
    obtain ⟨htrim, htrimm⟩ := forall_mem_cons.1 htrimm
    cases parts with
    | nil => simpa [Text.commaSeparated] using htrim
    | cons other parts =>
      have hrest := commaSeparated_ne_nil (cons_ne_nil other parts) hparts
      have happ := htrim.append (ih hparts htrimm) hpart hrest [',', ' ']
      simpa [commaSeparated_cons_cons] using happ

/-! ## Addresses with a port -/

def afterLast (c : Char) (text : List Char) : List Char :=
  (text.reverse.takeWhile (· ≠ c)).reverse

def beforeLast (c : Char) (text : List Char) : List Char :=
  ((text.reverse.dropWhile (· ≠ c)).drop 1).reverse

theorem forall_reverse_ne (h : c ∉ after) : ∀ d ∈ after.reverse, decide (d ≠ c) = true := by
  intro d hd
  refine decide_eq_true ?_
  rintro rfl
  exact h (mem_reverse.1 hd)

theorem afterLast_append (h : c ∉ after) (before : List Char) :
    afterLast c (before ++ c :: after) = after := by
  simp only [afterLast, reverse_append, reverse_cons, append_assoc,
    singleton_append]
  rw [takeWhile_append_of_pos (forall_reverse_ne h), takeWhile_cons_of_neg (by simp),
    append_nil, reverse_reverse]

theorem beforeLast_append (h : c ∉ after) (before : List Char) :
    beforeLast c (before ++ c :: after) = before := by
  simp only [beforeLast, reverse_append, reverse_cons, append_assoc,
    singleton_append]
  rw [dropWhile_append_of_pos (forall_reverse_ne h), dropWhile_cons_of_neg (by simp),
    drop_one, tail_cons, reverse_reverse]

/-- The host and the port of an address: the port starts after the last colon, and the host may
stand in brackets, within which there may be colons. -/
def splitHostPort (text : List Char) : Option (List Char × List Char) :=
  let before := beforeLast ':' text
  if ':' ∉ text then none
  else if text.head? = some '[' then
    let host := (text.takeWhile (· ≠ ']')).drop 1
    let after := (text.dropWhile (· ≠ ']')).drop 1
    -- the first closing bracket is just before the last colon
    if before = '[' :: host ++ [']'] ∧ '[' ∉ text.drop 1 ∧ ']' ∉ after then
      some (host, afterLast ':' text)
    else none
  else if ':' ∉ before ∧ '[' ∉ text ∧ ']' ∉ text then some (before, afterLast ':' text)
  else none

theorem splitHostPort_plain (hhost : ∀ c ∈ host, c ≠ ':' ∧ c ≠ '[' ∧ c ≠ ']')
    (hport : ∀ c ∈ port, c ≠ ':' ∧ c ≠ '[' ∧ c ≠ ']') :
    splitHostPort (host ++ ':' :: port) = some (host, port) := by
  have hcolon : ':' ∉ port := fun h => (hport _ h).1 rfl
  have hopen : '[' ∉ host ++ ':' :: port := by
    simp only [mem_append, mem_cons, not_or]
    exact ⟨fun h => (hhost _ h).2.1 rfl, by decide, fun h => (hport _ h).2.1 rfl⟩
  have hclose : ']' ∉ host ++ ':' :: port := by
    simp only [mem_append, mem_cons, not_or]
    exact ⟨fun h => (hhost _ h).2.2 rfl, by decide, fun h => (hport _ h).2.2 rfl⟩
  have hhead : (host ++ ':' :: port).head? ≠ some '[' :=
    fun h => hopen (mem_of_mem_head? h)
  simp only [splitHostPort, afterLast_append hcolon, beforeLast_append hcolon]
  rw [if_neg (by simp), if_neg hhead, if_pos ⟨fun h => (hhost _ h).1 rfl, hopen, hclose⟩]

theorem splitHostPort_brackets (hhost : ∀ c ∈ host, c ≠ '[' ∧ c ≠ ']')
    (hport : ∀ c ∈ port, c ≠ ':' ∧ c ≠ '[' ∧ c ≠ ']') :
    splitHostPort ('[' :: host ++ ']' :: ':' :: port) = some (host, port) := by
  have hcolon : ':' ∉ port := fun h => (hport _ h).1 rfl
  have hall : ∀ d ∈ '[' :: host, decide (d ≠ ']') = true := by
    refine forall_mem_cons.2 ⟨by decide, fun d hd => decide_eq_true (hhost d hd).2⟩
  have hspl : '[' :: host ++ ']' :: ':' :: port = ('[' :: host ++ [']']) ++ ':' :: port := by simp
  have htake : ('[' :: host ++ ']' :: ':' :: port).takeWhile (· ≠ ']') = '[' :: host := by
    rw [takeWhile_append_of_pos hall, takeWhile_cons_of_neg (by simp), append_nil]
  have hdrop : ('[' :: host ++ ']' :: ':' :: port).dropWhile (· ≠ ']') = ']' :: ':' :: port := by
    rw [dropWhile_append_of_pos hall, dropWhile_cons_of_neg (by simp)]
  have haft : afterLast ':' ('[' :: host ++ ']' :: ':' :: port) = port := by
    rw [hspl, afterLast_append hcolon]
  have hbefore : beforeLast ':' ('[' :: host ++ ']' :: ':' :: port) = '[' :: host ++ [']'] := by
    rw [hspl, beforeLast_append hcolon]
  simp only [splitHostPort, htake, hdrop, haft, hbefore]
  rw [if_neg (by simp), if_pos (by simp), if_pos]
  · simp
  refine ⟨by simp, ?_, ?_⟩
  · simp only [cons_append, drop_one, tail_cons, mem_append, mem_cons,
      not_or]
    exact ⟨fun h => (hhost _ h).1 rfl, by decide, by decide, fun h => (hport _ h).2.1 rfl⟩
  · simp only [drop_one, tail_cons, mem_cons, not_or]
    exact ⟨by decide, fun h => (hport _ h).2.2 rfl⟩

/-! ## Base 64 -/

def base64Digits : List Char :=
  "ABCDEFGHIJKLMNOPQRSTUVWXYZabcdefghijklmnopqrstuvwxyz0123456789+/".toList

/-- The digit of the lowest six bits of a number. -/
def base64Digit (n : Nat) : Char := base64Digits.getD (n % 64) '='

/-- The standard encoding, with padding. -/
def base64 : List UInt8 → List Char
  | a :: b :: c :: rest =>
    let n := 65536 * a.toNat + 256 * b.toNat + c.toNat
    base64Digit (n / 262144) :: base64Digit (n / 4096) :: base64Digit (n / 64) ::
      base64Digit n :: base64 rest
  | [a, b] =>
    let n := 65536 * a.toNat + 256 * b.toNat
    [base64Digit (n / 262144), base64Digit (n / 4096), base64Digit (n / 64), '=']
  | [a] =>
    let n := 65536 * a.toNat
    [base64Digit (n / 262144), base64Digit (n / 4096), '=', '=']
  | [] => []

theorem length_base64 : ∀ bytes,
    (base64 bytes).length = 4 * ((bytes.length + 2) / 3)
  | a :: b :: c :: rest => by
      have ih := length_base64 rest
      simp only [base64, length_cons]
      omega
  | [_, _] | [_] => by simp [base64]
  | [] => rfl

theorem base64Digit_mem (n : Nat) : base64Digit n ∈ '=' :: base64Digits := by
  have hlt : n % 64 < base64Digits.length := Nat.mod_lt _ (by decide)
  rw [base64Digit, List.getD, List.getElem?_eq_getElem hlt]
  exact mem_cons_of_mem _ (getElem_mem hlt)

theorem base64_mem : ∀ bytes, ∀ c ∈ base64 bytes, c ∈ '=' :: base64Digits
  | a :: b :: d :: rest => by
      have ih := base64_mem rest
      simp only [base64, forall_mem_cons, base64Digit_mem, true_and]
      exact ih
  | [a, b] | [a] => by
      simp only [base64, forall_mem_cons, base64Digit_mem, mem_cons_self, true_and]
      exact forall_mem_nil _
  | [] => forall_mem_nil _

/-! ## Lengths -/

def byteLength (text : List Char) : Nat := (text.map Char.utf8Size).sum

theorem size_utf8Encode (text : List Char) : text.utf8Encode.size = byteLength text := by
  induction text with
  | nil => rfl
  | cons c text ih =>
    rw [utf8Encode_cons, ByteArray.size_append, ih, utf8Encode_singleton,
      size_toByteArray, String.length_utf8EncodeChar]
    rfl

/-- A text of single bytes. -/
def IsASCII (text : List Char) : Prop := ∀ c ∈ text, c.val ≤ 127

theorem IsASCII.byteLength (h : IsASCII text) : byteLength text = text.length := by
  induction text with
  | nil => rfl
  | cons c text ih =>
    obtain ⟨hc, htext⟩ := forall_mem_cons.1 h
    have hone : c.utf8Size = 1 := Char.utf8Size_eq_one_iff.2 hc
    have ih := ih htext
    simp only [Text.byteLength, map_cons, sum_cons, length_cons] at ih ⊢
    omega

/-! ## Tokens

A token is what stands between commas and spaces; tokens with commas and spaces between them are
printable. -/

def isPrintable (c : Char) : Bool := 0x20 ≤ c.toNat && c.toNat ≤ 0x7e

def isToken (c : Char) : Bool := isPrintable c && c != ' ' && c != ','

structure Token (text : List Char) : Prop where
  nonempty : text ≠ []
  chars : ∀ c ∈ text, isToken c = true

/-- A text that can stand at the end of a line, and is not changed by trimming. -/
structure Value (text : List Char) : Prop where
  nonempty : text ≠ []
  trimmed : Trimmed text
  chars : ∀ c ∈ text, isPrintable c = true

theorem isPrintable_of_isToken (h : isToken c = true) : isPrintable c = true :=
  (Bool.and_eq_true_iff.1 (Bool.and_eq_true_iff.1 h).1).1

theorem isSpace_of_isToken (h : isToken c = true) : isSpace c = false := by
  simp only [isToken, isPrintable, Bool.and_eq_true, decide_eq_true_eq, bne_iff_ne] at h
  obtain ⟨⟨⟨hle, hge⟩, hspace⟩, -⟩ := h
  have hne : c.toNat ≠ 0x20 := fun h => hspace (Char.ext (UInt32.toNat_inj.1 h))
  simp only [isSpace, contains_eq_mem, mem_cons, not_mem_nil, or_false,
    Bool.or_eq_false_iff, decide_eq_false_iff_not, Bool.and_eq_false_iff]
  omega

theorem Token.trimmed (h : Token text) : Trimmed text :=
  .of_forall fun c hc => isSpace_of_isToken (h.chars c hc)

theorem Token.comma (h : Token text) : ',' ∉ text :=
  fun hc => absurd (h.chars _ hc) (by decide)

theorem Token.value (h : Token text) : Value text :=
  ⟨h.nonempty, h.trimmed, fun c hc => isPrintable_of_isToken (h.chars c hc)⟩

theorem Value.commaSeparated (hne : parts ≠ []) (hparts : ∀ part ∈ parts, Token part) :
    Value (commaSeparated parts) where
  nonempty := commaSeparated_ne_nil hne fun part hpart => (hparts part hpart).nonempty
  trimmed := .commaSeparated (fun part hpart => (hparts part hpart).nonempty)
    fun part hpart => (hparts part hpart).trimmed
  chars := by
    intro c hc
    rcases mem_intercalate hc with hc | ⟨part, hpart, hc⟩
    · have hsep : ∀ c ∈ [',', ' '], isPrintable c = true :=
        List.all_eq_true.1 (by decide)
      exact hsep c hc
    · exact isPrintable_of_isToken ((hparts part hpart).chars c hc)

theorem isASCII_of_isPrintable (h : ∀ c ∈ text, isPrintable c = true) : IsASCII text := by
  intro c hc
  have hrange := h c hc
  simp only [isPrintable, Bool.and_eq_true, decide_eq_true_eq] at hrange
  exact UInt32.le_iff_toNat_le.2 (hrange.2.trans (by decide))

end Text
