import PrivateVm.Json.Syntax

set_option autoImplicit false

/-! # JSON documents: bytes and tokens

`lex` cuts a byte string into tokens with a state machine that reads one byte at a time. `render`
writes tokens without white space. `lex_render` says that a value is found again in what was
written, provided its strings need no escapes (`Tok.Clean`); `lex_render_of_legible` says so of
strings with escapes too.
-/

namespace Json

open Decimal List Function

/-- Where a number stands in the grammar. -/
inductive NumState where
  | neg
  | zero
  | int
  | dot
  | frac
  | exp
  | expSign
  | expDigit
  deriving DecidableEq

/-- The number read on past `b`, if `b` continues it. -/
def NumState.next (st : NumState) (b : UInt8) : Option NumState :=
  match st with
  | .neg => if b = 48 then some .zero else if isDigit b then some .int else none
  | .zero => if b = 46 then some .dot else if b = 101 ∨ b = 69 then some .exp else none
  | .int =>
    if isDigit b then some .int
    else if b = 46 then some .dot
    else if b = 101 ∨ b = 69 then some .exp
    else none
  | .dot => if isDigit b then some .frac else none
  | .frac => if isDigit b then some .frac else if b = 101 ∨ b = 69 then some .exp else none
  | .exp =>
    if b = 43 ∨ b = 45 then some .expSign
    else if isDigit b then some .expDigit
    else none
  | .expSign => if isDigit b then some .expDigit else none
  | .expDigit => if isDigit b then some .expDigit else none

/-- Whether a number may end here. -/
def NumState.ends : NumState → Bool
  | .zero | .int | .frac | .expDigit => true
  | .neg | .dot | .exp | .expSign => false

/-- Where the lexer stands; the accumulated bytes are newest first. -/
inductive LexState where
  | ready
  | str (acc : Bytes)
  | esc (acc : Bytes)
  | hex (left : Nat) (acc : Bytes)
  | num (st : NumState) (acc : Bytes)
  | word (left : Bytes) (tok : Tok)
  deriving DecidableEq

def isHex (b : UInt8) : Bool :=
  isDigit b || (97 ≤ b.toNat && b.toNat ≤ 102) || (65 ≤ b.toNat && b.toNat ≤ 70)

def startTok (b : UInt8) : Option (List Tok × LexState) :=
  if b = 32 ∨ b = 9 ∨ b = 10 ∨ b = 13 then some ([], .ready)
  else if b = 123 then some ([.lbrace], .ready)
  else if b = 125 then some ([.rbrace], .ready)
  else if b = 91 then some ([.lbrack], .ready)
  else if b = 93 then some ([.rbrack], .ready)
  else if b = 58 then some ([.colon], .ready)
  else if b = 44 then some ([.comma], .ready)
  else if b = 34 then some ([], .str [])
  else if b = 45 then some ([], .num .neg [b])
  else if b = 48 then some ([], .num .zero [b])
  else if isDigit b then some ([], .num .int [b])
  else if b = 116 then some ([], .word [114, 117, 101] (.bool true))
  else if b = 102 then some ([], .word [97, 108, 115, 101] (.bool false))
  else if b = 110 then some ([], .word [117, 108, 108] .null)
  else none

/-- One byte: the tokens it completes and the state after it. -/
def lexStep : LexState → UInt8 → Option (List Tok × LexState)
  | .ready, b => startTok b
  | .str acc, b =>
    if b = 34 then some ([.str acc.reverse], .ready)
    else if b = 92 then some ([], .esc (b :: acc))
    else if b.toNat < 32 then none
    else some ([], .str (b :: acc))
  | .esc acc, b =>
    if b = 117 then some ([], .hex 4 (b :: acc))
    else if b ∈ [98, 102, 110, 114, 116, 92, 47, 34] then some ([], .str (b :: acc))
    else none
  | .hex left acc, b =>
    if isHex b then some ([], if left = 1 then .str (b :: acc) else .hex (left - 1) (b :: acc))
    else none
  | .num st acc, b =>
    match st.next b with
    | some st' => some ([], .num st' (b :: acc))
    | none =>
      if st.ends then (startTok b).map fun r => (.num acc.reverse :: r.1, r.2) else none
  | .word left tok, b =>
    match left with
    | [c] => if b = c then some ([tok], .ready) else none
    | c :: rest => if b = c then some ([], .word rest tok) else none
    | [] => none

/-- The tokens of a byte string, read from a state. -/
def lexFrom : LexState → Bytes → Option (List Tok)
  | .ready, [] => some []
  | .num st acc, [] => if st.ends then some [.num acc.reverse] else none
  | _, [] => none
  | s, b :: bs => (lexStep s b).bind fun r => (lexFrom r.2 bs).map fun ts => r.1 ++ ts

def lex (s : Bytes) : Option (List Tok) := lexFrom .ready s

/-! ## Writing -/

def Tok.render : Tok → Bytes
  | .lbrace => [123]
  | .rbrace => [125]
  | .lbrack => [91]
  | .rbrack => [93]
  | .colon => [58]
  | .comma => [44]
  | .str raw => 34 :: (raw ++ [34])
  | .num raw => raw
  | .bool true => [116, 114, 117, 101]
  | .bool false => [102, 97, 108, 115, 101]
  | .null => [110, 117, 108, 108]

def render (ts : List Tok) : Bytes := ts.flatMap Tok.render

@[simp] theorem render_nil : render [] = [] := rfl

@[simp] theorem render_cons (t : Tok) (ts : List Tok) : render (t :: ts) = t.render ++ render ts :=
  flatMap_cons

@[simp] theorem render_append (ts us : List Tok) : render (ts ++ us) = render ts ++ render us :=
  flatMap_append

/-- Bytes a string holds without escaping. -/
def PlainByte (b : UInt8) : Prop := 32 ≤ b.toNat ∧ b ≠ 34 ∧ b ≠ 92

/-- Tokens that are read back as written. -/
def Tok.Clean : Tok → Prop
  | .str raw => ∀ b ∈ raw, PlainByte b
  | .num raw => ∃ n, raw = decimal n
  | _ => True

/-- Raw bytes of a string, escapes included, that the lexer takes in as they are. -/
def Written (raw : Bytes) : Prop :=
  ∀ acc rest, lexFrom (.str acc) (raw ++ rest) = lexFrom (.str (raw.reverse ++ acc)) rest

/-- Tokens that are read back as written, whether or not their strings have escapes. -/
def Tok.Legible : Tok → Prop
  | .str raw => Written raw
  | .num raw => ∃ n, raw = decimal n
  | _ => True

/-! ## Reading back what was written -/

variable {s' : LexState} {b : UInt8} {raw rest : Bytes} {t : Tok} {s : LexState} {out ts : List Tok}
  {left : Bytes} {v : Value} {vs : List Value} {fs : List (Bytes × Value)}

theorem lexFrom_cons (bs : Bytes) (h : lexStep s b = some (out, s')) :
    lexFrom s (b :: bs) = (lexFrom s' bs).map fun ts => out ++ ts := by
  rw [lexFrom, h]
  rfl

theorem lexFrom_ready_cons (bs : Bytes) (h : startTok b = some (out, s')) :
    lexFrom .ready (b :: bs) = (lexFrom s' bs).map fun ts => out ++ ts :=
  lexFrom_cons bs h

theorem lexFrom_cons_silent (bs : Bytes) (h : lexStep s b = some ([], s')) :
    lexFrom s (b :: bs) = lexFrom s' bs := by
  rw [lexFrom_cons bs h]
  simp

theorem written_nil : Written [] := fun _ _ => rfl

theorem Written.append {raw'} (h : Written raw) (h' : Written raw') : Written (raw ++ raw') := by
  intro acc rest
  rw [append_assoc, h, h', reverse_append, append_assoc]

theorem written_plainByte (h : PlainByte b) : Written [b] := by
  obtain ⟨h32, h34, h92⟩ := h
  intro acc rest
  have hstep : lexStep (.str acc) b = some ([], .str (b :: acc)) := by
    simp only [lexStep, if_neg h34, if_neg h92, if_neg (by omega : ¬ b.toNat < 32)]
  exact lexFrom_cons_silent _ hstep

theorem written_plain (h : ∀ b ∈ raw, PlainByte b) : Written raw := by
  induction raw with
  | nil => exact written_nil
  | cons b t ih =>
    obtain ⟨hb, ht⟩ := forall_mem_cons.1 h
    exact (written_plainByte hb).append (ih ht)

theorem Tok.Clean.legible (h : t.Clean) : t.Legible := by
  cases t with
  | str => exact written_plain h
  | num => exact h
  | _ => trivial

theorem lexFrom_str (h : Written raw) (rest : Bytes) :
    lexFrom .ready ((Tok.str raw).render ++ rest) = (lexFrom .ready rest).map (.str raw :: ·) := by
  have hstart : lexStep .ready 34 = some ([], .str []) := by decide
  have hend : lexStep (.str raw.reverse) 34 = some ([.str raw], .ready) := by
    simp [lexStep]
  rw [Tok.render, cons_append, lexFrom_cons_silent _ hstart, append_assoc,
    h, append_nil, cons_append, lexFrom_cons _ hend]
  rfl

/-- What may follow a number in a written document: nothing, or a byte that opens a token
and continues no number. -/
def Delimited (rest : Bytes) : Prop :=
  ∀ b bs, rest = b :: bs → b = 44 ∨ b = 93 ∨ b = 125

theorem lexFrom_digits {ds} (h : ∀ b ∈ ds, isDigit b = true) (acc rest : Bytes) :
    lexFrom (.num .int acc) (ds ++ rest) = lexFrom (.num .int (ds.reverse ++ acc)) rest := by
  induction ds generalizing acc with
  | nil => rfl
  | cons b t ih =>
    have hstep : lexStep (.num .int acc) b = some ([], .num .int (b :: acc)) := by
      simp [lexStep, NumState.next, h b (by simp)]
    rw [cons_append, lexFrom_cons_silent _ hstep, ih fun c hc => h c (by simp [hc])]
    simp

theorem lexFrom_num_end {st} (hst : st = .int ∨ st = .zero) (acc : Bytes) (hrest : Delimited rest) :
    lexFrom (.num st acc) rest = (lexFrom .ready rest).map (.num acc.reverse :: ·) := by
  have hends : st.ends = true := by rcases hst with rfl | rfl <;> rfl
  cases rest with
  | nil => simp [lexFrom, hends]
  | cons b bs =>
    have hnext : st.next b = none := by
      rcases hst with rfl | rfl <;> rcases hrest b bs rfl with rfl | rfl | rfl <;> decide
    obtain ⟨out, s', hstart⟩ : ∃ out s', startTok b = some (out, s') := by
      rcases hrest b bs rfl with rfl | rfl | rfl
      · exact ⟨[.comma], .ready, by decide⟩
      · exact ⟨[.rbrack], .ready, by decide⟩
      · exact ⟨[.rbrace], .ready, by decide⟩
    have hstep : lexStep (.num st acc) b = some (.num acc.reverse :: out, s') := by
      simp only [lexStep, hnext, hends, hstart, if_true, Option.map_some]
    rw [lexFrom_cons _ hstep, lexFrom_ready_cons _ hstart]
    simp [comp_def]

theorem lexFrom_decimal (n : Nat) (hrest : Delimited rest) :
    lexFrom .ready (decimal n ++ rest) = (lexFrom .ready rest).map (.num (decimal n) :: ·) := by
  obtain ⟨d, t, hdt⟩ : ∃ d t, digitsOf n = d :: t :=
    exists_cons_of_ne_nil (digitsOf_ne_nil n)
  have hd : d < 10 := digitsOf_lt n d (by rw [hdt]; simp)
  have hdec : decimal n = digit d :: t.map digit := by rw [decimal, hdt, map_cons]
  rw [hdec, cons_append]
  by_cases h0 : d = 0
  · -- a leading zero stands alone
    have hnil : t = [] := digitsOf_head hdt h0
    subst h0 hnil
    have hstart : lexStep .ready (digit 0) = some ([], .num .zero [digit 0]) := by decide
    rw [lexFrom_cons_silent _ hstart, map_nil, nil_append,
      lexFrom_num_end (.inr rfl) _ hrest]
    rfl
  · have hstart : lexStep .ready (digit d) = some ([], .num .int [digit d]) := by
      have : d = 1 ∨ d = 2 ∨ d = 3 ∨ d = 4 ∨ d = 5 ∨ d = 6 ∨ d = 7 ∨ d = 8 ∨ d = 9 := by omega
      rcases this with rfl | rfl | rfl | rfl | rfl | rfl | rfl | rfl | rfl <;> decide
    have ht : ∀ b ∈ t.map digit, isDigit b = true := by
      intro b hb
      exact decimal_isDigit n b (by rw [hdec]; exact mem_cons_of_mem _ hb)
    rw [lexFrom_cons_silent _ hstart, lexFrom_digits ht, lexFrom_num_end (.inl rfl) _ hrest]
    simp

theorem lexFrom_byte (h : startTok b = some ([t], .ready)) (rest : Bytes) :
    lexFrom .ready (b :: rest) = (lexFrom .ready rest).map (t :: ·) := by
  rw [lexFrom_ready_cons _ h]
  simp

theorem lexFrom_word (h : left ≠ []) (tok : Tok) (rest : Bytes) :
    lexFrom (.word left tok) (left ++ rest) = (lexFrom .ready rest).map (tok :: ·) := by
  induction left with
  | nil => exact absurd rfl h
  | cons c t ih =>
    cases t with
    | nil =>
      have hstep : lexStep (.word [c] tok) c = some ([tok], .ready) := by simp [lexStep]
      rw [cons_append, lexFrom_cons _ hstep]
      simp
    | cons d u =>
      have hstep : lexStep (.word (c :: d :: u) tok) c = some ([], .word (d :: u) tok) := by
        simp [lexStep]
      rw [cons_append, lexFrom_cons_silent _ hstep, ih (by simp)]

/-- A written word (`true`, `false`, `null`) after its first letter `b`. -/
theorem lexFrom_letter {tok : Tok} (hstart : lexStep .ready b = some ([], .word left tok))
    (hleft : left ≠ []) (rest : Bytes) :
    lexFrom .ready (b :: left ++ rest) = (lexFrom .ready rest).map (tok :: ·) := by
  rw [cons_append, lexFrom_cons_silent _ hstart, lexFrom_word hleft]

/-- A token that is no number is read back whatever follows it. -/
theorem lexFrom_tok_of_ne_num (ht : t.Legible) (hnum : ∀ raw, t ≠ .num raw) (rest : Bytes) :
    lexFrom .ready (t.render ++ rest) = (lexFrom .ready rest).map (t :: ·) := by
  cases t with
  | lbrace | rbrace | lbrack | rbrack | colon | comma => exact lexFrom_byte (by decide) rest
  | str => exact lexFrom_str ht rest
  | num raw => exact absurd rfl (hnum raw)
  | bool b => cases b <;> exact lexFrom_letter (by decide) (by decide) rest
  | null => exact lexFrom_letter (by decide) (by decide) rest

theorem lexFrom_tok (ht : t.Legible) (hrest : Delimited rest) :
    lexFrom .ready (t.render ++ rest) = (lexFrom .ready rest).map (t :: ·) := by
  by_cases hnum : ∀ raw, t ≠ .num raw
  · exact lexFrom_tok_of_ne_num ht hnum rest
  · simp only [not_forall, not_not] at hnum
    obtain ⟨raw, rfl⟩ := hnum
    obtain ⟨n, rfl⟩ := ht
    exact lexFrom_decimal n hrest

/-! ## Whole values -/

theorem delimited_itemsTail (vs : List Value) (rest : Bytes) :
    Delimited (render (itemsTail vs) ++ rest) := by
  intro b bs h
  cases vs with
  | nil | cons => simp [itemsTail, Tok.render] at h; simp [← h.1]

theorem delimited_fieldsTail (fs : List (Bytes × Value)) (rest : Bytes) :
    Delimited (render (fieldsTail fs) ++ rest) := by
  intro b bs h
  cases fs with
  | nil | cons => simp [fieldsTail, Tok.render] at h; simp [← h.1]

/-- Reading a list of tokens off the front of a byte string. -/
def Reads (ts : List Tok) (rest : Bytes) : Prop :=
  lexFrom .ready (render ts ++ rest) = (lexFrom .ready rest).map (ts ++ ·)

theorem Reads.cons (ht : t.Legible) (hnum : ∀ raw, t ≠ .num raw) (h : Reads ts rest) :
    Reads (t :: ts) rest := by
  unfold Reads at h ⊢
  rw [render_cons, append_assoc, lexFrom_tok_of_ne_num ht hnum, h]
  simp [comp_def]

theorem Reads.append {us} (hts : Reads ts (render us ++ rest)) (hus : Reads us rest) :
    Reads (ts ++ us) rest := by
  unfold Reads at hts hus ⊢
  rw [render_append, append_assoc, hts, hus]
  simp [comp_def]

theorem reads_singleton (ht : t.Legible) (hrest : Delimited rest) : Reads [t] rest := by
  unfold Reads
  rw [render_cons, render_nil, append_nil, lexFrom_tok ht hrest]
  simp

/-- A legible value, the rest of an object and the rest of an array are read off the front
together. -/
theorem reads_core :
    (∀ v : Value, (∀ t ∈ v.toks, t.Legible) → ∀ rest, Delimited rest → Reads v.toks rest) ∧
    (∀ fs, (∀ t ∈ fieldsTail fs, t.Legible) → ∀ rest, Reads (fieldsTail fs) rest) ∧
    (∀ vs, (∀ t ∈ itemsTail vs, t.Legible) → ∀ rest, Reads (itemsTail vs) rest) := by
  apply Value.toks.mutual_induct
  case case1 | case2 | case3 | case4 =>
    intros
    exact reads_singleton (by simp_all [Value.toks]) ‹_›
  case case5 => exact fun _ rest h => .cons trivial (by simp) (@reads_singleton _ .rbrack trivial h)
  case case7 => exact fun _ rest h => .cons trivial (by simp) (@reads_singleton _ .rbrace trivial h)
  case case9 | case11 => exact fun _ rest => .cons trivial (by simp) (by simp [Reads])
  -- the first element of a list is read as the others are
  case case6 | case10 =>
    intro v vs ihv ihi h rest
    intros
    simp only [Value.toks, itemsTail, forall_mem_cons, forall_mem_append] at h
    exact .cons trivial (by simp)
      ((ihv h.2.1 _ (delimited_itemsTail vs rest)).append (ihi h.2.2 rest))
  case case8 | case12 =>
    intro k v fs ihv ihf h rest
    intros
    simp only [Value.toks, fieldsTail, forall_mem_cons, forall_mem_append] at h
    exact .cons trivial (by simp) (.cons h.2.1 (by simp) (.cons trivial (by simp)
      ((ihv h.2.2.2.1 _ (delimited_fieldsTail fs rest)).append (ihf h.2.2.2.2 rest))))

/-- **A legible value is found again** in the bytes written for it. -/
theorem lex_render_of_legible (h : ∀ t ∈ v.toks, t.Legible) :
    lex (render v.toks) = some v.toks := by
  have hreads := reads_core.1 v h [] (by intro b bs hb; cases hb)
  unfold Reads at hreads
  rw [append_nil] at hreads
  rw [lex, hreads]
  simp [lexFrom]

theorem lex_render (h : ∀ t ∈ v.toks, t.Clean) : lex (render v.toks) = some v.toks :=
  lex_render_of_legible fun t ht => (h t ht).legible

/-! ## Clean values and their size -/

/-- A value all of whose tokens are read back as written. -/
def Value.Clean (v : Value) : Prop := ∀ t ∈ v.toks, t.Clean

def Value.Legible (v : Value) : Prop := ∀ t ∈ v.toks, t.Legible

section

/-! What holds of the tokens of the parts holds of those of the whole. -/

variable {P : Tok → Prop}

/-- A property of tokens that every delimiter has. -/
def Delimiters (P : Tok → Prop) : Prop :=
  P .lbrace ∧ P .rbrace ∧ P .lbrack ∧ P .rbrack ∧ P .colon ∧ P .comma

variable {vs : List Value} {fs : List (Bytes × Value)}

theorem forall_itemsTail (hP : Delimiters P) (h : ∀ v ∈ vs, ∀ t ∈ v.toks, P t) :
    ∀ t ∈ itemsTail vs, P t := by
  obtain ⟨-, -, -, hclose, -, hcomma⟩ := hP
  induction vs with
  | nil => simpa [itemsTail] using hclose
  | cons v vs ih =>
    obtain ⟨hv, hvs⟩ := forall_mem_cons.1 h
    simp only [itemsTail, forall_mem_cons, forall_mem_append]
    exact ⟨hcomma, hv, ih hvs⟩

theorem forall_toks_arr (hP : Delimiters P) (h : ∀ v ∈ vs, ∀ t ∈ v.toks, P t) :
    ∀ t ∈ (Value.arr vs).toks, P t := by
  have hdel := hP
  obtain ⟨-, -, hopen, hclose, -, -⟩ := hP
  cases vs with
  | nil => simpa [Value.toks] using .intro hopen hclose
  | cons =>
    obtain ⟨hv, hvs⟩ := forall_mem_cons.1 h
    simp only [Value.toks, forall_mem_cons, forall_mem_append]
    exact ⟨hopen, hv, forall_itemsTail hdel hvs⟩

theorem forall_fieldsTail (hP : Delimiters P) (h : ∀ f ∈ fs, P (.str f.1) ∧ ∀ t ∈ f.2.toks, P t) :
    ∀ t ∈ fieldsTail fs, P t := by
  obtain ⟨-, hclose, -, -, hcolon, hcomma⟩ := hP
  induction fs with
  | nil => simpa [fieldsTail] using hclose
  | cons f fs ih =>
    obtain ⟨hf, hfs⟩ := forall_mem_cons.1 h
    simp only [fieldsTail, forall_mem_cons, forall_mem_append]
    exact ⟨hcomma, hf.1, hcolon, hf.2, ih hfs⟩

theorem forall_toks_obj (hP : Delimiters P) (h : ∀ f ∈ fs, P (.str f.1) ∧ ∀ t ∈ f.2.toks, P t) :
    ∀ t ∈ (Value.obj fs).toks, P t := by
  have hdel := hP
  obtain ⟨hopen, hclose, -, -, hcolon, -⟩ := hP
  cases fs with
  | nil => simpa [Value.toks] using .intro hopen hclose
  | cons =>
    obtain ⟨hf, hfs⟩ := forall_mem_cons.1 h
    simp only [Value.toks, forall_mem_cons, forall_mem_append]
    exact ⟨hopen, hf.1, hcolon, hf.2, forall_fieldsTail hdel hfs⟩

end

theorem delimiters_clean : Delimiters Tok.Clean := by simp [Delimiters, Tok.Clean]

theorem delimiters_legible : Delimiters Tok.Legible := by simp [Delimiters, Tok.Legible]

theorem Value.clean_arr (h : ∀ v ∈ vs, v.Clean) : (Value.arr vs).Clean :=
  forall_toks_arr delimiters_clean h

theorem Value.clean_obj (h : ∀ f ∈ fs, (∀ b ∈ f.1, PlainByte b) ∧ f.2.Clean) :
    (Value.obj fs).Clean :=
  forall_toks_obj delimiters_clean h

theorem Value.legible_arr (h : ∀ v ∈ vs, v.Legible) : (Value.arr vs).Legible :=
  forall_toks_arr delimiters_legible h

theorem Value.legible_obj (h : ∀ f ∈ fs, Written f.1 ∧ f.2.Legible) : (Value.obj fs).Legible :=
  forall_toks_obj delimiters_legible h

def Value.size (v : Value) : Nat := (render v.toks).length

theorem render_itemsTail_length (vs : List Value) :
    (render (itemsTail vs)).length = (vs.map fun v => v.size + 1).sum + 1 := by
  induction vs with
  | nil => simp [itemsTail, Tok.render]
  | cons v vs ih =>
    simp only [itemsTail, render_cons, render_append, Tok.render, length_append,
      length_cons, length_nil, map_cons, sum_cons, ih, Value.size]
    omega

theorem Value.size_arr_le (vs : List Value) :
    (Value.arr vs).size ≤ (vs.map fun v => v.size + 1).sum + 2 := by
  cases vs with
  | nil => simp [Value.size, Value.toks, Tok.render]
  | cons =>
    simp only [Value.size, Value.toks, render_cons, render_append, Tok.render, length_append,
      length_cons, length_nil, map_cons, sum_cons, render_itemsTail_length]
    omega

theorem render_fieldsTail_length (fs : List (Bytes × Value)) :
    (render (fieldsTail fs)).length = (fs.map fun f => f.1.length + f.2.size + 4).sum + 1 := by
  induction fs with
  | nil => simp [fieldsTail, Tok.render]
  | cons f fs ih =>
    simp only [fieldsTail, render_cons, render_append, Tok.render, length_append,
      length_cons, length_nil, map_cons, sum_cons, ih, Value.size]
    omega

theorem Value.size_obj_le (fs : List (Bytes × Value)) :
    (Value.obj fs).size ≤ (fs.map fun f => f.1.length + f.2.size + 4).sum + 2 := by
  cases fs with
  | nil => simp [Value.size, Value.toks, Tok.render]
  | cons =>
    simp only [Value.size, Value.toks, render_cons, render_append, Tok.render, length_append,
      length_cons, length_nil, map_cons, sum_cons, render_fieldsTail_length]
    omega

end Json
