import PrivateVm.Json.Text

set_option autoImplicit false

/-! # Reading a JSON document token by token

The token interface of a streaming decoder: `token` skips commas and colons and checks them against
a stack of token states; `more` tells whether the current array or object goes on.
-/

namespace Json

open Decimal List

inductive TokenState where
  | topValue
  | arrayStart
  | arrayValue
  | arrayComma
  | objectStart
  | objectKey
  | objectColon
  | objectValue
  | objectComma
  deriving DecidableEq

/-- What `token` returns. The walk of a document looks at delimiters and strings only;
numbers, booleans and `null` are `scalar`. -/
inductive Token where
  | lbrace
  | rbrace
  | lbrack
  | rbrack
  | text (s : String)
  | scalar
  deriving DecidableEq

structure Decoder where
  rest : List Tok
  state : TokenState
  stack : List TokenState
  deriving DecidableEq

def TokenState.valueAllowed : TokenState → Bool
  | .topValue | .arrayStart | .arrayValue | .objectValue => true
  | .arrayComma | .objectStart | .objectKey | .objectColon | .objectComma => false

def TokenState.valueEnd : TokenState → TokenState
  | .arrayStart | .arrayValue => .arrayComma
  | .objectValue => .objectComma
  | s => s

namespace Decoder

/-- Pass the comma or the colon that the state asks for. -/
def skipSeparator (d : Decoder) : Option Decoder :=
  match d.rest with
  | .colon :: ts =>
    if d.state = .objectColon then some { d with rest := ts, state := .objectValue } else none
  | .comma :: ts =>
    if d.state = .arrayComma then some { d with rest := ts, state := .arrayValue }
    else if d.state = .objectComma then some { d with rest := ts, state := .objectKey }
    else none
  | _ => some d

/-- The token under a decoder that stands before no separator. -/
def tokenHere (d : Decoder) : Option (Token × Decoder) :=
  match d.rest with
  | .lbrack :: ts =>
    if d.state.valueAllowed then some (.lbrack, ⟨ts, .arrayStart, d.state :: d.stack⟩) else none
  | .rbrack :: ts =>
    if d.state = .arrayStart ∨ d.state = .arrayComma then
      match d.stack with
      | s :: stack => some (.rbrack, ⟨ts, s.valueEnd, stack⟩)
      | [] => none
    else none
  | .lbrace :: ts =>
    if d.state.valueAllowed then some (.lbrace, ⟨ts, .objectStart, d.state :: d.stack⟩) else none
  | .rbrace :: ts =>
    if d.state = .objectStart ∨ d.state = .objectComma then
      match d.stack with
      | s :: stack => some (.rbrace, ⟨ts, s.valueEnd, stack⟩)
      | [] => none
    else none
  | .str raw :: ts =>
    if d.state = .objectStart ∨ d.state = .objectKey then
      some (.text (unquote raw), ⟨ts, .objectColon, d.stack⟩)
    else if d.state.valueAllowed then
      some (.text (unquote raw), ⟨ts, d.state.valueEnd, d.stack⟩)
    else none
  | .num _ :: ts | .bool _ :: ts | .null :: ts =>
    if d.state.valueAllowed then some (.scalar, ⟨ts, d.state.valueEnd, d.stack⟩) else none
  | .colon :: _ | .comma :: _ | [] => none

def token (d : Decoder) : Option (Token × Decoder) := d.skipSeparator.bind tokenHere

def more (d : Decoder) : Bool :=
  match d.rest with
  | [] | .rbrack :: _ | .rbrace :: _ => false
  | _ => true

def atEOF (d : Decoder) : Bool := d.rest.isEmpty

def ofToks (ts : List Tok) : Decoder := ⟨ts, .topValue, []⟩

end Decoder

/-! ## In front of a value -/

/-- A decoder stands before a value `v`, after passing at most one separator, with `rest` to
follow. `state` and `stack` are those it passes the value with. -/
def Decoder.Before (d : Decoder) (v : Value) (rest : List Tok) (state : TokenState)
    (stack : List TokenState) : Prop :=
  d.skipSeparator = some ⟨v.toks ++ rest, state, stack⟩ ∧ state.valueAllowed = true

theorem Decoder.token_of_skip {d d' : Decoder} (h : d.skipSeparator = some d') :
    d.token = d'.tokenHere := by
  rw [Decoder.token, h]
  rfl

section

variable (v : Value) (rest : List Tok) (stack : List TokenState)

/-- A value's first token is no separator. -/
theorem Value.skipSeparator_toks (state : TokenState) :
    Decoder.skipSeparator ⟨v.toks ++ rest, state, stack⟩ = some ⟨v.toks ++ rest, state, stack⟩ := by
  cases v with
  | null | bool _ | num _ | str => rfl
  | arr items => cases items <;> rfl
  | obj fields => cases fields <;> rfl

theorem Value.more_toks (state : TokenState) :
    Decoder.more ⟨v.toks ++ rest, state, stack⟩ = true := by
  cases v with
  | null | bool _ | num _ | str => rfl
  | arr items => cases items <;> rfl
  | obj fields => cases fields <;> rfl

theorem Decoder.before_of_allowed {state} (h : state.valueAllowed = true) :
    Decoder.Before ⟨v.toks ++ rest, state, stack⟩ v rest state stack :=
  ⟨v.skipSeparator_toks rest stack state, h⟩

theorem Decoder.before_after_comma :
    Decoder.Before ⟨.comma :: (v.toks ++ rest), .arrayComma, stack⟩ v rest .arrayValue stack :=
  ⟨rfl, rfl⟩

theorem Decoder.before_after_colon :
    Decoder.Before ⟨.colon :: (v.toks ++ rest), .objectColon, stack⟩ v rest .objectValue stack :=
  ⟨rfl, rfl⟩

end

/-! ## In front of the items of an array and the fields of an object -/

/-- What follows the opening bracket of an array. -/
def itemsHead : List Value → List Tok
  | [] => [.rbrack]
  | v :: vs => v.toks ++ itemsTail vs

/-- What follows the opening brace of an object. -/
def fieldsHead : List (Bytes × Value) → List Tok
  | [] => [.rbrace]
  | (k, v) :: fs => .str k :: .colon :: (v.toks ++ fieldsTail fs)

theorem Value.toks_arr (items : List Value) :
    (Value.arr items).toks = .lbrack :: itemsHead items := by
  cases items <;> simp [Value.toks, itemsHead]

theorem Value.toks_obj (fields : List (Bytes × Value)) :
    (Value.obj fields).toks = .lbrace :: fieldsHead fields := by
  cases fields <;> simp [Value.toks, fieldsHead]

/-- A decoder stands where the items `vs` of an array go on; `last` is the decoder at the
bracket that closes them. -/
def Decoder.ItemsAt (d : Decoder) (rest : List Tok) (stack : List TokenState) (last : Decoder) :
    List Value → Prop
  | [] => d = last ∧ d.rest = .rbrack :: rest ∧ d.stack = stack ∧
      (d.state = .arrayStart ∨ d.state = .arrayComma)
  | v :: vs => last = ⟨.rbrack :: rest, .arrayComma, stack⟩ ∧ d.more = true ∧
      ∃ state, d.Before v (itemsTail vs ++ rest) state stack ∧ state.valueEnd = .arrayComma

/-- A decoder stands where the fields of an object go on. -/
def Decoder.FieldsAt (d : Decoder) (rest : List Tok) (stack : List TokenState) (last : Decoder) :
    List (Bytes × Value) → Prop
  | [] => d = last ∧ d.rest = .rbrace :: rest ∧ d.stack = stack ∧
      (d.state = .objectStart ∨ d.state = .objectComma)
  | (k, v) :: fs => last = ⟨.rbrace :: rest, .objectComma, stack⟩ ∧ d.more = true ∧
      d.token = some (.text (unquote k),
        ⟨.colon :: (v.toks ++ (fieldsTail fs ++ rest)), .objectColon, stack⟩)

def itemsLast (vs : List Value) (rest : List Tok) (stack : List TokenState) : Decoder :=
  ⟨.rbrack :: rest, if vs.isEmpty then .arrayStart else .arrayComma, stack⟩

def fieldsLast (fs : List (Bytes × Value)) (rest : List Tok) (stack : List TokenState) : Decoder :=
  ⟨.rbrace :: rest, if fs.isEmpty then .objectStart else .objectComma, stack⟩

namespace Decoder

variable (vs : List Value) (fs : List (Bytes × Value)) (rest : List Tok) (stack : List TokenState)

theorem itemsAt_start :
    ItemsAt ⟨itemsHead vs ++ rest, .arrayStart, stack⟩ rest stack (itemsLast vs rest stack) vs := by
  cases vs with
  | nil => exact ⟨rfl, rfl, rfl, .inl rfl⟩
  | cons v =>
    rw [itemsHead, append_assoc]
    exact ⟨rfl, v.more_toks _ _ _, .arrayStart, before_of_allowed v _ _ rfl, rfl⟩

theorem itemsAt_next :
    ItemsAt ⟨itemsTail vs ++ rest, .arrayComma, stack⟩ rest stack
      ⟨.rbrack :: rest, .arrayComma, stack⟩ vs := by
  cases vs with
  | nil => exact ⟨by simp [itemsTail], by simp [itemsTail], rfl, .inr rfl⟩
  | cons v =>
    rw [itemsTail, cons_append, append_assoc]
    exact ⟨rfl, rfl, .arrayValue, before_after_comma v _ _, rfl⟩

theorem token_itemsLast (state : TokenState) :
    (itemsLast vs rest (state :: stack)).token = some (.rbrack, ⟨rest, state.valueEnd, stack⟩) := by
  cases vs <;> rfl

theorem fieldsAt_start :
    FieldsAt ⟨fieldsHead fs ++ rest, .objectStart, stack⟩ rest stack
      (fieldsLast fs rest stack) fs := by
  cases fs with
  | nil => exact ⟨rfl, rfl, rfl, .inl rfl⟩
  | cons =>
    rw [fieldsHead, cons_append, cons_append, append_assoc]
    exact ⟨rfl, rfl, rfl⟩

theorem fieldsAt_next :
    FieldsAt ⟨fieldsTail fs ++ rest, .objectComma, stack⟩ rest stack
      ⟨.rbrace :: rest, .objectComma, stack⟩ fs := by
  cases fs with
  | nil => exact ⟨by simp [fieldsTail], by simp [fieldsTail], rfl, .inr rfl⟩
  | cons =>
    rw [fieldsTail, cons_append, cons_append, cons_append, append_assoc]
    exact ⟨rfl, rfl, rfl⟩

theorem token_fieldsLast (state : TokenState) :
    (fieldsLast fs rest (state :: stack)).token =
      some (.rbrace, ⟨rest, state.valueEnd, stack⟩) := by
  cases fs <;> rfl

end Decoder

end Json
