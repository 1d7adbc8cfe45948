import PrivateVm.Basic.Decimal

set_option autoImplicit false

/-! # JSON documents: tokens and values

Strings and numbers keep their raw bytes, and the fields of an object keep their order and their
duplicates, so that a value determines its tokens (`Value.toks`). `parse` accepts exactly the
token lists of values (`parse_eq_some_iff`); its fuel never runs out.
-/

namespace Json

open Decimal List

inductive Tok where
  | lbrace
  | rbrace
  | lbrack
  | rbrack
  | colon
  | comma
  | str (raw : Bytes)
  | num (raw : Bytes)
  | bool (b : Bool)
  | null
  deriving DecidableEq

/-- A value; the raw bytes of a string are those between its quotes. -/
inductive Value where
  | null
  | bool (b : Bool)
  | num (raw : Bytes)
  | str (raw : Bytes)
  | arr (items : List Value)
  | obj (fields : List (Bytes × Value))

mutual

def Value.toks : Value → List Tok
  | .null => [.null]
  | .bool b => [.bool b]
  | .num raw => [.num raw]
  | .str raw => [.str raw]
  | .arr [] => [.lbrack, .rbrack]
  | .arr (v :: vs) => .lbrack :: (v.toks ++ itemsTail vs)
  | .obj [] => [.lbrace, .rbrace]
  | .obj ((k, v) :: fs) => .lbrace :: .str k :: .colon :: (v.toks ++ fieldsTail fs)

/-- What follows an item of an array: the further items, and the closing bracket. -/
def itemsTail : List Value → List Tok
  | [] => [.rbrack]
  | v :: vs => .comma :: (v.toks ++ itemsTail vs)

/-- What follows a field of an object. -/
def fieldsTail : List (Bytes × Value) → List Tok
  | [] => [.rbrace]
  | (k, v) :: fs => .comma :: .str k :: .colon :: (v.toks ++ fieldsTail fs)

end

mutual

/-- Read one value off the front of a token list. -/
def parseValue : Nat → List Tok → Option (Value × List Tok)
  | 0, _ => none
  | n + 1, ts =>
    match ts with
    | .null :: rest => some (.null, rest)
    | .bool b :: rest => some (.bool b, rest)
    | .num raw :: rest => some (.num raw, rest)
    | .str raw :: rest => some (.str raw, rest)
    | .lbrack :: .rbrack :: rest => some (.arr [], rest)
    | .lbrack :: rest => (parseItems n rest).map fun r => (.arr r.1, r.2)
    | .lbrace :: .rbrace :: rest => some (.obj [], rest)
    | .lbrace :: rest => (parseFields n rest).map fun r => (.obj r.1, r.2)
    | _ => none

/-- Read one or more items and the bracket that closes them. -/
def parseItems : Nat → List Tok → Option (List Value × List Tok)
  | 0, _ => none
  | n + 1, ts =>
    match parseValue n ts with
    | some (v, .rbrack :: rest) => some ([v], rest)
    | some (v, .comma :: rest) => (parseItems n rest).map fun r => (v :: r.1, r.2)
    | _ => none

/-- Read one or more fields and the brace that closes them. -/
def parseFields : Nat → List Tok → Option (List (Bytes × Value) × List Tok)
  | 0, _ => none
  | n + 1, ts =>
    match ts with
    | .str k :: .colon :: ts =>
      match parseValue n ts with
      | some (v, .rbrace :: rest) => some ([(k, v)], rest)
      | some (v, .comma :: rest) => (parseFields n rest).map fun r => ((k, v) :: r.1, r.2)
      | _ => none
    | _ => none

end

/-- The value a token list spells, with nothing left over. -/
def parse (ts : List Tok) : Option Value :=
  match parseValue (ts.length + 1) ts with
  | some (v, []) => some v
  | _ => none

/-! ## The parser accepts only the tokens of values -/

theorem Value.toks_ne_rbrack (v : Value) (rest rest' : List Tok) :
    v.toks ++ rest ≠ .rbrack :: rest' := by
  cases v with
  | arr items => cases items <;> simp [Value.toks]
  | obj fields =>
    cases fields with
    | nil | cons => simp [Value.toks]
  | null | bool _ | num _ | str => simp [Value.toks]

/-- What the three readers consume is what they return. One induction on the fuel carries
all three, since each calls the others with less. -/
theorem parse_sound_core (n : Nat) :
    (∀ ts v rest, parseValue n ts = some (v, rest) → ts = v.toks ++ rest) ∧
    (∀ ts vs rest, parseItems n ts = some (vs, rest) →
      ∃ v vs', vs = v :: vs' ∧ ts = v.toks ++ itemsTail vs' ++ rest) ∧
    (∀ ts fs rest, parseFields n ts = some (fs, rest) →
      ∃ k v fs', fs = (k, v) :: fs' ∧
        ts = .str k :: .colon :: (v.toks ++ fieldsTail fs' ++ rest)) := by
  induction n with
  | zero =>
    refine ⟨?_, ?_, ?_⟩ <;> intro ts v rest h <;> simp [parseValue, parseItems, parseFields] at h
  | succ n ih =>
    obtain ⟨ihv, ihi, ihf⟩ := ih
    refine ⟨?_, ?_, ?_⟩
    · intro ts v rest h
      unfold parseValue at h
      split at h
      · cases h; rfl
      · cases h; rfl
      · cases h; rfl
      · cases h; rfl
      · cases h; rfl
      · obtain ⟨⟨vs, rest'⟩, hp, hv⟩ := Option.map_eq_some_iff.mp h
        obtain ⟨w, ws, rfl, rfl⟩ := ihi _ _ _ hp
        cases hv
        simp [Value.toks]
      · cases h; rfl
      · obtain ⟨⟨fs, rest'⟩, hp, hv⟩ := Option.map_eq_some_iff.mp h
        obtain ⟨k, w, ws, rfl, rfl⟩ := ihf _ _ _ hp
        cases hv
        simp [Value.toks]
      · cases h
    · intro ts vs rest h
      unfold parseItems at h
      split at h
      · next v rest' hv =>
          cases h
          exact ⟨v, [], rfl, by rw [ihv _ _ _ hv]; simp [itemsTail]⟩
      · next v rest' hv =>
          obtain ⟨⟨ws, rest''⟩, hp, hw⟩ := Option.map_eq_some_iff.mp h
          obtain ⟨w, ws', rfl, rfl⟩ := ihi _ _ _ hp
          cases hw
          exact ⟨v, w :: ws', rfl, by rw [ihv _ _ _ hv]; simp [itemsTail]⟩
      · cases h
    · intro ts fs rest h
      unfold parseFields at h
      split at h
      · next k ts' =>
          split at h
          · next v rest' hv =>
              cases h
              exact ⟨k, v, [], rfl, by rw [ihv _ _ _ hv]; simp [fieldsTail]⟩
          · next v rest' hv =>
              obtain ⟨⟨ws, rest''⟩, hp, hw⟩ := Option.map_eq_some_iff.mp h
              obtain ⟨k', w, ws', rfl, rfl⟩ := ihf _ _ _ hp
              cases hw
              exact ⟨k, v, (k', w) :: ws', rfl, by rw [ihv _ _ _ hv]; simp [fieldsTail]⟩
          · cases h
      · cases h

/-! ## The parser accepts the tokens of every value -/

/-- Given more fuel than tokens, a value is taken off the front. -/
def Value.Parses (v : Value) : Prop :=
  ∀ n rest, v.toks.length < n → parseValue n (v.toks ++ rest) = some (v, rest)

/-- So are the fields and the items, after a first one. -/
theorem parse_complete_core :
    (∀ v : Value, v.Parses) ∧
    (∀ fs k v, v.Parses → ∀ n rest, (v.toks ++ fieldsTail fs).length < n →
      parseFields n (.str k :: .colon :: (v.toks ++ (fieldsTail fs ++ rest))) =
        some ((k, v) :: fs, rest)) ∧
    (∀ vs v, v.Parses → ∀ n rest, (v.toks ++ itemsTail vs).length < n →
      parseItems n (v.toks ++ (itemsTail vs ++ rest)) = some (v :: vs, rest)) := by
  apply Value.toks.mutual_induct
  case case1 | case5 | case7 =>
    rintro (_ | n) rest h
    · omega
    · rfl
  case case2 | case3 | case4 =>
    rintro raw (_ | n) rest h
    · omega
    · rfl
  case case6 =>
    rintro v vs ihv ihi (_ | n) rest h
    · omega
    simp only [Value.toks, length_cons] at h
    rw [Value.toks, cons_append, append_assoc, parseValue, ihi v ihv n rest (by omega)]
    · rfl
    · -- an item cannot start with the closing bracket
      exact fun rest' => v.toks_ne_rbrack _ _
  case case8 =>
    rintro k v fs ihv ihf (_ | n) rest h
    · omega
    · simp only [Value.toks, length_cons] at h
      simp only [Value.toks, cons_append, append_assoc, parseValue,
        ihf k v ihv n rest (by omega), Option.map_some]
  case case9 =>
    rintro v hv (_ | n) rest h
    · omega
    · simp only [itemsTail, length_append, length_cons] at h
      simp only [itemsTail, cons_append, nil_append, parseItems, hv n _ (by omega)]
  case case10 =>
    rintro w ws ihw ihi v hv (_ | n) rest h
    · omega
    · simp only [itemsTail, length_append, length_cons] at h
      have hws := ihi w ihw n rest (by simp only [length_append]; omega)
      simp only [itemsTail, append_assoc, cons_append, parseItems, hv n _ (by omega), hws,
        Option.map_some]
  case case11 =>
    rintro k v hv (_ | n) rest h
    · omega
    · simp only [fieldsTail, length_append, length_cons] at h
      simp only [fieldsTail, cons_append, nil_append, parseFields, hv n _ (by omega)]
  case case12 =>
    rintro k' w fs ihw ihf k v hv (_ | n) rest h
    · omega
    · simp only [fieldsTail, length_append, length_cons] at h
      have hfs := ihf k' w ihw n rest (by simp only [length_append]; omega)
      simp only [fieldsTail, append_assoc, cons_append, parseFields, hv n _ (by omega),
        hfs, Option.map_some]

/-- **The parser is exact**: it reads a value from a token list precisely when the list is
the value's own. -/
theorem parse_eq_some_iff (ts : List Tok) (v : Value) : parse ts = some v ↔ ts = v.toks := by
  constructor
  · intro h
    unfold parse at h
    split at h
    · next w hw =>
        cases h
        simpa using (parse_sound_core _).1 _ _ _ hw
    · cases h
  · rintro rfl
    have h := parse_complete_core.1 v (v.toks.length + 1) [] (by omega)
    rw [append_nil] at h
    rw [parse, h]

theorem Value.toks_injective {v w : Value} (h : v.toks = w.toks) : v = w := by
  have hv : parse v.toks = some v := (parse_eq_some_iff _ _).2 rfl
  have hw : parse v.toks = some w := (parse_eq_some_iff _ _).2 h
  exact Option.some.inj (hv.symm.trans hw)

end Json
