import PrivateVm.Json.ByteText
import PrivateVm.Json.Struct

set_option autoImplicit false

/-! # Records as JSON objects

A codec writes the values of a type and reads a value into a variable that already holds one. A
record is described by its fields: a name, a codec, and how the field is got and set.
`Codec.Keeps` says that a value comes back when it is written and read into a fresh variable.
-/

namespace Json

open Decimal Utf8 List Option

/-! ## Codecs -/

structure Codec (τ : Type) where
  write : τ → Option Value
  read : Value → τ → Option τ

namespace Codec

variable {τ : Type}

/-- A value comes back when it is written and read into a variable that holds `zero`. -/
def Keeps (c : Codec τ) (zero x : τ) : Prop := ∃ v, c.write x = some v ∧ c.read v zero = some x

/-- What is written for a value is found again by the lexer. -/
def Legible (c : Codec τ) (x : τ) : Prop := ∀ v, c.write x = some v → v.Legible

/-- A codec that reads nothing of the old value; `null` leaves a variable as it is. -/
def scalar (write : τ → Option Value) (read : Value → Option τ) : Codec τ where
  write := write
  read v old :=
    match v with
    | .null => some old
    | v => read v

variable {zero x : τ} {c : Codec τ} {xs : List τ}

theorem keeps_scalar {write : τ → Option Value} {read : Value → Option τ}
    (h : ∀ x, write x ≠ some .null) :
    (scalar write read).Keeps zero x ↔ (write x).bind read = some x := by
  rw [bind_eq_some_iff]
  refine exists_congr fun v => and_congr_right fun hv => ?_
  cases v with
  | null => exact absurd hv (h x)
  | _ => rfl

def bool : Codec Bool :=
  scalar (fun b => some (.bool b)) fun
    | .bool b => some b
    | _ => none

theorem keeps_bool (zero b : Bool) : bool.Keeps zero b :=
  (keeps_scalar (by simp)).2 rfl

@[simp] theorem legible_bool (b : Bool) : bool.Legible b := by
  rintro v ⟨⟩
  simp [Value.Legible, Value.toks, Tok.Legible]

def bytes : Codec Bytes :=
  scalar (fun b => some (.str (quoteBytes b))) fun
    | .str raw => some (utf8 (unquote raw))
    | _ => none

/-- **Only valid texts come back.** -/
theorem keeps_bytes {zero b} : bytes.Keeps zero b ↔ Valid b := by
  rw [bytes, keeps_scalar (by simp)]
  change some (utf8 (unquote (quoteBytes b))) = some b ↔ _
  rw [utf8_unquote_quoteBytes, Option.some.injEq, mend_eq_self]

@[simp] theorem legible_bytes (b : Bytes) : bytes.Legible b := by
  rintro v ⟨⟩
  simpa [Value.Legible, Value.toks, Tok.Legible] using written_quoteBytes b

/-- A type of named values, written as their names. -/
def named (text : τ → Bytes) (ofText : Bytes → τ) : Codec τ where
  write x := bytes.write (text x)
  read v old := (bytes.read v (text old)).map ofText

theorem keeps_named {text : τ → Bytes} {ofText : Bytes → τ} (hval : Valid (text x))
    (hback : ofText (text x) = x) : (named text ofText).Keeps zero x := by
  obtain ⟨v, hwr, hread⟩ := (@keeps_bytes (text zero) _).2 hval
  exact ⟨v, hwr, by simp [named, hread, hback]⟩

@[simp] theorem legible_named (text : τ → Bytes) (ofText : Bytes → τ) (x : τ) :
    (named text ofText).Legible x :=
  legible_bytes (text x)

/-! ## Slices -/

/-- Read the items of an array into the elements that a slice holds. What an earlier, longer array
left beyond the end of the slice is not kept: only a document that names a field twice could bring
it back, and the encoder writes none. -/
def readItems (c : Codec τ) (zero : τ) : List Value → List τ → Option (List τ)
  | [], _ => some []
  | v :: vs, old => do
      let x ← c.read v (old.headD zero)
      let xs ← readItems c zero vs old.tail
      return x :: xs

/-- A slice; `nil` is written as `null`. -/
def slice (c : Codec τ) (zero : τ) : Codec (Option (List τ)) where
  write
    | none => some .null
    | some items => (items.mapM c.write).map .arr
  read v old :=
    match v with
    | .null => some none
    | .arr vs => (readItems c zero vs (old.getD [])).map some
    | _ => none

theorem keeps_items : (∃ vs, xs.mapM c.write = some vs ∧ readItems c zero vs [] = some xs) ↔
      ∀ x ∈ xs, c.Keeps zero x := by
  induction xs with
  | nil => simp [readItems]
  | cons x xs ih =>
    rw [forall_mem_cons, ← ih]
    simp only [mapM_cons, bind_eq_bind, bind_eq_some_iff]
    constructor
    · rintro ⟨_, ⟨v, hv, vs, hvs, ⟨⟩⟩, hread⟩
      simp only [readItems, bind_eq_bind, bind_eq_some_iff] at hread
      obtain ⟨y, hy, ys, hys, rfl, rfl⟩ := hread
      exact ⟨⟨v, hv, hy⟩, vs, hvs, hys⟩
    · rintro ⟨⟨v, hv, hx⟩, vs, hvs, hxs⟩
      exact ⟨v :: vs, ⟨v, hv, vs, hvs, rfl⟩, by simp [readItems, hx, hxs]⟩

/-- **A slice comes back exactly if every item does.** -/
theorem keeps_slice {xs} : (slice c zero).Keeps none xs ↔ ∀ x ∈ xs.getD [], c.Keeps zero x := by
  cases xs with
  | none => simp [Keeps, slice]
  | some =>
    rw [getD_some, ← keeps_items]
    constructor
    · rintro ⟨v, hv, hread⟩
      obtain ⟨vs, hvs, rfl⟩ := map_eq_some_iff.1 hv
      obtain ⟨ys, hys, heq⟩ := map_eq_some_iff.1 hread
      cases heq
      exact ⟨vs, hvs, hys⟩
    · rintro ⟨vs, hvs, hread⟩
      exact ⟨.arr vs, by simp [slice, hvs], by simp [slice, hread]⟩

theorem forall_mapM {f : τ → Option Value} {P : Value → Prop} {vs} (hvs : xs.mapM f = some vs)
    (h : ∀ x ∈ xs, ∀ v, f x = some v → P v) : ∀ v ∈ vs, P v := by
  induction xs generalizing vs with
  | nil =>
    cases hvs
    simp
  | cons x xs ih =>
    simp only [mapM_cons, bind_eq_bind, bind_eq_some_iff] at hvs
    obtain ⟨v, hv, vs', hvs', heq⟩ := hvs
    cases heq
    rw [forall_mem_cons] at h ⊢
    exact ⟨h.1 v hv, ih hvs' h.2⟩

theorem legible_slice {xs} (h : ∀ x ∈ xs.getD [], c.Legible x) : (slice c zero).Legible xs := by
  cases xs with
  | none =>
    rintro v ⟨⟩
    simp [Value.Legible, Value.toks, Tok.Legible]
  | some =>
    intro v hv
    obtain ⟨vs, hvs, rfl⟩ := map_eq_some_iff.1 hv
    exact Value.legible_arr (forall_mapM hvs h)

end Codec

/-! ## Records -/

/-- A field of a record: its name, its codec, and how it is got and set. It is left out when it is
`omitted`. -/
structure Field (σ : Type) where
  τ : Type
  name : String
  codec : Codec τ
  get : σ → τ
  set : τ → σ → σ
  omitted : τ → Bool

section

variable {σ τ : Type}

def field (name : String) (codec : Codec τ) (get : σ → τ) (set : τ → σ → σ) : Field σ :=
  ⟨τ, name, codec, get, set, fun _ => false⟩

/-- A text that is left out when it is empty. -/
def omitEmpty (name : String) (get : σ → Bytes) (set : Bytes → σ → σ) : Field σ :=
  ⟨Bytes, name, .bytes, get, set, (· == [])⟩

/-- A field comes back in a record that is read into `zero`. -/
def Field.Keeps (f : Field σ) (zero x : σ) : Prop :=
  if f.omitted (f.get x) then f.get zero = f.get x else f.codec.Keeps (f.get zero) (f.get x)

variable {name : String}

variable {zero x : σ}

@[simp] theorem keeps_field {codec} {get : σ → τ} {set : τ → σ → σ} :
    (field name codec get set).Keeps zero x ↔ codec.Keeps (get zero) (get x) := by
  simp [Field.Keeps, field]

/-- A text that may be left out comes back into a record where it is empty. -/
theorem keeps_omitEmpty {get : σ → Bytes} {set : Bytes → σ → σ} (h : get zero = []) :
    (omitEmpty name get set).Keeps zero x ↔ Valid (get x) := by
  unfold Field.Keeps omitEmpty
  by_cases hx : get x = []
  · simp [hx, h, valid_nil]
  · simp [hx, Codec.keeps_bytes]

/-- Setting one of two fields does not change the other. -/
def Field.Apart (f g : Field σ) : Prop :=
  (∀ s x, g.get (f.set x s) = g.get s) ∧ ∀ s x, f.get (g.set x s) = f.get s

end

/-- The fields of a record. The laws are closed by computing with the fields; `ext` says that the
record has no others. -/
structure Record (σ : Type) where
  fields : List (Field σ)
  names_nodup : (fields.map fun f => foldName f.name).Nodup := by decide
  safe : ∀ f ∈ fields, SafeText f.name := by decide
  get_set : ∀ f ∈ fields, ∀ s x, f.get (f.set x s) = x := by
    simp only [field, omitEmpty, List.forall_mem_cons, List.not_mem_nil, false_imp_iff,
      implies_true, and_self]
  apart : fields.Pairwise Field.Apart := by
    simp only [field, omitEmpty, Field.Apart, List.pairwise_cons, List.forall_mem_cons,
      List.not_mem_nil, false_imp_iff, implies_true, and_self, List.Pairwise.nil]
  ext : ∀ s t, (∀ f ∈ fields, f.get s = f.get t) → s = t := by
    rintro ⟨⟩ ⟨⟩ h
    simpa [field, omitEmpty] using h

namespace Record

variable {σ : Type} (R : Record σ)

/-- The field a key denotes: an exact match is preferred to one up to case. -/
def find (key : String) : Option (Field σ) :=
  match R.fields.find? fun f => f.name == key with
  | some f => some f
  | none => R.fields.find? fun f => foldName f.name == foldName key

def writeMembers : List (Field σ) → σ → Option (List (Bytes × Value))
  | [], _ => some []
  | f :: fs, x =>
    if f.omitted (f.get x) then writeMembers fs x
    else do
      let v ← f.codec.write (f.get x)
      let rest ← writeMembers fs x
      return (quote f.name, v) :: rest

def readMembers : List (Bytes × Value) → σ → Option σ
  | [], s => some s
  | (k, v) :: rest, s =>
    match R.find (unquote k) with
    | none => none
    | some f => (f.codec.read v (f.get s)).bind fun x => readMembers rest (f.set x s)

def codec : Codec σ where
  write x := (writeMembers R.fields x).map .obj
  read v old :=
    match v with
    | .null => some old
    | .obj members => R.readMembers members old
    | _ => none

variable {f : Field σ} {x s zero : σ} {fs : List (Field σ)}

theorem find_name (h : f ∈ R.fields) : R.find f.name = some f := by
  unfold find
  cases hexact : R.fields.find? fun g => g.name == f.name with
  | none => exact absurd (List.find?_eq_none.1 hexact f h) (by simp)
  | some g =>
    have hmem := mem_of_find?_eq_some hexact
    have hname : g.name = f.name := by simpa using List.find?_some hexact
    rw [inj_on_of_nodup_map R.names_nodup hmem h (by simp [hname])]

theorem readMembers_cons (h : f ∈ R.fields) (v : Value) (rest : List (Bytes × Value)) (s : σ) :
    R.readMembers ((quote f.name, v) :: rest) s =
      (f.codec.read v (f.get s)).bind fun x => R.readMembers rest (f.set x s) := by
  rw [readMembers, unquote_quote (R.safe f h), R.find_name h]

/-! ### What comes back -/

variable {members : List (Bytes × Value)}

/-- Reading back the members that were written for some of the fields sets these fields. The
other fields stay as they are. -/
theorem readMembers_writeMembers (hfs : ∀ f ∈ fs, f ∈ R.fields) (hapart : fs.Pairwise Field.Apart)
    {t : σ} (hwr : writeMembers fs x = some members) (hread : R.readMembers members s = some t) :
    (∀ f ∈ fs, if f.omitted (f.get x) then f.get t = f.get s
      else ∃ v, f.codec.write (f.get x) = some v ∧ f.codec.read v (f.get s) = some (f.get t)) ∧
    ∀ g, (∀ f ∈ fs, f.Apart g) → g.get t = g.get s := by
  induction fs generalizing s members with
  | nil =>
    cases hwr
    cases hread
    simp
  | cons f fs ih =>
    obtain ⟨hf, hfs⟩ := forall_mem_cons.1 hfs
    obtain ⟨hfap, hapart⟩ := pairwise_cons.1 hapart
    rw [writeMembers] at hwr
    by_cases homit : f.omitted (f.get x) = true
    · rw [if_pos homit] at hwr
      obtain ⟨hset, hfrm⟩ := ih hfs hapart hwr hread
      have hfget : f.get t = f.get s := hfrm f fun g hg => ⟨(hfap g hg).2, (hfap g hg).1⟩
      refine ⟨forall_mem_cons.2 ⟨by rw [if_pos homit]; exact hfget, hset⟩, ?_⟩
      intro g hg
      exact hfrm g fun f' hf' => hg f' (mem_cons_of_mem _ hf')
    · rw [if_neg homit] at hwr
      simp only [bind_eq_bind, bind_eq_some_iff] at hwr
      obtain ⟨v, hv, rest, hrest, heq⟩ := hwr
      cases heq
      rw [R.readMembers_cons hf, bind_eq_some_iff] at hread
      obtain ⟨y, hy, hread⟩ := hread
      obtain ⟨hset, hfrm⟩ := ih hfs hapart hrest hread
      have hfget : f.get t = y := by
        rw [hfrm f fun g hg => ⟨(hfap g hg).2, (hfap g hg).1⟩, R.get_set f hf]
      refine ⟨forall_mem_cons.2 ⟨?_, ?_⟩, ?_⟩
      · rw [if_neg homit]
        exact ⟨v, hv, by rw [hfget]; exact hy⟩
      · intro g hg
        have hg' := hset g hg
        rwa [(hfap g hg).1] at hg'
      · intro g hg
        rw [hfrm g fun f' hf' => hg f' (mem_cons_of_mem _ hf'), (hg f mem_cons_self).1]

/-- Fields that come back one by one come back together. -/
theorem exists_readMembers (hfs : ∀ f ∈ fs, f ∈ R.fields) (hapart : fs.Pairwise Field.Apart)
    (hs : ∀ f ∈ fs, f.get s = f.get zero) (h : ∀ f ∈ fs, f.Keeps zero x) :
    ∃ members t, writeMembers fs x = some members ∧ R.readMembers members s = some t := by
  induction fs generalizing s with
  | nil => exact ⟨[], s, rfl, rfl⟩
  | cons f fs ih =>
    obtain ⟨hf, hfs⟩ := forall_mem_cons.1 hfs
    obtain ⟨hfap, hapart⟩ := pairwise_cons.1 hapart
    obtain ⟨hsf, hs⟩ := forall_mem_cons.1 hs
    obtain ⟨hkeep, h⟩ := forall_mem_cons.1 h
    rw [Field.Keeps] at hkeep
    by_cases homit : f.omitted (f.get x) = true
    · obtain ⟨members, t, hw, hr⟩ := ih hfs hapart hs h
      exact ⟨members, t, by rw [writeMembers, if_pos homit, hw], hr⟩
    rw [if_neg homit] at hkeep
    obtain ⟨v, hv, hread⟩ := hkeep
    have hs' : ∀ g ∈ fs, g.get (f.set (f.get x) s) = g.get zero := by
      intro g hg
      rw [(hfap g hg).1, hs g hg]
    obtain ⟨members, t, hw, hr⟩ := ih hfs hapart hs' h
    refine ⟨(quote f.name, v) :: members, t, ?_, ?_⟩
    · rw [writeMembers, if_neg homit, hv, hw]
      rfl
    · rw [R.readMembers_cons hf, hsf, hread, bind_some, hr]

/-- **A record comes back exactly if every field does.** -/
theorem keeps_iff : R.codec.Keeps zero x ↔ R.fields.Forall fun f => f.Keeps zero x := by
  rw [forall_iff_forall_mem]
  constructor
  · rintro ⟨v, hwr, hread⟩
    obtain ⟨members, hmemb, rfl⟩ := map_eq_some_iff.1 hwr
    intro f hf
    have hset := (R.readMembers_writeMembers (fun _ h => h) R.apart hmemb hread).1 f hf
    unfold Field.Keeps
    split
    · next homit =>
        rw [if_pos homit] at hset
        exact hset.symm
    · next homit =>
        rwa [if_neg homit] at hset
  · intro h
    obtain ⟨members, t, hw, hr⟩ :=
      R.exists_readMembers (fun _ hf => hf) R.apart (fun _ _ => rfl) h
    obtain ⟨hset, -⟩ := R.readMembers_writeMembers (fun _ hf => hf) R.apart hw hr
    have ht : t = x := by
      apply R.ext
      intro f hf
      have hkeep := h f hf
      have hset := hset f hf
      unfold Field.Keeps at hkeep
      by_cases homit : f.omitted (f.get x) = true
      · rw [if_pos homit] at hkeep hset
        exact hset.trans hkeep
      rw [if_neg homit] at hkeep hset
      -- the same bytes are read into the same variable
      obtain ⟨v, hv, hread⟩ := hkeep
      obtain ⟨v', hv', hread'⟩ := hset
      rw [hv, Option.some.injEq] at hv'
      rw [← hv', hread, Option.some.injEq] at hread'
      exact hread'.symm
    exact ⟨.obj members, map_eq_some_iff.2 ⟨members, hw, rfl⟩, hr.trans (by rw [ht])⟩

theorem legible_members (hfs : ∀ f ∈ fs, SafeText f.name) (h : ∀ f ∈ fs, f.codec.Legible (f.get x))
    (hwr : writeMembers fs x = some members) : ∀ m ∈ members, Written m.1 ∧ m.2.Legible := by
  induction fs generalizing members with
  | nil =>
    cases hwr
    simp
  | cons f fs ih =>
    obtain ⟨hf, hfs⟩ := forall_mem_cons.1 hfs
    obtain ⟨hx, h⟩ := forall_mem_cons.1 h
    rw [writeMembers] at hwr
    split at hwr
    · exact ih hfs h hwr
    · simp only [bind_eq_bind, bind_eq_some_iff] at hwr
      obtain ⟨v, hv, rest, hrest, heq⟩ := hwr
      cases heq
      exact forall_mem_cons.2 ⟨⟨written_plain (quote_plain hf), hx v hv⟩, ih hfs h hrest⟩

theorem legible (h : R.fields.Forall fun f => f.codec.Legible (f.get x)) : R.codec.Legible x := by
  intro v hv
  obtain ⟨members, hmemb, rfl⟩ := map_eq_some_iff.1 hv
  exact Value.legible_obj (legible_members R.safe (forall_iff_forall_mem.1 h) hmemb)

end Record

end Json
