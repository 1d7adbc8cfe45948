import PrivateVm.Json.Decoder

set_option autoImplicit false

/-! # Reading an object into a record

A key denotes the field whose name it spells exactly, or else up to case folding; an unknown key is
an error, and the last of several keys for one field wins. `Tags` carries the field names of a
record, no two of which fold to the same name.
-/

namespace Json

open Decimal List

/-! ## The objects of a document -/

def keyNames (fields : List (Bytes × Value)) : List String := fields.map fun f => unquote f.1

mutual

/-- The key lists of all objects in a value. -/
def Value.objects : Value → List (List String)
  | .arr items => itemsObjects items
  | .obj fields => keyNames fields :: fieldsObjects fields
  | _ => []

def itemsObjects : List Value → List (List String)
  | [] => []
  | v :: vs => v.objects ++ itemsObjects vs

def fieldsObjects : List (Bytes × Value) → List (List String)
  | [] => []
  | (_, v) :: fs => v.objects ++ fieldsObjects fs

end

mutual

/-- How many arrays and objects enclose the innermost value. -/
def Value.height : Value → Nat
  | .arr items => itemsHeight items
  | .obj fields => fieldsHeight fields
  | _ => 0

def itemsHeight : List Value → Nat
  | [] => 0
  | v :: vs => max (v.height + 1) (itemsHeight vs)

def fieldsHeight : List (Bytes × Value) → Nat
  | [] => 0
  | (_, v) :: fs => max (v.height + 1) (fieldsHeight fs)

end

variable {keys : List String} {items : List Value} {fields : List (Bytes × Value)} {m n : Nat}

theorem mem_itemsObjects : keys ∈ itemsObjects items ↔ ∃ v ∈ items, keys ∈ v.objects := by
  induction items with
  | nil => simp [itemsObjects]
  | cons v vs ih => simp [itemsObjects, ih]

theorem mem_fieldsObjects : keys ∈ fieldsObjects fields ↔ ∃ f ∈ fields, keys ∈ f.2.objects := by
  induction fields with
  | nil => simp [fieldsObjects]
  | cons f fs ih => simp [fieldsObjects, ih]

theorem add_max_le {a b : Nat} : m + max (a + 1) b ≤ n ↔ m + 1 + a ≤ n ∧ m + b ≤ n := by
  omega

theorem add_itemsHeight_le :
    m + itemsHeight items ≤ n ↔ m ≤ n ∧ ∀ v ∈ items, m + 1 + v.height ≤ n := by
  induction items with
  | nil => simp [itemsHeight]
  | cons v vs ih => rw [itemsHeight, add_max_le, ih, forall_mem_cons, and_left_comm]

theorem add_fieldsHeight_le :
    m + fieldsHeight fields ≤ n ↔ m ≤ n ∧ ∀ f ∈ fields, m + 1 + f.2.height ≤ n := by
  induction fields with
  | nil => simp [fieldsHeight]
  | cons f fs ih => rw [fieldsHeight, add_max_le, ih, forall_mem_cons, and_left_comm]

/-! ## Keys and fields -/

/-- The names of the fields of a record. -/
structure Tags (F : Type) where
  tags : List (String × F)
  names_nodup : (tags.map fun t => foldName t.1).Nodup
  fields_nodup : (tags.map Prod.snd).Nodup
  safe : ∀ t ∈ tags, SafeText t.1

section

variable {F : Type} (T : Tags F)

/-- The field a key denotes: an exact match is preferred to one up to case. -/
def Tags.field (key : String) : Option F :=
  match T.tags.find? fun t => t.1 == key with
  | some t => some t.2
  | none => (T.tags.find? fun t => foldName t.1 == foldName key).map Prod.snd

theorem Tags.field_eq_some_iff {key} {f : F} :
    T.field key = some f ↔ ∃ name, (name, f) ∈ T.tags ∧ foldName name = foldName key := by
  unfold Tags.field
  cases hexact : T.tags.find? fun t => t.1 == key with
  | some t =>
    have hmem := mem_of_find?_eq_some hexact
    have hname : t.1 = key := by simpa using List.find?_some hexact
    constructor
    · rintro ⟨⟩
      exact ⟨t.1, hmem, by rw [hname]⟩
    · rintro ⟨name, hmem', hfold⟩
      have := inj_on_of_nodup_map T.names_nodup hmem hmem' (by simp [hname, hfold])
      rw [this]
  | none =>
    simp only [Option.map_eq_some_iff]
    constructor
    · rintro ⟨t, ht, rfl⟩
      exact ⟨t.1, mem_of_find?_eq_some ht, by simpa using List.find?_some ht⟩
    rintro ⟨name, hmem, hfold⟩
    cases hf : T.tags.find? fun t => foldName t.1 == foldName key with
    | none => exact absurd hfold (by simpa using List.find?_eq_none.1 hf _ hmem)
    | some t =>
      have hmem' := mem_of_find?_eq_some hf
      have hfold' : foldName t.1 = foldName key := by simpa using List.find?_some hf
      have := inj_on_of_nodup_map T.names_nodup hmem' hmem (by simp [hfold, hfold'])
      exact ⟨t, rfl, by rw [this]⟩

/-- **Two known keys denote one field exactly when they are equal up to case.** -/
theorem Tags.field_eq_iff {key key'} {f : F} (h : T.field key = some f) :
    T.field key' = some f ↔ foldName key = foldName key' := by
  obtain ⟨name, hmem, hfold⟩ := T.field_eq_some_iff.1 h
  rw [T.field_eq_some_iff]
  constructor
  · rintro ⟨name', hmem', hfold'⟩
    have hname := congrArg Prod.fst (inj_on_of_nodup_map T.fields_nodup hmem hmem' rfl)
    rw [← hfold, ← hfold']
    exact congrArg foldName hname
  · exact fun h' => ⟨name, hmem, hfold.trans h'⟩

end

/-! ## Assigning fields -/

variable {F σ : Type} (T : Tags F) (assign : F → Value → σ → Option σ)

/-- Assign the fields of an object to a record, in order. -/
def fillStruct : List (Bytes × Value) → σ → Option σ
  | [], st => some st
  | (k, v) :: fs, st => do
      let f ← T.field (unquote k)
      let st ← assign f v st
      fillStruct fs st

/-- Every key of an object that was read denotes a field, and its value was assigned. -/
theorem fillStruct_known {fields} {st st' : σ} (h : fillStruct T assign fields st = some st') :
    ∀ kv ∈ fields, ∃ f s s', T.field (unquote kv.1) = some f ∧ assign f kv.2 s = some s' := by
  induction fields generalizing st with
  | nil => simp
  | cons kv fs ih =>
    simp only [fillStruct, Option.bind_eq_bind, Option.bind_eq_some_iff] at h
    obtain ⟨f, hf, s', hs', h⟩ := h
    rintro kv' (_ | ⟨_, hmem⟩)
    · exact ⟨f, st, s', hf, hs'⟩
    · exact ih h kv' hmem

theorem fillStruct_member {name} {f : F} (h : (name, f) ∈ T.tags) (v : Value)
    (fs : List (Bytes × Value)) (st : σ) :
    fillStruct T assign ((quote name, v) :: fs) st =
      (assign f v st).bind (fillStruct T assign fs) := by
  have hf : T.field name = some f := T.field_eq_some_iff.2 ⟨name, h, rfl⟩
  simp [fillStruct, unquote_quote (T.safe _ h), hf]

end Json
