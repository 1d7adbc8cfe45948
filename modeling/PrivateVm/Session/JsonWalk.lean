import PrivateVm.Json.Struct
import PrivateVm.Session.Model

set_option autoImplicit false

/-! # The walk over a session record (`rejectDuplicateJSONFields`)

The walk passes documents nested at most 32 deep in which no object has a key twice
(`rejectDuplicateJSONFields_eq_ok`); keys are compared after unquoting. The errors of the JSON
library itself are all `jsonError`.
-/

namespace PrivateVm.Session

open Checked Decimal Json List

def jsonError : Err := newError "json"

/-! ## The walk -/

mutual

/-- `consumeJSONValue`; the first argument bounds the calls and never runs out. -/
def consumeJSONValue : Nat → Decoder → Nat → Except Err Decoder
  | 0, _, _ => .error jsonError
  | n + 1, d, depth => do
      failIf (depth > 32)
        (newError "volatile session record exceeds the JSON nesting limit")
      match d.token with
      | none => .error jsonError
      | some (.text _, d) | some (.scalar, d) => return d
      | some (.lbrace, d) => do
          let d ← consumeJSONFields n d depth []
          match d.token with
          | some (.rbrace, d) => return d
          | _ => .error (newError "volatile session record has an unterminated object")
      | some (.lbrack, d) => do
          let d ← consumeJSONItems n d depth
          match d.token with
          | some (.rbrack, d) => return d
          | _ => .error (newError "volatile session record has an unterminated array")
      | some (.rbrace, _) | some (.rbrack, _) =>
        .error (newError "volatile session record has an invalid JSON delimiter")

/-- The loop over the fields of an object; `seen` holds the keys met so far. -/
def consumeJSONFields : Nat → Decoder → Nat → List String → Except Err Decoder
  | 0, _, _, _ => .error jsonError
  | n + 1, d, depth, seen =>
    if d.more then
      match d.token with
      | none => .error jsonError
      | some (.text key, d) => do
          failIf (seen.contains key)
            (newError ("volatile session record contains duplicate field " ++ quoted key))
          let d ← consumeJSONValue n d (depth + 1)
          consumeJSONFields n d depth (key :: seen)
      | some _ => .error (newError "volatile session record has a non-string object key")
    else return d

/-- The loop over the items of an array. -/
def consumeJSONItems : Nat → Decoder → Nat → Except Err Decoder
  | 0, _, _ => .error jsonError
  | n + 1, d, depth =>
    if d.more then do
      let d ← consumeJSONValue n d (depth + 1)
      consumeJSONItems n d depth
    else return d

end

def requireJSONEOF (d : Decoder) : Except Err Unit :=
  failIf (!d.atEOF) (newError "volatile session record contains trailing JSON data")

def rejectDuplicateJSONFields (toks : List Tok) : Except Err Unit := do
  let d ← consumeJSONValue (toks.length + 1) (Decoder.ofToks toks) 0
  requireJSONEOF d

/-! ## What the walk accepts -/

/-- A value that the walk passes at a nesting depth. -/
def Passes (depth : Nat) (v : Value) : Prop :=
  depth + v.height ≤ 32 ∧ ∀ keys ∈ v.objects, keys.Nodup

variable {depth n : Nat}

theorem passes_arr {items} :
    Passes depth (.arr items) ↔ depth ≤ 32 ∧ ∀ v ∈ items, Passes (depth + 1) v := by
  simp only [Passes, Value.height, Value.objects, add_itemsHeight_le, mem_itemsObjects]
  constructor
  · rintro ⟨⟨h₁, h₂⟩, h₃⟩
    exact ⟨h₁, fun v hv => ⟨h₂ v hv, fun keys hk => h₃ keys ⟨v, hv, hk⟩⟩⟩
  · rintro ⟨h₁, h⟩
    exact ⟨⟨h₁, fun v hv => (h v hv).1⟩, fun keys ⟨v, hv, hk⟩ => (h v hv).2 keys hk⟩

theorem passes_obj {fields} : Passes depth (.obj fields) ↔
      depth ≤ 32 ∧ (keyNames fields).Nodup ∧ ∀ f ∈ fields, Passes (depth + 1) f.2 := by
  simp only [Passes, Value.height, Value.objects, add_fieldsHeight_le, forall_mem_cons,
    mem_fieldsObjects]
  constructor
  · rintro ⟨⟨h₁, h₂⟩, h₃, h₄⟩
    exact ⟨h₁, h₃, fun f hf => ⟨h₂ f hf, fun keys hk => h₄ keys ⟨f, hf, hk⟩⟩⟩
  · rintro ⟨h₁, h₃, h⟩
    exact ⟨⟨h₁, fun f hf => (h f hf).1⟩, h₃, fun keys ⟨f, hf, hk⟩ => (h f hf).2 keys hk⟩

theorem passes_scalar {v} (hh : v.height = 0) (ho : v.objects = []) :
    Passes depth v ↔ depth ≤ 32 := by
  simp [Passes, hh, ho]

/-- With `n` calls left, the walk over one value does what the tree says. -/
def ValueWalk (n : Nat) : Prop :=
  ∀ (d : Decoder) (v : Value) (rest : List Tok) (state : TokenState) (stack : List TokenState)
    (depth : Nat) (d' : Decoder), d.Before v rest state stack → v.toks.length < n →
    (consumeJSONValue n d depth = .ok d' ↔ Passes depth v ∧ d' = ⟨rest, state.valueEnd, stack⟩)

def ItemsWalk (n : Nat) : Prop :=
  ∀ (d : Decoder) (vs : List Value) (rest : List Tok) (stack : List TokenState) (depth : Nat)
    (last d' : Decoder), d.ItemsAt rest stack last vs → (itemsTail vs).length ≤ n →
    (consumeJSONItems n d depth = .ok d' ↔ (∀ v ∈ vs, Passes (depth + 1) v) ∧ d' = last)

def FieldsWalk (n : Nat) : Prop :=
  ∀ (d : Decoder) (fs : List (Bytes × Value)) (rest : List Tok) (stack : List TokenState)
    (depth : Nat) (seen : List String) (last d' : Decoder), d.FieldsAt rest stack last fs →
    (fieldsTail fs).length ≤ n →
    (consumeJSONFields n d depth seen = .ok d' ↔
      ((keyNames fs).Nodup ∧ (∀ k ∈ keyNames fs, k ∉ seen) ∧ ∀ f ∈ fs, Passes (depth + 1) f.2) ∧
        d' = last)

theorem itemsTail_pos (vs : List Value) : 0 < (itemsTail vs).length := by
  cases vs <;> simp [itemsTail]

theorem fieldsTail_pos (fs : List (Bytes × Value)) : 0 < (fieldsTail fs).length := by
  cases fs <;> simp [fieldsTail]

theorem itemsTail_le_head (vs : List Value) :
    (itemsTail vs).length ≤ (itemsHead vs).length + 1 := by
  cases vs <;> simp [itemsTail, itemsHead]

theorem fieldsTail_le_head (fs : List (Bytes × Value)) :
    (fieldsTail fs).length ≤ (fieldsHead fs).length + 1 := by
  cases fs <;> simp [fieldsTail, fieldsHead]

theorem valueWalk_succ (hitems : ItemsWalk n) (hfiel : FieldsWalk n) : ValueWalk (n + 1) := by
  intro d v rest state stack depth d' hd hlen
  obtain ⟨hskip, hallow⟩ := hd
  rw [consumeJSONValue, d.token_of_skip hskip]
  cases v with
  | null | bool _ | num =>
    rw [passes_scalar rfl rfl]
    simp [Value.toks, Decoder.tokenHere, hallow, @eq_comm _ _ d']
  | str =>
    -- A string is a key only in the two states that do not allow a value.
    have hkey : ¬ (state = .objectStart ∨ state = .objectKey) := by
      rintro (rfl | rfl) <;> exact absurd hallow (by decide)
    rw [passes_scalar rfl rfl]
    simp [Value.toks, Decoder.tokenHere, hallow, hkey, @eq_comm _ _ d']
  | arr items =>
    rw [Value.toks_arr] at hlen ⊢
    have htail := itemsTail_le_head items
    have hwalk := fun e => hitems _ items rest (state :: stack) depth _ e
      (Decoder.itemsAt_start items rest _) (by simp only [length_cons] at hlen; omega)
    simp only [Decoder.tokenHere, hallow, cons_append, if_true, bind_eq_ok, failIf_eq_ok,
      hwalk, passes_arr]
    constructor
    · rintro ⟨-, hdepth, e, ⟨hall, rfl⟩, h⟩
      rw [Decoder.token_itemsLast] at h
      exact ⟨⟨by omega, hall⟩, (pure_eq_ok.1 h).symm⟩
    · rintro ⟨⟨hdepth, hall⟩, rfl⟩
      refine ⟨(), by omega, _, ⟨hall, rfl⟩, ?_⟩
      rw [Decoder.token_itemsLast]
      rfl
  | obj fields =>
    rw [Value.toks_obj] at hlen ⊢
    have htail := fieldsTail_le_head fields
    have hwalk := fun e => hfiel _ fields rest (state :: stack) depth [] _ e
      (Decoder.fieldsAt_start fields rest _) (by simp only [length_cons] at hlen; omega)
    simp only [Decoder.tokenHere, hallow, cons_append, if_true, bind_eq_ok, failIf_eq_ok,
      hwalk, passes_obj]
    constructor
    · rintro ⟨-, hdepth, e, ⟨⟨hnd, -, hall⟩, rfl⟩, h⟩
      rw [Decoder.token_fieldsLast] at h
      exact ⟨⟨by omega, hnd, hall⟩, (pure_eq_ok.1 h).symm⟩
    · rintro ⟨⟨hdepth, hnd, hall⟩, rfl⟩
      refine ⟨(), by omega, _, ⟨⟨hnd, by simp, hall⟩, rfl⟩, ?_⟩
      rw [Decoder.token_fieldsLast]
      rfl

theorem itemsWalk_succ (hvalue : ValueWalk n) (hitems : ItemsWalk n) : ItemsWalk (n + 1) := by
  intro d vs rest stack depth last d' hd hlen
  rw [consumeJSONItems]
  cases vs with
  | nil =>
    obtain ⟨rfl, hrest, -, -⟩ := hd
    simp [Decoder.more, hrest, @eq_comm _ _ d']
  | cons v vs =>
    obtain ⟨rfl, hmore, state, hbefore, hend⟩ := hd
    simp only [itemsTail, length_cons, length_append] at hlen
    have hpos := itemsTail_pos vs
    have hv : v.toks.length < n := by omega
    have hnext := hitems _ vs rest stack depth _ d' (Decoder.itemsAt_next vs rest stack) (by omega)
    simp only [hmore, if_true, bind_eq_ok, hvalue d v _ state stack _ _ hbefore hv, hend,
      forall_mem_cons]
    constructor
    · rintro ⟨_, ⟨hp, rfl⟩, h⟩
      obtain ⟨hall, rfl⟩ := hnext.1 h
      exact ⟨⟨hp, hall⟩, rfl⟩
    · rintro ⟨⟨hp, hall⟩, rfl⟩
      exact ⟨_, ⟨hp, rfl⟩, hnext.2 ⟨hall, rfl⟩⟩

theorem fieldsWalk_succ (hvalue : ValueWalk n) (hfiel : FieldsWalk n) : FieldsWalk (n + 1) := by
  intro d fs rest stack depth seen last d' hd hlen
  rw [consumeJSONFields]
  cases fs with
  | nil =>
    obtain ⟨rfl, hrest, -, -⟩ := hd
    simp [Decoder.more, hrest, @eq_comm _ _ d', keyNames]
  | cons f fs =>
    obtain ⟨k, v⟩ := f
    obtain ⟨rfl, hmore, htoken⟩ := hd
    simp only [fieldsTail, length_cons, length_append] at hlen
    have hv : v.toks.length < n := by omega
    have hbefore := Decoder.before_after_colon v (fieldsTail fs ++ rest) stack
    have hnext := hfiel _ fs rest stack depth (unquote k :: seen) _ d'
      (Decoder.fieldsAt_next fs rest stack) (by omega)
    simp only [hmore, if_true, htoken, bind_eq_ok, failIf_eq_ok, contains_iff_mem,
      hvalue _ v _ _ stack _ _ hbefore hv, forall_mem_cons, keyNames, map_cons,
      nodup_cons]
    constructor
    · rintro ⟨-, hk, _, ⟨hp, rfl⟩, h⟩
      obtain ⟨⟨hnd, hseen, hall⟩, rfl⟩ := hnext.1 h
      exact ⟨⟨⟨fun hmem => hseen _ hmem mem_cons_self, hnd⟩,
        ⟨hk, fun key hkey hmem => hseen key hkey (mem_cons_of_mem _ hmem)⟩, hp, hall⟩, rfl⟩
    · rintro ⟨⟨⟨hfr, hnd⟩, ⟨hk, hseen⟩, hp, hall⟩, rfl⟩
      refine ⟨(), hk, _, ⟨hp, rfl⟩, hnext.2 ⟨⟨hnd, fun key hkey hmem => ?_, hall⟩, rfl⟩⟩
      rcases mem_cons.1 hmem with rfl | hmem
      · exact hfr hkey
      · exact hseen key hkey hmem

/-- The three loops together, by induction on the bound on their calls. -/
theorem walk (n : Nat) : ValueWalk n ∧ ItemsWalk n ∧ FieldsWalk n := by
  induction n with
  | zero =>
    refine ⟨fun d v _ _ _ _ _ _ h => by omega, fun d vs _ _ _ _ _ _ h => ?_,
      fun d fs _ _ _ _ _ _ _ h => ?_⟩
    · have := itemsTail_pos vs
      omega
    · have := fieldsTail_pos fs
      omega
  | succ n ih =>
    obtain ⟨hv, hi, hf⟩ := ih
    exact ⟨valueWalk_succ hi hf, itemsWalk_succ hv hi, fieldsWalk_succ hv hf⟩

/-- **What the walk rejects**: a document passes exactly when it is nested at most 32 deep and
no object in it has a key twice. -/
theorem rejectDuplicateJSONFields_eq_ok (v : Value) :
    rejectDuplicateJSONFields v.toks = .ok () ↔ v.height ≤ 32 ∧ ∀ keys ∈ v.objects, keys.Nodup := by
  have hbefore : Decoder.Before ⟨v.toks, .topValue, []⟩ v [] .topValue [] := by
    simpa using Decoder.before_of_allowed v [] [] rfl
  have hwalk := fun d' => (walk (v.toks.length + 1)).1 _ v [] _ [] 0 d' hbefore (by omega)
  simp only [rejectDuplicateJSONFields, Decoder.ofToks, bind_eq_ok, hwalk, Passes, Nat.zero_add]
  constructor
  · rintro ⟨d, ⟨h, -⟩, -⟩
    exact h
  · exact fun h => ⟨_, ⟨h, rfl⟩, rfl⟩

end PrivateVm.Session
