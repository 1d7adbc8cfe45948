import Mathlib.Data.List.Forall2

set_option autoImplicit false

/-! # Checked computations

Facts about `Except` that turn a sequence of checks into what its success establishes: a
`do` block of guards succeeds exactly when every guard passes and its result is the one
returned. -/

namespace Checked

open List

universe u v

variable {ε : Type u} {α β : Type v} {x : Except ε α} {f : α → Except ε β} {a : α} {b : β} {e : ε}
  {p : Prop} {l : List α}

@[simp]
theorem bind_eq_ok : (x >>= f) = .ok b ↔ ∃ a, x = .ok a ∧ f a = .ok b := by
  cases x <;> simp [bind, Except.bind]

@[simp]
theorem pure_eq_ok {b : α} : (pure a : Except ε α) = .ok b ↔ a = b := by
  simp [pure, Except.pure]

@[simp]
theorem throw_eq_ok : (throw e : Except ε α) = .ok a ↔ False := by
  simp [throw]

@[simp]
theorem map_eq_ok {f : α → β} : (f <$> x) = .ok b ↔ ∃ a, x = .ok a ∧ f a = b := by
  cases x <;> simp

@[simp]
theorem exists_unit_eq_ok {x : Except ε Unit} : (∃ u, x = .ok u) ↔ x = .ok () :=
  ⟨fun ⟨(), h⟩ => h, fun h => ⟨(), h⟩⟩

theorem isOk_eq_true {x : Except ε Unit} : x.isOk = true ↔ x = .ok () := by
  cases x <;> simp [Except.toBool]

theorem mapError_eq_ok {ε' : Type u} {f : ε → ε'} : x.mapError f = .ok a ↔ x = .ok a := by
  cases x <;> simp [Except.mapError]

/-- The check `if p then return error`. -/
def failIf (p : Prop) [Decidable p] (e : ε) : Except ε Unit :=
  if p then .error e else .ok ()

@[simp]
theorem failIf_eq_ok [Decidable p] {u} : failIf p e = .ok u ↔ ¬ p := by
  by_cases hp : p <;> simp [failIf]

/-- A result that may be missing, with the error for a missing one. -/
def ofOption (e : ε) : Option α → Except ε α
  | some a => .ok a
  | none => .error e

@[simp]
theorem ofOption_eq_ok {x} : ofOption e x = .ok a ↔ x = some a := by
  cases x <;> simp [ofOption]

theorem forM_eq_ok {f : α → Except ε Unit} : l.forM f = .ok () ↔ ∀ a ∈ l, f a = .ok () := by
  induction l with
  | nil => simp
  | cons a l ih =>
    change (f a >>= fun _ => l.forM f) = .ok () ↔ _
    rw [bind_eq_ok, forall_mem_cons, ← ih]
    constructor
    · rintro ⟨⟨⟩, ha, hl⟩
      exact ⟨ha, hl⟩
    · rintro ⟨ha, hl⟩
      exact ⟨(), ha, hl⟩

theorem mapM_eq_ok {r} : l.mapM f = .ok r ↔ List.Forall₂ (fun a b => f a = .ok b) l r := by
  induction l generalizing r with
  | nil => simp
  | cons a l ih =>
    rw [mapM_cons]
    simp only [bind_eq_ok, pure_eq_ok, ih, forall₂_cons_left_iff]
    constructor
    · rintro ⟨b, hb, bs, hbs, rfl⟩
      exact ⟨b, bs, hb, hbs, rfl⟩
    · rintro ⟨b, bs, hb, hbs, rfl⟩
      exact ⟨b, hb, bs, hbs, rfl⟩

/-! ## Lists related element by element -/

section

variable {R : α → β → Prop} {r : List β}

theorem mem_left_of_forall₂ (h : List.Forall₂ R l r) {a : α} (ha : a ∈ l) : ∃ b ∈ r, R a b := by
  induction h with
  | nil => cases ha
  | cons hab _ ih =>
    rcases mem_cons.1 ha with rfl | ha
    · exact ⟨_, mem_cons_self, hab⟩
    · obtain ⟨b, hb, hR⟩ := ih ha
      exact ⟨b, mem_cons_of_mem _ hb, hR⟩

theorem mem_right_of_forall₂ (h : List.Forall₂ R l r) {b : β} (hb : b ∈ r) : ∃ a ∈ l, R a b := by
  obtain ⟨a, ha, hR⟩ := mem_left_of_forall₂ h.flip hb
  exact ⟨a, ha, hR⟩

/-- A related element for each of a list makes a related list. -/
theorem exists_forall₂ (h : ∀ a ∈ l, ∃ b, R a b) : ∃ r, List.Forall₂ R l r := by
  induction l with
  | nil => exact ⟨[], .nil⟩
  | cons a l ih =>
    obtain ⟨b, hb⟩ := h a mem_cons_self
    obtain ⟨r, hr⟩ := ih fun a ha => h a (mem_cons_of_mem _ ha)
    exact ⟨b :: r, .cons hb hr⟩

end

/-! ## Which errors a computation can end with -/

/-- Every error of a computation satisfies `P`. -/
def FailsOnly (P : ε → Prop) (x : Except ε α) : Prop := ∀ e, x = .error e → P e

variable {P : ε → Prop}

theorem FailsOnly.bind_ok (hx : FailsOnly P x) (hf : ∀ a, x = .ok a → FailsOnly P (f a)) :
    FailsOnly P (x >>= f) := by
  intro e he
  cases x with
  | error =>
    cases he
    exact hx e rfl
  | ok a => exact hf a rfl e he

theorem FailsOnly.bind (hx : FailsOnly P x) (hf : ∀ a, FailsOnly P (f a)) : FailsOnly P (x >>= f) :=
  hx.bind_ok fun a _ => hf a

theorem failsOnly_pure (a : α) : FailsOnly P (pure a : Except ε α) := by
  intro e he
  cases he

theorem failsOnly_throw (h : P e) : FailsOnly P (throw e : Except ε α) := by
  intro e' he
  cases he
  exact h

theorem failsOnly_failIf [Decidable p] (h : P e) : FailsOnly P (failIf p e) := by
  intro e' he
  unfold failIf at he
  split at he
  · cases he
    exact h
  · cases he

theorem failsOnly_ofOption (h : P e) (x : Option α) : FailsOnly P (ofOption e x) := by
  intro e' he
  cases x with
  | none =>
    cases he
    exact h
  | some => cases he

end Checked
