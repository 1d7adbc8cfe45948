import Mathlib.Logic.Relation

set_option autoImplicit false

/-! # Machines and their guarded runs

A guard says which inputs a run may take in which states; `Leads` is a run of permitted steps,
`Reachable` what such runs reach from an initial state, and `Reachable.inv` the rule for
invariants. A concrete run is a list of inputs (`play`).
-/

/-- Initial states, and a step for every input. -/
structure Machine (S I : Type) where
  init : S → Prop
  step : I → S → S

namespace Machine

variable {S I : Type} {M : Machine S I} {G : I → S → Prop}

def Next (M : Machine S I) (G : I → S → Prop) (s s' : S) : Prop :=
  ∃ i, G i s ∧ M.step i s = s'

def Leads (M : Machine S I) (G : I → S → Prop) : S → S → Prop :=
  Relation.ReflTransGen (M.Next G)

/-- The states that permitted runs reach. -/
def Reachable (M : Machine S I) (G : I → S → Prop) (s : S) : Prop :=
  ∃ s₀, M.init s₀ ∧ M.Leads G s₀ s

def free (I S : Type) : I → S → Prop := fun _ _ => True

theorem Leads.refl (s : S) : M.Leads G s s := Relation.ReflTransGen.refl

variable {P : S → Prop} {s : S} {test : I → S → Bool} {is : List I}

/-- What every permitted step keeps, a run keeps. -/
theorem Leads.keeps (hstep : ∀ i s, G i s → P s → P (M.step i s)) {s' : S} (h : M.Leads G s s')
    (hs : P s) : P s' := by
  induction h with
  | refl => exact hs
  | tail _ hnext ih =>
    obtain ⟨i, hi, rfl⟩ := hnext
    exact hstep i _ hi ih

/-- **The rule for invariants.** -/
theorem Reachable.inv (hinit : ∀ s, M.init s → P s) (hstep : ∀ i s, G i s → P s → P (M.step i s))
    (h : M.Reachable G s) : P s := by
  obtain ⟨s₀, h₀, hlead⟩ := h
  exact hlead.keeps hstep (hinit s₀ h₀)

/-! ## Runs of given inputs -/

/-- The state after a list of inputs. -/
def play (M : Machine S I) : List I → S → S
  | [], s => s
  | i :: is, s => M.play is (M.step i s)

/-- Every step of that run passes a test. -/
def passes (M : Machine S I) (test : I → S → Bool) : List I → S → Bool
  | [], _ => true
  | i :: is, s => test i s && M.passes test is (M.step i s)

theorem leads_play (htest : ∀ i s, test i s = true → G i s) (h : M.passes test is s = true) :
    M.Leads G s (M.play is s) := by
  induction is generalizing s with
  | nil => exact .refl s
  | cons i is ih =>
    obtain ⟨hi, hrest⟩ := Bool.and_eq_true_iff.1 h
    exact .head ⟨i, htest i s hi, rfl⟩ (ih hrest)

theorem reachable_play (htest : ∀ i s, test i s = true → G i s) (hs : M.init s)
    (h : M.passes test is s = true) : M.Reachable G (M.play is s) :=
  ⟨s, hs, leads_play htest h⟩

/-- Without a guard every list of inputs is a run. -/
theorem leads_play_free (is : List I) (s : S) : M.Leads (free I S) s (M.play is s) := by
  induction is generalizing s with
  | nil => exact .refl s
  | cons i is ih => exact .head ⟨i, trivial, rfl⟩ (ih _)

theorem reachable_play_free (is : List I) (hs : M.init s) : M.Reachable (free I S) (M.play is s) :=
  ⟨s, hs, leads_play_free is s⟩

end Machine
