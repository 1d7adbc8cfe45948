import Mathlib.Data.List.Sort

set_option autoImplicit false

/-! # Records in the order of their keys

Sorting by a key permutes the records, and records are increasing if each comes before the next.
-/

namespace Keyed

variable {α κ : Type} [LE κ]

def sort [DecidableLE κ] (key : α → κ) (records : List α) : List α :=
  records.insertionSort fun a b => key a ≤ key b

def Increasing [LT κ] (key : α → κ) (records : List α) : Prop :=
  records.IsChain fun a b => key a < key b

instance [LT κ] [DecidableLT κ] (key : α → κ) (records : List α) :
    Decidable (Increasing key records) :=
  inferInstanceAs (Decidable (List.IsChain _ _))

theorem sort_perm [DecidableLE κ] (key : α → κ) (records : List α) :
    (sort key records).Perm records :=
  List.perm_insertionSort _ _

@[simp] theorem length_sort [DecidableLE κ] (key : α → κ) (records : List α) :
    (sort key records).length = records.length :=
  (sort_perm key records).length_eq

end Keyed
