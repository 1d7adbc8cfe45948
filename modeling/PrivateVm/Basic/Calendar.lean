import Mathlib.Tactic

set_option autoImplicit false

/-! # The proleptic Gregorian calendar

Days are counted from 1 January of the year 1, which is day `0`. `ofDayNumber` finds the date of a
day by cutting off cycles of 400, 100, 4 and 1 years, as calendar libraries do.
-/

namespace Calendar

/-- A date; `month` and `day` count from 1. -/
structure Date where
  year : Int
  month : Nat
  day : Nat
  deriving DecidableEq

def isLeap (year : Int) : Bool := year % 4 == 0 && (year % 100 != 0 || year % 400 == 0)

/-- One more day in a leap year, from March on. -/
def leapDay (leap : Bool) : Nat := if leap then 1 else 0

def daysIn (month : Nat) (leap : Bool) : Nat :=
  match month with
  | 2 => 28 + leapDay leap
  | 4 | 6 | 9 | 11 => 30
  | _ => 31

def daysBeforeMonth : Nat → Bool → Nat
  | 0, _ => 0
  | 1, _ => 0
  | m + 2, leap => daysBeforeMonth (m + 1) leap + daysIn (m + 1) leap

/-- The days before 1 January of `year`. -/
def daysBeforeYear (year : Int) : Int :=
  365 * (year - 1) + (year - 1) / 4 - (year - 1) / 100 + (year - 1) / 400

def dayNumber (d : Date) : Int :=
  daysBeforeYear d.year + daysBeforeMonth d.month (isLeap d.year) + (d.day : Int) - 1

/-- Month and day of the `yday`-th day, counted from 0, from the first of `month` on; at
most `k` months are passed. -/
def monthDayFrom : Nat → Nat → Nat → Bool → Nat × Nat
  | 0, month, yday, _ => (month, yday + 1)
  | k + 1, month, yday, leap =>
    if yday < daysIn month leap then (month, yday + 1)
    else monthDayFrom k (month + 1) (yday - daysIn month leap) leap

def monthDay (yday : Nat) (leap : Bool) : Nat × Nat := monthDayFrom 11 1 yday leap

/-- Year and day of the year (from 0) of a day. The cycles of 100 years and of one year
have a fifth, shorter-than-usual remainder on the last day of a leap cycle; `min 3` folds
it back into the fourth. -/
def yearDay (n : Int) : Int × Int :=
  let c400 := n / 146097
  let r400 := n % 146097
  let c100 := min 3 (r400 / 36524)
  let r100 := r400 - 36524 * c100
  let c4 := r100 / 1461
  let r4 := r100 % 1461
  let c1 := min 3 (r4 / 365)
  (400 * c400 + 100 * c100 + 4 * c4 + c1 + 1, r4 - 365 * c1)

def ofDayNumber (n : Int) : Date :=
  let (year, yday) := yearDay n
  let (month, day) := monthDay yday.toNat (isLeap year)
  { year, month, day }

def Date.Valid (d : Date) : Prop :=
  1 ≤ d.month ∧ d.month ≤ 12 ∧ 1 ≤ d.day ∧ d.day ≤ daysIn d.month (isLeap d.year)

/-! ## Reading a day back -/

theorem isLeap_iff (year : Int) :
    isLeap year = true ↔ year % 4 = 0 ∧ (year % 100 ≠ 0 ∨ year % 400 = 0) := by
  simp [isLeap]

/-- What the four cuts of `yearDay` leave: the year's cycles and the day inside it. -/
theorem yearDay_spec (n : Int) :
    daysBeforeYear (yearDay n).1 + (yearDay n).2 = n ∧ 0 ≤ (yearDay n).2 ∧
      (yearDay n).2 < 365 + leapDay (isLeap (yearDay n).1) := by
  obtain ⟨a, ha⟩ : ∃ a, a = n / 146097 := ⟨_, rfl⟩
  obtain ⟨b, hb⟩ : ∃ b, b = min 3 (n % 146097 / 36524) := ⟨_, rfl⟩
  obtain ⟨c, hc⟩ : ∃ c, c = (n % 146097 - 36524 * b) / 1461 := ⟨_, rfl⟩
  obtain ⟨e, he⟩ : ∃ e, e = min 3 ((n % 146097 - 36524 * b) % 1461 / 365) := ⟨_, rfl⟩
  have hyd : yearDay n
      = (400 * a + 100 * b + 4 * c + e + 1, (n % 146097 - 36524 * b) % 1461 - 365 * e) := by
    simp only [yearDay, ← ha, ← hb, ← hc, ← he]
  have hb' : 0 ≤ b ∧ b ≤ 3 := by omega
  have hyear : 400 * a + 100 * b + 4 * c + e + 1 - 1 = 400 * a + 100 * b + 4 * c + e := by omega
  have h4 : (400 * a + 100 * b + 4 * c + e) / 4 = 100 * a + 25 * b + c := by omega
  have h100 : (400 * a + 100 * b + 4 * c + e) / 100 = 4 * a + b := by omega
  have h400 : (400 * a + 100 * b + 4 * c + e) / 400 = a := by omega
  rw [hyd]
  simp only [daysBeforeYear, hyear, h4, h100, h400]
  refine ⟨by omega, by omega, ?_⟩
  by_cases hleap : isLeap (400 * a + 100 * b + 4 * c + e + 1) = true
  · rw [hleap]
    simp only [leapDay, if_true]
    omega
  have hnot := hleap
  rw [isLeap_iff] at hnot
  rw [Bool.not_eq_true] at hleap
  rw [hleap]
  omega

theorem daysBeforeMonth_succ {month : Nat} (h : 1 ≤ month) (leap : Bool) :
    daysBeforeMonth (month + 1) leap = daysBeforeMonth month leap + daysIn month leap := by
  cases month with
  | zero => omega
  | succ => rfl

theorem monthDayFrom_spec (leap : Bool) : ∀ k month yday, 1 ≤ month →
    daysBeforeMonth month leap + yday < daysBeforeMonth (month + k + 1) leap →
    daysBeforeMonth (monthDayFrom k month yday leap).1 leap + (monthDayFrom k month yday leap).2
        = daysBeforeMonth month leap + yday + 1 ∧
      month ≤ (monthDayFrom k month yday leap).1 ∧
      (monthDayFrom k month yday leap).1 ≤ month + k ∧
      1 ≤ (monthDayFrom k month yday leap).2 ∧
      (monthDayFrom k month yday leap).2 ≤ daysIn (monthDayFrom k month yday leap).1 leap := by
  intro k
  induction k with
  | zero =>
    intro month yday hm h
    rw [daysBeforeMonth_succ hm] at h
    simp only [monthDayFrom]
    omega
  | succ k ih =>
    intro month yday hm h
    have hsucc := daysBeforeMonth_succ hm leap
    unfold monthDayFrom
    split
    · simp only
      omega
    · have harg : month + 1 + k + 1 = month + (k + 1) + 1 := by omega
      have := ih (month + 1) (yday - daysIn month leap) (by omega) (by rw [harg]; omega)
      omega

theorem monthDay_spec (yday : Nat) (leap : Bool) (h : yday < 365 + leapDay leap) :
    daysBeforeMonth (monthDay yday leap).1 leap + (monthDay yday leap).2 = yday + 1 ∧
      1 ≤ (monthDay yday leap).1 ∧ (monthDay yday leap).1 ≤ 12 ∧ 1 ≤ (monthDay yday leap).2 ∧
      (monthDay yday leap).2 ≤ daysIn (monthDay yday leap).1 leap := by
  have hyear : daysBeforeMonth 13 leap = 365 + leapDay leap := by cases leap <;> rfl
  have hjan : daysBeforeMonth 1 leap = 0 := rfl
  have := monthDayFrom_spec leap 11 1 yday (by omega) (by rw [hyear]; omega)
  unfold monthDay
  omega

/-- **No day is lost**: the date found for a day has that day's number. -/
theorem dayNumber_ofDayNumber (n : Int) : dayNumber (ofDayNumber n) = n := by
  obtain ⟨hn, h0, hlt⟩ := yearDay_spec n
  obtain ⟨hm, -⟩ := monthDay_spec (yearDay n).2.toNat (isLeap (yearDay n).1) (by omega)
  simp only [dayNumber, ofDayNumber]
  omega

theorem ofDayNumber_valid (n : Int) : (ofDayNumber n).Valid := by
  obtain ⟨-, h0, hlt⟩ := yearDay_spec n
  obtain ⟨-, hm⟩ := monthDay_spec (yearDay n).2.toNat (isLeap (yearDay n).1) (by omega)
  exact hm

example : ofDayNumber 739450 = ⟨2025, 7, 19⟩ := by decide

end Calendar
