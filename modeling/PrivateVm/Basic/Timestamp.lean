import PrivateVm.Basic.Calendar
import PrivateVm.Basic.Decimal
import Mathlib.Data.List.DropRight

set_option autoImplicit false

/-! # Timestamps and their RFC 3339 form

A `Time` is an instant, in nanoseconds from 1 January of the year 1, with the offset of the
location it is shown in. `format` refuses what the text form cannot hold (a year that is not four
digits, an offset of a day or more). `parse` is as lenient as the common library parser: one-digit
hours, a comma for the fraction's point and offsets up to `24:60` pass. The times that survive are
those that are `Representable`.
-/

namespace Timestamp

open Decimal List Option

structure Time where
  nanos : Int
  offset : Int
  deriving DecidableEq

namespace Time

def before (t u : Time) : Bool := t.nanos < u.nanos
def after (t u : Time) : Bool := u.nanos < t.nanos
def equal (t u : Time) : Bool := t.nanos == u.nanos
def isZero (t : Time) : Bool := t.nanos == 0

variable {t u : Time}

@[simp] theorem before_eq_false : t.before u = false ↔ u.nanos ≤ t.nanos := by
  simp [before]

@[simp] theorem after_eq_false : t.after u = false ↔ t.nanos ≤ u.nanos := by
  simp [after]

@[simp] theorem equal_eq_true : t.equal u = true ↔ t.nanos = u.nanos := by
  simp [equal]

@[simp] theorem isZero_eq_false : t.isZero = false ↔ t.nanos ≠ 0 := by
  simp [isZero]

/-- The same instant, shown in UTC. -/
def utc (t : Time) : Time := { t with offset := 0 }

@[simp] theorem utc_nanos (t : Time) : t.utc.nanos = t.nanos := rfl
@[simp] theorem utc_utc (t : Time) : t.utc.utc = t.utc := rfl

/-! ## The clock of a time -/

/-- Seconds on the clock of the time's location, from 1 January of the year 1. -/
def localSeconds (t : Time) : Int := t.nanos / 1000000000 + t.offset

def date (t : Time) : Calendar.Date := Calendar.ofDayNumber (t.localSeconds / 86400)

def secondOfDay (t : Time) : Nat := (t.localSeconds % 86400).toNat

def nanosecond (t : Time) : Nat := (t.nanos % 1000000000).toNat

/-- The time a clock shows on a day, at an offset. -/
def ofClock (d : Calendar.Date) (hour min sec nsec : Nat) (offset : Int) : Time :=
  { nanos := (Calendar.dayNumber d * 86400 + hour * 3600 + min * 60 + sec - offset) * 1000000000
      + nsec
    offset }

theorem secondOfDay_lt (t : Time) : t.secondOfDay < 86400 := by
  unfold secondOfDay
  omega

theorem nanosecond_lt (t : Time) : t.nanosecond < 1000000000 := by
  unfold nanosecond
  omega

/-- A time is given back by the date and the clock it shows. -/
theorem ofClock_self (t : Time) :
    ofClock t.date (t.secondOfDay / 3600) (t.secondOfDay / 60 % 60) (t.secondOfDay % 60)
      t.nanosecond t.offset = t := by
  have hday : Calendar.dayNumber t.date = t.localSeconds / 86400 :=
    Calendar.dayNumber_ofDayNumber _
  obtain ⟨n, off⟩ := t
  simp only [ofClock, hday, Time.mk.injEq, and_true]
  simp only [secondOfDay, nanosecond, localSeconds]
  omega

end Time

/-! ## Writing -/

/-- The fraction of a second with its trailing zeros cut off, or nothing. -/
def fraction (nsec : Nat) : Bytes :=
  if nsec = 0 then [] else 46 :: ((fixedDigits 9 nsec).rdropWhile (· == 0)).map digit

/-- `Z`, or the sign, hours and minutes of an offset; the seconds of an offset are lost. -/
def zoneText (offset : Int) : Bytes :=
  if offset = 0 then [90]
  else
    (if offset.tdiv 60 < 0 then 45 else 43) :: (fixed 2 ((offset.tdiv 60).natAbs / 60) ++
      58 :: fixed 2 ((offset.tdiv 60).natAbs % 60))

def format (t : Time) : Option Bytes :=
  if 0 ≤ t.date.year ∧ t.date.year ≤ 9999 ∧ (t.offset.tdiv 60).natAbs / 60 < 24 then
    some (fixed 4 t.date.year.toNat ++ 45 :: (fixed 2 t.date.month ++ 45 :: (fixed 2 t.date.day
      ++ 84 :: (fixed 2 (t.secondOfDay / 3600) ++ 58 :: (fixed 2 (t.secondOfDay / 60 % 60)
      ++ 58 :: (fixed 2 (t.secondOfDay % 60) ++ (fraction t.nanosecond ++ zoneText t.offset)))))))
  else none

/-! ## Reading -/

/-- One or two digits; exactly two when `exact`. -/
def getnum (exact : Bool) : Bytes → Option (Nat × Bytes)
  | [] => none
  | [a] => (digit? a).bind fun x => if exact then none else some (x, [])
  | a :: b :: rest =>
    (digit? a).bind fun x =>
      match digit? b with
      | some y => some (10 * x + y, rest)
      | none => if exact then none else some (x, b :: rest)

def getYear : Bytes → Option (Nat × Bytes)
  | a :: b :: c :: d :: rest => (digitsValue? [a, b, c, d]).map fun y => (y, rest)
  | _ => none

/-- Skip the separator `c`. -/
def skip (c : UInt8) : Bytes → Option Bytes
  | [] => none
  | b :: rest => if b = c then some rest else none

/-- Nanoseconds of the digits of a fraction; digits past the ninth are dropped. -/
def scale (digits : Bytes) : Nat :=
  (digitsValue? (digits.take 9)).getD 0 * 10 ^ (9 - (digits.take 9).length)

/-- An optional fraction: a point or a comma, and at least one digit. -/
def getFraction : Bytes → Nat × Bytes
  | sep :: d :: rest =>
    if (sep = 46 ∨ sep = 44) ∧ isDigit d then
      (scale ((d :: rest).takeWhile isDigit), (d :: rest).dropWhile isDigit)
    else (0, sep :: d :: rest)
  | s => (0, s)

def getZone : Bytes → Option (Int × Bytes)
  | sign :: h :: h' :: colon :: m :: m' :: rest =>
    if sign = 90 then some (0, h :: h' :: colon :: m :: m' :: rest)
    else if colon = 58 then do
      let (hr, _) ← getnum true [h, h']
      let (mm, _) ← getnum true [m, m']
      if hr > 24 ∨ mm > 60 then none
      else if sign = 43 then some ((((hr * 60 + mm) * 60 : Nat) : Int), rest)
      else if sign = 45 then some (-(((hr * 60 + mm) * 60 : Nat) : Int), rest)
      else none
    else none
  | sign :: rest => if sign = 90 then some (0, rest) else none
  | [] => none

def parse (s : Bytes) : Option Time := do
  let (year, s) ← getYear s
  let s ← skip 45 s
  let (month, s) ← getnum true s
  let s ← skip 45 s
  let (day, s) ← getnum true s
  let s ← skip 84 s
  let (hour, s) ← getnum false s
  let s ← skip 58 s
  let (min, s) ← getnum true s
  let s ← skip 58 s
  let (sec, s) ← getnum true s
  let (nsec, s) := getFraction s
  let (offset, s) ← getZone s
  if s = [] ∧ 1 ≤ month ∧ month ≤ 12 ∧ hour < 24 ∧ min < 60 ∧ sec < 60 ∧ 1 ≤ day ∧
      day ≤ Calendar.daysIn month (Calendar.isLeap year) then
    some (Time.ofClock ⟨year, month, day⟩ hour min sec nsec offset)
  else none

/-! ## Reading back what was written -/

/-- Times that the text form keeps: a year of four digits and an offset of whole minutes,
less than a day. -/
def Representable (t : Time) : Prop :=
  0 ≤ t.date.year ∧ t.date.year ≤ 9999 ∧ 60 ∣ t.offset ∧ t.offset.natAbs < 86400

instance (t : Time) : Decidable (Representable t) := inferInstanceAs (Decidable (_ ∧ _))

variable {n : Nat} {offset : Int} {t : Time} {b : Bytes}

theorem getnum_fixed (exact : Bool) (h : n < 100) (rest : Bytes) :
    getnum exact (fixed 2 n ++ rest) = some (n, rest) := by
  rw [fixed_two]
  simp only [cons_append, nil_append, getnum, digit?_digit (Nat.mod_lt _ (by omega)),
    bind_some, Option.some.injEq, Prod.mk.injEq, and_true]
  omega

theorem getYear_fixed (h : n < 10000) (rest : Bytes) :
    getYear (fixed 4 n ++ rest) = some (n, rest) := by
  have hv : digitsValue? (fixed 4 n) = some n := digitsValue?_fixed (by omega)
  rw [fixed_four] at hv ⊢
  simp [getYear, hv]

@[simp] theorem skip_cons (c : UInt8) (rest : Bytes) : skip c (c :: rest) = some rest := by
  simp [skip]

/-- Cutting off trailing zeros and scaling up again gives the nanoseconds back. -/
theorem scale_rdropWhile (h : n < 1000000000) :
    scale (((fixedDigits 9 n).rdropWhile (· == 0)).map digit) = n := by
  obtain ⟨l, hl⟩ : ∃ l, l = (fixedDigits 9 n).rdropWhile (· == 0) := ⟨_, rfl⟩
  obtain ⟨z, hz, hspl⟩ : ∃ z, (∀ d ∈ z, d = 0) ∧ l ++ z = fixedDigits 9 n := by
    refine ⟨(fixedDigits 9 n).rtakeWhile (· == 0), ?_, ?_⟩
    · intro d hd
      simpa using mem_rtakeWhile_imp hd
    · rw [hl]
      exact rdropWhile_append_rtakeWhile
  have hzeros : z = .replicate z.length 0 := eq_replicate_of_mem hz
  have hlen : l.length + z.length = 9 := by
    rw [← length_append, hspl, fixedDigits_length]
  have hval : value l * 10 ^ z.length = n := by
    rw [← value_append_zeros, ← hzeros, hspl, value_fixedDigits (by omega)]
  have hlt : ∀ d ∈ l, d < 10 := by
    intro d hd
    exact fixedDigits_lt 9 n d (hspl ▸ mem_append_left z hd)
  have htake : (l.map digit).take 9 = l.map digit :=
    take_of_length_le (by rw [length_map]; omega)
  rw [← hl, scale, htake, digitsValue?_map_digit hlt, getD_some, length_map]
  have : 9 - l.length = z.length := by omega
  rw [this, hval]

theorem rdropWhile_zero_ne_nil (h : n < 1000000000) (h0 : n ≠ 0) :
    (fixedDigits 9 n).rdropWhile (· == 0) ≠ [] := by
  intro hnil
  have := scale_rdropWhile h
  rw [hnil] at this
  exact h0 (by simpa [scale, digitsValue?] using this.symm)

variable {l : List Nat} {z : UInt8}

theorem takeWhile_digits (hl : ∀ d ∈ l, d < 10) (hz : isDigit z = false) (rest : Bytes) :
    (l.map digit ++ z :: rest).takeWhile isDigit = l.map digit ∧
      (l.map digit ++ z :: rest).dropWhile isDigit = z :: rest := by
  have hall : ∀ b ∈ l.map digit, isDigit b = true := by
    intro b hb
    obtain ⟨d, hd, rfl⟩ := List.mem_map.mp hb
    exact isDigit_digit (hl d hd)
  constructor
  · rw [takeWhile_append_of_pos hall, takeWhile_cons_of_neg (by simp [hz]),
      append_nil]
  · rw [dropWhile_append_of_pos hall, dropWhile_cons_of_neg (by simp [hz])]

theorem getFraction_fraction (h : n < 1000000000) (hz : isDigit z = false) (hz1 : z ≠ 46)
    (hz2 : z ≠ 44) (rest : Bytes) : getFraction (fraction n ++ z :: rest) = (n, z :: rest) := by
  unfold fraction
  split
  · next h0 =>
      subst h0
      cases rest with
      | nil => rfl
      | cons => simp [getFraction, hz1, hz2]
  · next h0 =>
      obtain ⟨l, hl⟩ : ∃ l, l = (fixedDigits 9 n).rdropWhile (· == 0) := ⟨_, rfl⟩
      have hlt : ∀ d ∈ l, d < 10 := by
        intro d hd
        rw [hl] at hd
        exact fixedDigits_lt 9 n d ((List.rdropWhile_prefix _ _).subset hd)
      have hscale := scale_rdropWhile h
      obtain ⟨ht, hd⟩ := takeWhile_digits hlt hz rest
      rw [← hl] at hscale ⊢
      cases hl' : l with
      | nil => exact absurd (hl ▸ hl') (rdropWhile_zero_ne_nil h h0)
      | cons d =>
        rw [hl'] at ht hd hscale hlt
        simp only [map_cons, cons_append] at ht hd hscale ⊢
        rw [getFraction, if_pos ⟨.inl rfl, isDigit_digit (hlt d (by simp))⟩, ht, hd, hscale]

theorem getnum_fixed_two (h : n < 100) :
    getnum true [digit (n / 10 % 10), digit (n % 10)] = some (n, []) := by
  have := getnum_fixed true h []
  rwa [fixed_two, append_nil] at this

theorem getZone_zoneText (h60 : 60 ∣ offset) (hlt : offset.natAbs < 86400) :
    getZone (zoneText offset) = some (offset, []) := by
  obtain ⟨k, rfl⟩ := h60
  have hdiv : (60 * k).tdiv 60 = k := Int.mul_tdiv_cancel_left k (by omega)
  unfold zoneText
  split
  · next h0 => rw [h0]; rfl
  rw [hdiv, fixed_two, fixed_two]
  have hh := getnum_fixed_two (n := k.natAbs / 60) (by omega)
  have hm := getnum_fixed_two (n := k.natAbs % 60) (by omega)
  have hrange : ¬ (k.natAbs / 60 > 24 ∨ k.natAbs % 60 > 60) := by omega
  by_cases hneg : k < 0
  · simp only [hneg, if_true, cons_append, nil_append, getZone, hh, hm,
      bind_eq_bind, bind_some, if_neg hrange]
    simp only [show ((45 : UInt8) = 90) = False by simp, show ((45 : UInt8) = 43) = False by simp,
      if_false, Option.some.injEq, Prod.mk.injEq, and_true]
    omega
  · simp only [hneg, cons_append, nil_append, getZone, hh, hm,
      bind_eq_bind, bind_some, if_neg hrange]
    simp only [show ((43 : UInt8) = 90) = False by simp, if_false, if_true, Option.some.injEq,
      Prod.mk.injEq, and_true]
    omega

theorem natAbs_tdiv_sixty (h : 60 ∣ offset) : 60 * (offset.tdiv 60).natAbs = offset.natAbs := by
  obtain ⟨k, rfl⟩ := h
  rw [Int.mul_tdiv_cancel_left k (by omega)]
  omega

/-- The zone of a written time starts with a byte that ends the fraction. -/
theorem zoneText_cons (offset : Int) :
    ∃ z rest, zoneText offset = z :: rest ∧ isDigit z = false ∧ z ≠ 46 ∧ z ≠ 44 := by
  unfold zoneText
  split
  · exact ⟨90, [], rfl, by decide, by decide, by decide⟩
  · split
    · exact ⟨45, _, rfl, by decide, by decide, by decide⟩
    · exact ⟨43, _, rfl, by decide, by decide, by decide⟩

/-- A written time is read as the clock it shows, at the offset its zone text gives. -/
theorem parse_of_format (h : format t = some b) :
    parse b = (getZone (zoneText t.offset)).bind fun r =>
      if r.2 = [] then
        some (.ofClock t.date (t.secondOfDay / 3600) (t.secondOfDay / 60 % 60)
          (t.secondOfDay % 60) t.nanosecond r.1)
      else none := by
  unfold format at h
  split at h
  · next hy =>
      obtain ⟨hv1, hv2, hv3, hv4⟩ := Calendar.ofDayNumber_valid (t.localSeconds / 86400)
      change t.date.month ≤ 12 at hv2
      have hday : t.date.day ≤ 31 := by
        refine le_trans hv4 ?_
        unfold Calendar.daysIn Calendar.leapDay
        repeat' split
        all_goals omega
      have hsec := t.secondOfDay_lt
      have hyear : (t.date.year.toNat : Nat) = t.date.year := by omega
      obtain ⟨z, rest, hz, hz0, hz1, hz2⟩ := zoneText_cons t.offset
      have hfrac : getFraction (fraction t.nanosecond ++ zoneText t.offset)
          = (t.nanosecond, zoneText t.offset) := by
        rw [hz]
        exact getFraction_fraction t.nanosecond_lt hz0 hz1 hz2 rest
      cases h
      simp only [parse, bind_eq_bind, getYear_fixed (by omega : t.date.year.toNat < 10000),
        bind_some, skip_cons, getnum_fixed true (by omega : t.date.month < 100),
        getnum_fixed true (by omega : t.date.day < 100),
        getnum_fixed false (by omega : t.secondOfDay / 3600 < 100),
        getnum_fixed true (by omega : t.secondOfDay / 60 % 60 < 100),
        getnum_fixed true (by omega : t.secondOfDay % 60 < 100), hfrac]
      have hrest : 1 ≤ t.date.month ∧ t.date.month ≤ 12 ∧ t.secondOfDay / 3600 < 24 ∧
          t.secondOfDay / 60 % 60 < 60 ∧ t.secondOfDay % 60 < 60 ∧ 1 ≤ t.date.day ∧
          t.date.day ≤ Calendar.daysIn t.date.month (Calendar.isLeap t.date.year) :=
        ⟨hv1, hv2, by omega, by omega, by omega, hv3, hv4⟩
      simp [hyear, hrest]
  · cases h

/-- **Representable times survive** being written and read. -/
theorem parse_format (h : Representable t) : ∃ b, format t = some b ∧ parse b = some t := by
  obtain ⟨hy0, hy1, h60, hlt⟩ := h
  obtain ⟨b, hb⟩ : ∃ b, format t = some b := by
    have hzone := natAbs_tdiv_sixty h60
    unfold format
    rw [if_pos ⟨hy0, hy1, by omega⟩]
    exact ⟨_, rfl⟩
  refine ⟨b, hb, ?_⟩
  rw [parse_of_format hb, getZone_zoneText h60 hlt, bind_some, if_pos rfl, Time.ofClock_self]

theorem getZone_eq_some {s rest} (h : getZone s = some (offset, rest)) : 60 ∣ offset := by
  unfold getZone at h
  split at h
  · split at h
    · cases h; exact .intro 0 rfl
    split at h
    · simp only [bind_eq_bind, bind_eq_some_iff, Prod.exists] at h
      obtain ⟨hr, _, -, mm, _, -, h⟩ := h
      split at h
      · cases h
      split at h
      · cases h; exact ⟨hr * 60 + mm, by push_cast; ring⟩
      · split at h
        · cases h; exact ⟨-(hr * 60 + mm), by push_cast; ring⟩
        · cases h
    · cases h
  · split at h
    · cases h; exact .intro 0 rfl
    · cases h
  · cases h

/-- **Only representable times survive**: a time that is read back from its own text is
representable. -/
theorem representable_of_parse_format (hf : format t = some b) (hp : parse b = some t) :
    Representable t := by
  rw [parse_of_format hf] at hp
  obtain ⟨⟨offset, rest⟩, hz, hr⟩ := Option.bind_eq_some_iff.mp hp
  have h60 : 60 ∣ t.offset := by
    split at hr
    · simp only [Option.some.injEq] at hr
      have : offset = t.offset := congrArg Time.offset hr
      exact this ▸ getZone_eq_some hz
    · cases hr
  unfold format at hf
  split at hf
  · next hy =>
      have hzone := natAbs_tdiv_sixty h60
      exact ⟨hy.1, hy.2.1, h60, by omega⟩
  · cases hf

/-- A time after it was written and read once. -/
def reread (t : Time) : Option Time := (format t).bind parse

theorem reread_eq_self_iff : reread t = some t ↔ Representable t := by
  constructor
  · intro h
    obtain ⟨b, hf, hp⟩ := bind_eq_some_iff.1 h
    exact representable_of_parse_format hf hp
  · intro h
    obtain ⟨b, hf, hp⟩ := parse_format h
    rwa [reread, hf]

/-! ## The bytes of a written time -/

theorem map_digit_plain (hl : ∀ d ∈ l, d < 10) :
    ∀ c ∈ l.map digit, 32 ≤ c.toNat ∧ c.toNat < 91 ∧ c ≠ 34 := by
  rw [List.forall_mem_map]
  intro d hd
  have hdig := digit_toNat (hl d hd)
  have hlt := hl d hd
  refine ⟨by omega, by omega, fun h34 => ?_⟩
  simp only [h34, UInt8.reduceToNat] at hdig
  omega

theorem fixed_plain (k n : Nat) : ∀ c ∈ fixed k n, 32 ≤ c.toNat ∧ c.toNat < 91 ∧ c ≠ 34 :=
  map_digit_plain (fixedDigits_lt k n)

theorem fraction_plain (n : Nat) : ∀ c ∈ fraction n, 32 ≤ c.toNat ∧ c.toNat < 91 ∧ c ≠ 34 := by
  unfold fraction
  split
  · simp
  · refine forall_mem_cons.2 ⟨by decide, map_digit_plain fun d hd => ?_⟩
    exact fixedDigits_lt 9 n d ((List.rdropWhile_prefix _ _).subset hd)

theorem zoneText_plain (offset : Int) :
    ∀ c ∈ zoneText offset, 32 ≤ c.toNat ∧ c.toNat < 91 ∧ c ≠ 34 := by
  unfold zoneText
  split
  · exact forall_mem_singleton.2 (by decide)
  · simp only [forall_mem_cons, forall_mem_append]
    exact ⟨by split <;> decide, fixed_plain _ _, by decide, fixed_plain _ _⟩

/-- A written time is printable ASCII without a quote or a backslash. -/
theorem format_plain (h : format t = some b) : ∀ c ∈ b, 32 ≤ c.toNat ∧ c.toNat < 91 ∧ c ≠ 34 := by
  unfold format at h
  split at h
  · cases h
    simp only [forall_mem_append, forall_mem_cons]
    exact ⟨fixed_plain _ _, by decide, fixed_plain _ _, by decide, fixed_plain _ _, by decide,
      fixed_plain _ _, by decide, fixed_plain _ _, by decide, fixed_plain _ _, fraction_plain _,
      zoneText_plain _⟩
  · cases h

theorem format_length_le (h : format t = some b) : b.length ≤ 35 := by
  have hfrac : (fraction t.nanosecond).length ≤ 10 := by
    unfold fraction
    split
    · simp
    · have := (List.rdropWhile_prefix (· == 0) (fixedDigits 9 t.nanosecond)).length_le
      rw [fixedDigits_length] at this
      simp
      omega
  have hzone : (zoneText t.offset).length ≤ 6 := by
    unfold zoneText
    split <;> simp
  unfold format at h
  split at h
  · cases h
    simp
    omega
  · cases h

end Timestamp
