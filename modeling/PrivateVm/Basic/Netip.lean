import Mathlib.Tactic.TypeStar

set_option autoImplicit false

/-! # Addresses and prefixes

The values of Go's `net/netip`: an address is the zero value, of version 4, or of version 6 with
a zone that may be empty; a prefix is an address without a zone and a number of leading bits, or
invalid.
-/

namespace Netip

inductive Addr where
  | zero
  | v4 (bits : BitVec 32)
  | v6 (bits : BitVec 128) (zone : String)
  deriving DecidableEq

namespace Addr

def is4 : Addr → Bool
  | .v4 _ => true
  | _ => false

/-- Version 4 addresses mapped to version 6 included. -/
def is6 : Addr → Bool
  | .v6 _ _ => true
  | _ => false

def bitLen : Addr → Nat
  | .zero => 0
  | .v4 _ => 32
  | .v6 _ _ => 128

def zone : Addr → String
  | .v6 _ zone => zone
  | _ => ""

def isValid : Addr → Bool
  | .zero => false
  | _ => true

def is4In6 : Addr → Bool
  | .v6 bits _ => bits >>> 32 = 0xffff
  | _ => false

def withoutZone : Addr → Addr
  | .v6 bits _ => .v6 bits ""
  | a => a

/-- The version 4 address of a mapped one; other addresses are left alone. -/
def unmap (a : Addr) : Addr :=
  match a with
  | .v6 bits _ => if a.is4In6 then .v4 (bits.truncate 32) else a
  | _ => a

def isLoopback (a : Addr) : Bool :=
  match a.unmap with
  | .v4 bits => bits >>> 24 = 127
  | .v6 bits _ => bits = 1
  | .zero => false

def isMulticast (a : Addr) : Bool :=
  match a.unmap with
  | .v4 bits => bits >>> 28 = 0xe
  | .v6 bits _ => bits >>> 120 = 0xff
  | .zero => false

def isLinkLocalUnicast (a : Addr) : Bool :=
  match a.unmap with
  | .v4 bits => bits >>> 16 = 0xa9fe
  | .v6 bits _ => bits >>> 118 = 0x3fa
  | .zero => false

def isPrivate (a : Addr) : Bool :=
  match a.unmap with
  | .v4 bits => bits >>> 24 = 10 || bits >>> 20 = 0xac1 || bits >>> 16 = 0xc0a8
  | .v6 bits _ => bits >>> 121 = 0x7e
  | .zero => false

/-- Private addresses included; a zone is part of an address, so that only the unspecified
address without one is excluded. -/
def isGlobalUnicast (a : Addr) : Bool :=
  a.isValid && a.unmap != .v4 0 && a.unmap != .v4 0xffffffff && a.unmap != .v6 0 "" &&
    !a.isLoopback && !a.isMulticast && !a.isLinkLocalUnicast

/-- Addresses are ordered by their version, then by their bits, then by their zone. -/
def compare : Addr → Addr → Ordering
  | .v4 bits, .v4 bits' => Ord.compare bits.toNat bits'.toNat
  | .v6 bits zone, .v6 bits' zone' =>
    (Ord.compare bits.toNat bits'.toNat).then (Ord.compare zone zone')
  | a, b => Ord.compare a.bitLen b.bitLen

/-- The address that follows, or no address after the last one. -/
def next : Addr → Addr
  | .zero => .zero
  | .v4 bits => if bits + 1 = 0 then .zero else .v4 (bits + 1)
  | .v6 bits zone => if bits + 1 = 0 then .zero else .v6 (bits + 1) zone

/-- All but the first `length` bits are cleared. -/
def mask (length : Nat) : Addr → Addr
  | .zero => .zero
  | .v4 bits => .v4 ((bits >>> (32 - length)) <<< (32 - length))
  | .v6 bits zone => .v6 ((bits >>> (128 - length)) <<< (128 - length)) zone

theorem bitLen_mask (length : Nat) (a : Addr) : (a.mask length).bitLen = a.bitLen := by
  cases a <;> rfl

theorem zone_withoutZone (a : Addr) : a.withoutZone.zone = "" := by
  cases a <;> rfl

theorem bitLen_withoutZone (a : Addr) : a.withoutZone.bitLen = a.bitLen := by
  cases a <;> rfl

theorem zone_mask (length : Nat) (a : Addr) : (a.mask length).zone = a.zone := by
  cases a <;> rfl

/-! ## The text of an address -/

def text4 (bits : BitVec 32) : List Char :=
  ['.'].intercalate ([24, 16, 8, 0].map fun i => Nat.toDigits 10 ((bits >>> i).toNat % 256))

def groups (bits : BitVec 128) : List Nat :=
  (List.range 8).map fun i => (bits >>> (112 - 16 * i)).toNat % 65536

/-- Where the first of the longest runs of two or more groups of zero starts, and its length. -/
def zeros (groups : List Nat) : Option (Nat × Nat) :=
  (List.range 8).foldl (fun best i =>
    let run := ((groups.drop i).takeWhile (· = 0)).length
    if 2 ≤ run ∧ best.all (·.2 < run) then some (i, run) else best) none

def colons (groups : List Nat) : List Char :=
  [':'].intercalate (groups.map (Nat.toDigits 16))

/-- Groups with colons between them, and two colons for a run of zeros. -/
def text6 (bits : BitVec 128) : List Char :=
  match zeros (groups bits) with
  | none => colons (groups bits)
  | some (start, run) =>
    colons ((groups bits).take start) ++ [':', ':'] ++ colons ((groups bits).drop (start + run))

def text (a : Addr) : List Char :=
  match a with
  | .zero => "invalid IP".toList
  | .v4 bits => text4 bits
  | .v6 bits zone =>
    (if a.is4In6 then "::ffff:".toList ++ text4 (bits.truncate 32) else text6 bits) ++
      if zone = "" then [] else '%' :: zone.toList

end Addr

/-- The number with the given bytes, the first of which counts most. -/
def bigEndian (bytes : List UInt8) : Nat := bytes.foldl (fun n b => 256 * n + b.toNat) 0

def addrFromSlice (bytes : List UInt8) : Option Addr :=
  if bytes.length = 4 then some (.v4 (BitVec.ofNat 32 (bigEndian bytes)))
  else if bytes.length = 16 then some (.v6 (BitVec.ofNat 128 (bigEndian bytes)) "")
  else none

structure AddrPort where
  addr : Addr
  port : UInt16
  deriving DecidableEq

def AddrPort.isValid (p : AddrPort) : Bool := p.addr.isValid

/-- A prefix of `length` bits; there is no length when it is invalid. -/
structure Prefix where
  addr : Addr
  length : Option Nat
  ofAddr : ∀ n ∈ length, 0 < addr.bitLen ∧ n ≤ addr.bitLen ∧ addr.zone = ""
  deriving DecidableEq

/-- The prefix of an address; it is invalid if the address has fewer bits. -/
def prefixFrom (a : Addr) (bits : Nat) : Prefix where
  addr := a.withoutZone
  length := if 0 < a.bitLen ∧ bits ≤ a.bitLen then some bits else none
  ofAddr := by
    intro n hn
    obtain ⟨hbits, heq⟩ := Option.ite_none_right_eq_some.1 hn
    obtain rfl := Option.some.inj heq
    rw [Addr.bitLen_withoutZone, Addr.zone_withoutZone]
    exact ⟨hbits.1, hbits.2, rfl⟩

namespace Prefix

def isValid (p : Prefix) : Bool := p.length.isSome

def text (p : Prefix) : List Char :=
  match p.length with
  | none => "invalid Prefix".toList
  | some n => p.addr.text ++ '/' :: Nat.toDigits 10 n

/-- The address with all but the leading bits cleared. -/
def masked (p : Prefix) : Prefix where
  addr := p.addr.mask (p.length.getD 0)
  length := p.length
  ofAddr := by
    intro n hn
    rw [Addr.bitLen_mask, Addr.zone_mask]
    exact p.ofAddr n hn

/-- Whether an address of the same version, and without a zone, has the leading bits. -/
def contains (p : Prefix) (a : Addr) : Bool :=
  match p.length, p.addr, a with
  | some n, .v4 bits, .v4 bits' => (bits ^^^ bits') >>> (32 - n) = 0
  | some n, .v6 bits _, .v6 bits' zone => zone = "" && (bits ^^^ bits') >>> (128 - n) = 0
  | _, _, _ => false

/-- No address belongs to both. -/
def Apart (p q : Prefix) : Prop := ∀ a, ¬ (p.contains a = true ∧ q.contains a = true)

theorem Apart.symm {p q : Prefix} (h : p.Apart q) : q.Apart p :=
  fun a ha => h a ⟨ha.2, ha.1⟩

theorem shiftRight_xor_eq_zero {w : Nat} (bits bits' : BitVec w) (k : Nat) :
    (bits ^^^ bits') >>> k = 0 ↔ bits.toNat >>> k = bits'.toNat >>> k := by
  rw [BitVec.ushiftRight_xor_distrib]
  refine BitVec.xor_eq_zero_iff.trans ?_
  rw [← BitVec.toNat_inj, BitVec.toNat_ushiftRight, BitVec.toNat_ushiftRight]

variable {bits : BitVec 32} {n : Nat} {zone : String} {a : Addr} {bits' : BitVec 128}

theorem contains_v4 (h : (prefixFrom (.v4 bits) n).contains a = true) :
    ∃ bits', a = .v4 bits' ∧ bits.toNat >>> (32 - n) = bits'.toNat >>> (32 - n) := by
  unfold contains prefixFrom at h
  split at h
  · rename_i bits' hlen haddr
    cases haddr
    obtain ⟨-, hn⟩ := Option.ite_none_right_eq_some.1 hlen
    cases hn
    exact ⟨bits', rfl, (shiftRight_xor_eq_zero _ _ _).1 (by simpa using h)⟩
  · rename_i haddr
    cases haddr
  · cases h

theorem contains_v6 {bits} (h : (prefixFrom (.v6 bits zone) n).contains a = true) :
    ∃ bits', a = .v6 bits' "" ∧ bits.toNat >>> (128 - n) = bits'.toNat >>> (128 - n) := by
  unfold contains prefixFrom at h
  split at h
  · rename_i haddr
    cases haddr
  · rename_i bits' zone' hlen haddr
    cases haddr
    obtain ⟨-, hn⟩ := Option.ite_none_right_eq_some.1 hlen
    cases hn
    obtain ⟨hzone, hbits⟩ := Bool.and_eq_true_iff.1 h
    obtain rfl := of_decide_eq_true hzone
    exact ⟨bits', rfl, (shiftRight_xor_eq_zero _ _ _).1 (by simpa using hbits)⟩
  · cases h

/-- Prefixes of one length have an address in common only if they have the leading bits. -/
theorem apart_v4 {bits'} (h : bits.toNat >>> (32 - n) ≠ bits'.toNat >>> (32 - n)) :
    (prefixFrom (.v4 bits) n).Apart (prefixFrom (.v4 bits') n) := by
  rintro a ⟨ha, ha'⟩
  obtain ⟨b, rfl, hb⟩ := contains_v4 ha
  obtain ⟨b', hsame, hb'⟩ := contains_v4 ha'
  cases hsame
  exact h (hb.trans hb'.symm)

theorem apart_v6 {bits zone'} (h : bits.toNat >>> (128 - n) ≠ bits'.toNat >>> (128 - n)) :
    (prefixFrom (.v6 bits zone) n).Apart (prefixFrom (.v6 bits' zone') n) := by
  rintro a ⟨ha, ha'⟩
  obtain ⟨b, rfl, hb⟩ := contains_v6 ha
  obtain ⟨b', hsame, hb'⟩ := contains_v6 ha'
  cases hsame
  exact h (hb.trans hb'.symm)

theorem apart_versions {n' : Nat} :
    (prefixFrom (.v4 bits) n).Apart (prefixFrom (.v6 bits' zone) n') := by
  rintro a ⟨ha, ha'⟩
  obtain ⟨b, rfl, -⟩ := contains_v4 ha
  obtain ⟨b', hsame, -⟩ := contains_v6 ha'
  cases hsame

end Prefix

end Netip
