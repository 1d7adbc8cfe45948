import PrivateVm.Torrent.Model
import PrivateVm.Basic.Utf8

set_option autoImplicit false

/-! # Torrent sources (`internal/torrent/input.go`)

A magnet link or the bytes of a torrent file are checked before they are put into protected memory.
The magnets accepted are those of `magnet_exact`. Of the well-formed dictionaries those with a zero
byte are refused (`metainfo_iff`), which a torrent's piece hashes may well contain.
-/

namespace PrivateVm.Torrent

open Checked Decimal Utf8

/-! ## Admission -/

inductive InputKind where
  | magnet
  | metainfo
  | other
  deriving DecidableEq

def maximumMagnetBytes : Nat := 8 <<< 10
def maximumMetainfoBytes : Nat := 16 <<< 20

def inputTooLarge : Error :=
  .app ⟨"TORRENT_INPUT_TOO_LARGE", .torrent, "The torrent input exceeds its fixed size limit.",
    "Use a magnet no larger than 8 KiB or a .torrent file no larger than 16 MiB.", .inputTooLarge⟩

def inputMaximum : InputKind → Nat
  | .magnet => maximumMagnetBytes
  | .metainfo => maximumMetainfoBytes
  | .other => 0

def ampersand : UInt8 := 38
def equalSign : UInt8 := 61

/-- `bytes.Cut`: what is before and after the first separator. -/
def cut (sep : UInt8) : Bytes → Bytes × Option Bytes
  | [] => ([], none)
  | b :: bs => if b = sep then ([], some bs) else (b :: (cut sep bs).1, (cut sep bs).2)

def validBTIH (value : Bytes) : Bool :=
  match value.length with
  | 40 => value.all fun b => 48 ≤ b && b ≤ 57 || 97 ≤ b && b ≤ 102 || 65 ≤ b && b ≤ 70
  | 32 => value.all fun b => 65 ≤ b && b ≤ 90 || 50 ≤ b && b ≤ 55
  | _ => false

def xt : Bytes := utf8 "xt"
def btih : Bytes := utf8 "urn:btih:"
def magnetStart : Bytes := utf8 "magnet:?"
def forbiddenInMagnet : Bytes := utf8 "\x00\r\n\t #"

def checkField (xtCount : Nat) (field : Bytes) : Except Error Nat :=
  match cut equalSign field with
  | (_, none) => .error invalidInput
  | (key, some value) => do
      failIf (key = [] ∨ value = []) invalidInput
      failIf (key = xt ∧ ¬ (btih <+: value ∧ validBTIH (value.drop btih.length))) invalidInput
      return if key = xt then xtCount + 1 else xtCount

theorem cut_shorter (sep : UInt8) {query} (h : query ≠ []) :
    ((cut sep query).2.getD []).length < query.length := by
  induction query with
  | nil => exact absurd rfl h
  | cons b bs ih => cases bs <;> grind [cut]

/-- The loop of `validateMagnet` over the fields of a query. -/
def scanFields (xtCount : Nat) (query : Bytes) : Except Error Nat := do
  if _h : query = [] then return xtCount
  else do
    let xtCount ← checkField xtCount (cut ampersand query).1
    scanFields xtCount ((cut ampersand query).2.getD [])
termination_by query.length
decreasing_by exact cut_shorter ampersand ‹_›

def validateMagnet (raw : Bytes) : Except Error Unit := do
  failIf (raw.length > maximumMagnetBytes) inputTooLarge
  failIf (¬ magnetStart <+: raw ∨ ∃ b ∈ raw, b ∈ forbiddenInMagnet) invalidInput
  let query := raw.drop magnetStart.length
  failIf (query = []) invalidInput
  let xtCount ← scanFields 0 query
  failIf (xtCount ≠ 1) invalidInput

def looksLikeMetainfo (raw : Bytes) : Bool :=
  raw.length ≥ 2 && raw.head? = some 100 && raw.getLast? = some 101 && 0 ∉ raw

/-- `NewInput`, with the kind and the bytes of the input. Whether protected memory is available
is not up to them. -/
def newInput (kind : InputKind) (available : Bool) (raw : Bytes) :
    Except Error (InputKind × Bytes) := do
  failIf (raw.length = 0) invalidInput
  failIf (inputMaximum kind = 0) invalidRequest
  failIf (raw.length > inputMaximum kind) inputTooLarge
  if kind = .magnet then validateMagnet raw
  else failIf (looksLikeMetainfo raw = false) invalidInput
  failIf (available = false) invalidInput
  return (kind, raw)

/-! ## Torrent files -/

/-- A byte string: its length in decimal, a colon and its bytes. -/
def bencodedText (text : Bytes) : Bytes := decimal text.length ++ 58 :: text

def bencodedDictionary (entries : List (Bytes × Bytes)) : Bytes :=
  100 :: (entries.flatMap fun e => bencodedText e.1 ++ e.2) ++ [101]

/-- The texts of bencoded values, with the keys of a dictionary in any order. -/
inductive Bencoded : Bytes → Prop
  | natural (n : Nat) : Bencoded (105 :: decimal n ++ [101])
  | negative (n : Nat) : Bencoded (105 :: 45 :: decimal (n + 1) ++ [101])
  | text (text : Bytes) : Bencoded (bencodedText text)
  | list (items : List Bytes) (h : ∀ item ∈ items, Bencoded item) :
      Bencoded (108 :: items.flatten ++ [101])
  | dictionary (entries : List (Bytes × Bytes)) (h : ∀ e ∈ entries, Bencoded e.2) :
      Bencoded (bencodedDictionary entries)

def IsDictionary (raw : Bytes) : Prop :=
  ∃ entries : List (Bytes × Bytes), (∀ e ∈ entries, Bencoded e.2) ∧ raw = bencodedDictionary entries

variable {raw : Bytes} {kind : InputKind}

theorem looksLikeMetainfo_iff (h : IsDictionary raw) : looksLikeMetainfo raw = true ↔ 0 ∉ raw := by
  obtain ⟨entries, -, rfl⟩ := h
  rw [bencodedDictionary]
  generalize (entries.flatMap fun e => bencodedText e.1 ++ e.2) = middle
  have hlast : (100 :: (middle ++ [101])).getLast? = some 101 :=
    List.getLast?_concat (l := 100 :: middle)
  simp [looksLikeMetainfo, hlast]

theorem newInput_iff : (∃ input, newInput kind true raw = .ok input) ↔
    raw ≠ [] ∧ inputMaximum kind ≠ 0 ∧ raw.length ≤ inputMaximum kind ∧
      if kind = .magnet then validateMagnet raw = .ok () else looksLikeMetainfo raw = true := by
  simp only [newInput, bind_eq_ok, failIf_eq_ok, exists_const]
  split <;> simp

theorem metainfo_iff (h : IsDictionary raw) (hlen : raw.length ≤ maximumMetainfoBytes) :
    (∃ input, newInput .metainfo true raw = .ok input) ↔ 0 ∉ raw := by
  rw [newInput_iff, if_neg (by decide), looksLikeMetainfo_iff h]
  refine ⟨fun hok => hok.2.2.2, fun hzero => ⟨?_, by decide, hlen, hzero⟩⟩
  obtain ⟨entries, -, rfl⟩ := h
  simp [bencodedDictionary]

theorem metainfo_iff_sample :
    let raw := bencodedDictionary [(utf8 "name", bencodedText (utf8 "a"))]
    ∃ input, newInput .metainfo true raw = .ok input := by
  refine (metainfo_iff ⟨_, ?_, rfl⟩ ?_).2 ?_
  · simpa using Bencoded.text _
  all_goals decide +kernel

/-- **A torrent file that is refused.** A piece hash has a zero byte. -/
theorem zero_byte_refused :
    let info := bencodedDictionary [(utf8 "pieces", bencodedText (List.replicate 20 0))]
    let raw := bencodedDictionary [(utf8 "info", info)]
    Bencoded raw ∧ newInput .metainfo true raw = .error invalidInput := by
  refine ⟨.dictionary _ ?_, by decide +kernel⟩
  simpa using Bencoded.dictionary _ (by simpa using Bencoded.text _)

/-! ## Magnets -/

/-- The texts `key=value`, and whether the key is `xt`. -/
inductive MagnetField : Bool → Bytes → Prop
  | hash {hash} (h : validBTIH hash = true) : MagnetField true (xt ++ equalSign :: (btih ++ hash))
  | other {key value} (hkey : key ≠ [] ∧ equalSign ∉ key ∧ key ≠ xt) (hvalue : value ≠ []) :
      MagnetField false (key ++ equalSign :: value)

/-- Fields with a separator between them and at most one after the last, and how many have the
key `xt`. -/
inductive MagnetQuery : Nat → Bytes → Prop
  | nil : MagnetQuery 0 []
  | last {b text} (h : MagnetField b text) (hsep : ampersand ∉ text) : MagnetQuery b.toNat text
  | cons {b n text query} (h : MagnetField b text) (hsep : ampersand ∉ text)
      (hquery : MagnetQuery n query) : MagnetQuery (b.toNat + n) (text ++ ampersand :: query)

theorem cut_eq_some {sep text before after} :
    cut sep text = (before, some after) ↔ text = before ++ sep :: after ∧ sep ∉ before := by
  induction text generalizing before with
  | nil => simp [cut]
  | cons b bs ih => cases before <;> grind [cut]

theorem cut_eq_none {sep text before} :
    cut sep text = (before, none) ↔ text = before ∧ sep ∉ text := by
  induction text generalizing before with
  | nil => simp [cut, eq_comm]
  | cons b bs ih =>
    have hrest := @ih before.tail
    cases before <;> grind [cut]

theorem checkField_eq_ok {n m text} :
    checkField n text = .ok m ↔ ∃ b, MagnetField b text ∧ m = n + b.toNat := by
  constructor
  · intro h
    unfold checkField at h
    split at h
    · cases h
    rename_i key value hcut
    obtain ⟨rfl, hkey⟩ := cut_eq_some.1 hcut
    simp only [bind_eq_ok, failIf_eq_ok, exists_const, pure_eq_ok, not_or] at h
    obtain ⟨⟨hk, hv⟩, hhash, rfl⟩ := h
    by_cases hxt : key = xt
    · obtain ⟨⟨hash, rfl⟩, hvalid⟩ := not_not.1 fun hnot => hhash ⟨hxt, hnot⟩
      rw [List.drop_left] at hvalid
      subst hxt
      exact ⟨true, .hash hvalid, by simp⟩
    · exact ⟨false, .other ⟨hk, hkey, hxt⟩ hv, by simp [hxt]⟩
  · rintro ⟨b, hfield, rfl⟩
    cases hfield with
    | hash h =>
      rw [checkField, cut_eq_some.2 ⟨rfl, by decide +kernel⟩]
      simp [h, show xt ≠ [] by decide +kernel, show btih ≠ [] by decide +kernel]
    | other hkey hvalue =>
      rw [checkField, cut_eq_some.2 ⟨rfl, hkey.2.1⟩]
      simp [hkey, hvalue]

theorem scanFields_nil (n : Nat) : scanFields n [] = .ok n := by
  rw [scanFields]
  rfl

theorem scanFields_sound {n m query} (h : scanFields n query = .ok m) :
    ∃ k, MagnetQuery k query ∧ m = n + k := by
  fun_induction scanFields n query with
  | case1 n =>
    cases h
    exact ⟨0, .nil, rfl⟩
  | case2 n query hne ih =>
    obtain ⟨_, hcheck, hrest⟩ := bind_eq_ok.1 h
    obtain ⟨b, hfield, rfl⟩ := checkField_eq_ok.1 hcheck
    rcases hcut : cut ampersand query with ⟨text, _ | after⟩ <;> rw [hcut] at hfield hrest ih
    · obtain ⟨rfl, hsep⟩ := cut_eq_none.1 hcut
      cases (scanFields_nil _).symm.trans hrest
      exact ⟨b.toNat, .last hfield hsep, rfl⟩
    · obtain ⟨rfl, hsep⟩ := cut_eq_some.1 hcut
      obtain ⟨k, hk, rfl⟩ := ih _ hrest
      exact ⟨b.toNat + k, .cons hfield hsep hk, by omega⟩

theorem MagnetQuery.scanFields_eq {k query} (h : MagnetQuery k query) (n : Nat) :
    scanFields n query = .ok (n + k) := by
  induction h generalizing n with
  | nil => exact scanFields_nil n
  | @last b text h hsep =>
    have hne : text ≠ [] := by cases h <;> simp
    rw [scanFields, dif_neg hne, cut_eq_none.2 ⟨rfl, hsep⟩, checkField_eq_ok.2 ⟨b, h, rfl⟩]
    exact scanFields_nil _
  | @cons b k text query h hsep _ ih =>
    rw [scanFields, dif_neg (by simp), cut_eq_some.2 ⟨rfl, hsep⟩, checkField_eq_ok.2 ⟨b, h, rfl⟩,
      ← Nat.add_assoc]
    exact ih _

theorem magnet_exact (raw : Bytes) : (∃ input, newInput .magnet true raw = .ok input) ↔
    raw.length ≤ maximumMagnetBytes ∧ (∀ b ∈ raw, b ∉ forbiddenInMagnet) ∧
      ∃ query, raw = magnetStart ++ query ∧ MagnetQuery 1 query := by
  rw [newInput_iff, if_pos rfl]
  simp only [validateMagnet, bind_eq_ok, failIf_eq_ok, exists_const, not_or, not_not]
  constructor
  · rintro ⟨-, -, hlen, -, ⟨⟨query, rfl⟩, hforbidden⟩, -, count, hscan, rfl⟩
    rw [List.drop_left] at hscan
    obtain ⟨k, hk, hone⟩ := scanFields_sound hscan
    obtain rfl : k = 1 := by omega
    exact ⟨hlen, fun b hb hbad => hforbidden ⟨b, hb, hbad⟩, query, rfl, hk⟩
  · rintro ⟨hlen, hforbidden, query, rfl, hquery⟩
    have hscan := hquery.scanFields_eq 0
    have hne : query ≠ [] := by
      rintro rfl
      cases (scanFields_nil 0).symm.trans hscan
    rw [List.drop_left]
    refine ⟨by simp [hne], by decide, hlen, by omega, ⟨List.prefix_append .., ?_⟩, hne, 1, hscan,
      rfl⟩
    rintro ⟨b, hb, hbad⟩
    exact hforbidden b hb hbad

/-- **A separator at the end.** -/
theorem trailing_separator_accepted :
    let raw := magnetStart ++ utf8 "xt=urn:btih:" ++ List.replicate 40 97 ++ [ampersand]
    newInput .magnet true raw = .ok (.magnet, raw) := by
  decide +kernel

end PrivateVm.Torrent
