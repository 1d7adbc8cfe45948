import PrivateVm.Basic.Netip
import PrivateVm.Basic.Text

set_option autoImplicit false

/-! # The texts of addresses

Of which characters the text of an address consists, and how long it can be.
-/

namespace Netip

open Text List Bool

/-- A digit of a number in hexadecimal, or a separator of an address. -/
def isAddrChar (c : Char) : Bool :=
  c.isDigit || ('a' ≤ c && c ≤ 'f') || c = '.' || c = ':'

variable {n : Nat} {c : Char}

theorem mem_toDigits {b : Nat} (hb : 1 < b) (h : c ∈ Nat.toDigits b n) :
    ∃ d < b, c = d.digitChar := by
  induction n using Nat.strongRecOn with
  | ind n ih =>
    rw [Nat.toDigits_eq_if hb] at h
    split at h
    · rename_i hlt
      exact ⟨n, hlt, mem_singleton.1 h⟩
    rcases mem_append.1 h with h | h
    · have hpos : 0 < n := by omega
      exact ih (n / b) (Nat.div_lt_self hpos hb) h
    · exact ⟨n % b, Nat.mod_lt _ (by omega), mem_singleton.1 h⟩

theorem isDigit_of_mem_toDigits (h : c ∈ Nat.toDigits 10 n) :
    c.isDigit = true := Nat.isDigit_of_mem_toDigits (by decide) (by decide) h

theorem isAddrChar_of_mem_toDigits (h : c ∈ Nat.toDigits 16 n) :
    isAddrChar c = true ∧ c ≠ ':' ∧ c ≠ '.' := by
  have hdig : ∀ d < 16, isAddrChar d.digitChar = true ∧ d.digitChar ≠ ':' ∧
      d.digitChar ≠ '.' := by decide
  obtain ⟨d, hd, rfl⟩ := mem_toDigits (by decide) h
  exact hdig d hd

theorem isToken_of_isDigit (h : c.isDigit = true) : isToken c = true := by
  simp only [Char.isDigit, and_eq_true, decide_eq_true_eq] at h
  have hne d (hd : d.toNat < 48) : c ≠ d := by
    rintro rfl
    exact absurd h.1 (Nat.not_le.2 hd)
  simp only [isToken, isPrintable, and_eq_true, decide_eq_true_eq, bne_iff_ne]
  have hlow : 48 ≤ c.toNat := h.1
  have hhigh : c.toNat ≤ 57 := h.2
  exact ⟨⟨⟨by omega, by omega⟩, hne ' ' (by decide)⟩, hne ',' (by decide)⟩

theorem isToken_of_isAddrChar (h : isAddrChar c = true) : isToken c = true := by
  simp only [isAddrChar, or_eq_true, and_eq_true, decide_eq_true_eq] at h
  rcases h with ((h | ⟨hlow, hhigh⟩) | rfl) | rfl
  · exact isToken_of_isDigit h
  · have hlow : 97 ≤ c.toNat := UInt32.le_iff_toNat_le.1 (Char.le_def.1 hlow)
    have hhigh : c.toNat ≤ 102 := UInt32.le_iff_toNat_le.1 (Char.le_def.1 hhigh)
    have hne d (hd : d.toNat < 97) : c ≠ d := by
      rintro rfl
      omega
    simp only [isToken, isPrintable, and_eq_true, decide_eq_true_eq, bne_iff_ne]
    exact ⟨⟨⟨by omega, by omega⟩, hne ' ' (by decide)⟩, hne ',' (by decide)⟩
  · decide
  · decide

namespace Addr

variable {c : Char}

theorem mem_text4 {bits} (h : c ∈ text4 bits) : c.isDigit = true ∨ c = '.' := by
  rcases mem_intercalate h with h | ⟨part, hpart, h⟩
  · exact .inr (mem_singleton.1 h)
  · obtain ⟨i, -, rfl⟩ := mem_map.1 hpart
    exact .inl (isDigit_of_mem_toDigits h)

variable {groups : List Nat} {bits : BitVec 128}

theorem mem_colons (h : c ∈ colons groups) : isAddrChar c = true := by
  rcases mem_intercalate h with h | ⟨part, hpart, h⟩
  · rw [mem_singleton.1 h]
    decide
  · obtain ⟨i, -, rfl⟩ := mem_map.1 hpart
    exact (isAddrChar_of_mem_toDigits h).1

theorem mem_text6 (h : c ∈ text6 bits) : isAddrChar c = true := by
  unfold text6 at h
  split at h
  · exact mem_colons h
  rw [mem_append, mem_append] at h
  rcases h with (h | h) | h
  · exact mem_colons h
  · have hcolon : c = ':' := by simpa using h
    rw [hcolon]
    decide
  · exact mem_colons h

theorem length_text4_le (bits : BitVec 32) : (text4 bits).length ≤ 16 := by
  refine (length_intercalate_le (k := 3) ?_).trans (by simp)
  intro part hpart
  obtain ⟨i, -, rfl⟩ := mem_map.1 hpart
  refine (Nat.length_toDigits_le_iff (by decide) (by decide)).2 ?_
  exact (Nat.mod_lt _ (by decide)).trans (by decide)

theorem length_colons_le (h : ∀ g ∈ groups, g < 65536) :
    (colons groups).length ≤ 5 * groups.length := by
  refine (length_intercalate_le (k := 4) ?_).trans (by simp)
  intro part hpart
  obtain ⟨g, hg, rfl⟩ := mem_map.1 hpart
  exact (Nat.length_toDigits_le_iff (by decide) (by decide)).2 (h g hg)

theorem length_text6_le (bits : BitVec 128) : (text6 bits).length ≤ 82 := by
  have hgro : ∀ g ∈ groups bits, g < 65536 := by
    intro g hg
    obtain ⟨i, -, rfl⟩ := mem_map.1 hg
    exact Nat.mod_lt _ (by decide)
  have hlen : (groups bits).length = 8 := by simp [groups]
  unfold text6
  split
  · have := length_colons_le hgro
    omega
  rename_i start run _
  have htake := length_colons_le fun g hg => hgro g (mem_of_mem_take (i := start) hg)
  have hdrop := length_colons_le fun g hg => hgro g (mem_of_mem_drop (i := start + run) hg)
  simp
  rw [length_take] at htake
  rw [length_drop] at hdrop
  omega

theorem text_v6 {z} (hmapp : (v6 bits z).is4In6 = false) (hzone : z = "") :
    (v6 bits z).text = text6 bits := by
  subst hzone
  show (if (v6 bits "").is4In6 = true then _ else _) ++ _ = _
  rw [if_neg (by rw [hmapp]; exact false_ne_true), if_pos rfl, append_nil]

theorem text4_ne_nil (bits : BitVec 32) : text4 bits ≠ [] := by
  simp [text4]

theorem text6_ne_nil (bits : BitVec 128) : text6 bits ≠ [] := by
  unfold text6
  split
  · simp [colons, groups, range_succ]
  · simp

/-- An address that is written as it is: without a zone and not embedded in another. -/
structure Plain (a : Addr) : Prop where
  valid : a.isValid = true
  zone : a.zone = ""
  mapped : a.is4In6 = false

namespace Plain

variable {a : Addr} (hplain : a.Plain)

include hplain

theorem isAddrChar {c} (h : c ∈ a.text) : isAddrChar c = true := by
  cases a with
  | zero => cases hplain.valid
  | v4 =>
    rcases mem_text4 h with h | h
    · simp [Netip.isAddrChar, h]
    · rw [h]
      decide
  | v6 =>
    rw [text_v6 hplain.mapped hplain.zone] at h
    exact mem_text6 h

theorem length_le : a.text.length ≤ 82 := by
  cases a with
  | zero => cases hplain.valid
  | v4 bits => exact (length_text4_le bits).trans (by decide)
  | v6 bits =>
    rw [text_v6 hplain.mapped hplain.zone]
    exact length_text6_le bits

theorem token : Token a.text where
  nonempty := by
    cases a with
    | zero => cases hplain.valid
    | v4 bits => exact text4_ne_nil bits
    | v6 bits =>
      rw [text_v6 hplain.mapped hplain.zone]
      exact text6_ne_nil bits
  chars c hc := isToken_of_isAddrChar (hplain.isAddrChar hc)

end Plain

theorem bitLen_le (a : Addr) : a.bitLen ≤ 128 := by
  cases a <;> simp [bitLen]

end Addr

namespace Prefix

variable {p : Prefix} (hvalid : p.isValid = true) (hplain : p.addr.Plain)

include hvalid hplain

theorem token_text : Token p.text := by
  obtain ⟨n, hn⟩ := Option.isSome_iff_exists.1 hvalid
  have htext : p.text = p.addr.text ++ '/' :: Nat.toDigits 10 n := by rw [text, hn]
  rw [htext]
  refine ⟨by simp, fun c hc => ?_⟩
  rcases mem_append.1 hc with hc | hc
  · exact hplain.token.chars c hc
  · rcases mem_cons.1 hc with rfl | hc
    · decide
    · exact isToken_of_isDigit (isDigit_of_mem_toDigits hc)

theorem length_text_le : p.text.length ≤ 86 := by
  obtain ⟨n, hn⟩ := Option.isSome_iff_exists.1 hvalid
  obtain ⟨-, hle, -⟩ := p.ofAddr n hn
  have hlen := hplain.length_le
  have hdig : (Nat.toDigits 10 n).length ≤ 3 := by
    refine (Nat.length_toDigits_le_iff (by decide) (by decide)).2 ?_
    exact (hle.trans p.addr.bitLen_le).trans_lt (by decide)
  have htext : p.text = p.addr.text ++ '/' :: Nat.toDigits 10 n := by rw [text, hn]
  rw [htext, length_append, length_cons]
  omega

end Prefix

end Netip
