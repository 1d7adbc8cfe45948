import PrivateVm.Torrent.Model

set_option autoImplicit false

/-! # Reserved names in every spelling

`windowsReservedName` compares a component in lower case with its suffix as it is written, so that
a device name with an upper-case suffix passes (`upper_case_suffix_accepted`).
-/

namespace PrivateVm.Torrent

open Checked List

/-! ## Spellings -/

def lowerByte (b : UInt8) : UInt8 := if 65 ≤ b ∧ b ≤ 90 then b + 32 else b

/-- A path with its ASCII letters in lower case: two paths are spellings of one another when these
are the same. -/
def RawText.lowered : RawText → RawText
  | .text value => .text (value.map Char.toLower)
  | .malformed bytes => .malformed (bytes.map lowerByte)

def RawText.elements : RawText → List (List Char)
  | .text value => split '/' value
  | .malformed _ => []

/-- Lower case is ASCII's own on ASCII. -/
def Unicode.LowersAscii (U : Unicode) : Prop := ∀ c : Char, c.toNat < 128 → U.lower c = c.toLower

def stem (element : List Char) : List Char :=
  element.take (element.length - (ext element).length)

/-- A reserved name, or a port with its digit. -/
def DeviceName (base : List Char) : Prop :=
  base ∈ reservedNames ∨
    ∃ port ∈ ["com".toList, "lpt".toList], ∃ d : Char, '1' ≤ d ∧ d ≤ '9' ∧ base = port ++ [d]

def HasDevice (U : Unicode) (p : RawText) : Prop :=
  ∃ e ∈ p.elements, DeviceName ((stem e).map U.lower)

/-- A component with a device name has its suffix in lower case. -/
def Caught (U : Unicode) (p : RawText) : Prop :=
  ∃ e ∈ p.elements, DeviceName ((stem e).map U.lower) ∧ (ext e).map U.lower = ext e

def Accepted (U : Unicode) (p : RawText) : Prop := ∃ value, validateRelativePath U p = .ok value

/-- What else is asked of a path. -/
def Shaped : RawText → Prop
  | .malformed _ => False
  | .text value => value ≠ [] ∧ byteLength value ≤ maximumPathBytes ∧
      (∀ c ∈ value, c ∉ forbiddenInPath) ∧ ∀ e ∈ split '/' value,
        e ≠ [] ∧ e ≠ ['.'] ∧ e ≠ ['.', '.'] ∧ byteLength e ≤ 255

/-! ## Components of a path -/

variable {value element : List Char}

theorem split_ne_nil (value : List Char) : split '/' value ≠ [] := by
  cases value with
  | nil => simp [split]
  | cons c cs =>
    unfold split
    split
    · simp
    · split <;> simp

theorem intercalate_split (value : List Char) : ['/'].intercalate (split '/' value) = value := by
  induction value with
  | nil => rfl
  | cons c cs ih =>
    obtain ⟨piece, pieces, hcs⟩ := exists_cons_of_ne_nil (split_ne_nil cs)
    rw [hcs] at ih
    rw [split, hcs]
    split
    · simp_all [intercalate_cons_cons]
    · cases pieces <;> simpa [List.intercalate] using ih

/-- A path of proper components is clean. -/
theorem clean_eq (hne : value ≠ [])
    (h : ∀ e ∈ split '/' value, e ≠ [] ∧ e ≠ ['.'] ∧ e ≠ ['.', '.']) :
    value.head? ≠ some '/' ∧ clean value = value := by
  have hhead : value.head? ≠ some '/' := by
    intro hhead
    obtain ⟨rest, rfl⟩ := List.head?_eq_some_iff.1 hhead
    exact (h [] (by simp [split])).1 rfl
  have hfold : ∀ kept, (split '/' value).foldl (cleanElement false) kept =
      (split '/' value).reverse ++ kept := by
    generalize split '/' value = elements at h
    induction elements with
    | nil => simp
    | cons e elements ih =>
      obtain ⟨he, hrest⟩ := forall_mem_cons.1 h
      simp [cleanElement, he, ih hrest]
  simp [clean, hhead, hfold, intercalate_split, hne]

/-! ## What does not depend on the spelling -/

theorem toLower_cases (c : Char) :
    c.toLower = c ∨ 65 ≤ c.toNat ∧ c.toNat ≤ 90 ∧ c.toLower.toNat = c.toNat + 32 := by
  unfold Char.toLower
  split
  · rename_i hc
    simp only [ge_iff_le, UInt32.le_iff_toNat_le] at hc
    refine .inr ⟨hc.1, hc.2, ?_⟩
    have hle : c.val.toNat ≤ 90 := hc.2
    change (c.val + 32).toNat = c.val.toNat + 32
    rw [UInt32.toNat_add]
    change (c.val.toNat + 32) % 2 ^ 32 = c.val.toNat + 32
    omega
  · exact .inl rfl

/-- Only letters change. -/
theorem toLower_eq_iff {c d : Char} (hd : d.toNat < 65 ∨ d.toNat = 92) : c.toLower = d ↔ c = d := by
  rcases toLower_cases c with h | ⟨hge, hle, hlower⟩
  · rw [h]
  · constructor
    · rintro rfl
      omega
    · rintro rfl
      omega

theorem byteLength_toLower (value : List Char) :
    byteLength (value.map Char.toLower) = byteLength value := by
  have hsize : ∀ c : Char, c.toLower.utf8Size = c.utf8Size := by
    intro c
    rcases toLower_cases c with h | ⟨hge, hle, hlower⟩
    · rw [h]
    · have hone : ∀ d : Char, d.toNat ≤ 127 → d.utf8Size = 1 := fun d hd =>
        Char.utf8Size_eq_one_iff.2 (UInt32.le_iff_toNat_le.2 hd)
      rw [hone c (by omega), hone c.toLower (by omega)]
  simp [byteLength, Function.comp_def, hsize]

theorem split_toLower (value : List Char) :
    split '/' (value.map Char.toLower) = (split '/' value).map (List.map Char.toLower) := by
  induction value with
  | nil => rfl
  | cons c cs ih =>
    rw [map_cons, split, split, ih]
    simp only [toLower_eq_iff (d := '/') (by decide)]
    split
    · rfl
    · cases split '/' cs <;> rfl

theorem ext_toLower (element : List Char) :
    ext (element.map Char.toLower) = (ext element).map Char.toLower := by
  have hne : ∀ d : Char, d.toNat < 65 →
      (fun c : Char => decide (c ≠ d)) ∘ Char.toLower = fun c => decide (c ≠ d) := by
    intro d hd
    funext c
    simp [toLower_eq_iff (.inl hd)]
  have hdot : ∀ l : List Char, '.' ∈ l.map Char.toLower ↔ '.' ∈ l := by
    simp [toLower_eq_iff]
  simp only [ext, ← map_reverse, takeWhile_map, hne '/' (by decide), hne '.' (by decide),
    hdot]
  split <;> rfl

/-! ## When a component is reserved -/

theorem ext_suffix (element : List Char) : ext element <:+ element := by
  have hlast : (element.reverse.takeWhile (· ≠ '/')).reverse <:+ element := by
    simpa using reverse_suffix.2 (List.takeWhile_prefix (l := element.reverse) (· ≠ '/'))
  refine .trans ?_ hlast
  simp only [ext]
  generalize (element.reverse.takeWhile (· ≠ '/')).reverse = last
  split
  · rename_i hdot
    obtain ⟨before, after, hlast, hnew⟩ := eq_append_cons_of_mem (mem_reverse.2 hdot)
    have htake : last.reverse.takeWhile (· ≠ '.') = before := by
      rw [hlast, takeWhile_append_of_pos]
      · simp
      · intro c hc
        simpa using ne_of_mem_of_not_mem hc hnew
    refine ⟨after.reverse, ?_⟩
    rw [htake, ← reverse_reverse last, hlast]
    simp
  · exact nil_suffix

theorem stem_append_ext (element : List Char) : stem element ++ ext element = element :=
  suffix_iff_eq_append.1 (ext_suffix element)

theorem DeviceName.dot {base : List Char} (h : DeviceName base) : '.' ∉ base := by
  rcases h with h | ⟨port, hport, d, hge, -, rfl⟩
  · revert base
    decide
  · have hd : '.' ≠ d := by
      rintro rfl
      exact absurd hge (by decide)
    have hdot : '.' ∉ port := by
      revert port
      decide
    simp [hdot, hd]

variable {U : Unicode}

theorem windowsReservedName_eq_true : windowsReservedName U element = true ↔
    DeviceName (trimSuffix (element.map U.lower) (ext element)) := by
  simp only [windowsReservedName, DeviceName, Bool.or_eq_true, decide_eq_true_eq]
  generalize trimSuffix (element.map U.lower) (ext element) = base
  refine or_congr Iff.rfl ⟨fun h => ?_, ?_⟩
  · split at h
    · rename_i a b c d
      simp only [Bool.and_eq_true, Bool.or_eq_true, decide_eq_true_eq] at h
      obtain ⟨⟨⟨-, hport⟩, hge⟩, hle⟩ := h
      exact ⟨[a, b, c], by simpa using hport, d, hge, hle, rfl⟩
    · cases h
  · rintro ⟨port, hport, d, hge, hle, rfl⟩
    have hsize : d.utf8Size = 1 := Char.utf8Size_eq_one_iff.2 (UInt32.le_trans hle (by decide))
    have hport : port = "com".toList ∨ port = "lpt".toList := by simpa using hport
    rcases hport with rfl | rfl <;> simp [byteLength, hsize, hge, hle] <;> rfl

theorem windowsReservedName_iff (hU : U.LowersAscii) : windowsReservedName U element = true ↔
      DeviceName ((stem element).map U.lower) ∧ (ext element).map U.lower = ext element := by
  have hlower : element.map U.lower = (stem element).map U.lower ++ (ext element).map U.lower := by
    rw [← map_append, stem_append_ext]
  rw [windowsReservedName_eq_true]
  by_cases hext : (ext element).map U.lower = ext element
  · simp [trimSuffix, hlower, hext]
  · have hnot : ¬ ext element <:+ element.map U.lower := by
      rintro ⟨front, hfront⟩
      rw [hlower] at hfront
      exact hext (append_inj' hfront (by simp)).2.symm
    have hdot : '.' ∈ element.map U.lower := by
      have hmem : ext element = [] ∨ '.' ∈ ext element := by
        simp only [ext]
        split <;> simp
      have hmem := hmem.resolve_left fun h => hext (by rw [h]; rfl)
      exact mem_map.2 ⟨'.', (ext_suffix element).subset hmem, hU '.' (by decide)⟩
    rw [trimSuffix, if_neg hnot]
    simp only [hext, and_false, iff_false]
    exact fun h => h.dot hdot

theorem accepted_iff (hU : U.LowersAscii) (p : RawText) :
    Accepted U p ↔ Shaped p ∧ ¬ Caught U p := by
  cases p with
  | malformed => simp [Accepted, validateRelativePath, Shaped]
  | text value =>
    simp only [Accepted, validateRelativePath, bind_eq_ok, failIf_eq_ok, exists_const, pure_eq_ok,
      any_eq_true, decide_eq_true_eq, Bool.or_eq_true, windowsReservedName_iff hU, Shaped,
      Caught, RawText.elements]
    constructor
    · rintro ⟨-, hvalue, helements, -⟩
      grind
    · rintro ⟨⟨hne, hlen, hforbidden, hall⟩, hnot⟩
      obtain ⟨hhead, hclean⟩ := clean_eq hne fun e he => ⟨(hall e he).1, (hall e he).2.1,
        (hall e he).2.2.1⟩
      exact ⟨value, by grind, by grind, rfl⟩

/-! ## Both spellings -/

theorem shaped_lowered (p : RawText) : Shaped p.lowered ↔ Shaped p := by
  cases p with
  | malformed => rfl
  | text value =>
    have hforbidden : ∀ c : Char, c.toLower ∈ forbiddenInPath ↔ c ∈ forbiddenInPath := by
      simp [forbiddenInPath, toLower_eq_iff]
    have hdot : ∀ e : List Char, (e.map Char.toLower = ['.'] ↔ e = ['.']) ∧
        (e.map Char.toLower = ['.', '.'] ↔ e = ['.', '.']) := by
      simp [map_eq_cons_iff, toLower_eq_iff]
    simp only [Shaped, RawText.lowered, split_toLower, byteLength_toLower, forall_mem_map,
      hforbidden, ne_eq, map_eq_nil_iff, (hdot _).1, (hdot _).2]

theorem hasDevice_lowered (hU : U.LowersAscii) (p : RawText) :
    HasDevice U p.lowered ↔ HasDevice U p := by
  cases p with
  | malformed => rfl
  | text value =>
    have hlower : U.lower ∘ Char.toLower = U.lower := by
      funext c
      rcases toLower_cases c with h | ⟨hge, hle, hlower⟩
      · rw [Function.comp, h]
      · rw [Function.comp, hU c.toLower (by omega), hU c (by omega)]
        exact (toLower_cases c.toLower).resolve_right (by omega)
    have hstem : ∀ e : List Char, stem (e.map Char.toLower) = (stem e).map Char.toLower := by
      simp [stem, ext_toLower, map_take]
    simp [HasDevice, RawText.lowered, RawText.elements, split_toLower, hstem, hlower]

theorem reserved_names_iff (hU : U.LowersAscii) {p q : RawText} (h : p.lowered = q.lowered) :
    ((Accepted U p ↔ Accepted U q) ∧ (Accepted U p → ¬ HasDevice U p) ∧
        (Accepted U q → ¬ HasDevice U q)) ↔
      (Shaped p → HasDevice U p → Caught U p ∧ Caught U q) := by
  have hshaped : Shaped p ↔ Shaped q := by rw [← shaped_lowered, h, shaped_lowered]
  have hdevice : HasDevice U p ↔ HasDevice U q := by
    rw [← hasDevice_lowered hU, h, hasDevice_lowered hU]
  have hcaught : ∀ r, Caught U r → HasDevice U r := by
    rintro r ⟨e, he, hname, -⟩
    exact ⟨e, he, hname⟩
  have hp := hcaught p
  have hq := hcaught q
  rw [accepted_iff hU, accepted_iff hU]
  tauto

theorem reserved_names_iff_sample :
    let p : RawText := .text "con.txt".toList
    let q : RawText := .text "CON.txt".toList
    p.lowered = q.lowered ∧
      (((Accepted .ascii p ↔ Accepted .ascii q) ∧ (Accepted .ascii p → ¬ HasDevice .ascii p) ∧
          (Accepted .ascii q → ¬ HasDevice .ascii q)) ↔
        (Shaped p → HasDevice .ascii p → Caught .ascii p ∧ Caught .ascii q)) :=
  ⟨by decide, reserved_names_iff (U := .ascii) (fun _ _ => rfl) (by decide)⟩

theorem upper_case_suffix_accepted :
    let p : RawText := .text "con.txt".toList
    let q : RawText := .text "con.TXT".toList
    p.lowered = q.lowered ∧ ¬ Accepted .ascii p ∧ Accepted .ascii q ∧ HasDevice .ascii q := by
  refine ⟨by decide, ?_, ⟨_, rfl⟩, "con.TXT".toList, by decide, .inl (by decide)⟩
  rintro ⟨value, h⟩
  cases (rfl : validateRelativePath .ascii (.text "con.txt".toList) = _).symm.trans h

end PrivateVm.Torrent
