import PrivateVm.Basic.Decimal

set_option autoImplicit false

/-! # Byte strings as paths

File names of an operating system are byte strings. `clean` is the shortest path of the same
lexical meaning as a slash-separated path, after the common library function. A relative path that
it leaves as it is has its `..` segments at the front (`splitOn_clean`), and a path of plain
segments stays below the directory it is joined to (`segments_join`).
-/

namespace BytePath

open Decimal List

def containsAny {α : Type} [BEq α] (value chars : List α) : Bool := value.any (chars.contains ·)

/-! ## Clean paths -/

def slash : UInt8 := 47

def dot : Bytes := [46]

def dotDot : Bytes := [46, 46]

/-- A `..` takes back the segment before it. It is kept when there is none and the path does not
begin at the root. -/
def back (rooted : Bool) : List Bytes → List Bytes
  | [] => if rooted then [] else [dotDot]
  | top :: below => if top = dotDot then dotDot :: top :: below else below

/-- The segments that remain, last one first. -/
def resolve (rooted : Bool) : List Bytes → List Bytes → List Bytes
  | kept, [] => kept
  | kept, segment :: rest =>
    if segment = [] ∨ segment = dot then resolve rooted kept rest
    else if segment = dotDot then resolve rooted (back rooted kept) rest
    else resolve rooted (segment :: kept) rest

/-- The shortest path of the same lexical meaning. -/
def clean (path : Bytes) : Bytes :=
  let rooted := path.head? == some slash
  let body := [slash].intercalate (resolve rooted [] (path.splitOn slash)).reverse
  if rooted then slash :: body else if body = [] then dot else body

/-! ## The segments of a path -/

/-- The segments of the lexical meaning of a path. -/
def segments (path : Bytes) : List Bytes :=
  (resolve (path.head? == some slash) [] (path.splitOn slash)).reverse

/-- A segment that is a name. -/
def Plain (segment : Bytes) : Prop := segment ≠ [] ∧ segment ≠ dot ∧ segment ≠ dotDot

variable {rooted : Bool} {kept : List Bytes} {path directory : Bytes}

theorem slash_notMem_splitOn : ∀ segment ∈ path.splitOn slash, slash ∉ segment := by
  induction path with
  | nil => simp
  | cons b rest ih =>
    rw [splitOn_cons_eq_if_modifyHead]
    split
    · exact forall_mem_cons.2 ⟨not_mem_nil, ih⟩
    · rename_i hb
      obtain ⟨segment, more, hrest⟩ := exists_cons_of_ne_nil (splitOn_ne_nil slash rest)
      rw [hrest, forall_mem_cons] at ih
      rw [hrest, modifyHead_cons, forall_mem_cons]
      exact ⟨fun h => (mem_cons.1 h).elim (fun hs => hb (by simp [hs])) ih.1, ih.2⟩

/-- What is kept has no empty and no `.` segment, and its `..` segments are the first ones. -/
structure Settled (kept : List Bytes) : Prop where
  named : ∀ segment ∈ kept, segment ≠ [] ∧ segment ≠ dot ∧ slash ∉ segment
  leading : dotDot ∈ kept → kept.getLast? = some dotDot

theorem Settled.back (h : Settled kept) : Settled (back rooted kept) := by
  cases kept with
  | nil => cases rooted <;> constructor <;> simp [BytePath.back, dotDot, dot, slash]
  | cons top below =>
    rw [BytePath.back]
    split
    · rename_i htop
      subst htop
      refine ⟨forall_mem_cons.2 ⟨h.named _ mem_cons_self, h.named⟩, fun _ => ?_⟩
      rw [getLast?_cons_cons]
      exact h.leading mem_cons_self
    · refine ⟨(forall_mem_cons.1 h.named).2, fun hmem => ?_⟩
      rw [← h.leading (mem_cons_of_mem _ hmem), getLast?_cons_of_ne_nil (ne_nil_of_mem hmem)]

theorem Settled.resolve {segments : List Bytes} (hslash : ∀ segment ∈ segments, slash ∉ segment)
    (h : Settled kept) : Settled (resolve rooted kept segments) := by
  induction segments generalizing kept with
  | nil => exact h
  | cons segment rest ih =>
    rw [forall_mem_cons] at hslash
    rw [BytePath.resolve]
    split_ifs with hskip hup
    · exact ih hslash.2 h
    · exact ih hslash.2 h.back
    · refine ih hslash.2 ⟨forall_mem_cons.2 ⟨?_, h.named⟩, fun hmem => ?_⟩
      · exact ⟨fun he => hskip (.inl he), fun he => hskip (.inr he), hslash.1⟩
      · have hold := h.leading ((mem_cons.1 hmem).resolve_left (Ne.symm hup))
        rw [getLast?_cons, hold, Option.getD_some]

theorem settled_segments (path : Bytes) : Settled (segments path).reverse := by
  rw [segments, reverse_reverse]
  exact .resolve slash_notMem_splitOn ⟨by simp, by simp⟩

/-- A relative path that is clean is made of the segments of its meaning. -/
theorem splitOn_clean (hrel : path.head? ≠ some slash) (hclean : clean path = path)
    (hdot : path ≠ dot) : path.splitOn slash = segments path := by
  have hbody : [slash].intercalate (segments path) = path := by
    rw [clean, if_neg (by simpa using hrel), ← segments] at hclean
    split at hclean
    · exact absurd hclean.symm hdot
    · exact hclean
  have hne : segments path ≠ [] := by
    intro hnil
    rw [hnil, intercalate_nil] at hbody
    simp [← hbody, clean, resolve, dot] at hclean
  nth_rewrite 1 [← hbody]
  exact splitOn_intercalate slash
    (fun _ hseg => ((settled_segments path).named _ (mem_reverse.2 hseg)).2.2) hne

/-- **A clean path leads upwards at its beginning or not at all.** -/
theorem plain_of_clean (hrel : path.head? ≠ some slash) (hclean : clean path = path)
    (hdot : path ≠ dot) (hup : (path.splitOn slash).head? ≠ some dotDot) :
    ∀ segment ∈ path.splitOn slash, Plain segment := by
  intro segment hseg
  rw [splitOn_clean hrel hclean hdot] at hseg hup
  obtain ⟨hne, hnd, -⟩ := (settled_segments path).named _ (mem_reverse.2 hseg)
  refine ⟨hne, hnd, ?_⟩
  rintro rfl
  exact hup (by simpa using (settled_segments path).leading (mem_reverse.2 hseg))

theorem resolve_append (a b : List Bytes) :
    resolve rooted kept (a ++ b) = resolve rooted (resolve rooted kept a) b := by
  induction a generalizing kept with
  | nil => rfl
  | cons segment rest ih =>
    simp only [cons_append, resolve]
    split_ifs <;> exact ih

theorem resolve_plain {names : List Bytes} (h : ∀ segment ∈ names, Plain segment) :
    resolve rooted kept names = names.reverse ++ kept := by
  induction names generalizing kept with
  | nil => rfl
  | cons name rest ih =>
    obtain ⟨⟨hne, hdot, hup⟩, hrest⟩ := forall_mem_cons.1 h
    rw [resolve, if_neg (by simp [hne, hdot]), if_neg hup, ih hrest, reverse_cons, append_assoc,
      singleton_append]

/-- **A path of plain segments stays below the directory it is joined to.** -/
theorem segments_join (hdir : directory ≠ []) (h : ∀ segment ∈ path.splitOn slash, Plain segment) :
    segments (directory ++ slash :: path) = segments directory ++ path.splitOn slash := by
  rw [segments, splitOn_append_cons_self, resolve_append, resolve_plain h, reverse_append,
    reverse_reverse, head?_append_of_ne_nil _ hdir, segments]

end BytePath
