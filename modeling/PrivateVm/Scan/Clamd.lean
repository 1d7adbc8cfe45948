import PrivateVm.Basic.Decimal
import Mathlib.Data.List.TakeWhile

set_option autoImplicit false

/-! # The reply of the ClamAV service

`readNULTerminated` looks at each read on its own: bytes after the terminating zero are an error
if they come in the same read, and are never seen if they come later. So what it returns depends
on how the stream is split into reads exactly if something follows the zero.
-/

namespace PrivateVm.Scan

open Decimal List

/-- An error of the reader of the reply, or that of the connection. -/
inductive ReplyError (ε : Type) where
  | new (text : String)
  | read (err : ε)

variable {ε : Type}

/-- `readNULTerminated`, over what the reads of the connection deliver before it fails with `err`.
What a read delivers together with an error is looked at as if the error came alone after it. -/
def readNULTerminated (maximum : Nat) (err : ε) : Bytes → List Bytes → Except (ReplyError ε) Bytes
  | _, [] => .error (.read err)
  | result, buffer :: reads =>
    match buffer.dropWhile (· != 0) with
    | _ :: trailing =>
      -- a zero at this index
      let index := (buffer.takeWhile (· != 0)).length
      if trailing ≠ [] then .error (.new "trailing ClamAV response bytes")
      else if result.length + index > maximum then
        .error (.new "ClamAV response limit exceeded")
      else .ok (result ++ buffer.take index)
    | [] =>
      if buffer.length > 0 ∧ result.length + buffer.length > maximum then
        .error (.new "ClamAV response limit exceeded")
      else readNULTerminated maximum err (result ++ buffer) reads

/-- The reads of a stream, each of which fits in the buffer. -/
def ReadsOf (stream : Bytes) (reads : List Bytes) : Prop :=
  reads.flatten = stream ∧ ∀ buffer ∈ reads, buffer.length ≤ 4096

section

variable {maximum : Nat} {err : ε} {result reply data trailing buffer out stream : Bytes}
  {reads : List Bytes}

theorem bne_zero (h : 0 ∉ data) : ∀ b ∈ data, (b != 0) = true :=
  fun _ hb => bne_iff_ne.2 (ne_of_mem_of_not_mem hb h)

theorem read_zero_eq_ok (h : 0 ∉ data) :
    readNULTerminated maximum err result ((data ++ 0 :: trailing) :: reads) = .ok out ↔
      trailing = [] ∧ result.length + data.length ≤ maximum ∧ result ++ data = out := by
  rw [readNULTerminated, dropWhile_append_of_pos (bne_zero h), takeWhile_append_of_pos (bne_zero h)]
  simp [ite_eq_iff]

theorem read_plain_eq_ok (h : 0 ∉ buffer) :
    readNULTerminated maximum err result (buffer :: reads) = .ok out ↔
      (buffer ≠ [] → result.length + buffer.length ≤ maximum) ∧
        readNULTerminated maximum err (result ++ buffer) reads = .ok out := by
  rw [readNULTerminated, dropWhile_eq_nil_iff.2 (bne_zero h)]
  simp [ite_eq_iff, length_pos_iff]

/-- A result is what comes before the first zero of the stream, within the limit. -/
theorem of_readNULTerminated (h : readNULTerminated maximum err result reads = .ok out) :
    ∃ reply tail, out = result ++ reply ∧ 0 ∉ reply ∧ out.length ≤ maximum ∧
      reads.flatten = reply ++ 0 :: tail := by
  induction reads generalizing result with
  | nil => cases h
  | cons buffer reads ih =>
    by_cases hzero : 0 ∈ buffer
    · obtain ⟨data, trailing, rfl, hdata⟩ := eq_append_cons_of_mem hzero
      obtain ⟨-, hfit, rfl⟩ := (read_zero_eq_ok hdata).1 h
      exact ⟨data, trailing ++ reads.flatten, rfl, hdata, by simpa using hfit, by simp⟩
    · obtain ⟨reply, tail, rfl, hreply, hfit, hflat⟩ := ih ((read_plain_eq_ok hzero).1 h).2
      exact ⟨buffer ++ reply, tail, by simp, by simp [hzero, hreply], hfit, by simp [hflat]⟩

/-- A stream that ends with its first zero is read, however it is split. -/
theorem readNULTerminated_of_flatten (hflat : reads.flatten = reply ++ [0]) (hreply : 0 ∉ reply)
    (hfit : result.length + reply.length ≤ maximum) :
    readNULTerminated maximum err result reads = .ok (result ++ reply) := by
  induction reads generalizing result reply with
  | nil => simp at hflat
  | cons buffer reads ih =>
    rw [flatten_cons] at hflat
    by_cases hzero : 0 ∈ buffer
    · obtain ⟨data, trailing, rfl, hdata⟩ := eq_append_cons_of_mem hzero
      rw [append_assoc, cons_append, eq_comm, append_cons_inj_of_notMem hreply (by simp)] at hflat
      obtain ⟨rfl, -, hnil⟩ := hflat
      exact (read_zero_eq_ok hdata).2 ⟨(append_eq_nil_iff.1 hnil.symm).1, hfit, rfl⟩
    · -- the reply goes on after the read
      obtain ⟨rest, rfl⟩ : buffer <+: reply := by
        refine (prefix_concat_iff.1 ⟨_, hflat⟩).resolve_left ?_
        rintro rfl
        simp at hzero
      rw [append_assoc, append_cancel_left_eq] at hflat
      rw [mem_append, not_or] at hreply
      rw [length_append] at hfit
      refine (read_plain_eq_ok hzero).2 ⟨fun _ => by omega, ?_⟩
      rw [← append_assoc]
      exact ih hflat hreply.2 (by rw [length_append]; omega)

theorem read_singletons_eq_ok (h : 0 ∉ data) (hfit : result.length + data.length ≤ maximum) :
    readNULTerminated maximum err result (data.map ([·]) ++ reads) = .ok out ↔
      readNULTerminated maximum err (result ++ data) reads = .ok out := by
  induction data generalizing result with
  | nil => simp
  | cons b data ih =>
    rw [mem_cons, not_or] at h
    rw [length_cons] at hfit
    rw [map_cons, cons_append, read_plain_eq_ok (by simpa using h.1),
      ih h.2 (by rw [length_append, length_singleton]; omega), append_assoc, singleton_append,
      and_iff_right]
    intro _
    rw [length_singleton]
    omega

theorem readsOf_split (data buffer rest : Bytes) (h : buffer.length ≤ 4096) :
    ReadsOf (data ++ (buffer ++ rest)) (data.map ([·]) ++ buffer :: rest.map ([·])) := by
  simp [ReadsOf, or_imp, forall_and, h, ← flatMap_def]

/-- What is read if nothing follows the first zero. -/
theorem readNULTerminated_eq_ok (hreads : ReadsOf stream reads)
    (h : ∀ reply tail, stream = reply ++ 0 :: tail → 0 ∉ reply → reply.length ≤ maximum →
      tail = []) :
    readNULTerminated maximum err [] reads = .ok out ↔
      stream = out ++ [0] ∧ 0 ∉ out ∧ out.length ≤ maximum := by
  constructor
  · intro hok
    obtain ⟨reply, tail, rfl, hreply, hfit, hflat⟩ := of_readNULTerminated hok
    have hstream := hreads.1.symm.trans hflat
    rw [h _ tail hstream hreply hfit] at hstream
    exact ⟨hstream, hreply, hfit⟩
  · rintro ⟨hstream, hout, hfit⟩
    exact readNULTerminated_of_flatten (hreads.1.trans hstream) hout (by simpa using hfit)

end

/-- **The reply does not depend on how it is split into reads** exactly if nothing follows the
first zero of a stream that has it within the limit. -/
theorem reply_unsplit_iff (maximum : Nat) (err err' : ε) (stream : Bytes) :
    (∀ reads reads', ReadsOf stream reads → ReadsOf stream reads' → ∀ out,
      (readNULTerminated maximum err [] reads = .ok out ↔
        readNULTerminated maximum err' [] reads' = .ok out)) ↔
    ∀ reply tail, stream = reply ++ 0 :: tail → 0 ∉ reply → reply.length ≤ maximum →
      tail = [] := by
  constructor
  · rintro h reply (_ | ⟨b, tail⟩) rfl hreply hfit
    · rfl
    -- a read that ends with the zero, and one that does not
    have hsame := h _ _ (readsOf_split reply [0] (b :: tail) (by simp))
      (readsOf_split reply [0, b] tail (by simp)) reply
    rw [read_singletons_eq_ok hreply (by simpa), read_singletons_eq_ok hreply (by simpa)] at hsame
    simp [readNULTerminated, hfit] at hsame
  · intro h reads reads' hreads hreads' out
    rw [readNULTerminated_eq_ok hreads h, readNULTerminated_eq_ok hreads' h]

/-- The bytes after the zero are an error in one read, and unread in two. -/
theorem reply_depends_on_split :
    ReadsOf [97, 0, 98] [[97, 0, 98]] ∧ ReadsOf [97, 0, 98] [[97, 0], [98]] ∧
    (readNULTerminated 65536 () [] [[97, 0, 98]]).isOk = false ∧
    readNULTerminated 65536 () [] [[97, 0], [98]] = .ok [97] :=
  ⟨⟨rfl, by decide⟩, ⟨rfl, by decide⟩, rfl, rfl⟩

end PrivateVm.Scan
