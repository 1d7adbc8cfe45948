import PrivateVm.Transfer.Frame

set_option autoImplicit false

/-! # The source of a transfer

`OpenSource` hashes one open file and `Stream` sends it in chunks, one for every read that returns
something; what the reads return is a list of pieces. `importFrames` are the frames the host
command sends.
-/

namespace PrivateVm.Transfer

open Checked List

/-! ## Reading a file -/

/-- The bytes that a sequence of reads hands over, with a bound on their number. -/
def collect (bound : Nat) (text : String) : List Bytes → Nat → Except String Nat
  | [], total => .ok total
  | piece :: reads, total =>
    if piece.length > bound - total then .error text
    else collect bound text reads (total + piece.length)

variable (sha256 : Bytes → Digest)

def hashOpenFile (maximum : Nat) (reads : List Bytes) : Except String Digest := do
  let _ ← collect maximum "source exceeds bound" reads 0
  return sha256 reads.flatten

/-! ## Opening and streaming -/

/-- What a file shows while it is opened or streamed: whether it is a regular file, its size, the
pieces it is read in, and whether it is still the same at the end. -/
structure Observed where
  regular : Bool
  size : Nat
  reads : List Bytes
  same : Bool

def openSource (name : String) (maximum : Nat) (file : Observed) : Except String Header := do
  failIf (!file.regular ∨ file.size > maximum) "source must be one bounded regular file"
  let header : Header := ⟨name, file.size, Vector.replicate 32 0, ""⟩
  header.validate maximum
  let digest ← hashOpenFile sha256 maximum file.reads
  failIf (!file.same) "source changed during preflight hashing"
  return { header with sha256 := digest }

/-- The chunks of the pieces that are not empty, numbered from `sequence` on. -/
def chunksFrom : Nat → List Bytes → List TransferChunk
  | _, [] => []
  | sequence, [] :: reads => chunksFrom sequence reads
  | sequence, (byte :: data) :: reads =>
    ⟨sequence, byte :: data⟩ :: chunksFrom (sequence + 1) reads

/-- `Stream`, with the chunks it has sent when it succeeds. -/
def stream (header : Header) (file : Observed) : Except String (List TransferChunk) := do
  let total ← collect header.size "source exceeds its declared size" file.reads 0
  failIf (!file.same ∨ total ≠ header.size ∨ sha256 file.reads.flatten ≠ header.sha256)
    "source changed during transfer"
  return chunksFrom 0 file.reads

/-- A regular file that nobody changes, read in these pieces. -/
def stable (reads : List Bytes) : Observed := ⟨true, reads.flatten.length, reads, true⟩

def transferFrames (context : Option RequestContext) (transferId : String) (header : Header)
    (chunks : List TransferChunk) : List TransferFrame :=
  .beginning ⟨context, transferId, some header.descriptor⟩ ::
    (chunks.map .chunk ++ [.ending ⟨header.size, some (protoHash header.sha256)⟩])

/-- `importWorkspaceSource` up to the receipt. -/
def importFrames (context : Option RequestContext) (transferId : String)
    (name : String) (maximum : Nat) (opened streamed : Observed) :
    Except String (List TransferFrame) := do
  let header ← openSource sha256 name maximum opened
  let chunks ← stream sha256 header streamed
  return transferFrames context transferId header chunks

/-! ## The pieces of a file -/

/-- The reads that return something. -/
def nonempty (reads : List Bytes) : List Bytes := reads.filter (!·.isEmpty)

theorem chunksFrom_nonempty (sequence : Nat) (reads : List Bytes) :
    chunksFrom sequence (nonempty reads) = chunksFrom sequence reads := by
  induction reads generalizing sequence with
  | nil => rfl
  | cons piece reads ih =>
    cases piece with
    | nil => exact ih sequence
    | cons => exact congrArg (_ :: ·) (ih (sequence + 1))

theorem collect_eq_ok {bound : Nat} {text reads} {total sum : Nat} (htotal : total ≤ bound) :
    collect bound text reads total = .ok sum ↔
      sum = total + reads.flatten.length ∧ sum ≤ bound := by
  induction reads generalizing total with
  | nil =>
    simp only [collect, Except.ok.injEq]
    constructor
    · rintro rfl
      exact ⟨rfl, htotal⟩
    · rintro ⟨rfl, -⟩
      rfl
  | cons piece reads ih =>
    rw [collect, flatten_cons, length_append]
    by_cases hmore : piece.length > bound - total
    · rw [if_pos hmore]
      constructor
      · intro h
        cases h
      · omega
    · rw [if_neg hmore, ih (by omega)]
      constructor <;>
        · rintro ⟨hsum, hle⟩
          exact ⟨by omega, hle⟩

end PrivateVm.Transfer
