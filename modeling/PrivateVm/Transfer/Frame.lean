import PrivateVm.Basic.BytePath
import PrivateVm.Basic.Checked

set_option autoImplicit false

/-! # Frames of a file transfer

A file is transferred as one begin frame with a descriptor, chunks numbered from zero, and one
end frame. A `Receiver` checks the chunks against the descriptor's header; what it writes them to
is a parameter, and so is SHA-256. Counters are natural numbers: a transfer has at most 8193 frames
of at most one MiB, so that no counter overflows.
-/

namespace PrivateVm.Transfer

open BytePath (containsAny)
open Checked

def defaultMaxChunk : Nat := 1024 * 1024

abbrev Bytes := List UInt8

abbrev Digest := Vector UInt8 32

/-! ## Messages -/

structure Hash where
  algorithm : String
  value : Bytes
  deriving DecidableEq

structure FileDescriptor where
  logicalName : String
  sizeBytes : Nat
  detectedMime : String
  digest : Option Hash
  deriving DecidableEq

structure RequestContext where
  requestId : String
  sessionId : String
  deriving DecidableEq

structure TransferBegin where
  context : Option RequestContext
  transferId : String
  descriptor : Option FileDescriptor
  deriving DecidableEq

structure TransferChunk where
  sequence : Nat
  data : Bytes
  deriving DecidableEq

structure TransferEnd where
  totalSize : Nat
  digest : Option Hash
  deriving DecidableEq

/-- `TransferFrame`; a frame may come without any of its three contents. -/
inductive TransferFrame where
  | beginning (begin : TransferBegin)
  | chunk (chunk : TransferChunk)
  | ending («end» : TransferEnd)
  | unset
  deriving DecidableEq

structure TransferReceipt where
  transferId : String
  descriptor : Option FileDescriptor
  receiverDigest : Option Hash
  deriving DecidableEq

/-! ## Headers -/

structure Header where
  name : String
  size : Nat
  sha256 : Digest
  mediaType : String
  deriving DecidableEq

def Header.validate (h : Header) (maxSize : Nat) : Except String Unit := do
  failIf (h.name = "" ∨ h.name = "." ∨ h.name = ".." ∨ h.name.utf8ByteSize > 255 ∨
      containsAny h.name.toList ['/', '\\', '\x00', '\r', '\n'])
    "logical name must be one safe path component"
  failIf (h.name.toList.any fun value => value.toNat < 0x20 || value.toNat == 0x7f)
    "logical name contains a control character"
  failIf (h.size > maxSize)
    ("size " ++ toString h.size ++ " exceeds limit " ++ toString maxSize)
  failIf (h.mediaType.utf8ByteSize > 255 ∨ containsAny h.mediaType.toList ['\x00', '\r', '\n'])
    "media type is invalid"

variable {maxSize : Nat} {u : Unit}

/-- Besides the size, only the name and the media type are looked at. -/
theorem Header.validate_of_size_le {h h' : Header} {limit : Nat}
    (hval : h.validate maxSize = .ok u) (hname : h'.name = h.name)
    (hmedia : h'.mediaType = h.mediaType) (hsize : h'.size ≤ limit) :
    h'.validate limit = .ok () := by
  simp only [Header.validate, bind_eq_ok, failIf_eq_ok, Nat.not_lt, exists_const] at hval ⊢
  rw [hname, hmedia]
  obtain ⟨hpath, hctl, -, htype⟩ := hval
  exact ⟨hpath, hctl, hsize, htype⟩

/-! ## Receivers -/

/-- The running hash is the bytes it was given. -/
structure Receiver where
  expected : Header
  written : Nat
  hashed : Bytes

def newReceiver (header : Header) (maxSize : Nat) : Except String Receiver := do
  header.validate maxSize
  return ⟨header, 0, []⟩

/-- The checks of `WriteChunk` before it writes. -/
def Receiver.admits (r : Receiver) (offset : Nat) (data : Bytes) : Except String Unit := do
  failIf (offset ≠ r.written)
    ("non-contiguous offset: got " ++ toString offset ++ " want " ++ toString r.written)
  failIf (data.length > defaultMaxChunk) "chunk exceeds maximum"
  failIf (r.written + data.length > r.expected.size) "stream exceeds declared size"

def Receiver.wrote (r : Receiver) (data : Bytes) : Receiver :=
  { r with written := r.written + data.length, hashed := r.hashed ++ data }

def Receiver.finish (sha256 : Bytes → Digest) (r : Receiver) : Except String Unit := do
  failIf (r.written ≠ r.expected.size)
    ("short stream: got " ++ toString r.written ++ " want " ++ toString r.expected.size)
  failIf (sha256 r.hashed ≠ r.expected.sha256) "SHA-256 mismatch"

variable {header : Header} {r : Receiver}

theorem newReceiver_eq_ok : newReceiver header maxSize = .ok r ↔
      header.validate maxSize = .ok () ∧ r = ⟨header, 0, []⟩ := by
  simp only [newReceiver, bind_eq_ok, pure_eq_ok]
  constructor
  · rintro ⟨u, hval, rfl⟩
    exact ⟨hval, rfl⟩
  · rintro ⟨hval, rfl⟩
    exact ⟨(), hval, rfl⟩

theorem Receiver.admits_eq_ok {offset : Nat} {data} : r.admits offset data = .ok u ↔
      offset = r.written ∧ data.length ≤ defaultMaxChunk ∧
        r.written + data.length ≤ r.expected.size := by
  simp [Receiver.admits]

theorem Receiver.finish_eq_ok {sha256 : Bytes → Digest} : r.finish sha256 = .ok u ↔
      r.written = r.expected.size ∧ sha256 r.hashed = r.expected.sha256 := by
  simp [Receiver.finish]

/-- A piece of a file that is not longer than declared is admitted after those before it. -/
theorem Receiver.admits_piece {acc piece rest} (hpiece : piece.length ≤ defaultMaxChunk)
    (hsize : (acc ++ piece ++ rest).length = header.size) :
    Receiver.admits ⟨header, acc.length, acc⟩ acc.length piece = .ok () := by
  refine Receiver.admits_eq_ok.2 ⟨rfl, hpiece, ?_⟩
  rw [← hsize, List.length_append, List.length_append]
  exact Nat.le_add_right _ _

theorem Receiver.wrote_piece (header : Header) (acc piece : Bytes) :
    Receiver.wrote ⟨header, acc.length, acc⟩ piece =
      ⟨header, (acc ++ piece).length, acc ++ piece⟩ := by
  rw [Receiver.wrote, List.length_append]

/-! ## Digests in messages -/

def protoHash (value : Digest) : Hash := ⟨"sha256", value.toList⟩

/-- A digest of the right kind in a message. -/
def Hash.digest? (h : Hash) : Option Digest :=
  if hlen : h.algorithm = "sha256" ∧ h.value.length = 32 then
    some ⟨h.value.toArray, by simpa using hlen.2⟩
  else none

def validHash (value : Option Hash) (expected : Digest) : Bool :=
  match value with
  | none => false
  | some h => h.algorithm == "sha256" && h.value == expected.toList

theorem digest_protoHash (value : Digest) : (protoHash value).digest? = some value := by
  simp [protoHash, Hash.digest?, Vector.toList]

theorem validHash_protoHash (value : Digest) : validHash (some (protoHash value)) value = true := by
  simp [protoHash, validHash]

/-- The header of a descriptor with a SHA-256, as `descriptorHeader` in the guest and
`relayHeader` on the host build it. -/
def FileDescriptor.header? (descriptor : Option FileDescriptor) : Option Header := do
  let d ← descriptor
  let h ← d.digest
  let digest ← h.digest?
  return ⟨d.logicalName, d.sizeBytes, digest, d.detectedMime⟩

def Header.descriptor (h : Header) : FileDescriptor :=
  ⟨h.name, h.size, h.mediaType, some (protoHash h.sha256)⟩

theorem header_descriptor (h : Header) : FileDescriptor.header? (some h.descriptor) = some h := by
  simp [FileDescriptor.header?, Header.descriptor, digest_protoHash]

end PrivateVm.Transfer
