import PrivateVm.Basic.Method
import PrivateVm.Transfer.Frame

set_option autoImplicit false

/-! # The host's relay of an import

`Import` of the host forwards the frames that the daemon receives to the guest's `ImportFile`
and checks them on the way. It runs against a `Link`: the frames the caller has still to send,
those sent to the guest, and the guest's answer to all of them.
-/

namespace PrivateVm.Workstation

open Checked Program Transfer

def maximumWorkspaceFrames : Nat := 8194

def maximumRelayBytes : Nat := 8 * 1024 * 1024 * 1024

/-- `ErrWorkspaceTransfer`, alone or with what a receive ended with, and the errors of the
connection. -/
inductive RelayError where
  | workspaceTransfer
  | connection
  deriving DecidableEq

def relayHeader (descriptor : Option FileDescriptor) : Except RelayError Header := do
  let header ← ofOption .workspaceTransfer (FileDescriptor.header? descriptor)
  (header.validate maximumRelayBytes).mapError fun _ => .workspaceTransfer
  return header

def sameProtoHash (value : Option Hash) (expected : Digest) : Bool :=
  match value with
  | none => false
  | some h => h.algorithm == "sha256" && h.value.length == 32 && h.value == expected.toList

def validReceipt (receipt : Option TransferReceipt) (id : String) (header : Header) : Bool :=
  match receipt with
  | none => false
  | some r =>
    r.transferId == id && sameProtoHash r.receiverDigest header.sha256 &&
      (match relayHeader r.descriptor with
        | .ok received => received == header
        | .error _ => false)

/-! ## The outside of the relay -/

inductive LinkOp where
  | guestContext
  | importFile
  | receive
  | send (frame : TransferFrame)
  | closeAndRecv

@[reducible] def LinkOp.Res : LinkOp → Type
  | .guestContext => Except Unit RequestContext
  | .importFile => Except Unit Unit
  | .receive => Except Unit (Option TransferFrame)
  | .send _ => Except Unit Unit
  | .closeAndRecv => Except Unit (Option TransferReceipt)

structure Link where
  context : RequestContext
  incoming : List TransferFrame
  sent : List TransferFrame
  guest : List TransferFrame → Option TransferReceipt

/-- An operation fails if the environment says so. The end of the caller's frames is received as
`none`. -/
def Link.exec : (o : LinkOp) → Bool → Link → o.Res × Link
  | .guestContext, fails, l => (if fails then .error () else .ok l.context, l)
  | .importFile, fails, l => (if fails then .error () else .ok (), l)
  | .receive, fails, l =>
    match fails, l.incoming with
    | true, _ => (.error (), l)
    | false, [] => (.ok none, l)
    | false, frame :: rest => (.ok (some frame), { l with incoming := rest })
  | .send frame, fails, l =>
    match fails with
    | true => (.error (), l)
    | false => (.ok (), { l with sent := l.sent ++ [frame] })
  | .closeAndRecv, fails, l => (if fails then .error () else .ok (l.guest l.sent), l)

/-! ## The relay -/

abbrev Relay (α : Type) : Type := Method LinkOp LinkOp.Res RelayError Unit α

open Method (invoke check)

def relaySend (frame : TransferFrame) : Relay Unit := do
  let r ← invoke (LinkOp.send frame)
  check (r.mapError fun _ => .connection)

def relayReceive : Relay TransferFrame := do
  let r ← invoke LinkOp.receive
  check (match r with
    | .ok (some frame) => .ok frame
    | _ => .error .workspaceTransfer)

def relayReceiveEnd : Relay Unit := do
  let r ← invoke LinkOp.receive
  check (match r with
    | .ok none => .ok ()
    | _ => .error .workspaceTransfer)

/-- The loop over the frames after the first, with what is left of their number. The receiver
writes nowhere. -/
def relayFrames (sha256 : Bytes → Digest) (header : Header) :
    Nat → Receiver → Nat → Nat → Relay Unit
  | 0, _, _, _ => throw .workspaceTransfer
  | n + 1, receiver, sequence, offset => do
      let frame ← relayReceive
      match frame with
      | .chunk chunk => do
          check (failIf (chunk.data.length = 0 ∨ chunk.sequence ≠ sequence) .workspaceTransfer)
          check ((receiver.admits offset chunk.data).mapError fun _ => .workspaceTransfer)
          relaySend frame
          relayFrames sha256 header n (receiver.wrote chunk.data) (sequence + 1)
            (offset + chunk.data.length)
      | .ending e => do
          check (failIf (e.totalSize ≠ header.size ∨ !sameProtoHash e.digest header.sha256)
            .workspaceTransfer)
          check ((receiver.finish sha256).mapError fun _ => .workspaceTransfer)
          relayReceiveEnd
          relaySend frame
      | _ => throw .workspaceTransfer

def acceptReceipt (id : String) (header : Header) :
    Except Unit (Option TransferReceipt) → Except RelayError TransferReceipt
  | .ok (some receipt) =>
    if validReceipt (some receipt) id header then .ok receipt else .error .workspaceTransfer
  | _ => .error .workspaceTransfer

def relayImport (sha256 : Bytes → Digest) (begin : TransferBegin) : Relay TransferReceipt := do
  let header ← check (relayHeader begin.descriptor)
  check (failIf (begin.transferId = "") .workspaceTransfer)
  let context ← invoke LinkOp.guestContext
  let context ← check (context.mapError fun _ => .connection)
  let opened ← invoke LinkOp.importFile
  check (opened.mapError fun _ => .connection)
  relaySend (.beginning { begin with context := some context })
  let receiver ← check ((newReceiver header header.size).mapError fun _ => .workspaceTransfer)
  relayFrames sha256 header (maximumWorkspaceFrames - 1) receiver 0 0
  let receipt ← invoke LinkOp.closeAndRecv
  check (acceptReceipt begin.transferId header receipt)

end PrivateVm.Workstation
