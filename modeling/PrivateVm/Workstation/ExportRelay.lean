import PrivateVm.Usb.Sources
import PrivateVm.Workstation.Relay

set_option autoImplicit false

/-! # The host's relay of an export, and its verification

`Export` forwards the frames of the guest's `ExportFile` to a sink, checks them and remembers a
complete export. `Verify` asks the guest to mark it as verified, and `VerifyWorkspaceExport` then
registers the output as a source of a USB export.
-/

namespace PrivateVm.Workstation

open Checked Program Transfer Usb

/-! ## The calls of the host -/

inductive HostOp where
  | guestContext
  | exportFile (outputID : String)
  | recv
  | send (frame : TransferFrame)
  | recordExport (outputID : String) (digest : Digest)
  | pendingExport (outputID : String)
  | forgetExport (outputID : String)
  | markExportVerified (outputID : String) (digest : Option Hash)
  | relay (sessionID : String)
  | sourcesInstalled
  | replaceSource (selection : SourceSelection) (factory : SourceFactory)

/-- `recv` answers `none` at the end of the guest's stream. -/
@[reducible] def HostOp.Res : HostOp → Type
  | .guestContext | .exportFile _ | .send _ | .relay _ => Except Unit Unit
  | .recv => Except Unit (Option TransferFrame)
  | .recordExport _ _ | .forgetExport _ => Unit
  | .pendingExport _ => Option Digest
  | .markExportVerified _ _ => Except ImportError WorkspaceState
  | .sourcesInstalled => Bool
  | .replaceSource _ _ => Except String Unit

inductive HostError where
  | workspaceTransfer
  | connection
  | guest (e : ImportError)
  | workstationUnavailable
  | sourceUnavailable
  | registry (text : String)
  deriving DecidableEq

abbrev Host (α : Type) : Type := Method HostOp HostOp.Res HostError Unit α

open Method (invoke check)

/-! ## Export -/

def recvExport : Host TransferFrame := do
  let r ← invoke HostOp.recv
  check (match r with
    | .ok (some frame) => .ok frame
    | _ => .error .workspaceTransfer)

def recvExportEnd : Host Unit := do
  let r ← invoke HostOp.recv
  check (match r with
    | .ok none => .ok ()
    | _ => .error .workspaceTransfer)

def sendExport (frame : TransferFrame) : Host Unit := do
  let r ← invoke (HostOp.send frame)
  check (r.mapError fun _ => .connection)

/-- The loop over the frames after the first, with what is left of their number. -/
def exportFrames (sha256 : Bytes → Digest) (header : Header) :
    Nat → Receiver → Nat → Nat → Host Unit
  | 0, _, _, _ => throw .workspaceTransfer
  | n + 1, receiver, sequence, offset => do
      let frame ← recvExport
      match frame with
      | .chunk chunk => do
          check (failIf (chunk.data.length = 0 ∨ chunk.sequence ≠ sequence) .workspaceTransfer)
          check ((receiver.admits offset chunk.data).mapError fun _ => .workspaceTransfer)
          sendExport frame
          exportFrames sha256 header n (receiver.wrote chunk.data) (sequence + 1)
            (offset + chunk.data.length)
      | .ending e => do
          check (failIf (e.totalSize ≠ header.size ∨ !sameProtoHash e.digest header.sha256)
            .workspaceTransfer)
          check ((receiver.finish sha256).mapError fun _ => .workspaceTransfer)
          recvExportEnd
          sendExport frame
      | _ => throw .workspaceTransfer

/-- The first frame of the guest describes the selected output. -/
def exportHeader (outputID : String) : TransferFrame → Except HostError Header
  | .beginning begin => do
      failIf (begin.context.isSome ∨ begin.transferId ≠ outputID) .workspaceTransfer
      (relayHeader begin.descriptor).mapError fun _ => .workspaceTransfer
  | _ => .error .workspaceTransfer

def relayExport (sha256 : Bytes → Digest) (outputID : String) : Host TransferReceipt := do
  check (failIf (outputID = "") .workspaceTransfer)
  let context ← invoke HostOp.guestContext
  check (context.mapError fun _ => .connection)
  let opened ← invoke (HostOp.exportFile outputID)
  check (opened.mapError fun _ => .connection)
  let first ← recvExport
  let header ← check (exportHeader outputID first)
  let sent ← invoke (HostOp.send first)
  check (sent.mapError fun _ => .workspaceTransfer)
  let receiver ← check ((newReceiver header header.size).mapError fun _ => .workspaceTransfer)
  exportFrames sha256 header (maximumWorkspaceFrames - 1) receiver 0 0
  invoke (HostOp.recordExport outputID header.sha256)
  return ⟨outputID, some header.descriptor, some (protoHash header.sha256)⟩

/-! ## Verify -/

def equalProtoHashes : Option Hash → Option Hash → Bool
  | some left, some right =>
    left.algorithm == "sha256" && right.algorithm == "sha256" && left.value.length == 32 &&
      left.value == right.value
  | _, _ => false

def relayVerify (outputID : String) (daemonDigest receiverDigest : Option Hash) :
    Host WorkspaceState := do
  check (failIf (outputID = "" ∨ !equalProtoHashes daemonDigest receiverDigest) .workspaceTransfer)
  let pending ← invoke (HostOp.pendingExport outputID)
  let pending ← check (ofOption .workspaceTransfer pending)
  check (failIf (!sameProtoHash daemonDigest pending) .workspaceTransfer)
  let context ← invoke HostOp.guestContext
  check (context.mapError fun _ => .connection)
  let answer ← invoke (HostOp.markExportVerified outputID receiverDigest)
  let state ← check (answer.mapError .guest)
  invoke (HostOp.forgetExport outputID)
  return state

/-! ## The roles of the host -/

/-- The relay of a workstation session that has one. -/
def workstationRelay (snapshot : Session.Snapshot) : Host Unit := do
  check (failIf ((Session.validateID snapshot.id).isOk = false ∨ snapshot.role ≠ .workstation)
    .workstationUnavailable)
  let relay ← invoke (HostOp.relay snapshot.id)
  check (relay.mapError fun _ => .workstationUnavailable)

def approvedDigestFromProto (value : Option Hash) : Option Digest := value.bind Hash.digest?

def registerWorkstationApprovedSource (snapshot : Session.Snapshot) (outputID : String)
    (digest : Option Hash) (state : WorkspaceState) : Host Unit := do
  check (failIf (snapshot.role ≠ .workstation ∨ snapshot.phase ≠ .active) .sourceUnavailable)
  let pinnedDigest ← check (ofOption .sourceUnavailable (approvedDigestFromProto digest))
  let pinned ← check ((currentWorkspaceEntry (some state) outputID 0).mapError fun _ =>
    .sourceUnavailable)
  let replaced ← invoke (HostOp.replaceSource ⟨.workstation, snapshot.id, outputID⟩
    (.workstation outputID pinned.sizeBytes pinnedDigest))
  check (replaced.mapError .registry)

def verifyWorkspaceExport (snapshot : Session.Snapshot) (outputID : String)
    (daemonDigest receiverDigest : Option Hash) : Host WorkspaceState := do
  workstationRelay snapshot
  let state ← relayVerify outputID daemonDigest receiverDigest
  let installed ← invoke HostOp.sourcesInstalled
  if installed then registerWorkstationApprovedSource snapshot outputID receiverDigest state
  else pure ()
  return state

end PrivateVm.Workstation
