import PrivateVm.Basic.Machine
import PrivateVm.Basic.Method
import PrivateVm.Basic.Text
import PrivateVm.Usb.Claim
import PrivateVm.Usb.Output

set_option autoImplicit false

/-! # The export of one file to a USB device

`Run` of `ExportOperation` boots an exporter, attaches the claimed device, relays the approved
output in chunks, and undoes everything in a fixed order; on a failure it calls `cleanup`, which
can be resumed by later `Cleanup` calls. The history of all calls with their answers, newest first,
is the state outside. `Cleanup` returns at once while `Run` is active, so that a history is one of
calls one after the other.
-/

namespace PrivateVm.Usb

open Checked Program Transfer

def maximumRelayChunk : Nat := 1024 * 1024

/-! ## Errors, events and receipts -/

structure Fault where
  text : String
  deriving DecidableEq

inductive Cause where
  | fault (f : Fault)
  | new (text : String)
  deriving DecidableEq

inductive ExportError where
  | usb (e : UsbError) (cause : Option Cause)
  | cause (c : Cause)
  deriving DecidableEq

/-- An error of `emit` as the cause of another one. -/
def ExportError.asCause : ExportError → Option Cause
  | .cause c => some c
  | .usb _ c => c

inductive ExportState where
  | claimVerified
  | booting
  | noNetworkVerified
  | usbAttached
  | streaming
  | streamComplete
  | flushed
  | postWriteVerified
  | usbUnmounted
  | usbDetached
  | exporterStopped
  | incomplete
  deriving DecidableEq

structure ExportEvent where
  sequence : Nat
  state : ExportState
  code : String
  message : String
  current : Nat
  total : Nat
  deriving DecidableEq

structure RelayChunk where
  sequence : Nat
  data : Bytes
  deriving DecidableEq

structure DestinationEvidence where
  bytesWritten : Nat
  receivedDigest : Digest
  rereadDigest : Digest
  fileSynced : Bool
  filesystemSynced : Bool
  atomicRename : Bool
  deriving DecidableEq

structure FinalizeEvidence where
  unmounted : Bool
  luksClosed : Bool
  deriving DecidableEq

structure ExportReceipt where
  enrollmentID : String
  bytesWritten : Nat
  scannerRelayHashEqual : Bool := true
  relayExporterHashEqual : Bool := true
  exporterRereadHashEqual : Bool := true
  fileSynced : Bool := true
  filesystemSynced : Bool := true
  atomicRename : Bool := true
  usbUnmounted : Bool := true
  usbDetached : Bool := true
  exporterStopped : Bool := true
  cleanupComplete : Bool := true
  deriving DecidableEq

/-! ## Calls out of the operation -/

/-- The calls that return nothing but an error. -/
inductive Step where
  | verifyHostAndSourceIsolation (claim : ClaimRecord)
  | bootNetworkless
  | verifyNoNetwork
  | attachExactUSB (claim : ClaimRecord)
  | inspectAttachedUSB (claim : ClaimRecord)
  | writeChunk (sequence : Nat) (data : Bytes)
  | closeSource
  | abort
  | detachUSB
  | stopExporter
  | release
  | auditAbsent
  | event (e : ExportEvent)
  deriving DecidableEq

/-- What the source gives next. -/
inductive Next where
  | eof
  | failed (f : Fault)
  | chunk (c : RelayChunk)
  deriving DecidableEq

inductive Op where
  | step (s : Step)
  | revalidate
  | begin (output : ApprovedOutput)
  | next
  | commit (written : Nat) (digest : Digest)
  | finalize
  deriving DecidableEq

/-- `Begin` returns whether it has made a writer, and an error, independently. -/
@[reducible] def Op.Res : Op → Type
  | .step _ => Except Fault Unit
  | .revalidate => Except Fault ClaimRecord
  | .begin _ => Bool × Option Fault
  | .next => Next
  | .commit _ _ => Except Fault DestinationEvidence
  | .finalize => Except Fault FinalizeEvidence

abbrev Entry : Type := (o : Op) × o.Res

/-- The other side answers a call as it likes. -/
abbrev Answer : Type := (o : Op) → o.Res

def exec (o : Op) (x : Answer) (log : List Entry) : o.Res × List Entry := (x o, ⟨o, x o⟩ :: log)

/-! ## The operation -/

/-- The fields of `ExportOperation`, and the variable of `Run` that says whether the source was
closed. `writer` is whether a writer is held. -/
structure ExportOperation where
  maxBytes : Nat
  enrollmentID : String
  capacity : Nat
  sequence : Nat := 0
  writer : Bool := false
  booted : Bool := false
  attached : Bool := false
  destinationOpened : Bool := false
  committed : Bool := false
  finalized : Bool := false
  detached : Bool := false
  stopped : Bool := false
  released : Bool := false
  audited : Bool := false
  running : Bool := false
  finished : Bool := false
  verifiedReread : Option Digest := none
  sourceClosed : Bool := false

abbrev Export (α : Type) : Type := Method Op Op.Res ExportError ExportOperation α

open Method (invoke check settle)

def call (step : Step) (wrap : Fault → ExportError) : Export Unit := do
  let r ← invoke (Op.step step)
  check (r.mapError wrap)

@[irreducible] def emit (state : ExportState) (code message : String) (current total : Nat) :
    Export Unit := do
  check (failIf (Text.trimSpace code.toList = [] ∨ Text.trimSpace message.toList = [] ∨
    current > total) (.cause (.new "invalid USB export event")))
  modify fun o => { o with sequence := o.sequence + 1 }
  let o ← get
  call (.event ⟨o.sequence, state, code, message, current, total⟩) fun f => .cause (.fault f)

/-! ## Cleanup -/

def cleanupIncomplete (message remediation : String) (cause : Option Cause) : ExportError :=
  .usb ⟨.cleanupIncomplete, message, remediation⟩ cause

/-- One step of `cleanup`: what is pending is done. -/
def pendingStep (pending : ExportOperation → Bool) (act : Export Unit)
    (done : ExportOperation → ExportOperation) : Export Unit := do
  let o ← get
  if pending o then do
    act
    modify done
  else return ()

def abortWriter : Export Unit :=
  pendingStep (fun o => o.writer && !o.committed)
    (call .abort fun f => cleanupIncomplete "The exporter partial file could not be removed."
      "Retry session cleanup before trusting or disconnecting the USB." (some (.fault f)))
    fun o => { o with writer := false }

/-- Whether `Finalize` failed or returned incomplete evidence, with the cause there is. -/
def finalizeFailure : Except Fault FinalizeEvidence → Option (Option Cause)
  | .error f => some (some (.fault f))
  | .ok evidence => if evidence.unmounted && evidence.luksClosed then none else some none

/-- `Finalize`, with what its failure is reported as. -/
def callFinalize (failed : Option Cause → Export Unit) : Export Unit := do
  let r ← invoke Op.finalize
  match finalizeFailure r with
  | none => return ()
  | some c => failed c

def finalizeDestination : Export Unit :=
  pendingStep (fun o => o.destinationOpened && !o.finalized)
    (callFinalize fun c => throw (cleanupIncomplete
      "The exporter destination could not be unmounted and closed."
      "Retry session cleanup before trusting or disconnecting the USB." c))
    fun o => { o with destinationOpened := false, finalized := true }

def detachDevice : Export Unit :=
  pendingStep (fun o => o.attached && !o.detached)
    (call .detachUSB fun f => cleanupIncomplete "The USB could not be detached during cleanup."
      "Retry session cleanup before disconnecting the USB." (some (.fault f)))
    fun o => { o with attached := false, detached := true }

def stopMachine : Export Unit :=
  pendingStep (fun o => o.booted && !o.stopped)
    (call .stopExporter fun f => cleanupIncomplete
      "The exporter could not be stopped during cleanup."
      "Retry session cleanup before disconnecting the USB." (some (.fault f)))
    fun o => { o with booted := false, stopped := true }

def releaseClaim : Export Unit :=
  pendingStep (fun o => !o.released) (call .release fun f => .cause (.fault f))
    fun o => { o with released := true }

def auditResources : Export Unit :=
  pendingStep (fun o => !o.audited)
    (call .auditAbsent fun f => cleanupIncomplete "USB exporter resources remain after cleanup."
      "Retry session cleanup and keep the USB connected." (some (.fault f)))
    fun o => { o with audited := true }

def cleanup (allowRunning : Bool) : Export Unit := do
  let o ← get
  check (failIf (o.running && !allowRunning)
    (.cause (.new "USB export cleanup is owned by the active operation")))
  abortWriter
  finalizeDestination
  detachDevice
  stopMachine
  releaseClaim
  auditResources

/-! ## Failures -/

/-- A failure is announced, everything is cleaned up, and the error is returned if that
succeeds. -/
def failWith (code message : String) (e : ExportError) {α : Type} : Export α := do
  let _ ← settle (emit .incomplete code message 0 0)
  cleanup true
  throw e

def failAs {α : Type} (code : ErrorCode) (message remediation : String) (cause : Option Cause) :
    Export α :=
  failWith "USB_EXPORT_INCOMPLETE"
    ("USB export is incomplete; do not trust the destination until a new verified export " ++
      "succeeds.") (.usb ⟨code, message, remediation⟩ cause)

def fail {α : Type} (message : String) (cause : Option Cause) : Export α :=
  failAs .writeFailed message
    "Keep the USB connected, inspect it again, and retry only after cleanup succeeds." cause

def hashFailure {α : Type} (message : String) : Export α :=
  failWith "USB_HASH_MISMATCH"
    "USB export hash verification failed; do not trust the destination."
    (.usb ⟨.hashMismatch, message,
      "Do not trust the destination; inspect it again and perform a new export."⟩ none)

/-! ## Run -/

/-- A call of `Run`; its failure ends the run. -/
def perform (step : Step) (message : String) : Export Unit := do
  let r ← invoke (Op.step step)
  match r with
  | .ok () => return ()
  | .error f => fail message (some (.fault f))

def announce (state : ExportState) (code message : String) (current total : Nat) :
    Export Unit := do
  let r ← settle (emit state code message current total)
  match r with
  | .ok () => return ()
  | .error e => fail "Exporter event recording failed." e.asCause

/-- A condition of `Run`. -/
def require (p : Prop) [Decidable p] (message : String) : Export Unit :=
  if p then return () else fail message none

/-- The exporter is booted without a network and the device is attached to it. -/
def prepareExporter (claim : ClaimRecord) (total : Nat) : Export Unit := do
  announce .claimVerified "USB_CLAIM_VERIFIED" "The exact enrolled USB claim was revalidated."
    0 total
  perform (.verifyHostAndSourceIsolation claim) "USB role-boundary isolation verification failed."
  modify ({ · with booted := true })
  perform .bootNetworkless "The networkless exporter could not start."
  announce .booting "USB_EXPORTER_BOOTED" "The headless exporter started." 0 total
  perform .verifyNoNetwork "Exporter network isolation verification failed."
  announce .noNetworkVerified "USB_EXPORTER_OFFLINE" "The exporter has no network interface."
    0 total
  modify ({ · with attached := true })
  perform (.attachExactUSB claim) "The exact enrolled USB could not be attached."
  perform (.inspectAttachedUSB claim) "Exporter USB identity verification failed."
  announce .usbAttached "USB_ATTACHED_EXACT"
    "The exporter verified the exact enrolled USB identity." 0 total

def beginWrite (output : ApprovedOutput) : Export Unit := do
  let r ← invoke (Op.begin output)
  if r.1 then modify ({ · with writer := true, destinationOpened := true }) else pure ()
  if r.2.isSome || !r.1 then
    fail "The exporter destination could not begin a bounded write." (r.2.map .fault)
  else
    announce .streaming "USB_STREAMING" "The approved output stream is being relayed." 0 output.size

/-- The loop over the chunks: the bytes relayed. Each chunk has at least a byte and all of them
fit the declared size, which bounds the number of turns. -/
def relayChunks (output : ApprovedOutput) : Nat → Bytes → Nat → Export Bytes
  | 0, _, _ => fail "The approved source stream violated its bounds." none
  | n + 1, relayed, expectedSequence => do
      let r ← invoke Op.next
      match r with
      | .eof => return relayed
      | .failed f => fail "The approved source stream failed." (some (.fault f))
      | .chunk chunk => do
          require (¬ (chunk.sequence ≠ expectedSequence ∨ chunk.data.length = 0 ∨
              chunk.data.length > maximumRelayChunk ∨ relayed.length > output.size ∨
              chunk.data.length > output.size - relayed.length))
            "The approved source stream violated its bounds."
          perform (.writeChunk chunk.sequence chunk.data)
            "The exporter rejected a bounded stream chunk."
          announce .streaming "USB_STREAM_PROGRESS" "The approved output stream is being relayed."
            (relayed ++ chunk.data).length output.size
          relayChunks output n (relayed ++ chunk.data) (expectedSequence + 1)

variable (sha256 : Bytes → Digest)

/-- The stream ends with its declared size and its approved digest. -/
def finishStream (output : ApprovedOutput) (relayed : Bytes) : Export Unit := do
  require (relayed.length = output.size)
    "The approved source stream ended before its declared size."
  let closed ← invoke (Op.step .closeSource)
  modify ({ · with sourceClosed := true })
  match closed with
  | .error f => fail "The approved source stream did not close cleanly." (some (.fault f))
  | .ok () =>
    if output.sourceDigest = sha256 relayed then
      announce .streamComplete "USB_STREAM_COMPLETE"
        "The complete approved stream reached the exporter." relayed.length output.size
    else hashFailure "The source and relay hashes do not agree."

def commitWrite (output : ApprovedOutput) (relayed : Bytes) : Export DestinationEvidence := do
  let r ← invoke (Op.commit relayed.length (sha256 relayed))
  match r with
  | .error f =>
    fail "The exporter could not commit and reread the destination file." (some (.fault f))
  | .ok evidence => do
      modify ({ · with committed := true, writer := false })
      require (evidence.bytesWritten = relayed.length ∧ evidence.fileSynced ∧
        evidence.filesystemSynced ∧ evidence.atomicRename)
        "The exporter did not return complete flush evidence."
      if sha256 relayed = evidence.receivedDigest ∧ sha256 relayed = evidence.rereadDigest then do
        announce .flushed "USB_FLUSHED" "The exporter fsynced the file and destination filesystem."
          relayed.length output.size
        announce .postWriteVerified "USB_POST_WRITE_VERIFIED"
          "Scanner, relay and exporter reread hashes agree." relayed.length output.size
        return evidence
      else hashFailure "The relay and exporter reread hashes do not agree."

/-- The way back: unmount, detach, stop, release and audit. -/
def takeDown (written total : Nat) : Export Unit := do
  callFinalize (fail "The exporter destination did not unmount and close cleanly.")
  modify ({ · with finalized := true, destinationOpened := false })
  announce .usbUnmounted "USB_UNMOUNTED"
    "The exporter unmounted and closed the encrypted destination." written total
  perform .detachUSB "The USB could not be detached from the exporter."
  modify ({ · with detached := true, attached := false })
  announce .usbDetached "USB_DETACHED" "The USB was detached from the exporter." written total
  perform .stopExporter "The exporter could not stop cleanly."
  modify ({ · with stopped := true, booted := false })
  announce .exporterStopped "USB_EXPORTER_STOPPED" "The exporter stopped after verification."
    written total
  perform .release "The USB claim could not be released."
  modify ({ · with released := true })
  perform .auditAbsent "USB exporter cleanup audit failed."
  modify ({ · with audited := true })

/-- `Run` once the source is there and until it is closed. -/
def exportOutput (output : ApprovedOutput) : Export ExportReceipt := do
  let o ← get
  match output.validate o.maxBytes with
  | .error text =>
    fail "The selected output is not eligible for safe USB export." (some (.new text))
  | .ok () =>
    if output.size > o.capacity then
      failAs .tooSmall "The enrolled USB is too small for the approved output."
        "Use a larger enrolled device and repeat preparation before exporting." none
    else do
      let r ← invoke Op.revalidate
      match r with
      | .error f => do
          cleanup true
          throw (.cause (.fault f))
      | .ok claim => do
          prepareExporter claim output.size
          beginWrite output
          let relayed ← relayChunks output (output.size + 1) [] 0
          finishStream sha256 output relayed
          let evidence ← commitWrite sha256 output relayed
          takeDown relayed.length output.size
          modify ({ · with verifiedReread := some evidence.rereadDigest })
          return { enrollmentID := o.enrollmentID, bytesWritten := relayed.length }

/-- The deferred close of the source. -/
def closeUnclosed : Export Unit := do
  let o ← get
  if o.sourceClosed then return ()
  else do
    let _ ← invoke (Op.step .closeSource)
    return ()

/-- `Run` while it holds the operation. -/
def runSource : Option ApprovedOutput → Export ExportReceipt
  | none => fail "An approved source is required." none
  | some output => do
      let result ← settle (exportOutput sha256 output)
      closeUnclosed
      check result

def run (source : Option ApprovedOutput) : Export ExportReceipt := do
  let o ← get
  check (failIf (o.running || o.finished)
    (.cause (.new "USB export operation cannot run twice")))
  modify ({ · with running := true })
  let result ← settle (runSource sha256 source)
  modify ({ · with running := false, finished := true })
  check result

end PrivateVm.Usb
