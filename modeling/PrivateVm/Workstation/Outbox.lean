import PrivateVm.Basic.Hex
import PrivateVm.Basic.Keyed
import PrivateVm.Workstation.Import

set_option autoImplicit false

/-! # The guest's outbox

The workstation guest lists the files of its Export directory, streams one of them to the host, and
marks it as verified when the host asks for it. The programs call `OutboxOp`: system calls, the
stream to the client, and the regions in which the server holds its mutex. A file that is read
chunk by chunk is read at the offset the program has reached.
-/

namespace PrivateVm.Workstation

open Checked Program Transfer

def maxWorkspaceEntries : Nat := 1024

/-! ## Messages -/

structure WorkspaceEntry where
  outputId : String
  sizeBytes : Nat
  exported : Bool
  changedSinceExport : Bool
  deriving DecidableEq

/-- The texts of the field `state`. -/
inductive WorkspaceSummary where
  | clean
  | ready
  | unexported
  | changed
  deriving DecidableEq

structure WorkspaceState where
  state : WorkspaceSummary
  entries : List WorkspaceEntry
  deriving DecidableEq

/-! ## Receipts -/

structure Receipt where
  digest : Digest
  size : Nat
  deriving DecidableEq

structure ExportFile where
  id : String
  name : String
  size : Nat
  digest : Digest
  deriving DecidableEq

def ExportFile.receipt (f : ExportFile) : Receipt := ⟨f.digest, f.size⟩

/-- The tables of the server that its mutex protects. -/
structure Receipts where
  verified : String → Option Receipt
  sent : String → Option Receipt

def Receipts.empty : Receipts := ⟨fun _ => none, fun _ => none⟩

def Receipts.entry (r : Receipts) (file : ExportFile) : WorkspaceEntry :=
  match r.verified file.id with
  | none => ⟨file.id, file.size, false, false⟩
  | some verified =>
    let isChanged := verified.size ≠ file.size ∨ verified.digest ≠ file.digest
    ⟨file.id, file.size, !isChanged, isChanged⟩

/-- The part of `workspaceState` that holds the mutex. -/
def Receipts.workspaceState (r : Receipts) (files : List ExportFile) : WorkspaceState :=
  let entries := files.map r.entry
  { state :=
      if entries.any (·.changedSinceExport) then .changed
      else if entries.any (!·.exported) then .unexported
      else if files.length > 0 then .ready
      else .clean
    entries := entries }

def Receipts.recordSent (r : Receipts) (selected : ExportFile) : Receipts :=
  { r with sent := Function.update r.sent selected.id (some selected.receipt) }

/-- The part of `MarkExportVerified` that holds the mutex: the file as it is now was streamed. -/
def Receipts.markVerified (r : Receipts) (current : ExportFile) : Option Receipts :=
  if r.sent current.id = some current.receipt then
    some { r with verified := Function.update r.verified current.id (some current.receipt) }
  else none

/-! ## The calls of the server -/

structure DirEntry where
  name : String
  isDir : Bool
  isSymlink : Bool
  deriving DecidableEq

structure FileInfo where
  regular : Bool
  size : Nat
  deriving DecidableEq

/-- The calls that return nothing but an error. -/
inductive OutboxStep where
  | lease
  | verifyPath
  | close (fd : Nat)
  | send (frame : TransferFrame)
  deriving DecidableEq

inductive OutboxOp where
  | step (s : OutboxStep)
  | readDirectoryEntries
  | contextErr
  | openAt (name : String)
  | stat (fd : Nat)
  | read (fd : Nat) (offset : Nat)
  | report (files : List ExportFile)
  | recordSent (selected : ExportFile)
  | markVerified (current : ExportFile)
  deriving DecidableEq

/-- `read` answers with at least a byte and at most `defaultMaxChunk`, and with none at the end of
the file. -/
@[reducible] def OutboxOp.Res : OutboxOp → Type
  | .step _ => Except Unit Unit
  | .readDirectoryEntries => Except Unit (List DirEntry)
  | .contextErr => Option ContextError
  | .openAt _ => Except Unit Nat
  | .stat _ => Except Unit FileInfo
  | .read _ _ => Except Unit Bytes
  | .report _ => WorkspaceState
  | .recordSent _ => Unit
  | .markVerified _ => Bool

abbrev Outbox (α : Type) : Type := Method OutboxOp OutboxOp.Res ImportError Unit α

open Method (invoke check settle)

/-! ## Errors -/

def exportUnavailable : ImportError :=
  .workspace ⟨.failedPrecondition, "WORKSPACE_EXPORT_CHANGED",
    "The pinned Export directory is unavailable.",
    "Restore the original guest Export directory or recreate the workstation."⟩

/-- The directory is not the pinned one any more; the text says when this was seen. -/
def exportChanged (when : String) : ImportError :=
  .workspace ⟨.failedPrecondition, "WORKSPACE_EXPORT_CHANGED",
    "The pinned Export directory identity changed" ++ when ++ ".",
    "Restore the original guest Export directory or recreate the workstation."⟩

def inventoryFailed : ImportError :=
  .workspace ⟨.failedPrecondition, "WORKSPACE_INVENTORY_FAILED",
    "The Export directory could not be inventoried within its bounds.",
    "Remove unsupported entries inside the guest and retry."⟩

def inventoryCanceled : ImportError :=
  .workspace ⟨.canceled, "WORKSPACE_INVENTORY_CANCELED", "Workspace inventory was canceled.",
    "Retry after the current operation finishes."⟩

def entryUnsafe (message : String) : ImportError :=
  .workspace ⟨.failedPrecondition, "WORKSPACE_ENTRY_UNSAFE", message,
    "Keep only bounded regular files directly inside Export."⟩

def hashFailed : ImportError :=
  .workspace ⟨.internal, "WORKSPACE_HASH_FAILED", "An output could not be hashed completely.",
    "Retry before stopping the workstation."⟩

def capacityExceeded : ImportError :=
  .workspace ⟨.resourceExhausted, "WORKSPACE_CAPACITY_EXCEEDED",
    "Export exceeds the bounded workspace capacity.",
    "Remove unneeded guest outputs before retrying."⟩

def outputNotFound : ImportError :=
  .workspace ⟨.notFound, "WORKSPACE_OUTPUT_NOT_FOUND",
    "The selected volatile output no longer exists.",
    "Refresh the workspace inventory and select one current output."⟩

def outputChanged : ImportError :=
  .workspace ⟨.failedPrecondition, "WORKSPACE_OUTPUT_CHANGED",
    "The output changed before export began.",
    "Refresh the inventory and review the changed output."⟩

def verificationMismatch : ImportError :=
  .workspace ⟨.failedPrecondition, "EXPORT_VERIFICATION_MISMATCH",
    "The host verification digest does not match the current guest output.",
    "Do not discard the workspace; export and verify the current bytes again."⟩

def notStreamed : ImportError :=
  .workspace ⟨.failedPrecondition, "EXPORT_NOT_STREAMED",
    "The current output was not completely streamed before verification.",
    "Export the selected output completely, then verify its received digest."⟩

/-! ## The inventory -/

/-- The limits of a server, and its keyed hash of names. -/
structure OutboxConfig where
  maxFile : Nat
  maxTotal : Nat
  mac : Bytes → Digest
  sha256 : Bytes → Digest

def OutboxConfig.outputID (c : OutboxConfig) (name : String) : String :=
  "output-" ++ Hex.text ((c.mac name.toUTF8.data.toList).toList.take 16)

def act (s : OutboxStep) (e : ImportError) : Outbox Unit := do
  let r ← invoke (OutboxOp.step s)
  check (r.mapError fun _ => e)

def attempt (s : OutboxStep) : Outbox Unit := do
  let _ ← invoke (OutboxOp.step s)
  return ()

/-- A regular file within a bound, with its descriptor and its size. -/
def openRegularAt (name : String) (maximum : Nat) : Outbox (Option (Nat × Nat)) := do
  let opened ← invoke (OutboxOp.openAt name)
  match opened with
  | .error _ => return none
  | .ok fd => do
      let info ← invoke (OutboxOp.stat fd)
      match info with
      | .ok ⟨true, size⟩ =>
        if size > maximum then do
          attempt (.close fd)
          return none
        else return some (fd, size)
      | _ => do
          attempt (.close fd)
          return none

/-- The loop of `hashFile`: the bytes that are hashed. A turn takes at least a byte, which bounds
their number. -/
def hashBytes (fd maximum : Nat) : Nat → Bytes → Outbox (Option Bytes)
  | 0, _ => return none
  | n + 1, hashed => do
      let ended ← invoke OutboxOp.contextErr
      match ended with
      | some _ => return none
      | none => do
          let piece ← invoke (OutboxOp.read fd hashed.length)
          match piece with
          | .error _ => return none
          | .ok [] => return some hashed
          | .ok (byte :: rest) =>
            if (byte :: rest).length > maximum - hashed.length then return none
            else hashBytes fd maximum n (hashed ++ byte :: rest)

def hashFile (c : OutboxConfig) (fd : Nat) : Outbox (Option Digest) := do
  let hashed ← hashBytes fd c.maxFile (c.maxFile + 1) []
  return hashed.map c.sha256

def inventoryEntry (c : OutboxConfig) (entry : DirEntry) : Outbox ExportFile := do
  let ended ← invoke OutboxOp.contextErr
  check (failIf ended.isSome inventoryCanceled)
  check (failIf (entry.isDir ∨ entry.isSymlink ∨
      (Header.validate ⟨entry.name, 0, Vector.replicate 32 0, ""⟩ c.maxFile).isOk = false)
    (entryUnsafe "Export contains a directory, link, or unsafe name."))
  let opened ← openRegularAt entry.name c.maxFile
  let (fd, size) ← check (ofOption
    (entryUnsafe "Export contains a non-regular or oversized entry.") opened)
  let digest ← hashFile c fd
  let closed ← invoke (OutboxOp.step (.close fd))
  let digest ← check (ofOption hashFailed digest)
  check (closed.mapError fun _ => hashFailed)
  return ⟨c.outputID entry.name, entry.name, size, digest⟩

def inventoryEntries (c : OutboxConfig) : List DirEntry → Nat → Outbox (List ExportFile)
  | [], _ => return []
  | entry :: rest, total => do
      let file ← inventoryEntry c entry
      check (failIf (file.size > c.maxTotal - total) capacityExceeded)
      let files ← inventoryEntries c rest (total + file.size)
      return file :: files

def inventory (c : OutboxConfig) : Outbox (List ExportFile) := do
  act .lease exportUnavailable
  act .verifyPath (exportChanged "")
  let entries ← invoke OutboxOp.readDirectoryEntries
  let entries ← check (entries.mapError fun _ => inventoryFailed)
  check (failIf (entries.length > maxWorkspaceEntries) inventoryFailed)
  let files ← inventoryEntries c (Keyed.sort (·.name) entries) 0
  act .verifyPath (exportChanged " during inventory")
  return files

def workspaceState (c : OutboxConfig) : Outbox WorkspaceState := do
  let files ← inventory c
  invoke (OutboxOp.report files)

/-! ## Export -/

/-- The loop of `ExportFile` over the chunks of a file, with the turns that are left: the client
takes no more frames. -/
def sendChunks (fd : Nat) : Nat → Nat → Nat → Outbox Unit
  | 0, _, _ => throw (.stream .broken)
  | n + 1, sequence, offset => do
      let piece ← invoke (OutboxOp.read fd offset)
      match piece with
      | .error _ => throw (transferFailure "TRANSFER_READ_FAILED")
      | .ok [] => return ()
      | .ok (byte :: rest) => do
          act (.send (.chunk ⟨sequence, byte :: rest⟩)) (.stream .broken)
          sendChunks fd n (sequence + 1) (offset + (byte :: rest).length)

/-- `ExportFile` once the file is open. -/
def streamFile (selected : ExportFile) (fd turns : Nat) : Outbox Unit := do
  act (.send (.beginning ⟨none, selected.id,
    some ⟨selected.name, selected.size, "", some (protoHash selected.digest)⟩⟩)) (.stream .broken)
  sendChunks fd turns 0 0
  act (.send (.ending ⟨selected.size, some (protoHash selected.digest)⟩)) (.stream .broken)
  act .verifyPath (exportChanged " during export")
  invoke (OutboxOp.recordSent selected)

def exportFile (c : OutboxConfig) (turns : Nat) (outputId : String) : Outbox Unit := do
  let files ← inventory c
  let selected ← check (ofOption outputNotFound (files.find? fun file => file.id == outputId))
  act .lease exportUnavailable
  act .verifyPath (exportChanged "")
  let opened ← openRegularAt selected.name c.maxFile
  let (fd, size) ← check (ofOption outputChanged opened)
  check (failIf (size ≠ selected.size) outputChanged)
  let result ← settle (streamFile selected fd turns)
  attempt (.close fd)
  check result

def markExportVerified (c : OutboxConfig) (outputId : String) (digest : Option Hash) :
    Outbox WorkspaceState := do
  let files ← inventory c
  let current ← check (ofOption verificationMismatch
    (files.find? fun file => file.id == outputId))
  check (failIf (!validHash digest current.digest) verificationMismatch)
  let marked ← invoke (OutboxOp.markVerified current)
  check (failIf (!marked) notStreamed)
  workspaceState c

end PrivateVm.Workstation
