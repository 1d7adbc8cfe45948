import PrivateVm.Basic.FileSystem
import PrivateVm.Basic.Method
import PrivateVm.Transfer.Frame

set_option autoImplicit false

/-! # The import of a file into the guest

`ImportFile` writes the chunks to a staging file `.<transfer id>.partial`, and once size and digest
are verified it renames this file to its logical name, if no file has that name. A deferred function
removes the staging file, or the renamed one, when the call fails. The environment decides which
system calls fail, when the stream breaks and when the context of the call ends (`Choice`).
-/

namespace PrivateVm.Workstation

open Checked FileSystem Program Transfer

def defaultMaxFileBytes : Nat := 8 * 1024 * 1024 * 1024

def defaultMaxWorkspaceBytes : Nat := 16 * 1024 * 1024 * 1024

def maxWorkspaceFrames : Nat := defaultMaxFileBytes / defaultMaxChunk + 2

/-! ## Errors -/

inductive GrpcCode where
  | canceled
  | invalidArgument
  | deadlineExceeded
  | notFound
  | alreadyExists
  | resourceExhausted
  | failedPrecondition
  | internal
  deriving DecidableEq

/-- `workspaceError`, which drops the cause it is given. -/
structure WorkspaceError where
  grpcCode : GrpcCode
  code : String
  message : String
  remediation : String
  deriving DecidableEq

inductive ContextError where
  | canceled
  | deadlineExceeded
  deriving DecidableEq

/-- What a receive or a send of the stream ends with; `eof` is that the client has closed it. -/
inductive StreamError where
  | eof
  | broken
  deriving DecidableEq

inductive ImportError where
  | workspace (e : WorkspaceError)
  | stream (e : StreamError)
  deriving DecidableEq

def transferFailure (code : String) : ImportError :=
  .workspace ⟨.invalidArgument, code, "The bounded file transfer failed verification.",
    "Retry the complete single-file transfer; partial bytes were removed."⟩

def workspaceContextError : ContextError → ImportError
  | .deadlineExceeded => .workspace ⟨.deadlineExceeded, "TRANSFER_TIMEOUT",
      "The import timed out before verification.", "Retry the import; partial bytes were removed."⟩
  | .canceled => .workspace ⟨.canceled, "TRANSFER_CANCELED",
      "The import was canceled before verification.",
      "Retry the import; partial bytes were removed."⟩

def beginRequired : ImportError :=
  .workspace ⟨.invalidArgument, "TRANSFER_BEGIN_REQUIRED",
    "The import must begin with one bounded descriptor.",
    "Retry the single-file import from its first frame."⟩

def transferIDInvalid : ImportError :=
  .workspace ⟨.invalidArgument, "TRANSFER_ID_INVALID", "The transfer identifier is malformed.",
    "Retry through the private-vm host daemon."⟩

def inboxChanged : ImportError :=
  .workspace ⟨.failedPrecondition, "WORKSPACE_INBOX_CHANGED",
    "The pinned Inbox directory identity changed.",
    "Restore the original guest Inbox directory or recreate the workstation."⟩

def stagingConflict : ImportError :=
  .workspace ⟨.alreadyExists, "IMPORT_STAGING_CONFLICT",
    "A volatile import staging name already exists.",
    "Discard the incomplete import and retry with a fresh transfer identifier."⟩

def transferIncomplete : ImportError :=
  .workspace ⟨.invalidArgument, "TRANSFER_INCOMPLETE",
    "The import ended before its verified final frame.",
    "Retry the complete import; partial bytes were removed."⟩

def targetExists : ImportError :=
  .workspace ⟨.alreadyExists, "IMPORT_TARGET_EXISTS",
    "The Inbox target already exists and was not overwritten.",
    "Choose a new logical name or discard the existing guest file explicitly."⟩

def frameLimit : ImportError :=
  .workspace ⟨.resourceExhausted, "TRANSFER_FRAME_LIMIT",
    "The import exceeded its bounded frame count.",
    "Retry with the documented chunk size; partial bytes were removed."⟩

/-! ## The world of a call -/

inductive Op where
  | sys (c : Call)
  | renameNoReplace (dir : Nat) (old new : String)
  | recv
  | contextErr
  | sendAndClose (receipt : TransferReceipt)

@[reducible] def Op.Res : Op → Type
  | .sys c => c.Res
  | .renameNoReplace _ _ _ => Except Errno Unit
  | .recv => Except StreamError TransferFrame
  | .contextErr => Option ContextError
  | .sendAndClose _ => Except StreamError Unit

/-- The file system, the frames the client has still to send before it closes the stream, and
the receipt it was sent. -/
structure World where
  fs : FS
  incoming : List TransferFrame
  receipt : Option TransferReceipt := none

/-- What the environment decides at one operation: what a system call does, whether the stream
is broken, and whether the context has ended. -/
structure Choice where
  fault : FileSystem.Fault := {}
  broken : Bool := false
  context : Option ContextError := none

/-- `renameat2` with `RENAME_NOREPLACE`: a name that is taken is never given up. -/
def renameNoReplace (dir : Nat) (old new : String) (x : FileSystem.Fault) (fs : FS) :
    Except Errno Unit × FS :=
  match x.errno, fs.lookup dir new with
  | some e, _ => (.error e, fs)
  | none, some _ => (.error .exist, fs)
  | none, none => fs.perform 0 (.rename dir old new)

def exec : (o : Op) → Choice → World → o.Res × World
  | .sys c, x, w => ((w.fs.exec c x.fault).1, { w with fs := (w.fs.exec c x.fault).2 })
  | .renameNoReplace dir old new, x, w =>
    ((renameNoReplace dir old new x.fault w.fs).1,
      { w with fs := (renameNoReplace dir old new x.fault w.fs).2 })
  | .recv, x, w =>
    match x.broken, w.incoming with
    | true, _ => (.error .broken, w)
    | false, [] => (.error .eof, w)
    | false, frame :: rest => (.ok frame, { w with incoming := rest })
  | .contextErr, x, w => (x.context, w)
  | .sendAndClose receipt, x, w =>
    match x.broken with
    | true => (.error .broken, w)
    | false => (.ok (), { w with receipt := some receipt })

/-! ## The server -/

/-- A pinned directory. Its descriptor is the number of its inode. -/
structure PinnedDirectory where
  path : String
  device : Nat
  inode : Nat
  closed : Bool

structure Server where
  inbox : PinnedDirectory
  «export» : PinnedDirectory
  maxFile : Nat
  maxTotal : Nat

/-- The limits that `New` gives a server, zero standing for the default. -/
def workspaceLimits (maxFileBytes maxWorkspaceBytes : Nat) : Except String (Nat × Nat) := do
  let maxFile := if maxFileBytes = 0 then defaultMaxFileBytes else maxFileBytes
  let maxTotal := if maxWorkspaceBytes = 0 then defaultMaxWorkspaceBytes else maxWorkspaceBytes
  failIf (maxFile = 0 ∨ maxTotal < maxFile) "workspace byte limits are invalid"
  return (maxFile, maxTotal)

/-- The variables of `ImportFile` that its deferred function reads. -/
structure Flags where
  keep : Bool := false
  published : Bool := false
  deriving DecidableEq

abbrev Import (α : Type) : Type := Method Op Op.Res ImportError Flags α

open Method (invoke check settle)

/-- A system call, with the error its failure is reported as. -/
def sys (c : Call) (e : ImportError) : Import c.Val := do
  let r ← invoke (Op.sys c)
  check (r.mapError fun _ => e)

def ignore (c : Call) : Import Unit := do
  let _ ← invoke (Op.sys c)
  return ()

/-- `lease`; opening `.` in a directory gives the directory again. -/
def PinnedDirectory.lease (d : PinnedDirectory) : Import Nat := do
  check (failIf d.closed inboxChanged)
  sys (.dup d.inode) inboxChanged

def PinnedDirectory.verifyPath (d : PinnedDirectory) : Import Unit := do
  let current ← sys (.openPath d.path) inboxChanged
  let identity ← invoke (Op.sys (.fstat current))
  ignore (.close current)
  let stat ← check (identity.mapError fun _ => inboxChanged)
  check (failIf (stat.dev ≠ d.device ∨ stat.ino ≠ d.inode) inboxChanged)

def descriptorHeader (descriptor : Option FileDescriptor) (maximum : Nat) :
    Except ImportError Header := do
  let header ← ofOption (transferFailure "TRANSFER_DESCRIPTOR_INVALID")
    (FileDescriptor.header? descriptor)
  (header.validate maximum).mapError fun _ => transferFailure "TRANSFER_DESCRIPTOR_INVALID"
  return header

def validOpaqueID (value : String) : Bool :=
  8 ≤ value.utf8ByteSize && value.utf8ByteSize ≤ 128 &&
    "transfer-".toList.isPrefixOf value.toList &&
    value.toList.all fun character =>
      ('a' ≤ character && character ≤ 'z') || ('0' ≤ character && character ≤ '9') ||
        character == '-'

/-- `Write` of an open file, which goes on after a write that took a part of the data. It has a
bound on the number of writes: each one takes at least a byte. -/
def writeFile (fd : Nat) (e : ImportError) : Nat → Bytes → Import Unit
  | _, [] => return ()
  | 0, _ :: _ => throw e
  | n + 1, byte :: data => do
      let written ← sys (.write fd (byte :: data)) e
      if written = 0 then throw e
      else writeFile fd e n ((byte :: data).drop written)

/-- `WriteChunk` of the receiver that writes to the staging file. -/
def writeChunk (fd : Nat) (r : Receiver) (offset : Nat) (data : Bytes) : Import Receiver := do
  let e := transferFailure "TRANSFER_CHUNK_INVALID"
  check ((r.admits offset data).mapError fun _ => e)
  writeFile fd e data.length data
  return r.wrote data

def checkContext : Import Unit := do
  let ended ← invoke Op.contextErr
  check (match ended with
    | some e => .error (workspaceContextError e)
    | none => .ok ())

/-- The next frame; a failure is reported as that of the context, if this has ended. -/
def recvFrame : Import TransferFrame := do
  let r ← invoke Op.recv
  match r with
  | .ok frame => return frame
  | .error _ => do
      checkContext
      throw transferIncomplete

def recvEnd : Import Unit := do
  let r ← invoke Op.recv
  match r with
  | .error .eof => return ()
  | _ => do
      checkContext
      throw (transferFailure "TRANSFER_TRAILING_FRAME")

/-- The loop over the frames after the first, with what is left of their number. -/
def receiveFrames (sha256 : Bytes → Digest) (header : Header) (fd : Nat) :
    Nat → Receiver → Nat → Nat → Import Unit
  | 0, _, _, _ => throw frameLimit
  | n + 1, receiver, sequence, offset => do
      checkContext
      let frame ← recvFrame
      match frame with
      | .chunk chunk => do
          check (failIf (chunk.sequence ≠ sequence) (transferFailure "TRANSFER_SEQUENCE_INVALID"))
          check (failIf (chunk.data.length = 0 ∨ chunk.data.length > defaultMaxChunk)
            (transferFailure "TRANSFER_CHUNK_INVALID"))
          let receiver ← writeChunk fd receiver offset chunk.data
          receiveFrames sha256 header fd n receiver (sequence + 1) (offset + chunk.data.length)
      | .ending e => do
          check (failIf (e.totalSize ≠ header.size ∨ !validHash e.digest header.sha256)
            (transferFailure "TRANSFER_END_INVALID"))
          recvEnd
          check ((receiver.finish sha256).mapError fun _ =>
            transferFailure "TRANSFER_DIGEST_MISMATCH")
      | _ => throw (transferFailure "TRANSFER_END_INVALID")

def partialName (begin : TransferBegin) : String := "." ++ begin.transferId ++ ".partial"

/-- `ImportFile` from the creation of the staging file on. -/
def receiveFile (sha256 : Bytes → Digest) (server : Server) (begin : TransferBegin)
    (header : Header) (inbox fd : Nat) : Import Unit := do
  let receiver ← check ((newReceiver header server.maxFile).mapError fun _ =>
    transferFailure "TRANSFER_DESCRIPTOR_INVALID")
  receiveFrames sha256 header fd (maxWorkspaceFrames - 1) receiver 0 0
  sys (.fsync fd) (transferFailure "TRANSFER_SYNC_FAILED")
  sys (.close fd) (transferFailure "TRANSFER_SYNC_FAILED")
  server.inbox.verifyPath
  let renamed ← invoke (Op.renameNoReplace inbox (partialName begin) header.name)
  check (renamed.mapError fun _ => targetExists)
  modify ({ · with published := true })
  sys (.fsync inbox) (transferFailure "TRANSFER_SYNC_FAILED")
  server.inbox.verifyPath
  let sent ← invoke (Op.sendAndClose
    ⟨begin.transferId, begin.descriptor, some (protoHash header.sha256)⟩)
  check (sent.mapError .stream)
  modify ({ · with keep := true })

def discard (begin : TransferBegin) (header : Header) (inbox fd : Nat) : Import Unit := do
  ignore (.close fd)
  let flags ← get
  if flags.keep then return ()
  else do
    ignore (.unlink inbox (if flags.published then header.name else partialName begin))
    ignore (.fsync inbox)

def importFile (sha256 : Bytes → Digest) (server : Server) : Import Unit := do
  let first ← invoke Op.recv
  match first with
  | .ok (.beginning begin) => do
      check (failIf (!validOpaqueID begin.transferId) transferIDInvalid)
      let header ← check (descriptorHeader begin.descriptor server.maxFile)
      let inbox ← server.inbox.lease
      let verified ← settle server.inbox.verifyPath
      match verified with
      | .error e => do
          ignore (.close inbox)
          throw e
      | .ok () => do
          let fd ← sys (.create inbox (partialName begin) 0o600) stagingConflict
          let result ← settle (receiveFile sha256 server begin header inbox fd)
          discard begin header inbox fd
          ignore (.close inbox)
          check result
  | _ => throw beginRequired

end PrivateVm.Workstation
