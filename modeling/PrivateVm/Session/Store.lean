import PrivateVm.Basic.Action
import PrivateVm.Session.Codec

set_option autoImplicit false

/-! # The volatile store (`internal/session/store.go`)

The store keeps one directory for each session below a runtime root that it pins by device and
inode. The operations are written call by call, as actions that stop at the first error. Closing a
descriptor when a function returns is left out where its result is ignored. The store's lock makes
each operation atomic for the others.
-/

namespace PrivateVm.Session

open Decimal Checked FileSystem Program

/-! ## Names, modes and errors -/

def runtimeRootMode : Nat := 0o750
def sessionDirMode : Nat := 0o700
def metadataMode : Nat := 0o600
def controlSockMode : Nat := 0o660

def metadataName : String := "metadata.json"
def temporaryName : String := ".metadata.tmp"
def controlName : String := "control.sock"

def documentedSessionDirectories : List String :=
  ["qmp", "spice", "events", "secrets", "mount", "locks"]

/-- The name of a directory that is being removed. -/
def removingName (id : String) : String := ".removing-" ++ id

structure Store where
  root : String
  uid : Nat
  gid : Nat
  dev : Nat
  ino : Nat
  deriving DecidableEq

/-- An error of the store: its text, and the error of a system call that it wraps. -/
structure Failure where
  message : String
  errno : Option Errno
  deriving DecidableEq

namespace Failure

def new (message : String) : Failure := ⟨message, none⟩

/-- The error of a call as it is. -/
def bare (e : Errno) : Failure := ⟨e.text, some e⟩

/-- The error of a call behind what was being done. -/
def errorf (doing : String) (e : Errno) : Failure := ⟨doing ++ ": " ++ e.text, some e⟩

def wrap (doing : String) (f : Failure) : Failure := ⟨doing ++ ": " ++ f.message, f.errno⟩

def ofErr (e : Err) : Failure := ⟨e.message, none⟩

/-- `errors.Join` of two errors that may be absent. -/
def join : Option Failure → Option Failure → Option Failure
  | none, f => f
  | f, none => f
  | some f, some g => some ⟨f.message ++ "\n" ++ g.message, f.errno.or g.errno⟩

end Failure

open Failure (errorf)

def octal (mode : Nat) : String :=
  String.ofList ([mode / 512, mode / 64, mode / 8, mode].map fun n => Char.ofNat (48 + n % 8))

/-! ## Checks -/

def verifyOwnedDirectory (label : String) (stat : Stat) (uid gid mode : Nat) :
    Except Failure Unit := do
  failIf (stat.kind ≠ .directory) (.new (label ++ " is not a real directory"))
  failIf (stat.uid ≠ uid ∨ stat.gid ≠ gid)
    (.new (label ++ " owner or group does not match the daemon"))
  failIf (stat.mode ≠ mode) (.new (label ++ " mode must be exactly " ++ octal mode))

def verifyOwnedRegular (label : String) (stat : Stat) (uid gid mode : Nat) :
    Except Failure Unit := do
  failIf (stat.kind ≠ .regular ∨ stat.nlink ≠ 1)
    (.new (label ++ " is not a singly-linked regular file"))
  failIf (stat.uid ≠ uid ∨ stat.gid ≠ gid)
    (.new (label ++ " owner or group does not match the daemon"))
  failIf (stat.mode ≠ mode) (.new (label ++ " mode must be exactly " ++ octal mode))

def checkID (id : String) : Except Failure Unit := (validateID id).mapError .ofErr

/-! ## Opening -/

def openAbsoluteDirectory (path : String) : Action Failure Nat := do
  sys .openBase .bare
  sys (.openPath path) .bare

def readDirectoryNames (fd : Nat) : Action Failure (List String) := do
  let duplicate ← sys (.dup fd) .bare
  sys (.readdir duplicate) .bare

def setOwnedMode (fd uid gid mode : Nat) : Action Failure Unit := do
  sys (.fchown fd uid gid) .bare
  sys (.fchmod fd mode) .bare

namespace Store

variable (st : Store)

def openRoot : Action Failure Nat := do
  let fd ← mapError (.wrap "open runtime root") (openAbsoluteDirectory st.root)
  let stat ← sys (.fstat fd) (errorf "inspect runtime root")
  check (verifyOwnedDirectory "runtime root" stat st.uid st.gid runtimeRootMode)
  check (failIf (stat.dev ≠ st.dev ∨ stat.ino ≠ st.ino) (.new "runtime root identity changed"))
  return fd

def verifyRootPathIdentity : Action Failure Unit := do
  let fd ← st.openRoot
  sys (.close fd) .bare

def verifySessionFD (fd : Nat) : Action Failure Unit := do
  let stat ← sys (.fstat fd) (errorf "inspect volatile session directory")
  check (verifyOwnedDirectory "volatile session directory" stat st.uid st.gid sessionDirMode)

def openSession (rootFD : Nat) (id : String) : Action Failure Nat := do
  check (checkID id)
  let fd ← sys (.openDirectory rootFD id) (errorf "open volatile session directory")
  st.verifySessionFD fd
  return fd

variable (sessionFD : Nat)

def verifySessionEntry (allowTemp allowResourceDirectories : Bool)
    (name : String) : Action Failure Unit :=
  if documentedSessionDirectories.contains name && allowResourceDirectories then do
    let stat ← sys (.fstatat sessionFD name)
      (errorf "inspect volatile session resource directory")
    check (verifyOwnedDirectory "volatile session resource directory" stat st.uid st.gid
      sessionDirMode)
  else if name != metadataName && !(allowTemp && name == temporaryName) then
    throw (.new ("unexpected path in volatile session directory: " ++ name))
  else do
    let stat ← sys (.fstatat sessionFD name) (errorf "inspect volatile session record")
    check (verifyOwnedRegular "volatile session record" stat st.uid st.gid metadataMode)

def verifySessionEntries
    (allowTemp allowResourceDirectories : Bool) : Action Failure (List String) := do
  let entries ← mapError (.wrap "read volatile session directory") (readDirectoryNames sessionFD)
  each (st.verifySessionEntry sessionFD allowTemp allowResourceDirectories) entries
  return entries.insertionSort (· ≤ ·)

/-! ## Writing a record -/

/-- `writeAll`, with a bound on the number of writes: each one takes at least a byte. -/
def writeLoop (fd : Nat) : Nat → Bytes → Action Failure Unit
  | _, [] => return ()
  | 0, _ :: _ => throw (.new "short write")
  | n + 1, data => do
      let written ← sys (.write fd data) .bare
      if written = 0 then throw (.new "short write")
      else writeLoop fd n (data.drop written)

def writeAll (fd : Nat) (data : Bytes) : Action Failure Unit := writeLoop fd data.length data

/-- The removal of a temporary file that an earlier write left. -/
def removeIncomplete (name : String) : Action Failure Unit :=
  if name = temporaryName then
    sys (.unlink sessionFD name) (errorf "remove incomplete volatile session record")
  else return ()

/-- `saveAt` from the creation of the temporary file to its renaming. -/
def stage (sessionFD fd : Nat) (data : Bytes) : Action Failure Unit := do
  mapError (.wrap "secure volatile session record") (setOwnedMode fd st.uid st.gid metadataMode)
  mapError (.wrap "write volatile session record") (writeAll fd data)
  sys (.fsync fd) (errorf "sync volatile session record")
  sys (.close fd) (errorf "close volatile session record")
  st.verifyRootPathIdentity
  sys (.rename sessionFD temporaryName metadataName) (errorf "install volatile session record")

def saveAt (data : Bytes) : Action Failure Unit := do
  st.verifySessionFD sessionFD
  let entries ← st.verifySessionEntries sessionFD true true
  each (removeIncomplete sessionFD) entries
  let fd ← sys (.create sessionFD temporaryName metadataMode)
    (errorf "create volatile session record")
  -- a failure before the rename removes the temporary file
  onError (st.stage sessionFD fd data) fun e => do
    ignore (.unlink sessionFD temporaryName)
    return e
  sys (.fsync sessionFD) (errorf "sync volatile session directory")
  st.verifyRootPathIdentity

def save (snapshot : Snapshot) : Action Failure Unit := do
  let data ← check ((encodeSnapshot snapshot).mapError .ofErr)
  let rootFD ← st.openRoot
  let sessionFD ← st.openSession rootFD snapshot.id
  st.saveAt sessionFD data

/-! ## Creating a directory -/

/-- `rollbackSessionCreate`: its error, if any. -/
def rollbackSessionCreate (rootFD : Nat) (id : String) :
    Prog Call Call.Res (Option Failure) := do
  let opened ← attempt (.openDirectory rootFD id)
  match opened with
  | .ok sessionFD =>
    ignore (.unlink sessionFD temporaryName)
    ignore (.unlink sessionFD metadataName)
  | .error _ => pure ()
  let removed ← attempt (.rmdir rootFD id)
  let synced ← attempt (.fsync rootFD)
  let removeErr := match removed with
    | .ok () | .error .noent => none
    | .error e => some (Failure.bare e)
  let syncErr := match synced with
    | .ok () => none
    | .error e => some (Failure.bare e)
  return Failure.join removeErr syncErr

/-- `Create` after the directory was made. -/
def populate (rootFD : Nat) (id : String) (data : Bytes) : Action Failure Unit := do
  let sessionFD ← sys (.openDirectory rootFD id) (errorf "open new volatile session directory")
  mapError (.wrap "secure volatile session directory")
    (setOwnedMode sessionFD st.uid st.gid sessionDirMode)
  st.saveAt sessionFD data
  sys (.close sessionFD) (errorf "close volatile session directory")
  sys (.fsync rootFD) (errorf "sync runtime root")
  st.verifyRootPathIdentity

def create (snapshot : Snapshot) : Action Failure Unit := do
  let data ← check ((encodeSnapshot snapshot).mapError .ofErr)
  let rootFD ← st.openRoot
  sys (.mkdir rootFD snapshot.id sessionDirMode) (errorf "create volatile session directory")
  onError (st.populate rootFD snapshot.id data) fun e => do
    let undone ← rollbackSessionCreate rootFD snapshot.id
    return (Failure.join (some e) (undone.map (.wrap "roll back volatile session creation"))).getD e

/-! ## Reading records -/

/-- `openRegularAt` for a record. -/
def openRecord : Action Failure Nat := do
  let fd ← sys (.openFile sessionFD metadataName) .bare
  let stat ← sys (.fstat fd) .bare
  check (verifyOwnedRegular "volatile session record" stat st.uid st.gid metadataMode)
  return fd

def loadAt (rootFD : Nat) (id : String) : Action Failure Snapshot := do
  let sessionFD ← st.openSession rootFD id
  let entries ← st.verifySessionEntries sessionFD false true
  check (failIf (!entries.contains metadataName)
    (.new "volatile session directory does not contain metadata.json"))
  let fd ← mapError (.wrap "open volatile session record") (st.openRecord sessionFD)
  let info ← sys (.fstat fd) (errorf "inspect volatile session record")
  check (failIf (info.size < 1 ∨ info.size > maxMetadataSize)
    (.new "volatile session record size is outside the allowed range"))
  let data ← sys (.read fd (maxMetadataSize + 1)) (errorf "read volatile session record")
  check (failIf (data.length > maxMetadataSize) (.new "volatile session record exceeds 1 MiB"))
  check ((decodeSnapshot data id).mapError fun e =>
    (Failure.ofErr e).wrap "decode volatile session record")

def load (id : String) : Action Failure Snapshot := do
  check (checkID id)
  let rootFD ← st.openRoot
  let snapshot ← st.loadAt rootFD id
  st.verifyRootPathIdentity
  return snapshot

def verifyControlSocket (rootFD controlGID : Nat) : Action Failure Unit := do
  let stat ← sys (.fstatat rootFD controlName) (errorf "inspect daemon control socket")
  check (failIf (stat.kind ≠ .socket ∨ stat.uid ≠ st.uid ∨ stat.gid ≠ controlGID ∨
      stat.mode ≠ controlSockMode)
    (.new "daemon control socket has an unsafe type, owner, group, or mode"))

def verifyRootEntry (rootFD controlGID : Nat) (name : String) : Action Failure Unit :=
  if name = controlName then st.verifyControlSocket rootFD controlGID
  else do
    check ((checkID name).mapError fun _ =>
      .new ("unexpected path in volatile session root: " ++ name))
    let _ ← mapError (.wrap ("validate volatile session " ++ name)) (st.loadAt rootFD name)
    return ()

def listIDs (controlGID : Nat) : Action Failure (List String) := do
  let rootFD ← st.openRoot
  let entries ← mapError (.wrap "list volatile session root") (readDirectoryNames rootFD)
  each (st.verifyRootEntry rootFD controlGID) entries
  st.verifyRootPathIdentity
  return (entries.filter fun name => name != controlName).insertionSort (· ≤ ·)

/-! ## Removing a directory -/

def ensureMissingAt (parentFD : Nat) (name : String) : Action Failure Unit :=
  ExceptT.mk do
    let r ← attempt (.fstatat parentFD name)
    match r with
    | .error .noent => return .ok ()
    | .error e => return .error (errorf "inspect removal staging path" e)
    | .ok _ => return .error (.new "volatile session removal staging path already exists")

/-- A name that is already gone is no error. -/
def removeEntry (name : String) : Action Failure Unit :=
  ExceptT.mk do
    let r ← attempt (.unlink sessionFD name)
    match r with
    | .ok () | .error .noent => return .ok ()
    | .error e => return .error (errorf "remove volatile session record" e)

/-- `Remove` while the directory has its other name. -/
def dismantle (rootFD sessionFD : Nat) (id : String) (entries : List String) :
    Action Failure Unit := do
  sys (.fsync rootFD) (errorf "sync runtime root after session isolation")
  st.verifyRootPathIdentity
  each (removeEntry sessionFD) entries
  sys (.rmdir rootFD (removingName id)) (errorf "remove volatile session directory")

/-- `Remove` of a directory that was opened. -/
def removeSession (rootFD sessionFD : Nat) (id : String) : Action Failure Unit := do
  let entries ← st.verifySessionEntries sessionFD true false
  ensureMissingAt rootFD (removingName id)
  sys (.rename rootFD id (removingName id))
    (errorf "isolate volatile session directory for removal")
  -- a failure before the directory is gone gives it its name back
  onError (st.dismantle rootFD sessionFD id entries) fun e => do
    ignore (.rename rootFD (removingName id) id)
    ignore (.fsync rootFD)
    return e
  sys (.fsync rootFD) (errorf "sync runtime root after session removal")
  st.verifyRootPathIdentity

def remove (id : String) : Action Failure Unit := do
  check (checkID id)
  let rootFD ← st.openRoot
  ExceptT.mk do
    let opened ← (st.openSession rootFD id).run
    match opened with
    | .error e => if e.errno = some .noent then return .ok () else return .error e
    | .ok sessionFD => (st.removeSession rootFD sessionFD id).run

end Store

end PrivateVm.Session
