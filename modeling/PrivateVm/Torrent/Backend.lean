import PrivateVm.Torrent.Model
import PrivateVm.Basic.Method
import Mathlib.Data.Finset.Lattice.Lemmas
import Mathlib.Data.Finset.SDiff

set_option autoImplicit false

/-! # The torrent client and the other parties (`internal/torrent/controller.go`, `qbittorrent.go`)

The operations a `Controller` calls out for. An operation may fail before, after or part-way
through taking effect, so an `Answer` also says what a failed one has left behind. The history of
all calls, newest first, is the state outside the controller; what is true of the client is read
off it. `QBitBackend.SetSelection` makes its selection with two requests, so that a failed one may
leave fewer files enabled than either selection has.
-/

namespace PrivateVm.Torrent

open Program

/-! ## Operations -/

inductive ClientState where
  | metadata
  | paused
  | running
  | complete
  | error
  deriving DecidableEq

structure ClientStatus where
  state : ClientState
  completedBytes : UInt64
  totalBytes : UInt64
  deriving DecidableEq

inductive Op where
  | addPaused
  | metadata (handle : Handle)
  | setSelection (handle : Handle) (selected : List UInt32) (fileCount : UInt32)
  | start (handle : Handle)
  | pause (handle : Handle)
  | status (handle : Handle)
  | verifyCompleted (handle : Handle) (metadata : Metadata)
  | shutdown
  | capacityBytes
  | syncAndUnmount
  | wait
  | destroyAndAudit

/-- What an operation returns when it does not fail. -/
abbrev Op.Val : Op → Type
  | .addPaused => Handle
  | .metadata _ => RawMetadata
  | .status _ => ClientStatus
  | .verifyCompleted _ _ => List FileDigest
  | .capacityBytes => UInt64
  | .setSelection _ _ _ | .start _ | .pause _ | .shutdown | .syncAndUnmount | .wait
  | .destroyAndAudit => Unit

abbrev Op.Res (o : Op) : Type := Except Fault o.Val

/-! ## Answers -/

/-- How the other side answers one call. `enabled` are the files enabled after the torrent was
added or a selection failed, `tookEffect` says whether a failed shutdown has ended the client. -/
structure Answer where
  fault : Option Fault
  handle : Handle
  raw : RawMetadata
  status : ClientStatus
  files : List FileDigest
  bytes : UInt64
  enabled : Finset UInt32
  tookEffect : Bool

def Answer.result {α : Type} (x : Answer) (value : α) : Except Fault α :=
  match x.fault with
  | none => .ok value
  | some fault => .error fault

def Op.answer : (o : Op) → Answer → o.Res
  | .addPaused, x => x.result x.handle
  | .metadata _, x => x.result x.raw
  | .status _, x => x.result x.status
  | .verifyCompleted _ _, x => x.result x.files
  | .capacityBytes, x => x.result x.bytes
  | .setSelection _ _ _, x | .start _, x | .pause _, x | .shutdown, x | .syncAndUnmount, x
  | .wait, x | .destroyAndAudit, x => x.result ()

/-- A call in the history, with its result and what it has left behind. -/
inductive Entry where
  | addPaused (result : Except Fault Handle) (enabled : Finset UInt32)
  | metadata (result : Except Fault RawMetadata)
  | setSelection (selected : List UInt32) (result : Except Fault Unit) (enabled : Finset UInt32)
  | start (result : Except Fault Unit)
  | pause (result : Except Fault Unit)
  | status (result : Except Fault ClientStatus)
  | verifyCompleted (metadata : Metadata) (result : Except Fault (List FileDigest))
  | shutdown (result : Except Fault Unit) (tookEffect : Bool)
  | capacityBytes (result : Except Fault UInt64)
  | syncAndUnmount (result : Except Fault Unit)
  | wait (result : Except Fault Unit)
  | destroyAndAudit (result : Except Fault Unit)
  deriving DecidableEq

/-- A selection that succeeds enables exactly the files selected; a shutdown that succeeds ends
the client. -/
def Op.entry : Op → Answer → Entry
  | .addPaused, x => .addPaused (x.result x.handle) x.enabled
  | .metadata _, x => .metadata (x.result x.raw)
  | .setSelection _ selected _, x =>
    .setSelection selected (x.result ()) (if x.fault = none then selected.toFinset else x.enabled)
  | .start _, x => .start (x.result ())
  | .pause _, x => .pause (x.result ())
  | .status _, x => .status (x.result x.status)
  | .verifyCompleted _ expected, x => .verifyCompleted expected (x.result x.files)
  | .shutdown, x => .shutdown (x.result ()) (x.fault = none || x.tookEffect)
  | .capacityBytes, x => .capacityBytes (x.result x.bytes)
  | .syncAndUnmount, x => .syncAndUnmount (x.result ())
  | .wait, x => .wait (x.result ())
  | .destroyAndAudit, x => .destroyAndAudit (x.result ())

def exec (o : Op) (x : Answer) (log : List Entry) : o.Res × List Entry :=
  (o.answer x, o.entry x :: log)

/-! ## Reading the history -/

def enabledOf : List Entry → Finset UInt32
  | [] => ∅
  | .addPaused _ enabled :: _ => enabled
  | .setSelection _ _ enabled :: _ => enabled
  | _ :: log => enabledOf log

def plannedOf : List Entry → List UInt32
  | [] => []
  | .setSelection selected (.ok ()) _ :: _ => selected
  | _ :: log => plannedOf log

/-- The client has confirmed a pause or a shutdown since it was last told to start. -/
def stopped : List Entry → Bool
  | [] => true
  | .pause (.ok ()) :: _ => true
  | .shutdown (.ok ()) _ :: _ => true
  | .start _ :: _ => false
  | _ :: log => stopped log

def Entry.isBackend : Entry → Bool
  | .capacityBytes _ | .syncAndUnmount _ | .wait _ | .destroyAndAudit _ => false
  | _ => true

def shutDown (log : List Entry) : Bool :=
  log.any fun
    | .shutdown (.ok ()) _ => true
    | _ => false

/-- The client has ended, whether or not the shutdown that ended it returned an error. -/
def gone (log : List Entry) : Bool :=
  log.any fun
    | .shutdown _ tookEffect => tookEffect
    | _ => false

/-! ## The two requests of a selection -/

/-- How a request to the client ends: it is answered, or it fails, perhaps after it took
effect. -/
inductive Request where
  | answered
  | failed (fault : Fault) (tookEffect : Bool)

/-- A request that changes which files are enabled: what the client is taken to do with it, as
the code of its service is not part of the repository. -/
def Request.send (request : Request) (change : Finset UInt32 → Finset UInt32)
    (enabled : Finset UInt32) : Except Fault Unit × Finset UInt32 :=
  match request with
  | .answered => (.ok (), change enabled)
  | .failed fault tookEffect => (.error fault, if tookEffect then change enabled else enabled)

def allIndexes (fileCount : UInt32) : Finset UInt32 :=
  ((List.range fileCount.toNat).map UInt32.ofNat).toFinset

/-- `QBitBackend.SetSelection`: the first request disables all files, the second enables those
selected. -/
def qbitSetSelection (handle : Handle) (selected : List UInt32) (fileCount : UInt32)
    (first second : Request) (enabled : Finset UInt32) : Except Fault Unit × Finset UInt32 :=
  if ¬ handle.valid ∨ fileCount = 0 ∨ fileCount.toNat > maximumFiles ∨
      selected.length > fileCount.toNat then
    (.error .other, enabled)
  else
    match first.send (· \ allIndexes fileCount) enabled with
    | (.error fault, enabled) => (.error fault, enabled)
    | (.ok (), enabled) =>
      if selected = [] then (.ok (), enabled)
      else if selected.any (fileCount ≤ ·) ∨ ¬ selected.Nodup then (.error .other, enabled)
      else second.send (· ∪ selected.toFinset) enabled

end PrivateVm.Torrent
