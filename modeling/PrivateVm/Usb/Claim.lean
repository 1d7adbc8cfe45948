import Mathlib.Data.List.AList
import PrivateVm.Basic.Threads
import PrivateVm.Usb.Enumerator

set_option autoImplicit false

/-! # Claims of USB devices (`claim.go`)

The claim manager has two tables, of claims by their identifier and of devices by their USBGuard
hash; a device whose claim is being acquired has the empty identifier. Every region in which the
manager holds its mutex is one operation, as is every call of the adapters, the end of the context,
and the lock of the mutex that each claim has. No identifier is drawn twice.
-/

namespace PrivateVm.Usb

open Checked Program Transfer

/-! ## The manager -/

/-- `Claim` as the table has it; `handle` is the number of the adapter's handle. -/
structure ClaimRecord where
  enrollmentID : String
  sessionID : String
  ownerUID : UInt32
  device : Device
  handle : Nat
  deriving DecidableEq

def ClaimRecord.hash (r : ClaimRecord) : String := r.device.identity.usbGuardHash

/-- What is left of an adapter's handle: whether its `Release` and its `AuditAbsent` have
succeeded. -/
structure Handle where
  hash : String
  released : Bool := false
  audited : Bool := false
  deriving DecidableEq

/-- An identifier that was drawn: by a thread that has not used it yet, or used. -/
inductive Draw where
  | fresh (t : Nat)
  | used
  deriving DecidableEq

/-- The tables of the manager, the mutexes of the claims, and the handles of the adapter. The last
three fields are about the threads: who drew an identifier, who acquires a device, and the handle
it has got. -/
structure Claims where
  claims : AList fun _ : String => ClaimRecord
  devices : String → Option String
  cleanupMu : String → Option Nat
  handles : Nat → Option Handle
  nextHandle : Nat
  drawn : String → Option Draw
  acquirer : String → Option Nat
  acquired : String → Option Nat

/-- `NewClaimManager` -/
def newClaimManager : Claims :=
  ⟨∅, fun _ => none, fun _ => none, fun _ => none, 0, fun _ => none, fun _ => none, fun _ => none⟩

/-! ## Operations -/

inductive ClaimOp where
  | snapshot
  | contextErr
  | randomClaimID
  | reserve (hash : String)
  | acquire (device : Device)
  | unreserve (hash : String)
  | release (handle : Nat)
  | auditAbsent (handle : Nat)
  | install (id : String) (record : ClaimRecord)
  | get (id : String)
  | lock (id : String)
  | unlock (id : String)
  | remove (id : String) (hash : String)
  | sessionClaims (sessionID : String) (ownerUID : UInt32)

/-- `acquire` answers with a handle or none, and with whether there is an error; `release` and
`auditAbsent` with whether they succeed. -/
@[reducible] def ClaimOp.Res : ClaimOp → Type
  | .snapshot => Option (List Device)
  | .contextErr | .reserve _ | .release _ | .auditAbsent _ => Bool
  | .randomClaimID => Option String
  | .acquire _ => Option Nat × Bool
  | .unreserve _ | .install _ _ | .lock _ | .unlock _ | .remove _ _ => Unit
  | .get _ => Option ClaimRecord
  | .sessionClaims _ _ => List String

/-- What the environment decides at one operation. -/
structure ClaimChoice where
  devices : Option (List Device) := none
  ended : Bool := false
  id : Option String := none
  gives : Bool := false
  fails : Bool := false

namespace Claims

/-- The adapter returns a new handle of a device. -/
def give (s : Claims) (hash : String) : Claims :=
  { s with
    handles := Function.update s.handles s.nextHandle (some { hash := hash })
    nextHandle := s.nextHandle + 1
    acquired := Function.update s.acquired hash (some s.nextHandle) }

def mark (s : Claims) (handle : Nat) (f : Handle → Handle) : Claims :=
  { s with handles := Function.update s.handles handle ((s.handles handle).map f) }

def settled (s : Claims) (hash : String) : Claims :=
  { s with
    acquirer := Function.update s.acquirer hash none
    acquired := Function.update s.acquired hash none }

def sessionIDs (s : Claims) (sessionID : String) (ownerUID : UInt32) : List String :=
  Keyed.sort id ((s.claims.entries.filter fun e =>
    e.2.sessionID == sessionID && e.2.ownerUID == ownerUID).map (·.1))

def exec (t : Nat) : (o : ClaimOp) → ClaimChoice → Claims → o.Res × Claims
  | .snapshot, x, s => (x.devices, s)
  | .contextErr, x, s => (x.ended, s)
  | .randomClaimID, x, s =>
    match x.id with
    | none => (none, s)
    | some id => (some id, { s with drawn := Function.update s.drawn id (some (.fresh t)) })
  | .reserve hash, _, s =>
    match s.devices hash with
    | some _ => (false, s)
    | none => (true, { s with
        devices := Function.update s.devices hash (some "")
        acquirer := Function.update s.acquirer hash (some t) })
  | .acquire device, x, s =>
    if x.gives then ((some s.nextHandle, x.fails), s.give device.identity.usbGuardHash)
    else ((none, x.fails), s)
  | .unreserve hash, _, s =>
    ((), { s with devices := Function.update s.devices hash none }.settled hash)
  | .release handle, x, s =>
    if x.fails then (false, s) else (true, s.mark handle ({ · with released := true }))
  | .auditAbsent handle, x, s =>
    if x.fails then (false, s) else (true, s.mark handle ({ · with audited := true }))
  | .install id record, _, s =>
    ((), { s with
      claims := s.claims.insert id record
      devices := Function.update s.devices record.hash (some id)
      drawn := Function.update s.drawn id (some .used) }.settled record.hash)
  | .get id, _, s => (s.claims.lookup id, s)
  | .lock id, _, s => ((), { s with cleanupMu := Function.update s.cleanupMu id (some t) })
  | .unlock id, _, s => ((), { s with cleanupMu := Function.update s.cleanupMu id none })
  | .remove id hash, _, s =>
    ((), { s with
      claims := s.claims.erase id
      devices := Function.update s.devices hash none })
  | .sessionClaims sessionID ownerUID, _, s => (s.sessionIDs sessionID ownerUID, s)

/-- A mutex that is held has to be waited for, and no identifier is drawn twice. -/
def enabled (_ : Nat) : ClaimOp → ClaimChoice → Claims → Bool
  | .lock id, _, s => (s.cleanupMu id).isNone
  | .randomClaimID, x, s =>
    match x.id with
    | none => true
    | some id => "usbclaim-".toList.isPrefixOf id.toList && (s.drawn id).isNone
  | _, _, _ => true

end Claims

/-! ## The methods -/

abbrev ClaimProg (α : Type) : Type := Prog ClaimOp ClaimOp.Res α

inductive ClaimError where
  | usb (e : UsbError)
  | context
  | new (text : String)
  deriving DecidableEq

open Prog (call)

def releaseAndAudit (handle : Nat) : ClaimProg Bool := do
  let released ← call (ClaimOp.release handle)
  if released then call (ClaimOp.auditAbsent handle) else return false

def claimMismatch (message : String) : ClaimError :=
  .usb ⟨.identityMismatch, message, "Reconnect the enrolled device and retry."⟩

def claimIncomplete (message : String) : ClaimError :=
  .usb ⟨.cleanupIncomplete, message, "Run session cleanup before reconnecting the device."⟩

/-- A claim that fails after the adapter has returned a handle: the handle is given back, or the
claim is retained for a later cleanup. -/
def abandonClaim (id : String) (record : ClaimRecord) (failed : ClaimError) (incomplete : String) :
    ClaimProg (Except ClaimError (String × ClaimRecord)) := do
  let clean ← releaseAndAudit record.handle
  if clean then do
    call (ClaimOp.unreserve record.hash)
    return .error failed
  else do
    call (ClaimOp.install id record)
    return .error (claimIncomplete incomplete)

/-- `Claim` once the device is reserved. -/
def acquireClaim (id : String) (record : Nat → ClaimRecord) (device : Device) :
    ClaimProg (Except ClaimError (String × ClaimRecord)) := do
  let acquired ← call (ClaimOp.acquire device)
  match acquired with
  | (some handle, true) =>
    abandonClaim id (record handle) (claimMismatch "The USB claim could not be established.")
      "A failed USB claim left incomplete cleanup."
  | (none, true) => do
      call (ClaimOp.unreserve device.identity.usbGuardHash)
      return .error (claimMismatch "The USB claim could not be established.")
  | (none, false) => do
      call (ClaimOp.unreserve device.identity.usbGuardHash)
      return .error (claimMismatch "The USB claim adapter returned no ownership handle.")
  | (some handle, false) => do
      let ended ← call ClaimOp.contextErr
      if ended then
        abandonClaim id (record handle) .context "USB claim cancellation left incomplete cleanup."
      else do
        call (ClaimOp.install id (record handle))
        return .ok (id, record handle)

def claim (sha256 : Bytes → Digest) (sessionID : String) (ownerUID : UInt32)
    (enrollment : Enrollment) : ClaimProg (Except ClaimError (String × ClaimRecord)) :=
  if sessionID = "" then return .error (.new "USB claim requires a session")
  else do
    let snapshot ← call ClaimOp.snapshot
    match resolveEnrollment sha256 enrollment snapshot with
    | .error e => return .error (.usb e)
    | .ok device => do
        let ended ← call ClaimOp.contextErr
        if ended then return .error .context
        else do
          let drawn ← call ClaimOp.randomClaimID
          match drawn with
          | none => return .error (.new "generate USB claim identifier")
          | some id => do
              let reserved ← call (ClaimOp.reserve device.identity.usbGuardHash)
              if reserved then
                acquireClaim id (⟨enrollment.enrollmentID, sessionID, ownerUID, device, ·⟩) device
              else
                return .error (.usb ⟨.claimConflict, "The enrolled USB is already claimed.",
                  "Finish or clean up the existing exporter session before retrying."⟩)

/-- `getOwned` on what the table has. -/
def ownedClaim (sessionID : String) (ownerUID : UInt32) :
    Option ClaimRecord → Except UsbError ClaimRecord
  | none => .error ⟨.notEnrolled, "The USB claim does not exist.",
      "Inspect the exporter session and claim the enrolled device again."⟩
  | some record =>
    if record.sessionID ≠ sessionID ∨ record.ownerUID ≠ ownerUID then
      .error ⟨.identityMismatch, "The USB claim is owned by a different session.",
        "Use the claim returned for this exporter session."⟩
    else .ok record

/-- `Release` while it holds the mutex of the claim. -/
def releaseLocked (id : String) (record : ClaimRecord) : ClaimProg (Except ClaimError Unit) := do
  let current ← call (ClaimOp.get id)
  match current with
  | none => return .ok ()
  | some _ => do
      let clean ← releaseAndAudit record.handle
      if clean then do
        call (ClaimOp.remove id record.hash)
        return .ok ()
      else
        return .error (.usb ⟨.cleanupIncomplete, "The USB claim could not be fully released.",
          "Retry session cleanup before disconnecting the device."⟩)

def release (id sessionID : String) (ownerUID : UInt32) : ClaimProg (Except ClaimError Unit) := do
  let found ← call (ClaimOp.get id)
  match ownedClaim sessionID ownerUID found with
  | .error e => if e.code = .notEnrolled then return .ok () else return .error (.usb e)
  | .ok record => do
      call (ClaimOp.lock id)
      let result ← releaseLocked id record
      call (ClaimOp.unlock id)
      return result

/-- The loop of `CleanupSession`, which stops at the first error. -/
def releaseEach (sessionID : String) (ownerUID : UInt32) :
    List String → ClaimProg (Except ClaimError Unit)
  | [] => return .ok ()
  | id :: ids => do
      let released ← release id sessionID ownerUID
      match released with
      | .error e => return .error e
      | .ok () => releaseEach sessionID ownerUID ids

def cleanupSession (sessionID : String) (ownerUID : UInt32) :
    ClaimProg (Except ClaimError Unit) := do
  let ids ← call (ClaimOp.sessionClaims sessionID ownerUID)
  releaseEach sessionID ownerUID ids

/-! ## Calls of many threads -/

inductive ClaimCall where
  | claim (sessionID : String) (ownerUID : UInt32) (enrollment : Enrollment)
  | release (id sessionID : String) (ownerUID : UInt32)
  | cleanupSession (sessionID : String) (ownerUID : UInt32)

def ClaimCall.body (sha256 : Bytes → Digest) : ClaimCall → ClaimProg Unit
  | .claim sessionID ownerUID enrollment => do
      let _ ← Usb.claim sha256 sessionID ownerUID enrollment
      return ()
  | .release id sessionID ownerUID => do
      let _ ← Usb.release id sessionID ownerUID
      return ()
  | .cleanupSession sessionID ownerUID => do
      let _ ← Usb.cleanupSession sessionID ownerUID
      return ()

/-- The claim manager with calls in any number of threads. -/
def claimPool (sha256 : Bytes → Digest) :
    Pool ClaimOp ClaimOp.Res ClaimChoice Claims ClaimCall where
  exec := Claims.exec
  enabled := Claims.enabled
  body _ c := c.body sha256

end PrivateVm.Usb
