import PrivateVm.Scanner.VirtualMachine
import PrivateVm.Session.Model

set_option autoImplicit false

/-! # The allocations of a scanner

`ProductionScannerRuntime` gives the session three allocations: the storage of the scanner with the
lease of the quarantine, the VM that updates the definitions, and the offline VM. An allocation
returns a cleanup and an audit function, which the session registers, or an error after a roll-back
of what it had.
-/

namespace PrivateVm.Scanner

open Checked Program Session

open Method (invoke check)

/-! ## What is held -/

structure World where
  lease : Bool := false
  storage : Bool := false
  /-- The state of the scanner is in the map. -/
  registered : Bool := false
  resource : Resource := {}
  held : Held := Held.nothing

structure World.Empty (w : World) : Prop where
  lease : w.lease = false
  storage : w.storage = false
  held : w.held = Held.nothing

/-! ## Calls -/

structure RuntimeImage where
  imagePath : String
  manifestDigest : String
  imageDigest : String
  sourceCommit : String
  virtualSizeBytes : Nat
  deriving DecidableEq

inductive Request where
  | selectImage
  | sourceState
  | sourceResources
  | auditSource
  | leasesQuarantine
  | acquireQuarantine
  | sourceUnchanged
  | allocateStorage
  | registerState
  | cleanupStorage
  | release
  | forget
  | statePresent
  | auditStorage
  | auditLease
  | scannerState
  | prepareUpdate
  | auditUpdate
  | start (mode : ScannerMode)
  | registerVm (mode : ScannerMode)
  | stopVm
  | auditVm
  deriving DecidableEq

/-- A Boolean answers the question that the name puts; `registerState` and `registerVm` say
whether the place is taken. -/
@[reducible] def Request.Res : Request → Type
  | .selectImage => RuntimeImage × Option Fault
  | .sourceState | .sourceResources | .leasesQuarantine | .sourceUnchanged => Bool
  | .registerState | .statePresent | .scannerState | .registerVm _ => Bool
  | .allocateStorage => Bool × Option Fault
  | .prepareUpdate => Errors
  | .start _ => Except Failure (Bool × Errors)
  | .stopVm | .auditVm => Except Failure Unit
  | .auditSource | .acquireQuarantine | .cleanupStorage | .release | .forget => Option Fault
  | .auditStorage | .auditLease | .auditUpdate => Option Fault

/-- What the other side answers, and what is answered below a VM. -/
structure Choice where
  answer : (o : Request) → o.Res
  inner : Nat → Answer

/-- Something that is held is given back if the call succeeds; an audit of it fails. -/
def serve (o : Request) (x : Choice) (w : World) : o.Res × World :=
  match o with
  | .acquireQuarantine =>
    (x.answer .acquireQuarantine, { w with lease := (x.answer .acquireQuarantine).isNone })
  | .allocateStorage =>
    (x.answer .allocateStorage, { w with storage := (x.answer .allocateStorage).1 })
  | .registerState =>
    (x.answer .registerState, { w with registered := !x.answer .registerState })
  | .cleanupStorage =>
    if w.storage then
      (x.answer .cleanupStorage, { w with storage := (x.answer .cleanupStorage).isSome })
    else (none, w)
  | .release =>
    if w.lease then (x.answer .release, { w with lease := (x.answer .release).isSome })
    else (none, w)
  | .forget => (x.answer .forget, { w with registered := false })
  | .statePresent => (w.registered || x.answer .statePresent, w)
  | .auditStorage =>
    (if w.storage then some ⟨"outer session storage remains active"⟩ else x.answer .auditStorage, w)
  | .auditLease =>
    (if w.lease then some ⟨"host role storage unavailable"⟩ else x.answer .auditLease, w)
  | .start mode =>
    let out := (startScanner mode).outcome exec x.inner {} w.held
    (out.1.1, { w with resource := out.1.2, held := out.2 })
  | .stopVm =>
    let out := stop.outcome exec x.inner w.resource w.held
    (out.1.1, { w with resource := out.1.2, held := out.2 })
  | .auditVm =>
    let out := audit.outcome exec x.inner w.resource w.held
    (out.1.1, { w with resource := out.1.2, held := out.2 })
  | o => (x.answer o, w)

/-! ## The allocations -/

/-- What an allocation does: it returns, with or without the two functions, or it panics. -/
inductive Outcome where
  | returned (functions : Bool) (errors : Errors)
  | panicked
  deriving DecidableEq

/-- An error is returned without functions. -/
abbrev Allocator (α : Type) : Type := Method Request Request.Res Errors Unit α

def validScannerImage (selected : RuntimeImage) (rootBytes : Nat) : Bool :=
  selected.imagePath ≠ "" && selected.manifestDigest ≠ "" && selected.imageDigest ≠ "" &&
    selected.sourceCommit ≠ "" && selected.virtualSizeBytes ≠ 0 &&
    rootBytes ≤ selected.virtualSizeBytes

/-- A lease that cannot be used any more is released, whatever that returns. -/
def acquireSealedQuarantine (source : Snapshot) : Allocator Unit := do
  check (failIf (source.role ≠ .downloader ∨ source.phase ≠ .active ∨
    source.workflowState ≠ "QUARANTINE_SEALED") [.hostStorageUnavailable])
  let found ← invoke Request.sourceState
  check (failIf (found = false) [.hostStorageUnavailable])
  let resources ← invoke Request.sourceResources
  check (failIf (resources = false) [.hostRuntimeUnavailable])
  let audited ← invoke Request.auditSource
  check (failIf (audited.isSome = true) [.hostRuntimeUnavailable])
  let leases ← invoke Request.leasesQuarantine
  check (failIf (leases = false) [.hostStorageUnavailable])
  let failed ← invoke Request.acquireQuarantine
  check (failIf (failed.isSome = true) (.hostStorageUnavailable :: Errors.ofFault failed))
  let unchanged ← invoke Request.sourceUnchanged
  if unchanged then return ()
  else do
    let _ ← invoke Request.release
    throw [.hostStorageUnavailable]

def storageAllocation (source : Snapshot) (rootBytes : Nat) : Allocator Outcome := do
  let selected ← invoke Request.selectImage
  check (failIf (selected.2.isSome = true ∨ validScannerImage selected.1 rootBytes = false)
    (.hostImageUnavailable :: Errors.ofFault selected.2))
  acquireSealedQuarantine source
  let storage ← invoke Request.allocateStorage
  if storage.1 then do
    let occupied ← invoke Request.registerState
    if occupied then do
      let cleanupErr ← invoke Request.cleanupStorage
      let releaseErr ← invoke Request.release
      throw (.scannerRuntimeUnavailable :: Errors.ofFault storage.2 ++
        Errors.ofFault cleanupErr ++ Errors.ofFault releaseErr)
    else return .returned true (Errors.ofFault storage.2)
  else do
    let releaseErr ← invoke Request.release
    throw (.hostStorageUnavailable :: Errors.ofFault storage.2 ++ Errors.ofFault releaseErr)

/-- What has to be there before a VM is started. -/
def beforeStart : ScannerMode → Allocator Unit
  | .update => do
      let es ← invoke Request.prepareUpdate
      check (failIf (es ≠ []) es)
  | .scan => do
      let audited ← invoke Request.auditUpdate
      check (failIf (audited.isSome = true) [.scannerIsolationInvalid])

/-- A VM that cannot be registered is stopped. -/
def registerStarted (mode : ScannerMode) (startErr : Errors) : Allocator Outcome := do
  let occupied ← invoke (Request.registerVm mode)
  if occupied then do
    let stopped ← invoke Request.stopVm
    match stopped with
    | .ok () => throw (.scannerRuntimeUnavailable :: startErr)
    | .error (.errors es) => throw (.scannerRuntimeUnavailable :: startErr ++ es)
    | .error .nilDereference => return .panicked
  else return .returned true startErr

def vmAllocation (mode : ScannerMode) : Allocator Outcome := do
  let found ← invoke Request.scannerState
  check (failIf (found = false) [.scannerRuntimeUnavailable])
  beforeStart mode
  let started ← invoke (Request.start mode)
  match started with
  | .error _ => return .panicked
  | .ok (false, startErr) => throw (.scannerRuntimeUnavailable :: startErr)
  | .ok (true, startErr) => registerStarted mode startErr

inductive Allocation where
  | storage (source : Snapshot) (rootBytes : Nat)
  | vm (mode : ScannerMode)
  deriving DecidableEq

def Allocation.body : Allocation → Allocator Outcome
  | .storage source rootBytes => storageAllocation source rootBytes
  | .vm mode => vmAllocation mode

def Outcome.ofResult : Except Errors Outcome → Outcome
  | .ok outcome => outcome
  | .error es => .returned false es

/-- The outcome of an allocation, and what is held then of what it has obtained. -/
def Allocation.run (a : Allocation) (xs : Nat → Choice) : Outcome × World :=
  let out := a.body.outcome serve xs () {}
  (.ofResult out.1.1, out.2)

/-! ## The functions that are returned -/

def Allocation.cleanup : Allocation → Allocator Unit
  | .storage _ _ => do
      let cleanupErr ← invoke Request.cleanupStorage
      check (failIf (cleanupErr.isSome = true) (Errors.ofFault cleanupErr))
      let releaseErr ← invoke Request.release
      check (failIf (releaseErr.isSome = true) (Errors.ofFault releaseErr))
      let _ ← invoke Request.forget
      return ()
  | .vm _ => do
      let stopped ← invoke Request.stopVm
      check (stopped.mapError fun
        | .errors es => es
        | .nilDereference => [])

def Allocation.audit : Allocation → Allocator Unit
  | .storage _ _ => do
      let present ← invoke Request.statePresent
      check (failIf (present = true) [.scannerRuntimeUnavailable])
      let storage ← invoke Request.auditStorage
      let lease ← invoke Request.auditLease
      check (failIf (storage.isSome = true ∨ lease.isSome = true)
        (Errors.ofFault storage ++ Errors.ofFault lease))
  | .vm _ => do
      let audited ← invoke Request.auditVm
      check (audited.mapError fun
        | .errors es => es
        | .nilDereference => [])

end PrivateVm.Scanner
