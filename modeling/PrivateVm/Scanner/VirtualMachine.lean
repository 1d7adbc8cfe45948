import PrivateVm.Basic.Checked
import PrivateVm.Basic.Method

set_option autoImplicit false

/-! # The virtual machine of a scanner

`RuntimeStack.StartScanner` collects what a scanner VM needs one thing after the other. When a step
fails, `Stop` gives back what is there, and if that fails too the resource is returned with the
error. With a network the process is started and stopped by a `NetworkedRuntime`. What is held is
the state outside; giving back a thing that is not held succeeds.
-/

namespace PrivateVm.Scanner

open Checked Program

structure Fault where
  text : String
  deriving DecidableEq

inductive Problem where
  | scannerRuntimeUnavailable
  | scannerIsolationInvalid
  | hostImageUnavailable
  | hostStorageUnavailable
  | hostRuntimeUnavailable
  | networkedStart
  | networkedCleanup
  | networkedNotVerified
  | contextEnded
  | fault (f : Fault)
  deriving DecidableEq

/-- An error, as the errors that `errors.Join` has joined; without any it is nil. -/
abbrev Errors : Type := List Problem

def Errors.ofFault : Option Fault → Errors
  | none => []
  | some f => [.fault f]

/-! ## What is held -/

inductive Thing where
  | cid
  | network
  | directories
  | images
  | process
  | guest
  | connection
  deriving DecidableEq

abbrev Held : Type := Thing → Bool

def Held.nothing : Held := fun _ => false

def Held.set (h : Held) (t : Thing) (b : Bool) : Held := fun t' => if t' = t then b else h t'

@[simp] theorem Held.set_self (h : Held) (t : Thing) (b : Bool) : h.set t b t = b := if_pos rfl

theorem Held.set_of_ne (h : Held) {t t'} (b : Bool) (hne : t' ≠ t) : h.set t b t' = h t' :=
  if_neg hne

theorem Held.set_eq (h : Held) (t : Thing) : h.set t (h t) = h := by
  funext t'
  by_cases ht : t' = t
  · rw [ht, Held.set_self]
  · rw [Held.set_of_ne h _ ht]

/-- The calls that obtain and give back nothing. -/
inductive Check where
  | resolution
  | newToken
  | specification
  | startRequest
  | startContext
  | underlay
  | dupCapability
  | enterTap
  | leaveTap
  | guestHandshake
  | configureVPN
  | verifyVPN
  | verifyEgress
  | shutdown
  | scannerClient
  | newRequestID
  | handshake
  | audit
  deriving DecidableEq

/-- What `QEMUAdapter.Launch` returns: without a launcher no process at all, and when the
launcher fails its nil pointer inside the interface. -/
inductive Launched where
  | started
  | unavailable
  | failed (f : Fault)
  deriving DecidableEq

inductive Op where
  | check (c : Check)
  | obtain (t : Thing)
  | launch
  | giveBack (t : Thing)
  | wait
  deriving DecidableEq

/-- `wait` returns whether the process has exited before the deadline. -/
@[reducible] def Op.Res : Op → Type
  | .check _ => Option Fault
  | .obtain _ => Option Fault
  | .launch => Launched
  | .giveBack _ => Option Fault
  | .wait => Bool

abbrev Answer : Type := (o : Op) → o.Res

/-- What a call answers whatever the other side would say. -/
def Op.settled : (o : Op) → Held → Option o.Res
  | .giveBack t, h => if h t then none else some none
  | .wait, h => if h .process then none else some true
  | _, _ => none

def Held.after (h : Held) : (o : Op) → o.Res → Held
  | .obtain t, none => h.set t true
  | .launch, .started => h.set .process true
  | .giveBack t, none => h.set t false
  | .wait, true => h.set .process false
  | _, _ => h

def exec (o : Op) (x : Answer) (h : Held) : o.Res × Held :=
  let r := (o.settled h).getD (x o)
  (r, h.after o r)

/-! ## The resource -/

inductive ManagedProcess where
  | none
  | nilPointer
  | process
  deriving DecidableEq

def Launched.managed : Launched → ManagedProcess
  | .started => .process
  | .unavailable => .none
  | .failed _ => .nilPointer

def Launched.errors : Launched → Errors
  | .started => []
  | .unavailable => [.networkedStart]
  | .failed f => [.fault f]

/-- The fields of `NetworkedRuntime` that its start and its stop use. -/
structure NetworkedRuntime where
  process : Bool := false
  guest : Bool := false
  processStopped : Bool := false
  guestClosed : Bool := false
  capDestroyed : Bool := false
  networkCleaned : Bool := false
  cleanupErr : Bool := false
  deriving DecidableEq

/-- The fields of `scannerVMResource`. `has` says which of `connection`, `images`, `network`,
`cidOwned` and `directories` are set, `gone` is `connectionGone` and so on. `runtime` is what
`StartNetworked` makes, and `networked` whether the resource has it. -/
structure Resource where
  has : Thing → Bool := fun _ => false
  gone : Thing → Bool := fun _ => false
  capability : Bool := false
  capabilityGone : Bool := false
  process : ManagedProcess := .none
  networked : Bool := false
  runtime : NetworkedRuntime := {}

def Resource.setHas (r : Resource) (t : Thing) (b : Bool) : Resource :=
  { r with has := fun t' => if t' = t then b else r.has t' }

def Resource.setGone (r : Resource) (t : Thing) : Resource :=
  { r with gone := fun t' => if t' = t then true else r.gone t' }

theorem Resource.setGone_eq {r : Resource} {t : Thing} (h : r.gone t = true) : r.setGone t = r := by
  have hgone : (fun t' => if t' = t then true else r.gone t') = r.gone := by
    funext t'
    by_cases ht : t' = t
    · rw [if_pos ht, ht, h]
    · rw [if_neg ht]
  rw [Resource.setGone, hgone]

/-- A method on a nil pointer ends the daemon. -/
inductive Failure where
  | errors (es : Errors)
  | nilDereference
  deriving DecidableEq

abbrev Vm (α : Type) : Type := Method Op Op.Res Failure Resource α

open Method (invoke check settle)

def perform (c : Check) (problem : Fault → Problem) : Vm Unit := do
  let f ← invoke (Op.check c)
  match f with
  | none => return ()
  | some f => throw (.errors [problem f])

def acquire (t : Thing) (problem : Fault → Problem) (record : Resource → Resource) : Vm Unit := do
  let f ← invoke (Op.obtain t)
  match f with
  | none => modify record
  | some f => throw (.errors [problem f])

/-- Something is given back if it is there; the error there is, if any. -/
def relinquish (pending : Resource → Bool) (t : Thing) (problem : Fault → Problem)
    (mark : Resource → Resource) : Vm Errors := do
  let r ← get
  if pending r then do
    let f ← invoke (Op.giveBack t)
    match f with
    | none => do
        modify mark
        return []
    | some f => return [problem f]
  else do
    modify mark
    return []

/-! ## NetworkedRuntime -/

def Resource.mapRuntime (r : Resource) (g : NetworkedRuntime → NetworkedRuntime) : Resource :=
  { r with runtime := g r.runtime }

def shutdownGuest : Vm (Option Fault) := do
  let r ← get
  if r.runtime.guest then invoke (Op.check .shutdown) else return none

/-- The QEMU process is stopped, after an attempt to shut the guest down. -/
def stopRuntimeProcess : Vm Unit := do
  let _ ← shutdownGuest
  let es ← relinquish (·.runtime.process) .process (fun _ => .networkedCleanup)
    (·.mapRuntime ({ · with processStopped := true }))
  if es = [] then return ()
  else do
    modify (·.mapRuntime ({ · with cleanupErr := true }))
    throw (.errors es)

def cleanupAfterProcess : Vm Unit := do
  let es ← relinquish (fun r => !r.runtime.guestClosed && r.runtime.guest) .guest
    (fun _ => .networkedCleanup) (·.mapRuntime ({ · with guestClosed := true }))
  modify (·.mapRuntime ({ · with capDestroyed := true }))
  let es' ← relinquish (fun r => !r.runtime.networkCleaned) .network
    (fun _ => .networkedCleanup) (·.mapRuntime ({ · with networkCleaned := true }))
  if es ++ es' = [] then modify (·.mapRuntime ({ · with cleanupErr := false }))
  else do
    modify (·.mapRuntime ({ · with cleanupErr := true }))
    throw (.errors [.networkedCleanup])

def stopAndCleanup : Vm Unit := do
  let r ← get
  if r.runtime.processStopped then cleanupAfterProcess
  else do
    stopRuntimeProcess
    cleanupAfterProcess

/-- `NetworkedRuntime.Stop`, with dirty data discarded. -/
def stopNetworked : Vm Unit := do
  let r ← get
  if r.runtime.processStopped && r.runtime.guestClosed && r.runtime.capDestroyed &&
      r.runtime.networkCleaned then
    check (failIf (r.runtime.cleanupErr = true) (.errors [.networkedCleanup]))
  else stopAndCleanup

/-- `normalizeStartError`. -/
def startError : Vm Unit := do
  let ended ← invoke (Op.check .startContext)
  throw (.errors [if ended.isSome then .contextEnded else .networkedStart])

def orStartError : Option Fault → Vm Unit
  | none => return ()
  | some _ => startError

/-- The process is launched with the TAP device; one that was launched is known even if the
device cannot be given back. -/
def launchWithTap : Vm Unit := do
  orStartError (← invoke (Op.check .enterTap))
  let l ← invoke Op.launch
  modify (·.mapRuntime fun n => if l = .started then { n with process := true } else n)
  let left ← invoke (Op.check .leaveTap)
  if l = .started then orStartError left else startError

/-- `StartNetworked` until everything is verified. -/
def connectNetworked : Vm Unit := do
  orStartError (← invoke (Op.check .underlay))
  perform .dupCapability fun _ => .networkedStart
  launchWithTap
  let f ← invoke (Op.obtain .guest)
  match f with
  | some _ => startError
  | none => do
      modify (·.mapRuntime ({ · with guest := true }))
      orStartError (← invoke (Op.check .guestHandshake))
      perform .configureVPN fun _ => .networkedNotVerified
      perform .verifyVPN fun _ => .networkedNotVerified
      perform .verifyEgress fun _ => .networkedNotVerified

/-- `StartNetworked`: whether a runtime is returned, and the error. One that failed is returned
only if its cleanup fails as well. -/
def startNetworked : Vm (Bool × Errors) := do
  let invalid ← invoke (Op.check .startRequest)
  if invalid.isSome then return (false, [.networkedStart])
  else do
    modify (·.mapRuntime fun _ => {})
    let r ← settle connectNetworked
    match r with
    | .ok () => return (true, [])
    | .error e => do
        let c ← settle stopAndCleanup
        match c with
        | .ok () => check (match e with
            | .errors es => .ok (false, es)
            | .nilDereference => .error .nilDereference)
        | .error _ => return (true, [.networkedCleanup])

/-! ## The resource is stopped -/

/-- The first part of `Stop`. A process that cannot be waited for keeps everything else. -/
def stopProcess : Vm Unit := do
  let r ← get
  if r.networked && !r.gone .process then do
    stopNetworked
    modify fun r => { (((r.setGone .process).setGone .connection).setGone .network) with
      capabilityGone := true }
  else if r.gone .process then return ()
  else match r.process with
    | .none => modify (·.setGone .process)
    | .nilPointer => throw .nilDereference
    | .process => do
        let _ ← invoke (Op.giveBack .process)
        let exited ← invoke Op.wait
        if exited then modify (·.setGone .process)
        else throw (.errors [.scannerRuntimeUnavailable])

def relinquishOwn (t : Thing) (problem : Fault → Problem) : Vm Errors :=
  relinquish (fun r => !r.gone t && r.has t) t problem (·.setGone t)

def stop : Vm Unit := do
  stopProcess
  let connection ← relinquishOwn .connection .fault
  let images ← relinquishOwn .images .fault
  modify ({ · with capabilityGone := true })
  let network ← relinquishOwn .network .fault
  let cid ← relinquishOwn .cid fun _ => .scannerRuntimeUnavailable
  let directories ← relinquishOwn .directories .fault
  let es := connection ++ images ++ network ++ cid ++ directories
  check (failIf (es ≠ []) (.errors es))

/-- `Audit`: nothing may be left of what the resource has had. -/
def audit : Vm Unit := do
  let r ← get
  let f ← invoke (Op.check .audit)
  check (failIf (!(r.gone .process && r.gone .connection && r.gone .images && r.capabilityGone &&
    r.gone .network && r.gone .cid && r.gone .directories) ∨ f.isSome)
    (.errors [.scannerRuntimeUnavailable]))

/-! ## The resource is started -/

inductive ScannerMode where
  | update
  | scan
  deriving DecidableEq

/-- A runtime that was returned owns the capability and the network. -/
def takeRuntime (networked : Bool) : Vm Unit :=
  if networked then
    modify fun r => { r.setHas .network false with networked := true, capability := false }
  else return ()

/-- The update VM runs with a network. -/
def startUpdate : Vm Unit := do
  let (networked, es) ← startNetworked
  takeRuntime networked
  check (failIf (es ≠ [] ∨ networked = false) (.errors (.scannerRuntimeUnavailable :: es)))
  perform .scannerClient .fault

/-- The offline VM runs without one. -/
def startOffline : Vm Unit := do
  perform .dupCapability .fault
  let l ← invoke Op.launch
  modify ({ · with process := l.managed })
  check (failIf (l ≠ .started) (.errors (.scannerRuntimeUnavailable :: l.errors)))
  acquire .connection .fault (·.setHas .connection true)
  perform .newRequestID .fault
  perform .handshake .fault

def createNetwork (mode : ScannerMode) : Vm Unit :=
  if mode = .update then acquire .network .fault (·.setHas .network true) else return ()

/-- `StartScanner` once it has a CID, up to its first failure. -/
def startWithCid (mode : ScannerMode) : Vm Unit := do
  perform .newToken .fault
  modify ({ · with capability := true })
  createNetwork mode
  acquire .directories .fault (·.setHas .directories true)
  acquire .images .fault (·.setHas .images true)
  perform .specification .fault
  if mode = .update then startUpdate else startOffline

/-- Whether there is a resolution where one is needed. -/
def resolution (mode : ScannerMode) : Vm (Option Fault) :=
  if mode = .update then invoke (Op.check .resolution) else return none

/-- `StartScanner`: whether the resource is returned, and the error. -/
def startScanner (mode : ScannerMode) : Vm (Bool × Errors) := do
  let unresolved ← resolution mode
  if unresolved.isSome then return (false, [.networkedNotVerified])
  else do
    let f ← invoke (Op.obtain .cid)
    match f with
    | some f => return (false, [.fault f])
    | none => do
        modify (·.setHas .cid true)
        let r ← settle (startWithCid mode)
        match r with
        | .ok () => return (true, [])
        | .error .nilDereference => throw .nilDereference
        | .error (.errors cause) => do
            let stopped ← settle stop
            match stopped with
            | .ok () => return (false, cause)
            | .error (.errors es) => return (true, cause ++ es)
            | .error .nilDereference => throw .nilDereference

end PrivateVm.Scanner
