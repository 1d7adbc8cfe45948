import PrivateVm.Session.Model
import PrivateVm.Usb.Claim

set_option autoImplicit false

/-! # Destructive preparation of a USB device (`prepare.go`, `workflow.go`)

Every call of another component, every reading of the clock and every region in which the workflow
holds its mutex is one operation. The daemon serialises the calls of one session: a call enters its
session and leaves it. Recorded are the operations of the call a thread is in, the challenges that
were drawn, and those with which the backend was called.
-/

namespace PrivateVm.Usb

open Checked Program Transfer Timestamp Session

/-! ## Plans -/

def prepareSchemaVersion : Int := 1
def prepareChallengeSize : Nat := 16
def maximumPrepareAge : Int := 5 * 60 * 1000000000

structure PreparePlan where
  schemaVersion : Int
  enrollmentID : String
  fingerprint : String
  capacityBytes : Nat
  filesystem : String
  challenge : String
  createdAt : Time
  firstPrompt : String
  secondPrompt : String
  deriving DecidableEq

structure Confirmation where
  first : String
  second : String
  deriving DecidableEq

def firstConfirmation (enrollmentID : String) : String := "ERASE " ++ enrollmentID

def secondConfirmation (enrollmentID fingerprint challenge : String) : String :=
  "ERASE " ++ enrollmentID ++ " " ++ String.ofList (fingerprint.toList.take 16) ++ " " ++ challenge

def confirmationFault (message remediation : String) : UsbError :=
  ⟨.confirmation, message, remediation⟩

def PreparePlan.validate (sha256 : Bytes → Digest) (p : PreparePlan) (enrollment : Enrollment)
    (confirmation : Confirmation) (now : Time) : Except UsbError Unit := do
  failIf (p.schemaVersion ≠ prepareSchemaVersion ∨ p.filesystem ≠ defaultFilesystem ∨
      p.enrollmentID ≠ enrollment.enrollmentID ∨ p.capacityBytes ≠ enrollment.identity.capacity ∨
      p.challenge.utf8ByteSize ≠ prepareChallengeSize * 2 ∨ p.createdAt.isZero = true ∨
      now.before p.createdAt = true ∨ now.nanos - p.createdAt.nanos > maximumPrepareAge)
    (confirmationFault "The destructive USB preparation plan is missing, stale or changed."
      "Inspect the device again and repeat both exact confirmation steps.")
  let changed := confirmationFault "The destructive USB preparation identity changed."
    "Inspect the device again and repeat both exact confirmation steps."
  let fingerprint ← (enrollment.identity.fingerprint sha256).mapError fun _ => changed
  failIf (p.fingerprint ≠ fingerprint ∨ p.firstPrompt ≠ firstConfirmation enrollment.enrollmentID ∨
      p.secondPrompt ≠ secondConfirmation enrollment.enrollmentID fingerprint p.challenge) changed
  failIf (confirmation.first ≠ p.firstPrompt ∨ confirmation.second ≠ p.secondPrompt)
    (confirmationFault "Both exact destructive USB confirmations are required."
      "Enter the two displayed confirmation phrases exactly; do not reuse an earlier challenge.")

/-! ## Events and receipts -/

inductive PrepareState where
  | planned
  | confirmed
  | commitStarted
  | destinationReady
  | canceledPrecommit
  | incomplete
  | other (text : String)
  deriving DecidableEq

structure PrepareEvent where
  sequence : Nat
  state : PrepareState
  code : String
  message : String
  deriving DecidableEq

structure PrepareReceipt where
  schemaVersion : Int
  enrollmentID : String
  filesystem : String
  capacityBytes : Nat
  fingerprint : String
  state : PrepareState
  deriving DecidableEq

/-! ## Operations -/

/-- A call of the workflow, for one session of an exporter. -/
inductive PrepareCall where
  | planPreparation (snapshot : Snapshot) (claimID : String) (enrollment : Enrollment)
  | prepare (snapshot : Snapshot) (claimID : String) (enrollment : Enrollment) (challenge : String)
      (confirmation : Confirmation)
  deriving DecidableEq

def PrepareCall.snapshot : PrepareCall → Snapshot
  | .planPreparation snapshot _ _ => snapshot
  | .prepare snapshot _ _ _ _ => snapshot

def PrepareCall.sessionID (c : PrepareCall) : String := c.snapshot.id

/-- The challenge that a call presents. -/
def PrepareCall.presented : PrepareCall → String
  | .planPreparation _ _ _ => ""
  | .prepare _ _ _ challenge _ => challenge

/-- Calls of the other components that succeed or fail. -/
inductive PrepareStep where
  | preflight
  | verifyImage
  | storageAllocation
  | runtimeAllocation (claim : ClaimRecord)
  | transition (sessionID : String) (phase : Phase)
  | acquireResource (sessionID name : String)
  | runtime (sessionID : String)
  | authorizePrepare
  deriving DecidableEq

inductive PrepareOp where
  | enter (c : PrepareCall)
  | leave (sessionID : String)
  | getPlan (sessionID : String)
  | setPlan (sessionID : String) (plan : PreparePlan)
  | deletePlan (sessionID : String)
  | random
  | now
  | contextErr
  | getClaim (claimID : String)
  | snapshot
  | step (call : PrepareStep)
  | cleanup (sessionID : String)
  /-- `Prepare` of the runtime of a session: the device is erased. -/
  | backendPrepare (sessionID : String) (claim : ClaimRecord) (filesystem : String)

/-- `contextErr` answers whether the context has ended, `step` whether the call has succeeded,
`cleanup` the phase of the session, and `backendPrepare` the events of the backend and its
receipt. -/
@[reducible] def PrepareOp.Res : PrepareOp → Type
  | .enter _ | .leave _ | .setPlan _ _ | .deletePlan _ => Unit
  | .getPlan _ => Option PreparePlan
  | .random => Option (Vector UInt8 prepareChallengeSize)
  | .now => Time
  | .contextErr | .step _ => Bool
  | .getClaim _ => Option ClaimRecord
  | .snapshot => Option (List Device)
  | .cleanup _ => Option Phase
  | .backendPrepare _ _ _ => List PrepareEvent × Option PrepareReceipt

/-- Errors of the workflow. `failed` are those of the session manager and of the runtime, which are
passed on. -/
inductive PrepareError where
  | usb (e : UsbError)
  | new (text : String)
  | context
  | failed
  | cleanupIncomplete
  deriving DecidableEq

abbrev PrepareProg (α : Type) : Type := ExceptT PrepareError (Prog PrepareOp PrepareOp.Res) α

def request (o : PrepareOp) : PrepareProg o.Res := ExceptT.lift (Prog.call o)

def need (call : PrepareStep) (e : PrepareError) : PrepareProg Unit := do
  let done ← request (.step call)
  failIf (done = false) e

/-- A test of the context; what is done before its error is returned is `canceled`. -/
def checkContext (canceled : PrepareProg Unit) : PrepareProg Unit := do
  let ended ← request .contextErr
  if ended then do
    canceled
    throw .context
  else return ()

/-! ## Plans for a device -/

section

variable (sha256 : Bytes → Digest)

def newPreparePlan (enrollment : Enrollment) (device : Device) (now : Time) :
    PrepareProg PreparePlan := do
  (enrollment.validate sha256).mapError PrepareError.new
  let observed := { device.identity with portBound := enrollment.identity.portBound }
  failIf (enrollment.identity.matchesIdentity observed = false ∨ device.mounted = true ∨
      device.readOnly = true ∨ device.hostFilesystem = true)
    (PrepareError.usb ⟨.identityMismatch, "The current USB observation cannot be prepared.",
      "Inspect and re-enroll the exact dedicated device before retrying."⟩)
  let drawn ← request .random
  let challengeBytes ← ofOption (PrepareError.new "generate USB preparation challenge") drawn
  let fingerprint ← (enrollment.identity.fingerprint sha256).mapError PrepareError.new
  let challenge := Hex.text challengeBytes.toList
  return {
    schemaVersion := prepareSchemaVersion
    enrollmentID := enrollment.enrollmentID
    fingerprint := fingerprint
    capacityBytes := enrollment.identity.capacity
    filesystem := enrollment.filesystem
    challenge := challenge
    createdAt := now.utc
    firstPrompt := firstConfirmation enrollment.enrollmentID
    secondPrompt := secondConfirmation enrollment.enrollmentID fingerprint challenge }

/-- `ClaimManager.Revalidate` -/
def revalidate (claimID sessionID : String) (ownerUID : UInt32) (enrollment : Enrollment) :
    PrepareProg ClaimRecord := do
  let found ← request (.getClaim claimID)
  let claim ← (ownedClaim sessionID ownerUID found).mapError PrepareError.usb
  let devices ← request .snapshot
  let current ← (resolveEnrollment sha256 enrollment devices).mapError PrepareError.usb
  failIf (sameKernelObservation claim.device current = false)
    (PrepareError.usb ⟨.identityMismatch, "The claimed USB kernel identity changed.",
      "Abort the exporter, release the claim and inspect the device again."⟩)
  return claim

/-! ## The coordinator -/

def ignored (events : PrepareEvent → PrepareProg Unit) (e : PrepareEvent) : PrepareProg Unit :=
  tryCatch (events e) fun _ => return ()

def PrepareEvent.acceptable (e : PrepareEvent) : Bool :=
  e.sequence == 0 && e.state != .other "" && trimSpace e.code != "" && trimSpace e.message != ""

/-- The events of the backend are passed on with the numbers that follow, but for those that are
not acceptable. -/
def relayEvents (events : PrepareEvent → PrepareProg Unit) :
    Nat → List PrepareEvent → PrepareProg Nat
  | sequence, [] => return sequence
  | sequence, e :: rest => do
      if e.acceptable then do
        ignored events { e with sequence := sequence + 1 }
        relayEvents events (sequence + 1) rest
      else relayEvents events sequence rest

def PrepareReceipt.proves (receipt : PrepareReceipt) (enrollment : Enrollment)
    (plan : PreparePlan) : Bool :=
  receipt.schemaVersion == prepareSchemaVersion &&
    receipt.enrollmentID == enrollment.enrollmentID &&
    receipt.filesystem == defaultFilesystem &&
    receipt.capacityBytes == enrollment.identity.capacity &&
    receipt.fingerprint == plan.fingerprint && receipt.state == .destinationReady

/-- `PrepareCoordinator.Prepare` once the backend has answered. -/
def finishPrepare (enrollment : Enrollment) (plan : PreparePlan)
    (events : PrepareEvent → PrepareProg Unit) (sequence : Nat) :
    Option PrepareReceipt → PrepareProg PrepareReceipt
  | none => do
      ignored events ⟨sequence + 1, .incomplete, "USB_PREPARE_INCOMPLETE",
        "USB preparation did not complete; do not trust the destination until exporter " ++
        "verification succeeds."⟩
      throw (.usb ⟨.writeFailed, "Exporter USB preparation failed.",
        "Leave the device attached, run cleanup, then inspect it again before retrying."⟩)
  | some receipt => do
      if receipt.proves enrollment plan then do
        events ⟨sequence + 1, .destinationReady, "USB_DESTINATION_PREPARED",
          "The exporter verified the prepared LUKS2 and ext4 destination."⟩
        return receipt
      else do
        ignored events ⟨sequence + 1, .incomplete, "USB_PREPARE_INCOMPLETE",
          "Exporter USB preparation returned incomplete identity evidence."⟩
        throw (.usb ⟨.identityMismatch,
          "Exporter USB post-format identity verification failed.",
          "Do not trust the destination; finalize cleanup and inspect the enrolled device again."⟩)

/-- `PrepareCoordinator.Prepare`; its backend is the runtime of the session. -/
def coordinatorPrepare (claimID sessionID : String) (ownerUID : UInt32) (enrollment : Enrollment)
    (plan : PreparePlan) (confirmation : Confirmation) (events : PrepareEvent → PrepareProg Unit) :
    PrepareProg PrepareReceipt := do
  let now ← request .now
  (plan.validate sha256 enrollment confirmation now).mapError PrepareError.usb
  let canceled : PrepareProg Unit := ignored events ⟨2, .canceledPrecommit,
    "USB_PREPARE_CANCELED_PRECOMMIT",
    "USB preparation was canceled before the destructive commit."⟩
  events ⟨1, .confirmed, "USB_PREPARE_CONFIRMED",
    "Both destructive USB confirmation steps were accepted."⟩
  checkContext canceled
  let claim ← revalidate sha256 claimID sessionID ownerUID enrollment
  need .authorizePrepare (.usb (confirmationFault
    "Destructive USB preparation was not authorized."
    "Approve the displayed org.private-vm.usb.prepare action and retry."))
  checkContext canceled
  events ⟨2, .commitStarted, "USB_PREPARE_COMMIT_STARTED",
    "Exporter USB preparation entered its destructive phase."⟩
  let answer ← request (.backendPrepare sessionID claim defaultFilesystem)
  let sequence ← relayEvents events 2 answer.1
  finishPrepare enrollment plan events sequence answer.2

/-! ## The workflow -/

/-- `Sessions.Transition`, which returns the session in its new phase. -/
def transition (current : Snapshot) (phase : Phase) : PrepareProg Snapshot := do
  need (.transition current.id phase) .failed
  return { current with phase := phase }

def ensureRuntime (snapshot : Snapshot) (claimID : String) (enrollment : Enrollment) :
    PrepareProg Snapshot := do
  if snapshot.phase = .active then do
    need (.runtime snapshot.id) .failed
    return snapshot
  else if snapshot.phase ≠ .created then
    throw (.new "exporter session phase is invalid")
  else do
    need .preflight .failed
    let current ← transition snapshot .preflighted
    need .verifyImage .failed
    let current ← transition current .imagesVerified
    need .storageAllocation (.new "exporter storage allocation is unavailable")
    need (.acquireResource current.id "exporter-storage") .failed
    let current ← transition current .storageReady
    let claim ← revalidate sha256 claimID current.id current.ownerUID enrollment
    need (.runtimeAllocation claim) (.new "exporter runtime allocation is unavailable")
    need (.acquireResource current.id "exporter-runtime") .failed
    let current ← transition current .active
    need (.runtime current.id) .failed
    return current

/-- The session is cleaned up and loses its plan; the error of the cleanup comes first. -/
def cleanupFailed {α : Type} (snapshot : Snapshot) (e : PrepareError) : PrepareProg α := do
  let phase ← request (.cleanup snapshot.id)
  request (.deletePlan snapshot.id)
  if phase = some .destroyed then throw e else throw .cleanupIncomplete

def planPreparation (snapshot : Snapshot) (claimID : String) (enrollment : Enrollment) :
    PrepareProg PreparePlan := do
  failIf (snapshot.role ≠ .exporter ∨ snapshot.phase ≠ .created ∨
      snapshot.workflowState ≠ "USB_CLAIMED")
    (PrepareError.usb ⟨.identityMismatch, "The exporter is not ready for USB preparation.",
      "Create one fresh exporter session and claim the exact enrollment."⟩)
  let claim ← revalidate sha256 claimID snapshot.id snapshot.ownerUID enrollment
  let now ← request .now
  let plan ← newPreparePlan sha256 enrollment claim.device now
  request (.setPlan snapshot.id plan)
  return plan

def prepare (snapshot : Snapshot) (claimID : String) (enrollment : Enrollment) (challenge : String)
    (confirmation : Confirmation) : PrepareProg PrepareReceipt := do
  let changed := PrepareError.usb (confirmationFault
    "The USB preparation plan is missing or changed."
    "Request a fresh plan and repeat both exact confirmations.")
  let stored ← request (.getPlan snapshot.id)
  let plan ← ofOption changed stored
  failIf (plan.challenge ≠ challenge) changed
  let now ← request .now
  (plan.validate sha256 enrollment confirmation now).mapError PrepareError.usb
  let current ← tryCatch (ensureRuntime sha256 snapshot claimID enrollment)
    (cleanupFailed snapshot)
  let receipt ← tryCatch
    (coordinatorPrepare sha256 claimID current.id current.ownerUID enrollment plan confirmation
      fun _ => return ())
    (cleanupFailed current)
  request (.deletePlan snapshot.id)
  return receipt

def PrepareCall.run : PrepareCall → PrepareProg Unit
  | .planPreparation snapshot claimID enrollment => do
      let _ ← Usb.planPreparation sha256 snapshot claimID enrollment
  | .prepare snapshot claimID enrollment challenge confirmation => do
      let _ ← Usb.prepare sha256 snapshot claimID enrollment challenge confirmation

/-- A call as the daemon makes it, under the lock of the session. -/
def PrepareCall.body (c : PrepareCall) : Prog PrepareOp PrepareOp.Res Unit := do
  Prog.call (PrepareOp.enter c)
  let _ ← (c.run sha256).run
  Prog.call (PrepareOp.leave c.sessionID)

end

/-! ## Calls of many threads -/

structure PrepareEntry where
  op : PrepareOp
  answer : op.Res

/-- The plans of the workflow and the locks of the sessions. The other fields record what has been
done: the call a thread is in and its operations so far, latest first; the sessions whose plan the
backend was called with; the challenges drawn for each session, and those presented when its
backend was called. -/
structure Preparations where
  plans : String → Option PreparePlan
  owner : String → Option Nat
  current : Nat → Option PrepareCall
  trace : Nat → List PrepareEntry
  spent : String → Bool
  generated : List (String × String)
  prepared : List (String × String)

def newHostWorkflow : Preparations :=
  ⟨fun _ => none, fun _ => none, fun _ => none, fun _ => [], fun _ => false, [], []⟩

/-- What the environment decides at one operation. -/
structure PrepareChoice where
  random : Option (Vector UInt8 prepareChallengeSize) := none
  now : Time := ⟨0, 0⟩
  ended : Bool := false
  claim : Option ClaimRecord := none
  devices : Option (List Device) := none
  done : Bool := true
  phase : Option Phase := none
  events : List PrepareEvent := []
  receipt : Option PrepareReceipt := none

namespace Preparations

def note (t : Nat) (e : PrepareEntry) (s : Preparations) : Preparations :=
  { s with trace := Function.update s.trace t (e :: s.trace t) }

/-- What an operation answers and does, but for its record. -/
def act (t : Nat) : (o : PrepareOp) → PrepareChoice → Preparations → o.Res × Preparations
  | .enter c, _, s =>
    ((), { s with
      owner := Function.update s.owner c.sessionID (some t)
      current := Function.update s.current t (some c)
      trace := Function.update s.trace t [] })
  | .leave sessionID, _, s => ((), { s with owner := Function.update s.owner sessionID none })
  | .getPlan sessionID, _, s => (s.plans sessionID, s)
  | .setPlan sessionID plan, _, s =>
    ((), { s with
      plans := Function.update s.plans sessionID (some plan)
      spent := Function.update s.spent sessionID false })
  | .deletePlan sessionID, _, s =>
    ((), { s with
      plans := Function.update s.plans sessionID none
      spent := Function.update s.spent sessionID false })
  | .random, x, s =>
    match x.random, s.current t with
    | some bytes, some c =>
      (some bytes,
        { s with generated := (c.sessionID, Hex.text bytes.toList) :: s.generated })
    | _, _ => (none, s)
  | .now, x, s => (x.now, s)
  | .contextErr, x, s => (x.ended, s)
  | .getClaim _, x, s => (x.claim, s)
  | .snapshot, x, s => (x.devices, s)
  | .step _, x, s => (x.done, s)
  | .cleanup _, x, s => (x.phase, s)
  | .backendPrepare sessionID _ _, x, s =>
    ((x.events, x.receipt), { s with
      spent := Function.update s.spent sessionID true
      prepared := (sessionID, ((s.current t).map (·.presented)).getD "") :: s.prepared })

def exec (t : Nat) (o : PrepareOp) (x : PrepareChoice) (s : Preparations) : o.Res × Preparations :=
  ((act t o x s).1, (act t o x s).2.note t ⟨o, (act t o x s).1⟩)

/-- A call waits until no other one is in its session. -/
def enabled (_ : Nat) : PrepareOp → PrepareChoice → Preparations → Bool
  | .enter c, _, s => (s.owner c.sessionID).isNone
  | _, _, _ => true

end Preparations

/-- The workflow with calls in any number of threads. -/
def preparePool (sha256 : Bytes → Digest) :
    Pool PrepareOp PrepareOp.Res PrepareChoice Preparations PrepareCall where
  exec := Preparations.exec
  enabled := Preparations.enabled
  body _ c := c.body sha256

end PrivateVm.Usb
