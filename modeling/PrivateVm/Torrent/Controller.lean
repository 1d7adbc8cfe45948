import PrivateVm.Torrent.Backend
import PrivateVm.Torrent.Capacity
import PrivateVm.Torrent.Verifier

set_option autoImplicit false

/-! # The torrent controller (`internal/torrent/controller.go`)

Each stretch under the controller's lock is a method of its fields (`Basic/Method.lean`); those of
`Monitor`, which gives the lock up to emit a status and to wait, are `monitorEntry`, `poll` and
`pauseAfterFailure`. A context appears through the answers of the operations it bounds: `add` waits
for metadata at most `polls` rounds. Durations and times are in nanoseconds.
-/

namespace PrivateVm.Torrent

open Program Method

/-! ## Fields -/

structure Config where
  safePolicy : Bool
  metadataTimeout : Int
  pollInterval : Int
  stallTimeout : Int
  deriving DecidableEq

def second : Int := 1000000000
def defaultMetadataTimeout : Int := 120 * second
def defaultPollInterval : Int := second
def defaultStallTimeout : Int := 300 * second
def maximumOperation : Int := 600 * second

structure Controller where
  config : Config
  state : State
  handle : Handle
  metadata : Metadata
  plan : CapacityPlan
  progress : Progress
  manifest : Manifest
  clientDown : Bool
  closed : Bool
  deriving DecidableEq

/-- A configuration with the defaults in place of zeros. -/
def Config.withDefaults (config : Config) : Config where
  safePolicy := config.safePolicy
  metadataTimeout :=
    if config.metadataTimeout = 0 then defaultMetadataTimeout else config.metadataTimeout
  pollInterval := if config.pollInterval = 0 then defaultPollInterval else config.pollInterval
  stallTimeout := if config.stallTimeout = 0 then defaultStallTimeout else config.stallTimeout

def newController (config : Config) : Except Error Controller :=
  let config := config.withDefaults
  if config.metadataTimeout < second ∨ config.metadataTimeout > maximumOperation ∨
      config.pollInterval ≤ 0 ∨ config.pollInterval > 60 * second ∨
      config.stallTimeout < second ∨ config.stallTimeout > maximumOperation then
    .error invalidRequest
  else
    .ok {
      config := config
      state := .empty
      handle := ⟨[]⟩
      metadata := .zero
      plan := .zero
      progress := ⟨0, 0⟩
      manifest := .none
      clientDown := false
      closed := false }

abbrev Action (α : Type) : Type := Method Op Op.Res Error Controller α

def call (o : Op) : Action o.Res := invoke o

variable (U : Unicode)

/-! ## Adding and selecting -/

/-- The rounds of `add` that wait for metadata, with the payload kept paused. -/
def Controller.fetchMetadata (handle : Handle) : Nat → Action Metadata
  | 0 => throw (metadataUnavailable .deadlineExceeded)
  | polls + 1 => do
      match ← call (.pause handle) with
      | .error fault => throw (metadataUnavailable fault)
      | .ok () =>
        match ← call (.metadata handle) with
        | .error fault => throw (metadataUnavailable fault)
        | .ok raw =>
          if raw.payloadRead ≠ 0 then throw unsafeMetadata
          else if raw.available then
            match validateMetadata U raw with
            | .error e => throw e
            | .ok metadata => do
                match ← call (.setSelection handle [] (UInt32.ofNat metadata.files.length)) with
                | .error fault => throw (metadataUnavailable fault)
                | .ok () =>
                  modify fun c => { c with metadata := metadata, state := .selectionRequired }
                  return metadata
          else do
            match ← call .wait with
            | .error fault => throw (metadataUnavailable fault)
            | .ok () => fetchMetadata handle polls

def Controller.add (polls : Nat) : Action Metadata := do
  let c ← get
  if c.closed ∨ c.state ≠ .empty then throw invalidRequest
  else do
    match ← call .addPaused with
    | .error _ => throw invalidInput
    | .ok handle =>
      if ¬ handle.valid then throw invalidInput
      else do
        modify fun c => { c with handle := handle, state := .metadataFetching }
        fetchMetadata U handle polls

/-- `Controller.Metadata`. -/
def Controller.currentMetadata : Action Metadata := do
  let c ← get
  if c.closed ∨ c.state = .empty ∨ c.state = .metadataFetching then throw invalidRequest
  else return c.metadata

def Controller.select (indexes : List UInt32) (evidence : CapacityEvidence) :
    Action (Metadata × CapacityPlan) := do
  let c ← get
  if c.closed ∨ c.state ≠ .selectionRequired ∧ c.state ≠ .capacityVerified then
    throw invalidRequest
  else do
    match ← call .capacityBytes with
    | .error fault =>
      if fault.isContextError then throw (.cause fault) else throw capacityEvidenceUnavailable
    | .ok quarantineAvailable =>
      match evidence.planSelection c.metadata indexes quarantineAvailable c.config.safePolicy with
      | .error e => throw e
      | .ok (metadata, plan) => do
          match ← call (.setSelection c.handle indexes (UInt32.ofNat metadata.files.length)) with
          | .error _ => throw invalidSelection
          | .ok () =>
            modify fun c => { c with
              metadata := metadata
              plan := plan
              progress := ⟨0, plan.selectedBytes⟩
              state := .capacityVerified }
            return (metadata, plan)

/-! ## Starting and pausing -/

def Controller.start : Action Unit := do
  let c ← get
  if c.closed ∨ c.state ≠ .capacityVerified ∧ c.state ≠ .paused ∨ c.plan.selectedBytes = 0 then
    throw notApproved
  else do
    match ← call (.start c.handle) with
    | .error _ => throw downloadFailed
    | .ok () => modify fun c => { c with state := .downloading }

def Controller.pause : Action Unit := do
  let c ← get
  if c.closed ∨ c.state ≠ .downloading ∧ c.state ≠ .paused then throw invalidRequest
  else do
    match ← call (.pause c.handle) with
    | .error _ => throw downloadFailed
    | .ok () => modify fun c => { c with state := .paused }

/-- The loss of the VPN, reported by the guest's VPN controller. -/
def Controller.onVPNLoss : Action Unit := do
  let c ← get
  if c.state ≠ .downloading then return ()
  else do
    match ← call (.pause c.handle) with
    | .error _ => throw downloadFailed
    | .ok () => modify fun c => { c with state := .paused }

def Controller.pauseAfterFailure : Action Unit := do
  let c ← get
  let _ ← call (.pause c.handle)
  modify fun c => { c with state := .paused }

/-! ## Status -/

def State.diagnostic : State → String × String
  | .empty => ("TORRENT_INPUT_REQUIRED",
      "Submit one bounded torrent source through the secure input path.")
  | .metadataFetching => ("TORRENT_METADATA_FETCHING",
      "Wait for bounded metadata retrieval while payload remains paused.")
  | .selectionRequired => ("TORRENT_SELECTION_REQUIRED",
      "Review hazards and explicitly select permitted files.")
  | .capacityVerified => ("TORRENT_CAPACITY_VERIFIED",
      "Start payload transfer only while the VPN remains verified.")
  | .downloading => ("TORRENT_DOWNLOADING",
      "Keep the VPN verified and continue bounded progress monitoring.")
  | .paused => ("TORRENT_DOWNLOAD_PAUSED", "Re-verify VPN health before an explicit resume.")
  | .downloadComplete => ("TORRENT_DOWNLOAD_COMPLETE",
      "Verify, sync, unmount, and seal quarantine before destroying the downloader.")
  | .sealing => ("QUARANTINE_SEALING",
      "Keep scanner attachment blocked until sealing and downloader cleanup complete.")
  | .sealed => ("QUARANTINE_SEALED", "Destroy and audit the downloader before scanner attachment.")

def Controller.status (c : Controller) (completed total : UInt64) : Status where
  schemaVersion := 1
  state := c.state
  progress := ⟨completed, total⟩
  code := c.state.diagnostic.1
  remediation := c.state.diagnostic.2

/-- The client reports another size than was planned, or more than all of it. -/
def ClientStatus.inconsistent (status : ClientStatus) (plan : CapacityPlan) : Bool :=
  status.totalBytes ≠ plan.selectedBytes || status.totalBytes < status.completedBytes

def ClientStatus.progress (status : ClientStatus) : Progress :=
  ⟨status.completedBytes, status.totalBytes⟩

/-- `Controller.Status`. -/
def Controller.currentStatus : Action Status := do
  let c ← get
  if c.closed then throw invalidRequest
  else if c.state ≠ .downloading then
    return c.status c.progress.completedBytes c.progress.totalBytes
  else do
    match ← call (.status c.handle) with
    | .error _ => throw downloadFailed
    | .ok status =>
      if status.inconsistent c.plan then throw downloadFailed
      else do
        modify fun c => { c with progress := status.progress }
        return c.status status.completedBytes status.totalBytes

/-! ## The stretches of `Monitor` under the lock -/

def Controller.monitorEntry : Action Unit := do
  let c ← get
  if c.closed ∨ c.state ≠ .downloading then throw notApproved
  else return ()

/-- What `poll` leaves for the loop: the status to emit, whether it is the last, and since when
the progress has not changed. -/
structure Polled where
  status : Status
  final : Bool
  lastProgress : UInt64
  lastChange : Int

/-- One round of the loop of `Monitor`, up to the emission of the status. An error ends the
loop. -/
def Controller.poll (lastProgress : UInt64) (lastChange now : Int) : Action Polled := do
  let c ← get
  if c.closed then throw invalidRequest
  else if c.state = .paused then throw vpnLost
  else if c.state ≠ .downloading then throw notApproved
  else do
    match ← call (.status c.handle) with
    | .error fault => do
        pauseAfterFailure
        if fault.isContextError then throw (.cause fault) else throw downloadFailed
    | .ok status =>
      if status.inconsistent c.plan then do
        pauseAfterFailure
        throw downloadFailed
      else do
        modify fun c => { c with progress := status.progress }
        let progressed : Bool := lastProgress < status.completedBytes
        let lastProgress := if progressed then status.completedBytes else lastProgress
        let lastChange := if progressed then now else lastChange
        if status.state = .error then do
          pauseAfterFailure
          throw downloadFailed
        else if status.state = .complete ∧ status.completedBytes = status.totalBytes then do
          match ← call (.pause c.handle) with
          | .error _ => throw downloadFailed
          | .ok () =>
            modify fun c => { c with state := .downloadComplete }
            let c ← get
            return ⟨c.status status.completedBytes status.totalBytes, true, lastProgress,
              lastChange⟩
        else
          return ⟨c.status status.completedBytes status.totalBytes, false, lastProgress,
            lastChange⟩

/-! ## Sealing and closing -/

/-- The digests make a manifest that matches the selection. -/
def matchingManifest (metadata : Metadata) (files : List FileDigest) : Except Error Manifest := do
  let manifest ← newManifest U files
  verifyManifestMatchesSelection manifest metadata
  return manifest

/-- The first part of `seal`, for a client that is still up. -/
def Controller.sealClient : Action Unit := do
  let c ← get
  match ← call (.verifyCompleted c.handle c.metadata) with
  | .error _ => do
      modify fun c => { c with state := .downloadComplete }
      throw sealFailed
  | .ok files =>
    match matchingManifest U c.metadata files with
    | .error e => do
        modify fun c => { c with state := .downloadComplete }
        throw e
    | .ok manifest => do
        match ← call .shutdown with
        | .error _ => do
            modify fun c => { c with state := .downloadComplete }
            throw sealFailed
        | .ok () => modify fun c => { c with manifest := manifest, clientDown := true }

/-- The second part of `seal`. -/
def Controller.sealQuarantine : Action Manifest := do
  match ← call .syncAndUnmount with
  | .error _ => throw sealFailed
  | .ok () => do
      modify fun c => { c with state := .sealed }
      let c ← get
      return c.manifest

/-- A seal may begin, or be taken up again after the client was shut down. -/
def Controller.maySeal (c : Controller) : Bool :=
  !c.closed && (c.state = .downloadComplete ||
    c.state = .sealing && c.clientDown && !c.manifest.files.isEmpty)

def Controller.seal : Action Manifest := do
  let c ← get
  if ¬ c.maySeal then throw notApproved
  else do
    modify fun c => { c with state := .sealing }
    if c.clientDown then sealQuarantine
    else do
      sealClient U
      sealQuarantine

def Controller.sealedManifest : Action Manifest := do
  let c ← get
  if c.closed ∨ c.state ≠ .sealed ∨ c.manifest.files = [] then throw invalidRequest
  else return c.manifest

/-- The pause of `close`: whether no error was collected. -/
def Controller.closePause (c : Controller) : Action Bool :=
  if c.handle.valid ∧ c.state ≠ .sealed then do
    let result ← call (.pause c.handle)
    return result.isOk
  else return true

/-- The shutdown of `close`: whether no error was collected. -/
def Controller.closeShutdown (c : Controller) : Action Bool :=
  if ¬ c.handle.valid then do
    modify fun c => { c with clientDown := true }
    return true
  else if c.clientDown then return true
  else do
    match ← call .shutdown with
    | .error _ => return false
    | .ok () => do
        modify fun c => { c with clientDown := true }
        return true

/-- The controller after `Close` has succeeded. -/
def Controller.cleared (c : Controller) : Controller :=
  { c with
    manifest := .none
    metadata := .zero
    plan := .zero
    progress := ⟨0, 0⟩
    handle := ⟨[]⟩
    closed := true }

def Controller.close : Action Unit := do
  let c ← get
  if c.closed then return ()
  else do
    let paused ← closePause c
    let down ← closeShutdown c
    if paused && down then modify Controller.cleared
    else throw cleanupIncomplete

end PrivateVm.Torrent
