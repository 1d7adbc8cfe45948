import PrivateVm.Basic.Checked
import PrivateVm.Basic.Hex
import PrivateVm.Basic.Timestamp

set_option autoImplicit false
set_option linter.dupNamespace false

/-! # The session model (`internal/session/model.go`)

Roles, phases, events and snapshots of a session, the tables of transitions, and the operations of
a `Session`. `Role` and `Phase` are string types in the source; here they are enumerations with one
more case for the strings that name no constant. Locking is left out: every method of a `Session`
holds its lock for the whole call.
-/

namespace PrivateVm.Session

open Timestamp Checked

/-! ## Errors -/

inductive Sentinel where
  | invalidTransition
  | invalidWorkflow
  | unauthorized
  | notFound
  | quotaExceeded
  | cleanupIncomplete
  | eventLimit
  | eventCursor
  | subscriberSlow
  | duplicateResource
  | resourceRegistrationEnd
  | managerShuttingDown
  deriving DecidableEq

def Sentinel.text : Sentinel → String
  | .invalidTransition => "invalid session transition"
  | .invalidWorkflow => "invalid role workflow transition"
  | .unauthorized => "session owner mismatch"
  | .notFound => "session not found"
  | .quotaExceeded => "session quota exceeded"
  | .cleanupIncomplete => "session cleanup incomplete"
  | .eventLimit => "session event limit reached"
  | .eventCursor => "invalid session event cursor"
  | .subscriberSlow => "session event subscriber is too slow"
  | .duplicateResource => "duplicate session resource"
  | .resourceRegistrationEnd => "session no longer accepts resources"
  | .managerShuttingDown => "session manager is shutting down"

/-- An error: its text and the error values it wraps. -/
structure Err where
  message : String
  wraps : List Sentinel
  deriving DecidableEq

/-- `errors.New`. -/
def newError (message : String) : Err := ⟨message, []⟩

def Sentinel.err (s : Sentinel) : Err := ⟨s.text, [s]⟩

/-- `fmt.Errorf` with the error value in front of a detail. -/
def Sentinel.errorf (s : Sentinel) (detail : String) : Err := ⟨s.text ++ ": " ++ detail, [s]⟩

/-- `errors.Is`. -/
def Err.isKind (e : Err) (s : Sentinel) : Bool := e.wraps.contains s

/-- `errors.Join` of two errors. -/
def Err.join (a b : Err) : Err := ⟨a.message ++ "\n" ++ b.message, a.wraps ++ b.wraps⟩

def quoted (s : String) : String := "\"" ++ s ++ "\""

/-! ## Roles and phases -/

def roleNames : List String := ["workstation", "downloader", "scanner", "exporter"]

inductive Role where
  | workstation
  | downloader
  | scanner
  | exporter
  | other (text : String) (h : text ∉ roleNames)
  deriving DecidableEq

def Role.text : Role → String
  | .workstation => "workstation"
  | .downloader => "downloader"
  | .scanner => "scanner"
  | .exporter => "exporter"
  | .other text _ => text

def Role.ofText (text : String) : Role :=
  if h : text ∉ roleNames then .other text h
  else if text = "workstation" then .workstation
  else if text = "downloader" then .downloader
  else if text = "scanner" then .scanner
  else .exporter

def phaseNames : List String :=
  ["CREATED", "PREFLIGHTED", "IMAGES_VERIFIED", "STORAGE_READY", "ACTIVE", "STOPPING",
    "ABORTING", "DESTROYING", "DESTROYED"]

inductive Phase where
  | created
  | preflighted
  | imagesVerified
  | storageReady
  | active
  | stopping
  | aborting
  | destroying
  | destroyed
  | other (text : String) (h : text ∉ phaseNames)
  deriving DecidableEq

def Phase.text : Phase → String
  | .created => "CREATED"
  | .preflighted => "PREFLIGHTED"
  | .imagesVerified => "IMAGES_VERIFIED"
  | .storageReady => "STORAGE_READY"
  | .active => "ACTIVE"
  | .stopping => "STOPPING"
  | .aborting => "ABORTING"
  | .destroying => "DESTROYING"
  | .destroyed => "DESTROYED"
  | .other text _ => text

def Phase.ofText (text : String) : Phase :=
  if h : text ∉ phaseNames then .other text h
  else if text = "CREATED" then .created
  else if text = "PREFLIGHTED" then .preflighted
  else if text = "IMAGES_VERIFIED" then .imagesVerified
  else if text = "STORAGE_READY" then .storageReady
  else if text = "ACTIVE" then .active
  else if text = "STOPPING" then .stopping
  else if text = "ABORTING" then .aborting
  else if text = "DESTROYING" then .destroying
  else .destroyed

theorem Role.ofText_text (r : Role) : .ofText r.text = r := by
  cases r with
  | workstation | downloader | scanner | exporter => decide
  | other text h => rw [Role.text, Role.ofText, dif_pos h]

theorem Phase.ofText_text (p : Phase) : .ofText p.text = p := by
  cases p with
  | created | preflighted | imagesVerified | storageReady | active | stopping | aborting
  | destroying | destroyed => decide
  | other text h => rw [Phase.text, Phase.ofText, dif_pos h]

def validateRole : Role → Except Err Unit
  | .workstation | .downloader | .scanner | .exporter => .ok ()
  | .other text _ => .error (newError ("unknown role " ++ quoted text))

def validPhase : Phase → Bool
  | .other _ _ => false
  | _ => true

/-! ## Identifiers and codes -/

/-- `sessionIDPattern`: `pvm-` and 32 lower-case hexadecimal digits. -/
def sessionIDPattern (id : String) : Bool :=
  id.toList.take 4 == ['p', 'v', 'm', '-'] && (id.toList.drop 4).length == 32 &&
    (id.toList.drop 4).all Hex.isDigit

def validateID (id : String) : Except Err Unit :=
  failIf (!sessionIDPattern id) (newError "invalid internal session identifier")

def isUpper (c : Char) : Bool := 65 ≤ c.toNat && c.toNat ≤ 90
def isDecimal (c : Char) : Bool := 48 ≤ c.toNat && c.toNat ≤ 57

/-- `eventCodePattern`: an upper-case letter, then 2 to 63 letters, digits or underscores. -/
def eventCodePattern (code : String) : Bool :=
  match code.toList with
  | [] => false
  | c :: rest =>
    isUpper c && 2 ≤ rest.length && rest.length ≤ 63 &&
      rest.all fun d => isUpper d || isDecimal d || d == '_'

/-! ## The lifecycle -/

def maxSessionEvents : Nat := 4096
def cleanupEventReserve : Nat := 3

def lifecycleTransitions : Phase → List Phase
  | .created => [.preflighted, .aborting]
  | .preflighted => [.imagesVerified, .aborting]
  | .imagesVerified => [.storageReady, .aborting]
  | .storageReady => [.active, .aborting]
  | .active => [.stopping, .aborting]
  | .stopping => [.destroying, .aborting]
  | .aborting => [.destroying]
  | .destroying => [.destroyed]
  | .destroyed | .other _ _ => []

/-- Code and message of the event that enters a phase. -/
def lifecycleEvents : Phase → Option (String × String)
  | .preflighted => some ("SESSION_PREFLIGHTED", "Host preflight completed.")
  | .imagesVerified => some ("SESSION_IMAGES_VERIFIED", "Guest image verification completed.")
  | .storageReady => some ("SESSION_STORAGE_READY", "Session storage is ready.")
  | .active => some ("SESSION_ACTIVE", "The session is active.")
  | .stopping => some ("SESSION_STOPPING", "A protected stop was requested.")
  | .aborting => some ("SESSION_ABORTING", "Session cleanup was requested.")
  | .destroying => some ("SESSION_DESTROYING", "Owned resources are being released.")
  | .destroyed => some ("SESSION_DESTROYED", "The resource absence audit completed.")
  | .created | .other _ _ => none

/-- Phases in which cleanup has started; no workflow step is taken in them. -/
def Phase.inCleanup : Phase → Bool
  | .stopping | .aborting | .destroying | .destroyed => true
  | _ => false

/-! ## Role workflows -/

/-- A workflow table: the states each state may advance to. -/
abbrev WorkflowTable := List (String × List String)

def WorkflowTable.set (table : WorkflowTable) (start : String) (targets : List String) :
    WorkflowTable :=
  (start, targets) :: table.filter fun row => row.1 != start

def WorkflowTable.allows (table : WorkflowTable) (start target : String) : Bool :=
  match table.lookup start with
  | some targets => targets.contains target
  | none => false

/-- A chain of states; the empty state is where every workflow starts. -/
def linearWorkflow (states : List String) : WorkflowTable :=
  (states.foldl (fun acc state => (acc.1.set acc.2 [state], state))
    (([], "") : WorkflowTable × String)).1

def workstationWorkflow : WorkflowTable :=
  ((linearWorkflow
    ["PLANNED", "IMAGE_READY", "STORAGE_READY", "NETWORK_READY", "VM_BOOTING",
      "GUEST_AUTHENTICATED", "VPN_CONFIGURED", "VPN_VERIFIED", "DISPLAY_READY",
      "WORKING", "EXPORT_REQUIRED", "STOP_REQUESTED", "OUTPUT_VERIFIED",
      "VM_STOPPED", "SESSION_DESTROYED"]).set "WORKING" ["EXPORT_REQUIRED", "CLEAN"]).set
    "CLEAN" ["STOP_REQUESTED"]

def scannerWorkflow : WorkflowTable :=
  ((linearWorkflow
    ["UPDATE_VM_BOOTING", "DEFINITIONS_UPDATING", "DEFINITIONS_VERIFIED",
      "UPDATE_VM_STOPPED", "SCAN_VM_BOOTING_OFFLINE", "OFFLINE_VERIFIED",
      "QUARANTINE_ATTACHED_READ_ONLY", "INVENTORY_COMPLETE", "MALWARE_SCAN_COMPLETE",
      "RECONSTRUCTION_COMPLETE", "REPORT_COMPLETE", "POLICY_APPROVED",
      "SCAN_VM_STOPPED"]).set "REPORT_COMPLETE" ["POLICY_APPROVED", "POLICY_REJECTED"]).set
    "POLICY_REJECTED" ["SCAN_VM_STOPPED"]

def downloaderWorkflow : WorkflowTable :=
  ((linearWorkflow
    ["PLANNED", "SCANNER_UPDATE_PREPARED", "DOWNLOADER_BOOTING", "GUEST_AUTHENTICATED",
      "VPN_CONFIGURED", "VPN_VERIFIED", "METADATA_FETCHING", "METADATA_READY",
      "FILE_SELECTION_REQUIRED", "CAPACITY_VERIFIED", "DOWNLOADING", "DOWNLOAD_COMPLETE",
      "DOWNLOADER_STOPPED", "QUARANTINE_SEALED"]).set
    "DOWNLOADING" ["DOWNLOAD_PAUSED", "DOWNLOAD_COMPLETE"]).set
    "DOWNLOAD_PAUSED" ["DOWNLOADING", "DOWNLOAD_COMPLETE"]

def exporterWorkflow : WorkflowTable :=
  linearWorkflow
    ["PLANNED", "USB_IDENTIFIED", "USB_CLAIMED", "EXPORTER_BOOTING",
      "GUEST_AUTHENTICATED", "NO_NETWORK_VERIFIED", "USB_ATTACHED",
      "DESTINATION_PREPARED", "STREAMING", "STREAM_COMPLETE", "FLUSHED",
      "POST_WRITE_VERIFIED", "USB_UNMOUNTED", "USB_DETACHED", "EXPORTER_STOPPED"]

def workflowTransitions : Role → WorkflowTable
  | .workstation => workstationWorkflow
  | .downloader => downloaderWorkflow
  | .scanner => scannerWorkflow
  | .exporter => exporterWorkflow
  | .other _ _ => []

/-! ## Sessions -/

structure Event where
  sequence : Nat
  code : String
  phase : Phase
  workflowState : String
  message : String
  time : Time
  deriving DecidableEq

structure Snapshot where
  schemaVersion : Int
  id : String
  ownerUID : UInt32
  role : Role
  phase : Phase
  workflowState : String
  sequence : Nat
  createdAt : Time
  updatedAt : Time
  events : List Event
  deriving DecidableEq

structure Session where
  id : String
  ownerUID : UInt32
  role : Role
  phase : Phase
  workflowState : String
  sequence : Nat
  createdAt : Time
  updatedAt : Time
  events : List Event
  deriving DecidableEq

def createdEvent (now : Time) : Event where
  sequence := 1
  code := "SESSION_CREATED"
  phase := .created
  workflowState := ""
  message := "Session record created."
  time := now

def newOwned (id : String) (ownerUID : UInt32) (role : Role) (now : Time) :
    Except Err Session := do
  validateRole role
  validateID id
  failIf now.isZero (newError "session creation time is required")
  let now := now.utc
  return { id, ownerUID, role, phase := .created, workflowState := "", sequence := 1,
           createdAt := now, updatedAt := now, events := [createdEvent now] }

namespace Session

def snapshot (s : Session) : Snapshot where
  schemaVersion := 1
  id := s.id
  ownerUID := s.ownerUID
  role := s.role
  phase := s.phase
  workflowState := s.workflowState
  sequence := s.sequence
  createdAt := s.createdAt
  updatedAt := s.updatedAt
  events := s.events

def restore (s : Session) (snapshot : Snapshot) : Session :=
  { s with
    phase := snapshot.phase
    workflowState := snapshot.workflowState
    sequence := snapshot.sequence
    updatedAt := snapshot.updatedAt
    events := snapshot.events }

def requireEventRoom (s : Session) (cleanupOwned : Bool) : Except Err Unit :=
  let limit := if cleanupOwned then maxSessionEvents else maxSessionEvents - cleanupEventReserve
  failIf (s.events.length ≥ limit) Sentinel.eventLimit.err

/-- The event that `appendEventLocked` appends. -/
def nextEvent (s : Session) (code message : String) (now : Time) : Event where
  sequence := s.sequence + 1
  code := code
  phase := s.phase
  workflowState := s.workflowState
  message := message
  time := now.utc

def appendEventLocked (s : Session) (code message : String) (now : Time) : Event × Session :=
  let event := s.nextEvent code message now
  (event, { s with
            sequence := s.sequence + 1
            updatedAt := now.utc
            events := s.events ++ [event] })

def transitionLifecycle (s : Session) (target : Phase) (cleanupOwned : Bool) (now : Time) :
    Except Err (Event × Session) := do
  failIf (!(lifecycleTransitions s.phase).contains target)
    (Sentinel.invalidTransition.errorf (s.phase.text ++ " -> " ++ target.text))
  failIf (!cleanupOwned && (target == .destroying || target == .destroyed))
    (Sentinel.invalidTransition.errorf (target.text ++ " is cleanup-owned"))
  s.requireEventRoom cleanupOwned
  match lifecycleEvents target with
  | none => throw (Sentinel.invalidTransition.errorf ("no event for " ++ target.text))
  | some (code, message) => return { s with phase := target }.appendEventLocked code message now

def transitionWorkflow (s : Session) (target : String) (now : Time) :
    Except Err (Event × Session) := do
  failIf s.phase.inCleanup
    (Sentinel.invalidWorkflow.errorf ("lifecycle phase " ++ s.phase.text))
  failIf (!(workflowTransitions s.role).allows s.workflowState target)
    (Sentinel.invalidWorkflow.errorf
      (s.role.text ++ " " ++ quoted s.workflowState ++ " -> " ++ quoted target))
  s.requireEventRoom false
  return { s with workflowState := target }.appendEventLocked "WORKFLOW_STATE_CHANGED"
    "Role workflow advanced." now

end Session

/-! ## What the operations do

One inversion lemma for each operation; everything later goes through these. -/

/-- The session after a step that appended an event. -/
def Session.record (s : Session) (e : Event) : Session :=
  { s with
    phase := e.phase
    workflowState := e.workflowState
    sequence := e.sequence
    updatedAt := e.time
    events := s.events ++ [e] }

theorem newOwned_eq_ok {id ownerUID role now s} :
    newOwned id ownerUID role now = .ok s ↔
      validateRole role = .ok () ∧ validateID id = .ok () ∧ now.isZero = false ∧
      s = { id, ownerUID, role, phase := .created, workflowState := "", sequence := 1,
            createdAt := now.utc, updatedAt := now.utc, events := [createdEvent now.utc] } := by
  simp [newOwned, @eq_comm _ _ s]

/-- The number of events below which a step still has room. -/
def eventLimit (cleanupOwned : Bool) : Nat :=
  if cleanupOwned then maxSessionEvents else maxSessionEvents - cleanupEventReserve

namespace Session

variable {s s' : Session} {cleanupOwned : Bool} {now : Time} {e : Event}

theorem requireEventRoom_eq_ok {u} :
    s.requireEventRoom cleanupOwned = .ok u ↔ s.events.length < eventLimit cleanupOwned := by
  simp [requireEventRoom, eventLimit]

/-- **What a lifecycle transition does**: it is in the graph, cleanup owns the last two
phases, there is room, and exactly one event is appended. -/
theorem transitionLifecycle_eq_ok {target} :
    s.transitionLifecycle target cleanupOwned now = .ok (e, s') ↔
      target ∈ lifecycleTransitions s.phase ∧
      (cleanupOwned = false → target ≠ .destroying ∧ target ≠ .destroyed) ∧
      s.events.length < eventLimit cleanupOwned ∧
      ∃ code message, lifecycleEvents target = some (code, message) ∧
        e = ⟨s.sequence + 1, code, target, s.workflowState, message, now.utc⟩ ∧
        s' = s.record e := by
  unfold transitionLifecycle
  cases he : lifecycleEvents target with
  | none => simp
  | some ev =>
    obtain ⟨code, message⟩ := ev
    simp only [requireEventRoom_eq_ok, appendEventLocked, nextEvent, bind_eq_ok]
    simp [@eq_comm _ _ e, @eq_comm _ _ s']
    rintro - - - rfl
    rfl

/-- **What a workflow transition does**: cleanup has not started, the role's table has the
step, there is room, and exactly one event is appended. -/
theorem transitionWorkflow_eq_ok {target} : s.transitionWorkflow target now = .ok (e, s') ↔
      s.phase.inCleanup = false ∧
      (workflowTransitions s.role).allows s.workflowState target = true ∧
      s.events.length < eventLimit false ∧
      e = ⟨s.sequence + 1, "WORKFLOW_STATE_CHANGED", s.phase, target,
        "Role workflow advanced.", now.utc⟩ ∧
      s' = s.record e := by
  simp [transitionWorkflow, requireEventRoom_eq_ok, appendEventLocked, nextEvent,
    @eq_comm _ _ e, @eq_comm _ _ s']
  rintro - - - rfl
  rfl

end Session

end PrivateVm.Session
