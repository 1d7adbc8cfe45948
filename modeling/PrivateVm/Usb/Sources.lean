import PrivateVm.Session.Model
import PrivateVm.Usb.Output
import PrivateVm.Workstation.Outbox

set_option autoImplicit false

/-! # Sources of a USB export (`source_registry.go`, `approved_sources.go`)

A scanner or a workstation registers, under a selection, a factory that opens a stream of one
approved output. Its first frame has to agree with what was approved, and a registration is used
once. The third kind of source is made by the daemon for a workspace destination.
-/

namespace PrivateVm.Usb

open Checked Transfer Workstation

def maximumApprovedSourceBytes : Nat := 8 * 1024 * 1024 * 1024

def maximumWorkspaceUSBDestinationBytes : Nat := 8 * 1024 * 1024 * 1024

/-! ## Selections -/

def isSourceOutputIDChar (c : Char) : Bool :=
  c.isAlphanum || ['.', '_', ':', '@', '+', '-'].contains c

/-- `^[A-Za-z0-9][A-Za-z0-9._:@+-]{7,127}$` -/
def sourceOutputIDPattern (text : String) : Bool :=
  match text.toList with
  | [] => false
  | c :: rest =>
    c.isAlphanum && 7 ≤ rest.length && rest.length ≤ 127 && rest.all isSourceOutputIDChar

structure SourceSelection where
  role : SourceRole
  sessionID : String
  outputID : String
  deriving DecidableEq

def SourceSelection.validate (s : SourceSelection) : Except String Unit := do
  failIf (s.role ≠ .scanner ∧ s.role ≠ .workstation) "USB export source role is invalid"
  failIf ((Session.validateID s.sessionID).isOk = false ∨ !sourceOutputIDPattern s.outputID)
    "USB export source selection is invalid"

/-! ## The first frame -/

/-- `ErrApprovedSourceUnavailable`, with what else is joined to it. -/
structure SourceUnavailable where
  cause : Option String := none
  deriving DecidableEq

def approvedDigestMatches (expected : Digest) : Option Hash → Bool
  | none => false
  | some h => h.algorithm == "sha256" && h.value.length == 32 && expected.toList == h.value

def bindApprovedDescriptor (base : ApprovedOutput) (descriptor : Option FileDescriptor) :
    Except SourceUnavailable ApprovedOutput := do
  let d ← ofOption {} descriptor
  failIf (d.sizeBytes ≠ base.size ∨ !approvedDigestMatches base.sourceDigest d.digest) {}
  failIf ((base.logicalName ≠ "" ∧ base.logicalName ≠ d.logicalName) ∨
    (base.mediaType ≠ "" ∧ base.mediaType ≠ d.detectedMime)) {}
  let bound := { base with logicalName := d.logicalName, mediaType := d.detectedMime }
  (bound.validate maximumApprovedSourceBytes).mapError fun e => ⟨some e⟩
  return bound

/-- `openApprovedFrameSource`: the output the source stands for; `none` is that no first frame
was delivered. -/
def openApprovedFrameSource (base : ApprovedOutput) :
    Option TransferFrame → Except SourceUnavailable ApprovedOutput
  | some (.beginning begin) => do
      failIf (begin.context.isSome ∨ begin.transferId ≠ base.outputID) {}
      bindApprovedDescriptor base begin.descriptor
  | _ => .error {}

/-! ## Entries of a workspace -/

def currentWorkspaceEntry (state : Option WorkspaceState) (outputID : String)
    (expectedSize : Nat) : Except SourceUnavailable WorkspaceEntry := do
  let state ← ofOption {} state
  failIf (state.entries.length = 0 ∨ state.entries.length > 1024) {}
  match state.entries.filter fun entry => entry.outputId == outputID with
  | [selected] => do
      failIf (!selected.exported ∨ selected.changedSinceExport ∨ selected.sizeBytes = 0 ∨
        selected.sizeBytes > maximumApprovedSourceBytes ∨
        (expectedSize ≠ 0 ∧ selected.sizeBytes ≠ expectedSize)) {}
      return selected
  | _ => .error {}

/-! ## Factories -/

/-- What a registered factory captures. -/
inductive SourceFactory where
  | scanner (base : ApprovedOutput)
  | workstation (outputID : String) (pinnedSize : Nat) (pinnedDigest : Digest)
  deriving DecidableEq

/-- An output of a workstation, with the one of two authorizations it has. -/
def workstationOutput (outputID logicalName mediaType : String) (size : Nat) (digest : Digest)
    (ready destination : Bool) : ApprovedOutput where
  sourceRole := .workstation
  outputID := outputID
  logicalName := logicalName
  mediaType := mediaType
  size := size
  sourceDigest := digest
  reportAuthenticated := false
  reportComplete := false
  policyApproved := false
  reconstructed := false
  exportStateAuthenticated := true
  exportStateReady := ready
  workspaceDestinationAuthorized := destination

/-- A factory is called: the workstation's state, if it can be had, and the first frame of the
stream are what the guest answers. -/
def SourceFactory.openSource (inventory : Option WorkspaceState) (first : Option TransferFrame) :
    SourceFactory → Except SourceUnavailable ApprovedOutput
  | .scanner base => openApprovedFrameSource base first
  | .workstation outputID pinnedSize pinnedDigest => do
      let state ← ofOption {} inventory
      let _ ← currentWorkspaceEntry (some state) outputID pinnedSize
      openApprovedFrameSource (workstationOutput outputID "" "" pinnedSize pinnedDigest true false)
        first

/-! ## The registry -/

/-- `ApprovedSourceRegistry` -/
abbrev SourceRegistry : Type := AList fun _ : SourceSelection => SourceFactory

def SourceRegistry.replaceSource (registry : SourceRegistry) (selection : SourceSelection)
    (factory : SourceFactory) : Except String SourceRegistry := do
  (selection.validate).mapError fun _ => "approved source registration is invalid"
  return registry.insert selection factory

/-! ## The source of a workspace destination -/

/-- `^output-[0-9a-f]{32}$` -/
def workspaceOutputIDPattern (text : String) : Bool :=
  "output-".toList.isPrefixOf text.toList && (text.toList.drop 7).length == 32 &&
    (text.toList.drop 7).all Hex.isDigit

def workspaceUSBDigest (value : Option Hash) : Option Digest := value.bind Hash.digest?

/-- `newWorkspaceUSBApprovedSource`: the output that the first frame describes. A frame without a
descriptor has one of empty fields. -/
def newWorkspaceUSBApprovedSource (expectedOutputID : String) :
    Option TransferFrame → Except String ApprovedOutput
  | some (.beginning begin) => do
      let d := begin.descriptor.getD ⟨"", 0, "", none⟩
      let digest ← ofOption "workspace USB source descriptor is invalid"
        (workspaceUSBDigest d.digest)
      let output := workstationOutput begin.transferId d.logicalName d.detectedMime d.sizeBytes
        digest false true
      failIf (begin.context.isSome ∨ begin.transferId ≠ expectedOutputID ∨
          !workspaceOutputIDPattern begin.transferId ∨
          (output.validate maximumWorkspaceUSBDestinationBytes).isOk = false)
        "workspace USB source descriptor is invalid"
      return output
  | _ => .error "workspace USB source begin is unavailable"

/-! ## What every source admits -/

/-- An output that one of the sources admits. -/
inductive Admitted : ApprovedOutput → Prop
  | registered {factory : SourceFactory} {inventory : Option WorkspaceState}
      {first : Option TransferFrame} {output : ApprovedOutput}
      (h : factory.openSource inventory first = .ok output) : Admitted output
  | destination {expectedOutputID : String} {first : Option TransferFrame}
      {output : ApprovedOutput}
      (h : newWorkspaceUSBApprovedSource expectedOutputID first = .ok output) : Admitted output

variable {output : ApprovedOutput} {base : ApprovedOutput}

theorem validate_of_bindApprovedDescriptor {descriptor}
    (h : bindApprovedDescriptor base descriptor = .ok output) :
    output.validate maximumApprovedSourceBytes = .ok () := by
  simp only [bindApprovedDescriptor, bind_eq_ok, pure_eq_ok] at h
  obtain ⟨d, -, -, -, -, -, u, hval, rfl⟩ := h
  exact mapError_eq_ok.1 hval

theorem validate_of_openApprovedFrameSource {first}
    (h : openApprovedFrameSource base first = .ok output) :
    output.validate maximumApprovedSourceBytes = .ok () := by
  unfold openApprovedFrameSource at h
  split at h
  · obtain ⟨-, -, hbind⟩ := bind_eq_ok.1 h
    exact validate_of_bindApprovedDescriptor hbind
  · cases h

/-- Every source has validated its output against eight GiB. -/
theorem Admitted.validate (h : Admitted output) :
    output.validate maximumApprovedSourceBytes = .ok () := by
  cases h with
  | @registered factory inventory first output h =>
    cases factory with
    | scanner => exact validate_of_openApprovedFrameSource h
    | workstation =>
      simp only [SourceFactory.openSource, bind_eq_ok] at h
      obtain ⟨-, -, -, -, hopen⟩ := h
      exact validate_of_openApprovedFrameSource hopen
  | @destination expectedOutputID first output h =>
    unfold newWorkspaceUSBApprovedSource at h
    split at h
    · simp only [bind_eq_ok, pure_eq_ok, failIf_eq_ok, not_or, Bool.not_eq_false] at h
      obtain ⟨digest, -, -, ⟨-, -, -, hval⟩, rfl⟩ := h
      exact isOk_eq_true.1 hval
    · cases h

end PrivateVm.Usb
