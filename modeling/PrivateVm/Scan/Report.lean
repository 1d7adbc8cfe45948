import PrivateVm.AppError
import PrivateVm.Basic.BytePath
import PrivateVm.Basic.Checked
import PrivateVm.Basic.Hex
import PrivateVm.Basic.Keyed
import PrivateVm.Basic.Timestamp
import PrivateVm.Basic.Utf8

set_option autoImplicit false

/-! # Scan reports (`internal/scan/report.go`, `internal/scan/finding.go`)

The report of a scan and its validation. A text of a report is a byte string: nothing makes the
name of a file, what ClamAV answers or the version of a tool valid UTF-8. The difference of two
times does not saturate: it is only compared with bounds far below the largest duration.
-/

namespace PrivateVm.Scan

open BytePath Checked Decimal Timestamp Utf8

/-! ## Errors -/

/-- `scan.Error`. Of the cause, only errors of a context are looked at. -/
structure Error where
  code : String
  message : String
  remediation : String
  cause : Option Fault
  deriving DecidableEq

def scanError (code message remediation : String) (cause : Option Fault) : Error :=
  ⟨code, message, remediation, cause⟩

def reportInvalid (message : String) : Error :=
  scanError "REPORT_INCOMPLETE" message
    "Repeat the complete offline scan and generate a new authenticated report." none

/-! ## Findings and tools -/

def maximumIdentityLength : Nat := 256
def maximumInventoryPathBytes : Nat := 4096

def validIdentity (value : Bytes) : Bool :=
  value != [] && value.length ≤ maximumIdentityLength && !containsAny value [0, 13, 10]

inductive Severity where
  | info
  | warning
  | blocking
  | unknown (text : Bytes)
  deriving DecidableEq

def Severity.known : Severity → Bool
  | .unknown _ => false
  | _ => true

structure Finding where
  code : Bytes
  severity : Severity
  relativePath : Bytes
  detail : Bytes
  identifier : Bytes
  deriving DecidableEq

def Finding.valid (finding : Finding) : Bool :=
  validIdentity finding.code && finding.severity.known && finding.detail != [] &&
    finding.detail.length ≤ 1024 &&
    finding.relativePath.length ≤ maximumInventoryPathBytes &&
    (finding.identifier == [] || validIdentity finding.identifier)

structure ToolEvidence where
  name : Bytes
  version : Bytes
  deriving DecidableEq

def ToolEvidence.valid (evidence : ToolEvidence) : Bool :=
  validIdentity evidence.name && validIdentity evidence.version

/-! ## The report -/

/-- A slice. One that is `nil` has no items either; the two differ in how they are written. -/
abbrev Slice (α : Type) := Option (List α)

def Slice.items {α : Type} (slice : Slice α) : List α := slice.getD []

inductive ArchiveFormat where
  | zip
  | tar
  | unknown (text : Bytes)
  deriving DecidableEq

inductive Policy where
  | safe
  | quarantine
  | unknown (text : Bytes)
  deriving DecidableEq

inductive ReportResult where
  | approved
  | rejected
  | error
  | unknown (text : Bytes)
  deriving DecidableEq

structure ReportScannerIdentity where
  imageDigest : Bytes
  sourceCommit : Bytes
  guestdVersion : Bytes
  deriving DecidableEq

structure ReportDefinitions where
  engineVersion : Bytes
  databaseVersion : Bytes
  updatedAt : Time
  official : Bool
  compatible : Bool
  deriving DecidableEq

structure ReportIsolation where
  noNetwork : Bool
  quarantineReadOnly : Bool
  mountOptions : Slice Bytes
  deriving DecidableEq

structure ReportPhases where
  definitionsVerified : Bool
  offlineVerified : Bool
  inventoryComplete : Bool
  malwareScanComplete : Bool
  archiveInspectionComplete : Bool
  reconstructionComplete : Bool
  outputRescanComplete : Bool
  deriving DecidableEq

structure ReportInput where
  logicalName : Bytes
  sizeBytes : UInt64
  sha256 : Bytes
  detectedMIME : Bytes
  extensionMIME : Bytes
  extensionAgreement : Bool
  clamAVVerdict : Bytes
  deriving DecidableEq

structure ReportArchive where
  sourceSHA256 : Bytes
  format : ArchiveFormat
  depth : UInt32
  entryCount : UInt64
  expandedBytes : UInt64
  complete : Bool
  deriving DecidableEq

structure ReportSanitizedOutput where
  outputID : Bytes
  logicalName : Bytes
  sourceSHA256 : Bytes
  sizeBytes : UInt64
  sha256 : Bytes
  detectedMIME : Bytes
  transformation : Bytes
  rescanVerdict : Bytes
  deriving DecidableEq

structure ScanReport where
  schemaVersion : Int
  sessionID : Bytes
  policy : Policy
  startedAt : Time
  completedAt : Time
  durationMillis : UInt64
  scanner : ReportScannerIdentity
  definitions : ReportDefinitions
  isolation : ReportIsolation
  phases : ReportPhases
  inputs : Slice ReportInput
  archives : Slice ReportArchive
  findings : Slice Finding
  sanitizedOutputs : Slice ReportSanitizedOutput
  tools : Slice ToolEvidence
  result : ReportResult
  complete : Bool
  deriving DecidableEq

/-! ## Texts of a report -/

/-- A fixed beginning and a number of lower-case hexadecimal digits. -/
def hexPattern (start : String) (digits : Nat) (value : Bytes) : Bool :=
  (utf8 start).isPrefixOf value && (value.drop (utf8 start).length).length == digits &&
    (value.drop (utf8 start).length).all (Hex.isLower ·.toNat)

def reportSessionIDPattern : Bytes → Bool := hexPattern "pvm-" 32
def reportDigestPattern : Bytes → Bool := hexPattern "" 64
def reportImagePattern : Bytes → Bool := hexPattern "sha256:" 64
def reportCommitPattern : Bytes → Bool := hexPattern "" 40
def reportOutputIDPattern : Bytes → Bool := hexPattern "scan-out-" 32

def validMIME (value : Bytes) : Bool :=
  value != [] && value.length ≤ 255 && !containsAny value [0, 13, 10, 32, 59] &&
    -- `strings.Cut` at the first slash
    value.takeWhile (· != slash) != [] && (value.dropWhile (· != slash)).tail != []

def validLogicalName (value : Bytes) : Bool :=
  value != [] && value.length ≤ maximumInventoryPathBytes && !containsAny value [0, 92] &&
    value.head? != some slash && clean value == value && value != dot && value != dotDot

/-! ## The order of the records -/

def ReportInput.key (input : ReportInput) : Bytes := input.logicalName

def ReportArchive.key (archive : ReportArchive) : List ℕ ×ₗ ℕ :=
  toLex (archive.sourceSHA256.map UInt8.toNat, archive.depth.toNat)

def Finding.key (finding : Finding) : Bytes :=
  finding.relativePath ++ 0 :: (finding.code ++ 0 :: finding.identifier)

def ReportSanitizedOutput.key (output : ReportSanitizedOutput) : Bytes := output.outputID

def ToolEvidence.key (evidence : ToolEvidence) : Bytes := evidence.name

/-! ## Validation -/

def maximumRecords : Nat := 1000000

def ReportInput.valid (input : ReportInput) : Bool :=
  validLogicalName input.logicalName && input.sizeBytes != 0 && reportDigestPattern input.sha256 &&
    validMIME input.detectedMIME && (input.extensionMIME == [] || validMIME input.extensionMIME) &&
    validIdentity input.clamAVVerdict

def ReportArchive.valid (archive : ReportArchive) : Bool :=
  reportDigestPattern archive.sourceSHA256 && (archive.format == .zip || archive.format == .tar) &&
    archive.depth ≤ 10 && archive.entryCount != 0 && archive.expandedBytes != 0 && archive.complete

/-- The checks that `Validate` makes of a finding. -/
def Finding.reportable (finding : Finding) : Bool :=
  finding.valid && (finding.relativePath == [] || validLogicalName finding.relativePath)

def ReportSanitizedOutput.valid (output : ReportSanitizedOutput) : Bool :=
  reportOutputIDPattern output.outputID && validLogicalName output.logicalName &&
    reportDigestPattern output.sourceSHA256 && output.sizeBytes != 0 &&
    reportDigestPattern output.sha256 && validMIME output.detectedMIME &&
    validIdentity output.transformation && output.rescanVerdict == utf8 "CLAMAV_CLEAN"

/-- The reconstructions, each with the tools of which it needs evidence. -/
def reconstructionTools : List (Bytes × List Bytes) :=
  [(utf8 "pdf-raster-rebuild-v1", [utf8 "ghostscript", utf8 "poppler-utils"]),
    (utf8 "office-render-pdf-raster-rebuild-v1",
      [utf8 "ghostscript", utf8 "libreoffice", utf8 "poppler-utils"]),
    (utf8 "media-full-decode-aac-v1", [utf8 "ffmpeg"]),
    (utf8 "media-full-decode-h264-aac-v1", [utf8 "ffmpeg"]),
    (utf8 "image-decode-strip-reencode-png-v1", [utf8 "go-image-png"]),
    (utf8 "text-utf8-line-normalize-v1", [utf8 "private-vm-text-normalizer"])]

def requiredTools (transformation : Bytes) : Option (List Bytes) :=
  reconstructionTools.lookup transformation

def checkOutputTools (toolNames : List Bytes) (output : ReportSanitizedOutput) :
    Except Error Unit :=
  match requiredTools output.transformation with
  | none =>
    .error (reportInvalid "A sanitized output names an unsupported reconstruction contract.")
  | some required =>
    failIf (∃ name ∈ required, name ∉ toolNames)
      (reportInvalid "A sanitized output omits its required tool evidence.")

def hour : Int := 3600 * 1000000000
def minute : Int := 60 * 1000000000

def defaultMaximumDefinitionAge : Int := 24 * hour

def ReportPhases.all (phases : ReportPhases) : Bool :=
  phases.definitionsVerified && phases.offlineVerified && phases.inventoryComplete &&
    phases.malwareScanComplete && phases.archiveInspectionComplete &&
    phases.reconstructionComplete && phases.outputRescanComplete

def hasBlockingFinding (findings : List Finding) : Bool :=
  findings.any (·.severity == .blocking)

namespace ScanReport

variable (report : ScanReport)

def checkTiming : Except Error Unit := do
  let elapsed := report.completedAt.nanos - report.startedAt.nanos
  failIf (report.startedAt.isZero ∨ report.completedAt.isZero ∨
      !report.completedAt.after report.startedAt ∨ elapsed > 24 * hour ∨
      (elapsed / 1000000).toNat ≠ report.durationMillis.toNat)
    (reportInvalid "The scan report timing evidence is incomplete or inconsistent.")

def checkScanner : Except Error Unit := do
  failIf (!reportImagePattern report.scanner.imageDigest ∨
      !reportCommitPattern report.scanner.sourceCommit ∨
      !validIdentity report.scanner.guestdVersion)
    (reportInvalid "The scanner image identity is incomplete.")
  failIf (!validIdentity report.definitions.engineVersion ∨
      !validIdentity report.definitions.databaseVersion ∨
      report.definitions.updatedAt.isZero ∨ !report.definitions.official ∨
      !report.definitions.compatible ∨
      report.definitions.updatedAt.nanos > report.completedAt.nanos + 5 * minute)
    (reportInvalid "The scanner definition identity is incomplete.")
  failIf (!report.isolation.noNetwork ∨ !report.isolation.quarantineReadOnly ∨
      report.isolation.mountOptions.items ≠ [utf8 "nodev", utf8 "noexec", utf8 "nosuid", utf8 "ro"])
    (reportInvalid "The offline scanner isolation evidence is incomplete.")

def checkRecords : Except Error Unit := do
  failIf (report.inputs.items = [] ∨ report.inputs.items.length > maximumRecords ∨
      ¬ Keyed.Increasing ReportInput.key report.inputs.items)
    (reportInvalid "The scan input inventory is empty, oversized or not canonical.")
  failIf (∃ input ∈ report.inputs.items, !input.valid)
    (reportInvalid "A scan input record is incomplete.")
  failIf (report.archives.items.length > maximumRecords ∨
      ¬ Keyed.Increasing ReportArchive.key report.archives.items)
    (reportInvalid "Archive report records are oversized or not canonical.")
  failIf (∃ archive ∈ report.archives.items, !archive.valid)
    (reportInvalid "An archive report record is incomplete.")
  failIf (report.findings.items.length > maximumRecords ∨
      ¬ Keyed.Increasing Finding.key report.findings.items)
    (reportInvalid "Scan findings are oversized or not canonical.")
  failIf (∃ finding ∈ report.findings.items, !finding.reportable)
    (reportInvalid "A scan finding is incomplete.")

def checkOutputs : Except Error Unit := do
  failIf (report.sanitizedOutputs.items.length > maximumRecords ∨
      ¬ Keyed.Increasing ReportSanitizedOutput.key report.sanitizedOutputs.items)
    (reportInvalid "Sanitized outputs are oversized or not canonical.")
  failIf (∃ output ∈ report.sanitizedOutputs.items, !output.valid)
    (reportInvalid "A sanitized output record is incomplete or was not rescanned.")
  failIf (report.tools.items = [] ∨ report.tools.items.length > 256 ∨
      ¬ Keyed.Increasing ToolEvidence.key report.tools.items)
    (reportInvalid "Scanner tool identity is empty, oversized or not canonical.")
  failIf (∃ tool ∈ report.tools.items, !tool.valid)
    (reportInvalid "A scanner tool identity is incomplete.")
  let toolNames := report.tools.items.map (·.name)
  failIf (∃ required ∈ [utf8 "clamav", utf8 "file"], required ∉ toolNames)
    (reportInvalid "The scanner report omits required manifest-backed tool evidence.")
  report.sanitizedOutputs.items.forM (checkOutputTools toolNames)

def checkResult : Except Error Unit :=
  let blocking := hasBlockingFinding report.findings.items
  match report.result with
  | .approved =>
    failIf (!report.complete ∨ report.policy ≠ .safe ∨ !report.phases.all ∨ blocking ∨
        report.sanitizedOutputs.items = [] ∨
        report.completedAt.nanos - report.definitions.updatedAt.nanos >
          defaultMaximumDefinitionAge)
      (scanError "REPORT_INCOMPLETE" "The scan report cannot authorize promotion."
        "Repeat every scanner phase with current definitions and no blocking findings." none)
  | .rejected =>
    failIf (!report.complete ∨ !report.phases.all ∨ !blocking ∨ report.sanitizedOutputs.items ≠ [])
      (reportInvalid
        ("A rejected report lacks a complete blocking decision or contains promotable " ++
          "output."))
  | .error =>
    failIf (report.complete ∨ report.sanitizedOutputs.items ≠ [])
      (reportInvalid "An error report cannot be complete or contain promotable output.")
  | .unknown _ => .error (reportInvalid "The scan report result is invalid.")

def validate : Except Error Unit := do
  failIf (report.schemaVersion ≠ 1 ∨ !reportSessionIDPattern report.sessionID ∨
      (report.policy ≠ .safe ∧ report.policy ≠ .quarantine))
    (reportInvalid "The scan report identity or schema is invalid.")
  report.checkTiming
  report.checkScanner
  report.checkRecords
  report.checkOutputs
  report.checkResult

end ScanReport

end PrivateVm.Scan
