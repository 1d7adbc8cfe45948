import PrivateVm.Json.Record
import PrivateVm.Scan.Report
import PrivateVm.Session.RoundTrip

set_option autoImplicit false

/-! # A scan report as JSON

The fields of each record of a report, in the order and under the names of the source's tags.
-/

namespace PrivateVm.Scan

open Decimal Json Json.Codec Timestamp Utf8

/-! ## Named values -/

def Severity.text : Severity → Bytes
  | .info => utf8 "info"
  | .warning => utf8 "warning"
  | .blocking => utf8 "blocking"
  | .unknown text => text

def Severity.ofText (text : Bytes) : Severity :=
  if text = utf8 "info" then .info
  else if text = utf8 "warning" then .warning
  else if text = utf8 "blocking" then .blocking
  else .unknown text

def ArchiveFormat.text : ArchiveFormat → Bytes
  | .zip => utf8 "zip"
  | .tar => utf8 "tar"
  | .unknown text => text

def ArchiveFormat.ofText (text : Bytes) : ArchiveFormat :=
  if text = utf8 "zip" then .zip else if text = utf8 "tar" then .tar else .unknown text

def Policy.text : Policy → Bytes
  | .safe => utf8 "safe"
  | .quarantine => utf8 "quarantine"
  | .unknown text => text

def Policy.ofText (text : Bytes) : Policy :=
  if text = utf8 "safe" then .safe
  else if text = utf8 "quarantine" then .quarantine
  else .unknown text

def ReportResult.text : ReportResult → Bytes
  | .approved => utf8 "approved"
  | .rejected => utf8 "rejected"
  | .error => utf8 "error"
  | .unknown text => text

def ReportResult.ofText (text : Bytes) : ReportResult :=
  if text = utf8 "approved" then .approved
  else if text = utf8 "rejected" then .rejected
  else if text = utf8 "error" then .error
  else .unknown text

/-! ## Numbers and times -/

def uint64 : Codec UInt64 :=
  scalar (fun n => some (Session.natValue n.toNat)) fun v =>
    (Session.readUint 64 v).map UInt64.ofNat

def uint32 : Codec UInt32 :=
  scalar (fun n => some (Session.natValue n.toNat)) fun v =>
    (Session.readUint 32 v).map UInt32.ofNat

def int : Codec Int := scalar (fun i => some (Session.intValue i)) Session.readInt

def time : Codec Time := scalar Session.timeValue Session.readTime

/-! ## Records -/

def scannerRecord : Record ReportScannerIdentity where
  fields :=
    [field "image_digest" .bytes (·.imageDigest) fun x r => { r with imageDigest := x },
      field "source_commit" .bytes (·.sourceCommit) fun x r => { r with sourceCommit := x },
      field "guestd_version" .bytes (·.guestdVersion) fun x r => { r with guestdVersion := x }]

def definitionsRecord : Record ReportDefinitions where
  fields :=
    [field "engine_version" .bytes (·.engineVersion) fun x r => { r with engineVersion := x },
      field "database_version" .bytes (·.databaseVersion) fun x r =>
        { r with databaseVersion := x },
      field "updated_at" time (·.updatedAt) fun x r => { r with updatedAt := x },
      field "official" .bool (·.official) fun x r => { r with official := x },
      field "compatible" .bool (·.compatible) fun x r => { r with compatible := x }]

def isolationRecord : Record ReportIsolation where
  fields :=
    [field "no_network" .bool (·.noNetwork) fun x r => { r with noNetwork := x },
      field "quarantine_read_only" .bool (·.quarantineReadOnly) fun x r =>
        { r with quarantineReadOnly := x },
      field "mount_options" (.slice .bytes []) (·.mountOptions) fun x r =>
        { r with mountOptions := x }]

def phasesRecord : Record ReportPhases where
  fields :=
    [field "definitions_verified" .bool (·.definitionsVerified) fun x r =>
        { r with definitionsVerified := x },
      field "offline_verified" .bool (·.offlineVerified) fun x r => { r with offlineVerified := x },
      field "inventory_complete" .bool (·.inventoryComplete) fun x r =>
        { r with inventoryComplete := x },
      field "malware_scan_complete" .bool (·.malwareScanComplete) fun x r =>
        { r with malwareScanComplete := x },
      field "archive_inspection_complete" .bool (·.archiveInspectionComplete) fun x r =>
        { r with archiveInspectionComplete := x },
      field "reconstruction_complete" .bool (·.reconstructionComplete) fun x r =>
        { r with reconstructionComplete := x },
      field "output_rescan_complete" .bool (·.outputRescanComplete) fun x r =>
        { r with outputRescanComplete := x }]

def inputRecord : Record ReportInput where
  fields :=
    [field "logical_name" .bytes (·.logicalName) fun x r => { r with logicalName := x },
      field "size_bytes" uint64 (·.sizeBytes) fun x r => { r with sizeBytes := x },
      field "sha256" .bytes (·.sha256) fun x r => { r with sha256 := x },
      field "detected_mime" .bytes (·.detectedMIME) fun x r => { r with detectedMIME := x },
      omitEmpty "extension_mime" (·.extensionMIME) fun x r => { r with extensionMIME := x },
      field "extension_agreement" .bool (·.extensionAgreement) fun x r =>
        { r with extensionAgreement := x },
      field "clamav_verdict" .bytes (·.clamAVVerdict) fun x r => { r with clamAVVerdict := x }]

def archiveRecord : Record ReportArchive where
  fields :=
    [field "source_sha256" .bytes (·.sourceSHA256) fun x r => { r with sourceSHA256 := x },
      field "format" (.named ArchiveFormat.text .ofText) (·.format) fun x r =>
        { r with format := x },
      field "depth" uint32 (·.depth) fun x r => { r with depth := x },
      field "entry_count" uint64 (·.entryCount) fun x r => { r with entryCount := x },
      field "expanded_bytes" uint64 (·.expandedBytes) fun x r => { r with expandedBytes := x },
      field "complete" .bool (·.complete) fun x r => { r with complete := x }]

def findingRecord : Record Finding where
  fields :=
    [field "code" .bytes (·.code) fun x r => { r with code := x },
      field "severity" (.named Severity.text .ofText) (·.severity) fun x r =>
        { r with severity := x },
      omitEmpty "path" (·.relativePath) fun x r => { r with relativePath := x },
      field "detail" .bytes (·.detail) fun x r => { r with detail := x },
      omitEmpty "identifier" (·.identifier) fun x r => { r with identifier := x }]

def outputRecord : Record ReportSanitizedOutput where
  fields :=
    [field "output_id" .bytes (·.outputID) fun x r => { r with outputID := x },
      field "logical_name" .bytes (·.logicalName) fun x r => { r with logicalName := x },
      field "source_sha256" .bytes (·.sourceSHA256) fun x r => { r with sourceSHA256 := x },
      field "size_bytes" uint64 (·.sizeBytes) fun x r => { r with sizeBytes := x },
      field "sha256" .bytes (·.sha256) fun x r => { r with sha256 := x },
      field "detected_mime" .bytes (·.detectedMIME) fun x r => { r with detectedMIME := x },
      field "transformation" .bytes (·.transformation) fun x r => { r with transformation := x },
      field "rescan_verdict" .bytes (·.rescanVerdict) fun x r => { r with rescanVerdict := x }]

def toolRecord : Record ToolEvidence where
  fields :=
    [field "name" .bytes (·.name) fun x r => { r with name := x },
      field "version" .bytes (·.version) fun x r => { r with version := x }]

/-! ## The report -/

def zeroInput : ReportInput := ⟨[], 0, [], [], [], false, []⟩
def zeroArchive : ReportArchive := ⟨[], .unknown [], 0, 0, 0, false⟩
def zeroFinding : Finding := ⟨[], .unknown [], [], [], []⟩
def zeroOutput : ReportSanitizedOutput := ⟨[], [], [], 0, [], [], [], []⟩
def zeroTool : ToolEvidence := ⟨[], []⟩

def zeroReport : ScanReport where
  schemaVersion := 0
  sessionID := []
  policy := .unknown []
  startedAt := ⟨0, 0⟩
  completedAt := ⟨0, 0⟩
  durationMillis := 0
  scanner := ⟨[], [], []⟩
  definitions := ⟨[], [], ⟨0, 0⟩, false, false⟩
  isolation := ⟨false, false, none⟩
  phases := ⟨false, false, false, false, false, false, false⟩
  inputs := none
  archives := none
  findings := none
  sanitizedOutputs := none
  tools := none
  result := .unknown []
  complete := false

def reportRecord : Record ScanReport where
  fields :=
    [field "schema_version" int (·.schemaVersion) fun x r => { r with schemaVersion := x },
      field "session_id" .bytes (·.sessionID) fun x r => { r with sessionID := x },
      field "policy" (.named Policy.text .ofText) (·.policy) fun x r => { r with policy := x },
      field "started_at" time (·.startedAt) fun x r => { r with startedAt := x },
      field "completed_at" time (·.completedAt) fun x r => { r with completedAt := x },
      field "duration_millis" uint64 (·.durationMillis) fun x r => { r with durationMillis := x },
      field "scanner" scannerRecord.codec (·.scanner) fun x r => { r with scanner := x },
      field "definitions" definitionsRecord.codec (·.definitions) fun x r =>
        { r with definitions := x },
      field "isolation" isolationRecord.codec (·.isolation) fun x r => { r with isolation := x },
      field "phases" phasesRecord.codec (·.phases) fun x r => { r with phases := x },
      field "inputs" (.slice inputRecord.codec zeroInput) (·.inputs) fun x r =>
        { r with inputs := x },
      field "archives" (.slice archiveRecord.codec zeroArchive) (·.archives) fun x r =>
        { r with archives := x },
      field "findings" (.slice findingRecord.codec zeroFinding) (·.findings) fun x r =>
        { r with findings := x },
      field "sanitized_outputs" (.slice outputRecord.codec zeroOutput) (·.sanitizedOutputs)
        fun x r => { r with sanitizedOutputs := x },
      field "tools" (.slice toolRecord.codec zeroTool) (·.tools) fun x r => { r with tools := x },
      field "result" (.named ReportResult.text .ofText) (·.result) fun x r =>
        { r with result := x },
      field "complete" .bool (·.complete) fun x r => { r with complete := x }]

end PrivateVm.Scan
