import PrivateVm.Scan.Report

set_option autoImplicit false

/-! # What an accepted report says

`ScanReport.Accepted` has one part for each group of checks, and `validate_eq_ok` says that
`Validate` accepts exactly the reports for which they all hold.
-/

namespace PrivateVm.Scan

open BytePath Checked Decimal Timestamp Utf8

/-- What holds of a list of records: it is bounded, in the order of its keys, and every record
passes its own check. -/
structure Canonical {α κ : Type} [LT κ] (limit : Nat) (key : α → κ) (valid : α → Bool)
    (records : List α) : Prop where
  bounded : records.length ≤ limit
  increasing : Keyed.Increasing key records
  valid : ∀ record ∈ records, valid record = true

namespace ScanReport

/-- The decision of a report agrees with its evidence. -/
inductive Decided (report : ScanReport) : Prop where
  | approved (result : report.result = .approved) (complete : report.complete = true)
      (policy : report.policy = .safe) (phases : report.phases.all = true)
      (clean : hasBlockingFinding report.findings.items = false)
      (outputs : report.sanitizedOutputs.items ≠ [])
      (current : report.completedAt.nanos - report.definitions.updatedAt.nanos ≤
        defaultMaximumDefinitionAge)
  | rejected (result : report.result = .rejected) (complete : report.complete = true)
      (phases : report.phases.all = true)
      (blocked : hasBlockingFinding report.findings.items = true)
      (outputs : report.sanitizedOutputs.items = [])
  | error (result : report.result = .error) (complete : report.complete = false)
      (outputs : report.sanitizedOutputs.items = [])

/-- The evidence of which tools a reconstruction needs is there. -/
def Equipped (report : ScanReport) (output : ReportSanitizedOutput) : Prop :=
  ∃ required, requiredTools output.transformation = some required ∧
    ∀ name ∈ required, name ∈ report.tools.items.map (·.name)

structure Accepted (report : ScanReport) : Prop where
  schemaVersion : report.schemaVersion = 1
  sessionID : reportSessionIDPattern report.sessionID = true
  policy : report.policy = .safe ∨ report.policy = .quarantine
  startedAt : report.startedAt.isZero = false
  completedAt : report.completedAt.isZero = false
  advanced : report.completedAt.after report.startedAt = true
  lasted : report.completedAt.nanos - report.startedAt.nanos ≤ 24 * hour
  duration : ((report.completedAt.nanos - report.startedAt.nanos) / 1000000).toNat =
    report.durationMillis.toNat
  imageDigest : reportImagePattern report.scanner.imageDigest = true
  sourceCommit : reportCommitPattern report.scanner.sourceCommit = true
  guestdVersion : validIdentity report.scanner.guestdVersion = true
  engineVersion : validIdentity report.definitions.engineVersion = true
  databaseVersion : validIdentity report.definitions.databaseVersion = true
  updatedAt : report.definitions.updatedAt.isZero = false
  official : report.definitions.official = true
  compatible : report.definitions.compatible = true
  notAhead : report.definitions.updatedAt.nanos ≤ report.completedAt.nanos + 5 * minute
  noNetwork : report.isolation.noNetwork = true
  readOnly : report.isolation.quarantineReadOnly = true
  mountOptions : report.isolation.mountOptions.items =
    [utf8 "nodev", utf8 "noexec", utf8 "nosuid", utf8 "ro"]
  inputs_ne : report.inputs.items ≠ []
  inputs : Canonical maximumRecords ReportInput.key ReportInput.valid report.inputs.items
  archives : Canonical maximumRecords ReportArchive.key ReportArchive.valid report.archives.items
  findings : Canonical maximumRecords Finding.key Finding.reportable report.findings.items
  outputs : Canonical maximumRecords ReportSanitizedOutput.key ReportSanitizedOutput.valid
    report.sanitizedOutputs.items
  tools_ne : report.tools.items ≠ []
  tools : Canonical 256 ToolEvidence.key ToolEvidence.valid report.tools.items
  clamav : utf8 "clamav" ∈ report.tools.items.map (·.name)
  file : utf8 "file" ∈ report.tools.items.map (·.name)
  equipped : ∀ output ∈ report.sanitizedOutputs.items, report.Equipped output
  decided : report.Decided

variable {report : ScanReport}

theorem checkResult_eq_ok : report.checkResult = .ok () ↔ report.Decided := by
  unfold checkResult
  constructor
  · intro h
    cases hres : report.result with
    | approved =>
      simp only [hres, failIf_eq_ok, not_or, not_not, not_lt, Bool.not_eq_true',
        Bool.not_eq_false, Bool.not_eq_true] at h
      obtain ⟨hcomp, hpol, hphas, hclean, houts, hcur⟩ := h
      exact .approved hres hcomp hpol hphas hclean houts hcur
    | rejected =>
      simp only [hres, failIf_eq_ok, not_or, not_not, Bool.not_eq_true', Bool.not_eq_false] at h
      obtain ⟨hcomp, hphas, hbloc, houts⟩ := h
      exact .rejected hres hcomp hphas hbloc houts
    | error =>
      simp only [hres, failIf_eq_ok, not_or, not_not, Bool.not_eq_true] at h
      exact .error hres h.1 h.2
    | unknown =>
      rw [hres] at h
      cases h
  · rintro (⟨hres, hcomp, hpol, hphas, hclean, houts, hcur⟩ |
      ⟨hres, hcomp, hphas, hbloc, houts⟩ | ⟨hres, hcomp, houts⟩)
    · simp [hres, hcomp, hpol, hphas, hclean, houts, hcur]
    · simp [hres, hcomp, hphas, hbloc, houts]
    · simp [hres, hcomp, houts]

theorem checkOutputTools_eq_ok {output} :
    checkOutputTools (report.tools.items.map (·.name)) output = .ok () ↔
      report.Equipped output := by
  unfold checkOutputTools Equipped
  cases requiredTools output.transformation with
  | none | some => simp

theorem then_eq_ok {β : Type} {x} {f : Unit → Except Error β} {b : β} :
    (x >>= f) = .ok b ↔ x = .ok () ∧ f () = .ok b := by
  rw [bind_eq_ok]
  exact ⟨fun ⟨(), h⟩ => h, fun h => ⟨(), h⟩⟩

theorem checkTiming_eq_ok :
    report.checkTiming = .ok () ↔ report.startedAt.isZero = false ∧
      report.completedAt.isZero = false ∧ report.completedAt.after report.startedAt = true ∧
      report.completedAt.nanos - report.startedAt.nanos ≤ 24 * hour ∧
      ((report.completedAt.nanos - report.startedAt.nanos) / 1000000).toNat =
        report.durationMillis.toNat := by
  simp only [checkTiming, failIf_eq_ok, not_or, not_not, Bool.not_eq_true',
    Bool.not_eq_false, Bool.not_eq_true, not_lt]

theorem checkScanner_eq_ok :
    report.checkScanner = .ok () ↔
      (reportImagePattern report.scanner.imageDigest = true ∧
        reportCommitPattern report.scanner.sourceCommit = true ∧
        validIdentity report.scanner.guestdVersion = true) ∧
      (validIdentity report.definitions.engineVersion = true ∧
        validIdentity report.definitions.databaseVersion = true ∧
        report.definitions.updatedAt.isZero = false ∧ report.definitions.official = true ∧
        report.definitions.compatible = true ∧
        report.definitions.updatedAt.nanos ≤ report.completedAt.nanos + 5 * minute) ∧
      report.isolation.noNetwork = true ∧ report.isolation.quarantineReadOnly = true ∧
      report.isolation.mountOptions.items =
        [utf8 "nodev", utf8 "noexec", utf8 "nosuid", utf8 "ro"] := by
  simp [checkScanner]

theorem canonical_iff {α κ : Type} [LT κ] {limit : Nat} {key : α → κ} {valid : α → Bool} {records} :
    Canonical limit key valid records ↔
      (records.length ≤ limit ∧ Keyed.Increasing key records) ∧
        ∀ record ∈ records, valid record = true :=
  ⟨fun h => ⟨⟨h.bounded, h.increasing⟩, h.valid⟩, fun h => ⟨h.1.1, h.1.2, h.2⟩⟩

theorem checkRecords_eq_ok :
    report.checkRecords = .ok () ↔ report.inputs.items ≠ [] ∧
      Canonical maximumRecords ReportInput.key ReportInput.valid report.inputs.items ∧
      Canonical maximumRecords ReportArchive.key ReportArchive.valid report.archives.items ∧
      Canonical maximumRecords Finding.key Finding.reportable report.findings.items := by
  simp only [checkRecords, then_eq_ok, failIf_eq_ok, not_or, not_not, not_exists, not_and,
    Bool.not_eq_true', Bool.not_eq_false, not_lt, canonical_iff, and_assoc]

theorem checkOutputs_eq_ok :
    report.checkOutputs = .ok () ↔
      Canonical maximumRecords ReportSanitizedOutput.key ReportSanitizedOutput.valid
        report.sanitizedOutputs.items ∧
      report.tools.items ≠ [] ∧
      Canonical 256 ToolEvidence.key ToolEvidence.valid report.tools.items ∧
      (utf8 "clamav" ∈ report.tools.items.map (·.name) ∧
        utf8 "file" ∈ report.tools.items.map (·.name)) ∧
      ∀ output ∈ report.sanitizedOutputs.items, report.Equipped output := by
  have htools : (¬∃ required ∈ [utf8 "clamav", utf8 "file"],
      required ∉ report.tools.items.map (·.name)) ↔
      utf8 "clamav" ∈ report.tools.items.map (·.name) ∧
        utf8 "file" ∈ report.tools.items.map (·.name) := by
    simp only [not_exists, not_and, not_not, List.forall_mem_cons, List.not_mem_nil, false_imp_iff,
      implies_true, and_true]
  have hequip : (report.sanitizedOutputs.items.forM
      (checkOutputTools (report.tools.items.map (·.name)))) = .ok () ↔
      ∀ output ∈ report.sanitizedOutputs.items, report.Equipped output := by
    rw [forM_eq_ok]
    exact forall₂_congr fun _ _ => checkOutputTools_eq_ok
  simp only [checkOutputs, then_eq_ok, failIf_eq_ok, htools]
  rw [hequip]
  simp only [not_or, not_not, not_exists, not_and, Bool.not_eq_true', Bool.not_eq_false, not_lt,
    canonical_iff, and_assoc]

/-- **What `Validate` accepts.** -/
theorem validate_eq_ok : report.validate = .ok () ↔ report.Accepted := by
  have hhead : (¬(report.schemaVersion ≠ 1 ∨ (!reportSessionIDPattern report.sessionID) = true ∨
      (report.policy ≠ .safe ∧ report.policy ≠ .quarantine))) ↔
      report.schemaVersion = 1 ∧ reportSessionIDPattern report.sessionID = true ∧
        (report.policy = .safe ∨ report.policy = .quarantine) := by
    simp only [not_or, not_and_or, not_not, Bool.not_eq_true', Bool.not_eq_false]
  simp only [validate, then_eq_ok, failIf_eq_ok, hhead, checkTiming_eq_ok,
    checkScanner_eq_ok, checkRecords_eq_ok, checkOutputs_eq_ok, checkResult_eq_ok]
  constructor
  · rintro ⟨⟨hsch, hses, hpol⟩, ⟨hstd, hcomp, hadv, hlast, hdur⟩,
      ⟨⟨himage, hcomm, hgues⟩, ⟨heng, hdb, hupd, hoff, hcompat, hahead⟩,
        hnet, hro, hmount⟩, ⟨hne, hinp, harch, hfind⟩,
      ⟨houts, htool, htools, ⟨hclam, hfile⟩, hequip⟩, hdec⟩
    exact ⟨hsch, hses, hpol, hstd, hcomp, hadv, hlast, hdur, himage,
      hcomm, hgues, heng, hdb, hupd, hoff, hcompat, hahead, hnet,
      hro, hmount, hne, hinp, harch, hfind, houts, htool, htools, hclam,
      hfile, hequip, hdec⟩
  · intro h
    exact ⟨⟨h.schemaVersion, h.sessionID, h.policy⟩,
      ⟨h.startedAt, h.completedAt, h.advanced, h.lasted, h.duration⟩,
      ⟨⟨h.imageDigest, h.sourceCommit, h.guestdVersion⟩,
        ⟨h.engineVersion, h.databaseVersion, h.updatedAt, h.official, h.compatible, h.notAhead⟩,
        h.noNetwork, h.readOnly, h.mountOptions⟩,
      ⟨h.inputs_ne, h.inputs, h.archives, h.findings⟩,
      ⟨h.outputs, h.tools_ne, h.tools, ⟨h.clamav, h.file⟩, h.equipped⟩, h.decided⟩

end ScanReport

end PrivateVm.Scan
