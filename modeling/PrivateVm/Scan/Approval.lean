import PrivateVm.Scan.SignedReport

set_option autoImplicit false

/-! # Approvable reports

What a report that `VerifyApproval` accepts says about its own evidence. `Validate` collects the
hashes of the inputs and compares nothing with them, and it takes any text for the verdict of an
input; the rest of the evidence is consistent whenever a report is accepted.
-/

namespace PrivateVm.Scan

open Checked Decimal Json Utf8

/-- The hash of a listed input, or a listed archive that was inspected completely. -/
def ScanReport.Traceable (report : ScanReport) (source : Bytes) : Prop :=
  (∃ input ∈ report.inputs.items, input.sha256 = source) ∨
    ∃ archive ∈ report.archives.items, archive.complete = true

/-- The evidence of a report supports its approval. -/
structure ScanReport.Consistent (report : ScanReport) : Prop where
  phases : report.phases = ⟨true, true, true, true, true, true, true⟩
  findings : ∀ finding ∈ report.findings.items, finding.severity ≠ .blocking
  inputs : ∀ input ∈ report.inputs.items, input.clamAVVerdict = utf8 "CLAMAV_CLEAN"
  rescans : ∀ output ∈ report.sanitizedOutputs.items, output.rescanVerdict = utf8 "CLAMAV_CLEAN"
  sources : ∀ output ∈ report.sanitizedOutputs.items, report.Traceable output.sourceSHA256

theorem ReportPhases.all_eq_true {phases : ReportPhases} :
    phases.all = true ↔ phases = ⟨true, true, true, true, true, true, true⟩ := by
  obtain ⟨definitions, offline, inventory, malware, archives, reconstruction, rescan⟩ := phases
  simp [ReportPhases.all, and_assoc]

theorem hasBlockingFinding_eq_false {findings} :
    hasBlockingFinding findings = false ↔ ∀ finding ∈ findings, finding.severity ≠ .blocking := by
  simp [hasBlockingFinding]

theorem ReportSanitizedOutput.rescanned {output : ReportSanitizedOutput}
    (h : output.valid = true) : output.rescanVerdict = utf8 "CLAMAV_CLEAN" := by
  simp only [ReportSanitizedOutput.valid, Bool.and_eq_true, beq_iff_eq] at h
  exact h.2

variable {report : ScanReport} {mac : Mac} {envelope : AuthenticatedReport} {key : Option Bytes}

theorem verifyApproval_eq_ok :
    verifyApproval mac envelope key = .ok report ↔ verifyReport mac envelope key = .ok report ∧
      report.complete = true ∧ report.result = .approved := by
  simp only [verifyApproval, bind_eq_ok, failIf_eq_ok, pure_eq_ok, not_or, Bool.not_eq_true',
    Bool.not_eq_false, not_not]
  constructor
  · rintro ⟨report, hrep, -, ⟨hcomp, hres⟩, rfl⟩
    exact ⟨hrep, hcomp, hres⟩
  · rintro ⟨hrep, hcomp, hres⟩
    exact ⟨report, hrep, (), ⟨hcomp, hres⟩, rfl⟩

theorem accepted_of_verifyApproval (h : verifyApproval mac envelope key = .ok report) :
    report.Accepted ∧ report.result = .approved := by
  obtain ⟨hver, -, hres⟩ := verifyApproval_eq_ok.1 h
  exact ⟨(canonicalJSON_eq_ok.1 (verifyReport_eq_ok.1 hver).2.2.1).1, hres⟩

/-- What the decision of an approved report rests on. -/
theorem ScanReport.Accepted.approved (h : report.Accepted) (hres : report.result = .approved) :
    report.phases.all = true ∧ hasBlockingFinding report.findings.items = false := by
  cases h.decided with
  | approved _ _ _ phases clean => exact ⟨phases, clean⟩
  | rejected result _ _ _ _ | error result =>
    rw [hres] at result
    cases result

/-- **An approvable report is consistent** exactly if its inputs are clean and its outputs are
traceable: the rest of its evidence always is. -/
theorem approval_consistent_iff {mac : Mac} {envelope : AuthenticatedReport} {key : Option Bytes}
    {report : ScanReport} (h : verifyApproval mac envelope key = .ok report) :
    report.Consistent ↔
      (∀ input ∈ report.inputs.items, input.clamAVVerdict = utf8 "CLAMAV_CLEAN") ∧
        ∀ output ∈ report.sanitizedOutputs.items,
          output.sourceSHA256 ∈ report.inputs.items.map (·.sha256) ∨
            report.archives.items ≠ [] := by
  obtain ⟨hacc, hres⟩ := accepted_of_verifyApproval h
  obtain ⟨hphas, hclean⟩ := hacc.approved hres
  have harchive : ∀ archive ∈ report.archives.items, archive.complete = true := by
    intro archive hmem
    have hval := hacc.archives.valid archive hmem
    simp only [ReportArchive.valid, Bool.and_eq_true] at hval
    exact hval.2
  have htrac : ∀ source, report.Traceable source ↔
      source ∈ report.inputs.items.map (·.sha256) ∨ report.archives.items ≠ [] := by
    intro source
    rw [List.mem_map]
    apply or_congr .rfl
    constructor
    · rintro ⟨archive, hmem, -⟩
      exact List.ne_nil_of_mem hmem
    · intro hne
      obtain ⟨archive, rest, harch⟩ := List.exists_cons_of_ne_nil hne
      have hmem : archive ∈ report.archives.items := by rw [harch]; exact List.mem_cons_self
      exact ⟨archive, hmem, harchive archive hmem⟩
  constructor
  · intro hcons
    exact ⟨hcons.inputs, fun output hmem => (htrac _).1 (hcons.sources output hmem)⟩
  · rintro ⟨hinp, hsour⟩
    exact ⟨ReportPhases.all_eq_true.1 hphas, hasBlockingFinding_eq_false.1 hclean, hinp,
      fun output hmem => ReportSanitizedOutput.rescanned (hacc.outputs.valid output hmem),
      fun output hmem => (htrac _).2 (hsour output hmem)⟩

/-- A report of one image verifies as an approval when it has a canonical document. -/
theorem verifyApproval_imageReport {name verdict source encoded}
    (h : (imageReport (utf8 name) (utf8 verdict) (utf8 source)).canonicalJSON = .ok encoded) :
    verifyApproval constantMac ⟨encoded, .replicate 32 0, true⟩ (some (.replicate 32 0)) =
      .ok (imageReport (utf8 name) (utf8 verdict) (utf8 source)) :=
  verifyApproval_eq_ok.2 ⟨(@verifyReport_signed _ _ constantMac _ (by decide) h).2
    (portable_imageReport (valid_utf8 _) (valid_utf8 _)), rfl, rfl⟩

theorem approval_consistent_image :
    (imageReport (utf8 "a") (utf8 "CLAMAV_CLEAN")
      (utf8 "aaaaaaaaaaaaaaaaaaaaaaaaaaaaaaaaaaaaaaaaaaaaaaaaaaaaaaaaaaaaaaaa")).Consistent := by
  obtain ⟨encoded, henc⟩ := @exists_canonicalJSON
    (imageReport (utf8 "a") (utf8 "CLAMAV_CLEAN")
      (utf8 "aaaaaaaaaaaaaaaaaaaaaaaaaaaaaaaaaaaaaaaaaaaaaaaaaaaaaaaaaaaaaaaa")) (by decide +kernel)
  exact (approval_consistent_iff (verifyApproval_imageReport henc)).2 (by decide +kernel)

/-- An approval whose only input was found to be malware, and whose output comes from a file that
the report does not list. -/
theorem approval_inconsistent :
    ∃ (envelope : AuthenticatedReport) (key : Option Bytes) (report : ScanReport),
      verifyApproval constantMac envelope key = .ok report ∧
        (∀ input ∈ report.inputs.items, input.clamAVVerdict = utf8 "MALWARE_DETECTED") ∧
        (∀ output ∈ report.sanitizedOutputs.items, ¬ report.Traceable output.sourceSHA256) ∧
        ¬ report.Consistent := by
  obtain ⟨encoded, henc⟩ := @exists_canonicalJSON
    (imageReport (utf8 "a") (utf8 "MALWARE_DETECTED")
      (utf8 "bbbbbbbbbbbbbbbbbbbbbbbbbbbbbbbbbbbbbbbbbbbbbbbbbbbbbbbbbbbbbbbb")) (by decide +kernel)
  refine ⟨_, _, _, verifyApproval_imageReport henc, by decide +kernel, ?_, ?_⟩
  · unfold ScanReport.Traceable
    decide +kernel
  · intro hcons
    have hinput := hcons.inputs _ (List.mem_singleton.2 rfl)
    exact absurd hinput (by decide +kernel)

end PrivateVm.Scan
