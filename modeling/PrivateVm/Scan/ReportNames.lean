import PrivateVm.Scan.SignedReport

set_option autoImplicit false

/-! # The names in a report

`Validate` takes a name that `path.Clean` leaves as it is, and `..` at the beginning of a path is
clean: a name may lead out of the directory it is joined to.
-/

namespace PrivateVm.Scan

open BytePath Decimal Utf8

/-- A relative path of plain segments, which stays below every directory it is joined to. -/
structure Inside (name : Bytes) : Prop where
  relative : name.head? ≠ some slash
  plain : ∀ segment ∈ name.splitOn slash, Plain segment
  below : ∀ directory, directory ≠ [] →
    segments (directory ++ slash :: name) = segments directory ++ name.splitOn slash

/-- The names of a report. A finding may be without a path. -/
def ScanReport.names (report : ScanReport) : List Bytes :=
  report.inputs.items.map (·.logicalName) ++
    (report.findings.items.map (·.relativePath)).filter (· ≠ []) ++
    report.sanitizedOutputs.items.map (·.logicalName)

theorem inside_iff {name} (h : validLogicalName name = true) :
    Inside name ↔ (name.splitOn slash).head? ≠ some dotDot := by
  simp only [validLogicalName, Bool.and_eq_true, bne_iff_ne, beq_iff_eq] at h
  obtain ⟨⟨⟨⟨-, hrel⟩, hclean⟩, hdot⟩, -⟩ := h
  constructor
  · intro hin hup
    exact (hin.plain _ (List.mem_of_head? hup)).2.2 rfl
  · intro hup
    have hplain := plain_of_clean hrel hclean hdot hup
    exact ⟨hrel, hplain, fun _ hdir => segments_join hdir hplain⟩

theorem ScanReport.Accepted.names {report : ScanReport} (h : report.Accepted) :
    ∀ name ∈ report.names, validLogicalName name = true := by
  intro name hname
  simp only [ScanReport.names, List.mem_append, List.mem_filter, List.mem_map] at hname
  obtain (⟨input, hin, rfl⟩ | ⟨⟨finding, hfind, rfl⟩, hne⟩) | ⟨output, hout, rfl⟩ := hname
  · have hval := h.inputs.valid _ hin
    simp only [ReportInput.valid, Bool.and_eq_true] at hval
    exact hval.1.1.1.1.1
  · have hval := h.findings.valid _ hfind
    simp only [Finding.reportable, Bool.and_eq_true, Bool.or_eq_true, beq_iff_eq] at hval
    exact hval.2.resolve_left (of_decide_eq_true hne)
  · have hval := h.outputs.valid _ hout
    simp only [ReportSanitizedOutput.valid, Bool.and_eq_true] at hval
    exact hval.1.1.1.1.1.1.2

/-- **The names of an accepted report stay inside** exactly if none begins with a `..`. -/
theorem names_inside_iff {report : ScanReport} (h : report.validate = .ok ()) :
    (∀ name ∈ report.names, Inside name) ↔
      ∀ name ∈ report.names, (name.splitOn slash).head? ≠ some dotDot := by
  have hnames := (ScanReport.validate_eq_ok.1 h).names
  exact forall₂_congr fun name hname => inside_iff (hnames name hname)

theorem names_inside_image :
    (imageReport (utf8 "a") (utf8 "CLAMAV_CLEAN") (.replicate 64 97)).validate = .ok () ∧
      ∀ name ∈ (imageReport (utf8 "a") (utf8 "CLAMAV_CLEAN") (.replicate 64 97)).names,
        Inside name := by
  refine ⟨by decide +kernel, ?_⟩
  exact (names_inside_iff (by decide +kernel)).2 (by decide +kernel)

/-- A report that is accepted with the input `../a`, which leaves the directory `d`. -/
theorem name_leads_out :
    ∃ report : ScanReport, report.validate = .ok () ∧ ∃ name ∈ report.names, ¬ Inside name ∧
      segments (utf8 "d" ++ slash :: name) = [utf8 "a"] := by
  refine ⟨imageReport (utf8 "../a") (utf8 "CLAMAV_CLEAN") (.replicate 64 97), by decide +kernel,
    utf8 "../a", by decide +kernel, fun h => ?_, by decide +kernel⟩
  exact absurd (h.plain dotDot (by decide +kernel)).2.2 (by simp)

end PrivateVm.Scan
