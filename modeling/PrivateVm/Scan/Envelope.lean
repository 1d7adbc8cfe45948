import PrivateVm.Scan.Accepted
import PrivateVm.Scan.ReportJson

set_option autoImplicit false

/-! # Signed reports (`internal/scan/report.go`)

Verification compares the tag, decodes the document, validates the report and requires that the
document is the one the encoder writes for it. The keyed hash is a parameter that gives 32 bytes.
-/

namespace PrivateVm.Scan

open Checked Decimal Json Timestamp Utf8

def maximumScanReportBytes : Nat := 4 * (1024 * 1024)
def scanReportMACBytes : Nat := 32

/-- A keyed hash with tags of 32 bytes. -/
structure Mac where
  sum : Bytes → Bytes → Bytes
  length_sum : ∀ key message, (sum key message).length = scanReportMACBytes

structure AuthenticatedReport where
  canonicalJSON : Bytes
  authenticationTag : Bytes
  complete : Bool
  deriving DecidableEq

/-- `json.Marshal(report)`; a time outside the years 0 to 9999 has no text. -/
def ScanReport.marshal (report : ScanReport) : Option Bytes :=
  (reportRecord.codec.write report).map fun v => render v.toks

def ScanReport.canonicalJSON (report : ScanReport) : Except Error Bytes := do
  report.validate
  let tooLarge := scanError "REPORT_TOO_LARGE" "The scan report exceeds its canonical size bound."
    "Reduce the selected file count and repeat scanning." none
  let encoded ← ofOption tooLarge report.marshal
  failIf (encoded.length > maximumScanReportBytes) tooLarge
  return encoded

/-- The key is missing, or can no longer be read, as `none`. -/
def reportMAC (mac : Mac) (key : Option Bytes) (message : Bytes) : Except Error Bytes := do
  let unavailable := scanError "REPORT_KEY_UNAVAILABLE"
    "The volatile report authentication key is unavailable."
    "Destroy the scanner and start a fresh authenticated session." none
  let key ← ofOption unavailable key
  failIf (key.length ≠ scanReportMACBytes) unavailable
  return mac.sum key message

def signReport (mac : Mac) (report : ScanReport) (key : Option Bytes) :
    Except Error AuthenticatedReport := do
  let canonical ← report.canonicalJSON
  let tag ← reportMAC mac key canonical
  return ⟨canonical, tag, report.complete⟩

/-! ## Verification -/

/-- The report that a value spells, with unknown fields disallowed. -/
def decodeReport (v : Value) : Option ScanReport := reportRecord.codec.read v zeroReport

def decodeDocument (encoded : Bytes) : Option ScanReport :=
  ((lex encoded).bind Json.parse).bind decodeReport

/-- A report stands at the front of bytes that are no document. -/
def beginsWithReport (encoded : Bytes) : Bool :=
  ((lex encoded).bind Json.parse).isNone &&
    (List.range encoded.length).any fun n => (decodeDocument (encoded.take n)).isSome

def decodeCanonicalReport (encoded : Bytes) : Except Error ScanReport := do
  failIf (beginsWithReport encoded)
    (reportInvalid "The authenticated scan report has trailing content.")
  let report ← ofOption (reportInvalid "The authenticated scan report JSON is invalid.")
    (decodeDocument encoded)
  report.validate
  failIf (report.marshal ≠ some encoded)
    (reportInvalid "The authenticated scan report is not canonical JSON.")
  return report

def authenticationFailed (message : String) : Error :=
  scanError "REPORT_AUTHENTICATION_FAILED" message
    "Destroy the scanner and repeat the complete scan workflow." none

def verifyReport (mac : Mac) (envelope : AuthenticatedReport) (key : Option Bytes) :
    Except Error ScanReport := do
  failIf (envelope.canonicalJSON = [] ∨ envelope.canonicalJSON.length > maximumScanReportBytes ∨
      envelope.authenticationTag.length ≠ scanReportMACBytes)
    (authenticationFailed "The scan report envelope is invalid.")
  let expected ← reportMAC mac key envelope.canonicalJSON
  failIf (expected ≠ envelope.authenticationTag)
    (authenticationFailed "The scan report authentication tag does not match.")
  let report ← decodeCanonicalReport envelope.canonicalJSON
  failIf (report.complete ≠ envelope.complete)
    (authenticationFailed "The scan report completeness flag is inconsistent.")
  return report

def verifyApproval (mac : Mac) (envelope : AuthenticatedReport) (key : Option Bytes) :
    Except Error ScanReport := do
  let report ← verifyReport mac envelope key
  failIf (!report.complete ∨ report.result ≠ .approved)
    (scanError "REPORT_INCOMPLETE" "The scan report does not authorize promotion."
      "Complete every scanner phase with an approved result before transfer." none)
  return report

/-! ## What is signed and what is accepted -/

variable {report : ScanReport} {encoded : Bytes} {mac : Mac} {key : Option Bytes}

theorem canonicalJSON_eq_ok :
    report.canonicalJSON = .ok encoded ↔ report.Accepted ∧ report.marshal = some encoded ∧
      encoded.length ≤ maximumScanReportBytes := by
  simp only [ScanReport.canonicalJSON, bind_eq_ok, ofOption_eq_ok, failIf_eq_ok, pure_eq_ok]
  constructor
  · rintro ⟨_, hval, encoded, henc, -, hlen, rfl⟩
    exact ⟨ScanReport.validate_eq_ok.1 hval, henc, Nat.le_of_not_lt hlen⟩
  · rintro ⟨hval, henc, hlen⟩
    exact ⟨(), ScanReport.validate_eq_ok.2 hval, encoded, henc, (), Nat.not_lt.2 hlen, rfl⟩

theorem reportMAC_eq_ok {message tag} : reportMAC mac key message = .ok tag ↔
      ∃ k, key = some k ∧ k.length = scanReportMACBytes ∧ tag = mac.sum k message := by
  simp only [reportMAC, bind_eq_ok, ofOption_eq_ok, failIf_eq_ok, pure_eq_ok, not_not]
  constructor
  · rintro ⟨k, hk, -, hlen, rfl⟩
    exact ⟨k, hk, hlen, rfl⟩
  · rintro ⟨k, hk, hlen, rfl⟩
    exact ⟨k, hk, (), hlen, rfl⟩

theorem decodeCanonicalReport_eq_ok : decodeCanonicalReport encoded = .ok report ↔
      decodeDocument encoded = some report ∧ report.Accepted ∧ report.marshal = some encoded := by
  have hbeg : decodeDocument encoded = some report → beginsWithReport encoded = false := by
    intro h
    obtain ⟨v, hv, -⟩ := Option.bind_eq_some_iff.1 h
    simp [beginsWithReport, hv]
  simp only [decodeCanonicalReport, bind_eq_ok, ofOption_eq_ok, failIf_eq_ok, pure_eq_ok,
    not_not, Bool.not_eq_true]
  constructor
  · rintro ⟨-, -, report, hrep, _, hval, -, hmar, rfl⟩
    exact ⟨hrep, ScanReport.validate_eq_ok.1 hval, hmar⟩
  · rintro ⟨hrep, hval, hmar⟩
    exact ⟨(), hbeg hrep, report, hrep, (), ScanReport.validate_eq_ok.2 hval, (), hmar, rfl⟩

/-- **What verification accepts**: a tag that fits the document, and the document that the encoder
writes for the report it spells. -/
theorem verifyReport_eq_ok {envelope} :
    verifyReport mac envelope key = .ok report ↔
      (∃ k, key = some k ∧ k.length = scanReportMACBytes ∧
        envelope.authenticationTag = mac.sum k envelope.canonicalJSON) ∧
      decodeDocument envelope.canonicalJSON = some report ∧
      report.canonicalJSON = .ok envelope.canonicalJSON ∧ report.complete = envelope.complete := by
  simp only [verifyReport, bind_eq_ok, failIf_eq_ok, pure_eq_ok, reportMAC_eq_ok,
    decodeCanonicalReport_eq_ok, canonicalJSON_eq_ok, not_or, not_not, Nat.not_lt]
  constructor
  · rintro ⟨-, ⟨-, hlen, -⟩, _, ⟨k, hk, hkey, rfl⟩, -, htag, report, ⟨hrep, hval, hmar⟩,
      -, hcomp, rfl⟩
    exact ⟨⟨k, hk, hkey, htag.symm⟩, hrep, ⟨hval, hmar, hlen⟩, hcomp⟩
  rintro ⟨⟨k, hk, hkey, htag⟩, hrep, ⟨hval, hmar, hlen⟩, hcomp⟩
  refine ⟨(), ⟨?_, hlen, ?_⟩, _, ⟨k, hk, hkey, rfl⟩, (), htag.symm, report,
    ⟨hrep, hval, hmar⟩, (), hcomp, rfl⟩
  · intro hnil
    rw [hnil] at hrep
    cases hrep
  · rw [htag, mac.length_sum]

end PrivateVm.Scan
