import PrivateVm.Scan.Envelope

set_option autoImplicit false

/-! # Signing a report and verifying it

A signed report comes back from verification exactly if every text in it is valid UTF-8 and its
times survive being written (`ScanReport.Portable`): the encoder replaces a malformed byte, so that
the document is not the canonical one of the report that is read.
-/

namespace PrivateVm.Scan

open Checked Decimal Json Json.Codec Timestamp Utf8

/-! ## Scalars -/

theorem natValue_ne_null (n : Nat) : some (Session.natValue n) ≠ some .null := by
  simp [Session.natValue]

theorem keeps_uint64 (zero n : UInt64) : uint64.Keeps zero n := by
  refine (keeps_scalar fun _ => natValue_ne_null _).2 ?_
  have hread := Session.readUint_natValue n.toNat_lt 0
  simp only [Session.readInto, Session.natValue] at hread
  simp [Session.natValue, hread]

theorem keeps_uint32 (zero n : UInt32) : uint32.Keeps zero n := by
  refine (keeps_scalar fun _ => natValue_ne_null _).2 ?_
  have hread := Session.readUint_natValue n.toNat_lt 0
  simp only [Session.readInto, Session.natValue] at hread
  simp [Session.natValue, hread]

theorem keeps_int_one (zero : Int) : int.Keeps zero 1 :=
  ⟨Session.natValue 1, rfl, rfl⟩

theorem timeValue_ne_null (t : Time) : Session.timeValue t ≠ some .null := by
  simp [Session.timeValue]

theorem keeps_time {zero t} : time.Keeps zero t ↔ Representable t := by
  rw [time, keeps_scalar timeValue_ne_null, ← reread_eq_self_iff, reread, Session.timeValue]
  cases format t <;> rfl

theorem legible_natValue (n : Nat) : (Session.natValue n).Legible := by
  simp [Session.natValue, Value.Legible, Value.toks, Tok.Legible]

@[simp] theorem legible_uint64 (n : UInt64) : uint64.Legible n := by
  rintro v ⟨⟩
  exact legible_natValue _

@[simp] theorem legible_uint32 (n : UInt32) : uint32.Legible n := by
  rintro v ⟨⟩
  exact legible_natValue _

@[simp] theorem legible_int_one : int.Legible 1 := by
  rintro v ⟨⟩
  exact legible_natValue 1

@[simp] theorem legible_time (t : Time) : time.Legible t := by
  intro v hv k hk
  exact ((Session.fits_timeValue (Nat.zero_le _) hv).clean k hk).legible

/-! ## Texts that are always valid -/

theorem valid_hexPattern {start} {digits : Nat} {value} (h : hexPattern start digits value = true) :
    Valid value := by
  simp only [hexPattern, Bool.and_eq_true, List.all_eq_true] at h
  obtain ⟨⟨hstart, -⟩, hhex⟩ := h
  obtain ⟨rest, rfl⟩ := List.isPrefixOf_iff_prefix.1 hstart
  rw [List.drop_left] at hhex
  refine (valid_utf8 start).append (valid_ascii fun b hb => ?_)
  have hb := hhex b hb
  simp only [Hex.isLower, Bool.or_eq_true, Bool.and_eq_true, decide_eq_true_eq] at hb
  omega

theorem valid_of_requiredTools {transformation required}
    (h : requiredTools transformation = some required) : Valid transformation := by
  have htab : ∀ entry ∈ reconstructionTools, Valid entry.1 := by
    rw [← List.forall_iff_forall_mem]
    exact ⟨valid_utf8 _, valid_utf8 _, valid_utf8 _, valid_utf8 _, valid_utf8 _, valid_utf8 _⟩
  obtain ⟨l₁, l₂, htools, -⟩ := List.lookup_eq_some_iff.1 h
  exact htab (transformation, required) (by rw [htools]; simp)

/-! ## Named values that come back -/

theorem keeps_policy {zero policy} (h : policy = .safe ∨ policy = .quarantine) :
    (named Policy.text .ofText).Keeps zero policy := by
  rcases h with rfl | rfl
  · exact keeps_named (valid_utf8 "safe") (by decide)
  · exact keeps_named (valid_utf8 "quarantine") (by decide)

theorem keeps_severity {zero severity} (h : severity.known = true) :
    (named Severity.text .ofText).Keeps zero severity := by
  cases severity with
  | info => exact keeps_named (valid_utf8 "info") (by decide)
  | warning => exact keeps_named (valid_utf8 "warning") (by decide)
  | blocking => exact keeps_named (valid_utf8 "blocking") (by decide)
  | unknown => cases h

theorem keeps_format {zero format} (h : format = .zip ∨ format = .tar) :
    (named ArchiveFormat.text .ofText).Keeps zero format := by
  rcases h with rfl | rfl
  · exact keeps_named (valid_utf8 "zip") (by decide)
  · exact keeps_named (valid_utf8 "tar") (by decide)

variable {report : ScanReport} {encoded : Bytes}

theorem keeps_result {zero} (h : report.Decided) :
    (named ReportResult.text .ofText).Keeps zero report.result := by
  cases h with
  | approved result =>
    rw [result]
    exact keeps_named (valid_utf8 "approved") (by decide)
  | rejected result =>
    rw [result]
    exact keeps_named (valid_utf8 "rejected") (by decide)
  | error result =>
    rw [result]
    exact keeps_named (valid_utf8 "error") (by decide)

/-! ## Records that come back -/

/-- The texts of an input that nothing else makes valid. -/
structure ReportInput.Portable (input : ReportInput) : Prop where
  logicalName : Valid input.logicalName
  detectedMIME : Valid input.detectedMIME
  extensionMIME : Valid input.extensionMIME
  clamAVVerdict : Valid input.clamAVVerdict

structure Finding.Portable (finding : Finding) : Prop where
  code : Valid finding.code
  relativePath : Valid finding.relativePath
  detail : Valid finding.detail
  identifier : Valid finding.identifier

structure ReportSanitizedOutput.Portable (output : ReportSanitizedOutput) : Prop where
  logicalName : Valid output.logicalName
  detectedMIME : Valid output.detectedMIME

structure ToolEvidence.Portable (evidence : ToolEvidence) : Prop where
  name : Valid evidence.name
  version : Valid evidence.version

/-- Every text of the report is valid UTF-8, and its times survive being written. -/
structure ScanReport.Portable (report : ScanReport) : Prop where
  startedAt : Representable report.startedAt
  completedAt : Representable report.completedAt
  updatedAt : Representable report.definitions.updatedAt
  guestdVersion : Valid report.scanner.guestdVersion
  engineVersion : Valid report.definitions.engineVersion
  databaseVersion : Valid report.definitions.databaseVersion
  inputs : ∀ input ∈ report.inputs.items, input.Portable
  findings : ∀ finding ∈ report.findings.items, finding.Portable
  outputs : ∀ output ∈ report.sanitizedOutputs.items, output.Portable
  tools : ∀ evidence ∈ report.tools.items, evidence.Portable

theorem keeps_input {input} (h : input.valid = true) :
    inputRecord.codec.Keeps zeroInput input ↔ input.Portable := by
  simp only [ReportInput.valid, Bool.and_eq_true] at h
  obtain ⟨⟨⟨⟨⟨-, -⟩, hsha⟩, -⟩, -⟩, -⟩ := h
  have hsha := valid_hexPattern hsha
  rw [Record.keeps_iff]
  simp only [inputRecord, List.Forall, keeps_field, keeps_bytes, keeps_bool, keeps_uint64, hsha,
    true_and]
  constructor
  · rintro ⟨hname, hdet, hext, hverd⟩
    exact ⟨hname, hdet, (keeps_omitEmpty rfl).1 hext, hverd⟩
  · rintro ⟨hname, hdet, hext, hverd⟩
    exact ⟨hname, hdet, (keeps_omitEmpty rfl).2 hext, hverd⟩

theorem keeps_archive {archive} (h : archive.valid = true) :
    archiveRecord.codec.Keeps zeroArchive archive := by
  simp only [ReportArchive.valid, Bool.and_eq_true, Bool.or_eq_true, beq_iff_eq] at h
  obtain ⟨⟨⟨⟨⟨hsrc, hform⟩, -⟩, -⟩, -⟩, -⟩ := h
  rw [Record.keeps_iff]
  simp only [archiveRecord, List.Forall, and_true, keeps_field, keeps_bytes, keeps_bool,
    keeps_uint64, keeps_uint32]
  exact ⟨valid_hexPattern hsrc, keeps_format hform⟩

theorem keeps_finding {finding} (h : finding.reportable = true) :
    findingRecord.codec.Keeps zeroFinding finding ↔ finding.Portable := by
  simp only [Finding.reportable, Finding.valid, Bool.and_eq_true] at h
  obtain ⟨⟨⟨⟨⟨⟨-, hsev⟩, -⟩, -⟩, -⟩, -⟩, -⟩ := h
  rw [Record.keeps_iff]
  simp only [findingRecord, List.Forall, keeps_field, keeps_bytes, keeps_severity hsev, true_and]
  constructor
  · rintro ⟨hcode, hpath, hdet, hident⟩
    exact ⟨hcode, (keeps_omitEmpty rfl).1 hpath, hdet, (keeps_omitEmpty rfl).1 hident⟩
  · rintro ⟨hcode, hpath, hdet, hident⟩
    exact ⟨hcode, (keeps_omitEmpty rfl).2 hpath, hdet, (keeps_omitEmpty rfl).2 hident⟩

theorem keeps_output {output} (h : output.valid = true) (hequip : report.Equipped output) :
    outputRecord.codec.Keeps zeroOutput output ↔ output.Portable := by
  simp only [ReportSanitizedOutput.valid, Bool.and_eq_true, beq_iff_eq] at h
  obtain ⟨⟨⟨⟨⟨⟨⟨hid, -⟩, hsrc⟩, -⟩, hsha⟩, -⟩, -⟩, hresc⟩ := h
  obtain ⟨required, hreq, -⟩ := hequip
  have hid := valid_hexPattern hid
  have hsrc := valid_hexPattern hsrc
  have hsha := valid_hexPattern hsha
  have htransf := valid_of_requiredTools hreq
  have hresc : Valid output.rescanVerdict := hresc ▸ valid_utf8 _
  rw [Record.keeps_iff]
  simp only [outputRecord, List.Forall, and_true, keeps_field, keeps_bytes, keeps_uint64, hid,
    hsrc, hsha, htransf, hresc, true_and]
  exact ⟨fun h => ⟨h.1, h.2⟩, fun h => ⟨h.1, h.2⟩⟩

theorem keeps_tool {evidence} : toolRecord.codec.Keeps zeroTool evidence ↔ evidence.Portable := by
  rw [Record.keeps_iff]
  simp only [toolRecord, List.Forall, keeps_field, keeps_bytes]
  exact ⟨fun h => ⟨h.1, h.2⟩, fun h => ⟨h.1, h.2⟩⟩

theorem keeps_scanner {zero scanner} (himage : reportImagePattern scanner.imageDigest = true)
    (hcomm : reportCommitPattern scanner.sourceCommit = true) :
    scannerRecord.codec.Keeps zero scanner ↔ Valid scanner.guestdVersion := by
  have himage := valid_hexPattern himage
  have hcomm := valid_hexPattern hcomm
  rw [Record.keeps_iff]
  simp only [scannerRecord, List.Forall, keeps_field, keeps_bytes, himage, hcomm, true_and]

theorem keeps_definitions {zero definitions} :
    definitionsRecord.codec.Keeps zero definitions ↔
      Valid definitions.engineVersion ∧ Valid definitions.databaseVersion ∧
        Representable definitions.updatedAt := by
  rw [Record.keeps_iff]
  simp only [definitionsRecord, List.Forall, and_true, keeps_field, keeps_bytes, keeps_time,
    keeps_bool]

theorem keeps_isolation {zero isolation : ReportIsolation} (hzero : zero.mountOptions = none)
    (h : isolation.mountOptions.items = [utf8 "nodev", utf8 "noexec", utf8 "nosuid", utf8 "ro"]) :
    isolationRecord.codec.Keeps zero isolation := by
  have hopts : (Codec.slice .bytes []).Keeps none isolation.mountOptions := by
    refine keeps_slice.2 fun option hopt => keeps_bytes.2 ?_
    have hopt : option ∈ isolation.mountOptions.items := hopt
    rw [h] at hopt
    simp only [List.mem_cons, List.not_mem_nil, or_false] at hopt
    rcases hopt with rfl | rfl | rfl | rfl <;> exact valid_utf8 _
  rw [Record.keeps_iff]
  simp only [isolationRecord, List.Forall, keeps_field, keeps_bool, true_and, hzero]
  exact hopts

theorem keeps_phases (zero phases : ReportPhases) : phasesRecord.codec.Keeps zero phases := by
  rw [Record.keeps_iff]
  simp [phasesRecord, keeps_bool]

variable {τ σ : Type} {codec : Codec τ} {name : String} {x : σ} {mac : Mac} {key : Bytes}

/-- The items of a slice come back exactly if each of them is portable. -/
theorem keeps_items_iff {zero : τ} {items : Slice τ} {P : τ → Prop}
    (h : ∀ x ∈ items.items, codec.Keeps zero x ↔ P x) :
    (Codec.slice codec zero).Keeps none items ↔ ∀ x ∈ items.items, P x :=
  keeps_slice.trans (forall₂_congr h)

/-- **An accepted report comes back from its document exactly if it is portable.** -/
theorem keeps_report (h : report.Accepted) :
    reportRecord.codec.Keeps zeroReport report ↔ report.Portable := by
  have hses := valid_hexPattern h.sessionID
  have hsch : int.Keeps zeroReport.schemaVersion report.schemaVersion := by
    rw [h.schemaVersion]
    exact keeps_int_one _
  have hscan := @keeps_scanner zeroReport.scanner _ h.imageDigest h.sourceCommit
  have hisol := @keeps_isolation zeroReport.isolation _ rfl h.mountOptions
  have hinp := keeps_items_iff fun x hx => keeps_input (h.inputs.valid x hx)
  have harch := (keeps_items_iff fun x hx =>
    iff_true_intro (keeps_archive (h.archives.valid x hx))).2 fun _ _ => trivial
  have hfind := keeps_items_iff fun x hx => keeps_finding (h.findings.valid x hx)
  have houts := keeps_items_iff fun x hx =>
    keeps_output (h.outputs.valid x hx) (h.equipped x hx)
  have htools : (Codec.slice toolRecord.codec zeroTool).Keeps none report.tools ↔ _ :=
    keeps_items_iff fun _ _ => keeps_tool
  rw [Record.keeps_iff]
  constructor
  · rintro ⟨-, -, -, hstd, hcomp, -, hscan', hdefs, -, -, hinp', -, hfind', houts', htools', -, -⟩
    obtain ⟨heng, hdb, hupd⟩ := keeps_definitions.1 hdefs
    exact ⟨keeps_time.1 hstd, keeps_time.1 hcomp, hupd, hscan.1 hscan', heng,
      hdb, hinp.1 hinp', hfind.1 hfind', houts.1 houts',
      htools.1 htools'⟩
  · intro hp
    exact ⟨hsch, keeps_bytes.2 hses, keeps_policy h.policy, keeps_time.2 hp.startedAt,
      keeps_time.2 hp.completedAt, keeps_uint64 _ _, hscan.2 hp.guestdVersion,
      keeps_definitions.2 ⟨hp.engineVersion, hp.databaseVersion, hp.updatedAt⟩, hisol,
      keeps_phases _ _, hinp.2 hp.inputs, harch, hfind.2 hp.findings,
      houts.2 hp.outputs, htools.2 hp.tools, keeps_result h.decided, keeps_bool _ _⟩

/-! ## What is written for a report can be read -/

@[simp] theorem legible_field {get : σ → τ} {set : τ → σ → σ} :
    (field name codec get set).codec.Legible ((field name codec get set).get x) ↔
      codec.Legible (get x) :=
  .rfl

@[simp] theorem legible_omitEmpty {get : σ → Bytes} {set : Bytes → σ → σ} :
    (omitEmpty name get set).codec.Legible ((omitEmpty name get set).get x) :=
  legible_bytes _

theorem legible_input (input : ReportInput) : inputRecord.codec.Legible input := by
  apply Record.legible
  simp [inputRecord]

theorem legible_archive (archive : ReportArchive) : archiveRecord.codec.Legible archive := by
  apply Record.legible
  simp [archiveRecord]

theorem legible_finding (finding : Finding) : findingRecord.codec.Legible finding := by
  apply Record.legible
  simp [findingRecord]

theorem legible_output (output : ReportSanitizedOutput) : outputRecord.codec.Legible output := by
  apply Record.legible
  simp [outputRecord]

theorem legible_tool (evidence : ToolEvidence) : toolRecord.codec.Legible evidence := by
  apply Record.legible
  simp [toolRecord]

@[simp] theorem legible_scanner (scanner : ReportScannerIdentity) :
    scannerRecord.codec.Legible scanner := by
  apply Record.legible
  simp [scannerRecord]

@[simp] theorem legible_definitions (definitions : ReportDefinitions) :
    definitionsRecord.codec.Legible definitions := by
  apply Record.legible
  simp [definitionsRecord]

@[simp] theorem legible_isolation (isolation : ReportIsolation) :
    isolationRecord.codec.Legible isolation := by
  apply Record.legible
  simp only [isolationRecord, List.Forall, legible_field, legible_bool, true_and]
  exact legible_slice fun option _ => legible_bytes option

@[simp] theorem legible_phases (phases : ReportPhases) : phasesRecord.codec.Legible phases := by
  apply Record.legible
  simp [phasesRecord]

theorem legible_report (h : report.schemaVersion = 1) : reportRecord.codec.Legible report := by
  apply Record.legible
  simp only [reportRecord, List.Forall, legible_field, legible_bytes, legible_bool, legible_uint64,
    legible_time, legible_named, legible_scanner, legible_definitions, legible_isolation,
    legible_phases, true_and, and_true, h]
  exact ⟨legible_int_one, legible_slice fun x _ => legible_input x,
    legible_slice fun x _ => legible_archive x, legible_slice fun x _ => legible_finding x,
    legible_slice fun x _ => legible_output x, legible_slice fun x _ => legible_tool x⟩

/-! ## The round trip -/

/-- What is decoded from the document that was written for a report. -/
theorem decodeDocument_marshal (hsch : report.schemaVersion = 1)
    (h : report.marshal = some encoded) :
    ∃ v, reportRecord.codec.write report = some v ∧ encoded = render v.toks ∧
      decodeDocument encoded = decodeReport v := by
  obtain ⟨v, hv, rfl⟩ := Option.map_eq_some_iff.1 h
  refine ⟨v, hv, rfl, ?_⟩
  have hlex := lex_render_of_legible (legible_report hsch v hv)
  have hparse : Json.parse v.toks = some v := (parse_eq_some_iff _ _).2 rfl
  rw [decodeDocument, hlex, Option.bind_some, hparse, Option.bind_some]

/-- The document of an accepted report spells that report exactly if the report is portable. -/
theorem decodeDocument_eq_self (hval : report.Accepted) (h : report.marshal = some encoded) :
    decodeDocument encoded = some report ↔ report.Portable := by
  obtain ⟨v, hv, rfl, hdec⟩ := decodeDocument_marshal hval.schemaVersion h
  rw [hdec, ← keeps_report hval]
  constructor
  · intro hread
    exact ⟨v, hv, hread⟩
  · rintro ⟨w, hw, hread⟩
    rw [hv, Option.some.injEq] at hw
    rwa [hw]

theorem signReport_eq_ok {envelope} (hkey : key.length = scanReportMACBytes) :
    signReport mac report (some key) = .ok envelope ↔ ∃ encoded,
      report.canonicalJSON = .ok encoded ∧
        envelope = ⟨encoded, mac.sum key encoded, report.complete⟩ := by
  simp only [signReport, bind_eq_ok, pure_eq_ok, reportMAC_eq_ok]
  constructor
  · rintro ⟨encoded, henc, _, ⟨k, ⟨⟩, -, rfl⟩, rfl⟩
    exact ⟨encoded, henc, rfl⟩
  · rintro ⟨encoded, henc, rfl⟩
    exact ⟨encoded, henc, _, ⟨key, rfl, hkey, rfl⟩, rfl⟩

/-- A portable report verifies under the key it was signed with. -/
theorem verifyReport_signed (hkey : key.length = scanReportMACBytes)
    (h : report.canonicalJSON = .ok encoded) :
    verifyReport mac ⟨encoded, mac.sum key encoded, report.complete⟩ (some key) = .ok report ↔
      report.Portable := by
  obtain ⟨hval, hmar, -⟩ := canonicalJSON_eq_ok.1 h
  rw [verifyReport_eq_ok, ← decodeDocument_eq_self hval hmar]
  constructor
  · rintro ⟨-, hdec, -, -⟩
    exact hdec
  · intro hdec
    exact ⟨⟨key, rfl, hkey, rfl⟩, hdec, h, rfl⟩

/-- **Signed reports verify** exactly if they are portable, and whatever verifies is the canonical
document of the report that verification returns. -/
theorem signed_verifies_iff (mac : Mac) {report : ScanReport} {encoded key : Bytes}
    (hvalid : report.validate = .ok ()) (hmarshal : report.marshal = some encoded)
    (hsize : encoded.length ≤ maximumScanReportBytes) (hkey : key.length = scanReportMACBytes) :
    ((∃ envelope, signReport mac report (some key) = .ok envelope ∧
        verifyReport mac envelope (some key) = .ok report) ↔ report.Portable) ∧
      ∀ envelope key' verified, verifyReport mac envelope key' = .ok verified →
        verified.canonicalJSON = .ok envelope.canonicalJSON := by
  have hcan : report.canonicalJSON = .ok encoded :=
    canonicalJSON_eq_ok.2 ⟨ScanReport.validate_eq_ok.1 hvalid, hmarshal, hsize⟩
  refine ⟨?_, fun envelope key' verified h => (verifyReport_eq_ok.1 h).2.2.1⟩
  rw [← @verifyReport_signed _ _ mac _ hkey hcan]
  constructor
  · rintro ⟨envelope, hsign, hver⟩
    obtain ⟨encoded', henc', rfl⟩ := (signReport_eq_ok hkey).1 hsign
    rw [hcan, Except.ok.injEq] at henc'
    rwa [← henc'] at hver
  · intro hver
    exact ⟨_, (signReport_eq_ok hkey).2 ⟨encoded, hcan, rfl⟩, hver⟩

def imageReport (name verdict source : Bytes) : ScanReport where
  schemaVersion := 1
  sessionID := utf8 "pvm-" ++ List.replicate 32 97
  policy := .safe
  startedAt := ⟨63000000000 * 1000000000, 0⟩
  completedAt := ⟨63000000001 * 1000000000, 0⟩
  durationMillis := 1000
  scanner := ⟨utf8 "sha256:" ++ List.replicate 64 97, List.replicate 40 97, utf8 "1"⟩
  definitions := ⟨utf8 "1", utf8 "1", ⟨63000000000 * 1000000000, 0⟩, true, true⟩
  isolation := ⟨true, true, some [utf8 "nodev", utf8 "noexec", utf8 "nosuid", utf8 "ro"]⟩
  phases := ⟨true, true, true, true, true, true, true⟩
  inputs := some [⟨name, 1, List.replicate 64 97, utf8 "image/png", [], false, verdict⟩]
  archives := some []
  findings := some []
  sanitizedOutputs := some [⟨utf8 "scan-out-" ++ List.replicate 32 97, utf8 "a.png", source, 1,
    List.replicate 64 97, utf8 "image/png", utf8 "image-decode-strip-reencode-png-v1",
    utf8 "CLAMAV_CLEAN"⟩]
  tools := some [⟨utf8 "clamav", utf8 "1"⟩, ⟨utf8 "file", utf8 "1"⟩,
    ⟨utf8 "go-image-png", utf8 "1"⟩]
  result := .approved
  complete := true

theorem portable_imageReport {name verdict source} (hname : Valid name) (hverd : Valid verdict) :
    (imageReport name verdict source).Portable where
  startedAt := show Representable ⟨63000000000 * 1000000000, 0⟩ by decide
  completedAt := show Representable ⟨63000000001 * 1000000000, 0⟩ by decide
  updatedAt := show Representable ⟨63000000000 * 1000000000, 0⟩ by decide
  guestdVersion := valid_utf8 _
  engineVersion := valid_utf8 _
  databaseVersion := valid_utf8 _
  inputs := List.forall_mem_singleton.2 ⟨hname, valid_utf8 _, valid_nil, hverd⟩
  findings := List.forall_mem_nil _
  outputs := List.forall_mem_singleton.2 ⟨valid_utf8 _, valid_utf8 _⟩
  tools := by
    simp only [← List.forall_iff_forall_mem]
    exact ⟨⟨valid_utf8 _, valid_utf8 _⟩, ⟨valid_utf8 _, valid_utf8 _⟩, valid_utf8 _, valid_utf8 _⟩

theorem exists_canonicalJSON (h : report.canonicalJSON.isOk = true) :
    ∃ encoded, report.canonicalJSON = .ok encoded := by
  cases hcan : report.canonicalJSON with
  | error => simp [hcan, Except.toBool] at h
  | ok encoded => exact ⟨encoded, rfl⟩

def constantMac : Mac := ⟨fun _ _ => List.replicate 32 0, by simp [scanReportMACBytes]⟩

theorem signed_verifies_image :
    ∃ envelope, signReport constantMac
        (imageReport (utf8 "a") (utf8 "CLAMAV_CLEAN") (List.replicate 64 97))
        (some (List.replicate 32 0)) = .ok envelope ∧
      verifyReport constantMac envelope (some (List.replicate 32 0)) =
        .ok (imageReport (utf8 "a") (utf8 "CLAMAV_CLEAN") (List.replicate 64 97)) := by
  obtain ⟨encoded, henc⟩ := @exists_canonicalJSON
    (imageReport (utf8 "a") (utf8 "CLAMAV_CLEAN") (.replicate 64 97)) (by decide +kernel)
  obtain ⟨hval, hmar, hsize⟩ := canonicalJSON_eq_ok.1 henc
  exact (signed_verifies_iff constantMac (ScanReport.validate_eq_ok.2 hval) hmar hsize
    (by decide)).1.2 (portable_imageReport (valid_utf8 _) (valid_utf8 _))

/-- A file name of one byte that is no character: the report is signed and does not verify. -/
theorem signed_does_not_verify :
    ∃ (report : ScanReport) (encoded key : Bytes), report.validate = .ok () ∧
      report.marshal = some encoded ∧ encoded.length ≤ maximumScanReportBytes ∧
      key.length = scanReportMACBytes ∧ ∀ mac, ∃ envelope,
        signReport mac report (some key) = .ok envelope ∧
          verifyReport mac envelope (some key) ≠ .ok report := by
  obtain ⟨encoded, henc⟩ := @exists_canonicalJSON
    (imageReport [255] (utf8 "CLAMAV_CLEAN") (.replicate 64 97)) (by decide +kernel)
  obtain ⟨hval, hmar, hsize⟩ := canonicalJSON_eq_ok.1 henc
  refine ⟨_, encoded, .replicate 32 0, ScanReport.validate_eq_ok.2 hval, hmar, hsize,
    by decide, fun mac => ⟨_, (signReport_eq_ok (by decide)).2 ⟨encoded, henc, rfl⟩, ?_⟩⟩
  rw [ne_eq, verifyReport_signed (by decide) henc]
  intro hport
  have hname : Valid [255] := (hport.inputs _ (List.mem_singleton.2 rfl)).logicalName
  exact absurd (mend_eq_self.2 hname) (by decide)

/-- **Only signed envelopes verify.** Under any key, an envelope verifies as a report exactly if
it is the one that signing this report under the key gives, and the report is portable: no other
spelling, tag or completeness flag stands for the report. -/
theorem verifies_iff_signed (mac : Mac) (envelope : AuthenticatedReport) (key : Option Bytes)
    (report : ScanReport) : verifyReport mac envelope key = .ok report ↔
      signReport mac report key = .ok envelope ∧ report.Portable := by
  constructor
  · intro hver
    obtain ⟨⟨k, rfl, hkey, htag⟩, -, hcan, hcomp⟩ := verifyReport_eq_ok.1 hver
    have henv : envelope =
        ⟨envelope.canonicalJSON, mac.sum k envelope.canonicalJSON, report.complete⟩ := by
      rw [← htag, hcomp]
    rw [henv] at hver
    exact ⟨(signReport_eq_ok hkey).2 ⟨_, hcan, henv⟩, (verifyReport_signed hkey hcan).1 hver⟩
  · rintro ⟨hsign, hport⟩
    have hmac := hsign
    simp only [signReport, bind_eq_ok, reportMAC_eq_ok] at hmac
    obtain ⟨_, -, _, ⟨k, rfl, hkey, -⟩, -⟩ := hmac
    obtain ⟨encoded, hcan, rfl⟩ := (signReport_eq_ok hkey).1 hsign
    exact (verifyReport_signed hkey hcan).2 hport

end PrivateVm.Scan
