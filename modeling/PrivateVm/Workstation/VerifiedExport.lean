import PrivateVm.Workstation.OutboxWorld

set_option autoImplicit false

/-! # Verified exports

Once the guest has accepted a verification, the host registers the output as a source, under
conditions of its own. What the guest answers meets all of them but one: an empty output is
verified by the guest and refused by the host.
-/

namespace PrivateVm.Workstation

open Checked Program Program.Method Transfer Usb List

/-! ## Identifiers -/

theorem isAlphanum_of_isDigit {c} (h : Hex.isDigit c = true) : c.isAlphanum = true := by
  change (c.isUpper || c.isLower || c.isDigit) = true
  rcases Bool.or_eq_true_iff.1 h with h | h
  · rw [show c.isDigit = true from h, Bool.or_true]
  · obtain ⟨hlow, hhigh⟩ := Bool.and_eq_true_iff.1 h
    have hhigh := Nat.le_trans (of_decide_eq_true hhigh) (by decide : 102 ≤ 122)
    have hlower : c.isLower = true := Bool.and_eq_true_iff.2 ⟨hlow, decide_eq_true hhigh⟩
    rw [hlower, Bool.or_true, Bool.true_or]

/-- The identifiers of the guest are those of sources. -/
theorem sourceOutputIDPattern_outputID (c : OutboxConfig) (name : String) :
    sourceOutputIDPattern (c.outputID name) = true := by
  have hhex := Hex.all_toList_text ((c.mac name.toUTF8.data.toList).toList.take 16)
  have hlen := Hex.length_toList_text ((c.mac name.toUTF8.data.toList).toList.take 16)
  rw [length_take, Vector.length_toList] at hlen
  have hlist : (c.outputID name).toList = 'o' :: ("utput-".toList ++
      (Hex.text ((c.mac name.toUTF8.data.toList).toList.take 16)).toList) := by
    rw [OutboxConfig.outputID, String.toList_append]
    rfl
  rw [sourceOutputIDPattern, hlist]
  simp only [Bool.and_eq_true, length_append, hlen, all_append]
  refine ⟨⟨⟨by decide, by decide⟩, by decide⟩, by decide, ?_⟩
  rw [List.all_eq_true] at hhex ⊢
  intro d hd
  rw [isSourceOutputIDChar, isAlphanum_of_isDigit (hhex d hd), Bool.true_or]

/-! ## What the guest answers -/

/-- What the bounds of an inventory say of its files. -/
structure Inventoried (c : OutboxConfig) (files : List ExportFile) : Prop where
  count : files.length ≤ maxWorkspaceEntries
  size : ∀ file ∈ files, file.size ≤ c.maxFile
  id : ∀ file ∈ files, ∃ name, file.id = c.outputID name

section

variable {X H : Type} {exec : (o : OutboxOp) → X → H → o.Res × H} {c : OutboxConfig} {h : H}

/-- An opened file is within the bound. -/
theorem returns_openRegularAt (name : String) (maximum : Nat) :
    Returns exec (openRegularAt name maximum) fun opened => ∀ file ∈ opened, file.2 ≤ maximum := by
  refine returns_after fun opened => ?_
  split
  · exact returns_pure (by simp)
  refine returns_after fun info => ?_
  split
  · split
    · exact returns_after fun _ => returns_pure (by simp)
    · rename_i hsize
      refine returns_pure fun file hfile => ?_
      rw [← Option.mem_some.1 hfile]
      exact Nat.not_lt.1 hsize
  · exact returns_after fun _ => returns_pure (by simp)

theorem returns_inventoryEntry (entry : DirEntry) :
    Returns exec (inventoryEntry c entry) fun file =>
      file.size ≤ c.maxFile ∧ ∃ name, file.id = c.outputID name := by
  refine returns_after fun _ => returns_after fun _ => returns_after fun _ => ?_
  refine (returns_openRegularAt entry.name c.maxFile).bind fun opened hopen => ?_
  refine (returns_check (P := fun file => file.2 ≤ c.maxFile) ?_).bind ?_
  · exact fun file hfile => hopen file (ofOption_eq_ok.1 hfile)
  · rintro ⟨fd, size⟩ hsize
    refine returns_after fun _ => returns_after fun _ => returns_after fun _ => ?_
    exact returns_after fun _ => returns_pure ⟨hsize, _, rfl⟩

theorem returns_inventoryEntries (entries : List DirEntry) (total : Nat) :
    Returns exec (inventoryEntries c entries total) fun files =>
      files.length = entries.length ∧
        ∀ file ∈ files, file.size ≤ c.maxFile ∧ ∃ name, file.id = c.outputID name := by
  induction entries generalizing total with
  | nil => exact returns_pure ⟨rfl, by simp⟩
  | cons entry rest ih =>
    refine (returns_inventoryEntry entry).bind fun file hfile => returns_after fun _ => ?_
    refine (ih (total + file.size)).bind fun files hfiles => returns_pure ?_
    exact ⟨congrArg (· + 1) hfiles.1, forall_mem_cons.2 ⟨hfile, hfiles.2⟩⟩

theorem returns_inventory : Returns exec (inventory c) (Inventoried c) := by
  refine returns_after fun _ => returns_after fun _ => returns_after fun answer => ?_
  refine returns_after fun entries => ?_
  refine (returns_check (P := fun _ => entries.length ≤ maxWorkspaceEntries) ?_).bind ?_
  · exact fun _ h => Nat.not_lt.1 (failIf_eq_ok.1 h)
  intro _ hcnt
  refine (returns_inventoryEntries _ 0).bind fun files hfiles => returns_after fun _ => ?_
  refine returns_pure ⟨?_, fun file h => (hfiles.2 file h).1, fun file h => (hfiles.2 file h).2⟩
  rwa [hfiles.1, Keyed.length_sort]

end

/-- What a state says of the files it was made from. -/
structure Answered (c : OutboxConfig) (outputID : String) (state : WorkspaceState) : Prop where
  id : ∃ name, outputID = c.outputID name
  count : state.entries.length ≤ 1024
  size : ∀ entry ∈ state.entries, entry.sizeBytes ≤ c.maxFile
  unchanged : ∀ entry ∈ state.entries, entry.exported = true → entry.changedSinceExport = false

theorem Receipts.sizeBytes_entry (r : Receipts) (file : ExportFile) :
    (r.entry file).sizeBytes = file.size := by
  unfold Receipts.entry
  split <;> rfl

theorem Receipts.changedSinceExport_entry (r : Receipts) (file : ExportFile)
    (h : (r.entry file).exported = true) : (r.entry file).changedSinceExport = false := by
  unfold Receipts.entry at h ⊢
  split at h
  · cases h
  · simpa using h

variable {c : OutboxConfig} {outputID : String}

theorem Inventoried.answered {files} (h : Inventoried c files) (r : Receipts)
    (hid : ∃ name, outputID = c.outputID name) : Answered c outputID (r.workspaceState files) where
  id := hid
  count := by
    rw [Receipts.workspaceState, length_map]
    exact h.count
  size := by
    simp only [Receipts.workspaceState, forall_mem_map, Receipts.sizeBytes_entry]
    exact h.size
  unchanged := by
    simp only [Receipts.workspaceState, forall_mem_map]
    exact fun file _ => r.changedSinceExport_entry file

theorem returns_markExportVerified (c : OutboxConfig) (outputID : String) (digest : Option Hash) :
    Returns OutboxWorld.execEdited (markExportVerified c outputID digest)
      (Answered c outputID) := by
  refine returns_inventory.bind fun files hfiles => ?_
  refine (returns_check (P := fun file => ∃ name, outputID = c.outputID name) ?_).bind ?_
  · intro file hfile
    have hfind := ofOption_eq_ok.1 hfile
    obtain ⟨name, hname⟩ := hfiles.id file (mem_of_find?_eq_some hfind)
    have hmatch := List.find?_some hfind
    simp only [beq_iff_eq] at hmatch
    exact ⟨name, hmatch.symm.trans hname⟩
  · intro current hid
    refine returns_after fun _ => returns_after fun _ => returns_after fun _ => ?_
    refine returns_inventory.bind fun files hfiles s w => ?_
    refine does_invoke fun x state hst => ?_
    rw [← Except.ok.inj hst]
    exact hfiles.answered _ hid

/-! ## What the host makes of it -/

/-- A state lists an output once, as exported, and with a size other than zero. -/
def WorkspaceState.Shows (state : WorkspaceState) (outputID : String) : Prop :=
  ∃ entry, state.entries.filter (fun entry => entry.outputId == outputID) = [entry] ∧
    entry.exported = true ∧ entry.sizeBytes ≠ 0

theorem isOk_currentWorkspaceEntry {state} (h : Answered c outputID state)
    (hmax : c.maxFile = defaultMaxFileBytes) :
    (∃ entry, currentWorkspaceEntry (some state) outputID 0 = .ok entry) ↔
      state.Shows outputID := by
  have hmem : ∀ {entry}, state.entries.filter (fun e => e.outputId == outputID) = [entry] →
      entry ∈ state.entries := by
    intro entry hfil
    exact (mem_filter.1 (hfil ▸ mem_singleton_self entry)).1
  simp only [currentWorkspaceEntry, ofOption, bind_eq_ok, Except.ok.injEq, exists_eq_left',
    failIf_eq_ok]
  constructor
  · rintro ⟨entry, -, -, hsel⟩
    split at hsel
    · rename_i selected hfil
      simp only [bind_eq_ok, failIf_eq_ok, not_or, Bool.not_eq_true, Bool.not_eq_false'] at hsel
      obtain ⟨-, ⟨hexp, -, hsize, -⟩, -⟩ := hsel
      exact ⟨selected, hfil, hexp, hsize⟩
    · cases hsel
  · rintro ⟨entry, hfil, hexp, hsize⟩
    have hbd : entry.sizeBytes ≤ maximumApprovedSourceBytes :=
      (h.size entry (hmem hfil)).trans_eq hmax
    have hunch := h.unchanged entry (hmem hfil) hexp
    have hnon : state.entries.length ≠ 0 :=
      (length_pos_of_mem (hmem hfil)).ne'
    refine ⟨entry, (), not_or.2 ⟨hnon, Nat.not_lt.2 h.count⟩, ?_⟩
    simp [hfil, hexp, hunch, hsize, Nat.not_lt.2 hbd]

section

variable {c : OutboxConfig} {w : HostWorld} {snapshot : Session.Snapshot} {outputID : String}
  {daemonDigest receiverDigest : Option Hash}

theorem does_workstationRelay :
    Does (HostWorld.exec c) (workstationRelay snapshot)
      (fun r _ w' => w' = w ∧ ∀ u, r = .ok u →
        Session.validateID snapshot.id = .ok () ∧ snapshot.role = .workstation) () w := by
  refine does_check_bind (fun e _ => ⟨rfl, fun _ h => by cases h⟩) fun u hcheck => ?_
  refine does_invoke_bind fun x => does_check ⟨rfl, fun _ _ => ?_⟩
  simp only [failIf_eq_ok, not_or, Bool.not_eq_false, not_not] at hcheck
  exact ⟨isOk_eq_true.1 hcheck.1, hcheck.2⟩

theorem approvedDigestFromProto_of_equal {pending}
    (hequal : equalProtoHashes daemonDigest receiverDigest = true)
    (hsame : sameProtoHash daemonDigest pending = true) :
    ∃ digest, approvedDigestFromProto receiverDigest = some digest := by
  unfold equalProtoHashes at hequal
  split at hequal
  · simp only [Bool.and_eq_true, beq_iff_eq] at hequal
    obtain ⟨⟨⟨-, halg⟩, hlen⟩, hvalue⟩ := hequal
    rw [approvedDigestFromProto, Option.bind_some, Hash.digest?, dif_pos ⟨halg, hvalue ▸ hlen⟩]
    exact ⟨_, rfl⟩
  · cases hequal

/-- The guest's answer is the host's, when it is an acceptance that arrived. -/
theorem does_relayVerify (hidle : w.accepted = none) :
    Does (HostWorld.exec c) (relayVerify outputID daemonDigest receiverDigest)
      (fun r _ w' => w'.registry = w.registry ∧ (∀ e, r = .error e → w'.accepted = none) ∧
        ∀ state, r = .ok state → w'.accepted = some state ∧ Answered c outputID state ∧
          ∃ digest, approvedDigestFromProto receiverDigest = some digest) () w := by
  refine does_check_bind (fun e _ => ⟨rfl, fun _ _ => hidle, fun _ h => by cases h⟩)
    fun u hequal => ?_
  refine does_invoke_bind fun x => ?_
  refine does_check_bind (fun e _ => ⟨rfl, fun _ _ => hidle, fun _ h => by cases h⟩)
    fun pending hpend => ?_
  refine does_check_bind (fun e _ => ⟨rfl, fun _ _ => hidle, fun _ h => by cases h⟩)
    fun u hsame => ?_
  refine does_invoke_bind fun x => ?_
  refine does_check_bind (fun e _ => ⟨rfl, fun _ _ => hidle, fun _ h => by cases h⟩) fun u _ => ?_
  refine does_invoke_bind fun x => ?_
  have hans := (returns_markExportVerified c outputID receiverDigest ()
    { w.guest with stream := [] }).outcome x.guest
  change ∀ state, (w.call x (markExportVerified c outputID receiverDigest)).1 = .ok state →
    Answered c outputID state at hans
  simp only [HostWorld.exec]
  split
  · -- the answer is lost
    exact does_check_bind (fun e _ => ⟨rfl, fun _ _ => hidle, fun _ h => by cases h⟩)
      fun state h => by cases h
  generalize w.call x (markExportVerified c outputID receiverDigest) = answer at hans
  obtain ⟨result, guest⟩ := answer
  cases result with
  | error =>
    exact does_check_bind (fun _ _ => ⟨rfl, fun _ _ => rfl, fun _ h => by cases h⟩)
      fun state h => by cases h
  | ok state =>
    refine does_passed_bind rfl (does_invoke_bind fun x => does_pure ?_)
    refine ⟨rfl, (fun _ h => by cases h), fun _ h => ?_⟩
    cases h
    simp only [failIf_eq_ok, not_or, Bool.not_eq_true, Bool.not_eq_false'] at hequal hsame
    exact ⟨rfl, hans state rfl, approvedDigestFromProto_of_equal hequal.2 hsame⟩

theorem replaceSource_eq_ok {registry : SourceRegistry} {selection : SourceSelection}
    {factory : SourceFactory} (h : selection.validate = .ok ()) :
    registry.replaceSource selection factory = .ok (registry.insert selection factory) := by
  rw [SourceRegistry.replaceSource, h]
  rfl

/-- The registration succeeds exactly for an output that the state shows. -/
theorem does_register {state : WorkspaceState} {digest : Digest}
    (hmax : c.maxFile = defaultMaxFileBytes) (hans : Answered c outputID state)
    (hid : Session.validateID snapshot.id = .ok ()) (hrole : snapshot.role = .workstation)
    (hdig : approvedDigestFromProto receiverDigest = some digest) :
    Does (HostWorld.exec c)
      (registerWorkstationApprovedSource snapshot outputID receiverDigest state)
      (fun r _ w' => w'.accepted = w.accepted ∧
        (r = .ok () ↔ snapshot.phase = .active ∧ state.Shows outputID)) () w := by
  refine does_check_bind (fun e he => ⟨rfl, ?_⟩) fun u hact => ?_
  · refine iff_of_false (by simp) fun h => ?_
    rw [failIf, if_neg (by simp [hrole, h.1])] at he
    cases he
  have hact : snapshot.phase = .active := by simpa [hrole] using hact
  rw [hdig]
  refine does_passed_bind rfl ?_
  rw [← isOk_currentWorkspaceEntry hans hmax]
  refine does_check_bind (fun e he => ⟨rfl, ?_⟩) fun pinned hpinn => ?_
  · refine iff_of_false (by simp) ?_
    rintro ⟨-, entry, hent⟩
    simp [hent, Except.mapError] at he
  refine does_invoke_bind fun x => ?_
  have hsel : SourceSelection.validate ⟨.workstation, snapshot.id, outputID⟩ = .ok () := by
    obtain ⟨name, rfl⟩ := hans.id
    simp [SourceSelection.validate, hid, sourceOutputIDPattern_outputID, Except.toBool]
  simp only [HostWorld.exec, replaceSource_eq_ok hsel]
  exact does_check ⟨rfl, iff_of_true rfl ⟨hact, pinned, mapError_eq_ok.1 hpinn⟩⟩

theorem does_verifyWorkspaceExport (hmax : c.maxFile = defaultMaxFileBytes)
    (hregis : w.registry.isSome = true) (hidle : w.accepted = none) :
    Does (HostWorld.exec c) (verifyWorkspaceExport snapshot outputID daemonDigest receiverDigest)
      (fun r _ w' => ∀ state, w'.accepted = some state →
        (r = .ok state ↔ snapshot.phase = .active ∧ state.Shows outputID)) () w := by
  refine does_bind (does_workstationRelay.post ?_)
  rintro r _ _ ⟨rfl, hrelay⟩
  cases r with
  | error =>
    intro state hst
    simp [hidle] at hst
  | ok u =>
    obtain ⟨hid, hrole⟩ := hrelay u rfl
    rw [then_ok]
    refine does_bind ((does_relayVerify hidle).post ?_)
    rintro r _ w' ⟨hsame, herr, hok⟩
    cases r with
    | error e =>
      intro state hst
      simp [herr e rfl] at hst
    | ok state =>
      obtain ⟨hacc, hans, digest, hdig⟩ := hok state rfl
      rw [then_ok]
      refine does_invoke_bind fun x => ?_
      simp only [HostWorld.exec, hsame, hregis]
      refine does_bind ((does_register hmax hans hid hrole hdig).post ?_)
      rintro r _ w'' ⟨hkept, hreg⟩
      have huniq : ∀ state', w''.accepted = some state' → state' = state := by
        simp [hkept, hacc, eq_comm]
      cases r with
      | error =>
        intro state' h
        rw [huniq state' h, ← hreg]
        exact iff_of_false (by simp) (by simp)
      | ok =>
        rw [then_ok]
        refine does_pure fun state' h => ?_
        rw [huniq state' h, ← hreg]
        exact iff_of_true rfl rfl

end

/-- **A verified export is reported as verified** exactly if the guest's answer shows the output:
when the guest accepted the verification of an output of an active workstation, the host returns
its state, unless the output is empty, or was edited or removed while the guest verified it. -/
theorem verified_export_reported_iff {c : OutboxConfig} (hmax : c.maxFile = defaultMaxFileBytes)
    {w : HostWorld} (hregistry : w.registry.isSome = true) (hidle : w.accepted = none)
    (snapshot : Session.Snapshot) (outputID : String) (daemonDigest receiverDigest : Option Hash)
    (xs : Nat → HostChoice) {state : WorkspaceState}
    (haccepted : ((verifyWorkspaceExport snapshot outputID daemonDigest receiverDigest).outcome
      (HostWorld.exec c) xs () w).2.accepted = some state) :
    ((verifyWorkspaceExport snapshot outputID daemonDigest receiverDigest).outcome
        (HostWorld.exec c) xs () w).1.1 = .ok state ↔
      snapshot.phase = .active ∧ state.Shows outputID :=
  (does_verifyWorkspaceExport hmax hregistry hidle).outcome xs state haccepted

/-! ## Two outputs -/

def lengthSum : Bytes → Digest := fun data => Vector.replicate 32 (UInt8.ofNat data.length + 1)

def plainOutbox : OutboxConfig :=
  ⟨defaultMaxFileBytes, defaultMaxWorkspaceBytes, fun _ => Vector.replicate 32 0, lengthSum⟩

def notesID : String := plainOutbox.outputID "notes.txt"

/-- A workstation with one file in its outbox. -/
def workspaceOf (data : Bytes) : HostWorld where
  exports _ := none
  registry := some ∅
  guest := ⟨⟨[("notes.txt", 0)], fun _ => ⟨.regular, data⟩⟩, .empty, []⟩

def activeWorkstation : Session.Snapshot where
  schemaVersion := 1
  id := "pvm-0123456789abcdef0123456789abcdef"
  ownerUID := 1000
  role := .workstation
  phase := .active
  workflowState := ""
  sequence := 5
  createdAt := ⟨0, 0⟩
  updatedAt := ⟨0, 0⟩
  events := []

/-- The workstation after the export of its file. -/
def exportedNotes (data : Bytes) : (Except HostError TransferReceipt × Unit) × HostWorld :=
  (relayExport lengthSum notesID).outcome (HostWorld.exec plainOutbox) (fun _ => {}) ()
    (workspaceOf data)

def verifiedNotes (data : Bytes) : (Except HostError WorkspaceState × Unit) × HostWorld :=
  (verifyWorkspaceExport activeWorkstation notesID (some (protoHash (lengthSum data)))
    (some (protoHash (lengthSum data)))).outcome (HostWorld.exec plainOutbox) (fun _ => {}) ()
    (exportedNotes data).2

def notesState (size : Nat) : WorkspaceState := ⟨.ready, [⟨notesID, size, true, false⟩]⟩

theorem notes_reported :
    (verifiedNotes [65]).2.accepted = some (notesState 1) ∧
      (verifiedNotes [65]).1.1 = .ok (notesState 1) := by
  have hacc : (verifiedNotes [65]).2.accepted = some (notesState 1) := by decide +kernel
  have hreg : (exportedNotes [65]).2.registry.isSome = true := by decide +kernel
  have hidle : (exportedNotes [65]).2.accepted = none := by decide +kernel
  have hshows : (notesState 1).Shows notesID :=
    ⟨⟨notesID, 1, true, false⟩, by decide +kernel, rfl, by decide⟩
  exact ⟨hacc, (verified_export_reported_iff rfl hreg hidle _ _ _ _ _ hacc).2 ⟨rfl, hshows⟩⟩

/-- The export of an empty file is complete, the guest accepts its verification and lists it as
exported, and the host reports a failure. -/
theorem empty_notes_not_reported :
    (exportedNotes []).1.1 = .ok ⟨notesID,
      some ⟨"notes.txt", 0, "", some (protoHash (lengthSum []))⟩,
      some (protoHash (lengthSum []))⟩ ∧
    (verifiedNotes []).2.accepted = some (notesState 0) ∧
    (verifiedNotes []).1.1 = .error .sourceUnavailable := by
  decide +kernel

end PrivateVm.Workstation
