import PrivateVm.Torrent.Model

set_option autoImplicit false

/-! # Capacity planning (`internal/torrent/capacity.go`)

`planSelection` marks the files of a selection in the metadata and computes from their sizes
and a budget what every later stage needs. Sizes are 64-bit and every sum is checked. A file that
was marked before stays so: `planSelection` starts from the marks it is given.
-/

namespace PrivateVm.Torrent

open Checked List

/-! ## Arithmetic of the stages -/

def minimumSafetyMargin : UInt64 := (4 : UInt64) <<< (30 : UInt64)
def minimumQuarantineMargin : UInt64 := (64 : UInt64) <<< (20 : UInt64)
def minimumScanMargin : UInt64 := (64 : UInt64) <<< (20 : UInt64)
def minimumReconstructionMargin : UInt64 := (64 : UInt64) <<< (20 : UInt64)
def minimumDestinationMargin : UInt64 := (64 : UInt64) <<< (20 : UInt64)

def stageMargin (value minimum : UInt64) : UInt64 :=
  let margin := value / 10
  if margin < minimum then minimum else margin

/-- Five percent of a size for the file system, and at least 64 MiB. -/
def overhead (value : UInt64) : UInt64 :=
  let minimum := (64 : UInt64) <<< (20 : UInt64)
  if value / 20 < minimum then minimum else value / 20

def sumFrom (result : UInt64) : List UInt64 → UInt64 × Bool
  | [] => (result, false)
  | value :: values =>
    match checkedAdd result value with
    | (_, true) => (0, true)
    | (next, false) => sumFrom next values

def sum (values : List UInt64) : UInt64 × Bool := sumFrom 0 values

/-- A sum that must not overflow. -/
def stageSum (values : List UInt64) : Except Error UInt64 :=
  match sum values with
  | (_, true) => .error insufficientCapacity
  | (total, false) => .ok total

/-! ## The selection -/

/-- What the loop over the indexes carries. -/
structure Chosen where
  files : List File
  selected : List UInt32
  selectedSizeBytes : UInt64
  archiveSelected : Bool

def chooseFile (safePolicy : Bool) (acc : Chosen) (index : UInt32) : Except Error Chosen :=
  match acc.files[index.toNat]? with
  | none => .error invalidSelection
  | some file => do
      failIf (index ∈ acc.selected) invalidSelection
      failIf (safePolicy = true ∧ hasBlockedType file = true) blockedType
      let (size, overflow) := checkedAdd acc.selectedSizeBytes file.sizeBytes
      failIf (overflow = true) insufficientCapacity
      return {
        files := acc.files.set index.toNat { file with selected := true }
        selected := index :: acc.selected
        selectedSizeBytes := size
        archiveSelected := acc.archiveSelected || hasArchive file }

/-- The requirements of all stages, for a selection of a given size. -/
def planStages (budget : CapacityBudget) (selectedBytes : UInt64) (archiveSelected : Bool) :
    Except Error CapacityPlan := do
  failIf (selectedBytes = 0 ∨ selectedBytes > budget.maximumSelectedBytes) insufficientCapacity
  let quarantineMargin := stageMargin selectedBytes minimumQuarantineMargin
  let quarantineRequired ← stageSum [selectedBytes, overhead selectedBytes, quarantineMargin]
  failIf (archiveSelected = true ∧ budget.archiveExpansionBytes = 0) insufficientCapacity
  let expansion := if archiveSelected then budget.archiveExpansionBytes else 0
  let scanMargin := stageMargin selectedBytes minimumScanMargin
  let scanRequired ← stageSum [selectedBytes, scanMargin]
  let reconstructionMargin := stageMargin budget.reconstructionBytes minimumReconstructionMargin
  let reconstructionRequired ←
    stageSum [expansion, budget.reconstructionBytes, reconstructionMargin]
  let destinationMargin := stageMargin budget.maximumOutputBytes minimumDestinationMargin
  let destinationRequired ←
    stageSum [budget.maximumOutputBytes, overhead budget.maximumOutputBytes, destinationMargin]
  let safetyMargin := stageMargin selectedBytes minimumSafetyMargin
  let sessionRequired ←
    stageSum [budget.rootOverlayBudgetBytes, quarantineRequired, reconstructionRequired,
      safetyMargin]
  failIf (quarantineRequired > budget.quarantineAvailableBytes ∨
    scanRequired > budget.scanAvailableBytes ∨
    reconstructionRequired > budget.reconstructionAvailable ∨
    destinationRequired > budget.destinationAvailable) insufficientCapacity
  return {
    selectedBytes := selectedBytes
    quarantineRequired := quarantineRequired
    scanRequired := scanRequired
    reconstructionNeed := reconstructionRequired
    destinationRequired := destinationRequired
    sessionRequired := sessionRequired
    safetyMargin := safetyMargin
    quarantineMargin := quarantineMargin
    scanMargin := scanMargin
    reconstructionMargin := reconstructionMargin
    destinationMargin := destinationMargin }

def planSelection (metadata : Metadata) (indexes : List UInt32) (budget : CapacityBudget)
    (safePolicy : Bool) : Except Error (Metadata × CapacityPlan) := do
  failIf (metadata.payloadPaused = false ∨ metadata.files.length = 0 ∨ indexes.length = 0 ∨
    indexes.length > metadata.files.length ∨ budget.quarantineAvailableBytes = 0 ∨
    budget.scanAvailableBytes = 0 ∨ budget.reconstructionAvailable = 0 ∨
    budget.destinationAvailable = 0 ∨ budget.rootOverlayBudgetBytes = 0 ∨
    budget.reconstructionBytes = 0 ∨ budget.maximumOutputBytes = 0 ∨
    budget.maximumSelectedBytes = 0) invalidSelection
  let chosen ← indexes.foldlM (chooseFile safePolicy) ⟨metadata.files, [], 0, false⟩
  let plan ← planStages budget chosen.selectedSizeBytes chosen.archiveSelected
  return ({ metadata with
    files := chosen.files
    selectedSizeBytes := chosen.selectedSizeBytes }, plan)

/-- `PlanSelection` of the source: the budget is made from evidence and a fresh probe. -/
def CapacityEvidence.planSelection (evidence : CapacityEvidence) (metadata : Metadata)
    (indexes : List UInt32) (quarantineAvailable : UInt64) (safePolicy : Bool) :
    Except Error (Metadata × CapacityPlan) := do
  let budget ← evidence.budget quarantineAvailable
  Torrent.planSelection metadata indexes budget safePolicy

/-! ## What a plan says -/

/-- A file of the list, marked when its position is among the indexes. -/
def markAt (indexes : List UInt32) (position : Nat) (file : File) : File :=
  if indexes.any (·.toNat = position) then { file with selected := true } else file

/-- The files of a list with those at the given indexes marked. -/
def mark (indexes : List UInt32) (files : List File) : List File :=
  files.mapIdx (markAt indexes)

theorem markAt_nil (position : Nat) : markAt [] position = id := rfl

theorem mark_nil (files : List File) : mark [] files = files := by
  apply ext_getElem?
  simp [mark, markAt_nil]

variable {index : UInt32} {indexes : List UInt32} {files : List File} {file : File} {acc : Chosen}
  {budget : CapacityBudget} {plan : CapacityPlan}

/-- Marking one file first makes no difference. -/
theorem mark_cons (hfile : files[index.toNat]? = some file) :
    mark indexes (files.set index.toNat { file with selected := true }) =
      mark (index :: indexes) files := by
  apply ext_getElem?
  intro i
  simp only [mark]
  by_cases hi : index.toNat = i
  · subst hi
    obtain ⟨hlt, rfl⟩ := List.getElem?_eq_some_iff.1 hfile
    simp [hlt, markAt]
  · have hsame : markAt (index :: indexes) i = markAt indexes i := by
      funext file
      simp [markAt, hi]
    simp [hi, hsame]

def sizeAt (files : List File) (index : UInt32) : Nat :=
  (files[index.toNat]?.map (·.sizeBytes.toNat)).getD 0

/-- The declared sizes do not depend on marks. -/
theorem sizeAt_set (hfile : files[index.toNat]? = some file) :
    sizeAt (files.set index.toNat { file with selected := true }) = sizeAt files := by
  funext i
  simp only [sizeAt]
  by_cases hi : index.toNat = i.toNat
  · obtain ⟨hlt, rfl⟩ := List.getElem?_eq_some_iff.1 hfile
    simp [← hi, hlt]
  · simp [hi]

variable {safePolicy : Bool}

theorem toNat_checkedAdd {left right : UInt64} (h : ¬ (left + right < left)) :
    (left + right).toNat = left.toNat + right.toNat := by
  rw [UInt64.lt_iff_toNat_lt, UInt64.toNat_add] at h
  rw [UInt64.toNat_add]
  have hr := right.toNat_lt
  omega

theorem chooseFile_spec {next : Chosen} (h : chooseFile safePolicy acc index = .ok next) :
    ∃ file, acc.files[index.toNat]? = some file ∧ index ∉ acc.selected ∧
      next.files = acc.files.set index.toNat { file with selected := true } ∧
      next.selected = index :: acc.selected ∧
      next.selectedSizeBytes.toNat = acc.selectedSizeBytes.toNat + file.sizeBytes.toNat := by
  unfold chooseFile at h
  split at h
  · cases h
  rename_i file hfile
  simp only [bind_eq_ok, failIf_eq_ok, pure_eq_ok, exists_const, checkedAdd, decide_eq_true_eq] at h
  obtain ⟨hnew, -, hsum, rfl⟩ := h
  exact ⟨file, hfile, hnew, rfl, rfl, toNat_checkedAdd hsum⟩

/-- The whole loop: exactly the files at the indexes are marked, no index occurs twice, every
index is one of a file, and the sizes are added up without overflow. -/
theorem chooseFiles_spec {final} (h : indexes.foldlM (chooseFile safePolicy) acc = .ok final) :
    final.files = mark indexes acc.files ∧ indexes.Nodup ∧
      (∀ i ∈ indexes, i ∉ acc.selected ∧ i.toNat < acc.files.length) ∧
      final.selectedSizeBytes.toNat =
        acc.selectedSizeBytes.toNat + (indexes.map (sizeAt acc.files)).sum := by
  induction indexes generalizing acc with
  | nil =>
    cases h
    exact ⟨(mark_nil _).symm, nodup_nil, by simp, rfl⟩
  | cons index indexes ih =>
    obtain ⟨next, hnext, hrest⟩ := bind_eq_ok.1 h
    obtain ⟨file, hfile, hnew, hfiles, hsel, hsize⟩ := chooseFile_spec hnext
    obtain ⟨hmark, hnd, hin, hsum⟩ := ih hrest
    rw [hfiles, mark_cons hfile] at hmark
    rw [hfiles, sizeAt_set hfile] at hsum
    rw [hsel, hfiles, length_set] at hin
    have hidx : index ∉ indexes := fun hmem => (hin index hmem).1 mem_cons_self
    have hfst : sizeAt acc.files index = file.sizeBytes.toNat := by simp [sizeAt, hfile]
    refine ⟨hmark, nodup_cons.2 ⟨hidx, hnd⟩, ?_, ?_⟩
    · intro i hi
      rcases mem_cons.1 hi with rfl | hi
      · exact ⟨hnew, (List.getElem?_eq_some_iff.1 hfile).1⟩
      · exact ⟨fun hmem => (hin i hi).1 (mem_cons_of_mem _ hmem), (hin i hi).2⟩
    · rw [map_cons, sum_cons]
      omega

theorem planStages_selectedBytes {size archive} (h : planStages budget size archive = .ok plan) :
    plan.selectedBytes = size ∧ size ≠ 0 := by
  simp only [planStages, bind_eq_ok, failIf_eq_ok, exists_const, pure_eq_ok] at h
  obtain ⟨hsize, q, -, -, sc, -, rc, -, d, -, se, -, -, rfl⟩ := h
  exact ⟨rfl, fun h0 => hsize (.inl h0)⟩

/-- **What an accepted selection is.** The files at the indexes are marked and nothing else
changes; the indexes are those of distinct files, and the plan is for the sum of their sizes. -/
theorem planSelection_files {metadata metadata'}
    (h : planSelection metadata indexes budget safePolicy = .ok (metadata', plan)) :
    metadata'.files = mark indexes metadata.files ∧ indexes.Nodup ∧ indexes ≠ [] ∧
      (∀ i ∈ indexes, i.toNat < metadata.files.length) ∧
      plan.selectedBytes = metadata'.selectedSizeBytes ∧ metadata'.selectedSizeBytes ≠ 0 ∧
      plan.selectedBytes.toNat = (indexes.map (sizeAt metadata.files)).sum := by
  simp only [planSelection, bind_eq_ok, failIf_eq_ok, exists_const] at h
  obtain ⟨hcheck, chosen, hchos, plan', hplan, rfl, rfl⟩ := h
  obtain ⟨hfiles, hnd, hin, hsum⟩ := chooseFiles_spec hchos
  obtain ⟨hbytes, hpos⟩ := planStages_selectedBytes hplan
  refine ⟨hfiles, hnd, ?_, fun i hi => (hin i hi).2, hbytes, hpos, ?_⟩
  · rintro rfl
    exact hcheck (.inr (.inr (.inl rfl)))
  · rw [hbytes, hsum]
    exact Nat.zero_add _

end PrivateVm.Torrent
