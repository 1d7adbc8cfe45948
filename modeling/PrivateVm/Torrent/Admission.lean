import PrivateVm.Torrent.Capacity
import PrivateVm.Torrent.Verifier
import Mathlib.Data.List.Nodup

set_option autoImplicit false

/-! # Admission and sealing

`validateMetadata` judges the path in the torrent, the verifier the display path, which is its
normal form, and refuses components that start with a dot. The two agree on the selections whose
paths are in normal form and have no hidden component below the first (`seals_iff_sealable`).
-/

namespace PrivateVm.Torrent

open Checked List

variable {U : Unicode} {sha256 : List UInt8 → Digest}

/-! ## What admission establishes -/

/-- A file of the metadata, and the file of the torrent it was made from. -/
structure Admits (U : Unicode) (rawFile : RawFile) (file : File) : Prop where
  path : ∃ path, rawFile.path = .text path ∧ validateRelativePath U (.text path) = .ok path ∧
    file.displayPath = U.nfc path
  size : file.sizeBytes = rawFile.size
  nonempty : rawFile.size ≠ 0
  index : file.index = rawFile.index
  unselected : file.selected = false

theorem validateRelativePath_eq_ok {value path} (h : validateRelativePath U value = .ok path) :
    value = .text path := by
  cases value with
  | malformed => cases h
  | text =>
    simp only [validateRelativePath, bind_eq_ok, failIf_eq_ok, exists_const, pure_eq_ok] at h
    rw [h.2.2]

variable {expectedIndex : Nat} {acc : Admitted} {file : File}

theorem admitFile_spec {next rawFile} (h : admitFile U expectedIndex acc rawFile = .ok next) :
    ∃ file, Admits U rawFile file ∧ file.index = .ofNat expectedIndex ∧
      file.displayPath ∉ acc.seen ∧ next.files = acc.files ++ [file] ∧
      next.seen = file.displayPath :: acc.seen := by
  simp only [admitFile, bind_eq_ok, failIf_eq_ok, exists_const, pure_eq_ok, not_or, not_not] at h
  obtain ⟨⟨hidx, hsize⟩, path, hpath, hseen, -, -, rfl⟩ := h
  have htext := validateRelativePath_eq_ok hpath
  exact ⟨_, ⟨⟨path, htext, htext ▸ hpath, rfl⟩, rfl, hsize, rfl, rfl⟩, hidx, hseen, rfl, rfl⟩

/-- The loop over the files: they are admitted one by one, get consecutive indexes, and no two
have the same display path. -/
theorem admitFiles_spec {raws final} (h : admitFiles U expectedIndex acc raws = .ok final) :
    ∃ files, final.files = acc.files ++ files ∧ List.Forall₂ (Admits U) raws files ∧
      files.map (·.index) = (List.range' expectedIndex raws.length).map UInt32.ofNat ∧
      (files.map (·.displayPath)).Nodup ∧ ∀ file ∈ files, file.displayPath ∉ acc.seen := by
  induction raws generalizing expectedIndex acc with
  | nil =>
    cases h
    exact ⟨[], (append_nil _).symm, .nil, rfl, nodup_nil, by simp⟩
  | cons rawFile raws ih =>
    obtain ⟨next, hnext, hrest⟩ := bind_eq_ok.1 h
    obtain ⟨file, hadm, hidx, hnew, hfiles, hseen⟩ := admitFile_spec hnext
    obtain ⟨files, hfinal, hall, hidxs, hnd, hfr⟩ := ih hrest
    rw [hseen] at hfr
    refine ⟨file :: files, ?_, .cons hadm hall, ?_, ?_, ?_⟩
    · rw [hfinal, hfiles, append_assoc]
      rfl
    · rw [map_cons, hidxs, hidx, length_cons, List.range'_succ, map_cons]
    · refine nodup_cons.2 ⟨?_, hnd⟩
      intro hmem
      obtain ⟨other, hother, heq⟩ := mem_map.1 hmem
      exact hfr other hother (heq ▸ mem_cons_self)
    · intro other hother
      rcases mem_cons.1 hother with rfl | hother
      · exact hnew
      · exact fun hmem => hfr other hother (mem_cons_of_mem _ hmem)

/-- **What admitted metadata is.** -/
structure AdmittedMetadata (U : Unicode) (raw : RawMetadata) (metadata : Metadata) : Prop where
  files : List.Forall₂ (Admits U) raw.files metadata.files
  indexes : metadata.files.map (·.index) =
    (List.range metadata.files.length).map UInt32.ofNat
  count : metadata.files.length ≤ maximumFiles
  paths : (metadata.files.map (·.displayPath)).Nodup

variable {raw : RawMetadata} {metadata : Metadata}

theorem validateMetadata_spec (h : validateMetadata U raw = .ok metadata) :
    AdmittedMetadata U raw metadata := by
  simp only [validateMetadata, bind_eq_ok, failIf_eq_ok, exists_const, pure_eq_ok, not_or] at h
  obtain ⟨-, name, -, ⟨-, hcnt⟩, acc, hacc, rfl⟩ := h
  obtain ⟨files, hfiles, hall, hidxs, hnd, -⟩ := admitFiles_spec hacc
  rw [nil_append] at hfiles
  have hlen : raw.files.length = files.length := hall.length_eq
  refine ⟨hfiles ▸ hall, ?_, ?_, hfiles ▸ hnd⟩
  · simp only [hfiles]
    rw [hidxs, hlen, range_eq_range']
  · simp only [hfiles]
    omega

/-- Where the index of a file is its position, the marks go by the index. -/
theorem mark_eq_map {indexes files}
    (hidx : ∀ {i : Nat} {file : File}, files[i]? = some file → file.index.toNat = i) :
    mark indexes files = files.map fun file =>
      if file.index ∈ indexes then { file with selected := true } else file := by
  apply ext_getElem?
  intro i
  rw [mark, List.getElem?_mapIdx, List.getElem?_map]
  cases hfile : files[i]? with
  | none => rfl
  | some file =>
    have hany : (indexes.any (·.toNat = i)) = true ↔ file.index ∈ indexes := by
      simp [← hidx hfile, UInt32.toNat_inj]
    simp [markAt, hany]

namespace AdmittedMetadata

variable (h : AdmittedMetadata U raw metadata)

include h

/-- In admitted metadata the index of a file is its position. -/
theorem index_eq {i : Nat} (hfile : metadata.files[i]? = some file) : file.index.toNat = i := by
  obtain ⟨hi, rfl⟩ := List.getElem?_eq_some_iff.1 hfile
  have hcnt := h.count
  have hget : (metadata.files.map (·.index))[i]? =
      ((List.range metadata.files.length).map .ofNat)[i]? := by rw [h.indexes]
  simp only [List.getElem?_map, List.getElem?_eq_getElem hi, List.getElem?_range hi,
    Option.map_some, Option.some.injEq] at hget
  rw [hget]
  exact Nat.mod_eq_of_lt (by rw [maximumFiles] at hcnt; omega)

theorem indexes_nodup : (metadata.files.map (·.index)).Nodup := by
  have hcnt := h.count
  rw [h.indexes]
  refine .map_on ?_ nodup_range
  intro i hi j hj hij
  have hnat : (UInt32.ofNat i).toNat = (UInt32.ofNat j).toNat := by rw [hij]
  rw [UInt32.toNat_ofNat', UInt32.toNat_ofNat'] at hnat
  rw [mem_range] at hi hj
  rw [maximumFiles] at hcnt
  omega

/-! ## What a selection marks -/

/-- The selected files of a first selection: the admitted files with a chosen index. -/
theorem mem_selectedFiles {metadata' : Metadata} {indexes : List UInt32}
    (hfiles : metadata'.files = mark indexes metadata.files) : file ∈ metadata'.selectedFiles ↔
      ∃ file₀ ∈ metadata.files, file₀.index ∈ indexes ∧
        file = { file₀ with selected := true } := by
  have huns : ∀ file₀ ∈ metadata.files, file₀.selected = false := by
    intro file₀ hmem
    obtain ⟨_, _, hadm⟩ := mem_right_of_forall₂ h.files hmem
    exact hadm.unselected
  simp only [Metadata.selectedFiles, hfiles, mark_eq_map h.index_eq, mem_filter, mem_map]
  constructor
  · rintro ⟨⟨file₀, hmem, rfl⟩, hsel⟩
    by_cases hin : file₀.index ∈ indexes
    · exact ⟨file₀, hmem, hin, if_pos hin⟩
    · rw [if_neg hin, huns file₀ hmem] at hsel
      cases hsel
  · rintro ⟨file₀, hmem, hin, rfl⟩
    exact ⟨⟨file₀, hmem, if_pos hin⟩, rfl⟩

end AdmittedMetadata

theorem map_index_mark (indexes : List UInt32) (files : List File) :
    (mark indexes files).map (·.index) = files.map (·.index) := by
  apply ext_getElem?
  intro i
  simp only [List.getElem?_map, mark, List.getElem?_mapIdx, Option.map_map]
  congr 1
  funext file
  simp only [Function.comp, markAt]
  split <;> rfl

/-! ## The completed download -/

def chosenFiles (raw : RawMetadata) (indexes : List UInt32) : List RawFile :=
  raw.files.filter (·.index ∈ indexes)

/-- Every chosen file is on the disk as a regular file at its path in the torrent, with its
declared size. -/
def Downloaded (raw : RawMetadata) (indexes : List UInt32) (disk : Disk) : Prop :=
  ∀ rawFile ∈ chosenFiles raw indexes, ∀ path, rawFile.path = .text path →
    ∃ links data, disk.lookup path = some (.regular links data) ∧
      data.length = rawFile.size.toNat

/-- The disk holds no other regular files. -/
def NothingElse (raw : RawMetadata) (indexes : List UInt32) (disk : Disk) : Prop :=
  ∀ path links data, disk.lookup path = some (.regular links data) →
    ∃ rawFile ∈ chosenFiles raw indexes, rawFile.path = .text path

/-- The verifier and the checks of the manifest accept the disk. -/
def Seals (U : Unicode) (sha256 : List UInt8 → Digest) (disk : Disk) (metadata : Metadata) :
    Prop :=
  ∃ digests manifest, verify U sha256 .never disk metadata = .ok digests ∧
    newManifest U digests = .ok manifest ∧
    verifyManifestMatchesSelection manifest metadata = .ok ()

/-- The paths of the chosen files are in normal form and have no hidden component below the
first; the files have one link and no digest of zeros. -/
def Sealable (U : Unicode) (sha256 : List UInt8 → Digest) (raw : RawMetadata)
    (indexes : List UInt32) (disk : Disk) : Prop :=
  ∀ rawFile ∈ chosenFiles raw indexes, ∀ path, rawFile.path = .text path →
    U.nfc path = path ∧ hasHiddenComponent path = false ∧
    ∀ links data, disk.lookup path = some (.regular links data) →
      links = 1 ∧ allZero (sha256 data) = false

section

variable {raw : RawMetadata} {metadata metadata' : Metadata} {indexes : List UInt32} {disk : Disk}
  {file : File}

theorem Disk.root_of_lookup {path node} (h : disk.lookup path = some node) : disk.root ≠ false := by
  intro hroot
  rw [disk.lookup_of_no_root hroot path] at h
  cases h

variable {rawFile : RawFile}

namespace AdmittedMetadata

variable (h : AdmittedMetadata U raw metadata)

include h

/-- Two files of the torrent with one display path are the same. -/
theorem raw_inj {rawFile' file'} (hmem : file ∈ metadata.files) (hmem' : file' ∈ metadata.files)
    (hraw : rawFile ∈ raw.files) (hraw' : rawFile' ∈ raw.files) (hadm : Admits U rawFile file)
    (hadm' : Admits U rawFile' file') (hpath : file.displayPath = file'.displayPath) :
    rawFile = rawFile' := by
  have hfile : file = file' := inj_on_of_nodup_map h.paths hmem hmem' hpath
  have hidx : rawFile.index = rawFile'.index := by
    rw [← hadm.index, ← hadm'.index, hfile]
  have hnd : (raw.files.map (·.index)).Nodup := by
    have hsame : raw.files.map (·.index) = metadata.files.map (·.index) := by
      rw [← forall₂_eq_eq_eq, forall₂_map_left_iff, forall₂_map_right_iff]
      exact h.files.imp fun _ _ hadm => hadm.index.symm
    rw [hsame]
    exact h.indexes_nodup
  exact inj_on_of_nodup_map hnd hraw hraw' hidx

variable (hfiles : metadata'.files = mark indexes metadata.files)

include hfiles

/-- A selected file of the metadata and the file of the torrent it stands for. -/
theorem chosen_of_selected (hfile : file ∈ metadata'.selectedFiles) :
    ∃ rawFile ∈ chosenFiles raw indexes, ∃ path, rawFile.path = .text path ∧
      validateRelativePath U (.text path) = .ok path ∧ file.displayPath = U.nfc path ∧
      file.sizeBytes = rawFile.size ∧ rawFile.size ≠ 0 := by
  obtain ⟨file₀, hmem, hin, rfl⟩ := (h.mem_selectedFiles hfiles).1 hfile
  obtain ⟨rawFile, hraw, hadm⟩ := mem_right_of_forall₂ h.files hmem
  obtain ⟨path, hpath, hval, hdisp⟩ := hadm.path
  refine ⟨rawFile, mem_filter.2 ⟨hraw, ?_⟩, path, hpath, hval, hdisp, hadm.size, hadm.nonempty⟩
  rw [← hadm.index]
  exact decide_eq_true hin

theorem selected_of_chosen (hraw : rawFile ∈ chosenFiles raw indexes) :
    ∃ file₀ ∈ metadata.files, Admits U rawFile file₀ ∧
      { file₀ with selected := true } ∈ metadata'.selectedFiles := by
  obtain ⟨hmem, hin⟩ := mem_filter.1 hraw
  obtain ⟨file₀, hfile₀, hadm⟩ := mem_left_of_forall₂ h.files hmem
  refine ⟨file₀, hfile₀, hadm, (h.mem_selectedFiles hfiles).2 ⟨file₀, hfile₀, ?_, rfl⟩⟩
  rw [hadm.index]
  exact of_decide_eq_true hin

/-- The verifier accepts every selected file of a sealable download. -/
theorem verifyFile_ok (hdisk : Downloaded raw indexes disk)
    (hseal : Sealable U sha256 raw indexes disk) (hfile : file ∈ metadata'.selectedFiles) :
    ∃ entry, verifyFile U sha256 .never disk file = .ok entry ∧ Describes file entry ∧
      entry.sizeBytes ≠ 0 ∧ (validateRelativePath U (.text entry.path)).isOk = true ∧
      allZero entry.sha256 = false := by
  obtain ⟨rawFile, hraw, path, hpath, hval, hdisp, hsize, hpos⟩ :=
    h.chosen_of_selected hfiles hfile
  obtain ⟨hnfc, hhidd, hone⟩ := hseal rawFile hraw path hpath
  obtain ⟨links, data, hlook, hlen⟩ := hdisk rawFile hraw path hpath
  obtain ⟨rfl, hzero⟩ := hone links data hlook
  -- the display path is the path in the torrent, so the verifier finds the file there
  rw [hnfc] at hdisp
  have hok : (validateRelativePath U (.text file.displayPath)).isOk = true := by
    rw [hdisp, hval]
    rfl
  refine ⟨⟨file.displayPath, file.sizeBytes, sha256 data, file.index⟩, ?_, ⟨rfl, rfl, rfl⟩, ?_,
    hok, hzero⟩
  · refine verifyFile_eq_ok.2 ⟨hok, ?_, data, ⟨?_, ?_⟩, rfl⟩
    · rwa [hdisp]
    · rwa [hdisp]
    · rwa [hsize]
  · rwa [hsize]

theorem seals (hsize : metadata'.selectedSizeBytes ≠ 0)
    (hchos : chosenFiles raw indexes ≠ []) (hdisk : Downloaded raw indexes disk)
    (hseal : Sealable U sha256 raw indexes disk) : Seals U sha256 disk metadata' := by
  obtain ⟨entries, hents⟩ := exists_forall₂ fun file hfile =>
    h.verifyFile_ok hfiles hdisk hseal hfile
  -- some file is chosen, so the directory can be opened and the result is not empty
  obtain ⟨rawFile, hraw⟩ := exists_mem_of_ne_nil _ hchos
  obtain ⟨file₀, -, hadm, hsel⟩ := h.selected_of_chosen hfiles hraw
  obtain ⟨path, hpath, -, -⟩ := hadm.path
  obtain ⟨links, data, hlook, -⟩ := hdisk rawFile hraw path hpath
  obtain ⟨entry₀, hent₀, -⟩ := mem_left_of_forall₂ hents hsel
  have hnon : entries.length ≠ 0 := fun hnil => by
    rw [length_eq_zero_iff.1 hnil] at hent₀
    cases hent₀
  have hcnt : entries.length ≤ maximumFiles := by
    rw [← hents.length_eq]
    refine Nat.le_trans (length_filter_le _ _) ?_
    rw [hfiles, mark, length_mapIdx]
    exact h.count
  refine ⟨entries, ⟨entries⟩, ?_, ?_, ?_⟩
  · simp only [verify, bind_eq_ok, failIf_eq_ok, exists_const, mapM_eq_ok]
    exact ⟨hsize, Disk.root_of_lookup hlook, entries, hents.imp fun _ _ hent => hent.1, hnon, rfl⟩
  · simp only [newManifest, bind_eq_ok, failIf_eq_ok, exists_const, pure_eq_ok, and_true,
      any_eq_true, not_exists, not_or, not_and]
    refine ⟨⟨hnon, by omega⟩, ?_⟩
    intro entry hent
    obtain ⟨file, -, -, -, hpos, hok, hzero⟩ := mem_right_of_forall₂ hents hent
    simp [hpos, hok, hzero]
  · refine (verifyManifestMatchesSelection_eq_ok ?_).2
      ⟨_, .refl _, hents.imp fun _ _ hent => hent.2.1⟩
    rw [hfiles, map_index_mark]
    exact h.indexes_nodup

/-- A download that is accepted, and besides which the disk holds nothing, is sealable. -/
theorem sealable (honly : NothingElse raw indexes disk)
    (hseals : Seals U sha256 disk metadata') : Sealable U sha256 raw indexes disk := by
  intro rawFile hraw path hpath
  obtain ⟨entries, manifest, hver, hman, -⟩ := hseals
  simp only [verify, bind_eq_ok, failIf_eq_ok, exists_const, pure_eq_ok, mapM_eq_ok] at hver
  obtain ⟨-, -, entries, hents, -, rfl⟩ := hver
  obtain ⟨file₀, hmem, hadm, hsel⟩ := h.selected_of_chosen hfiles hraw
  obtain ⟨entry, hent, hfile⟩ := mem_left_of_forall₂ hents hsel
  obtain ⟨-, hhidd, data, hdata, rfl⟩ := verifyFile_eq_ok.1 hfile
  obtain ⟨path', hpath', -, hdisp⟩ := hadm.path
  obtain rfl : path = path' := by
    rw [hpath, RawText.text.injEq] at hpath'
    exact hpath'
  have hlook : disk.lookup (U.nfc path) = some (.regular 1 data) := hdisp ▸ hdata.found
  -- the file found at the display path is a chosen one, and no other has this display path
  have hnfc : U.nfc path = path := by
    obtain ⟨rawFile', hraw', hpath''⟩ := honly _ _ _ hlook
    obtain ⟨file', hmem', hadm', -⟩ := h.selected_of_chosen hfiles hraw'
    obtain ⟨path'', htext, -, hdisp'⟩ := hadm'.path
    rw [hpath'', RawText.text.injEq] at htext
    have hsame : file₀.displayPath = file'.displayPath := by
      rw [hdisp, hdisp', ← htext, U.nfc_nfc]
    have hraws := h.raw_inj hmem hmem' (mem_of_mem_filter hraw)
      (mem_of_mem_filter hraw') hadm hadm' hsame
    rwa [hraws, hpath'', RawText.text.injEq] at hpath
  rw [hnfc] at hlook hdisp
  refine ⟨hnfc, hdisp ▸ hhidd, ?_⟩
  intro links data' hdata'
  rw [hlook] at hdata'
  obtain ⟨rfl, rfl⟩ := hdata'
  simp only [newManifest, bind_eq_ok, failIf_eq_ok, exists_const, any_eq_true, not_exists,
    not_and] at hman
  have hzero := hman.2.1 _ hent
  simp only [Bool.or_eq_true, not_or, Bool.not_eq_true] at hzero
  exact ⟨rfl, hzero.2⟩

end AdmittedMetadata

/-- **When an admitted selection can be sealed.** For metadata that was admitted, a selection
that was planned and a disk on which the selected files are present, the verifier and the
manifest checks accept a sealable download; and they accept only those, when the disk holds
nothing else. -/
theorem seals_iff_sealable {budget : CapacityBudget} {safePolicy : Bool} {plan : CapacityPlan}
    (hmetadata : validateMetadata U raw = .ok metadata)
    (hplan : planSelection metadata indexes budget safePolicy = .ok (metadata', plan))
    (hdisk : Downloaded raw indexes disk) :
    (Sealable U sha256 raw indexes disk → Seals U sha256 disk metadata') ∧
      (NothingElse raw indexes disk →
        (Seals U sha256 disk metadata' ↔ Sealable U sha256 raw indexes disk)) := by
  have hadm := validateMetadata_spec hmetadata
  obtain ⟨hfiles, -, hnon, hin, -, hsize, -⟩ := planSelection_files hplan
  have hchos : chosenFiles raw indexes ≠ [] := by
    obtain ⟨i, hi⟩ := exists_mem_of_ne_nil _ hnon
    have hlt := hin i hi
    have hfile : metadata.files[i.toNat]? = some metadata.files[i.toNat] :=
      List.getElem?_eq_getElem hlt
    obtain ⟨rawFile, hraw, hadmits⟩ :=
      mem_right_of_forall₂ hadm.files (mem_of_getElem? hfile)
    have hidx : rawFile.index = i := by
      rw [← hadmits.index, ← UInt32.toNat_inj, hadm.index_eq hfile]
    have hmem : rawFile ∈ chosenFiles raw indexes :=
      mem_filter.2 ⟨hraw, by rw [hidx]; exact decide_eq_true hi⟩
    exact ne_nil_of_mem hmem
  have hsuff := fun hseal : Sealable U sha256 raw indexes disk =>
    hadm.seals hfiles hsize hchos hdisk hseal
  exact ⟨hsuff, fun honly => ⟨hadm.sealable hfiles honly, hsuff⟩⟩

end

/-! ## A selection that can be sealed, and one that cannot -/

def sampleBudget : CapacityBudget :=
  ⟨1099511627776, 1099511627776, 1099511627776, 1099511627776, 1, 1, 1, 1, 1099511627776⟩

def sampleMetadata (path : String) (selected : Bool) : Metadata :=
  ⟨"sample".toList, [⟨0, path.toList, 3, selected, .text, []⟩], 3, if selected then 3 else 0, true⟩

def sampleDisk (path : String) : Disk where
  root := true
  lookup found := if found = path.toList then some (.regular 1 [1, 2, 3]) else none
  lookup_of_no_root := nofun

def sampleSha256 : List UInt8 → Digest := fun _ => Vector.replicate 32 1

def samplePlan : CapacityPlan :=
  match planSelection (sampleMetadata "a.txt" false) [0] sampleBudget true with
  | .ok (_, plan) => plan
  | .error _ => .zero

theorem lookup_sampleDisk (path : String) :
    (sampleDisk path).lookup path.toList = some (.regular 1 [1, 2, 3]) := if_pos rfl

theorem downloaded_sample (path : String) : Downloaded (sampleRaw path) [0] (sampleDisk path) := by
  intro rawFile hraw found hfound
  obtain rfl : rawFile = ⟨0, .text path.toList, 3⟩ := by
    simpa [chosenFiles, sampleRaw] using hraw
  cases hfound
  exact ⟨1, [1, 2, 3], lookup_sampleDisk path, rfl⟩

theorem seals_iff_sealable_sample :
    Seals .ascii sampleSha256 (sampleDisk "a.txt") (sampleMetadata "a.txt" true) := by
  have hmeta : validateMetadata .ascii (sampleRaw "a.txt") =
      .ok (sampleMetadata "a.txt" false) := by decide +kernel
  have hplan : planSelection (sampleMetadata "a.txt" false) [0] sampleBudget true =
      .ok (sampleMetadata "a.txt" true, samplePlan) := by decide +kernel
  refine (seals_iff_sealable hmeta hplan (downloaded_sample "a.txt")).1 ?_
  intro rawFile hraw found hfound
  obtain rfl : rawFile = ⟨0, .text "a.txt".toList, 3⟩ := by
    simpa [chosenFiles, sampleRaw] using hraw
  cases hfound
  refine ⟨rfl, by decide +kernel, ?_⟩
  intro links data hdata
  rw [lookup_sampleDisk, Option.some.injEq, Node.regular.injEq] at hdata
  have hzero : allZero (.replicate 32 1) = false := by decide +kernel
  exact ⟨hdata.1.symm, hzero⟩

/-- **A complete download that can never be sealed.** A hidden file in a directory is admitted,
selected and present on the disk, and the verifier refuses it. -/
theorem admitted_not_sealable :
    ∃ (raw : RawMetadata) (metadata metadata' : Metadata) (plan : CapacityPlan) (disk : Disk),
      validateMetadata .ascii raw = .ok metadata ∧
      planSelection metadata [0] sampleBudget true = .ok (metadata', plan) ∧
      Downloaded raw [0] disk ∧ NothingElse raw [0] disk ∧
      ¬ Seals .ascii sampleSha256 disk metadata' := by
  refine ⟨sampleRaw "a/.b.txt", sampleMetadata "a/.b.txt" false, sampleMetadata "a/.b.txt" true,
    samplePlan, sampleDisk "a/.b.txt", by decide +kernel, by decide +kernel,
    downloaded_sample _, ?_, ?_⟩
  · intro path links data hlook
    refine ⟨⟨0, .text "a/.b.txt".toList, 3⟩, by simp [chosenFiles, sampleRaw], ?_⟩
    by_cases hpath : path = "a/.b.txt".toList
    · rw [hpath]
    · cases (if_neg hpath).symm.trans hlook
  · rintro ⟨digests, manifest, hver, -⟩
    cases hver

end PrivateVm.Torrent
