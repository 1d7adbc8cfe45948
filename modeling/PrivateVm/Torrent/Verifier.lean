import PrivateVm.Torrent.Model
import Mathlib.Data.List.Infix
import Mathlib.Data.List.Perm.Basic

set_option autoImplicit false

/-! # The verifier of a completed download (`internal/torrent/verifier_linux.go`)

A `Disk` is what opening a path below the download directory finds; the directory is not written to
while it is verified. SHA-256 is a parameter, and so are the answers of the context, which is asked
before each file and before each read. Closing a file that was only read does not fail.
-/

namespace PrivateVm.Torrent

open Checked List

/-! ## The disk -/

/-- What a path leads to: a regular file with its number of links and content, or anything
else. Symbolic links are not followed. -/
inductive Node where
  | regular (links : Nat) (data : List UInt8)
  | other
  deriving DecidableEq

/-- The download directory, when it can be opened, and what is found below it. -/
structure Disk where
  root : Bool
  lookup : List Char → Option Node
  lookup_of_no_root : root = false → ∀ path, lookup path = none

/-- What the context answers: before the file of an index, and before a read of it. -/
structure Deadline where
  beforeFile : UInt32 → Option Fault
  beforeRead : UInt32 → Nat → Option Fault

def Deadline.never : Deadline := ⟨fun _ => none, fun _ _ => none⟩

/-! ## Hashing one file -/

def bufferSize : Nat := 1 <<< 20

/-- The rest of a file, of which `total` bytes have been read and `hashed` written to the hash. -/
def readAll (deadline : Deadline) (expected : File) (total : Nat) (hashed rest : List UInt8) :
    Except Fault (List UInt8) :=
  match deadline.beforeRead expected.index total with
  | some fault => .error fault
  | none =>
    if _hrest : rest = [] then
      if total ≠ expected.sizeBytes.toNat then .error .other else .ok hashed
    else
      let n := (rest.take bufferSize).length
      if total + n > expected.sizeBytes.toNat then .error .other
      else readAll deadline expected (total + n) (hashed ++ rest.take bufferSize)
        (rest.drop bufferSize)
  termination_by rest.length
  decreasing_by
    have hpos := length_pos_of_ne_nil _hrest
    rw [length_drop, bufferSize]
    omega

variable (U : Unicode) (sha256 : List UInt8 → Digest)

def hashRegularFile (deadline : Deadline) (node : Node) (expected : File) :
    Except Fault FileDigest :=
  match node with
  | .other => .error .other
  | .regular links data => do
      failIf (links ≠ 1 ∨ data.length ≠ expected.sizeBytes.toNat) .other
      let hashed ← readAll deadline expected 0 [] data
      return ⟨expected.displayPath, expected.sizeBytes, sha256 hashed, expected.index⟩

/-- A component other than the first that starts with a dot. -/
def hasHiddenComponent (path : List Char) : Bool := ['/', '.'] <:+: path

def verifyFile (deadline : Deadline) (disk : Disk) (expected : File) : Except Error FileDigest :=
  match deadline.beforeFile expected.index with
  | some fault => .error (.cause fault)
  | none => do
      failIf ((validateRelativePath U (.text expected.displayPath)).isOk = false ∨
        hasHiddenComponent expected.displayPath = true) sealFailed
      let node ← ofOption sealFailed (disk.lookup expected.displayPath)
      match hashRegularFile sha256 deadline node expected with
      | .ok entry => return entry
      | .error fault =>
        if fault.isContextError then throw (.cause fault) else throw sealFailed

def Metadata.selectedFiles (metadata : Metadata) : List File := metadata.files.filter (·.selected)

/-- `FilesystemVerifier.Verify`. -/
def verify (deadline : Deadline) (disk : Disk) (metadata : Metadata) :
    Except Error (List FileDigest) := do
  failIf (metadata.selectedSizeBytes = 0) sealFailed
  failIf (disk.root = false) sealFailed
  let result ← metadata.selectedFiles.mapM (verifyFile U sha256 deadline disk)
  failIf (result.length = 0) sealFailed
  return result

/-! ## The manifest against the selection -/

/-- The map from index to selected file, in which a later file replaces an earlier one. -/
def selectedByIndex (files : List File) : List File :=
  files.foldl (fun selected file =>
    if file.selected then file :: selected.filter (·.index ≠ file.index) else selected) []

/-- The digests of a manifest taken one by one out of the map. -/
def matchFiles (selected : List File) : List FileDigest → Except Error (List File)
  | [] => .ok selected
  | file :: files => do
      let expected ← ofOption sealFailed (selected.find? (·.index = file.sourceIndex))
      failIf (expected.displayPath ≠ file.path ∨ expected.sizeBytes ≠ file.sizeBytes) sealFailed
      matchFiles (selected.filter (·.index ≠ file.sourceIndex)) files

def verifyManifestMatchesSelection (manifest : Manifest) (metadata : Metadata) :
    Except Error Unit := do
  let selected := selectedByIndex metadata.files
  failIf (selected.length ≠ manifest.files.length) sealFailed
  let left ← matchFiles selected manifest.files
  failIf (left.length ≠ 0) sealFailed

/-! ## What the verifier accepts -/

variable {U : Unicode} {sha256 : List UInt8 → Digest} {expected : File} {files : List File}
  {total : Nat} {hashed : List UInt8} {entry : FileDigest} {file : File} {selected : List File}

theorem readAll_nil (h : total = expected.sizeBytes.toNat) :
    readAll .never expected total hashed [] = .ok hashed := by
  rw [readAll]
  simp [Deadline.never, h]

theorem readAll_cons {rest} (hrest : rest ≠ [])
    (h : total + (rest.take bufferSize).length ≤ expected.sizeBytes.toNat) :
    readAll .never expected total hashed rest =
      readAll .never expected (total + (rest.take bufferSize).length)
        (hashed ++ rest.take bufferSize) (rest.drop bufferSize) := by
  rw [readAll]
  simp only [dif_neg hrest, if_neg (Nat.not_lt.2 h), Deadline.never]

/-- Reading with a context that is never done gives the content, when it has the declared
size. -/
theorem readAll_never (expected : File) (total : Nat) (hashed rest : List UInt8)
    (h : total + rest.length = expected.sizeBytes.toNat) :
    readAll .never expected total hashed rest = .ok (hashed ++ rest) := by
  by_cases hrest : rest = []
  · subst hrest
    have htotal : total = expected.sizeBytes.toNat := h
    rw [readAll_nil htotal, append_nil]
  · have hpos := length_pos_of_ne_nil hrest
    have hlen : (rest.take bufferSize).length + (rest.drop bufferSize).length = rest.length := by
      rw [← length_append, take_append_drop]
    rw [readAll_cons hrest (by omega), readAll_never expected _ _ _ (by omega),
      append_assoc, take_append_drop]
  termination_by rest.length
  decreasing_by
    rw [length_drop, bufferSize]
    omega

/-- The file at a path is one regular file with the content `data` of the declared size. -/
structure Disk.Holds (disk : Disk) (path : List Char) (size : UInt64) (data : List UInt8) :
    Prop where
  found : disk.lookup path = some (.regular 1 data)
  length : data.length = size.toNat

theorem hashRegularFile_eq_ok {node} :
    hashRegularFile sha256 .never node expected = .ok entry ↔
      ∃ data, node = .regular 1 data ∧ data.length = expected.sizeBytes.toNat ∧
        entry = ⟨expected.displayPath, expected.sizeBytes, sha256 data, expected.index⟩ := by
  cases node with
  | other => simp [hashRegularFile]
  | regular links data =>
    simp only [hashRegularFile, bind_eq_ok, failIf_eq_ok, exists_const, pure_eq_ok, not_or,
      not_not, Node.regular.injEq]
    constructor
    · rintro ⟨⟨hlinks, hlen⟩, hashed, hread, rfl⟩
      rw [readAll_never expected 0 [] data (by omega)] at hread
      cases hread
      exact ⟨data, ⟨hlinks, rfl⟩, hlen, rfl⟩
    · rintro ⟨data', ⟨hlinks, rfl⟩, hlen, rfl⟩
      exact ⟨⟨hlinks, hlen⟩, data, readAll_never expected 0 [] data (by omega), rfl⟩

/-- **One file.** The verifier accepts exactly the regular file with one link and the declared
size, at a path that passes both path gates. -/
theorem verifyFile_eq_ok {disk} : verifyFile U sha256 .never disk expected = .ok entry ↔
      (validateRelativePath U (.text expected.displayPath)).isOk = true ∧
      hasHiddenComponent expected.displayPath = false ∧
      ∃ data, disk.Holds expected.displayPath expected.sizeBytes data ∧
        entry = ⟨expected.displayPath, expected.sizeBytes, sha256 data, expected.index⟩ := by
  have hctx : Deadline.never.beforeFile expected.index = none := rfl
  simp only [verifyFile, hctx, bind_eq_ok, failIf_eq_ok, exists_const, ofOption_eq_ok, not_or,
    Bool.not_eq_false, Bool.not_eq_true, and_assoc]
  refine and_congr_right fun _ => and_congr_right fun _ => ?_
  have hres : ∀ node, (match hashRegularFile sha256 .never node expected with
      | .ok entry => pure entry
      | .error fault => if fault.isContextError then throw (.cause fault) else throw sealFailed :
        Except Error FileDigest) = .ok entry ↔
      hashRegularFile sha256 .never node expected = .ok entry := by
    intro node
    cases hashRegularFile sha256 .never node expected with
    | ok => simp
    | error fault => cases fault <;> simp [Fault.isContextError]
  simp only [hres, hashRegularFile_eq_ok]
  constructor
  · rintro ⟨node, hnode, data, rfl, hlen, rfl⟩
    exact ⟨data, ⟨hnode, hlen⟩, rfl⟩
  · rintro ⟨data, hdata, rfl⟩
    exact ⟨_, hdata.found, data, rfl, hdata.length, rfl⟩

/-! ## Which manifests match -/

/-- A digest that describes a file of the metadata. -/
structure Describes (file : File) (entry : FileDigest) : Prop where
  path : entry.path = file.displayPath
  size : entry.sizeBytes = file.sizeBytes
  index : entry.sourceIndex = file.index

theorem foldl_selected_perm {acc} (h : ((files ++ acc).map (·.index)).Nodup) :
    (files.foldl (fun selected file =>
      if file.selected then file :: selected.filter (·.index ≠ file.index) else selected) acc).Perm
      (files.filter (·.selected) ++ acc) := by
  induction files generalizing acc with
  | nil => exact .refl _
  | cons file files ih =>
    rw [cons_append, map_cons, nodup_cons, map_append, mem_append,
      not_or] at h
    obtain ⟨⟨hfiles, hacc⟩, hnd⟩ := h
    rw [foldl_cons]
    by_cases hsel : file.selected = true
    · -- a new index: nothing is replaced
      have hkeep : acc.filter (·.index ≠ file.index) = acc := by
        rw [filter_eq_self]
        intro other hother
        have hne : other.index ≠ file.index := fun heq =>
          hacc (mem_map.2 ⟨other, hother, heq⟩)
        simpa using hne
      rw [if_pos hsel, hkeep, filter_cons_of_pos hsel]
      refine (ih ?_).trans perm_middle
      rw [(List.perm_middle.map File.index).nodup_iff, map_cons, map_append]
      exact nodup_cons.2 ⟨by rw [mem_append]; exact not_or.2 ⟨hfiles, hacc⟩, hnd⟩
    · rw [if_neg hsel, filter_cons_of_neg hsel]
      exact ih (by rw [map_append]; exact hnd)

/-- With distinct indexes the map holds the selected files. -/
theorem selectedByIndex_perm (h : (files.map (·.index)).Nodup) :
    (selectedByIndex files).Perm (files.filter (·.selected)) := by
  have hperm := @foldl_selected_perm files [] (by rw [append_nil]; exact h)
  rwa [append_nil] at hperm

/-- A file other than the one at the head has another index. -/
theorem filter_index_ne (hnew : file.index ∉ files.map (·.index)) :
    (file :: files).filter (·.index ≠ file.index) = files := by
  rw [filter_cons_of_neg (by simp), filter_eq_self]
  intro other hother
  have hne : other.index ≠ file.index := fun heq => hnew (mem_map.2 ⟨other, hother, heq⟩)
  simpa using hne

theorem find?_index (hperm : selected.Perm (file :: files))
    (hnew : file.index ∉ files.map (·.index)) :
    selected.find? (·.index = file.index) = some file := by
  have hfound : (selected.find? (·.index = file.index)).isSome := by
    rw [List.find?_isSome]
    exact ⟨file, hperm.mem_iff.2 mem_cons_self, by simp⟩
  obtain ⟨found, hsome⟩ := Option.isSome_iff_exists.1 hfound
  have hidx : found.index = file.index := by simpa using List.find?_some hsome
  rcases mem_cons.1 (hperm.mem_iff.1 (mem_of_find?_eq_some hsome)) with rfl | hmem
  · exact hsome
  · exact absurd (mem_map.2 ⟨found, hmem, hidx⟩) hnew

theorem matchFiles_of_describes {entries} (hperm : selected.Perm files)
    (hnd : (files.map (·.index)).Nodup) (h : List.Forall₂ Describes files entries) :
    matchFiles selected entries = .ok [] := by
  induction h generalizing selected with
  | nil =>
    rw [perm_nil.1 hperm]
    rfl
  | @cons file entry files entries hent _ ih =>
    obtain ⟨hnew, hnd⟩ := nodup_cons.1 hnd
    have hrest : (selected.filter (·.index ≠ file.index)).Perm files := by
      have := hperm.filter (·.index ≠ file.index)
      rwa [filter_index_ne hnew] at this
    simp only [matchFiles, hent.index, find?_index hperm hnew, bind_eq_ok, failIf_eq_ok,
      exists_const, ofOption_eq_ok, Option.some.injEq, exists_eq_left', hent.path, hent.size]
    exact ⟨by simp, ih hrest hnd⟩

theorem describes_of_matchFiles {entries} (hnd : (selected.map (·.index)).Nodup)
    (h : matchFiles selected entries = .ok []) :
    ∃ files, files.Perm selected ∧ List.Forall₂ Describes files entries := by
  induction entries generalizing selected with
  | nil =>
    cases h
    exact ⟨[], .refl _, .nil⟩
  | cons entry entries ih =>
    simp only [matchFiles, bind_eq_ok, failIf_eq_ok, exists_const, ofOption_eq_ok, not_or,
      not_not] at h
    obtain ⟨file, hfile, ⟨hpath, hsize⟩, hrest⟩ := h
    have hidx : file.index = entry.sourceIndex := by simpa using List.find?_some hfile
    obtain ⟨before, after, rfl⟩ := append_of_mem (mem_of_find?_eq_some hfile)
    have hperm : (before ++ file :: after).Perm (file :: (before ++ after)) := perm_middle
    have hnew := (nodup_cons.1 ((hperm.map File.index).nodup_iff.1 hnd)).1
    have hkept := hperm.filter (·.index ≠ file.index)
    rw [filter_index_ne hnew] at hkept
    rw [← hidx] at hrest
    obtain ⟨files, hfiles, hall⟩ := ih (hnd.sublist (List.filter_sublist.map _)) hrest
    exact ⟨file :: files, ((hfiles.trans hkept).cons file).trans hperm.symm,
      .cons ⟨hpath.symm, hsize.symm, hidx.symm⟩ hall⟩

/-- A manifest matches the selection when it describes the selected files in some order. -/
theorem verifyManifestMatchesSelection_eq_ok {manifest metadata}
    (hnd : (metadata.files.map (·.index)).Nodup) :
    verifyManifestMatchesSelection manifest metadata = .ok () ↔
      ∃ files, files.Perm metadata.selectedFiles ∧ List.Forall₂ Describes files manifest.files := by
  have hperm := selectedByIndex_perm hnd
  have hsel : (metadata.selectedFiles.map (·.index)).Nodup :=
    hnd.sublist ((filter_sublist).map _)
  simp only [verifyManifestMatchesSelection, bind_eq_ok, failIf_eq_ok, exists_const]
  constructor
  · rintro ⟨-, left, hleft, hnil⟩
    obtain rfl : left = [] := by simpa using hnil
    obtain ⟨files, hfiles, hall⟩ :=
      describes_of_matchFiles ((hperm.map File.index).nodup_iff.2 hsel) hleft
    exact ⟨files, hfiles.trans hperm, hall⟩
  · rintro ⟨files, hfiles, hall⟩
    have hlen : (selectedByIndex metadata.files).length = manifest.files.length :=
      (hperm.trans hfiles.symm).length_eq.trans hall.length_eq
    exact ⟨fun hne => hne hlen, [], matchFiles_of_describes (hperm.trans hfiles.symm)
      ((hfiles.map File.index).nodup_iff.2 hsel) hall, by simp⟩

end PrivateVm.Torrent
