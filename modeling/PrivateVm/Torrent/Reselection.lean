import PrivateVm.Torrent.Admission
import PrivateVm.Torrent.Receipts

set_option autoImplicit false

/-! # Selecting again

`planSelection` marks the files of a selection in the metadata of the last one, so that the files
of an earlier selection that are not chosen again stay selected (`selection_left_over`).
-/

namespace PrivateVm.Torrent

open Checked Program Method

variable {U : Unicode} {raw : RawMetadata} {torrent metadata : Metadata} {plan : CapacityPlan}
  {indexes : List UInt32} {evidence : CapacityEvidence} {w w' : World} {answers : Nat → Answer}

/-! ## What is asked of a selection -/

/-- The worlds that calls of `Select`, successful or not, lead to from one where a torrent was just
added. -/
inductive Selections (torrent : Metadata) : World → Prop
  | added {w : World} (h : w.controller.metadata = torrent) : Selections torrent w
  | select {w w' : World} {indexes : List UInt32} {evidence : CapacityEvidence}
      {answers : Nat → Answer} {r : Except Error (Metadata × CapacityPlan)}
      (h : Selections torrent w)
      (hselect : w.perform answers (Controller.select indexes evidence) = (r, w')) :
      Selections torrent w'

/-- Exactly the files at the indexes are selected, summed up and accepted at sealing. -/
structure Replaces (indexes : List UInt32) (metadata : Metadata) (plan : CapacityPlan) : Prop where
  selected : ∀ file ∈ metadata.files, file.selected = true ↔ file.index ∈ indexes
  size : metadata.selectedSizeBytes = plan.selectedBytes ∧ indexes.Nodup ∧
    plan.selectedBytes.toNat = (indexes.map (sizeAt metadata.files)).sum
  accepts : ∀ manifest, verifyManifestMatchesSelection manifest metadata = .ok () ↔
    ∃ files, files.Perm (metadata.files.filter (·.index ∈ indexes)) ∧
      List.Forall₂ Describes files manifest.files

/-! ## One call -/

theorem select_does (c : Controller) (log : List Entry) :
    Does exec (Controller.select indexes evidence) (fun r c' _ =>
      (∃ e, r = .error e) ∧ c'.metadata = c.metadata ∨
      ∃ bytes, r = evidence.planSelection c.metadata indexes bytes c.config.safePolicy ∧
        r = .ok (c'.metadata, c'.plan)) c log := by
  refine does_get_bind ?_
  split
  · exact does_throw (.inl ⟨⟨_, rfl⟩, rfl⟩)
  refine does_call_cases (fun x fault => ?_) fun x => ?_
  · simp only [Op.answer, Answer.result]
    split <;> exact does_throw (.inl ⟨⟨_, rfl⟩, rfl⟩)
  · simp only [Op.answer, Answer.result]
    split
    · exact does_throw (.inl ⟨⟨_, rfl⟩, rfl⟩)
    · rename_i hplan
      refine does_call_cases (fun x fault => ?_) fun x => ?_
      · exact does_throw (.inl ⟨⟨_, rfl⟩, rfl⟩)
      · exact does_modify_bind (does_pure (.inr ⟨_, hplan.symm, rfl⟩))

/-- A call fails, or the plan is stored and returned. -/
theorem World.select_spec {r : Except Error (Metadata × CapacityPlan)}
    (h : w.perform answers (Controller.select indexes evidence) = (r, w')) :
    (∃ e, r = .error e) ∧ w'.controller.metadata = w.controller.metadata ∨
      r = .ok (w'.controller.metadata, w'.controller.plan) ∧ ∃ budget,
        planSelection w.controller.metadata indexes budget w.controller.config.safePolicy = r := by
  rcases World.perform_does (select_does _ _) h with hsame | ⟨bytes, hplan, hok⟩
  · exact .inl hsame
  · obtain ⟨budget, -, hbudget⟩ := bind_eq_ok.1 (hplan.symm.trans hok)
    exact .inr ⟨hok, budget, hbudget.trans hok.symm⟩

theorem Selections.map_index (h : Selections torrent w) :
    w.controller.metadata.files.map (·.index) = torrent.files.map (·.index) := by
  induction h with
  | added h => rw [h]
  | select _ hselect ih =>
    rcases World.select_spec hselect with ⟨-, hsame⟩ | ⟨hok, budget, hplan⟩
    · rw [hsame, ih]
    · rw [(planSelection_files (hplan.trans hok)).1, map_index_mark, ih]

theorem sizeAt_mark (indexes : List UInt32) (files : List File) :
    sizeAt (mark indexes files) = sizeAt files := by
  funext i
  simp only [sizeAt, mark, List.getElem?_mapIdx, Option.map_map]
  congr 2
  funext file
  simp only [Function.comp, markAt]
  split <;> rfl

/-! ## The result -/

theorem reselection_iff (hraw : validateMetadata U raw = .ok torrent) (h : Selections torrent w)
    (hselect : w.perform answers (Controller.select indexes evidence) =
      (.ok (metadata, plan), w')) :
    w'.controller.metadata = metadata ∧ w'.controller.plan = plan ∧
      (Replaces indexes metadata plan ↔
        ∀ file ∈ w.controller.metadata.files, file.selected = true → file.index ∈ indexes) := by
  have hadm := validateMetadata_spec hraw
  have hidx : ∀ {i : Nat} {file : File}, w.controller.metadata.files[i]? = some file →
      file.index.toNat = i := by
    intro i file hfile
    have hget : (torrent.files.map (·.index))[i]? = some file.index := by
      rw [← h.map_index, List.getElem?_map, hfile]
      rfl
    obtain ⟨file₀, hfile₀, heq⟩ := Option.map_eq_some_iff.1 (List.getElem?_map ▸ hget)
    rw [← heq, hadm.index_eq hfile₀]
  rcases World.select_spec hselect with ⟨⟨e, hfail⟩, -⟩ | ⟨hok, budget, hplan⟩
  · cases hfail
  cases hok
  obtain ⟨hfiles, hnd, -, -, hplanned, -, hsize⟩ := planSelection_files hplan
  have hnodup : (w'.controller.metadata.files.map (·.index)).Nodup := by
    rw [(h.select hselect).map_index]
    exact hadm.indexes_nodup
  have hmarked : (∀ file ∈ w'.controller.metadata.files,
      file.selected = true ↔ file.index ∈ indexes) ↔
      ∀ file ∈ w.controller.metadata.files, file.selected = true → file.index ∈ indexes := by
    rw [hfiles, mark_eq_map hidx, List.forall_mem_map]
    refine forall₂_congr fun file _ => ?_
    by_cases hin : file.index ∈ indexes <;> simp [hin]
  refine ⟨rfl, rfl, fun hrep => hmarked.1 hrep.selected, fun hold => ?_⟩
  have hsel := hmarked.2 hold
  refine ⟨hsel, ⟨hplanned.symm, hnd, by rw [hsize, hfiles, sizeAt_mark]⟩, fun manifest => ?_⟩
  rw [verifyManifestMatchesSelection_eq_ok hnodup, Metadata.selectedFiles]
  have hfilter : w'.controller.metadata.files.filter (·.selected) =
      w'.controller.metadata.files.filter (·.index ∈ indexes) :=
    List.filter_congr fun file hmem => by simp [← hsel file hmem]
  rw [hfilter]

def pairRaw : RawMetadata :=
  ⟨true, 0, .text "sample".toList, [⟨0, .text "a.txt".toList, 3⟩, ⟨1, .text "b.txt".toList, 3⟩]⟩

def pairAdded : World :=
  .initial { sampleController with
    state := .selectionRequired
    handle := sampleHandle
    metadata := ⟨"sample".toList, [⟨0, "a.txt".toList, 3, false, .text, []⟩,
      ⟨1, "b.txt".toList, 3, false, .text, []⟩], 6, 0, true⟩ }

theorem pairRaw_admitted : validateMetadata .ascii pairRaw = .ok pairAdded.controller.metadata := by
  decide +kernel

/-- The selection of one file, with every call answered. -/
def World.selectOne (w : World) (i : UInt32) : Except Error (Metadata × CapacityPlan) × World :=
  w.perform (fun _ => sampleAnswer) (Controller.select [i] sampleEvidence)

theorem reselection_iff_sample :
    let c := (pairAdded.selectOne 0).2.controller
    Replaces [0] c.metadata c.plan := by
  refine (reselection_iff pairRaw_admitted (.added rfl)
    (Prod.ext (?_ : (pairAdded.selectOne 0).1 = _) rfl)).2.2.2 ?_ <;> decide +kernel

/-- **Two files are sealed where one is selected.** -/
theorem selection_left_over :
    let w := (pairAdded.selectOne 0).2
    let c := (w.selectOne 1).2.controller
    Selections pairAdded.controller.metadata w ∧
      (w.selectOne 1).1 = .ok (c.metadata, c.plan) ∧ ¬ Replaces [1] c.metadata c.plan := by
  refine ⟨.select (.added rfl) rfl, by decide +kernel, fun h => ?_⟩
  have hzero := (h.selected ⟨0, "a.txt".toList, 3, true, .text, []⟩ (by decide +kernel)).1 rfl
  exact absurd hzero (by decide)

end PrivateVm.Torrent
