import PrivateVm.Torrent.Turns

set_option autoImplicit false

/-! # Only the planned selection is downloaded

Whenever the client is started the files enabled in it are those of the stored plan
(`start_planned`), if a selection that fails while another is planned does not change which files
are enabled. The client's own operation does: its first request disables all files
(`start_unplanned`).
-/

namespace PrivateVm.Torrent

variable {U : Unicode}

/-! ## The invariant -/

/-- A selection that fails after another was planned leaves the files enabled as they were. -/
def keepsSelection (U : Unicode) (move : Move) (w : World) : Bool :=
  match (w.step U move).log with
  | .setSelection _ (.error _) enabled :: _ =>
    w.controller.state ≠ .capacityVerified || enabled = enabledOf w.log
  | _ => true

/-- The files enabled are those of the last selection, and from these the metadata and the plan
were computed. -/
structure Planned (c : Controller) (log : List Entry) : Prop where
  enabled : enabledOf log = (plannedOf log).toFinset
  plan : ∃ (evidence : CapacityEvidence) (metadata : Metadata) (bytes : UInt64),
    evidence.planSelection metadata (plannedOf log) bytes c.config.safePolicy =
      .ok (c.metadata, c.plan)

/-- Before the first selection there is no plan, and a plan that can be started is the one of
the files enabled. -/
structure PlannedInv (c : Controller) (log : List Entry) : Prop where
  early : c.state = .empty ∨ c.state = .metadataFetching ∨ c.state = .selectionRequired →
    c.plan.selectedBytes = 0
  planned : c.closed = false → c.plan.selectedBytes ≠ 0 → Planned c log

/-- A call that may change which files are enabled. -/
def Entry.selects : Entry → Bool
  | .addPaused _ _ | .setSelection _ _ _ => true
  | _ => false

variable {entries log' : List Entry} {i : Input}

theorem enabledOf_append (log : List Entry) (h : ∀ e ∈ entries, e.selects = false) :
    enabledOf (entries ++ log) = enabledOf log ∧ plannedOf (entries ++ log) = plannedOf log := by
  induction entries with
  | nil => exact ⟨rfl, rfl⟩
  | cons e entries ih =>
    have hrest := ih fun e he => h e (List.mem_cons_of_mem _ he)
    have he := h e List.mem_cons_self
    cases e with
    | addPaused | setSelection => cases he
    | _ => exact hrest

variable {c c' : Controller} {log : List Entry}

theorem Planned.append (h : Planned c log) (hents : ∀ e ∈ entries, e.selects = false) :
    Planned c (entries ++ log) := by
  obtain ⟨hen, hpld⟩ := enabledOf_append log hents
  constructor
  · rw [hen, hpld]
    exact h.enabled
  · rw [hpld]
    exact h.plan

/-- A turn that changes neither the plan nor what is enabled. -/
theorem PlannedInv.of_same (h : PlannedInv c log) (entries : List Entry)
    (hents : ∀ e ∈ entries, e.selects = false)
    (hst : c'.state = .empty ∨ c'.state = .metadataFetching ∨ c'.state = .selectionRequired →
      c'.state = c.state) (hplan : c'.plan = c.plan) (hmeta : c'.metadata = c.metadata)
    (hconf : c'.config = c.config) (hcl : c'.closed = c.closed) :
    PlannedInv c' (entries ++ log) := by
  refine ⟨fun hearly => ?_, fun hopen hne => ?_⟩
  · rw [hplan]
    exact h.early (hst hearly ▸ hearly)
  rw [hcl] at hopen
  rw [hplan] at hne
  obtain ⟨hen, hfrom⟩ := (h.planned hopen hne).append hents
  refine ⟨hen, ?_⟩
  rwa [hplan, hmeta, hconf]

theorem selects_of_observes {e : Entry} (h : e.observes = true) : e.selects = false := by
  cases e <;> first | rfl | cases h

theorem selects_closeEntries {paused down} : ∀ e ∈ closeEntries paused down, e.selects = false := by
  intro e he
  rcases mem_closeEntries he with ⟨_, rfl⟩ | ⟨_, _, rfl⟩ <;> rfl

/-- **One step.** -/
theorem Turn.keepsPlanned (hturn : Turn U i c log c' log') (h : PlannedInv c log)
    (hgrd : ∀ indexes fault enabled rest,
      log' = .setSelection indexes (.error fault) enabled :: rest →
        c.state = .capacityVerified → enabled = enabledOf log) : PlannedInv c' log' := by
  cases hturn with
  | quiet => exact h
  | observed _ _ _ he =>
    exact h.of_same [_] (by simpa using selects_of_observes he) (fun _ => rfl) rfl
      rfl rfl rfl
  | adding hcl hst hents hadd =>
    -- nothing is planned before the first selection, and `add` plans nothing
    have hzero : c.plan.selectedBytes = 0 := h.early (.inl hst)
    cases hadd with
    | _ => exact ⟨fun _ => hzero, fun _ => absurd hzero⟩
  | @selectFailed indexes fault enabled bytes hsel =>
    refine ⟨h.early, fun hcl hne => ?_⟩
    rcases hsel.2 with hst | hst
    · exact absurd (h.early (.inr (.inr hst))) hne
    · have hpld := h.planned hcl hne
      have hsame : enabled = enabledOf log := hgrd _ _ _ _ rfl hst
      exact ⟨hsame.trans hpld.enabled, hpld.plan⟩
  | @selected indexes evidence bytes metadata plan hsel hplan =>
    refine ⟨?_, fun _ _ => ⟨rfl, evidence, c.metadata, bytes, hplan⟩⟩
    rintro (hst | hst | hst) <;> cases hst
  | startFailed =>
    exact h.of_same [_] (by simp [Entry.selects]) (fun _ => rfl) rfl rfl rfl rfl
  | started =>
    exact h.of_same [_] (by simp [Entry.selects]) (by simp) rfl rfl rfl rfl
  | pauseFailed | vpnPauseFailed =>
    exact h.of_same [_] (by simp [Entry.selects]) (fun _ => rfl) rfl rfl rfl rfl
  | paused | vpnPaused | stale =>
    exact h.of_same [_] (by simp [Entry.selects]) (by simp) rfl rfl rfl rfl
  | failed | completed =>
    exact h.of_same [_, _] (by simp [Entry.selects]) (by simp) rfl rfl rfl rfl
  | completePauseFailed | shutdownFailed =>
    exact h.of_same [_, _] (by simp [Entry.selects]) (fun _ => rfl) rfl rfl rfl rfl
  | verifyFailed | destroyed =>
    exact h.of_same [_] (by simp [Entry.selects]) (fun _ => rfl) rfl rfl rfl rfl
  | @sealedClient _ _ result =>
    exact h.of_same [_, _, _] (by simp [Entry.selects])
      (by cases result <;> simp [Except.toBool]) rfl rfl rfl rfl
  | @resealed result =>
    exact h.of_same [_] (by simp [Entry.selects])
      (by cases result <;> simp [Except.toBool]) rfl rfl rfl rfl
  | closeFailed => exact h.of_same _ selects_closeEntries (fun _ => rfl) rfl rfl rfl rfl
  | closed => exact ⟨fun _ => rfl, fun hopen => by cases hopen⟩

theorem reachable_planned {w}
    (h : (machine U).Reachable (fun move w => keepsSelection U move w = true) w) :
    PlannedInv w.controller w.log := by
  refine h.inv (P := fun w => PlannedInv w.controller w.log) ?_ ?_
  · rintro _ ⟨config, c, hnew, rfl⟩
    have hzero : c.plan.selectedBytes = 0 := by
      simp only [newController] at hnew
      split at hnew
      · cases hnew
      · cases hnew
        rfl
    exact ⟨fun _ => hzero, fun _ => absurd hzero⟩
  · intro move v hgrd hpld
    refine Turn.keepsPlanned (v.step_turn move) hpld ?_
    intro indexes fault enabled rest hlog hst
    rw [machine_step] at hlog
    rw [keepsSelection, hlog] at hgrd
    simpa [hst] using hgrd

/-! ## The result -/

/-- The client is started only when the controller approves. -/
theorem Turn.mayStart_of_start (hturn : Turn U i c log c' log') {r} (hlog : log' = .start r :: log)
    : c.mayStart := by
  have hsing : ∀ entries, entries ++ log = .start r :: log → entries = [.start r] :=
    fun entries heq => List.append_cancel_right heq
  cases hturn with
  | startFailed hstart | started hstart => exact hstart
  | quiet => exact absurd (congrArg List.length hlog) (by simp)
  | observed _ _ _ he =>
    cases hlog
    cases he
  | adding _ _ hents =>
    have he := hents (.start r) (by rw [hsing _ hlog]; exact List.mem_cons_self)
    cases he
  | @closeFailed paused down | @closed paused down =>
    have he : .start r ∈ closeEntries paused down := by
      rw [hsing _ hlog]
      exact List.mem_cons_self
    rcases mem_closeEntries he with ⟨_, h⟩ | ⟨_, _, h⟩ <;> cases h
  | _ => cases hlog

/-- **Only the planned selection is downloaded**: in every run in which a selection that fails
after another was planned leaves the enabled files alone, whenever the client is started the
files enabled in it are those of the last successful selection, and the stored metadata and plan
were computed from exactly these. -/
theorem start_planned {w : World}
    (h : (machine U).Reachable (fun move w => keepsSelection U move w = true) w) (move : Move)
    {r : Except Fault Unit} (hstart : (w.step U move).log = .start r :: w.log) :
    enabledOf w.log = (plannedOf w.log).toFinset ∧
      ∃ (evidence : CapacityEvidence) (metadata : Metadata) (bytes : UInt64),
        evidence.planSelection metadata (plannedOf w.log) bytes w.controller.config.safePolicy =
          .ok (w.controller.metadata, w.controller.plan) := by
  have hmay := Turn.mayStart_of_start (w.step_turn move) hstart
  obtain ⟨hen, hplan⟩ := (reachable_planned h).planned hmay.1 hmay.2.2
  exact ⟨hen, hplan⟩

theorem start_planned_sample :
    enabledOf ((machine .ascii).play toSelected (.initial sampleController)).log = {0} := by
  have hreach : (machine .ascii).Reachable (fun move w => keepsSelection .ascii move w = true)
      ((machine .ascii).play toSelected (.initial sampleController)) :=
    Machine.reachable_play (fun _ _ h => h) (init_sample .ascii) (by decide +kernel)
  have hpld := start_planned hreach Input.start.answered (r := .ok ()) (by decide +kernel)
  have hone :
      plannedOf ((machine .ascii).play toSelected (.initial sampleController)).log = [0] := by
    decide +kernel
  rw [hpld.1, hone]
  rfl

/-- The second selection of the sample run, of which the client carries out the first request
only. -/
def halfSelected : Move :=
  ⟨.select [0] sampleEvidence, fun n =>
    { sampleAnswer with
      fault := if n = 1 then some .other else none
      enabled := (qbitSetSelection sampleHandle [0] 1 .answered (.failed .other false) {0}).2 }⟩

/-- **A transfer that was never planned.** The second selection fails after its first request,
and the client is started with no file enabled. -/
theorem start_unplanned :
    ∃ w, (machine .ascii).Reachable (Machine.free Move World) w ∧
      (w.step .ascii Input.start.answered).log = .start (.ok ()) :: w.log ∧
      plannedOf w.log = [0] ∧ enabledOf w.log = ∅ := by
  refine ⟨_, Machine.reachable_play_free (toSelected ++ [halfSelected]) (init_sample .ascii),
    ?_, ?_, ?_⟩ <;> decide +kernel

end PrivateVm.Torrent
