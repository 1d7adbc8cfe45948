import PrivateVm.Torrent.Teardown

set_option autoImplicit false

/-! # Receipts are earned

A receipt that is ready for the scanner stands for four things that have happened, in this
order: the download was verified and its manifest matches the selected files, the client was
shut down, the quarantine was unmounted, and the downloader was destroyed. `receipts_earned`
says so of every run that meets four conditions (`sealsOnce`); `receipt_unearned` is a run whose
receipt has no files, and in which nothing was ever verified.
-/

namespace PrivateVm.Torrent

open Program Method

variable {U : Unicode}

/-! ## Milestones -/

inductive Milestone where
  | verified (manifest : Manifest)
  | shutDown
  | unmounted
  | destroyed
  deriving DecidableEq

def Entry.milestone (U : Unicode) : Entry → List Milestone
  | .verifyCompleted expected (.ok files) =>
    match matchingManifest U expected files with
    | .ok manifest => [.verified manifest]
    | .error _ => []
  | .shutdown (.ok ()) _ => [.shutDown]
  | .syncAndUnmount (.ok ()) => [.unmounted]
  | .destroyAndAudit (.ok ()) => [.destroyed]
  | _ => []

def milestones (U : Unicode) : List Entry → List Milestone
  | [] => []
  | e :: log => milestones U log ++ e.milestone U

theorem milestones_append {entries} (log : List Entry) (h : ∀ e ∈ entries, e.milestone U = []) :
    milestones U (entries ++ log) = milestones U log := by
  induction entries with
  | nil => rfl
  | cons e entries ih =>
    change milestones U (entries ++ log) ++ e.milestone U = _
    rw [h e List.mem_cons_self, List.append_nil, ih fun e he => h e (List.mem_cons_of_mem _ he)]

variable {e : Entry} {α : Type} {w' : World} {answers : Nat → Answer} {m : Action α}
  {r : Except Error α}

theorem milestone_of_adds (h : e.adds = true) : e.milestone U = [] := by
  cases e <;> first | rfl | cases h

theorem milestone_of_observes (h : e.observes = true) : e.milestone U = [] := by
  cases e <;> first | rfl | cases h

/-! ## What must not happen -/

/-- The last two calls were a verification and a shutdown that failed. -/
def verifiedUp : List Entry → Bool
  | .shutdown (.error _) _ :: .verifyCompleted _ _ :: _ => true
  | _ => false

def sealsOnce (U : Unicode) (move : Move) (w : World) : Bool :=
  let w' := w.step U move
  !halfClosed w'.log && !verifiedUp w'.log &&
    match move.input with
    | .fail _ => !w.controller.clientDown || w.controller.closed
    | .sealAndDestroy => w.receipt.all (·.ready)
    | _ => true

/-! ## The invariant -/

/-- How far the controller has come. -/
inductive Attained where
  | nothing
  /-- It was closed without having been sealed. -/
  | abandoned
  | shut (manifest : Manifest)
  | sealed (manifest : Manifest)
  | destroyed (manifest : Manifest)

/-- The controller was sealed with this manifest, and perhaps closed since. -/
def SealedWith (c : Controller) (manifest : Manifest) : Prop :=
  c.closed = true ∨ c.state = .sealed ∧ c.clientDown = true ∧ c.manifest = manifest

/-- What is then true of the controller and its calls. -/
def ControllerAt (U : Unicode) (c : Controller) (log : List Entry) : Attained → Prop
  | .nothing => c.clientDown = false ∧ c.closed = false ∧ c.state ≠ .sealing ∧ c.state ≠ .sealed ∧
      milestones U log = []
  | .abandoned => c.closed = true
  | .shut m => c.clientDown = true ∧ c.closed = false ∧ c.state = .sealing ∧ c.manifest = m ∧
      milestones U log = [.verified m, .shutDown]
  | .sealed m => SealedWith c m ∧ milestones U log = [.verified m, .shutDown, .unmounted]
  | .destroyed m => SealedWith c m ∧
      milestones U log = [.verified m, .shutDown, .unmounted, .destroyed]

/-- What is then true of the coordinator. -/
def CoordinatorAt (phase : Phase) (receipt : Option SealedReceipt)
    (returned : List SealedReceipt) : Attained → Prop
  | .nothing | .abandoned | .shut _ =>
    (∀ m, phase ≠ .destroying m) ∧ receipt = none ∧ returned = []
  | .sealed m => (∀ m', phase = .destroying m' → m' = m) ∧ receipt = none ∧ returned = []
  | .destroyed m => phase = .idle ∧ (∃ r, receipt = some r ∧ (r.ready = true → r.manifest = m)) ∧
      ∀ r ∈ returned, r = ⟨m, true⟩

/-- What the controller can attain in one turn without the coordinator. -/
inductive Attained.Step : Attained → Attained → Prop
  | same (a : Attained) : Step a a
  | abandon : Step .nothing .abandoned
  | abandonShut (m : Manifest) : Step (.shut m) .abandoned
  | shut (m : Manifest) : Step .nothing (.shut m)
  | sealed (m : Manifest) : Step .nothing (.sealed m)
  | unmounted (m : Manifest) : Step (.shut m) (.sealed m)

variable {phase : Phase} {receipt : Option SealedReceipt} {returned : List SealedReceipt}
  {a : Attained} {w : World}

theorem CoordinatorAt.step {a'} (h : CoordinatorAt phase receipt returned a)
    (hstep : Attained.Step a a') : CoordinatorAt phase receipt returned a' := by
  cases hstep with
  | same | abandon | abandonShut | shut => exact h
  | sealed | unmounted => exact ⟨fun m' hm' => absurd hm' (h.1 m'), h.2⟩

/-! ## One turn -/

section

variable {i : Input} {c c' : Controller} {log log' : List Entry} {a : Attained}

namespace ControllerAt

variable (h : ControllerAt U c log a)

include h

/-- A controller that is open, and neither sealing nor sealed, has attained nothing. -/
theorem eq_nothing (hcl : c.closed = false)
    (hseal : c.state ≠ .sealing) (hsealed : c.state ≠ .sealed) : a = .nothing := by
  cases a with
  | nothing => rfl
  | abandoned => cases hcl.symm.trans h
  | shut => exact absurd h.2.2.1 hseal
  | sealed m | destroyed =>
    rcases h.1 with hc | hc
    · cases hcl.symm.trans hc
    · exact absurd hc.1 hsealed

/-- Calls that achieve nothing, and leave the fields that matter here as they are. -/
theorem calls (entries : List Entry) (hents : ∀ e ∈ entries, e.milestone U = [])
    (hlog : log' = entries ++ log) (hst : c'.state = c.state)
    (hdown : c'.clientDown = c.clientDown) (hcl : c'.closed = c.closed)
    (hman : c'.manifest = c.manifest) : ControllerAt U c' log' a := by
  have hsame : milestones U log' = milestones U log := hlog ▸ milestones_append log hents
  cases a <;> simpa only [ControllerAt, SealedWith, hst, hdown, hcl, hman, hsame] using h

/-- The same while nothing has been attained, where the state may change. -/
theorem open_calls (hopen : c.closed = false)
    (hseal : c.state ≠ .sealing) (hsealed : c.state ≠ .sealed) (entries : List Entry)
    (hents : ∀ e ∈ entries, e.milestone U = []) (hlog : log' = entries ++ log)
    (hst : c'.state ≠ .sealing ∧ c'.state ≠ .sealed) (hdown : c'.clientDown = c.clientDown)
    (hcl : c'.closed = c.closed) : ControllerAt U c' log' a := by
  cases h.eq_nothing hopen hseal hsealed
  obtain ⟨hup, hopen, -, -, hnone⟩ := h
  have hsame : milestones U log' = milestones U log := hlog ▸ milestones_append log hents
  exact ⟨hdown.trans hup, hcl.trans hopen, hst.1, hst.2, hsame.trans hnone⟩

/-- A pause that is made whatever the state. -/
theorem paused (result : Except Fault Unit) (hc : c.closed = true ∨ c.clientDown = false) :
    ControllerAt U { c with state := .paused } (.pause result :: log) a := by
  have hsame : milestones U (.pause result :: log) = milestones U log := List.append_nil _
  cases a with
  | nothing =>
    obtain ⟨hup, hopen, -, -, hnone⟩ := h
    exact ⟨hup, hopen, nofun, nofun, hsame.trans hnone⟩
  | abandoned => exact h
  | shut =>
    obtain ⟨hdown, hopen, -⟩ := h
    rcases hc with hc | hc
    · cases hopen.symm.trans hc
    · cases hdown.symm.trans hc
  | sealed m | destroyed =>
    obtain ⟨hseal, hms⟩ := h
    refine ⟨.inl ?_, hsame.trans hms⟩
    rcases hc with hc | hc
    · exact hc
    · rcases hseal with hcl | ⟨-, hdown, -⟩
      · exact hcl
      · cases hdown.symm.trans hc

/-- A controller that is downloading is closed or has its client. -/
theorem downloading (hst : c.state = .downloading) : c.closed = true ∨ c.clientDown = false := by
  cases a with
  | nothing => exact .inr h.1
  | abandoned => exact .inl h
  | shut => cases hst.symm.trans h.2.2.1
  | sealed m | destroyed =>
    rcases h.1 with hc | hc
    · exact .inl hc
    · cases hst.symm.trans hc.1

end ControllerAt

variable {paused : Option (Except Fault Unit)} {down : Option (Except Fault Unit × Bool)}

theorem milestone_of_mem_closeEntries (hdown : (down.any fun r => r.1.isOk) = false) {e}
    (he : e ∈ closeEntries paused down) : e.milestone U = [] := by
  simp only [closeEntries, List.mem_append, Option.mem_toList, Option.map_eq_some_iff] at he
  rcases he with ⟨⟨r, effect⟩, rfl, rfl⟩ | ⟨r, _, rfl⟩
  · cases r with
    | error => rfl
    | ok => cases hdown
  · rfl

/-- A close that fails, with its pause not failing alone. -/
theorem ControllerAt.closeFailed (h : ControllerAt U c log a)
    (hcalls : CloseCalls c paused (down.map Prod.fst))
    (hfail : (∃ fault, paused = some (.error fault)) ∨
      ∃ fault effect, down = some (.error fault, effect))
    (hhalf : halfClosed (closeEntries paused down ++ log) = false) : ControllerAt U
      { c with clientDown := c.clientDown || (down.any fun r => r.1.isOk) || !c.handle.valid }
      (closeEntries paused down ++ log) a := by
  have hnot := not_down_of_closeFailed hfail hhalf
  have hval : c.handle.valid = true := by
    rcases hfail with ⟨_, rfl⟩ | ⟨_, _, rfl⟩
    · exact (Bool.and_eq_true_iff.1 hcalls.paused.symm).1
    · exact (Bool.and_eq_true_iff.1 hcalls.down.symm).1
  refine h.calls _ (fun e => milestone_of_mem_closeEntries hnot) rfl rfl ?_ rfl rfl
  rw [hnot, hval, Bool.or_false]
  exact Bool.or_false _

/-- A close that succeeds is the end of the controller. -/
theorem ControllerAt.close (h : ControllerAt U c log a) (hopen : c.closed = false)
    (hcalls : CloseCalls c paused (down.map Prod.fst)) :
    ∃ a', a.Step a' ∧ ControllerAt U ({ c with clientDown := true } : Controller).cleared
      (closeEntries paused down ++ log) a' := by
  -- a sealed controller has no client, so its close makes no calls
  have hnone : ∀ m, SealedWith c m → closeEntries paused down = [] := by
    rintro m (hc | ⟨hst, hdown, -⟩)
    · cases hopen.symm.trans hc
    · have hpau : paused = none := by simpa [hst] using hcalls.paused
      have hdown : down = none := by simpa [hdown] using hcalls.down
      rw [hpau, hdown]
      rfl
  cases a with
  | nothing => exact ⟨_, .abandon, rfl⟩
  | abandoned => cases hopen.symm.trans h
  | shut m => exact ⟨_, .abandonShut m, rfl⟩
  | sealed m | destroyed m =>
    refine ⟨_, .same _, .inl rfl, ?_⟩
    rw [hnone m h.1]
    exact h.2

/-- A seal that ends with the client down has verified the download and shut the client down. -/
theorem ControllerAt.sealedClient (h : ControllerAt U c log .nothing) {files manifest}
    (hmatch : matchingManifest U c.metadata files = .ok manifest) (result : Except Fault Unit) :
    ∃ a', Attained.Step .nothing a' ∧ ControllerAt U
      { c with
        state := if result.isOk then .sealed else .sealing
        manifest := manifest
        clientDown := true }
      (.syncAndUnmount result :: .shutdown (.ok ()) true ::
        .verifyCompleted c.metadata (.ok files) :: log) a' := by
  obtain ⟨-, hopen, -, -, hnone⟩ := h
  have hver : milestones U (.verifyCompleted c.metadata (.ok files) :: log) =
      [.verified manifest] := by
    rw [milestones, hnone, Entry.milestone, hmatch]
    rfl
  cases result with
  | error =>
    refine ⟨_, .shut manifest, rfl, hopen, rfl, rfl, ?_⟩
    rw [milestones, milestones, hver]
    rfl
  | ok =>
    refine ⟨_, .sealed manifest, .inr ⟨rfl, rfl, rfl⟩, ?_⟩
    rw [milestones, milestones, hver]
    rfl

/-- A seal that is taken up again. -/
theorem ControllerAt.resealed (h : ControllerAt U c log a) (hseal : c.maySeal = true)
    (hdown : c.clientDown = true) (result : Except Fault Unit) :
    ∃ a', a.Step a' ∧ ControllerAt U { c with state := if result.isOk then .sealed else .sealing }
      (.syncAndUnmount result :: log) a' := by
  have hmay : c.closed = false ∧ c.state ≠ .sealed := by
    refine ⟨by simpa using (Bool.and_eq_true_iff.1 hseal).1, ?_⟩
    intro hst
    simp [Controller.maySeal, hst] at hseal
  cases a with
  | nothing => cases hdown.symm.trans h.1
  | abandoned => cases hmay.1.symm.trans h
  | sealed m | destroyed =>
    rcases h.1 with hc | hc
    · cases hmay.1.symm.trans hc
    · exact absurd hc.1 hmay.2
  | shut m =>
    obtain ⟨-, hopen, -, hman, hms⟩ := h
    cases result with
    | error =>
      refine ⟨_, .same _, hdown, hopen, rfl, hman, ?_⟩
      rw [milestones, hms]
      rfl
    | ok =>
      refine ⟨_, .unmounted m, .inr ⟨rfl, hdown, hman⟩, ?_⟩
      rw [milestones, hms]
      rfl

theorem milestone_of_verifyFailed {metadata result} (hres : ∀ files manifest, result = .ok files →
      matchingManifest U metadata files ≠ .ok manifest) :
    (Entry.verifyCompleted metadata result).milestone U = [] := by
  cases result with
  | error => rfl
  | ok files =>
    simp only [Entry.milestone]
    split
    · rename_i manifest hmatch
      exact absurd hmatch (hres files manifest rfl)
    · rfl

/-- **One turn**, other than that of the coordinator that destroys the downloader. -/
theorem Turn.attains (hturn : Turn U i c log c' log') (h : ControllerAt U c log a)
    (hhalf : halfClosed log' = false) (hver : verifiedUp log' = false)
    (hfail : ∀ l, i = .fail l → c.closed = true ∨ c.clientDown = false)
    (hi : i ≠ .destroyForReceipt) : ∃ a', a.Step a' ∧ ControllerAt U c' log' a' := by
  -- an open controller in any other state than these two has attained nothing, and still will
  have hopen : ∀ {s : State}, c.closed = false → c.state = s → s ≠ .sealing → s ≠ .sealed →
      ∀ {c' : Controller} entries, (∀ e ∈ entries, e.milestone U = []) →
      c'.state ≠ .sealing ∧ c'.state ≠ .sealed → c'.clientDown = c.clientDown →
      c'.closed = c.closed → ∃ a', a.Step a' ∧ ControllerAt U c' (entries ++ log) a' := by
    rintro _ hcl rfl hsealing hsealed c' entries hents hst hdown hcl'
    exact ⟨a, .same a, h.open_calls hcl hsealing hsealed entries hents rfl hst hdown hcl'⟩
  cases hturn with
  | quiet => exact ⟨a, .same a, h⟩
  | observed _ _ _ he =>
    exact ⟨a, .same a, h.calls [_] (by simpa using milestone_of_observes he) rfl rfl rfl rfl rfl⟩
  | adding hcl hst hents hadd =>
    have hnone := fun e he => milestone_of_adds (U := U) (hents e he)
    cases hadd with
    | refused => exact ⟨a, .same a, h.calls _ hnone rfl rfl rfl rfl rfl⟩
    | fetching | fetched =>
      exact hopen hcl hst nofun nofun _ hnone ⟨nofun, nofun⟩ rfl rfl
  | selectFailed =>
    exact ⟨a, .same a, h.calls [_, _] (by simp [Entry.milestone]) rfl rfl rfl rfl rfl⟩
  | selected hsel =>
    rcases hsel.2 with hst | hst <;>
      exact hopen hsel.1 hst nofun nofun [_, _] (by simp [Entry.milestone])
        ⟨nofun, nofun⟩ rfl rfl
  | startFailed | pauseFailed | vpnPauseFailed =>
    exact ⟨a, .same a, h.calls [_] (by simp [Entry.milestone]) rfl rfl rfl rfl rfl⟩
  | started hstart =>
    rcases hstart.2.1 with hst | hst <;>
      exact hopen hstart.1 hst nofun nofun [_] (by simp [Entry.milestone])
        ⟨nofun, nofun⟩ rfl rfl
  | paused hcl hst =>
    rcases hst with hst | hst <;>
      exact hopen hcl hst nofun nofun [_] (by simp [Entry.milestone])
        ⟨nofun, nofun⟩ rfl rfl
  | vpnPaused _ hst => exact ⟨a, .same a, h.paused _ (h.downloading hst)⟩
  | failed _ hcl hst | completed hcl hst =>
    exact hopen hcl hst nofun nofun [_, _] (by simp [Entry.milestone])
      ⟨nofun, nofun⟩ rfl rfl
  | stale hl => exact ⟨a, .same a, h.paused _ (hfail _ hl)⟩
  | completePauseFailed =>
    exact ⟨a, .same a, h.calls [_, _] (by simp [Entry.milestone]) rfl rfl rfl rfl rfl⟩
  | verifyFailed _ _ _ hres =>
    exact ⟨a, .same a,
      h.calls [_] (by simpa using milestone_of_verifyFailed hres) rfl rfl rfl rfl rfl⟩
  | shutdownFailed => cases hver
  | @sealedClient files manifest result hcl hst hup hmatch =>
    have ha := h.eq_nothing hcl (by rw [hst]; nofun) (by rw [hst]; nofun)
    subst ha
    exact h.sealedClient hmatch result
  | @resealed result hseal hdown => exact h.resealed hseal hdown result
  | closeFailed _ hcalls hfailed => exact ⟨a, .same a, h.closeFailed hcalls hfailed hhalf⟩
  | closed hcl hcalls => exact h.close hcl hcalls
  | destroyed hi' => exact absurd hi' hi

end

/-! ## One step of the world -/

def Earned (U : Unicode) (w : World) : Prop :=
  ∃ a, ControllerAt U w.controller w.log a ∧ CoordinatorAt w.phase w.receipt w.returned a

/-- The inputs of `SealAndDestroy`, and of the holder of its receipt. -/
def Input.coordinates : Input → Bool
  | .sealAndDestroy | .sealForReceipt | .destroyForReceipt | .destroyReceipt => true
  | _ => false

theorem World.perform_coordinator (h : w.perform answers m = (r, w')) :
    w'.phase = w.phase ∧ w'.receipt = w.receipt ∧ w'.returned = w.returned := by
  obtain ⟨-, rfl⟩ := Prod.mk.inj h
  exact ⟨rfl, rfl, rfl⟩

theorem World.perform_does {Q : Except Error α → Controller → List Entry → Prop}
    (hm : Does exec m Q w.controller w.log) (h : w.perform answers m = (r, w')) :
    Q r w'.controller w'.log := by
  obtain ⟨rfl, rfl⟩ := Prod.mk.inj h
  exact hm.outcome answers

/-- The coordinator changes on no other input. -/
theorem World.step_coordinator (move : Move) (w : World) (h : move.input.coordinates = false) :
    (w.step U move).phase = w.phase ∧ (w.step U move).receipt = w.receipt ∧
      (w.step U move).returned = w.returned := by
  obtain ⟨i, answers⟩ := move
  cases i with
  | sealAndDestroy | sealForReceipt | destroyForReceipt | destroyReceipt => cases h
  | monitor =>
    simp only [World.step]
    split <;>
      · rename_i heq
        have hsame := perform_coordinator heq
        exact hsame
  | poll =>
    simp only [World.step]
    split
    · split <;>
        · rename_i heq
          have hsame := perform_coordinator heq
          exact hsame
    · exact ⟨rfl, rfl, rfl⟩
  | emitted l emit wait now | fail =>
    simp only [World.step]
    split <;> exact ⟨rfl, rfl, rfl⟩
  | _ => exact ⟨rfl, rfl, rfl⟩

/-- A controller that is sealed and open was sealed with the manifest it has. -/
theorem ControllerAt.sealed_open {c log} (h : ControllerAt U c log a) (hopen : c.closed = false)
    (hst : c.state = .sealed) : a = .sealed c.manifest ∨ a = .destroyed c.manifest := by
  cases a with
  | nothing => exact absurd hst h.2.2.2.1
  | abandoned => cases hopen.symm.trans h
  | shut => cases hst.symm.trans h.2.2.1
  | sealed m | destroyed =>
    rcases h.1 with hc | ⟨-, -, hm⟩
    · cases hopen.symm.trans hc
    · simp [hm]

theorem sealedManifest_does (c : Controller) (log : List Entry) :
    Does exec Controller.sealedManifest (fun r c' log' => c' = c ∧ log' = log ∧
      ∀ manifest, r = .ok manifest →
        manifest = c.manifest ∧ c.state = .sealed ∧ c.closed = false) c log := by
  refine does_get_bind ?_
  split
  · exact does_throw ⟨rfl, rfl, nofun⟩
  rename_i hopen
  simp only [not_or, not_not, Bool.not_eq_true] at hopen
  refine does_pure ⟨rfl, rfl, ?_⟩
  rintro _ ⟨⟩
  exact ⟨rfl, hopen.2.1, hopen.1⟩

/-- While the coordinator is at work, the downloader has not been destroyed. -/
theorem CoordinatorAt.rephase {phase'} (h : CoordinatorAt phase receipt returned a)
    (hnot : ∀ m, a ≠ .destroyed m) (hph : ∀ m, phase' ≠ .destroying m) :
    CoordinatorAt phase' receipt returned a := by
  cases a with
  | nothing | abandoned | shut => exact ⟨hph, h.2⟩
  | sealed => exact ⟨fun m' hm' => absurd hm' (hph m'), h.2⟩
  | destroyed m => exact absurd rfl (hnot m)

theorem CoordinatorAt.not_destroyed (h : CoordinatorAt phase receipt returned a)
    (hc : phase ≠ .idle ∨ receipt = none) (m : Manifest) : a ≠ .destroyed m := by
  rintro rfl
  obtain ⟨hidle, ⟨r, hr, -⟩, -⟩ := h
  rcases hc with hc | hc
  · exact hc hidle
  · cases hr.symm.trans hc

/-- `SealAndDestroy` is called. -/
theorem Earned.beginReceipt (h : Earned U w) (answers : Nat → Answer)
    (hready : w.receipt.all (·.ready) = true) : Earned U (w.beginReceipt answers) := by
  obtain ⟨a, hc, hco⟩ := h
  unfold World.beginReceipt
  split
  · split
    · -- an earlier receipt is returned again
      rename_i hrcpt
      refine ⟨a, hc, ?_⟩
      cases a with
      | nothing | abandoned | shut m | sealed => cases hrcpt.symm.trans hco.2.1
      | destroyed =>
        obtain ⟨hph, ⟨r, hr, hm⟩, hall⟩ := hco
        cases hrcpt.symm.trans hr
        refine ⟨hph, ⟨_, hr, hm⟩, ?_⟩
        intro r' hr'
        rcases List.mem_cons.1 hr' with rfl | hr'
        · rw [← hm rfl]
        · exact hall r' hr'
    · rename_i hnone
      have hrcpt : w.receipt = none := by
        match hr : w.receipt, hready with
        | none, _ => rfl
        | some ⟨manifest, true⟩, _ => exact absurd hr (hnone manifest)
      have hnot := hco.not_destroyed (.inr hrcpt)
      split
      · rename_i manifest w' heq
        obtain ⟨hctl, hlog, hseal⟩ := World.perform_does (sealedManifest_does _ _) heq
        obtain ⟨rfl, hst, hopen⟩ := hseal manifest rfl
        obtain ⟨-, hrcpt', hret⟩ := World.perform_coordinator heq
        rw [← hctl, ← hlog] at hc
        rw [← hctl] at hst hopen
        refine ⟨a, hc, ?_⟩
        rcases hc.sealed_open hopen hst with rfl | rfl
        · refine ⟨?_, hrcpt'.trans hco.2.1, hret.trans hco.2.2⟩
          rintro m ⟨⟩
          rw [hctl]
        · exact absurd rfl (hnot _)
      · rename_i heq
        obtain ⟨hctl, hlog, -⟩ := World.perform_does (sealedManifest_does _ _) heq
        obtain ⟨-, hrcpt', hret⟩ := World.perform_coordinator heq
        refine ⟨a, by rwa [← hctl, ← hlog] at hc, ?_⟩
        rw [← hrcpt', ← hret] at hco
        exact hco.rephase hnot nofun
  · exact ⟨a, hc, hco⟩

/-- `SealAndDestroy` seals. -/
theorem Earned.sealForReceipt (h : Earned U w) (answers : Nat → Answer)
    (hhalf : halfClosed (w.sealForReceipt U answers).log = false)
    (hver : verifiedUp (w.sealForReceipt U answers).log = false) :
    Earned U (w.sealForReceipt U answers) := by
  obtain ⟨a, hc, hco⟩ := h
  unfold World.sealForReceipt at hhalf hver ⊢
  split
  · rename_i hph
    have hends : ∀ {r w'}, w.perform answers (Controller.seal U) = (r, w') →
        halfClosed w'.log = false → verifiedUp w'.log = false →
        ∃ a', ControllerAt U w'.controller w'.log a' ∧
          CoordinatorAt w.phase w'.receipt w'.returned a' ∧ (∀ m, a' ≠ .destroyed m) ∧
          ∀ manifest, r = .ok manifest → a' = .sealed manifest := by
      intro r w' heq hhalf hver
      obtain ⟨hturn, hok⟩ := World.perform_does (seal_does (i := .sealQuarantine) _ _) heq
      obtain ⟨a', hstep, hc'⟩ := hturn.attains hc hhalf hver nofun nofun
      obtain ⟨-, hrcpt, hret⟩ := World.perform_coordinator heq
      have hco' := hco.step hstep
      have hnot' := hco'.not_destroyed (.inl (by rw [hph]; nofun))
      refine ⟨a', hc', by rwa [hrcpt, hret], hnot', ?_⟩
      intro manifest hr
      obtain ⟨rfl, hst, hopen⟩ := hok manifest hr
      exact (hc'.sealed_open hopen hst).resolve_right (hnot' _)
    split
    · rename_i manifest w' heq
      simp only [hph, heq] at hhalf hver
      obtain ⟨a', hc', hco', -, hseal⟩ := hends heq hhalf hver
      cases hseal manifest rfl
      refine ⟨_, hc', ?_, hco'.2⟩
      rintro m ⟨⟩
      rfl
    · rename_i heq
      simp only [hph, heq] at hhalf hver
      obtain ⟨a', hc', hco', hnot', -⟩ := hends heq hhalf hver
      exact ⟨a', hc', hco'.rephase hnot' nofun⟩
  · exact ⟨a, hc, hco⟩

theorem World.perform_destroyDownloader (w : World) (answers : Nat → Answer) :
    w.perform answers destroyDownloader = (.ok ((answers 0).result ()),
      { w with log := .destroyAndAudit ((answers 0).result ()) :: w.log }) := rfl

/-- `SealAndDestroy` destroys the downloader. -/
theorem Earned.destroyForReceipt (h : Earned U w) (answers : Nat → Answer) :
    Earned U (w.destroyForReceipt answers) := by
  obtain ⟨a, hc, hco⟩ := h
  unfold World.destroyForReceipt
  split
  · rename_i manifest hph
    -- the quarantine was sealed with the manifest at hand
    have ha : a = .sealed manifest := by
      cases a with
      | nothing | abandoned | shut => exact absurd hph (hco.1 manifest)
      | sealed => rw [hco.1 manifest hph]
      | destroyed => cases hph.symm.trans hco.1
    subst ha
    obtain ⟨-, hrcpt, hret⟩ := hco
    obtain ⟨hseal, hms⟩ := hc
    rw [World.perform_destroyDownloader]
    cases hres : (answers 0).result () with
    | error =>
      refine ⟨.sealed manifest, ⟨hseal, ?_⟩, nofun, hrcpt, hret⟩
      rw [milestones, hms]
      rfl
    | ok =>
      refine ⟨.destroyed manifest, ⟨hseal, ?_⟩, rfl, ⟨_, rfl, fun _ => rfl⟩, ?_⟩
      · rw [milestones, hms]
        rfl
      · rw [hret]
        exact List.forall_mem_singleton.2 rfl
  · exact ⟨a, hc, hco⟩

/-- The receipt is destroyed by its holder. -/
theorem CoordinatorAt.destroyReceipt (h : CoordinatorAt phase receipt returned a) :
    CoordinatorAt phase (receipt.map fun _ => ⟨.none, false⟩) returned a := by
  cases a with
  | nothing | abandoned | shut m | sealed =>
    obtain ⟨hph, rfl, hret⟩ := h
    exact ⟨hph, rfl, hret⟩
  | destroyed =>
    obtain ⟨hph, ⟨r, rfl, -⟩, hret⟩ := h
    exact ⟨hph, ⟨_, rfl, nofun⟩, hret⟩

/-- **One step.** -/
theorem Earned.step (h : Earned U w) (move : Move) (hgrd : sealsOnce U move w = true) :
    Earned U (w.step U move) := by
  simp only [sealsOnce, Bool.and_eq_true, Bool.not_eq_true'] at hgrd
  obtain ⟨⟨hhalf, hver⟩, hinput⟩ := hgrd
  by_cases hcoord : move.input.coordinates = true
  · obtain ⟨i, answers⟩ := move
    cases i with
    | sealAndDestroy => exact h.beginReceipt answers hinput
    | sealForReceipt => exact h.sealForReceipt answers hhalf hver
    | destroyForReceipt => exact h.destroyForReceipt answers
    | destroyReceipt =>
      obtain ⟨a, hc, hco⟩ := h
      exact ⟨a, hc, hco.destroyReceipt⟩
    | _ => cases hcoord
  · rw [Bool.not_eq_true] at hcoord
    obtain ⟨a, hc, hco⟩ := h
    obtain ⟨hph, hrcpt, hret⟩ := World.step_coordinator move w hcoord
    have hfail : ∀ l, move.input = .fail l →
        w.controller.closed = true ∨ w.controller.clientDown = false := by
      intro l hl
      simpa [hl, or_comm] using hinput
    have hdest : move.input ≠ .destroyForReceipt := by
      intro hi
      rw [hi] at hcoord
      cases hcoord
    obtain ⟨a', hstep, hc'⟩ := (w.step_turn move).attains hc hhalf hver hfail hdest
    refine ⟨a', hc', ?_⟩
    rw [hph, hrcpt, hret]
    exact hco.step hstep

theorem reachable_earned (h : (machine U).Reachable (fun move w => sealsOnce U move w = true) w) :
    Earned U w := by
  refine h.inv ?_ ?_
  · rintro _ ⟨config, c, hnew, rfl⟩
    refine ⟨.nothing, ?_, fun m => by rintro ⟨⟩, rfl, rfl⟩
    simp only [newController] at hnew
    split at hnew
    · cases hnew
    · cases hnew
      exact ⟨rfl, rfl, by rintro ⟨⟩, by rintro ⟨⟩, rfl⟩
  · intro move v hgrd hearn
    exact hearn.step move hgrd

/-! ## The result -/

/-- Every receipt was earned: by the time of the first, and at every later time, the four
milestones have been passed, each once and in this order, and all receipts carry the manifest
that was verified. -/
def ReceiptsEarned (U : Unicode) (w : World) : Prop :=
  ∃ manifest, (∀ r ∈ w.returned, r = ⟨manifest, true⟩) ∧
    (w.returned ≠ [] →
      milestones U w.log = [.verified manifest, .shutDown, .unmounted, .destroyed])

/-- **Receipts are earned**, in every run that meets the four conditions. -/
theorem receipts_earned {w : World}
    (h : (machine U).Reachable (fun move w => sealsOnce U move w = true) w) :
    ReceiptsEarned U w := by
  obtain ⟨a, hc, hco⟩ := reachable_earned h
  cases a with
  | nothing | abandoned | shut m | sealed =>
    refine ⟨.none, ?_, ?_⟩
    · rw [hco.2.2]
      nofun
    · exact fun hret => absurd hco.2.2 hret
  | destroyed m => exact ⟨m, hco.2.2, fun _ => hc.2⟩

/-- The inputs of a call of `SealAndDestroy`. -/
def toReceipt : List Move :=
  [Input.sealAndDestroy.answered, Input.sealForReceipt.answered, Input.destroyForReceipt.answered]

theorem receipts_earned_sample :
    let w := (machine .ascii).play (toComplete ++ toReceipt) (.initial sampleController)
    w.returned.length = 1 ∧ ReceiptsEarned .ascii w := by
  intro w
  have hreach : (machine .ascii).Reachable (fun move w => sealsOnce .ascii move w = true) w :=
    Machine.reachable_play (fun _ _ h => h) (init_sample .ascii) (by decide +kernel)
  exact ⟨by decide +kernel, receipts_earned hreach⟩

/-- **A receipt that was not earned.** The pause of a `Close` fails and its shutdown succeeds, so
that `Seal` finds the client down and skips the verification. -/
theorem receipt_unearned :
    ∃ w, (machine .ascii).Reachable (Machine.free Move World) w ∧
      w.returned = [⟨.none, true⟩] ∧
      milestones .ascii w.log = [.shutDown, .unmounted, .destroyed] ∧
      ¬ ReceiptsEarned .ascii w := by
  refine ⟨_, Machine.reachable_play_free (toComplete ++ Input.close.failing [0] :: toReceipt)
    (init_sample .ascii), ?_, ?_, ?_⟩
  · decide +kernel
  · decide +kernel
  rintro ⟨manifest, -, hms⟩
  -- nothing was verified, so the history is one short
  have hlen : _ = 4 := congrArg List.length (hms (by decide +kernel))
  revert hlen
  decide +kernel

end PrivateVm.Torrent
