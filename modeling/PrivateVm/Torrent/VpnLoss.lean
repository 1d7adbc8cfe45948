import PrivateVm.Torrent.Turns

set_option autoImplicit false

/-! # The loss of the VPN stops the torrent

`onVPNLoss` pauses the client only while the controller's state is `downloading`. This is right as
long as the client has stopped whenever the state is another, which a start that returns an error
and a failed pause in `pauseAfterFailure` break. `vpnLoss_stops` is the result for the runs without
them.
-/

namespace PrivateVm.Torrent

open Program Method

variable {U : Unicode}

/-! ## What must not fail -/

/-- The last call was a start, and failed. -/
def lastStartFailed : List Entry → Bool
  | .start (.error _) :: _ => true
  | _ => false

/-- The last call was a pause, and failed. -/
def lastPauseFailed : List Entry → Bool
  | .pause (.error _) :: _ => true
  | _ => false

/-- No start fails, and the pause after a failure does not fail while downloading. -/
def confirmsStops (U : Unicode) (move : Move) (w : World) : Bool :=
  let w' := w.step U move
  !lastStartFailed w'.log &&
    !(w.controller.state = .downloading && w'.controller.state = .paused && lastPauseFailed w'.log)

/-! ## The invariant -/

def Entry.isStart : Entry → Bool
  | .start _ => true
  | _ => false

variable {e : Entry} {log : List Entry}

theorem stopped_cons (he : e.isStart = false) (h : stopped log = true) :
    stopped (e :: log) = true := by
  cases e with
  | start => cases he
  | pause result | shutdown result =>
    cases result with
    | ok => rfl
    | error => exact h
  | _ => exact h

theorem stopped_append {entries} (he : ∀ e ∈ entries, e.isStart = false) (h : stopped log = true) :
    stopped (entries ++ log) = true := by
  induction entries with
  | nil => exact h
  | cons e entries ih =>
    exact stopped_cons (he e List.mem_cons_self) (ih fun e he' => he e (List.mem_cons_of_mem _ he'))

theorem isStart_of_adds (h : e.adds = true) : e.isStart = false := by
  cases e <;> first | rfl | cases h

theorem isStart_of_observes (h : e.observes = true) : e.isStart = false := by
  cases e <;> first | rfl | cases h

theorem isStart_closeEntries {paused down} : ∀ e ∈ closeEntries paused down, e.isStart = false := by
  intro e he
  rcases mem_closeEntries he with ⟨_, rfl⟩ | ⟨_, _, rfl⟩ <;> rfl

def StoppedUnlessDownloading (c : Controller) (log : List Entry) : Prop :=
  c.state ≠ .downloading → stopped log = true

/-- **One step.** -/
theorem Turn.keepsStopped {i c c' log'} (hturn : Turn U i c log c' log')
    (h : StoppedUnlessDownloading c log) (hstart : lastStartFailed log' = false)
    (hpause : c.state = .downloading → c'.state = .paused → lastPauseFailed log' = false) :
    StoppedUnlessDownloading c' log' := by
  intro hst'
  -- in most turns the client had stopped before and is not started
  cases hturn with
  | quiet => exact h hst'
  | observed _ _ _ he => exact stopped_cons (isStart_of_observes he) (h hst')
  | adding _ hst hents =>
    refine stopped_append (fun e he => isStart_of_adds (hents e he)) (h ?_)
    rw [hst]
    nofun
  | selectFailed => exact stopped_cons rfl (stopped_cons rfl (h hst'))
  | selected hsel =>
    refine stopped_cons rfl (stopped_cons rfl (h ?_))
    rcases hsel.2 with hst | hst <;> rw [hst] <;> nofun
  | startFailed => cases hstart
  | started => exact absurd rfl hst'
  | paused | vpnPaused | completed => rfl
  | pauseFailed => exact stopped_cons rfl (h hst')
  | vpnPauseFailed _ hst => exact absurd hst hst'
  | @failed result _ _ _ hst =>
    cases result with
    | ok => rfl
    | error => cases hpause hst rfl
  | @stale _ result =>
    cases result with
    | ok => rfl
    | error =>
      by_cases hst : c.state = .downloading
      · cases hpause hst rfl
      · exact stopped_cons rfl (h hst)
  | completePauseFailed _ hst => exact absurd hst hst'
  | verifyFailed => exact stopped_cons rfl (h hst')
  | shutdownFailed => exact stopped_cons rfl (stopped_cons rfl (h hst'))
  | sealedClient => exact stopped_cons rfl rfl
  | resealed hseal =>
    refine stopped_cons rfl (h fun hst => ?_)
    simp [Controller.maySeal, hst] at hseal
  | closeFailed | closed => exact stopped_append isStart_closeEntries (h hst')
  | destroyed => exact stopped_cons rfl (h hst')

theorem reachable_stopped {w}
    (h : (machine U).Reachable (fun move w => confirmsStops U move w = true) w) :
    StoppedUnlessDownloading w.controller w.log := by
  refine h.inv (P := fun w => StoppedUnlessDownloading w.controller w.log) ?_ ?_
  · rintro _ ⟨_, c, _, rfl⟩ _
    rfl
  intro move v hgrd hstop
  obtain ⟨hstart, hpause⟩ := Bool.and_eq_true_iff.1 hgrd
  rw [machine_step]
  refine Turn.keepsStopped (v.step_turn move) hstop (by simpa using hstart) ?_
  intro hdown hpau
  simpa [hdown, hpau] using hpause

/-! ## The result -/

/-- `onVPNLoss` without an error: the state was not `downloading`, or the client has confirmed
a pause. -/
theorem onVPNLoss_does (c : Controller) (log : List Entry) :
    Does exec Controller.onVPNLoss (fun r _ log' => r = .ok () →
      c.state ≠ .downloading ∧ log' = log ∨ log' = .pause (.ok ()) :: log) c log := by
  refine does_get_bind ?_
  split
  · rename_i hst
    exact does_pure fun _ => .inl ⟨hst, rfl⟩
  refine does_call_bind fun x => ?_
  cases hx : x.fault with
  | some =>
    simp only [Op.answer, Answer.result, hx]
    exact does_throw (by rintro ⟨⟩)
  | none =>
    simp only [Op.answer, Op.entry, Answer.result, hx]
    exact does_modify fun _ => .inr rfl

/-- **The loss of the VPN stops the torrent**: in every run in which no start fails and the
pause after a failure does not fail while downloading, `onVPNLoss` returns no error only if the
client has confirmed a pause or a shutdown since it was last told to start. -/
theorem vpnLoss_stops {w : World}
    (h : (machine U).Reachable (fun move w => confirmsStops U move w = true) w)
    (answers : Nat → Answer) (hok : (w.perform answers Controller.onVPNLoss).1 = .ok ()) :
    stopped (w.perform answers Controller.onVPNLoss).2.log = true := by
  change stopped (outcome exec answers Controller.onVPNLoss w.controller w.log).2 = true
  rcases (onVPNLoss_does w.controller w.log).outcome answers hok with ⟨hst, hlog⟩ | hlog
  · rw [hlog]
    exact reachable_stopped h hst
  · rw [hlog]
    rfl

theorem vpnLoss_stops_sample :
    let w := (machine .ascii).play toDownloading (.initial sampleController)
    stopped w.log = false ∧
      stopped (w.perform (fun _ => sampleAnswer) Controller.onVPNLoss).2.log = true := by
  refine ⟨by decide +kernel, vpnLoss_stops
    (Machine.reachable_play (fun _ _ h => h) (init_sample .ascii) ?_) _ ?_⟩ <;> decide +kernel

/-- **A start that fails is not stopped.** The start returns an error, which it may do after it
has taken effect; the loss of the VPN is then reported as handled without a call. -/
theorem vpnLoss_ignored :
    ∃ w, (machine .ascii).Reachable (Machine.free Move World) w ∧
      (w.perform (fun _ => sampleAnswer) Controller.onVPNLoss).1 = .ok () ∧
      stopped (w.perform (fun _ => sampleAnswer) Controller.onVPNLoss).2.log = false := by
  refine ⟨_, Machine.reachable_play_free (toSelected ++ [Input.start.failing [0]])
    (init_sample .ascii), ?_, ?_⟩ <;> decide +kernel

end PrivateVm.Torrent
