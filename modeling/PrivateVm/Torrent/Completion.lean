import PrivateVm.Torrent.Turns

set_option autoImplicit false

/-! # Completion is final

Two stretches of code do not look at whether a controller is final before they pause:
`pauseAfterFailure`, which a `Monitor` loop runs after it has given up the lock, and `onVPNLoss` on
a controller that was closed while it was downloading. In the runs in which neither meets a final
controller, nothing leads back from a final state (`completion_final`).
-/

namespace PrivateVm.Torrent

variable {U : Unicode}

def Controller.final (c : Controller) : Bool :=
  c.closed || c.state = .downloadComplete || c.state = .sealing || c.state = .sealed

/-- No loop handles its failure on a final controller, and the loss of the VPN is not reported
to one that was closed while downloading. -/
def respectsFinal (move : Move) (w : World) : Bool :=
  match move.input with
  | .fail _ => !w.controller.final
  | .onVPNLoss => !(w.controller.closed && w.controller.state = .downloading)
  | _ => true

variable {c c' : Controller}

theorem final_iff :
    c.final = true ↔ c.closed = true ∨ c.state = .downloadComplete ∨ c.state = .sealing ∨
      c.state = .sealed := by
  simp [Controller.final, or_assoc]

/-- An open controller in another state is not final. -/
theorem not_final {s} (hcl : c.closed = false) (hst : c.state = s)
    (hs : s ≠ .downloadComplete ∧ s ≠ .sealing ∧ s ≠ .sealed) : c.final ≠ true := by
  intro hfinal
  rcases final_iff.1 hfinal with h | h | h | h
  · simp [hcl] at h
  · exact hs.1 (hst ▸ h)
  · exact hs.2.1 (hst ▸ h)
  · exact hs.2.2 (hst ▸ h)

/-- Neither paused nor downloading, unless it was so before. -/
def KeepsState (c c' : Controller) : Prop :=
  c'.final = true ∧ (c'.state = .paused ∨ c'.state = .downloading → c'.state = c.state)

theorem keepsState_refl (h : c.final = true) : KeepsState c c := ⟨h, fun _ => rfl⟩

theorem KeepsState.trans {c''} (h : KeepsState c c') (h' : KeepsState c' c'') :
    KeepsState c c'' := by
  refine ⟨h'.1, fun hst => ?_⟩
  have hsame := h'.2 hst
  rw [hsame] at hst ⊢
  exact h.2 hst

/-- A turn that leaves the label and does not reopen the controller. -/
theorem keepsState_of_eq (h : c.final = true) (hst : c'.state = c.state)
    (hcl : c.closed = true → c'.closed = true) : KeepsState c c' := by
  refine ⟨final_iff.2 ?_, fun _ => hst⟩
  rw [hst]
  exact (final_iff.1 h).imp_left hcl

theorem keepsState_sealing {r : Except Fault Unit}
    (h : c'.state = if r.isOk then .sealed else .sealing) : KeepsState c c' := by
  rw [KeepsState, final_iff, h]
  cases r <;> simp [Except.toBool]

/-- **One step.** -/
theorem Turn.keepsState {i : Input} {log log' : List Entry} (hturn : Turn U i c log c' log')
    (hfinal : c.final = true) (hfail : ∀ l, i ≠ .fail l)
    (hvpn : i = .onVPNLoss → ¬ (c.closed = true ∧ c.state = .downloading)) : KeepsState c c' := by
  -- most turns need an open controller in a state that is not final
  cases hturn with
  | quiet | selectFailed | startFailed | pauseFailed | vpnPauseFailed | verifyFailed
  | shutdownFailed | destroyed => exact keepsState_refl hfinal
  | observed | completePauseFailed | closeFailed => exact keepsState_of_eq hfinal rfl id
  | closed => exact keepsState_of_eq hfinal rfl fun _ => rfl
  | adding hcl hst => exact absurd hfinal (not_final hcl hst (by decide))
  | selected hsel =>
    rcases hsel.2 with hst | hst <;>
      exact absurd hfinal (not_final hsel.1 hst (by decide))
  | started hstart =>
    rcases hstart.2.1 with hst | hst <;>
      exact absurd hfinal (not_final hstart.1 hst (by decide))
  | paused hcl hst =>
    rcases hst with hst | hst <;>
      exact absurd hfinal (not_final hcl hst (by decide))
  | failed _ hcl hst => exact absurd hfinal (not_final hcl hst (by decide))
  | completed hcl hst => exact absurd hfinal (not_final hcl hst (by decide))
  | vpnPaused hi hst =>
    refine absurd hfinal fun h => ?_
    rcases final_iff.1 h with h | h | h | h
    · exact hvpn hi ⟨h, hst⟩
    · rw [hst] at h; cases h
    · rw [hst] at h; cases h
    · rw [hst] at h; cases h
  | stale hi => exact absurd hi (hfail _)
  | sealedClient | resealed => exact keepsState_sealing rfl

/-- **Completion is final**: in every run in which failures are not handled on a final
controller, and the loss of the VPN is not reported to one closed while downloading, a final
controller stays final and its state never becomes `paused` or `downloading`. -/
theorem completion_final {w w' : World}
    (hrun : (machine U).Leads (fun move w => respectsFinal move w = true) w w')
    (hfinal : w.controller.final = true) :
    w'.controller.final = true ∧
      (w'.controller.state = .paused ∨ w'.controller.state = .downloading →
        w'.controller.state = w.controller.state) := by
  refine hrun.keeps (P := fun w' => KeepsState w.controller w'.controller) ?_
    (keepsState_refl hfinal)
  intro move v hgrd hkeeps
  refine hkeeps.trans (Turn.keepsState (v.step_turn move) hkeeps.1 ?_ ?_)
  · intro l hl
    simp [respectsFinal, hl, hkeeps.1] at hgrd
  · intro hi hcl
    simp [respectsFinal, hi, hcl.1, hcl.2] at hgrd

/-- The complete download of the sample run, sealed and closed. -/
theorem completion_final_sample :
    let w := (machine .ascii).play toComplete (.initial sampleController)
    let w' := (machine .ascii).play [Input.sealQuarantine.answered, Input.close.answered] w
    w.controller.state = .downloadComplete ∧ w'.controller.final = true := by
  refine ⟨by decide +kernel, ?_⟩
  refine (completion_final (Machine.leads_play (fun _ _ h => h) ?_) ?_).1 <;> decide +kernel

/-- **A loop that is late undoes completion.** Two loops monitor one download. The status of the
first cannot be emitted; before the loop takes the lock again the second finds the download
complete. -/
theorem completion_undone :
    ∃ w w', (machine .ascii).Reachable (Machine.free Move World) w ∧
      (machine .ascii).Leads (Machine.free Move World) w w' ∧
      w.controller.state = .downloadComplete ∧ w'.controller.state = .paused := by
  refine ⟨_, _, Machine.reachable_play_free (toDownloading ++
    [(Input.monitor 0).answered, (Input.monitor 0).answered, (Input.poll 0 0).running,
      (Input.emitted 0 (some .other) none 0).answered, (Input.poll 1 0).answered])
    (init_sample .ascii), Machine.leads_play_free [(Input.fail 0).answered] _, ?_, ?_⟩ <;>
    decide +kernel

end PrivateVm.Torrent
