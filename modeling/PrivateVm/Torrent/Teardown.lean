import PrivateVm.Torrent.Turns

set_option autoImplicit false

/-! # Teardown of the torrent client

Once the client has been shut down no call of the backend should follow, and a `Close` that is
tried again should return without one. Both hold in every run in which the shutdown of the client
is never left behind half-done (`teardown_converges`); `teardown_stuck` is a run with a `Close`
whose pause fails while its shutdown succeeds.
-/

namespace PrivateVm.Torrent

open Program Method Bool

variable {U : Unicode}

/-! ## The two properties -/

/-- No call of the backend follows a shutdown that succeeded. -/
def obedient : List Entry → Bool
  | [] => true
  | e :: log => obedient log && (!e.isBackend || !shutDown log)

def Op.isBackend : Op → Bool
  | .capacityBytes | .syncAndUnmount | .wait | .destroyAndAudit => false
  | _ => true

/-- A call that can be made: the client is there, or is not needed. -/
def legal (o : Op) (log : List Entry) : Bool := !o.isBackend || !gone log

/-- Whatever can be done succeeds. -/
def cooperates (o : Op) (x : Answer) (log : List Entry) : Bool :=
  !legal o log || x.fault = none

/-- A `Close` in which whatever can be done succeeds returns no error. -/
def CloseConverges (w : World) : Prop :=
  ∀ answers, Method.along exec cooperates answers Controller.close w.controller w.log = true →
    (w.perform answers Controller.close).1 = .ok ()

/-! ## What must not happen -/

/-- The last two calls were a pause that failed and a shutdown that succeeded. -/
def halfClosed : List Entry → Bool
  | .shutdown (.ok ()) _ :: .pause (.error _) :: _ => true
  | _ => false

/-- The last call was an unmount, and failed. -/
def unmountFailed : List Entry → Bool
  | .syncAndUnmount (.error _) :: _ => true
  | _ => false

/-- The last call was a shutdown that returned an error after it took effect. -/
def shutdownUnconfirmed : List Entry → Bool
  | .shutdown (.error _) tookEffect :: _ => tookEffect
  | _ => false

/-- The client is not left half shut down, and is not paused after it was shut down. -/
def shutsDownCleanly (U : Unicode) (move : Move) (w : World) : Bool :=
  let w' := w.step U move
  !halfClosed w'.log && !unmountFailed w'.log && !shutdownUnconfirmed w'.log &&
    match move.input with
    | .fail _ => !w.controller.clientDown
    | .onVPNLoss => !(w.controller.clientDown && w.controller.state = .downloading)
    | _ => true

/-! ## The invariant -/

/-- The client is down only in a sealed or closed controller, and the history agrees. -/
structure Torndown (c : Controller) (log : List Entry) : Prop where
  down : c.clientDown = true → c.state = .sealed ∨ c.closed = true
  of_gone : gone log = true → c.clientDown = true
  of_shutDown : shutDown log = true → c.clientDown = true
  obeys : obedient log = true

variable {c : Controller} {log : List Entry} {e : Entry} {paused : Option (Except Fault Unit)}
  {down : Option (Except Fault Unit × Bool)}

/-- An open controller that is not sealed has a client. -/
theorem Torndown.up (h : Torndown c log) (hcl : c.closed = false) (hst : c.state ≠ .sealed) :
    c.clientDown = false := by
  rw [← not_eq_true]
  intro hdown
  rcases h.down hdown with hseal | hcl'
  · exact hst hseal
  · rw [hcl] at hcl'
    cases hcl'

theorem Torndown.not_gone (h : Torndown c log) (hup : c.clientDown = false) :
    gone log = false ∧ shutDown log = false := by
  constructor
  · rw [← not_eq_true]
    exact fun hgone => by simp [h.of_gone hgone] at hup
  · rw [← not_eq_true]
    exact fun hdown => by simp [h.of_shutDown hdown] at hup

def Entry.isShutdown : Entry → Bool
  | .shutdown _ _ => true
  | _ => false

variable {entries log' : List Entry} {c' : Controller}

theorem gone_append (log : List Entry) (h : ∀ e ∈ entries, e.isShutdown = false) :
    gone (entries ++ log) = gone log ∧ shutDown (entries ++ log) = shutDown log := by
  induction entries with
  | nil => exact ⟨rfl, rfl⟩
  | cons e entries ih =>
    have hrest := ih fun e he => h e (List.mem_cons_of_mem _ he)
    have he := h e List.mem_cons_self
    cases e with
    | shutdown => cases he
    | _ => exact hrest

theorem obedient_append (h : ∀ e ∈ entries, e.isShutdown = false) (hlog : obedient log = true)
    (hup : shutDown log = false) : obedient (entries ++ log) = true := by
  induction entries with
  | nil => exact hlog
  | cons e entries ih =>
    have hrest := fun e he => h e (List.mem_cons_of_mem _ he)
    have hnot : shutDown (entries ++ log) = false := (gone_append log hrest).2.trans hup
    change (obedient (entries ++ log) && (!e.isBackend || !shutDown (entries ++ log))) = true
    rw [ih hrest, hnot, Bool.not_false, Bool.or_true]
    rfl

/-- Calls made while the client is up, none of them a shutdown. -/
theorem Torndown.calls (h : Torndown c log) (hup : c.clientDown = false) (entries : List Entry)
    (hents : ∀ e ∈ entries, e.isShutdown = false) (hlog : log' = entries ++ log)
    (hsame : c'.clientDown = c.clientDown) : Torndown c' log' := by
  subst hlog
  obtain ⟨hgone, hdown⟩ := h.not_gone hup
  obtain ⟨hgone', hdown'⟩ := gone_append log hents
  refine ⟨?_, ?_, ?_, obedient_append hents h.obeys hdown⟩
  · rw [hsame, hup]
    nofun
  · rw [hgone', hgone]
    nofun
  · rw [hdown', hdown]
    nofun

theorem obedient_cons (hlog : obedient log = true) (hup : shutDown log = false) :
    obedient (e :: log) = true := by
  rw [obedient, hlog, hup, Bool.not_false, Bool.or_true]
  rfl

/-- A close makes calls only while the client is up. -/
theorem Torndown.close_calls (h : Torndown c log) (hcl : c.closed = false)
    (hcalls : CloseCalls c paused (down.map Prod.fst)) :
    paused = none ∧ down = none ∨ c.clientDown = false ∧ c.handle.valid = true := by
  cases paused with
  | some =>
    have hpau := hcalls.paused
    simp only [Option.isSome_some, true_eq, and_eq_true, decide_eq_true_eq] at hpau
    exact .inr ⟨h.up hcl hpau.2, hpau.1⟩
  | none =>
    cases down with
    | some =>
      have hdown := hcalls.down
      simp only [Option.map_some, Option.isSome_some, true_eq, and_eq_true,
        not_eq_true'] at hdown
      exact .inr ⟨hdown.2, hdown.1⟩
    | none => exact .inl ⟨rfl, rfl⟩

theorem obedient_closeEntries (hlog : obedient log = true) (hup : shutDown log = false)
    (paused : Option (Except Fault Unit)) (down : Option (Except Fault Unit × Bool)) :
    obedient (closeEntries paused down ++ log) = true := by
  have hpau : ∀ r, obedient (.pause r :: log) = true ∧ shutDown (.pause r :: log) = false :=
    fun r => ⟨obedient_cons hlog hup, hup⟩
  cases paused with
  | none =>
    cases down with
    | none => exact hlog
    | some => exact obedient_cons hlog hup
  | some r =>
    cases down with
    | none => exact (hpau r).1
    | some => exact obedient_cons (hpau r).1 (hpau r).2

theorem isShutdown_of_adds (h : e.adds = true) : e.isShutdown = false := by
  cases e <;> first | rfl | cases h

theorem isShutdown_of_observes (h : e.observes = true) : e.isShutdown = false := by
  cases e <;> first | rfl | cases h

/-- A close that fails has not shut the client down, unless its pause failed. -/
theorem not_down_of_closeFailed (hfail : (∃ fault, paused = some (.error fault)) ∨
      ∃ fault effect, down = some (.error fault, effect))
    (hhalf : halfClosed (closeEntries paused down ++ log) = false) :
    (down.any fun r => r.1.isOk) = false := by
  match paused, down, hfail, hhalf with
  | _, none, _, _ | _, some (.error _, _), _, _ => rfl
  | some (.error _), some (.ok (), _), _, hhalf => cases hhalf
  -- a shutdown that succeeded leaves the pause to have failed
  | some (.ok _), some (.ok (), _), hfail, _ | none, some (.ok (), _), hfail, _ =>
    rcases hfail with ⟨_, h⟩ | ⟨_, _, h⟩ <;> cases h

/-- The calls of a close that fails: with the client up it stays up, unless it was shut down
although the pause failed. -/
theorem Torndown.closeFailed (h : Torndown c log) (hcl : c.closed = false)
    (hcalls : CloseCalls c paused (down.map Prod.fst))
    (hfail : (∃ fault, paused = some (.error fault)) ∨
      ∃ fault effect, down = some (.error fault, effect))
    (hhalf : halfClosed (closeEntries paused down ++ log) = false)
    (hconf : shutdownUnconfirmed (closeEntries paused down ++ log) = false) : Torndown
      { c with clientDown := c.clientDown || (down.any fun r => r.1.isOk) || !c.handle.valid }
      (closeEntries paused down ++ log) := by
  rcases h.close_calls hcl hcalls with ⟨rfl, rfl⟩ | ⟨hup, hval⟩
  · rcases hfail with ⟨_, h⟩ | ⟨_, _, h⟩ <;> cases h
  obtain ⟨hgone, hdown⟩ := h.not_gone hup
  have hnot := not_down_of_closeFailed hfail hhalf
  have hsame : gone (closeEntries paused down ++ log) = gone log ∧
      shutDown (closeEntries paused down ++ log) = shutDown log := by
    match paused, down, hnot, hconf with
    | none, none, _, _ | some _, none, _, _ | none, some (.error _, false), _, _
    | some _, some (.error _, false), _, _ => exact ⟨rfl, rfl⟩
  refine ⟨?_, ?_, ?_, obedient_closeEntries h.obeys hdown paused down⟩
  · rw [hup, hnot, hval]
    nofun
  · rw [hsame.1, hgone]
    nofun
  · rw [hsame.2, hdown]
    nofun

/-- **One step.** -/
theorem Turn.keepsTorndown {i} (hturn : Turn U i c log c' log') (h : Torndown c log)
    (hhalf : halfClosed log' = false) (hunm : unmountFailed log' = false)
    (hconf : shutdownUnconfirmed log' = false) (hfail : ∀ l, i = .fail l → c.clientDown = false)
    (hvpn : i = .onVPNLoss → c.state = .downloading → c.clientDown = false) : Torndown c' log' := by
  -- a controller that is open and not sealed has a client
  have hup : ∀ {s : State}, c.closed = false → c.state = s → s ≠ .sealed →
      c.clientDown = false := by
    rintro _ hcl rfl hs
    exact h.up hcl hs
  cases hturn with
  | quiet => exact h
  | observed _ hcl hst he =>
    have hcli := h.up hcl hst
    exact h.calls hcli [_] (by simpa using isShutdown_of_observes he) rfl rfl
  | adding hcl hst hents hadd =>
    have hcli := hup hcl hst nofun
    cases hadd with
    | _ =>
      exact h.calls hcli _ (fun e he => isShutdown_of_adds (hents e he)) rfl rfl
  | selectFailed hsel | selected hsel =>
    have hcli : c.clientDown = false := by
      rcases hsel.2 with hst | hst <;> exact hup hsel.1 hst nofun
    exact h.calls hcli [_, _] (by simp [Entry.isShutdown]) rfl rfl
  | startFailed hstart | started hstart =>
    have hcli : c.clientDown = false := by
      rcases hstart.2.1 with hst | hst <;> exact hup hstart.1 hst nofun
    exact h.calls hcli [_] (by simp [Entry.isShutdown]) rfl rfl
  | paused hcl hst | pauseFailed hcl hst =>
    have hcli : c.clientDown = false := by
      rcases hst with hst | hst <;> exact hup hcl hst nofun
    exact h.calls hcli [_] (by simp [Entry.isShutdown]) rfl rfl
  | vpnPaused hi hst | vpnPauseFailed hi hst =>
    have hcli := hvpn hi hst
    exact h.calls hcli [_] (by simp [Entry.isShutdown]) rfl rfl
  | failed _ hcl hst | completed hcl hst | completePauseFailed hcl hst =>
    have hcli := hup hcl hst nofun
    exact h.calls hcli [_, _] (by simp [Entry.isShutdown]) rfl rfl
  | stale hi =>
    have hcli := hfail _ hi
    exact h.calls hcli [_] (by simp [Entry.isShutdown]) rfl rfl
  | verifyFailed _ _ hcli => exact h.calls hcli [_] (by simp [Entry.isShutdown]) rfl rfl
  | @shutdownFailed files _ fault tookEffect _ _ hcli =>
    obtain ⟨hgone, hdown⟩ := h.not_gone hcli
    have heff : tookEffect = false := hconf
    subst heff
    have hcons : obedient (.verifyCompleted c.metadata (.ok files) :: log) = true :=
      obedient_cons h.obeys hdown
    refine ⟨by rw [hcli]; nofun, fun hg => ?_, fun hd => ?_, obedient_cons hcons hdown⟩
    · cases hgone.symm.trans hg
    · cases hdown.symm.trans hd
  | @sealedClient files _ result _ _ hcli =>
    obtain ⟨-, hdown⟩ := h.not_gone hcli
    cases result with
    | error => cases hunm
    | ok =>
      have hver : obedient (.verifyCompleted c.metadata (.ok files) :: log) = true :=
        obedient_cons h.obeys hdown
      have hshut : obedient (.shutdown (.ok ()) true ::
          .verifyCompleted c.metadata (.ok files) :: log) = true :=
        obedient_cons hver hdown
      refine ⟨fun _ => .inl rfl, fun _ => rfl, fun _ => rfl, ?_⟩
      rw [obedient, hshut]
      rfl
  | resealed hseal hdown =>
    have hcl : c.closed = false := by
      simpa using (and_eq_true_iff.1 hseal).1
    have hst : c.state ≠ .sealed := by
      intro hst
      simp [Controller.maySeal, hst] at hseal
    rw [h.up hcl hst] at hdown
    cases hdown
  | closeFailed hcl hcalls hfailed => exact h.closeFailed hcl hcalls hfailed hhalf hconf
  | closed hcl hcalls =>
    refine ⟨fun _ => .inr rfl, fun _ => rfl, fun _ => rfl, ?_⟩
    rcases h.close_calls hcl hcalls with ⟨rfl, rfl⟩ | ⟨hcli, -⟩
    · exact h.obeys
    · exact obedient_closeEntries h.obeys (h.not_gone hcli).2 _ _
  | destroyed =>
    exact ⟨h.down, h.of_gone, h.of_shutDown, by simpa [obedient, Entry.isBackend] using h.obeys⟩

theorem reachable_torndown {w}
    (h : (machine U).Reachable (fun move w => shutsDownCleanly U move w = true) w) :
    Torndown w.controller w.log := by
  refine h.inv (P := fun w => Torndown w.controller w.log) ?_ ?_
  · rintro _ ⟨config, c, hnew, rfl⟩
    have hup : c.clientDown = false := by
      simp only [newController] at hnew
      split at hnew
      · cases hnew
      · cases hnew
        rfl
    refine ⟨?_, nofun, nofun, rfl⟩
    intro hdown
    rw [World.initial, hup] at hdown
    cases hdown
  · intro move v hgrd htorn
    simp only [shutsDownCleanly, and_eq_true, not_eq_true'] at hgrd
    obtain ⟨⟨⟨hhalf, hunm⟩, hconf⟩, hinput⟩ := hgrd
    refine Turn.keepsTorndown (v.step_turn move) htorn hhalf hunm hconf ?_ ?_
    · intro l hl
      simpa [hl] using hinput
    · intro hi hst
      simpa [hi, hst] using hinput

/-! ## Convergence -/

/-- A call that can be made and is answered with an error does not cooperate. -/
theorem fault_of_cooperates {o : Op} {x} (hgone : gone log = false) (h : cooperates o x log = true)
    : x.fault = none := by
  simpa [cooperates, legal, hgone] using h

theorem along_closePause (hgone : gone log = false) :
    Along exec cooperates (Controller.closePause c)
      (fun r c' log' => r = .ok true ∧ c' = c ∧ gone log' = false) c log := by
  unfold Controller.closePause
  split
  · refine along_invoke_bind fun x hx => along_pure ⟨?_, rfl, hgone⟩
    simp [exec, Op.answer, Answer.result, fault_of_cooperates hgone hx, Except.toBool]
  · exact along_pure ⟨rfl, rfl, hgone⟩

theorem along_closeShutdown (hgone : gone log = false) :
    Along exec cooperates (Controller.closeShutdown c) (fun r _ _ => r = .ok true) c log := by
  unfold Controller.closeShutdown
  split
  · exact along_modify_bind (along_pure rfl)
  split
  · exact along_pure rfl
  · refine along_invoke_bind fun x hx => ?_
    simp only [exec, Op.answer, Answer.result, fault_of_cooperates hgone hx]
    exact along_modify_bind (along_pure rfl)

/-- A close of a controller that is open and has its client. -/
theorem along_close_up (hgone : gone log = false) :
    Along exec cooperates Controller.close (fun r _ _ => r = .ok ()) c log := by
  refine along_get_bind ?_
  split
  · exact along_pure rfl
  refine along_bind ((along_closePause hgone).post ?_)
  rintro _ _ ⟨log', v⟩ hpau hv
  obtain ⟨rfl, rfl, hgone'⟩ := hpau hv
  refine along_bind ((along_closeShutdown hgone').post ?_)
  rintro _ _ _ hdown hv
  rw [hdown hv]
  exact along_modify rfl

/-- A close without a client, of a controller that is closed or sealed. -/
theorem along_close_down (hdown : c.clientDown = true) (hc : c.state = .sealed ∨ c.closed = true) :
    Along exec cooperates Controller.close (fun r _ _ => r = .ok ()) c log := by
  refine along_get_bind ?_
  split
  · exact along_pure rfl
  rename_i hopen
  have hseal : c.state = .sealed := hc.resolve_right hopen
  have hpause : Controller.closePause c = pure true := if_neg fun h => h.2 hseal
  rw [hpause]
  refine along_bind (along_pure (along_bind ?_))
  unfold Controller.closeShutdown
  split
  · exact along_modify_bind (along_pure (along_modify rfl))
  · exact along_pure (along_modify rfl)

/-- **Teardown converges**: in every run in which the client is not left half shut down, no call
of the backend follows a shutdown that succeeded, and from every state reached a `Close` in
which whatever can be done succeeds returns no error. -/
theorem teardown_converges {w : World}
    (h : (machine U).Reachable (fun move w => shutsDownCleanly U move w = true) w) :
    obedient w.log = true ∧ CloseConverges w := by
  have htorn := reachable_torndown h
  refine ⟨htorn.obeys, fun answers halong => ?_⟩
  have hclose : Along exec cooperates Controller.close (fun r _ _ => r = .ok ()) w.controller
      w.log := by
    by_cases hgone : gone w.log = true
    · have hdown := htorn.of_gone hgone
      exact along_close_down hdown (htorn.down hdown)
    · exact along_close_up (not_eq_true _ ▸ hgone)
  exact hclose.outcome halong

theorem teardown_converges_sample :
    let w := (machine .ascii).play (toComplete ++ [Input.sealQuarantine.answered])
      (.initial sampleController)
    obedient w.log = true ∧ (w.perform (fun _ => sampleAnswer) Controller.close).1 = .ok () := by
  intro w
  have hreach :
      (machine .ascii).Reachable (fun move w => shutsDownCleanly .ascii move w = true) w :=
    Machine.reachable_play (fun _ _ h => h) (init_sample .ascii) (by decide +kernel)
  have hconv := teardown_converges hreach
  exact ⟨hconv.1, hconv.2 _ (by decide +kernel)⟩

/-- **A teardown that is stuck.** The pause of a `Close` fails and its shutdown succeeds. The next
`Close` pauses the client again, which is no longer there, and so does every other. -/
theorem teardown_stuck :
    ∃ w, (machine .ascii).Reachable (Machine.free Move World) w ∧
      obedient (w.step .ascii Input.close.answered).log = false ∧ ¬ CloseConverges w := by
  refine ⟨_, Machine.reachable_play_free (toDownloading ++ [Input.close.failing [0]])
    (init_sample .ascii), ?_, ?_⟩
  · decide +kernel
  · intro hconv
    have hok := hconv (fun _ => { sampleAnswer with fault := some .other }) (by decide +kernel)
    revert hok
    decide +kernel

end PrivateVm.Torrent
