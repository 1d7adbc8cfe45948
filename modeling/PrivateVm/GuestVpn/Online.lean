import PrivateVm.GuestVpn.Turns

set_option autoImplicit false

/-! # Online services run behind a working tunnel

`Stop` that fails to remove the tunnel or the kill switch leaves the controller degraded, and a
degraded controller may be verified again, whatever is left of the tunnel
(`online_without_tunnel`). In the other runs the online service starts only behind both
(`online_behind_tunnel`).
-/

namespace PrivateVm.GuestVpn

open Program Method

/-! ## What the history says -/

/-- The kill switch is armed: the last call to arm it succeeded, and none to remove it has been
made since. -/
def armed : List Entry → Bool
  | [] => false
  | .armKillSwitch result :: _ => result.isOk
  | .removeKillSwitch _ :: _ => false
  | _ :: log => armed log

/-- The tunnel is configured: the last call to configure it succeeded, and none to remove it has
been made since. -/
def tunnelUp : List Entry → Bool
  | [] => false
  | .configureTunnel result :: _ => result.isOk
  | .removeTunnel _ :: _ => false
  | _ :: log => tunnelUp log

/-- Whether the profile last inspected enables version 6. -/
def profileIPv6 : List Entry → Bool
  | [] => false
  | .inspect (.ok ipv6Enabled) :: _ => ipv6Enabled
  | _ :: log => profileIPv6 log

def lastProof : List Entry → Option Proof
  | [] => none
  | .verify proof _ :: _ => some proof
  | _ :: log => lastProof log

def Entry.isStart : Entry → Bool
  | .onlineStart _ => true
  | _ => false

/-- The online service was started only behind the kill switch and the tunnel. -/
def startsBehind : List Entry → Bool
  | [] => true
  | e :: log => startsBehind log && (!e.isStart || armed log && tunnelUp log)

/-- The last call of the backend was one to remove something. -/
def dismantled : List Entry → Bool
  | [] => false
  | .removeTunnel _ :: _ | .removeKillSwitch _ :: _ => true
  | .armKillSwitch _ :: _ | .configureTunnel _ :: _ => false
  | _ :: log => dismantled log

/-- A degraded controller is verified only if no `Stop` has begun to remove its tunnel. -/
def verifiesTunnel (move : Move Answer) (w : World (List Entry)) : Bool :=
  !move.input.verifies || !(w.controller.state = .degraded && dismantled w.outside)

/-! ## The invariant -/

/-- The tunnel is there, and what the controller asks of a proof is what the profile asks. -/
structure Up (c : Controller) (log : List Entry) : Prop where
  armed : armed log = true
  tunnel : tunnelUp log = true
  ipv6 : c.requireIPv6 = profileIPv6 log

def Proven (c : Controller) (log : List Entry) : Prop :=
  ∃ proof, lastProof log = some proof ∧
    proof.complete (profileIPv6 log) c.policy.requireTorrentBinding = true

structure Behind (c : Controller) (log : List Entry) : Prop where
  starts : startsBehind log = true
  up : c.state = .configured ∨ c.state = .verified → Up c log
  busy : ¬ c.state.idle → dismantled log = true ∨ Up c log
  proven : c.state = .verified → Proven c log

variable {c : Controller} {log : List Entry}

/-- A state in which nothing is promised. -/
theorem Behind.of_idle (hsts : startsBehind log = true) (hidle : c.state.idle) :
    Behind c log := by
  refine ⟨hsts, ?_, absurd hidle, ?_⟩
  · rintro (h | h) <;> rcases hidle with hidle | hidle <;> cases h.symm.trans hidle
  · intro h
    rcases hidle with hidle | hidle <;> cases h.symm.trans hidle

/-- A state from which the tunnel is being removed. -/
theorem Behind.of_dismantled (hsts : startsBehind log = true)
    (hst : c.state = .killSwitchArmed ∨ c.state = .degraded) (hlog : dismantled log = true) :
    Behind c log := by
  refine ⟨hsts, ?_, fun _ => .inl hlog, ?_⟩
  · rintro (h | h) <;> rcases hst with hst | hst <;> cases h.symm.trans hst
  · intro h
    rcases hst with hst | hst <;> cases h.symm.trans hst

theorem Behind.of_degraded (hsts : startsBehind log = true) (hst : c.state = .degraded)
    (hup : Up c log) : Behind c log := by
  refine ⟨hsts, fun _ => hup, fun _ => .inr hup, ?_⟩
  intro h
  cases h.symm.trans hst

/-- A call that is not of the backend and not a start. -/
theorem startsBehind_cons {e} (h : startsBehind log = true) (he : e.isStart = false) :
    startsBehind (e :: log) = true := by
  rw [startsBehind, h, he]
  rfl

variable {entries log' : List Entry} {c' : Controller}

theorem startsBehind_append (h : startsBehind log = true)
    (hents : ∀ e ∈ entries, e.isStart = false) : startsBehind (entries ++ log) = true := by
  induction entries with
  | nil => exact h
  | cons e entries ih =>
    exact startsBehind_cons (ih fun e he => hents e (List.mem_cons_of_mem _ he))
      (hents e List.mem_cons_self)

theorem Up.start (hup : Up c log) (h : startsBehind log = true) (result : Except Error Unit) :
    startsBehind (.onlineStart result :: log) = true := by
  rw [startsBehind, h, hup.armed, hup.tunnel]
  rfl

/-! ### Attempts -/

section

variable {c c' : Controller} {log log' : List Entry}

theorem Begun.up (hbegun : Begun c log c' log') (hup : Up c log) (h : startsBehind log = true) :
    Up c' log' ∧ startsBehind log' = true := by
  cases hbegun with
  | kept => exact ⟨hup, h⟩
  | started => exact ⟨⟨hup.armed, hup.tunnel, hup.ipv6⟩, hup.start h _⟩

/-- Stopping the online service changes nothing of the tunnel. -/
theorem Detached.up (hdet : Detached c log c' log') (hup : Up c log)
    (h : startsBehind log = true) : Up c' log' ∧ startsBehind log' = true ∧ c'.state = c.state := by
  cases hdet with
  | kept => exact ⟨hup, h, rfl⟩
  | stopped | failed =>
    exact ⟨⟨hup.armed, hup.tunnel, hup.ipv6⟩, startsBehind_cons h rfl, rfl⟩

theorem Begun.fields (hbegun : Begun c log c' log') :
    c'.requireIPv6 = c.requireIPv6 ∧ c'.policy = c.policy := by
  cases hbegun with
  | kept | started => exact ⟨rfl, rfl⟩

/-- An attempt made behind the tunnel. -/
theorem Attempt.behind (hatt : Attempt c log c' log') (hup : Up c log)
    (h : startsBehind log = true) : Behind c' log' := by
  cases hatt with
  | startFailed honl hdet =>
    obtain ⟨hup', hsts, hst⟩ :=
      hdet.up ⟨hup.armed, hup.tunnel, hup.ipv6⟩ (hup.start h _)
    exact .of_degraded hsts hst hup'
  | unproved proof error hbegun hdet =>
    obtain ⟨hup₁, hsts₁⟩ := hbegun.up hup h
    obtain ⟨hup', hsts, hst⟩ :=
      hdet.up ⟨hup₁.armed, hup₁.tunnel, hup₁.ipv6⟩ (startsBehind_cons hsts₁ rfl)
    exact .of_degraded hsts hst hup'
  | @proved c₁ log₁ proof hbegun hcomp =>
    obtain ⟨hup₁, hsts₁⟩ := hbegun.up hup h
    obtain ⟨hipv6, hpol⟩ := hbegun.fields
    have hup' : Up { c₁ with proof := proof, state := .verified } (.verify proof none :: log₁) :=
      ⟨hup₁.armed, hup₁.tunnel, hup₁.ipv6⟩
    refine ⟨startsBehind_cons hsts₁ rfl, fun _ => hup', fun _ => .inr hup', fun _ => ?_⟩
    refine ⟨proof, rfl, ?_⟩
    rwa [← hipv6, ← hpol, hup₁.ipv6] at hcomp

end

/-! ### One step -/

theorem Ended.frame (hend : Ended c log c' log') (h : startsBehind log = true) :
    startsBehind log' = true := by
  cases hend with
  | kept => exact h
  | stopped => exact startsBehind_cons h rfl

theorem SetupFailed.not_start {failed : Error → Entry} (h : SetupFailed failed entries)
    (hfail : ∀ e, (failed e).isStart = false) : ∀ e ∈ entries, e.isStart = false := by
  cases h with
  | setup => exact List.forall_mem_singleton.2 rfl
  | callback e => exact List.forall_mem_cons.2 ⟨hfail e, List.forall_mem_singleton.2 rfl⟩

theorem startsBehind_armedLog {ipv6Enabled} (h : startsBehind log = true) :
    startsBehind (armedLog ipv6Enabled log) = true :=
  @startsBehind_append _ [_, _, _] h (by simp [Entry.isStart])

/-- **One step.** -/
theorem Turn.behind {i} (hturn : Turn i c log c' log') (h : Behind c log)
    (hgrd : i.verifies = true → c.state = .degraded → dismantled log = false) : Behind c' log' := by
  cases hturn with
  | quiet => exact h
  | inspectFailed hidle => exact .of_idle (startsBehind_cons h.starts rfl) hidle
  | armFailed ipv6Enabled hidle hents =>
    refine .of_idle (startsBehind_append (startsBehind_cons h.starts rfl) ?_) hidle
    exact hents.not_start fun _ => rfl
  | tunnelFailed ipv6Enabled hidle hents =>
    refine .of_dismantled (startsBehind_cons (startsBehind_append ?_ ?_) rfl) (.inl rfl) rfl
    · exact startsBehind_armedLog h.starts
    · exact hents.not_start fun _ => rfl
  | configured ipv6Enabled hidle hatt =>
    refine hatt.behind ⟨rfl, rfl, rfl⟩ ?_
    exact startsBehind_cons (startsBehind_cons (startsBehind_armedLog h.starts) rfl) rfl
  | attempted hi hst hatt =>
    refine hatt.behind ?_ h.starts
    rcases hst with hst | hst | hst
    · exact h.up (.inl hst)
    · exact h.up (.inr hst)
    have hbusy : ¬ c.state.idle := by
      rintro (h | h) <;> cases h.symm.trans hst
    have hstill := hgrd hi hst
    refine (h.busy hbusy).resolve_left ?_
    rw [hstill]
    nofun
  | idleStopFailed hidle => exact .of_idle (startsBehind_cons h.starts rfl) hidle
  | idleStopped hidle hend => exact .of_idle (hend.frame h.starts) (.inr rfl)
  | @stopOnlineFailed e hbusy =>
    have hsts : startsBehind (.onlineStop (.error e) :: log) = true :=
      startsBehind_cons h.starts rfl
    rcases h.busy hbusy with hdown | hup
    · exact .of_dismantled hsts (.inr rfl) hdown
    · exact .of_degraded hsts rfl ⟨hup.armed, hup.tunnel, hup.ipv6⟩
  | removeTunnelFailed hbusy hend =>
    exact .of_dismantled (startsBehind_cons (hend.frame h.starts) rfl) (.inr rfl) rfl
  | removeKillSwitchFailed hbusy hend =>
    have hsts := startsBehind_cons (e := .removeTunnel (.ok ())) (hend.frame h.starts) rfl
    exact .of_dismantled (startsBehind_cons hsts rfl) (.inr rfl) rfl
  | stopped hbusy hend =>
    have hsts := startsBehind_cons (e := .removeTunnel (.ok ())) (hend.frame h.starts) rfl
    exact .of_idle (startsBehind_cons hsts rfl) (.inr rfl)

theorem reachable_behind {w}
    (h : (machine exec []).Reachable (fun move w => verifiesTunnel move w = true) w) :
    Behind w.controller w.outside := by
  refine h.inv (P := fun w => Behind w.controller w.outside) ?_ ?_
  · rintro _ ⟨online, policy, underlay, c, hnew, rfl⟩
    exact .of_idle rfl (.inl (newController_fresh hnew).1)
  · intro move v hgrd hbeh
    refine (World.step_turn (.refl exec) move v).behind hbeh ?_
    intro hi hst
    simpa [verifiesTunnel, hi, hst] using hgrd

/-! ## The result -/

/-- **Online services run behind a working tunnel**, in every run in which `Verify` is not
called on what a failed `Stop` has left: the online service was started only while the kill
switch was armed and the tunnel configured, and the controller is verified only while they
are, with a proof that meets what the profile asks for version 6. -/
theorem online_behind_tunnel {w : World (List Entry)}
    (h : (machine exec []).Reachable (fun move w => verifiesTunnel move w = true) w) :
    startsBehind w.outside = true ∧
      (w.controller.state = .verified →
        armed w.outside = true ∧ tunnelUp w.outside = true ∧
          ∃ proof, lastProof w.outside = some proof ∧
            (profileIPv6 w.outside = true → proof.ipv6ThroughTunnel = true)) := by
  have hbeh := reachable_behind h
  refine ⟨hbeh.starts, fun hst => ?_⟩
  have hup := hbeh.up (.inr hst)
  obtain ⟨proof, hproof, hcomp⟩ := hbeh.proven hst
  refine ⟨hup.armed, hup.tunnel, proof, hproof, fun hipv6 => ?_⟩
  rw [hipv6] at hcomp
  exact Proof.ipv6_of_complete hcomp

/-! ## Sample runs -/

def sampleAnswer : Answer := ⟨none, true, ⟨true, true, true, true, true, true, true, true⟩⟩

def Input.answered (i : Input) : Move Answer := ⟨i, fun _ => sampleAnswer⟩

def Input.failing (i : Input) (n : Nat) : Move Answer :=
  ⟨i, fun k => if k = n then { sampleAnswer with error := some (.cause .other) } else sampleAnswer⟩

theorem online_behind_tunnel_sample :
    let w := (machine exec []).play [(Input.configure background 0).answered]
      ⟨sampleController, [], [], []⟩
    w.controller.state = .verified ∧ startsBehind w.outside = true ∧ armed w.outside = true := by
  intro w
  have hreach : (machine exec []).Reachable (fun move w => verifiesTunnel move w = true) w :=
    Machine.reachable_play (fun _ _ h => h) (init_sample exec []) (by decide +kernel)
  have hst : w.controller.state = .verified := by decide +kernel
  have hbeh := online_behind_tunnel hreach
  exact ⟨hst, hbeh.1, (hbeh.2 hst).1⟩

/-- **Online without a tunnel.** A `Stop` removes the tunnel and fails to remove the kill switch;
`Verify` then starts the online service again, and the controller is verified. Version 6, which
the profile enables, is no longer asked for. -/
theorem online_without_tunnel :
    ∃ w, (machine exec []).Reachable (Machine.free (Move Answer) (World (List Entry))) w ∧
      startsBehind w.outside = false ∧ w.controller.state = .verified ∧
      armed w.outside = false ∧ tunnelUp w.outside = false := by
  refine ⟨_, Machine.reachable_play_free [(Input.configure background 0).answered,
    Input.stop.failing 2, (Input.verify background 0).answered] (init_sample exec []),
    ?_, ?_, ?_, ?_⟩ <;> decide +kernel

end PrivateVm.GuestVpn
