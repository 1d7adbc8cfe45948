import PrivateVm.GuestVpn.World

set_option autoImplicit false

/-! # What one step can do to the guest VPN controller

`Turn` has one case for each way a method can end, and `World.step_turn` proves that there are no
others, for every outside that refines the history of calls.
-/

namespace PrivateVm.GuestVpn

open Program Method

/-! ## The cases -/

/-- The inputs on which `Verify` runs. -/
def Input.verifies : Input → Bool
  | .verify _ _ | .tick _ _ _ => true
  | _ => false

/-- The states in which there is nothing to stop. -/
def State.idle (s : State) : Prop := s = .unconfigured ∨ s = .stopped

/-- An online service has been started, unless there is none or it counts as active. -/
inductive Begun (c : Controller) (log : List Entry) : Controller → List Entry → Prop
  | kept : Begun c log c log
  | started (honline : c.online = true) :
      Begun c log { c with onlineActive := true } (.onlineStart (.ok ()) :: log)

/-- The online service may have been stopped. -/
inductive Detached (c : Controller) (log : List Entry) : Controller → List Entry → Prop
  | kept : Detached c log c log
  | stopped : Detached c log { c with onlineActive := false } (.onlineStop (.ok ()) :: log)
  | failed {e : Error} : Detached c log c (.onlineStop (.error e) :: log)

/-- The online service does not count as active, and was stopped if it did. -/
inductive Ended (c : Controller) (log : List Entry) : Controller → List Entry → Prop
  | kept (hactive : (c.online && c.onlineActive) = false) : Ended c log c log
  | stopped : Ended c log { c with onlineActive := false } (.onlineStop (.ok ()) :: log)

/-- An attempt to prove the tunnel: the online service cannot be started, the proof fails, or it
is complete. -/
inductive Attempt (c : Controller) (log : List Entry) : Controller → List Entry → Prop
  | startFailed {e : Error} {c' : Controller} {log' : List Entry} (honline : c.online = true)
      (hdetached : Detached { c with onlineActive := true, state := .degraded }
        (.onlineStart (.error e) :: log) c' log') : Attempt c log c' log'
  | unproved {c₁ c' : Controller} {log₁ log' : List Entry} (proof : Proof) (error : Option Error)
      (hbegun : Begun c log c₁ log₁)
      (hdetached : Detached { c₁ with proof := proof, state := .degraded }
        (.verify proof error :: log₁) c' log') : Attempt c log c' log'
  | proved {c₁ : Controller} {log₁ : List Entry} (proof : Proof) (hbegun : Begun c log c₁ log₁)
      (hcomplete : proof.complete c.requireIPv6 c.policy.requireTorrentBinding = true) :
      Attempt c log { c₁ with proof := proof, state := .verified } (.verify proof none :: log₁)

/-- A callback that was not reached, or failed. -/
inductive SetupFailed (failed : Error → Entry) : List Entry → Prop
  | setup (e : Error) : SetupFailed failed [.setup (.error e)]
  | callback (e : Error) : SetupFailed failed [failed e, .setup (.ok ())]

/-- The calls of `Configure` until the kill switch is armed. -/
def armedLog (ipv6Enabled : Bool) (log : List Entry) : List Entry :=
  .armKillSwitch (.ok ()) :: .setup (.ok ()) :: .inspect (.ok ipv6Enabled) :: log

/-- What `Stop` clears once the tunnel is removed. -/
def Controller.unproven (c : Controller) (state : State) : Controller :=
  { c with proof := .empty, requireIPv6 := false, configured := false, state := state }

/-- **The turns.** -/
inductive Turn (i : Input) (c : Controller) (log : List Entry) : Controller → List Entry → Prop
  | quiet : Turn i c log c log
  | inspectFailed {e : Error} (hidle : c.state.idle) :
      Turn i c log c (.inspect (.error e) :: log)
  | armFailed {entries : List Entry} (ipv6Enabled : Bool) (hidle : c.state.idle)
      (hentries : SetupFailed (fun e => .armKillSwitch (.error e)) entries) :
      Turn i c log { c with requireIPv6 := ipv6Enabled }
        (entries ++ .inspect (.ok ipv6Enabled) :: log)
  | tunnelFailed {entries : List Entry} {result : Except Error Unit} (ipv6Enabled : Bool)
      (hidle : c.state.idle)
      (hentries : SetupFailed (fun e => .configureTunnel (.error e)) entries) :
      Turn i c log
        { c with requireIPv6 := ipv6Enabled, state := .killSwitchArmed, killSwitchArmed := true }
        (.removeTunnel result :: (entries ++ armedLog ipv6Enabled log))
  | configured {c' : Controller} {log' : List Entry} (ipv6Enabled : Bool) (hidle : c.state.idle)
      (hattempt : Attempt
        { c with
          requireIPv6 := ipv6Enabled
          state := .configured
          killSwitchArmed := true
          configured := true }
        (.configureTunnel (.ok ()) :: .setup (.ok ()) :: armedLog ipv6Enabled log) c' log') :
      Turn i c log c' log'
  | attempted {c' : Controller} {log' : List Entry} (hi : i.verifies = true)
      (hstate : c.state = .configured ∨ c.state = .verified ∨ c.state = .degraded)
      (hattempt : Attempt c log c' log') : Turn i c log c' log'
  | idleStopFailed {e : Error} (hidle : c.state.idle) :
      Turn i c log c (.onlineStop (.error e) :: log)
  | idleStopped {c₁ : Controller} {log₁ : List Entry} (hidle : c.state.idle)
      (hended : Ended c log c₁ log₁) :
      Turn i c log { c₁.unproven .stopped with killSwitchArmed := false } log₁
  | stopOnlineFailed {e : Error} (hbusy : ¬ c.state.idle) :
      Turn i c log { c with state := .degraded } (.onlineStop (.error e) :: log)
  | removeTunnelFailed {c₁ : Controller} {log₁ : List Entry} {e : Error} (hbusy : ¬ c.state.idle)
      (hended : Ended c log c₁ log₁) :
      Turn i c log { c₁ with state := .degraded } (.removeTunnel (.error e) :: log₁)
  | removeKillSwitchFailed {c₁ : Controller} {log₁ : List Entry} {e : Error}
      (hbusy : ¬ c.state.idle) (hended : Ended c log c₁ log₁) :
      Turn i c log (c₁.unproven .degraded)
        (.removeKillSwitch (.error e) :: .removeTunnel (.ok ()) :: log₁)
  | stopped {c₁ : Controller} {log₁ : List Entry} (hbusy : ¬ c.state.idle)
      (hended : Ended c log c₁ log₁) :
      Turn i c log { c₁.unproven .stopped with killSwitchArmed := false }
        (.removeKillSwitch (.ok ()) :: .removeTunnel (.ok ()) :: log₁)

/-! ## Every method takes one of them -/

section

variable {i : Input} {c : Controller} {log : List Entry} {α β : Type} {o : Op}
  {operationCtx ctx : Ctx} {now : Int}

theorem does_call_bind {f : o.Res → Action β} {Q : Except Error β → Controller → List Entry → Prop}
    (hf : ∀ r, Does exec (f r) Q c (o.entry r :: log)) : Does exec (call o >>= f) Q c log :=
  does_invoke_bind fun x => hf (o.answer x)

theorem does_call {Q : Except Error o.Res → Controller → List Entry → Prop}
    (hQ : ∀ r, Q (.ok r) c (o.entry r :: log)) : Does exec (call o) Q c log := by
  rintro _ rfl
  refine ⟨trivial, fun x _ => ?_⟩
  rintro _ rfl
  exact ⟨trivial, hQ _⟩

variable {Q : Except Error Unit → Controller → List Entry → Prop} {onFailure : Action Unit}

theorem stopOnlineDetached_does (h : ∀ c' log', Detached c log c' log' → Q (.ok ()) c' log') :
    Does exec Controller.stopOnlineDetached Q c log := by
  refine does_get_bind ?_
  unfold doIf
  split
  · refine does_call_bind fun r => ?_
    cases r with
    | ok => exact does_modify (h _ _ .stopped)
    | error => exact does_pure (h _ _ .failed)
  · exact does_pure (h _ _ .kept)

theorem startOnline_does
    (hok : Q (.ok ()) { c with onlineActive := true } (.onlineStart (.ok ()) :: log))
    (hfail : ∀ e c' log', Detached { c with onlineActive := true, state := .degraded }
      (.onlineStart (.error e) :: log) c' log' →
      Q (.error (verificationFailed (some e))) c' log') :
    Does exec Controller.startOnline Q c log := by
  refine does_modify_bind (does_call_bind fun r => ?_)
  cases r with
  | ok => exact does_pure hok
  | error e =>
    refine does_modify_bind (does_bind (stopOnlineDetached_does fun c' log' hd => ?_))
    exact does_throw (hfail e c' log' hd)

theorem prove_does (honF : ∀ c log, Does exec onFailure
      (fun r c' log' => r = .ok () ∧ Detached c log c' log') c log)
    (hunpr : ∀ proof error c' log', Detached { c with proof := proof, state := .degraded }
      (.verify proof error :: log) c' log' → Q (.error (verificationFailed error)) c' log')
    (hprov : ∀ proof, proof.complete c.requireIPv6 c.policy.requireTorrentBinding = true →
      Q (.ok ()) { c with proof := proof, state := .verified } (.verify proof none :: log)) :
    Does exec (Controller.prove operationCtx onFailure) Q c log := by
  refine does_get_bind (does_call_bind ?_)
  rintro ⟨proof, error⟩
  refine does_modify_bind ?_
  split
  · refine does_modify_bind (does_bind ((honF _ _).post ?_))
    rintro _ c' log' ⟨rfl, hd⟩
    exact does_throw (hunpr proof error c' log' hd)
  rename_i hgood
  obtain ⟨hnone, hcomplete⟩ := not_or.1 hgood
  rw [Option.not_isSome_iff_eq_none] at hnone
  subst hnone
  exact does_modify (hprov proof (not_not.1 hcomplete))

/-- The online service is started, if it is to be, and the tunnel proved. -/
theorem attempt_does {start} (honl : start = true → c.online = true)
    (honF : ∀ c log, Does exec onFailure
      (fun r c' log' => r = .ok () ∧ Detached c log c' log') c log) :
    Does exec (do doIf start Controller.startOnline; Controller.prove operationCtx onFailure)
      (fun _ c' log' => Attempt c log c' log') c log := by
  unfold doIf
  split
  · rename_i hstart
    have honl := honl hstart
    refine does_bind (startOnline_does ?_ ?_)
    · rw [Then]
      exact prove_does honF
        (fun proof error c' log' => .unproved proof error (.started honl))
        fun proof => .proved proof (.started honl)
    · exact fun e c' log' hd => .startFailed honl hd
  · refine does_bind (does_pure ?_)
    rw [Then]
    exact prove_does honF (fun proof error c' log' => .unproved proof error .kept)
      fun proof => .proved proof .kept

theorem withGuestSetup_does {callback : Action (Except Error Unit)}
    {Q : Except Error (Except Error Unit) → Controller → List Entry → Prop}
    (hsetup : ∀ e, Q (.ok (.error e)) c (.setup (.error e) :: log))
    (hcb : Does exec callback Q c (.setup (.ok ()) :: log)) :
    Does exec (withGuestSetup callback) Q c log := by
  refine does_call_bind fun r => ?_
  cases r with
  | error e => exact does_pure (hsetup e)
  | ok => exact hcb

/-- A method whose every run is a turn. -/
def TakesTurn (i : Input) (m : Action α) : Prop :=
  ∀ c log, Does exec m (fun _ c' log' => Turn i c log c' log') c log

theorem detached_of_stop (c : Controller) (log : List Entry) :
    Does exec Controller.stopOnlineDetached
      (fun r c' log' => r = .ok () ∧ Detached c log c' log') c log :=
  stopOnlineDetached_does fun _ _ hd => ⟨rfl, hd⟩

theorem detached_of_pure (c : Controller) (log : List Entry) :
    Does exec (pure () : Action Unit)
      (fun r c' log' => r = .ok () ∧ Detached c log c' log') c log :=
  does_pure ⟨rfl, .kept⟩

theorem configure_turn : TakesTurn i (Controller.configure ctx now) := by
  intro c log
  refine does_get_bind ?_
  split
  · exact does_throw .quiet
  rename_i hstate
  have hidle : c.state.idle := by
    simp only [not_and_or, not_not] at hstate
    exact hstate
  refine does_call_bind fun r => ?_
  cases r with
  | error => exact does_throw (.inspectFailed hidle)
  | ok ipv6Enabled =>
    refine does_modify_bind (does_bind (withGuestSetup_does ?_ ?_))
    · intro e
      rw [Then]
      exact does_throw (.armFailed ipv6Enabled hidle (.setup e))
    refine does_call fun r => ?_
    rw [Then]
    cases r with
    | error e => exact does_throw (.armFailed ipv6Enabled hidle (.callback e))
    | ok =>
      refine does_modify_bind (does_bind (withGuestSetup_does ?_ ?_))
      · intro e
        rw [Then]
        refine does_call_bind fun r => does_throw ?_
        exact .tunnelFailed ipv6Enabled hidle (.setup e)
      · refine does_call fun r => ?_
        rw [Then]
        cases r with
        | error e =>
          refine does_call_bind fun r => does_throw ?_
          exact .tunnelFailed ipv6Enabled hidle (.callback e)
        | ok =>
          refine does_modify_bind ((attempt_does ?_ detached_of_stop).post ?_)
          · exact fun h => h
          · exact fun _ _ _ => .configured ipv6Enabled hidle

theorem verify_turn (hi : i.verifies = true) : TakesTurn i (Controller.verify ctx now) := by
  intro c log
  refine does_get_bind ?_
  split
  · exact does_throw .quiet
  have hstate : c.state = .configured ∨ c.state = .verified ∨ c.state = .degraded := by tauto
  refine (attempt_does ?_ detached_of_pure).post ?_
  · exact fun h => (Bool.and_eq_true_iff.1 h).1
  · exact fun _ _ _ => .attempted hi hstate

theorem stopOnline_does (hended : ∀ c' log', Ended c log c' log' → Q (.ok ()) c' log')
    (hfail : ∀ e, Does exec (do onFailure; throw cleanupIncomplete) Q c
      (.onlineStop (.error e) :: log)) : Does exec (Controller.stopOnline onFailure) Q c log := by
  refine does_get_bind ?_
  unfold doIf
  split
  · refine does_call_bind fun r => ?_
    cases r with
    | ok => exact does_modify (hended _ _ .stopped)
    | error e => exact hfail e
  · rename_i hact
    exact does_pure (hended _ _ (.kept (Bool.not_eq_true _ ▸ hact)))

theorem stop_turn : TakesTurn i Controller.stop := by
  intro c log
  refine does_get_bind ?_
  split
  · rename_i hidle
    refine does_bind (stopOnline_does ?_ ?_)
    · intro c₁ log₁ hended
      rw [Then]
      exact does_modify (.idleStopped hidle hended)
    · exact fun e => does_throw (.idleStopFailed hidle)
  · rename_i hbusy
    refine does_bind (stopOnline_does ?_ ?_)
    · intro c₁ log₁ hended
      rw [Then]
      refine does_call_bind fun r => ?_
      cases r with
      | error => exact does_modify_bind (does_throw (.removeTunnelFailed hbusy hended))
      | ok =>
        refine does_modify_bind (does_call_bind fun r => ?_)
        cases r with
        | error e =>
          refine does_modify_bind (does_throw ?_)
          exact @Turn.removeKillSwitchFailed _ _ _ c₁ log₁ e hbusy hended
        | ok => exact does_modify (@Turn.stopped _ _ _ c₁ log₁ hbusy hended)
    · exact fun e => does_modify_bind (does_throw (.stopOnlineFailed hbusy))

theorem monitorEntry_turn {interval : Int} : TakesTurn i (Controller.monitorEntry interval) := by
  intro c log
  refine does_get_bind ?_
  split
  · exact does_throw .quiet
  · exact does_pure .quiet

end

/-! ## The step lemma -/

variable {X H : Type} {exec' : (o : Op) → X → H → o.Res × H} {view : H → List Entry} {α : Type}
  {m : Action α} {r : Except Error α} {i : Input}

theorem World.perform_does {w w' : World H} {answers : Nat → X}
    {Q : Except Error α → Controller → H → Prop} (hm : Does exec' m Q w.controller w.outside)
    (h : w.perform exec' answers m = (r, w')) : Q r w'.controller w'.outside := by
  obtain ⟨rfl, rfl⟩ := Prod.mk.inj h
  exact hm.outcome answers

theorem World.perform_turn (href : Refines exec exec' view) (hm : TakesTurn i m) {w w' : World H}
    {answers : Nat → X} (h : w.perform exec' answers m = (r, w')) :
    Turn i w.controller (view w.outside) w'.controller (view w'.outside) :=
  perform_does ((hm w.controller (view w.outside)).refine href) h

/-- The method that an input runs, if it runs one. -/
inductive Input.Runs : Input → Action Unit → Prop
  | configure (ctx : Ctx) (now : Int) : Runs (.configure ctx now) (Controller.configure ctx now)
  | verify (ctx : Ctx) (now : Int) : Runs (.verify ctx now) (Controller.verify ctx now)
  | stop : Runs .stop Controller.stop
  | monitor (ctx : Ctx) (interval : Int) :
      Runs (.monitor ctx interval) (Controller.monitorEntry interval)
  | tick (l : Nat) (ctx : Ctx) (start finish : Int) :
      Runs (.tick l start finish) (Controller.verify ctx start)

/-- A step runs one method, or leaves the controller and the outside alone. -/
theorem World.step_runs (exec' : (o : Op) → X → H → o.Res × H) (move : Move X) (w : World H) :
    ((w.step exec' move).controller = w.controller ∧ (w.step exec' move).outside = w.outside) ∨
      ∃ m r w', move.input.Runs m ∧ w.perform exec' move.answers m = (r, w') ∧
        (w.step exec' move).controller = w'.controller ∧
        (w.step exec' move).outside = w'.outside := by
  obtain ⟨i, answers⟩ := move
  cases i with
  | configure ctx now => exact .inr ⟨_, _, _, .configure ctx now, rfl, rfl, rfl⟩
  | verify ctx now => exact .inr ⟨_, _, _, .verify ctx now, rfl, rfl, rfl⟩
  | stop => exact .inr ⟨_, _, _, .stop, rfl, rfl, rfl⟩
  | monitor ctx interval =>
    simp only [World.step]
    split <;>
      · rename_i heq
        exact .inr ⟨_, _, _, .monitor ctx interval, heq, rfl, rfl⟩
  | tick l start finish =>
    simp only [World.step]
    split
    · rename_i ctx _
      unfold World.tick
      split
      · rename_i heq
        exact .inr ⟨_, _, _, .tick l ctx start finish, heq, rfl, rfl⟩
      rename_i heq
      refine .inr ⟨_, _, _, .tick l ctx start finish, heq, ?_⟩
      split <;> exact ⟨rfl, rfl⟩
    · exact .inl ⟨rfl, rfl⟩
  | done =>
    left
    simp only [World.step]
    split
    · split <;> exact ⟨rfl, rfl⟩
    · exact ⟨rfl, rfl⟩
  | respond =>
    left
    simp only [World.step]
    split <;> exact ⟨rfl, rfl⟩

theorem Input.Runs.turn {m} (h : i.Runs m) : TakesTurn i m := by
  cases h with
  | configure => exact configure_turn
  | verify => exact verify_turn rfl
  | stop => exact stop_turn
  | monitor => exact monitorEntry_turn
  | tick => exact verify_turn rfl

/-- **Every step is a turn.** -/
theorem World.step_turn (href : Refines exec exec' view) (move : Move X) (w : World H) :
    Turn move.input w.controller (view w.outside) (w.step exec' move).controller
      (view (w.step exec' move).outside) := by
  rcases w.step_runs exec' move with ⟨hc, ho⟩ | ⟨m, r, w', hruns, heq, hc, ho⟩
  · rw [hc, ho]
    exact .quiet
  · rw [hc, ho]
    exact perform_turn href hruns.turn heq

/-- What every call keeps of the outside, a step keeps. -/
theorem World.step_outside {P : H → Prop} (hcall : ∀ o x h, P h → P (exec' o x h).2)
    (move : Move X) (w : World H) (hP : P w.outside) : P (w.step exec' move).outside := by
  rcases w.step_runs exec' move with ⟨-, ho⟩ | ⟨m, r, w', -, heq, -, ho⟩
  · rwa [ho]
  · rw [ho]
    exact perform_does (does_of_calls hcall m _ hP) heq

end PrivateVm.GuestVpn
