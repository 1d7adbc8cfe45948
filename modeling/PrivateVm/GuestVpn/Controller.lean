import PrivateVm.GuestVpn.Model
import PrivateVm.Basic.Method

set_option autoImplicit false

/-! # The guest VPN controller (`internal/guestvpn/controller.go`)

Each method of `Controller` holds the controller's lock throughout. The profile, the `Backend`, the
`OnlineService` and the `Verifier` may answer anything; the state outside the controller is the
history of these calls, newest first. The status that a method returns beside an error is that of
the controller as the method leaves it. Contexts bound durations only, and are left out, except
that of a verification.
-/

namespace PrivateVm.GuestVpn

open Checked Program

/-! ## Operations -/

inductive Op where
  | inspect
  /-- `WithGuestSetup`, up to its callback. -/
  | setup
  | armKillSwitch
  | configureTunnel (underlay : Underlay)
  | removeTunnel
  | removeKillSwitch
  | onlineStart
  | onlineStop
  | verify (ctx : Ctx) (policy : RolePolicy)

/-- An inspection says whether the profile enables version 6; a verification returns its proof
also with an error. -/
abbrev Op.Res : Op → Type
  | .inspect => Except Error Bool
  | .verify _ _ => Proof × Option Error
  | _ => Except Error Unit

structure Answer where
  error : Option Error
  ipv6Enabled : Bool
  proof : Proof

def Answer.result {α : Type} (x : Answer) (value : α) : Except Error α :=
  match x.error with
  | none => .ok value
  | some e => .error e

def Op.answer : (o : Op) → Answer → o.Res
  | .inspect, x => x.result x.ipv6Enabled
  | .verify _ _, x => (x.proof, x.error)
  | .setup, x | .armKillSwitch, x | .configureTunnel _, x | .removeTunnel, x
  | .removeKillSwitch, x | .onlineStart, x | .onlineStop, x => x.result ()

/-- A call in the history, with its result. -/
inductive Entry where
  | inspect (result : Except Error Bool)
  | setup (result : Except Error Unit)
  | armKillSwitch (result : Except Error Unit)
  | configureTunnel (result : Except Error Unit)
  | removeTunnel (result : Except Error Unit)
  | removeKillSwitch (result : Except Error Unit)
  | onlineStart (result : Except Error Unit)
  | onlineStop (result : Except Error Unit)
  | verify (proof : Proof) (error : Option Error)
  deriving DecidableEq

def Op.entry : (o : Op) → o.Res → Entry
  | .inspect, r => .inspect r
  | .setup, r => .setup r
  | .armKillSwitch, r => .armKillSwitch r
  | .configureTunnel _, r => .configureTunnel r
  | .removeTunnel, r => .removeTunnel r
  | .removeKillSwitch, r => .removeKillSwitch r
  | .onlineStart, r => .onlineStart r
  | .onlineStop, r => .onlineStop r
  | .verify _ _, r => .verify r.1 r.2

/-- A call to parties that may answer anything. -/
def exec (o : Op) (x : Answer) (log : List Entry) : o.Res × List Entry :=
  (o.answer x, o.entry (o.answer x) :: log)

/-! ## The controller -/

/-- `online` says whether there is an online service. -/
structure Controller where
  online : Bool
  policy : RolePolicy
  underlay : Underlay
  state : State
  proof : Proof
  requireIPv6 : Bool
  killSwitchArmed : Bool
  configured : Bool
  onlineActive : Bool

def newController (online : Bool) (policy : RolePolicy) (underlay : Underlay) :
    Except Error Controller := do
  policy.validate
  underlay.validate
  return ⟨online, policy, underlay, .unconfigured, .empty, false, false, false, false⟩

theorem newController_fresh {online policy underlay c}
    (h : newController online policy underlay = .ok c) :
    c.state = .unconfigured ∧ c.killSwitchArmed = false ∧ c.policy.validate = .ok () := by
  simp only [newController, bind_eq_ok, pure_eq_ok] at h
  obtain ⟨_, hpol, _, -, rfl⟩ := h
  exact ⟨rfl, rfl, hpol⟩

def Controller.status (c : Controller) : Status :=
  ⟨1, c.state, c.killSwitchArmed, c.configured, c.proof, c.state.code, c.state.remediation⟩

def Controller.verificationPolicy (c : Controller) : RolePolicy :=
  { c.policy with requireIPv6Tunnel := c.requireIPv6 }

abbrev Action (α : Type) : Type := Method Op Op.Res Error Controller α

def call (o : Op) : Action o.Res := Method.invoke o

def doIf (condition : Bool) (m : Action Unit) : Action Unit :=
  if condition then m else pure ()

/-! ## Methods -/

def withGuestSetup (callback : Action (Except Error Unit)) : Action (Except Error Unit) := do
  match ← call .setup with
  | .error e => return .error e
  | .ok () => callback

/-- The online service is stopped, whether or not this succeeds. -/
def Controller.stopOnlineDetached : Action Unit := do
  let c ← get
  doIf (c.online && c.onlineActive) do
    match ← call .onlineStop with
    | .ok () => modify ({ · with onlineActive := false })
    | .error _ => return ()

/-- The online service is started: from then on it counts as active. -/
def Controller.startOnline : Action Unit := do
  modify ({ · with onlineActive := true })
  match ← call .onlineStart with
  | .ok () => return ()
  | .error e =>
    modify ({ · with state := .degraded })
    stopOnlineDetached
    throw (verificationFailed (some e))

/-- The verification, and what is done when it has failed. -/
def Controller.prove (operationCtx : Ctx) (onFailure : Action Unit) : Action Unit := do
  let c ← get
  let (proof, error) ← call (.verify operationCtx c.verificationPolicy)
  modify ({ · with proof := proof })
  if error.isSome ∨ ¬ proof.complete c.requireIPv6 c.policy.requireTorrentBinding then
    modify ({ · with state := .degraded })
    onFailure
    throw (verificationFailed error)
  else modify ({ · with state := .verified })

def Controller.configure (ctx : Ctx) (now : Int) : Action Unit := do
  let c ← get
  if c.state ≠ .unconfigured ∧ c.state ≠ .stopped then throw invalidRequest
  else
    match ← call .inspect with
    | .error _ => throw invalidRequest
    | .ok ipv6Enabled =>
      modify ({ · with requireIPv6 := ipv6Enabled })
      let operationCtx := boundedContext ctx maximumOperationDuration now
      match ← withGuestSetup (call .armKillSwitch) with
      | .error e => throw (killSwitchFailed e)
      | .ok () =>
        modify ({ · with state := .killSwitchArmed, killSwitchArmed := true })
        match ← withGuestSetup (call (.configureTunnel c.underlay)) with
        | .error e =>
          let _ ← call .removeTunnel
          throw (configurationFailed e)
        | .ok () =>
          modify ({ · with state := .configured, configured := true })
          doIf c.online startOnline
          prove operationCtx stopOnlineDetached

def Controller.verify (ctx : Ctx) (now : Int) : Action Unit := do
  let c ← get
  if c.state ≠ .configured ∧ c.state ≠ .verified ∧ c.state ≠ .degraded then throw invalidRequest
  else
    let operationCtx := boundedContext ctx maximumOperationDuration now
    doIf (c.online && !c.onlineActive) startOnline
    prove operationCtx (return ())

/-- The online service is stopped if it counts as active; `onFailure` is done when that fails. -/
def Controller.stopOnline (onFailure : Action Unit) : Action Unit := do
  let c ← get
  doIf (c.online && c.onlineActive) do
    match ← call .onlineStop with
    | .ok () => modify ({ · with onlineActive := false })
    | .error _ =>
      onFailure
      throw cleanupIncomplete

def Controller.stop : Action Unit := do
  let c ← get
  if c.state = .unconfigured ∨ c.state = .stopped then
    stopOnline (return ())
    modify ({ · with
      state := .stopped, proof := .empty, requireIPv6 := false, killSwitchArmed := false,
      configured := false })
  else
    stopOnline (modify ({ · with state := .degraded }))
    match ← call .removeTunnel with
    | .error _ =>
      modify ({ · with state := .degraded })
      throw cleanupIncomplete
    | .ok () =>
      modify ({ · with
        proof := .empty, requireIPv6 := false, configured := false, state := .killSwitchArmed })
      match ← call .removeKillSwitch with
      | .error _ =>
        modify ({ · with state := .degraded })
        throw cleanupIncomplete
      | .ok () => modify ({ · with killSwitchArmed := false, state := .stopped })

/-- The checks at the beginning of `Monitor`. -/
def Controller.monitorEntry (interval : Int) : Action Unit := do
  let c ← get
  if interval ≤ 0 ∨ maximumMonitorInterval < interval ∨ c.state ≠ .verified then
    throw invalidRequest
  else return ()

end PrivateVm.GuestVpn
