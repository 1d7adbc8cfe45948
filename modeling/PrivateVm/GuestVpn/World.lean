import PrivateVm.GuestVpn.Controller
import PrivateVm.Basic.Machine

set_option autoImplicit false

/-! # Runs of the guest VPN controller

An `Input` is a call of a method, each of which holds the lock throughout, or what a call of
`Monitor` does between two of them, so that the runs of this machine are all interleavings. The
parties outside are a parameter: `exec` says how they answer.
-/

namespace PrivateVm.GuestVpn

open Program

/-! ## The parts of a world -/

/-- A call of `Monitor`: waiting for its timer, about to report a loss, or returned. -/
inductive Loop where
  | waiting (ctx : Ctx)
  | responding (status : Status)
  | returned (error : Error)

/-- What a call of `Monitor` has done: a verification, which may have failed while the context
passed to `Monitor` was not done; a call of the hook; its return. -/
inductive Event where
  | verified (loop : Nat) (lost : Bool)
  | responded (loop : Nat) (status : Status)
  | returned (loop : Nat)
  deriving DecidableEq

structure World (H : Type) where
  controller : Controller
  outside : H
  loops : List Loop
  /-- What the calls of `Monitor` have done, the last first. -/
  events : List Event

inductive Input where
  | configure (ctx : Ctx) (now : Int)
  | verify (ctx : Ctx) (now : Int)
  | stop
  | monitor (ctx : Ctx) (interval : Int)
  /-- The timer of a loop fires; the verification begins and ends at these times. -/
  | tick (loop : Nat) (start finish : Int)
  /-- A loop sees that its context is done. -/
  | done (loop : Nat) (now : Int)
  /-- The hook is called, and returns. -/
  | respond (loop : Nat) (error : Option Error)

/-- An input, with what decides the answers to the calls made on it. -/
structure Move (X : Type) where
  input : Input
  answers : Nat → X

/-! ## Steps -/

section

variable {X H : Type} (exec : (o : Op) → X → H → o.Res × H)

def World.perform {α : Type} (w : World H) (answers : Nat → X) (m : Action α) :
    Except Error α × World H :=
  let o := Method.outcome exec answers m w.controller w.outside
  (o.1.1, { w with controller := o.1.2, outside := o.2 })

/-- A round of `Monitor`. The status passed to the hook is the one `Verify` returns. -/
def World.tick (w : World H) (answers : Nat → X) (i : Nat) (ctx : Ctx) (start finish : Int) :
    World H :=
  match w.perform exec answers (Controller.verify ctx start) with
  | (.ok (), w) => { w with events := .verified i false :: w.events }
  | (.error e, w) =>
    let events := .verified i (ctx.err finish).isNone :: w.events
    if isContextError e then
      { w with loops := w.loops.set i (.returned e), events := .returned i :: events }
    else
      { w with loops := w.loops.set i (.responding w.controller.status), events := events }

/-- What `Monitor` returns after the hook. -/
def responseError : Option Error → Error
  | some e => if isContextError e then e else tunnelLost
  | none => tunnelLost

def World.step (move : Move X) (w : World H) : World H :=
  match move.input with
  | .configure ctx now => (w.perform exec move.answers (Controller.configure ctx now)).2
  | .verify ctx now => (w.perform exec move.answers (Controller.verify ctx now)).2
  | .stop => (w.perform exec move.answers Controller.stop).2
  | .monitor ctx interval =>
    match w.perform exec move.answers (Controller.monitorEntry interval) with
    | (.ok (), w) => { w with loops := w.loops ++ [.waiting ctx] }
    | (.error e, w) => { w with loops := w.loops ++ [.returned e] }
  | .tick i start finish =>
    match w.loops[i]? with
    | some (.waiting ctx) => w.tick exec move.answers i ctx start finish
    | _ => w
  | .done i now =>
    match w.loops[i]? with
    | some (.waiting ctx) =>
      match ctx.err now with
      | some fault =>
        { w with
          loops := w.loops.set i (.returned (.cause fault))
          events := .returned i :: w.events }
      | none => w
    | _ => w
  | .respond i error =>
    match w.loops[i]? with
    | some (.responding status) =>
      { w with
        loops := w.loops.set i (.returned (responseError error))
        events := .returned i :: .responded i status :: w.events }
    | _ => w

/-- All runs of a controller that `newController` makes, with the parties outside as they are
at first. -/
def machine (fresh : H) : Machine (World H) (Move X) where
  init w := ∃ online policy underlay c, newController online policy underlay = .ok c ∧
    w = ⟨c, fresh, [], []⟩
  step := World.step exec

end

/-! ## A sample controller -/

def sampleController : Controller :=
  ⟨true, ⟨.downloader, false, true, false⟩, sampleUnderlay, .unconfigured, .empty, false, false,
    false, false⟩

theorem init_sample {X H : Type} (exec : (o : Op) → X → H → o.Res × H) (fresh : H) :
    (machine exec fresh).init ⟨sampleController, fresh, [], []⟩ :=
  ⟨true, sampleController.policy, sampleController.underlay, sampleController, rfl, rfl⟩

def background : Ctx := ⟨none, none⟩

end PrivateVm.GuestVpn
