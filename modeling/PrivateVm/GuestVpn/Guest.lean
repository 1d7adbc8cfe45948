import PrivateVm.GuestVpn.LinuxBackend
import PrivateVm.GuestVpn.Turns
import PrivateVm.GuestVpn.Verifier

set_option autoImplicit false

/-! # The guest: controller, Linux backend and verifier together

The history keeps with every call the commands run or the probes made for it. `guest_refines` says
that the guest is one of the outsides that the controller's own model allows.
-/

namespace PrivateVm.GuestVpn

open Program Method

/-! ## The guest -/

/-- A call of the controller, with the commands run for it or the probes made. -/
structure Record where
  entry : Entry
  runs : List Run
  probes : Option Probes
  deriving DecidableEq

structure Guest where
  host : Host
  /-- The calls of the controller, the last one first. -/
  records : List Record

def Guest.fresh : Guest := ⟨.fresh, []⟩

/-- What decides the answer to a call: that of the other parties, how commands end, and what the
probes answer. -/
structure GuestAnswer where
  answer : Answer
  endings : Nat → Ending
  probes : Probes

def Guest.callBackend (g : Guest) (call : BackendCall) (entry : Except Error Unit → Entry)
    (x : GuestAnswer) : Except Error Unit × Guest :=
  let o := g.host.perform call x.endings
  (o.1, ⟨o.2.2, ⟨entry o.1, o.2.1, none⟩ :: g.records⟩)

def Guest.note (g : Guest) (entry : Entry) (probes : Option Probes) : Guest :=
  ⟨g.host, ⟨entry, [], probes⟩ :: g.records⟩

def guestExec : (o : Op) → GuestAnswer → Guest → o.Res × Guest
  | .armKillSwitch, x, g => g.callBackend .armKillSwitch .armKillSwitch x
  | .configureTunnel underlay, x, g =>
    g.callBackend (.configureTunnel underlay) .configureTunnel x
  | .removeTunnel, x, g => g.callBackend .removeTunnel .removeTunnel x
  | .removeKillSwitch, x, g => g.callBackend .removeKillSwitch .removeKillSwitch x
  | .verify ctx policy, x, g =>
    let r := controlledVerify ctx policy x.probes
    (r, g.note (.verify r.1 r.2) (some x.probes))
  | .inspect, x, g =>
    (Op.answer .inspect x.answer, g.note (.inspect (Op.answer .inspect x.answer)) none)
  | .setup, x, g => (x.answer.result (), g.note (.setup (x.answer.result ())) none)
  | .onlineStart, x, g => (x.answer.result (), g.note (.onlineStart (x.answer.result ())) none)
  | .onlineStop, x, g => (x.answer.result (), g.note (.onlineStop (x.answer.result ())) none)

def Guest.log (g : Guest) : List Entry := g.records.map Record.entry

/-- Any result of a call is one of the answers. -/
theorem exists_result (r : Except Error Unit) : ∃ x : Answer, x.result () = r := by
  cases r with
  | ok => exact ⟨⟨none, false, .empty⟩, rfl⟩
  | error e => exact ⟨⟨some e, false, .empty⟩, rfl⟩

/-- **The guest refines** the parties that may answer anything. -/
theorem guest_refines : Refines exec guestExec Guest.log := by
  intro o x g
  cases o with
  | armKillSwitch | configureTunnel underlay | removeTunnel | removeKillSwitch =>
    obtain ⟨a, ha⟩ := exists_result (g.host.perform _ x.endings).1
    refine ⟨a, ?_⟩
    simp only [exec, Op.answer, ha]
    rfl
  | verify ctx policy =>
    let r := controlledVerify ctx policy x.probes
    exact ⟨⟨r.2, false, r.1⟩, rfl⟩
  | _ => exact ⟨x.answer, rfl⟩

/-! ## Sample runs -/

/-- Probes that find everything as it should be. -/
def sampleProbes : Probes :=
  let good : Reply := ⟨true, false, 0⟩
  let blocked : Reply := ⟨false, false, 0⟩
  ⟨0, good, good, true, good, blocked, good, blocked, good⟩

def sampleGuestAnswer : GuestAnswer :=
  ⟨⟨none, true, .empty⟩, fun _ => ⟨none, false⟩, sampleProbes⟩

def Input.working (i : Input) : Move GuestAnswer := ⟨i, fun _ => sampleGuestAnswer⟩

def sampleWorld : World Guest := ⟨sampleController, .fresh, [], []⟩

end PrivateVm.GuestVpn
