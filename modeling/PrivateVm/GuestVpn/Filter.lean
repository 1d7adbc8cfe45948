import PrivateVm.Basic.Nft
import PrivateVm.GuestVpn.Guest

set_option autoImplicit false

/-! # The table of the kill switch (`internal/guestvpn/policy.go`)

The rules that `ArmKillSwitch` loads, and the guest with the table of its kernel in place of a
flag for it. The rules admit the endpoint of the profile; each step of a run has its own.
-/

namespace PrivateVm.GuestVpn

open Program Method Netip Nft Checked

/-! ## The rules -/

def guestCommandInputLimit : Nat := 64 * 1024

def neighborRule (interface : Match) : Rule where
  conditions := [interface, .l4proto [.icmpv6], .icmpv6Type [.ndNeighborSolicit, .ndNeighborAdvert]]
  verdict := some .accept

def endpointRule (address : Addr) (port : UInt16) : Rule where
  conditions := [.oifname [underlayInterface],
    .daddr (if address.is6 then .ipv6 else .ipv4) address, .udpDport port]
  verdict := some .accept

def inputRules : List Rule :=
  [{ conditions := [.iifname ["lo"]], verdict := some .accept },
   { conditions := [.ctState [.established, .related]], verdict := some .accept },
   { conditions := [.iifname [tunnelInterface]], verdict := some .accept },
   neighborRule (.iifname [underlayInterface])]

def outputRules (address : Addr) (port : UInt16) : List Rule :=
  [{ conditions := [.oifname ["lo"]], verdict := some .accept },
   { conditions := [.oifname [tunnelInterface]], verdict := some .accept },
   neighborRule (.oifname [underlayInterface]),
   endpointRule address port]

/-- The table `private_vm_guest` with given rules for input and output. -/
def guestTable (input output : List Rule) : Table where
  name := "private_vm_guest"
  chains :=
    [{ name := "input", type := .filter, hook := .input, priority := { base := .filter }
       policy := .drop, rules := input },
     { name := "forward", type := .filter, hook := .forward, priority := { base := .filter }
       policy := .drop, rules := [] },
     { name := "output", type := .filter, hook := .output, priority := { base := .filter }
       policy := .drop, rules := output }]

def killSwitchTable (address : Addr) (port : UInt16) : Table :=
  guestTable inputRules (outputRules address port)

/-- The length of a text, each line of which ends with a line feed. -/
def textLength (lines : List String) : Nat := (lines.map (·.utf8ByteSize + 1)).sum

def killSwitchRules (address : Addr) (port : UInt16) : Except Error Table := do
  failIf (¬ address.isValid ∨ address.is4In6 ∨ port = 0) invalidRequest
  failIf (guestCommandInputLimit < textLength (killSwitchTable address port).lines) invalidRequest
  return killSwitchTable address port

/-- The endpoint of a profile, for which the rules can be made. -/
@[ext]
structure Endpoint where
  address : Addr
  port : UInt16
  accepted : killSwitchRules address port = .ok (killSwitchTable address port)

variable (e : Endpoint)

def Endpoint.table : Table := killSwitchTable e.address e.port

/-! ## The commands -/

def admitted (rule : Rule) : Option (Addr × UInt16) :=
  match rule.conditions with
  | [_, .daddr _ address, .udpDport port] => some (address, port)
  | _ => none

def endpoints (table : Option Table) : List (Addr × UInt16) :=
  table.toList.flatMap fun t => t.chains.flatMap fun chain => chain.rules.filterMap admitted

def Command.filter : Command → Option Table → Option Table
  | .nftLoad, table => some (load e.table table)
  | .deleteTable, _ => none
  | _, table => table

/-- What is asked of the commands of a run: rules that are loaded successfully find no table with
the endpoint of another profile, and a deletion that fails has had no effect. -/
def orderly (x : Ending) (table : Option Table) : Command → Bool
  | .nftLoad => x.error.isSome || (endpoints table).all (· = (e.address, e.port))
  | .deleteTable => x.error.isNone || !x.tookEffect
  | _ => true

/-- The shell with the table, and a mark that all commands so far were orderly. -/
structure FilterShell where
  shell : Shell
  table : Option Table
  fine : Bool

def execFilter (command : Command) (x : Ending) (sh : FilterShell) :
    Except Error Unit × FilterShell :=
  let r := execCommand command x sh.shell
  (r.1,
    { shell := r.2
      table := if x.error = none ∨ x.tookEffect then command.filter e sh.table else sh.table
      fine := sh.fine && orderly e x sh.table command })

/-! ## The guest -/

/-- The guest with its table, the mark, and the endpoint for which the kill switch was last
armed. -/
structure FilterGuest where
  guest : Guest
  table : Option Table
  fine : Bool
  last : Option Endpoint

def FilterGuest.fresh : FilterGuest := ⟨.fresh, none, true, none⟩

variable (g : FilterGuest)

def FilterGuest.log : List Entry := g.guest.log

def FilterGuest.perform (e : Endpoint) (call : BackendCall)
    (endings : Nat → Ending) : (Except Error Unit × LinuxBackend) × FilterShell :=
  Method.outcome (execFilter e) endings call.method g.guest.host.backend
    ⟨⟨g.guest.host.kernel, []⟩, g.table, g.fine⟩

def FilterGuest.callBackend (e : Endpoint) (call : BackendCall)
    (entry : Except Error Unit → Entry) (x : GuestAnswer) : Except Error Unit × FilterGuest :=
  let o := g.perform e call x.endings
  (o.1.1,
    { guest := ⟨⟨o.1.2, o.2.shell.kernel⟩, ⟨entry o.1.1, o.2.shell.runs, none⟩ :: g.guest.records⟩
      table := o.2.table
      fine := o.2.fine
      last := match call, o.1.1 with
        | .armKillSwitch, .ok () => some e
        | _, _ => g.last })

def FilterGuest.lift {α : Type} (r : α × Guest) : α × FilterGuest :=
  (r.1, { g with guest := r.2 })

/-- A call of the controller, with the endpoint of the profile that is being configured. -/
def filterExec : (o : Op) → GuestAnswer → FilterGuest → o.Res × FilterGuest
  | .armKillSwitch, x, g => g.callBackend e .armKillSwitch .armKillSwitch x
  | .configureTunnel underlay, x, g =>
    g.callBackend e (.configureTunnel underlay) .configureTunnel x
  | .removeTunnel, x, g => g.callBackend e .removeTunnel .removeTunnel x
  | .removeKillSwitch, x, g => g.callBackend e .removeKillSwitch .removeKillSwitch x
  | .inspect, x, g => g.lift (guestExec .inspect x g.guest)
  | .setup, x, g => g.lift (guestExec .setup x g.guest)
  | .onlineStart, x, g => g.lift (guestExec .onlineStart x g.guest)
  | .onlineStop, x, g => g.lift (guestExec .onlineStop x g.guest)
  | .verify ctx policy, x, g => g.lift (guestExec (.verify ctx policy) x g.guest)

/-- A call of the backend is the one without the table. -/
theorem FilterGuest.perform_view (e : Endpoint) (call : BackendCall) (endings : Nat → Ending) :
    g.guest.host.perform call endings =
      ((g.perform e call endings).1.1, (g.perform e call endings).2.shell.runs,
        ⟨(g.perform e call endings).1.2, (g.perform e call endings).2.shell.kernel⟩) := by
  have hview sh :
      Method.outcome execCommand endings call.method g.guest.host.backend sh.shell =
        ((Method.outcome (execFilter e) endings call.method g.guest.host.backend sh).1,
          (Method.outcome (execFilter e) endings call.method g.guest.host.backend sh).2.shell) :=
    outcome_view (fun _ _ _ => rfl) endings call.method g.guest.host.backend sh
  simp only [Host.perform, FilterGuest.perform]
  rw [hview ⟨⟨g.guest.host.kernel, []⟩, g.table, g.fine⟩]

/-- **The guest with its table** is the guest with something added. -/
theorem filter_view (o : Op) (x : GuestAnswer) (g : FilterGuest) :
    guestExec o x g.guest = ((filterExec e o x g).1, (filterExec e o x g).2.guest) := by
  cases o with
  | armKillSwitch | configureTunnel underlay | removeTunnel | removeKillSwitch =>
    simp only [guestExec, filterExec, Guest.callBackend, FilterGuest.callBackend, g.perform_view e]
  | _ => rfl

theorem filter_refines : Refines exec (filterExec e) FilterGuest.log := by
  intro o x g
  obtain ⟨a, ha⟩ := guest_refines o x g.guest
  rw [filter_view e] at ha
  exact ⟨a, ha⟩

end PrivateVm.GuestVpn
