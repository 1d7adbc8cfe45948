import PrivateVm.AppError
import PrivateVm.Basic.Netip
import PrivateVm.Session.Model

set_option autoImplicit false

/-! # The guest VPN model (`internal/guestvpn/model.go`, `errors.go`)

States, role policies, underlays, proofs and status reports of the guest VPN, its errors, and the
contexts that bound its operations. Formatting and serialisation of redacted values are left out.
-/

namespace PrivateVm.GuestVpn

open Netip

/-! ## Errors -/

inductive Sentinel where
  | invalidRequest
  | killSwitchFailed
  | configurationFailed
  | verificationFailed
  | tunnelLost
  | cleanupIncomplete
  deriving DecidableEq

abbrev Error := Err Sentinel

/-- Every error of the package itself is an application error, and none of these wraps an error
of a context. -/
def isContextError : Error → Bool
  | .cause fault => fault.isContextError
  | .app _ => false

def invalidRequest : Error :=
  .app ⟨"GUEST_VPN_REQUEST_INVALID", .network,
    "The guest VPN request is not valid for this role.",
    "Use the typed network workflow for a workstation, downloader, or scanner update boot.",
    .invalidRequest⟩

/-- The errors that pass on one of a context. -/
def passContext (e : AppError Sentinel) (cause : Error) : Error :=
  if isContextError cause then cause else .app e

def killSwitchFailed : Error → Error :=
  passContext ⟨"GUEST_KILL_SWITCH_FAILED", .network,
    "The guest kill switch could not be armed.",
    "Do not start guest applications; stop the guest and clean the session network.",
    .killSwitchFailed⟩

def configurationFailed : Error → Error :=
  passContext ⟨"GUEST_VPN_CONFIGURATION_FAILED", .network,
    "The guest WireGuard tunnel could not be configured.",
    "Keep the kill switch armed, stop the guest, and retry with a current Proton profile.",
    .configurationFailed⟩

def verificationError : AppError Sentinel :=
  ⟨"GUEST_VPN_VERIFICATION_FAILED", .network,
    "The guest VPN did not pass every required tunnel and bypass check.",
    "Keep the kill switch armed and do not start network applications; inspect redacted " ++
      "diagnostics and retry.", .verificationFailed⟩

/-- There is no cause when a proof is incomplete. -/
def verificationFailed : Option Error → Error
  | some cause => passContext verificationError cause
  | none => .app verificationError

def tunnelLost : Error :=
  .app ⟨"GUEST_VPN_TUNNEL_LOST", .network,
    "The verified guest VPN tunnel is no longer healthy.",
    "Keep the kill switch armed, pause network work, and reconnect or stop the session.",
    .tunnelLost⟩

def cleanupIncomplete : Error :=
  .app ⟨"GUEST_VPN_CLEANUP_INCOMPLETE", .cleanup,
    "The guest VPN resources were not completely removed.",
    "Keep the session in cleanup state and retry verified teardown before reuse.",
    .cleanupIncomplete⟩

/-! ## Contexts -/

/-- A context: when it will be cancelled and when its deadline is, in nanoseconds, if at all. -/
structure Ctx where
  canceledAt : Option Int
  deadline : Option Int
  deriving DecidableEq

def passed (moment : Option Int) (now : Int) : Bool := moment.any (· ≤ now)

/-- `ctx.Err()`: what ended the context first, if anything has. -/
def Ctx.err (ctx : Ctx) (now : Int) : Option Fault :=
  if passed ctx.canceledAt now then
    if ctx.deadline.any fun d => ctx.canceledAt.any (d ≤ ·) then some .deadlineExceeded
    else some .canceled
  else if passed ctx.deadline now then some .deadlineExceeded
  else none

def seconds (n : Int) : Int := n * 1000000000

def maximumOperationDuration : Int := seconds 30
def maximumMonitorInterval : Int := seconds 300

/-- The context with an earlier deadline, unless it has one that is earlier still. -/
def boundedContext (ctx : Ctx) (maximum now : Int) : Ctx :=
  match ctx.deadline with
  | some current =>
    if current < now + maximum then ctx else { ctx with deadline := some (now + maximum) }
  | none => { ctx with deadline := some (now + maximum) }

theorem Ctx.err_eq_none {ctx : Ctx} {now : Int} :
    ctx.err now = none ↔ passed ctx.canceledAt now = false ∧ passed ctx.deadline now = false := by
  unfold Ctx.err
  cases passed ctx.canceledAt now with
  | true =>
    simp
    split <;> simp
  | false => cases passed ctx.deadline now <;> simp

/-! ## States and policies -/

inductive State where
  | unconfigured
  | killSwitchArmed
  | configured
  | verified
  | degraded
  | stopped
  deriving DecidableEq

structure RolePolicy where
  role : Session.Role
  scannerUpdate : Bool
  requireTorrentBinding : Bool
  requireIPv6Tunnel : Bool
  deriving DecidableEq

def RolePolicy.validate (policy : RolePolicy) : Except Error Unit :=
  match policy.role with
  | .workstation => .ok ()
  | .downloader => if policy.requireTorrentBinding then .ok () else .error invalidRequest
  | .scanner =>
    if !policy.scannerUpdate || policy.requireTorrentBinding then .error invalidRequest
    else .ok ()
  | _ => .error invalidRequest

def underlayInterface : String := "eth0"
def tunnelInterface : String := "proton0"

structure Underlay where
  ipv4Address : Prefix
  ipv4Gateway : Addr
  ipv6Address : Prefix
  ipv6Gateway : Addr

def Underlay.validate (underlay : Underlay) : Except Error Unit :=
  if !underlay.ipv4Address.isValid || !underlay.ipv4Address.addr.is4 ||
      underlay.ipv4Address.length ≠ some 30 || !underlay.ipv4Gateway.is4 ||
      !underlay.ipv4Address.masked.contains underlay.ipv4Gateway ||
      !underlay.ipv6Address.isValid || !underlay.ipv6Address.addr.is6 ||
      underlay.ipv6Address.length ≠ some 126 || !underlay.ipv6Gateway.is6 ||
      !underlay.ipv6Address.masked.contains underlay.ipv6Gateway ||
      underlay.ipv4Address.addr = underlay.ipv4Gateway ||
      underlay.ipv6Address.addr = underlay.ipv6Gateway
  then .error invalidRequest
  else .ok ()

def sampleUnderlay : Underlay where
  ipv4Address := ⟨.v4 0x0A000002, some 30, by decide⟩
  ipv4Gateway := .v4 0x0A000001
  ipv6Address := ⟨.v6 0xFD000000000000000000000000000002 "", some 126, by decide⟩
  ipv6Gateway := .v6 0xFD000000000000000000000000000001 ""

example : sampleUnderlay.validate = .ok () := by decide

/-! ## Proofs and status reports -/

structure Proof where
  handshake : Bool
  dnsThroughTunnel : Bool
  dnsBypassBlocked : Bool
  ipv4ThroughTunnel : Bool
  ipv6ThroughTunnel : Bool
  ipv4BypassBlocked : Bool
  ipv6BypassBlocked : Bool
  torrentBound : Bool
  deriving DecidableEq

def Proof.empty : Proof := ⟨false, false, false, false, false, false, false, false⟩

def Proof.complete (proof : Proof) (requireIPv6 requireTorrent : Bool) : Bool :=
  proof.handshake && proof.dnsThroughTunnel && proof.dnsBypassBlocked &&
    proof.ipv4ThroughTunnel && proof.ipv4BypassBlocked && proof.ipv6BypassBlocked &&
    (!requireIPv6 || proof.ipv6ThroughTunnel) && (!requireTorrent || proof.torrentBound)

theorem Proof.ipv6_of_complete {proof : Proof} {requireTorrent : Bool}
    (h : proof.complete true requireTorrent = true) : proof.ipv6ThroughTunnel = true := by
  simp only [Proof.complete, Bool.and_eq_true] at h
  exact h.1.2

structure Status where
  schemaVersion : Nat
  state : State
  killSwitchArmed : Bool
  configured : Bool
  proof : Proof
  code : String
  remediation : String
  deriving DecidableEq

def State.code : State → String
  | .verified => "GUEST_VPN_VERIFIED"
  | .degraded => "GUEST_VPN_DEGRADED"
  | .killSwitchArmed | .configured => "GUEST_VPN_NOT_VERIFIED"
  | .stopped => "GUEST_VPN_STOPPED"
  | .unconfigured => "GUEST_VPN_UNCONFIGURED"

def State.remediation : State → String
  | .verified => "No action is required while continuous verification remains healthy."
  | .degraded =>
    "Keep the kill switch armed, pause network work, and reconnect or stop the session."
  | .killSwitchArmed | .configured =>
    "Do not start network applications until every VPN verification gate passes."
  | .stopped => "Configure and verify a new tunnel before starting network applications."
  | .unconfigured => "Configure and verify the guest VPN before starting network applications."

end PrivateVm.GuestVpn
