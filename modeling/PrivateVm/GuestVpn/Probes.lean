import PrivateVm.Basic.Hostname
import PrivateVm.GuestVpn.Verifier

set_option autoImplicit false

/-! # The probes (`internal/guestvpn/probes.go`, `internal/guestvpn/resolved_probe.go`)

Each probe has a deadline of its own, within that of the verification, so that an attempt which is
not answered until then ends with an error, like one that the caller has cancelled. A `Network`
says how every attempt ends and when. What `unicode.ToLower` does to a character is a parameter.
-/

namespace PrivateVm.GuestVpn

open Netip Checked

def maximumConnectProbe : Int := seconds 5
def resolvedTimeout : Int := seconds 10

/-- The timeout of a probe, which is at most the maximum. -/
def effectiveTimeout (timeout maximum : Int) : Int :=
  if timeout ≤ 0 ∨ maximum < timeout then maximum else timeout

/-! ## Connections bound to an interface -/

/-- How `DialContext` ends: with a connection, because the socket could not be bound, or with
another error. -/
inductive DialResult where
  | connected
  | bindFailed
  | failed
  deriving DecidableEq

/-- An attempt to connect: whether there is the interface, when the probe starts, and how and
when it ends. -/
structure Dial where
  interfaceExists : Bool
  start : Int
  result : DialResult
  time : Int
  deriving DecidableEq

def dialBoundTCP (ctx : Ctx) (d : Dial) : Except Error Bool :=
  match d.result with
  | .connected => .ok true
  | .bindFailed => .error (.cause .other)
  | .failed =>
    match ctx.err d.time with
    | some fault => .error (.cause fault)
    | none => .ok false

def Dial.probeCtx (ctx : Ctx) (d : Dial) : Ctx :=
  boundedContext ctx (effectiveTimeout maximumConnectProbe maximumConnectProbe) d.start

def reachable (ctx : Ctx) (interfaceName : String) (target : AddrPort) (d : Dial) :
    Except Error Bool := do
  failIf (interfaceName ≠ tunnelInterface ∧ interfaceName ≠ underlayInterface ∨ ¬ target.isValid)
    invalidRequest
  failIf (¬ d.interfaceExists) (.cause .other)
  match dialBoundTCP (d.probeCtx ctx) d with
  | .ok reachable => return reachable
  | .error _ =>
    match (d.probeCtx ctx).err d.time with
    | some fault => throw (.cause fault)
    | none => throw (.cause .other)

/-! ## Names looked up over a link -/

def resolvedProtocolDNS : UInt64 := 1
def maximumDNSAnswers : Nat := 16
def afInet : Int := 2
def afInet6 : Int := 10

structure ResolvedAnswer where
  interface : Int
  family : Int
  address : List UInt8
  deriving DecidableEq

/-- A call of `ResolveHostname`: its answers and flags, or nothing for an error, and the time. -/
structure Lookup where
  reply : Option (List ResolvedAnswer × UInt64)
  time : Int
  deriving DecidableEq

/-- An answer of the link with a public address. -/
def ResolvedAnswer.usable (index : Int) (answer : ResolvedAnswer) : Bool :=
  answer.interface = index &&
    match addrFromSlice answer.address with
    | none => false
    | some address =>
      (answer.family = afInet && address.is4 ||
        answer.family = afInet6 && address.is6 && !address.is4In6) &&
      address.isGlobalUnicast && !address.isPrivate && !address.isLoopback &&
      !address.isLinkLocalUnicast

def resolveOnLink (index : Int) (lookup : Lookup) : Except Error Bool :=
  match lookup.reply with
  | none => .error (.cause .other)
  | some (answers, flags) =>
    if answers.length = 0 ∨ maximumDNSAnswers < answers.length ∨
        flags &&& resolvedProtocolDNS = 0 then .ok false
    else .ok (answers.all (·.usable index))

/-- What the probe of names meets: when it starts and returns, the indices of the two links, the
connection to the resolver, and the two lookups. -/
structure Resolver where
  start : Int
  tunnelIndex : Option Int
  underlayIndex : Option Int
  connected : Bool
  connectTime : Int
  tunnel : Lookup
  underlay : Lookup
  time : Int
  deriving DecidableEq

def Resolver.operationCtx (ctx : Ctx) (r : Resolver) : Ctx :=
  boundedContext ctx (effectiveTimeout resolvedTimeout resolvedTimeout) r.start

/-- `normalizeResolvedError`, and `normalizeResolvedProbeError` when there was an error. -/
def normalizeResolvedError (ctx : Ctx) (now : Int) : Error :=
  match ctx.err now with
  | some fault => .cause fault
  | none => .cause .other

variable (lower : Char → Char)

/-- `probeDomainPattern`: a name, perhaps with a point at its end. -/
def probeDomainPattern (domain : List Char) : Bool :=
  Hostname.isName (Hostname.trimSuffix '.' domain)

def tunnelAndBypass (ctx : Ctx) (hostname : List Char) (r : Resolver) :
    (Bool × Bool) × Option Error :=
  let ctx := r.operationCtx ctx
  if hostname.length = 0 ∨ 253 < hostname.length ∨
      ¬ probeDomainPattern (Hostname.trimSuffix '.' (hostname.map lower)) then
    ((false, false), some invalidRequest)
  else match ctx.err r.start with
  | some fault => ((false, false), some (.cause fault))
  | none =>
  match r.tunnelIndex, r.underlayIndex with
  | some tunnelIndex, some underlayIndex =>
    if tunnelIndex ≤ 0 ∨ underlayIndex ≤ 0 ∨ underlayIndex = tunnelIndex then
      ((false, false), some (.cause .other))
    else if ¬ r.connected then
      ((false, false), some (normalizeResolvedError ctx r.connectTime))
    else match resolveOnLink tunnelIndex r.tunnel with
    | .error _ => ((false, false), some (normalizeResolvedError ctx r.tunnel.time))
    | .ok false => ((false, false), (ctx.err r.tunnel.time).map .cause)
    | .ok true =>
      match ctx.err r.underlay.time with
      | some fault => ((true, false), some (.cause fault))
      | none =>
        match resolveOnLink underlayIndex r.underlay with
        | .error _ => ((true, true), none)
        | .ok underlayOK => ((true, !underlayOK), none)
  | _, _ => ((false, false), some (.cause .other))

/-! ## The verification of a network -/

structure ProbeTargets where
  dnsName : List Char
  ipv4 : AddrPort
  ipv6 : AddrPort

def safeProbeTarget (target : AddrPort) (ipv4 : Bool) : Bool :=
  target.isValid && target.port != 0 && !target.addr.is4In6 && target.addr.isGlobalUnicast &&
    !target.addr.isPrivate && !target.addr.isLoopback && !target.addr.isLinkLocalUnicast &&
    target.addr.is4 = ipv4

def ProbeTargets.validate (targets : ProbeTargets) : Except Error Unit :=
  let domain := (Hostname.trimSuffix '.' targets.dnsName).map lower
  failIf (domain.length = 0 ∨ 253 < domain.length ∨ ¬ probeDomainPattern domain ∨
    ¬ safeProbeTarget targets.ipv4 true ∨ ¬ safeProbeTarget targets.ipv6 false) invalidRequest

/-- How every attempt of a verification ends. -/
structure Network where
  start : Int
  handshake : Reply
  resolver : Resolver
  dial : String → AddrPort → Dial
  torrent : Reply

/-- The answer of a probe that returns a value or an error. -/
def Reply.of (result : Except Error Bool) (time : Int) : Reply :=
  match result with
  | .ok value => ⟨value, false, time⟩
  | .error _ => ⟨false, true, time⟩

def Network.connectivity (n : Network) (ctx : Ctx) (interfaceName : String) (target : AddrPort) :
    Reply :=
  .of (reachable ctx interfaceName target (n.dial interfaceName target))
    (n.dial interfaceName target).time

def Network.probes (n : Network) (ctx : Ctx) (targets : ProbeTargets) : Probes :=
  let dns := tunnelAndBypass lower ctx targets.dnsName n.resolver
  { start := n.start
    handshake := n.handshake
    dnsTunnel := ⟨dns.1.1, dns.2.isSome, n.resolver.time⟩
    dnsBypassBlocked := dns.1.2
    tunnelIPv4 := n.connectivity ctx tunnelInterface targets.ipv4
    underlayIPv4 := n.connectivity ctx underlayInterface targets.ipv4
    tunnelIPv6 := n.connectivity ctx tunnelInterface targets.ipv6
    underlayIPv6 := n.connectivity ctx underlayInterface targets.ipv6
    torrent := n.torrent }

def Network.operationCtx (n : Network) (ctx : Ctx) : Ctx :=
  boundedContext ctx maximumVerificationDuration n.start

def verify (targets : ProbeTargets) (ctx : Ctx) (policy : RolePolicy) (n : Network) :
    Proof × Option Error :=
  match targets.validate lower with
  | .error e => (.empty, some e)
  | .ok () => controlledVerify ctx policy (n.probes lower (n.operationCtx ctx) targets)

end PrivateVm.GuestVpn
