import PrivateVm.GuestVpn.Model

set_option autoImplicit false

/-! # The verifier (`internal/guestvpn/verifier.go`)

`ControlledVerifier.Verify` runs its probes one after the other, and stops at the first that
fails or gives the wrong answer. What is returned for an error of a probe is the error of the
operation's context when that is done by then, and otherwise an error without a meaning. The
targets of the probes are checked when the verifier is built, and are left out.
-/

namespace PrivateVm.GuestVpn

/-- The answer of a probe: its value, whether there was an error with it, and the time. -/
structure Reply where
  value : Bool
  failed : Bool
  time : Int
  deriving DecidableEq

/-- The answers of all probes of one verification, which begins at `start`. Those that are not
run have no effect. -/
structure Probes where
  start : Int
  handshake : Reply
  dnsTunnel : Reply
  dnsBypassBlocked : Bool
  tunnelIPv4 : Reply
  underlayIPv4 : Reply
  tunnelIPv6 : Reply
  underlayIPv6 : Reply
  torrent : Reply
  deriving DecidableEq

def maximumVerificationDuration : Int := seconds 30

def probeFailed (ctx : Ctx) (now : Int) : Error :=
  match ctx.err now with
  | some fault => .cause fault
  | none => .cause .other

/-- A probe in a verification: when it fails the verification ends with an error, when its value
is not the one asked for it ends without, and otherwise it goes on. -/
def Reply.proceed (reply : Reply) (ctx : Ctx) (good : Bool) (proof : Proof)
    (next : Proof × Option Error) : Proof × Option Error :=
  if reply.failed then (proof, some (probeFailed ctx reply.time))
  else if !good then (proof, none)
  else next

/-- The last probe, of the binding of the torrent client. -/
def verifyTorrent (ctx : Ctx) (policy : RolePolicy) (probes : Probes) (proof : Proof) :
    Proof × Option Error :=
  if policy.role = .downloader then
    let proof := { proof with torrentBound := probes.torrent.value }
    if probes.torrent.failed then (proof, some (probeFailed ctx probes.torrent.time))
    else (proof, none)
  else (proof, none)

/-- A probe of the underlay, which must not be reachable. Its value enters the proof only when
the probe has not failed. -/
def Reply.blocked (reply : Reply) : Bool := !reply.failed && !reply.value

/-- The probes of version 6; the tunnel is probed only when the profile enables it. -/
def verifyIPv6 (ctx : Ctx) (policy : RolePolicy) (probes : Probes) (proof : Proof) :
    Proof × Option Error :=
  let underlay := fun proof : Proof =>
    let proof := { proof with ipv6BypassBlocked := probes.underlayIPv6.blocked }
    probes.underlayIPv6.proceed ctx probes.underlayIPv6.blocked proof
      (verifyTorrent ctx policy probes proof)
  if policy.requireIPv6Tunnel then
    let proof := { proof with ipv6ThroughTunnel := probes.tunnelIPv6.value }
    probes.tunnelIPv6.proceed ctx probes.tunnelIPv6.value proof (underlay proof)
  else underlay proof

def verifyIPv4 (ctx : Ctx) (policy : RolePolicy) (probes : Probes) (proof : Proof) :
    Proof × Option Error :=
  let proof := { proof with ipv4ThroughTunnel := probes.tunnelIPv4.value }
  probes.tunnelIPv4.proceed ctx probes.tunnelIPv4.value proof <|
  let proof := { proof with ipv4BypassBlocked := probes.underlayIPv4.blocked }
  probes.underlayIPv4.proceed ctx probes.underlayIPv4.blocked proof <|
  verifyIPv6 ctx policy probes proof

/-- The verification, with the proof as far as it has come, and its error. -/
def controlledVerify (ctx : Ctx) (policy : RolePolicy) (probes : Probes) : Proof × Option Error :=
  match policy.validate with
  | .error e => (.empty, some e)
  | .ok () =>
    let operationCtx := boundedContext ctx maximumVerificationDuration probes.start
    let proof := { Proof.empty with handshake := probes.handshake.value }
    probes.handshake.proceed operationCtx probes.handshake.value proof <|
    let proof :=
      { proof with
        dnsThroughTunnel := probes.dnsTunnel.value
        dnsBypassBlocked := probes.dnsBypassBlocked }
    probes.dnsTunnel.proceed operationCtx (probes.dnsTunnel.value && probes.dnsBypassBlocked)
      proof <|
    verifyIPv4 operationCtx policy probes proof

/-! ## A probe that fails too late -/

/-- The probes in their order, each with whether the verification goes on after it. -/
def Probes.sequence (policy : RolePolicy) (probes : Probes) : List (Reply × Bool) :=
  [(probes.handshake, probes.handshake.value),
    (probes.dnsTunnel, probes.dnsTunnel.value && probes.dnsBypassBlocked),
    (probes.tunnelIPv4, probes.tunnelIPv4.value),
    (probes.underlayIPv4, probes.underlayIPv4.blocked)] ++
  (if policy.requireIPv6Tunnel then [(probes.tunnelIPv6, probes.tunnelIPv6.value)] else []) ++
  (probes.underlayIPv6, probes.underlayIPv6.blocked) ::
  (if policy.role = .downloader then [(probes.torrent, true)] else [])

/-- The first probe that fails does so when a context is done. -/
def failsLate (ctx : Ctx) : List (Reply × Bool) → Bool
  | [] => false
  | (reply, goes) :: rest =>
    if reply.failed then (ctx.err reply.time).isSome else goes && failsLate ctx rest

/-- A probe fails after the deadline that the verification sets itself. -/
def Probes.late (ctx : Ctx) (policy : RolePolicy) (probes : Probes) : Bool :=
  policy.validate.isOk &&
    failsLate (boundedContext ctx maximumVerificationDuration probes.start)
      (probes.sequence policy)

theorem isContextError_probeFailed (ctx : Ctx) (now : Int) :
    isContextError (probeFailed ctx now) = (ctx.err now).isSome := by
  unfold probeFailed Ctx.err
  split_ifs <;> rfl

theorem Reply.any_proceed (reply : Reply) (ctx : Ctx) (good : Bool) (proof : Proof)
    (next : Proof × Option Error) :
    (reply.proceed ctx good proof next).2.any isContextError =
      if reply.failed then (ctx.err reply.time).isSome
      else good && next.2.any isContextError := by
  unfold Reply.proceed
  cases reply.failed with
  | true => exact isContextError_probeFailed ctx reply.time
  | false => cases good <;> rfl

theorem any_verifyTorrent (ctx : Ctx) (policy : RolePolicy) (probes : Probes) (proof : Proof) :
    (verifyTorrent ctx policy probes proof).2.any isContextError =
      failsLate ctx (if policy.role = .downloader then [(probes.torrent, true)] else []) := by
  unfold verifyTorrent
  split_ifs with _ hfail
  · rw [failsLate, if_pos hfail]
    exact isContextError_probeFailed ctx _
  · rw [failsLate, if_neg hfail]
    rfl
  · rfl

/-- **A verification fails with an error of a context** just if a probe fails too late. -/
theorem any_controlledVerify (ctx : Ctx) (policy : RolePolicy) (probes : Probes) :
    (controlledVerify ctx policy probes).2.any isContextError = probes.late ctx policy := by
  unfold controlledVerify Probes.late
  cases hpol : policy.validate with
  | error e =>
    have hinv : isContextError e = false := by
      unfold RolePolicy.validate at hpol
      split at hpol
      · cases hpol
      · split at hpol <;> cases hpol
        rfl
      · split at hpol <;> cases hpol
        rfl
      · cases hpol
        rfl
    exact hinv
  | ok =>
    cases hipv6 : policy.requireIPv6Tunnel <;>
      simp [Reply.any_proceed, verifyIPv4, verifyIPv6, any_verifyTorrent, Probes.sequence,
        failsLate, hipv6, Except.isOk, Except.toBool]

end PrivateVm.GuestVpn
