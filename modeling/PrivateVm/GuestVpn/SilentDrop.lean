import PrivateVm.GuestVpn.Probes

set_option autoImplicit false

/-! # A kill switch that drops silently

The kill switch drops what it does not accept, so that a connection over the underlay is not
refused: the attempt lasts until the deadline of its probe. The probe then returns the error of its
context, and the verification an error without a meaning (`silent_drop_unrecognised`).
-/

namespace PrivateVm.GuestVpn

open Netip Checked

/-! ## The probes -/

variable {ctx : Ctx}

theorem boundedContext_expired {maximum start now : Int} (hlive : ctx.err now = none)
    (hpass : start + maximum ≤ now) :
    (boundedContext ctx maximum start).err now = some .deadlineExceeded := by
  obtain ⟨hcanc, hdl⟩ := Ctx.err_eq_none.1 hlive
  have hboun : boundedContext ctx maximum start =
      { ctx with deadline := some (start + maximum) } := by
    unfold boundedContext
    cases hd : ctx.deadline with
    | none => rfl
    | some current =>
      have hlater : now < current := by simpa [passed, hd] using hdl
      exact if_neg (by omega)
  have hreac : passed (some (start + maximum)) now = true := by simpa [passed] using hpass
  rw [hboun, Ctx.err]
  simp [hcanc, hreac]

/-- The probe of connections gives an answer only when there is a connection, or there is an
error in time. -/
theorem reachable_eq_ok {interfaceName target d b}
    (h : reachable ctx interfaceName target d = .ok b) : d.result = .connected ∧ b = true ∨
      d.result = .failed ∧ (d.probeCtx ctx).err d.time = none ∧ b = false := by
  simp only [reachable, bind_eq_ok] at h
  obtain ⟨-, -, -, -, h⟩ := h
  cases hres : d.result with
  | connected =>
    simp only [dialBoundTCP, hres, pure_eq_ok] at h
    exact .inl ⟨rfl, h.symm⟩
  | bindFailed =>
    simp only [dialBoundTCP, hres] at h
    split at h <;> cases h
  | failed =>
    cases herr : (d.probeCtx ctx).err d.time with
    | none =>
      simp only [dialBoundTCP, hres, herr, pure_eq_ok] at h
      exact .inr ⟨rfl, rfl, h.symm⟩
    | some =>
      simp only [dialBoundTCP, hres, herr] at h
      cases h

section

variable {result : Except Error Bool} {time : Int}

theorem Reply.time_of : (Reply.of result time).time = time := by
  cases result <;> rfl

theorem Reply.blocked_of : (Reply.of result time).blocked = true ↔ result = .ok false := by
  cases result with
  | error e | ok => simp [Reply.of, Reply.blocked]

theorem Reply.good_of :
    (Reply.of result time).failed = false ∧ (Reply.of result time).value = true ↔
      result = .ok true := by
  cases result with
  | error e | ok => simp [Reply.of]

end

variable {lower : Char → Char} {hostname : List Char} {r : Resolver}

/-- A lookup over the underlay is reported as blocked only when it gave no usable answer. -/
theorem tunnelAndBypass_blocked {index : Int} (hidx : r.underlayIndex = some index)
    (h : (tunnelAndBypass lower ctx hostname r).1.2 = true) :
    resolveOnLink index r.underlay ≠ .ok true := by
  intro hans
  simp only [tunnelAndBypass] at h
  split at h
  · cases h
  split at h
  · cases h
  split at h
  · rename_i underlayIndex _ hund
    obtain rfl : index = underlayIndex := Option.some.inj (hidx.symm.trans hund)
    split at h
    · cases h
    split at h
    · cases h
    split at h
    · cases h
    · cases h
    -- only here does the underlay count
    split at h
    · cases h
    · rw [hans] at h
      cases h
  · cases h

/-- The names can be looked up over the tunnel. -/
structure NamesReached (lower : Char → Char) (ctx : Ctx) (hostname : List Char) (r : Resolver)
    (i j : Int) : Prop where
  hostname : ¬ (hostname.length = 0 ∨ 253 < hostname.length ∨
    ¬ probeDomainPattern (Hostname.trimSuffix '.' (hostname.map lower)))
  begun : (r.operationCtx ctx).err r.start = none
  tunnelIndex : r.tunnelIndex = some i
  underlayIndex : r.underlayIndex = some j
  indices : ¬ (i ≤ 0 ∨ j ≤ 0 ∨ j = i)
  connected : r.connected = true
  answered : resolveOnLink i r.tunnel = .ok true

/-- A lookup over the underlay without an answer counts as blocked if it ends in time. -/
theorem NamesReached.tunnelAndBypass {i j : Int} (h : NamesReached lower ctx hostname r i j)
    (hund : r.underlay.reply = none) : tunnelAndBypass lower ctx hostname r =
      match (r.operationCtx ctx).err r.underlay.time with
      | some fault => ((true, false), some (.cause fault))
      | none => ((true, true), none) := by
  simp only [GuestVpn.tunnelAndBypass]
  rw [if_neg h.hostname, h.begun, h.tunnelIndex, h.underlayIndex]
  simp only
  rw [if_neg h.indices, if_neg (by simp [h.connected]), h.answered]
  have hnone : resolveOnLink j r.underlay = .error (.cause .other) := by
    unfold resolveOnLink
    rw [hund]
  cases (r.operationCtx ctx).err r.underlay.time with
  | none => simp [hnone]
  | some => rfl

/-! ## The verification -/

section

variable {ctx : Ctx} {policy : RolePolicy} {probes : Probes} {proof : Proof} {reply : Reply}
  {good : Bool} {next : Proof × Option Error}

/-- What holds of the proof as it is and as it becomes holds of the result of a probe. -/
theorem Reply.proceed_fst {P : Proof → Prop} (hproof : P proof) (hnext : P next.1) :
    P (reply.proceed ctx good proof next).1 := by
  unfold Reply.proceed
  split
  · exact hproof
  · split
    · exact hproof
    · exact hnext

theorem Reply.proceed_of_failed (hfail : reply.failed = true) :
    reply.proceed ctx good proof next = (proof, some (probeFailed ctx reply.time)) := if_pos hfail

theorem Reply.proceed_of_good (hfail : reply.failed = false) (hgood : good = true) :
    reply.proceed ctx good proof next = next := by
  rw [Reply.proceed, hfail, hgood]
  rfl

/-- When the connection over the underlay is probed, and the probe fails while the verification
is live, the verification ends with an error without a meaning. -/
theorem controlledVerify_underlay_failed (hpol : policy.validate = .ok ())
    (hhand : probes.handshake.failed = false ∧ probes.handshake.value = true)
    (hdns : probes.dnsTunnel.failed = true ∨
      probes.dnsTunnel.failed = false ∧ (probes.dnsTunnel.value && probes.dnsBypassBlocked) = true)
    (htun : probes.tunnelIPv4.failed = false ∧ probes.tunnelIPv4.value = true)
    (hfail : probes.underlayIPv4.failed = true)
    (hlive : (boundedContext ctx maximumVerificationDuration probes.start).err
      probes.dnsTunnel.time = none)
    (hlive' : (boundedContext ctx maximumVerificationDuration probes.start).err
      probes.underlayIPv4.time = none) :
    (controlledVerify ctx policy probes).2 = some (.cause .other) ∧
      (controlledVerify ctx policy probes).1.ipv4BypassBlocked = false ∧
      (controlledVerify ctx policy probes).1.ipv6BypassBlocked = false := by
  simp only [controlledVerify, hpol]
  rw [Reply.proceed_of_good hhand.1 hhand.2]
  rcases hdns with hdns | ⟨hdns, hbloc⟩
  · rw [Reply.proceed_of_failed hdns, probeFailed, hlive]
    exact ⟨rfl, rfl, rfl⟩
  · rw [Reply.proceed_of_good hdns hbloc, verifyIPv4,
      Reply.proceed_of_good htun.1 htun.2, Reply.proceed_of_failed hfail, probeFailed,
      hlive']
    exact ⟨rfl, by simp [Reply.blocked, hfail], rfl⟩

/-- What a proof reports as blocked was so when it was probed. -/
structure Backed (probes : Probes) (proof : Proof) : Prop where
  dns : proof.dnsBypassBlocked = true → probes.dnsBypassBlocked = true
  ipv4 : proof.ipv4BypassBlocked = true → probes.underlayIPv4.blocked = true
  ipv6 : proof.ipv6BypassBlocked = true → probes.underlayIPv6.blocked = true

theorem verifyIPv6_backed (h : Backed probes proof) :
    Backed probes (verifyIPv6 ctx policy probes proof).1 := by
  -- the value probed over the underlay enters the proof
  have hund : ∀ proof, Backed probes proof →
      Backed probes (probes.underlayIPv6.proceed ctx probes.underlayIPv6.blocked
        { proof with ipv6BypassBlocked := probes.underlayIPv6.blocked }
        (verifyTorrent ctx policy probes
          { proof with ipv6BypassBlocked := probes.underlayIPv6.blocked })).1 := by
    intro proof h
    refine Reply.proceed_fst ⟨h.dns, h.ipv4, id⟩ ?_
    unfold verifyTorrent
    split
    · split <;> exact ⟨h.dns, h.ipv4, id⟩
    · exact ⟨h.dns, h.ipv4, id⟩
  unfold verifyIPv6
  split
  · exact Reply.proceed_fst ⟨h.dns, h.ipv4, h.ipv6⟩
      (hund { proof with ipv6ThroughTunnel := probes.tunnelIPv6.value } ⟨h.dns, h.ipv4, h.ipv6⟩)
  · exact hund proof h

theorem controlledVerify_backed : Backed probes (controlledVerify ctx policy probes).1 := by
  have hnot : ∀ {P : Prop}, false = true → P := fun h => by cases h
  unfold controlledVerify
  split
  · exact ⟨hnot, hnot, hnot⟩
  · refine Reply.proceed_fst ⟨hnot, hnot, hnot⟩ ?_
    refine Reply.proceed_fst ⟨id, hnot, hnot⟩ ?_
    refine Reply.proceed_fst ⟨id, hnot, hnot⟩ ?_
    exact Reply.proceed_fst ⟨id, id, hnot⟩ (verifyIPv6_backed ⟨id, id, hnot⟩)

end

/-! ## Networks -/

section

variable {lower : Char → Char} {targets : ProbeTargets} {ctx : Ctx} {policy : RolePolicy}
  {n : Network}

/-- A network in which all goes well over the tunnel, and what is sent over the underlay is
dropped: a lookup has no answer, and a connection does not come about until the deadline of its
probe, when the verification is still live. -/
structure Dropping (lower : Char → Char) (targets : ProbeTargets) (ctx : Ctx)
    (policy : RolePolicy) (n : Network) : Prop where
  targetsValid : targets.validate lower = .ok ()
  policyValid : policy.validate = .ok ()
  handshake : n.handshake.failed = false ∧ n.handshake.value = true
  names : ∃ i j, NamesReached lower (n.operationCtx ctx) targets.dnsName n.resolver i j
  tunnel : ∀ target, (n.dial tunnelInterface target).interfaceExists = true ∧
    (n.dial tunnelInterface target).result = .connected
  unanswered : n.resolver.underlay.reply = none
  dropped : ∀ target, (n.dial underlayInterface target).interfaceExists = true ∧
    (n.dial underlayInterface target).result = .failed ∧
    (n.dial underlayInterface target).start + maximumConnectProbe ≤
      (n.dial underlayInterface target).time
  live : (n.operationCtx ctx).err n.resolver.time = none ∧
    ∀ target, (n.operationCtx ctx).err (n.dial underlayInterface target).time = none

/-- The probe of a connection that is dropped ends with an error. -/
theorem Dropping.underlay_failed (h : Dropping lower targets ctx policy n) (target : AddrPort) :
    (n.connectivity (n.operationCtx ctx) underlayInterface target).failed = true := by
  obtain ⟨-, hres, hpass⟩ := h.dropped target
  have hexp : ((n.dial underlayInterface target).probeCtx (n.operationCtx ctx)).err
      (n.dial underlayInterface target).time = some .deadlineExceeded :=
    boundedContext_expired (h.live.2 target) hpass
  unfold Network.connectivity
  cases hreac : reachable (n.operationCtx ctx) underlayInterface target
      (n.dial underlayInterface target) with
  | error => rfl
  | ok =>
    rcases reachable_eq_ok hreac with ⟨hconn, -⟩ | ⟨-, hlive, -⟩
    · cases hres.symm.trans hconn
    · cases hexp.symm.trans hlive

variable {target : AddrPort}

namespace Dropping

variable (h : Dropping lower targets ctx policy n)

include h

theorem tunnel_good (htgt : target.isValid = true) :
    (n.connectivity (n.operationCtx ctx) tunnelInterface target).failed = false ∧
      (n.connectivity (n.operationCtx ctx) tunnelInterface target).value = true := by
  obtain ⟨hexists, hconn⟩ := h.tunnel target
  refine Reply.good_of.2 ?_
  simp [reachable, htgt, hexists, dialBoundTCP, hconn]

theorem ipv4_valid : targets.ipv4.isValid = true := by
  have hval := failIf_eq_ok.1 h.targetsValid
  by_contra hnot
  exact hval (by simp [safeProbeTarget, hnot])

/-- The verification ends with an error, at the lookup or at the connection of version 4. -/
theorem verify :
    (verify lower targets ctx policy n).2 = some (.cause .other) ∧
      (verify lower targets ctx policy n).1.ipv4BypassBlocked = false ∧
      (verify lower targets ctx policy n).1.ipv6BypassBlocked = false := by
  obtain ⟨i, j, hnames⟩ := h.names
  have hdns := hnames.tunnelAndBypass h.unanswered
  have htime : (n.probes lower (n.operationCtx ctx) targets).underlayIPv4.time =
      (n.dial underlayInterface targets.ipv4).time := Reply.time_of
  rw [GuestVpn.verify, h.targetsValid]
  refine controlledVerify_underlay_failed h.policyValid h.handshake ?_ (h.tunnel_good h.ipv4_valid)
    (h.underlay_failed targets.ipv4) h.live.1 (htime ▸ h.live.2 targets.ipv4)
  cases herr : (n.resolver.operationCtx (n.operationCtx ctx)).err n.resolver.underlay.time with
  | some =>
    rw [herr] at hdns
    exact .inl (by simp [Network.probes, hdns])
  | none =>
    rw [herr] at hdns
    exact .inr (by simp [Network.probes, hdns])

end Dropping

/-- What the verification reports as blocked was so when it was probed. -/
theorem verify_backed :
    Backed (n.probes lower (n.operationCtx ctx) targets) (verify lower targets ctx policy n).1 := by
  unfold verify
  split
  · exact ⟨by rintro ⟨⟩, by rintro ⟨⟩, by rintro ⟨⟩⟩
  · exact controlledVerify_backed

/-- A connection that is reported as blocked did not come about. -/
theorem not_connected_of_blocked
    (h : (n.connectivity (n.operationCtx ctx) underlayInterface target).blocked = true) :
    (n.dial underlayInterface target).result ≠ .connected := by
  rcases reachable_eq_ok (Reply.blocked_of.1 h) with ⟨-, hfalse⟩ | ⟨hres, -, -⟩
  · cases hfalse
  · rw [hres]
    rintro ⟨⟩

/-- **A kill switch that drops silently is not recognised.** In every network in which all goes
well over the tunnel and what is sent over the underlay is dropped, the verification ends with an
error, and reports neither of the two bypasses as blocked. In any network it does not report as
blocked what was reached. -/
theorem silent_drop_unrecognised (lower : Char → Char) (targets : ProbeTargets) (ctx : Ctx)
    (policy : RolePolicy) (n : Network) :
    (Dropping lower targets ctx policy n →
      (verify lower targets ctx policy n).2 = some (.cause .other) ∧
      (verify lower targets ctx policy n).1.ipv4BypassBlocked = false ∧
      (verify lower targets ctx policy n).1.ipv6BypassBlocked = false) ∧
    ((verify lower targets ctx policy n).1.ipv4BypassBlocked = true →
      (n.dial underlayInterface targets.ipv4).result ≠ .connected) ∧
    ((verify lower targets ctx policy n).1.ipv6BypassBlocked = true →
      (n.dial underlayInterface targets.ipv6).result ≠ .connected) ∧
    ((verify lower targets ctx policy n).1.dnsBypassBlocked = true →
      ∀ index, n.resolver.underlayIndex = some index →
        resolveOnLink index n.resolver.underlay ≠ .ok true) := by
  have hback : Backed (n.probes lower (n.operationCtx ctx) targets)
      (verify lower targets ctx policy n).1 := verify_backed
  refine ⟨Dropping.verify, ?_, ?_, ?_⟩
  · exact fun h => not_connected_of_blocked (hback.ipv4 h)
  · exact fun h => not_connected_of_blocked (hback.ipv6 h)
  · exact fun h index hidx => tunnelAndBypass_blocked hidx (hback.dns h)

end

/-! ## A sample network -/

def sampleTargets : ProbeTargets :=
  ⟨"probe.example".toList, ⟨.v4 0xb99f9d01, 443⟩, ⟨.v6 0x2a070000000000000000000000000001 "", 443⟩⟩

/-- A connection over the underlay is given up after five seconds. -/
def sampleDial (interfaceName : String) : Dial :=
  if interfaceName = tunnelInterface then ⟨true, seconds 2, .connected, seconds 3⟩
  else ⟨true, seconds 3, .failed, seconds 8⟩

def sampleNetwork : Network where
  start := 0
  handshake := ⟨true, false, 0⟩
  resolver :=
    { start := 0, tunnelIndex := some 3, underlayIndex := some 2, connected := true
      connectTime := 0
      tunnel := ⟨some ([⟨3, afInet, [185, 159, 157, 1]⟩], resolvedProtocolDNS), seconds 1⟩
      underlay := ⟨none, seconds 2⟩
      time := seconds 2 }
  dial interfaceName _ := sampleDial interfaceName
  torrent := ⟨true, false, seconds 14⟩

def samplePolicy : RolePolicy := ⟨.workstation, false, false, false⟩

theorem dropping_sampleNetwork :
    Dropping id sampleTargets ⟨none, none⟩ samplePolicy sampleNetwork where
  targetsValid := by decide +kernel
  policyValid := rfl
  handshake := ⟨rfl, rfl⟩
  names := ⟨3, 2, by decide +kernel, by decide +kernel, rfl, rfl, by decide +kernel, rfl,
    by decide +kernel⟩
  tunnel _ := ⟨rfl, rfl⟩
  unanswered := rfl
  dropped _ := ⟨rfl, rfl, show (sampleDial underlayInterface).start + maximumConnectProbe ≤
    (sampleDial underlayInterface).time by decide +kernel⟩
  live := ⟨by decide +kernel, fun _ => show (sampleNetwork.operationCtx ⟨none, none⟩).err
    (sampleDial underlayInterface).time = none by decide +kernel⟩

theorem silent_drop_unrecognised_sample :
    (verify id sampleTargets ⟨none, none⟩ samplePolicy sampleNetwork).2 = some (.cause .other) :=
  ((silent_drop_unrecognised id sampleTargets ⟨none, none⟩ samplePolicy sampleNetwork).1
    dropping_sampleNetwork).1

/-- The proof of the sample network stops before the bypass of version 4. -/
theorem bypass_unproved :
    Dropping id sampleTargets ⟨none, none⟩ samplePolicy sampleNetwork ∧
      verify id sampleTargets ⟨none, none⟩ samplePolicy sampleNetwork =
        (⟨true, true, true, true, false, false, false, false⟩, some (.cause .other)) :=
  ⟨dropping_sampleNetwork, by decide +kernel⟩

end PrivateVm.GuestVpn
