import PrivateVm.GuestVpn.Guest

set_option autoImplicit false

/-! # What the host accepts of a verified guest

The guest's controller, the message it sends (`downloader_vpn.go`) and the host's gate
(`guest_client.go`, `networked.go`) each have a condition on the proof of a tunnel. The gate asks
for version 6 through the tunnel, whether or not the profile has it (`host_accepts_iff`).
-/

namespace PrivateVm.GuestVpn

open Program Method Bool

/-! ## The host -/

/-- The message `VPNStatus`, without its diagnostics. -/
structure VPNStatus where
  configured : Bool
  proof : Proof

def protoVPNStatus (status : Status) : VPNStatus := ⟨status.configured, status.proof⟩

/-- `guestvpn.Status` as the host makes it: the state may be left empty. -/
structure HostStatus where
  schemaVersion : Nat
  state : Option State
  killSwitchArmed : Bool
  configured : Bool
  proof : Proof
  code : String

def vpnStatus (response : Option VPNStatus) (role : Session.Role) : HostStatus :=
  match response with
  | none => ⟨0, none, false, false, .empty, ""⟩
  | some ⟨configured, proof⟩ =>
    let result : HostStatus := ⟨1, none, configured, configured, proof, ""⟩
    if configured && proof.handshake && proof.dnsThroughTunnel && proof.dnsBypassBlocked &&
        proof.ipv4ThroughTunnel && proof.ipv4BypassBlocked && proof.ipv6BypassBlocked &&
        (role ≠ .downloader || proof.torrentBound) then
      { result with state := some .verified, code := "GUEST_VPN_VERIFIED" }
    else if configured then
      { result with state := some .configured, code := "GUEST_VPN_NOT_VERIFIED" }
    else result

def verifiedStatus (status : HostStatus) (role : Session.Role) : Bool :=
  let proof := status.proof
  let verified := status.schemaVersion = 1 && status.state = some .verified &&
    status.killSwitchArmed && status.configured && proof.handshake && proof.dnsThroughTunnel &&
    proof.dnsBypassBlocked && proof.ipv4ThroughTunnel && proof.ipv4BypassBlocked &&
    proof.ipv6ThroughTunnel && proof.ipv6BypassBlocked && status.code = "GUEST_VPN_VERIFIED"
  verified && (role ≠ .downloader || proof.torrentBound)

/-- The gate asks of a proof what the guest asks for a profile with version 6. -/
theorem verifiedStatus_vpnStatus (response : VPNStatus) (role : Session.Role) :
    verifiedStatus (vpnStatus (some response) role) role =
      (response.configured && response.proof.complete true (role = .downloader)) := by
  obtain ⟨configured, proof⟩ := response
  simp only [vpnStatus]
  split
  · rename_i h
    simp only [and_eq_true] at h
    simp [verifiedStatus, Proof.complete, h]
  · rename_i h
    -- the host does not call the status verified, and the proof is not complete
    have hinc : (configured && proof.complete true (role = .downloader)) = false := by
      rw [eq_false_iff]
      intro hcomp
      simp only [Proof.complete, and_eq_true] at hcomp
      exact h (by simp [hcomp])
    rw [hinc]
    split <;> simp [verifiedStatus]

/-! ## The guest -/

/-- What a verified controller has proved. -/
structure Honest (c : Controller) : Prop where
  torrent : c.policy.role = .downloader → c.policy.requireTorrentBinding = true
  proof : c.state = .verified → ∃ ipv6, c.proof.complete ipv6 c.policy.requireTorrentBinding = true

variable {c c' : Controller} {log log' : List Entry}

theorem Honest.of_state (h : Honest c) (hpol : c'.policy = c.policy)
    (hst : c'.state ≠ .verified) : Honest c' :=
  ⟨hpol ▸ h.torrent, fun hver => absurd hver hst⟩

theorem Ended.policy (h : Ended c log c' log') : c'.policy = c.policy := by
  cases h <;> rfl

theorem Detached.policy (h : Detached c log c' log') :
    c'.policy = c.policy ∧ c'.state = c.state := by
  cases h <;> exact ⟨rfl, rfl⟩

theorem Attempt.honest (hatt : Attempt c log c' log') (h : Honest c) : Honest c' := by
  cases hatt with
  | startFailed _ hdet =>
    obtain ⟨hpol, hst⟩ := hdet.policy
    exact h.of_state hpol (by simp [hst])
  | unproved _ _ hbegun hdet =>
    obtain ⟨hpol, hst⟩ := hdet.policy
    cases hbegun <;> exact h.of_state hpol (by simp [hst])
  | proved proof hbegun hcomp =>
    cases hbegun <;> exact ⟨h.torrent, fun _ => ⟨_, hcomp⟩⟩

theorem Turn.honest {i} (hturn : Turn i c log c' log') (h : Honest c) : Honest c' := by
  cases hturn with
  | quiet | inspectFailed | idleStopFailed => exact h
  | armFailed => exact ⟨h.torrent, h.proof⟩
  | tunnelFailed | stopOnlineFailed => exact h.of_state rfl (by simp)
  | configured _ _ hatt => exact hatt.honest (h.of_state rfl (by simp))
  | attempted _ _ hatt => exact hatt.honest h
  | idleStopped _ hend | removeTunnelFailed _ hend | removeKillSwitchFailed _ hend
  | stopped _ hend => exact h.of_state hend.policy (by simp [Controller.unproven])

theorem newController_honest {online policy underlay}
    (h : newController online policy underlay = .ok c) : Honest c := by
  obtain ⟨hst, -, hval⟩ := newController_fresh h
  refine ⟨fun hrole => ?_, fun hver => by simp [hst] at hver⟩
  by_contra hbind
  simp [RolePolicy.validate, hrole, hbind] at hval

/-- **The host accepts a verified tunnel** just when the controller is still configured, which it
is not after a `Stop` that failed to remove the kill switch, and its proof shows version 6 through
the tunnel. -/
theorem host_accepts_iff {X H : Type} {run : (o : Op) → X → H → o.Res × H} {view : H → List Entry}
    (href : Refines exec run view) {fresh : H} {w : World H}
    (h : (machine run fresh).Reachable (Machine.free _ _) w)
    (hstate : w.controller.state = .verified) :
    verifiedStatus (vpnStatus (some (protoVPNStatus w.controller.status)) w.controller.policy.role)
        w.controller.policy.role = true ↔
      w.controller.configured = true ∧ w.controller.proof.ipv6ThroughTunnel = true := by
  have hhon : Honest w.controller := by
    refine h.inv (P := fun w => Honest w.controller) ?_ fun move v _ hv => ?_
    · rintro _ ⟨online, policy, underlay, c, hnew, rfl⟩
      exact newController_honest hnew
    · exact (World.step_turn href move v).honest hv
  obtain ⟨ipv6, hcomp⟩ := hhon.proof hstate
  have htorr : w.controller.policy.role = .downloader → w.controller.proof.torrentBound = true := by
    intro hrole
    rw [hhon.torrent hrole] at hcomp
    simp only [Proof.complete, and_eq_true] at hcomp
    simpa using hcomp.2
  simp only [Proof.complete, and_eq_true] at hcomp
  rw [verifiedStatus_vpnStatus, and_eq_true]
  refine and_congr_right fun _ => ?_
  simp only [protoVPNStatus, Controller.status, Proof.complete, and_eq_true]
  constructor
  · intro hacc
    exact hacc.1.2
  · intro hthr
    exact ⟨⟨hcomp.1.1, hthr⟩, by simpa [or_iff_not_imp_left] using htorr⟩

theorem host_accepts_sample :
    let w := (machine guestExec .fresh).play [(Input.configure background 0).working] sampleWorld
    verifiedStatus (vpnStatus (some (protoVPNStatus w.controller.status)) .downloader) .downloader =
      true := by
  intro w
  have hreach : (machine guestExec .fresh).Reachable (Machine.free _ _) w :=
    Machine.reachable_play_free _ (init_sample guestExec .fresh)
  exact (host_accepts_iff guest_refines hreach (by decide +kernel)).2 (by decide +kernel)

/-- An input on which all goes well, with a profile that has no version 6. -/
def Input.workingIPv4 (i : Input) : Move GuestAnswer :=
  ⟨i, fun _ => { sampleGuestAnswer with answer := ⟨none, false, .empty⟩ }⟩

/-- **A verified tunnel is refused.** The profile has no version 6 and every probe finds what it
should: the controller of a downloader is verified, and the host takes its status for that of an
unverified tunnel. -/
theorem verified_tunnel_refused :
    ∃ w, (machine guestExec .fresh).Reachable (Machine.free _ _) w ∧
      w.controller.state = .verified ∧ w.controller.configured = true ∧
      w.controller.proof.complete w.controller.requireIPv6 true = true ∧
      verifiedStatus (vpnStatus (some (protoVPNStatus w.controller.status)) .downloader)
        .downloader = false := by
  refine ⟨_, Machine.reachable_play_free [(Input.configure background 0).workingIPv4]
    (init_sample guestExec .fresh), ?_⟩
  decide +kernel

end PrivateVm.GuestVpn
