import PrivateVm.GuestVpn.LinuxBackend

set_option autoImplicit false

/-! # Teardown of the guest tunnel

The backend remembers in two flags whether the link and the table may be there. When commands
behave normally, repeating `RemoveTunnel` and `RemoveKillSwitch` succeeds and leaves neither,
exactly if both flags agree with the kernel (`removal_converges`). After a failed `ip link add` the
tunnel can never be removed (`removal_stuck`).
-/

namespace PrivateVm.GuestVpn

open Program Method

/-! ## Normal behaviour -/

/-- A command behaves normally: deletions fail exactly when there is nothing to delete, the DNS
settings of a link can be cleared while there is one, and the rest succeeds. -/
def normal (command : Command) (x : Ending) (sh : Shell) : Bool :=
  match command with
  | .linkDelete => x.error.isSome == !sh.kernel.link
  | .deleteTable => x.error.isSome == !sh.kernel.table
  | .dnsClear => x.error.isNone || !sh.kernel.link
  | _ => x.error.isNone

structure RoundEndings where
  tunnel : Nat → Ending
  killSwitch : Nat → Ending

/-- `RemoveTunnel` followed by `RemoveKillSwitch`: whether both succeeded, and what they leave. -/
def Host.round (s : Host) (x : RoundEndings) : Bool × Host :=
  let o₁ := s.perform .removeTunnel x.tunnel
  let o₂ := o₁.2.2.perform .removeKillSwitch x.killSwitch
  (o₁.1.isOk && o₂.1.isOk, o₂.2.2)

def Host.normalCall (s : Host) (c : BackendCall) (endings : Nat → Ending) : Bool :=
  Method.along execCommand normal endings c.method s.backend ⟨s.kernel, []⟩

def Host.normalRound (s : Host) (x : RoundEndings) : Bool :=
  s.normalCall .removeTunnel x.tunnel &&
    (s.perform .removeTunnel x.tunnel).2.2.normalCall .removeKillSwitch x.killSwitch

/-- The host after `n` rounds. -/
def Host.rounds (s : Host) (xs : Nat → RoundEndings) : Nat → Host
  | 0 => s
  | n + 1 => ((s.rounds xs n).round (xs n)).2

/-- However commands behave, normally, some round succeeds and leaves neither link nor table. -/
def Host.Converges (s : Host) : Prop :=
  ∀ xs, (∀ n, (s.rounds xs n).normalRound (xs n) = true) →
    ∃ n, ((s.rounds xs n).round (xs n)).1 = true ∧ (s.rounds xs (n + 1)).kernel = ⟨false, false⟩

/-- The flags say what is there. -/
def Host.Agrees (s : Host) : Prop :=
  s.backend.tunnel = s.kernel.link ∧ s.backend.killArmed = s.kernel.table

/-! ## A round -/

section

variable {backend : LinuxBackend} {sh : Shell}

/-- What `RemoveTunnel` then does: it removes the link when the flag is right, and otherwise
changes nothing, and succeeds only if it did not try. -/
structure TunnelRemoved (backend : LinuxBackend) (k : Kernel) (r : Except Error Unit)
    (backend' : LinuxBackend) (k' : Kernel) : Prop where
  killSwitch : backend'.killArmed = backend.killArmed ∧ k'.table = k.table
  right : backend.tunnel = k.link → r = .ok () ∧ backend'.tunnel = false ∧ k'.link = false
  wrong : backend.tunnel ≠ k.link →
    backend'.tunnel = backend.tunnel ∧ k'.link = k.link ∧ (r = .ok () → backend.tunnel = false)

theorem removeTunnel_normal :
    Along execCommand normal LinuxBackend.removeTunnel
      (fun r backend' sh' => TunnelRemoved backend sh.kernel r backend' sh'.kernel) backend sh := by
  refine along_get_bind ?_
  split
  · rename_i hnone
    have hnone : backend.tunnel = false := by simpa using hnone
    refine along_pure ⟨⟨rfl, rfl⟩, fun heq => ⟨rfl, hnone, ?_⟩, fun _ => ⟨rfl, rfl, fun _ => hnone⟩⟩
    exact heq.symm.trans hnone
  · rename_i htun
    have htun : backend.tunnel = true := by simpa using htun
    have hsame : ∀ x, (execCommand .dnsClear x sh).2.kernel = sh.kernel := execCommand_still rfl
    refine along_ask_bind ?_ ?_
    · intro x hx hok
      refine along_ask_bind ?_ ?_
      · -- the link was there
        intro y hy hok'
        have hlink : sh.kernel.link = true := by
          simpa [normal, hok', hsame] using hy
        refine along_modify ?_
        rw [execCommand_effect hok', hsame]
        exact ⟨⟨rfl, rfl⟩, fun _ => ⟨rfl, rfl, rfl⟩, absurd (htun.trans hlink.symm)⟩
      · intro y e hy herr
        have hlink : sh.kernel.link = false := by
          simpa [normal, herr, hsame] using hy
        -- with or without effect, a link that is not there is not deleted
        rw [execCommand_still (by rw [Command.effect, hsame, ← hlink]), hsame]
        refine ⟨⟨rfl, rfl⟩, fun heq => ?_, fun _ => ⟨rfl, rfl, by rintro ⟨⟩⟩⟩
        cases htun.symm.trans (heq.trans hlink)
    · intro x e hx herr
      have hlink : sh.kernel.link = false := by
        simpa [normal, herr] using hx
      rw [hsame]
      refine ⟨⟨rfl, rfl⟩, fun heq => ?_, fun _ => ⟨rfl, rfl, by rintro ⟨⟩⟩⟩
      cases htun.symm.trans (heq.trans hlink)

/-- What `RemoveKillSwitch` does: with the tunnel flag set it fails, and otherwise it does for the
table what `RemoveTunnel` does for the link. -/
structure KillSwitchRemoved (backend : LinuxBackend) (k : Kernel) (r : Except Error Unit)
    (backend' : LinuxBackend) (k' : Kernel) : Prop where
  tunnel : backend'.tunnel = backend.tunnel ∧ k'.link = k.link
  right : backend.tunnel = false → backend.killArmed = k.table →
    r = .ok () ∧ backend'.killArmed = false ∧ k'.table = false
  wrong : backend.killArmed ≠ k.table →
    backend'.killArmed = backend.killArmed ∧ k'.table = k.table ∧
      (r = .ok () → backend.killArmed = false)

theorem removeKillSwitch_normal :
    Along execCommand normal LinuxBackend.removeKillSwitch
      (fun r backend' sh' => KillSwitchRemoved backend sh.kernel r backend' sh'.kernel)
      backend sh := by
  refine along_get_bind ?_
  split
  · rename_i htun
    refine along_throw ⟨⟨rfl, rfl⟩, fun hnone => ?_, fun _ => ⟨rfl, rfl, by rintro ⟨⟩⟩⟩
    cases htun.symm.trans hnone
  split
  · rename_i huna
    have huna : backend.killArmed = false := by simpa using huna
    refine along_pure ⟨⟨rfl, rfl⟩, fun _ heq => ?_, fun _ => ⟨rfl, rfl, fun _ => huna⟩⟩
    exact ⟨rfl, huna, heq.symm.trans huna⟩
  · rename_i harmed
    have harmed : backend.killArmed = true := by simpa using harmed
    refine along_ask_bind ?_ ?_
    · intro x hx hok
      have htab : sh.kernel.table = true := by simpa [normal, hok] using hx
      refine along_modify ?_
      rw [execCommand_effect hok]
      exact ⟨⟨rfl, rfl⟩, fun _ _ => ⟨rfl, rfl, rfl⟩, absurd (harmed.trans htab.symm)⟩
    · intro x e hx herr
      have htab : sh.kernel.table = false := by simpa [normal, herr] using hx
      rw [execCommand_still (by rw [Command.effect, ← htab])]
      refine ⟨⟨rfl, rfl⟩, fun _ heq => ?_, fun _ => ⟨rfl, rfl, by rintro ⟨⟩⟩⟩
      cases harmed.symm.trans (heq.trans htab)

end

variable {s : Host} {x : RoundEndings}

theorem Host.normalRound_spec (h : s.normalRound x = true) :
    ∃ (r₁ : Except Error Unit) (s₁ : Host) (r₂ : Except Error Unit),
      TunnelRemoved s.backend s.kernel r₁ s₁.backend s₁.kernel ∧
      KillSwitchRemoved s₁.backend s₁.kernel r₂ (s.round x).2.backend (s.round x).2.kernel ∧
      (s.round x).1 = (r₁.isOk && r₂.isOk) := by
  obtain ⟨h₁, h₂⟩ := Bool.and_eq_true_iff.1 h
  exact ⟨_, _, _, removeTunnel_normal.outcome h₁, removeKillSwitch_normal.outcome h₂, rfl⟩

/-- **One normal round**, when the flags agree with the kernel. -/
theorem Host.round_of_agrees (hs : s.Agrees) (h : s.normalRound x = true) :
    (s.round x).1 = true ∧ (s.round x).2.kernel = ⟨false, false⟩ := by
  obtain ⟨r₁, s₁, r₂, h₁, h₂, hrnd⟩ := normalRound_spec h
  obtain ⟨rfl, htun, hlink⟩ := h₁.right hs.1
  have harmed : s₁.backend.killArmed = s₁.kernel.table := by
    rw [h₁.killSwitch.1, h₁.killSwitch.2]
    exact hs.2
  obtain ⟨rfl, -, htab⟩ := h₂.right htun harmed
  exact ⟨hrnd, congrArg₂ Kernel.mk (h₂.tunnel.2.trans hlink) htab⟩

/-- **One normal round**, when they do not: they still do not, and it has not succeeded in
removing both. -/
theorem Host.round_of_not_agrees (hs : ¬ s.Agrees) (h : s.normalRound x = true) :
    ¬ (s.round x).2.Agrees ∧ ¬ ((s.round x).1 = true ∧ (s.round x).2.kernel = ⟨false, false⟩) := by
  obtain ⟨r₁, s₁, r₂, h₁, h₂, hrnd⟩ := normalRound_spec h
  have hok : (s.round x).1 = true → r₁ = .ok () ∧ r₂ = .ok () := by
    intro hok
    obtain ⟨hok₁, hok₂⟩ := Bool.and_eq_true_iff.1 (hrnd.symm.trans hok)
    exact ⟨Checked.isOk_eq_true.1 hok₁, Checked.isOk_eq_true.1 hok₂⟩
  by_cases htun : s.backend.tunnel = s.kernel.link
  · -- the table is the trouble, and neither call touches it
    have hwrong : s₁.backend.killArmed ≠ s₁.kernel.table := by
      rw [h₁.killSwitch.1, h₁.killSwitch.2]
      exact fun harmed => hs ⟨htun, harmed⟩
    obtain ⟨harmed, htab, huna⟩ := h₂.wrong hwrong
    constructor
    · intro hagr
      refine hwrong ?_
      rw [← harmed, ← htab]
      exact hagr.2
    · rintro ⟨hsuccess, hclean⟩
      refine hwrong ?_
      rw [huna (hok hsuccess).2, ← htab, hclean]
  · obtain ⟨hsame, hlink, hnone⟩ := h₁.wrong htun
    obtain ⟨hsame', hlink'⟩ := h₂.tunnel
    constructor
    · intro hagr
      refine htun ?_
      rw [← hsame, ← hlink, ← hsame', ← hlink']
      exact hagr.1
    · rintro ⟨hsuccess, hclean⟩
      refine htun ?_
      rw [hnone (hok hsuccess).1, ← hlink, ← hlink', hclean]

/-! ## Convergence -/

/-- How normal commands end on a host when the DNS settings can always be cleared. -/
def Host.obliging (s : Host) : RoundEndings where
  tunnel n := ⟨if n = 1 ∧ s.kernel.link = false then some (.cause .other) else none, false⟩
  killSwitch _ := ⟨if s.kernel.table = false then some (.cause .other) else none, false⟩

theorem Host.normalRound_obliging (s : Host) : s.normalRound s.obliging = true := by
  rcases s with ⟨⟨_ | _, _ | _⟩, ⟨_ | _, _ | _⟩⟩ <;> rfl

def Host.obliged (s : Host) : Nat → Host
  | 0 => s
  | n + 1 => ((s.obliged n).round (s.obliged n).obliging).2

theorem Host.rounds_obliged (s : Host) (n : Nat) :
    s.rounds (fun n => (s.obliged n).obliging) n = s.obliged n := by
  induction n with
  | zero => rfl
  | succ n ih => rw [rounds, ih, obliged]

/-- **Removal converges** exactly if the flags agree with the kernel. -/
theorem Host.converges_iff (s : Host) : s.Converges ↔ s.Agrees := by
  constructor
  · intro hconv
    by_contra hs
    -- the flags never come to agree, so no round is the last
    have hnorm : ∀ n, (s.rounds (fun n => (s.obliged n).obliging) n).normalRound
        (s.obliged n).obliging = true := by
      intro n
      rw [s.rounds_obliged]
      exact normalRound_obliging _
    have hnever : ∀ n, ¬ (s.rounds (fun n => (s.obliged n).obliging) n).Agrees := by
      intro n
      induction n with
      | zero => exact hs
      | succ n ih => exact (round_of_not_agrees ih (hnorm n)).1
    obtain ⟨n, hn⟩ := hconv _ hnorm
    exact (round_of_not_agrees (hnever n) (hnorm n)).2 hn
  · intro hs xs hnorm
    exact ⟨0, round_of_agrees hs (hnorm 0)⟩

/-! ## Histories in which the flags agree -/

/-- A command does not lie about the kernel: one that adds the link has added it even if it
fails, and the others that matter have done nothing if they fail. -/
def truthful (command : Command) (x : Ending) (_ : Shell) : Bool :=
  match command with
  | .linkAdd => x.error.isNone || x.tookEffect
  | .nftLoad | .linkDelete | .deleteTable => x.error.isNone || !x.tookEffect
  | _ => true

def truthfulCall (move : BackendMove) (s : Host) : Bool :=
  Method.along execCommand truthful move.endings move.call.method s.backend ⟨s.kernel, []⟩

section

variable {backend : LinuxBackend} {sh : Shell} {command : Command} {x : Ending}

/-- A command that must not take effect when it fails. -/
theorem execCommand_failed {e} (herr : x.error = some e)
    (hx : (x.error.isNone || !x.tookEffect) = true) (sh : Shell) :
    (execCommand command x sh).2.kernel = sh.kernel := by
  refine if_neg ?_
  rintro (hnone | heff)
  · cases herr.symm.trans hnone
  · rw [herr, heff] at hx
    cases hx

/-- A command that takes effect unless it fails, and the flag for it. -/
theorem agree_settle {set : LinuxBackend → LinuxBackend} (h : Host.Agrees ⟨backend, sh.kernel⟩)
    (hx : (x.error.isNone || !x.tookEffect) = true)
    (hset : Host.Agrees ⟨set backend, command.effect sh.kernel⟩) :
    Host.Agrees ⟨x.settle set backend, (execCommand command x sh).2.kernel⟩ := by
  cases herr : x.error with
  | none => rwa [Ending.settle, if_pos herr, execCommand_effect herr]
  | some e => rwa [Ending.settle, if_neg (by simp [herr]), execCommand_failed herr hx]

theorem agree_preserved :
    Preserved execCommand truthful fun backend sh => Host.Agrees ⟨backend, sh.kernel⟩ where
  answers _ _ _ := rfl
  still hstill x _ _ h := by rwa [execCommand_still (hstill _) x]
  added x _ sh hx h := by
    -- the link is added whether or not the command fails
    have heff : (execCommand .linkAdd x sh).2.kernel = Command.effect .linkAdd sh.kernel :=
      if_pos (by simpa [truthful] using hx)
    rw [heff]
    exact ⟨rfl, h.2⟩
  deleted _ _ _ hx h := agree_settle h hx ⟨rfl, h.2⟩

theorem removeKillSwitch_agrees (h : Host.Agrees ⟨backend, sh.kernel⟩) :
    Along execCommand truthful LinuxBackend.removeKillSwitch
      (fun _ backend sh => Host.Agrees ⟨backend, sh.kernel⟩) backend sh := by
  refine along_get_bind ?_
  split
  · exact along_throw h
  · split
    · exact along_pure h
    · exact agree_preserved.last fun x hx => agree_settle h hx ⟨h.1, rfl⟩

end

/-- **One call.** -/
theorem Host.Agrees.step {s} (h : s.Agrees) (move : BackendMove)
    (htrue : truthfulCall move s = true) : (backendMachine.step move s).Agrees := by
  obtain ⟨call, endings⟩ := move
  have h : Host.Agrees ⟨s.backend, (Shell.mk s.kernel []).kernel⟩ := h
  cases call with
  | armKillSwitch =>
    have harm := agree_preserved.armKillSwitch h fun x sh hx h => agree_settle h hx ⟨h.1, rfl⟩
    exact harm.outcome htrue
  | configureTunnel => exact (agree_preserved.configureTunnel h).outcome htrue
  | removeTunnel => exact (agree_preserved.removeTunnel h).outcome htrue
  | removeKillSwitch => exact (removeKillSwitch_agrees h).outcome htrue

theorem reachable_agrees {s}
    (h : backendMachine.Reachable (fun move s => truthfulCall move s = true) s) : s.Agrees := by
  refine h.inv ?_ ?_
  · rintro _ rfl
    exact ⟨rfl, rfl⟩
  · exact fun move s htrue hs => hs.step move htrue

/-! ## The result -/

/-- **Removal converges** from a host exactly if the flags of the backend agree with the kernel,
and so from every host that calls lead to whose commands do not lie about the kernel. -/
theorem removal_converges {s : Host} :
    (s.Converges ↔ s.backend.tunnel = s.kernel.link ∧ s.backend.killArmed = s.kernel.table) ∧
      (backendMachine.Reachable (fun move s => truthfulCall move s = true) s → s.Converges) :=
  ⟨s.converges_iff, fun h => s.converges_iff.2 (reachable_agrees h)⟩

def succeeding : Nat → Ending := fun _ => ⟨none, false⟩

theorem removal_converges_sample :
    Host.Converges ⟨⟨true, true⟩, ⟨true, true⟩⟩ ∧
      backendMachine.play [⟨.armKillSwitch, succeeding⟩,
        ⟨.configureTunnel sampleUnderlay, succeeding⟩] .fresh = ⟨⟨true, true⟩, ⟨true, true⟩⟩ := by
  refine ⟨removal_converges.2 ?_, by decide +kernel⟩
  have hplay : backendMachine.play [⟨.armKillSwitch, succeeding⟩,
      ⟨.configureTunnel sampleUnderlay, succeeding⟩] .fresh = ⟨⟨true, true⟩, ⟨true, true⟩⟩ := by
    decide +kernel
  rw [← hplay]
  exact Machine.reachable_play (fun _ _ h => h) rfl (by decide +kernel)

/-- **A removal that is stuck.** The command that adds the link fails, and there is no link. The
flag says that there may be one, so that `RemoveTunnel` tries to delete it, and fails, for ever. -/
theorem removal_stuck :
    ∃ s, backendMachine.Reachable (Machine.free BackendMove Host) s ∧ ¬ s.Converges := by
  refine ⟨_, Machine.reachable_play_free [⟨.armKillSwitch, succeeding⟩,
    ⟨.configureTunnel sampleUnderlay, fun n => ⟨if n = 2 then some (.cause .other) else none,
      false⟩⟩] rfl, ?_⟩
  rw [Host.converges_iff]
  unfold Host.Agrees
  decide +kernel

end PrivateVm.GuestVpn
