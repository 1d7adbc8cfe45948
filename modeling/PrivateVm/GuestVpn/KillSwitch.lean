import PrivateVm.GuestVpn.Guest

set_option autoImplicit false

/-! # The kill switch is removed last

Controller and backend each keep flags of their own. `killSwitch_removed_last` is about the two
together: what has been undone whenever the command that deletes the table runs.
-/

namespace PrivateVm.GuestVpn

open Program Method List

/-! ## What the history says -/

/-- The online service has been stopped since the last attempt to start it, if there was one. -/
def onlineStopped : List Entry → Bool
  | [] => true
  | .onlineStart _ :: _ => false
  | .onlineStop result :: log => result.isOk || onlineStopped log
  | _ :: log => onlineStopped log

/-- The removal of the tunnel has succeeded since the last attempt to configure it. -/
def tunnelRemoved : List Entry → Bool
  | [] => false
  | .configureTunnel _ :: _ => false
  | .removeTunnel result :: log => result.isOk || tunnelRemoved log
  | _ :: log => tunnelRemoved log

/-- The kill switch may be removed. -/
def mayDisarm (log : List Entry) : Bool := onlineStopped log && tunnelRemoved log

def Entry.disarms : Entry → Bool
  | .removeKillSwitch _ => true
  | _ => false

/-- How often the backend was called to remove the kill switch. -/
def disarmings (log : List Entry) : Nat := log.countP Entry.disarms

/-- The backend was called to remove the kill switch only when it may be removed. -/
def disarmedLast : List Entry → Bool
  | [] => true
  | e :: log => disarmedLast log && (!e.disarms || mayDisarm log)

/-- The table was deleted only then, and when there was no link. -/
def deletedLast : List Record → Bool
  | [] => true
  | r :: records => deletedLast records && r.runs.all fun run =>
    run.command ≠ .deleteTable ||
      mayDisarm (records.map Record.entry) && !run.before.link

/-! ## The controller -/

structure Orderly (c : Controller) (log : List Entry) : Prop where
  stopped : (c.online && c.onlineActive) = false → onlineStopped log = true
  last : disarmedLast log = true

section

variable {i : Input} {c c' : Controller} {log log' : List Entry} {e : Entry}

theorem disarmedLast_cons (h : disarmedLast log = true) (he : e.disarms = false) :
    disarmedLast (e :: log) = true := by
  rw [disarmedLast, h, he]
  rfl

/-- A call that is neither of the online service nor to remove the kill switch. -/
def Entry.aside : Entry → Bool
  | .onlineStart _ | .onlineStop _ | .removeKillSwitch _ => false
  | _ => true

theorem onlineStopped_aside (he : e.aside = true) (log : List Entry) :
    onlineStopped (e :: log) = onlineStopped log := by
  cases e with
  | onlineStart | onlineStop | removeKillSwitch => cases he
  | _ => rfl

theorem disarms_aside (he : e.aside = true) : e.disarms = false := by
  cases e with
  | removeKillSwitch => cases he
  | _ => rfl

/-- Calls that are, when the online service counts as active as before. -/
theorem Orderly.aside (h : Orderly c log) (entries : List Entry)
    (hents : ∀ e ∈ entries, e.aside = true) (hlog : log' = entries ++ log)
    (hsame : (c'.online && c'.onlineActive) = (c.online && c.onlineActive)) : Orderly c' log' := by
  subst hlog
  induction entries with
  | nil => exact ⟨fun hact => h.stopped (hsame.symm.trans hact), h.last⟩
  | cons e entries ih =>
    obtain ⟨he, hrest⟩ := forall_mem_cons.1 hents
    have hents := ih hrest
    refine ⟨fun hact => ?_, disarmedLast_cons hents.last (disarms_aside he)⟩
    rw [cons_append, onlineStopped_aside he]
    exact hents.stopped hact

theorem Begun.orderly (hbegun : Begun c log c' log') (h : Orderly c log) : Orderly c' log' := by
  cases hbegun with
  | kept => exact h
  | started honl =>
    refine ⟨fun hact => ?_, disarmedLast_cons h.last rfl⟩
    simp [honl] at hact

theorem Detached.orderly (hdet : Detached c log c' log') (h : Orderly c log) :
    Orderly c' log' := by
  cases hdet with
  | kept => exact h
  | stopped => exact ⟨fun _ => rfl, disarmedLast_cons h.last rfl⟩
  | failed => exact ⟨h.stopped, disarmedLast_cons h.last rfl⟩

theorem Attempt.orderly (hatt : Attempt c log c' log') (h : Orderly c log) :
    Orderly c' log' := by
  cases hatt with
  | startFailed honl hdet =>
    refine hdet.orderly ⟨fun hact => ?_, disarmedLast_cons h.last rfl⟩
    simp [honl] at hact
  | unproved proof error hbegun hdet =>
    exact hdet.orderly ((hbegun.orderly h).aside [_] (by simp [Entry.aside]) rfl rfl)
  | proved proof hbegun =>
    exact (hbegun.orderly h).aside [_] (by simp [Entry.aside]) rfl rfl

/-- After the online service has ended it is stopped, and does not count as active. -/
theorem Ended.orderly (hend : Ended c log c' log') (h : Orderly c log) :
    Orderly c' log' ∧ onlineStopped log' = true := by
  cases hend with
  | kept hact => exact ⟨h, h.stopped hact⟩
  | stopped => exact ⟨⟨fun _ => rfl, disarmedLast_cons h.last rfl⟩, rfl⟩

theorem SetupFailed.aside {failed : Error → Entry} {entries} (h : SetupFailed failed entries)
    (hfail : ∀ e, (failed e).aside = true) : ∀ e ∈ entries, e.aside = true := by
  cases h with
  | setup => exact forall_mem_singleton.2 rfl
  | callback e => exact forall_mem_cons.2 ⟨hfail e, forall_mem_singleton.2 rfl⟩

/-- The removal of the kill switch by `Stop`. -/
theorem Orderly.disarm (h : Orderly c log) (hstop : onlineStopped log = true)
    (result : Except Error Unit) :
    Orderly c' (.removeKillSwitch result :: .removeTunnel (.ok ()) :: log) := by
  refine ⟨fun _ => hstop, ?_⟩
  have hmay : mayDisarm (.removeTunnel (.ok ()) :: log) = true := by
    rw [mayDisarm, onlineStopped_aside rfl, hstop]
    rfl
  rw [disarmedLast, disarmedLast_cons h.last rfl, hmay]
  rfl

/-- **One step of the controller.** -/
theorem Turn.orderly (hturn : Turn i c log c' log') (h : Orderly c log) : Orderly c' log' := by
  cases hturn with
  | quiet => exact h
  | inspectFailed => exact h.aside [_] (by simp [Entry.aside]) rfl rfl
  | @armFailed entries _ _ hents =>
    refine h.aside (entries ++ [_]) ?_ (append_cons _ _ _) rfl
    intro e he
    rcases mem_append.1 he with he | he
    · exact hents.aside (fun _ => rfl) e he
    · rw [mem_singleton.1 he]
      rfl
  | tunnelFailed ipv6Enabled _ hents =>
    have harmed : Orderly c (armedLog ipv6Enabled log) :=
      h.aside [_, _, _] (by simp [Entry.aside]) rfl rfl
    refine (harmed.aside _ (hents.aside fun _ => rfl) rfl rfl).aside [_] ?_ rfl rfl
    exact forall_mem_singleton.2 rfl
  | configured ipv6Enabled _ hatt =>
    refine hatt.orderly (h.aside [_, _, _, _, _] ?_ rfl rfl)
    simp [Entry.aside]
  | attempted _ _ hatt => exact hatt.orderly h
  | idleStopFailed => exact ⟨h.stopped, disarmedLast_cons h.last rfl⟩
  | idleStopped _ hend => exact ⟨fun _ => (hend.orderly h).2, (hend.orderly h).1.last⟩
  | stopOnlineFailed => exact ⟨h.stopped, disarmedLast_cons h.last rfl⟩
  | removeTunnelFailed _ hend =>
    exact (hend.orderly h).1.aside [_] (by simp [Entry.aside]) rfl rfl
  | removeKillSwitchFailed _ hend | stopped _ hend =>
    exact (hend.orderly h).1.disarm (hend.orderly h).2 _

end

/-! ## The backend -/

/-- Without the flag there is no link. -/
def LinkFlagged (backend : LinuxBackend) (k : Kernel) : Prop :=
  backend.tunnel = false → k.link = false

/-- The commands run so far have left the table alone. -/
structure Sparing (k : Kernel) (backend : LinuxBackend) (sh : Shell) : Prop where
  flagged : LinkFlagged backend sh.kernel
  table : sh.kernel.table = false → k.table = false
  runs : ∀ run ∈ sh.runs, run.command ≠ .deleteTable

/-- How a call of the backend ends, when it is not to remove the kill switch. -/
abbrev Spares (k : Kernel) : Except Error Unit → LinuxBackend → Shell → Prop :=
  fun _ backend sh => Sparing k backend sh

abbrev always : Command → Ending → Shell → Bool := fun _ _ _ => true

section

variable {k : Kernel} {backend : LinuxBackend} {sh : Shell} {command : Command}

/-- A command that does not delete the table, and adds the link only with the flag set. -/
theorem Sparing.after (h : Sparing k backend sh) (hdel : command ≠ .deleteTable)
    (hadd : command = .linkAdd → backend.tunnel = true) (x : Ending) :
    Sparing k backend (execCommand command x sh).2 := by
  refine ⟨?_, ?_, forall_mem_cons.2 ⟨hdel, h.runs⟩⟩
  · intro hflag
    simp only [execCommand, Ending.apply]
    split
    · cases command with
      | linkAdd => cases (hadd rfl).symm.trans hflag
      | linkDelete => rfl
      | _ => exact h.flagged hflag
    · exact h.flagged hflag
  · simp only [execCommand, Ending.apply]
    split
    · cases command with
      | deleteTable => exact absurd rfl hdel
      | nftLoad => exact fun hnone => absurd hnone.symm Bool.false_ne_true
      | _ => exact h.table
    · exact h.table

theorem sparing_preserved (k : Kernel) : Preserved execCommand always (Sparing k) where
  answers _ _ _ := rfl
  still hstill x _ _ h := by
    refine h.after ?_ ?_ x
    · rintro rfl
      cases hstill ⟨true, true⟩
    · rintro rfl
      cases hstill ⟨false, false⟩
  added x b sh _ h := by
    have hflag : Sparing k { b with tunnel := true } sh := ⟨nofun, h.table, h.runs⟩
    exact hflag.after (by nofun) (fun _ => rfl) x
  deleted x b sh _ h := by
    have hdel : Sparing k b (execCommand .linkDelete x sh).2 := h.after (by nofun) (by nofun) x
    unfold Ending.settle
    split
    · rename_i hok
      refine ⟨fun _ => ?_, hdel.table, hdel.runs⟩
      rw [execCommand_effect hok]
      rfl
    · exact hdel

theorem armKillSwitch_sparing (h : Sparing k backend sh) :
    Along execCommand always LinuxBackend.armKillSwitch (Spares k) backend sh := by
  refine (sparing_preserved k).armKillSwitch h fun x sh _ h => ?_
  have hload : Sparing k backend (execCommand .nftLoad x sh).2 :=
    h.after (by nofun) (by nofun) x
  unfold Ending.settle
  split <;> exact ⟨hload.flagged, hload.table, hload.runs⟩

/-- How the call to remove the kill switch ends: the table was deleted with no link there. -/
theorem removeKillSwitch_deletes (h : LinkFlagged backend k) :
    Along execCommand always LinuxBackend.removeKillSwitch
      (fun _ backend' sh' => LinkFlagged backend' sh'.kernel ∧
        ∀ run ∈ sh'.runs, run.before.link = false) backend ⟨k, []⟩ := by
  have hnone : ∀ run ∈ (Shell.mk k []).runs, run.before.link = false := forall_mem_nil _
  refine along_get_bind ?_
  split
  · exact along_throw ⟨h, hnone⟩
  rename_i htun
  have hlink : k.link = false := h (Bool.not_eq_true _ ▸ htun)
  split
  · exact along_pure ⟨h, hnone⟩
  -- whether or not the table is deleted, the link stays away
  have haft : ∀ x, (execCommand .deleteTable x ⟨k, []⟩).2.kernel.link = false := by
    intro x
    simp only [execCommand, Ending.apply]
    split <;> exact hlink
  have hruns : ∀ x, ∀ run ∈ (execCommand .deleteTable x ⟨k, []⟩).2.runs,
      run.before.link = false :=
    fun x => forall_mem_singleton.2 hlink
  refine along_ask_bind ?_ ?_
  · exact fun x _ _ => along_modify ⟨fun _ => haft x, hruns x⟩
  · exact fun x _ _ _ => ⟨fun _ => haft x, hruns x⟩

end

def BackendCall.disarms : BackendCall → Bool
  | .removeKillSwitch => true
  | _ => false

/-- What a call of the backend can do to the table. -/
structure Disarms (call : BackendCall) (k : Kernel) (runs : List Run) (k' : Kernel) : Prop where
  table : call.disarms = false → k.table = true → k'.table = true
  runs : ∀ run ∈ runs, run.command = .deleteTable → call.disarms = true ∧ run.before.link = false

theorem Host.perform_disarms {s : Host} (h : LinkFlagged s.backend s.kernel) (call : BackendCall)
    (endings : Nat → Ending) :
    let o := s.perform call endings
    LinkFlagged o.2.2.backend o.2.2.kernel ∧ Disarms call s.kernel o.2.1 o.2.2.kernel := by
  have hstart : Sparing s.kernel s.backend ⟨s.kernel, []⟩ :=
    ⟨h, fun h => h, forall_mem_nil _⟩
  -- a call of one of the other methods
  have hspar : ∀ call,
      Along execCommand always call.method (Spares s.kernel) s.backend ⟨s.kernel, []⟩ →
      LinkFlagged (s.perform call endings).2.2.backend (s.perform call endings).2.2.kernel ∧
        Disarms call s.kernel (s.perform call endings).2.1
          (s.perform call endings).2.2.kernel := by
    intro call hcall
    have hend := hcall.outcome_of_always endings
    refine ⟨hend.flagged, fun _ htab => ?_, fun run hrun hdel => ?_⟩
    · rw [← Bool.not_eq_false]
      intro hgone
      cases htab.symm.trans (hend.table hgone)
    · exact absurd hdel (hend.runs run hrun)
  cases call with
  | armKillSwitch => exact hspar .armKillSwitch (armKillSwitch_sparing hstart)
  | configureTunnel underlay =>
    exact hspar (.configureTunnel underlay) ((sparing_preserved _).configureTunnel hstart)
  | removeTunnel => exact hspar .removeTunnel ((sparing_preserved _).removeTunnel hstart)
  | removeKillSwitch =>
    obtain ⟨hflag, hruns⟩ := (removeKillSwitch_deletes h).outcome_of_always endings
    exact ⟨hflag, nofun, fun run hrun _ => ⟨rfl, hruns run hrun⟩⟩

/-! ## The guest -/

/-- What a guest keeps: there is no link without the flag, and the table was deleted only for
calls to remove the kill switch, with no link there. -/
structure Accounted (g : Guest) : Prop where
  flagged : LinkFlagged g.host.backend g.host.kernel
  records : ∀ r ∈ g.records, ∀ run ∈ r.runs, run.command = .deleteTable →
    r.entry.disarms = true ∧ run.before.link = false

variable {g : Guest} {entry : Except Error Unit → Entry} {g₀ : Guest}

theorem Accounted.callBackend (h : Accounted g) (call : BackendCall)
    (hent : ∀ r, (entry r).disarms = call.disarms) (x : GuestAnswer) :
    Accounted (g.callBackend call entry x).2 := by
  obtain ⟨hflag, hdis⟩ := Host.perform_disarms h.flagged call x.endings
  refine ⟨hflag, forall_mem_cons.2 ⟨fun run hrun hdel => ?_, h.records⟩⟩
  obtain ⟨hcall, hlink⟩ := hdis.runs run hrun hdel
  exact ⟨(hent _).trans hcall, hlink⟩

theorem Accounted.note (h : Accounted g) (entry : Entry) (probes : Option Probes) :
    Accounted (g.note entry probes) :=
  ⟨h.flagged, forall_mem_cons.2 ⟨forall_mem_nil _, h.records⟩⟩

/-- **One call.** -/
theorem Accounted.call (o : Op) (x : GuestAnswer) (g : Guest) (h : Accounted g) :
    Accounted (guestExec o x g).2 := by
  cases o with
  | armKillSwitch | configureTunnel underlay | removeTunnel | removeKillSwitch =>
    exact h.callBackend _ (fun _ => rfl) x
  | _ => exact h.note _ _

/-- Since the guest was as in `g₀` the table has not gone, unless the kill switch was removed. -/
structure Kept (g₀ g : Guest) : Prop where
  accounted : Accounted g
  calls : disarmings g₀.log ≤ disarmings g.log
  table : g₀.host.kernel.table = true → g.host.kernel.table = true ∨
    disarmings g₀.log < disarmings g.log

theorem disarmings_note (g : Guest) (entry : Entry) :
    disarmings g.log ≤ disarmings (entry :: g.log) := by
  rw [disarmings, disarmings, countP_cons]
  exact Nat.le_add_right _ _

theorem Kept.callBackend (h : Kept g₀ g) (call : BackendCall)
    (hent : ∀ r, (entry r).disarms = call.disarms) (x : GuestAnswer) :
    Kept g₀ (g.callBackend call entry x).2 := by
  obtain ⟨-, hdis⟩ := Host.perform_disarms h.accounted.flagged call x.endings
  have hmore := disarmings_note g (entry (g.host.perform call x.endings).1)
  refine ⟨h.accounted.callBackend call hent x, Nat.le_trans h.calls hmore, fun htab => ?_⟩
  rcases h.table htab with htab | hlt
  · cases hcall : call.disarms with
    | false => exact .inl (hdis.table hcall htab)
    | true =>
      -- the call counts
      right
      refine Nat.lt_of_le_of_lt h.calls ?_
      have hcnt := @List.countP_cons_of_pos _ Entry.disarms
        (entry (g.host.perform call x.endings).1) g.log ((hent _).trans hcall)
      exact Nat.lt_of_lt_of_eq (Nat.lt_succ_self _) hcnt.symm
  · exact .inr (Nat.lt_of_lt_of_le hlt hmore)

theorem Kept.note (h : Kept g₀ g) (entry : Entry) (probes : Option Probes) :
    Kept g₀ (g.note entry probes) := by
  have hmore := disarmings_note g entry
  refine ⟨h.accounted.note entry probes, Nat.le_trans h.calls hmore, fun htab => ?_⟩
  rcases h.table htab with htab | hlt
  · exact .inl htab
  · exact .inr (Nat.lt_of_lt_of_le hlt hmore)

/-- **One call.** -/
theorem Kept.call (g₀ : Guest) (o : Op) (x : GuestAnswer) (g : Guest) (h : Kept g₀ g) :
    Kept g₀ (guestExec o x g).2 := by
  cases o with
  | armKillSwitch | configureTunnel underlay | removeTunnel | removeKillSwitch =>
    exact h.callBackend _ (fun _ => rfl) x
  | _ => exact h.note _ _

/-! ## One step -/

section

variable {i : Input} {c c' : Controller} {log log' : List Entry}

theorem disarmings_cons {e} (he : e.disarms = false) (log : List Entry) :
    disarmings (e :: log) = disarmings log :=
  countP_cons_of_neg (by rw [he]; nofun)

theorem disarmings_append {entries} (h : ∀ e ∈ entries, e.aside = true) (log : List Entry) :
    disarmings (entries ++ log) = disarmings log := by
  induction entries with
  | nil => rfl
  | cons e entries ih =>
    obtain ⟨he, hrest⟩ := forall_mem_cons.1 h
    exact (disarmings_cons (disarms_aside he) _).trans (ih hrest)

theorem Begun.disarmings (hbegun : Begun c log c' log') : disarmings log' = disarmings log := by
  cases hbegun with
  | kept => rfl
  | started => exact disarmings_cons rfl _

theorem Detached.disarmings (hdet : Detached c log c' log') :
    disarmings log' = disarmings log := by
  cases hdet with
  | kept => rfl
  | stopped | failed => exact disarmings_cons rfl _

theorem Ended.disarmings (hend : Ended c log c' log') : disarmings log' = disarmings log := by
  cases hend with
  | kept => rfl
  | stopped => exact disarmings_cons rfl _

theorem Attempt.disarmings (hatt : Attempt c log c' log') :
    disarmings log' = disarmings log := by
  cases hatt with
  | startFailed _ hdet => exact hdet.disarmings.trans (disarmings_cons rfl _)
  | unproved _ _ hbegun hdet =>
    exact (hdet.disarmings.trans (disarmings_cons rfl _)).trans hbegun.disarmings
  | proved _ hbegun => exact (disarmings_cons rfl _).trans hbegun.disarmings

/-- A turn that removes the kill switch ends with the online service and the tunnel gone. -/
theorem Turn.mayDisarm_or (hturn : Turn i c log c' log') (h : Orderly c log) :
    mayDisarm log' = true ∨ disarmings log' = disarmings log := by
  cases hturn with
  | quiet => exact .inr rfl
  | inspectFailed | idleStopFailed | stopOnlineFailed => exact .inr (disarmings_cons rfl _)
  | armFailed _ _ hents =>
    refine .inr ((disarmings_append (hents.aside fun _ => rfl) _).trans ?_)
    exact disarmings_cons rfl _
  | tunnelFailed _ _ hents =>
    refine .inr ((disarmings_cons rfl _).trans ?_)
    refine (disarmings_append (hents.aside fun _ => rfl) _).trans ?_
    exact @disarmings_append [_, _, _] (by simp [Entry.aside]) log
  | configured _ _ hatt =>
    refine .inr (hatt.disarmings.trans ?_)
    exact @disarmings_append [_, _, _, _, _] (by simp [Entry.aside]) log
  | attempted _ _ hatt => exact .inr hatt.disarmings
  | idleStopped _ hend => exact .inr hend.disarmings
  | removeTunnelFailed _ hend => exact .inr ((disarmings_cons rfl _).trans hend.disarmings)
  | removeKillSwitchFailed _ hend | stopped _ hend =>
    left
    have hstop := (hend.orderly h).2
    exact Bool.and_eq_true_iff.2 ⟨hstop, rfl⟩

end

/-- The table was deleted in order, when the controller called in order and every deletion is
accounted for. -/
theorem deletedLast_of_disarmedLast {records}
    (hlast : disarmedLast (records.map Record.entry) = true)
    (hrec : ∀ r ∈ records, ∀ run ∈ r.runs, run.command = .deleteTable →
      r.entry.disarms = true ∧ run.before.link = false) : deletedLast records = true := by
  induction records with
  | nil => rfl
  | cons r records ih =>
    obtain ⟨hr, hrest⟩ := forall_mem_cons.1 hrec
    obtain ⟨hlast, hmay⟩ := Bool.and_eq_true_iff.1 hlast
    rw [deletedLast, ih hlast hrest, Bool.true_and, List.all_eq_true]
    intro run hrun
    by_cases hdel : run.command = .deleteTable
    · obtain ⟨hdis, hlink⟩ := hr run hrun hdel
      rw [hdis] at hmay
      have hmay : mayDisarm (records.map Record.entry) = true := hmay
      rw [hmay, hlink]
      exact Bool.or_true _
    · simp [hdel]

theorem reachable_orderly {w}
    (h : (machine guestExec .fresh).Reachable (Machine.free (Move GuestAnswer) (World Guest)) w) :
    Orderly w.controller w.outside.log ∧ Accounted w.outside := by
  refine h.inv (P := fun w => Orderly w.controller w.outside.log ∧ Accounted w.outside) ?_ ?_
  · rintro _ ⟨online, policy, underlay, c, -, rfl⟩
    exact ⟨⟨fun _ => rfl, rfl⟩, fun _ => rfl, forall_mem_nil _⟩
  · rintro move v - ⟨hord, hacc⟩
    exact ⟨(World.step_turn guest_refines move v).orderly hord,
      World.step_outside .call move v hacc⟩

/-! ## The result -/

/-- **The kill switch is removed last.** In every state that a guest reaches, whatever fails: each
time the table was deleted the online service had been stopped and the tunnel removed, and
there was no link; and whatever is done next leaves the table there, if it is, unless
afterwards the online service is stopped and the tunnel removed. -/
theorem killSwitch_removed_last {w : World Guest}
    (h : (machine guestExec .fresh).Reachable (Machine.free (Move GuestAnswer) (World Guest)) w) :
    deletedLast w.outside.records = true ∧
      ∀ move, w.outside.host.kernel.table = true →
        mayDisarm (w.step guestExec move).outside.log = false →
        (w.step guestExec move).outside.host.kernel.table = true := by
  obtain ⟨hord, hacc⟩ := reachable_orderly h
  refine ⟨deletedLast_of_disarmedLast hord.last hacc.records, ?_⟩
  intro move htab hmay
  have hkept : Kept w.outside (w.step guestExec move).outside :=
    World.step_outside (.call w.outside) move w
      ⟨hacc, Nat.le_refl _, .inl⟩
  rcases hkept.table htab with htab | hlt
  · exact htab
  · -- the kill switch was removed in this step, and not out of order
    rcases (World.step_turn guest_refines move w).mayDisarm_or hord with hmay' | hsame
    · cases hmay.symm.trans hmay'
    · exact absurd hsame.symm (Nat.ne_of_lt hlt)

theorem killSwitch_removed_last_sample :
    let w := (machine guestExec .fresh).play
      [(Input.configure background 0).working, Input.stop.working] sampleWorld
    w.controller.state = .stopped ∧ w.outside.host.kernel = ⟨false, false⟩ ∧
      deletedLast w.outside.records = true := by
  intro w
  have hreach : (machine guestExec .fresh).Reachable
      (Machine.free (Move GuestAnswer) (World Guest)) w :=
    Machine.reachable_play_free _ (init_sample guestExec .fresh)
  exact ⟨by decide +kernel, by decide +kernel, (killSwitch_removed_last hreach).1⟩

end PrivateVm.GuestVpn
