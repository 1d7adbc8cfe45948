import PrivateVm.Session.Manager

set_option autoImplicit false

/-! # Cleanup attempts and those who wait for them

An attempt is in exactly one place: with its admission goroutine, in the command queue, or in the
hands of the actor (`Tracked`). Between the completion of the last attempt and the end of the actor
a caller that looked the entry up before can begin another one, in a queue that is not read again
(`waiter_stranded`).
-/

namespace PrivateVm.Session

open Timestamp Checked Program List Option

/-! ## Where an attempt is -/

def Command.attempt? : Command → Option Nat
  | .cleanup attempt => some attempt
  | _ => none

/-- The attempts that are being admitted, queued or handled. -/
def Clients.underway (k : Clients) (busy : Option Nat) : List Nat :=
  k.admissions ++ k.commands.filterMap Command.attempt? ++ busy.toList

/-- The attempt of the entry is in one place, and all others have been completed. -/
structure Tracked (busy : Option Nat) (k : Clients) : Prop where
  underway : k.underway busy = k.cleanup.toList
  settled : ∀ a < k.nextAttempt, k.cleanup = some a ∨ ∃ r, (a, r) ∈ k.completed

variable {busy : Option Nat} {k k' : Clients} {a : Nat} {i : Input} {c : Core} {o : Op}
  {w w' : World}

theorem Tracked.of_admission (h : Tracked busy k) (ha : a ∈ k.admissions) :
    k.admissions = [a] ∧ k.commands.filterMap Command.attempt? = [] ∧ busy = none ∧
      k.cleanup = some a := by
  have hunder := h.underway
  unfold Clients.underway at hunder
  cases hadm : k.admissions with
  | nil => simp [hadm] at ha
  | cons x =>
    cases hcln : k.cleanup with
    | none => simp [hadm, hcln] at hunder
    | some =>
      simp only [hadm, hcln, toList_some, cons_append, List.cons.injEq,
        append_eq_nil_iff] at hunder
      obtain ⟨rfl, ⟨rfl, hcmds⟩, hbusy⟩ := hunder
      have hax : a = x := by simpa [hadm] using ha
      subst hax
      exact ⟨rfl, hcmds, by simpa using hbusy, rfl⟩

theorem Tracked.of_busy (h : Tracked (some a) k) :
    k.admissions = [] ∧ k.commands.filterMap Command.attempt? = [] ∧ k.cleanup = some a := by
  have hunder := h.underway
  unfold Clients.underway at hunder
  cases hcln : k.cleanup with
  | none => simp [hcln] at hunder
  | some =>
    have hlen := congrArg List.length hunder
    simp only [hcln, toList_some, length_append, length_singleton] at hlen
    have hadm : k.admissions = [] := length_eq_zero_iff.1 (by omega)
    have hcmds : k.commands.filterMap Command.attempt? = [] :=
      length_eq_zero_iff.1 (by omega)
    simp only [hcln, hadm, hcmds, toList_some, nil_append, List.cons.injEq,
      and_true] at hunder
    exact ⟨hadm, hcmds, by rw [hunder]⟩

/-- The parts of the clients that have to do with attempts are the same. -/
structure SameAttempts (k k' : Clients) : Prop where
  admissions : k'.admissions = k.admissions
  commands : k'.commands.filterMap Command.attempt? = k.commands.filterMap Command.attempt?
  cleanup : k'.cleanup = k.cleanup
  nextAttempt : k'.nextAttempt = k.nextAttempt
  completed : k'.completed = k.completed

theorem Tracked.congr (h : Tracked busy k) (hsame : SameAttempts k k') : Tracked busy k' where
  underway := by
    rw [Clients.underway, hsame.admissions, hsame.commands, hsame.cleanup]
    exact h.underway
  settled := by
    rw [hsame.nextAttempt, hsame.cleanup, hsame.completed]
    exact h.settled

/-! ## The environment -/

theorem Command.attempt?_eq_none {cmd : Command} (h : cmd.requestable = true) :
    cmd.attempt? = none := by
  cases cmd <;> first | rfl | cases h

/-- A caller begins a cleanup, or joins the one that runs. -/
theorem Tracked.beginCleanup (h : Tracked busy k) : Tracked busy k.beginCleanup := by
  unfold Clients.beginCleanup
  cases hcln : k.cleanup with
  | some => exact h
  | none =>
    have hunder := h.underway
    simp only [Clients.underway, hcln, toList_none, append_eq_nil_iff] at hunder
    obtain ⟨⟨hadm, hcmds⟩, hbusy⟩ := hunder
    refine ⟨by simp [Clients.underway, hadm, hcmds, hbusy], fun a ha => ?_⟩
    obtain rfl | hlt := Nat.eq_or_lt_of_le (Nat.le_of_lt_succ ha)
    · exact .inl rfl
    · obtain hcur | hdone := h.settled a hlt
      · simp [hcln] at hcur
      · exact .inr hdone

/-- An attempt that is completed leaves the entry without one. -/
theorem Tracked.complete (hcln : k.cleanup = some a) (hadm : k.admissions = [])
    (hcmds : k.commands.filterMap Command.attempt? = [])
    (hsett : ∀ b < k.nextAttempt, k.cleanup = some b ∨ ∃ r, (b, r) ∈ k.completed)
    (result : CommandResult) : Tracked none (k.completeCleanup a result) := by
  unfold Clients.completeCleanup
  rw [if_pos hcln]
  refine ⟨by simp [Clients.underway, hadm, hcmds], fun b hb => .inr ?_⟩
  obtain hcur | ⟨r, hr⟩ := hsett b hb
  · obtain rfl := Option.some.inj (hcln.symm.trans hcur)
    exact ⟨result, mem_cons_self⟩
  · exact ⟨r, mem_cons_of_mem _ hr⟩

theorem Tracked.env (h : Tracked busy k) (hk : k.env i c = some k') : Tracked busy k' := by
  cases Clients.env_step hk with
  | request hcmd =>
    refine h.congr ⟨rfl, ?_, rfl, rfl, rfl⟩
    simp [Command.attempt?_eq_none hcmd.2.1]
  | beginCleanup => exact h.beginCleanup
  | enqueue ha =>
    obtain ⟨hadm, hcmds, rfl, hcln⟩ := h.of_admission ha.1
    exact ⟨by simp [Clients.underway, hadm, hcmds, hcln, Command.attempt?], h.settled⟩
  | admitDone ha =>
    obtain ⟨hadm, hcmds, rfl, hcln⟩ := h.of_admission ha.1
    exact .complete (k := { k with admissions := k.admissions.erase _ }) hcln
      (by simp [hadm]) hcmds h.settled _
  | _ => exact h.congr ⟨rfl, rfl, rfl, rfl, rfl⟩

/-! ## The actor -/

theorem Clients.after_sameAttempts (ho : ∀ a r, o ≠ .completeCleanup a r) (x : Choice) (k : Clients)
    : SameAttempts k (k.after o x) := by
  cases o with
  | completeCleanup a r => exact absurd rfl (ho a r)
  | send =>
    simp only [Clients.after]
    split <;> exact ⟨rfl, rfl, rfl, rfl, rfl⟩
  | _ => exact ⟨rfl, rfl, rfl, rfl, rfl⟩

theorem Tracked.exec (ho : ∀ a r, o ≠ .completeCleanup a r) (x : Choice)
    (h : Tracked busy w.clients) : Tracked busy (w.exec o x).2.clients :=
  h.congr (Clients.after_sameAttempts ho (w.clients.answer o x) w.clients)

/-- No cleanup begins once the session is destroyed and has no attempt. -/
def noLateCleanup : Guard Op Choice World Input where
  op _ _ _ := True
  env i w := i = .beginCleanup →
    ¬ (w.core.session.phase = .destroyed ∧ w.clients.cleanup = none)

theorem Tracked.rely {G} (h : Tracked busy w.clients) (hr : (manager.rules G).rely w w') :
    Tracked busy w'.clients := by
  induction hr with
  | refl => exact h
  | tail _ hstep ih =>
    obtain ⟨i, -, hi⟩ := hstep
    obtain ⟨k, hk, rfl⟩ := map_eq_some_iff.1 hi
    exact ih.env hk

/-- A program that completes no attempt. -/
theorem Tracked.within {α : Type} {areas : List Area} {p : Code α} (hp : Within areas p)
    (hareas : .ending ∉ areas) {G : Guard Op Choice World Input} (h : Tracked busy w.clients) :
    Safe (manager.rules G) (fun _ => True) p (fun _ w => Tracked busy w.clients) w := by
  refine .of_uses hp (fun _ _ => trivial) (fun w w' h => h.rely)
    (fun o x w ho _ h => ?_) h
  refine h.exec (fun a r heq => hareas ?_) x
  subst heq
  exact ho

/-- The last attempt was completed, and no further one can begin. -/
structure Closed (w : World) : Prop where
  tracked : Tracked none w.clients
  completed : w.clients.cleanup = none
  destroyed : w.core.session.phase = .destroyed

theorem Clients.env_cleanup (h : k.cleanup = none) (hi : i ≠ .beginCleanup)
    (hk : k.env i c = some k') : k'.cleanup = none := by
  cases Clients.env_step hk with
  | beginCleanup => exact absurd rfl hi
  | admitDone =>
    unfold Clients.completeCleanup
    split
    · rfl
    · exact h
  | _ => exact h

theorem Closed.env (h : Closed w) (hstep : manager.envStep noLateCleanup w w') : Closed w' := by
  obtain ⟨i, hG, hi⟩ := hstep
  obtain ⟨k, hk, rfl⟩ := map_eq_some_iff.1 hi
  have hnot : i ≠ .beginCleanup := fun heq => hG heq ⟨h.destroyed, h.completed⟩
  exact ⟨h.tracked.env hk, Clients.env_cleanup h.completed hnot hk, h.destroyed⟩

theorem Closed.rely (h : Closed w) (hr : (manager.rules noLateCleanup).rely w w') : Closed w' := by
  induction hr with
  | refl => exact h
  | tail _ hstep ih => exact ih.env hstep

theorem Closed.exec (ho : o.area ∉ [.journal, .rollback]) (ho' : ∀ a r, o ≠ .completeCleanup a r)
    (x : Choice) (h : Closed w) : Closed (w.exec o x).2 := by
  have hsame := Clients.after_sameAttempts ho' (w.clients.answer o x) w.clients
  refine ⟨h.tracked.congr hsame, hsame.cleanup.trans h.completed, ?_⟩
  exact (congrArg Session.phase (exec_session ho _ w.core)).trans h.destroyed

theorem Closed.closeSubscribers (h : Closed w) {reason} :
    Safe (manager.rules noLateCleanup) (fun _ => True) (closeSubscribers reason)
      (fun _ => Closed) w := by
  refine .of_uses (closeSubscribers_within reason) (fun _ _ => trivial)
    (fun _ _ h => h.rely) (fun o x w ho _ h => h.exec ?_ ?_ x) h
  · revert ho
    generalize o.area = area
    decide +revert
  · rintro a r rfl
    simp [Op.area] at ho

theorem Tracked.completeCleanup (h : Tracked (some a) w.clients) (result : CommandResult)
    (x : Choice) : Tracked none (w.exec (.completeCleanup a result) x).2.clients ∧
      (w.exec (.completeCleanup a result) x).2.clients.cleanup = none := by
  obtain ⟨hadm, hcmds, hcln⟩ := h.of_busy
  refine ⟨.complete hcln hadm hcmds h.settled result, ?_⟩
  simp [World.exec, Clients.after, Clients.completeCleanup, hcln]

theorem Tracked.handleCleanup (h : Tracked (some a) w.clients) :
    Safe (manager.rules noLateCleanup) (fun _ => True) (handle (.cleanup a))
      (fun b w => if b then Closed w else Tracked none w.clients) w := by
  have hdest : Safe (manager.rules noLateCleanup) (fun _ => True) cleanupEntry
      (fun r w => r.2 = none → w.core.session.phase = .destroyed) w :=
    (Safe.of_project World.projects_any (cleanupEntry_destroyed w.core)).post
      fun _ _ h hnone => (h hnone).1
  have hent : Safe (manager.rules noLateCleanup) (fun _ => True) cleanupEntry
      (fun r w => Tracked (some a) w.clients ∧
        (r.2 = none → w.core.session.phase = .destroyed)) w :=
    ((Tracked.within cleanupEntry_within (by decide) h).and hdest).mono (fun _ _ => trivial)
      fun _ _ h => h
  refine safe_bind.2 (hent.post fun r w hr => ?_)
  obtain ⟨htrk, hph⟩ := hr
  obtain ⟨last, _ | e⟩ := r
  · -- the entry is given up, and from the answer on the attempt is closed
    refine safe_call_bind.2 fun w₁ hr₁ => ⟨trivial, fun x _ => ?_⟩
    have hph₁ : w₁.core.session.phase = .destroyed := by
      rw [rely_core hr₁]
      exact hph rfl
    have htrk₁ : Tracked (some a) (w₁.exec (.finish last) x).2.clients :=
      (htrk.rely hr₁).exec (by simp) x
    refine safe_call_bind.2 fun w₂ hr₂ => ⟨trivial, fun y _ => ?_⟩
    have hph₂ : w₂.core.session.phase = .destroyed := by
      rwa [rely_core hr₂]
    obtain ⟨htrk₂, hnone⟩ := (htrk₁.rely hr₂).completeCleanup ⟨last, none, none⟩ y
    have hcl : Closed (w₂.exec (.completeCleanup a ⟨last, none, none⟩) y).2 :=
      ⟨htrk₂, hnone, hph₂⟩
    refine safe_bind.2 (hcl.closeSubscribers.post fun _ w₃ hcl => ?_)
    refine safe_call_bind.2 fun w₄ hr₄ =>
      ⟨trivial, fun x _ => safe_pure.2 fun w₅ hr₅ => ⟨trivial, ?_⟩⟩
    exact ((hcl.rely hr₄).exec (by decide) (by simp) x).rely hr₅
  · refine safe_call_bind.2 fun w₁ hr₁ =>
      ⟨trivial, fun x _ => safe_pure.2 fun w₂ hr₂ => ⟨trivial, ?_⟩⟩
    exact ((htrk.rely hr₁).completeCleanup ⟨last, none, some e⟩ x).1.rely hr₂

theorem Tracked.handles : Handles (manager.rules noLateCleanup) (fun _ => True)
    (fun w => Tracked none w.clients) where
  idle _ _ := trivial
  rely _ _ h hr := h.rely hr
  quiet o x w ho _ h := by
    refine h.exec ?_ x
    rintro a r rfl
    simp [Op.area] at ho
  advance m _ _ h := h.within (advance_within m) (by decide)
  acquire resource _ h := h.within (acquire_within resource) (by decide)
  subscribe after _ h := h.within (subscribe_within after) (by decide)

/-- The actor takes up a cleanup command. -/
theorem Tracked.take {rest} (h : Tracked none k) (hcmds : k.commands = .cleanup a :: rest) :
    Tracked (some a) { k with commands := rest } := by
  refine ⟨?_, h.settled⟩
  have hunder := h.underway
  have hfil : k.commands.filterMap Command.attempt? = a :: rest.filterMap Command.attempt? := by
    rw [hcmds]
    rfl
  rw [Clients.underway, hfil] at hunder
  cases hcln : k.cleanup with
  | none => simp [hcln] at hunder
  | some =>
    have hlen := congrArg List.length hunder
    simp only [hcln, toList_some, length_append,
      length_cons, length_nil] at hlen
    have hrest : rest.filterMap Command.attempt? = [] := length_eq_zero_iff.1 (by omega)
    simpa [Clients.underway, hcln, hrest] using hunder

theorem Tracked.keeps : manager.Keeps noLateCleanup Created (fun _ => True)
    (fun w => Tracked none w.clients) Closed where
  init := by
    rintro _ ⟨id, ownerUID, role, now, s, -, -, rfl⟩
    exact ⟨rfl, fun a ha => absurd ha (Nat.not_lt_zero a)⟩
  idle _ _ := trivial
  env w w' h hstep := h.rely (.single hstep)
  take w w' i p h htake := by
    obtain ⟨cmd, rest, hcmds, rfl, rfl⟩ | ⟨id, rest, -, rfl, rfl⟩ := World.take_cases htake
    · cases hcmd : cmd with
      | cleanup =>
        subst hcmd
        exact (h.take hcmds).handleCleanup
      | _ =>
        rw [← hcmd]
        refine Tracked.handles.handle cmd (by simp [hcmd]) (h.congr ⟨rfl, ?_, rfl, rfl, rfl⟩)
        rw [hcmds, hcmd]
        rfl
    · refine safe_call_bind.2 fun w₁ hr₁ => ⟨trivial, fun x _ => safe_pure.2 fun w₂ hr₂ =>
        ⟨trivial, ?_⟩⟩
      have htaken : Tracked none { w.clients with unsubscribe := rest } :=
        .congr h ⟨rfl, rfl, rfl, rfl, rfl⟩
      have haft := Tracked.rely htaken hr₁
      exact (haft.exec (by simp) x).rely hr₂
  ended _ _ := trivial
  endedEnv _ _ h hstep := h.env hstep

/-! ## Every attempt is completed -/

/-- **No waiter is left behind** in a run in which no cleanup begins late: when the actor has
returned, every attempt a caller obtained has been completed. -/
theorem attempts_completed {w : World} (h : Reach manager noLateCleanup Created (w, .returned))
    (a : Nat) (ha : a < w.clients.nextAttempt) : ∃ r, (a, r) ∈ w.clients.completed := by
  have hcl : Closed w := h.holds Tracked.keeps
  obtain hcur | hdone := hcl.tracked.settled a ha
  · rw [hcl.completed] at hcur
    cases hcur
  · exact hdone

/-- The steps `noLateCleanup` permits. -/
def notLate (act : Act Choice Input) (c : World × Thread Op Res) : Bool :=
  match act with
  | .env .beginCleanup =>
    !(c.1.core.session.phase == .destroyed && c.1.clients.cleanup == none)
  | _ => true

theorem permits_of_notLate {act c} (h : notLate act c = true) : noLateCleanup.permits act c := by
  obtain ⟨w, t⟩ := c
  cases act with
  | env i =>
    have henv : noLateCleanup.env i w := by
      rintro rfl ⟨hph, hcln⟩
      simp [notLate, hph, hcln] at h
    cases t <;> exact henv
  | op =>
    cases t with
    | running p => cases p <;> trivial
    | _ => trivial
  | rest | take => cases t <;> trivial

theorem Thread.eq_returned {t} (h : Thread.ended t = true) : t = .returned := by
  cases t with
  | returned => rfl
  | idle | running => cases h

theorem attempts_completed_cleanup : ∃ w, Reach manager noLateCleanup Created (w, .returned) ∧
    0 < w.clients.nextAttempt ∧ ∃ r, (0, r) ∈ w.clients.completed := by
  obtain ⟨w, t, h, hend, hnext⟩ := reach_startWorld
    (P := fun w t => Thread.ended t = true ∧ 0 < w.clients.nextAttempt) notLate
    (fun _ _ => permits_of_notLate) cleanupRun (by decide +kernel)
  obtain rfl := Thread.eq_returned hend
  exact ⟨w, h, hnext, attempts_completed h 0 hnext⟩

/-! ## A stranded waiter -/

theorem Clients.completeCleanup_nextAttempt (k : Clients) (a : Nat) (result : CommandResult) :
    (k.completeCleanup a result).nextAttempt = k.nextAttempt := by
  unfold Clients.completeCleanup
  split <;> rfl

theorem Clients.completeCleanup_admissions (k : Clients) (a : Nat) (result : CommandResult) :
    (k.completeCleanup a result).admissions = k.admissions := by
  unfold Clients.completeCleanup
  split <;> rfl

/-- An attempt that nobody will complete once the actor has returned. -/
structure Stranded (a : Nat) (k : Clients) : Prop where
  obtained : a < k.nextAttempt
  admitted : a ∉ k.admissions
  waiting : ∀ r, (a, r) ∉ k.completed

theorem Stranded.env (h : Stranded a k) (hk : k.env i c = some k') : Stranded a k' := by
  cases Clients.env_step hk with
  | beginCleanup =>
    unfold Clients.beginCleanup
    split
    · exact h
    · refine ⟨h.obtained.trans (Nat.lt_succ_self _), ?_, h.waiting⟩
      simpa [h.admitted] using Nat.ne_of_lt h.obtained
  | enqueue => exact ⟨h.obtained, fun ha => h.admitted (mem_of_mem_erase ha), h.waiting⟩
  | admitDone hb =>
    refine ⟨?_, ?_, fun r hr => ?_⟩
    · rw [Clients.completeCleanup_nextAttempt]
      exact h.obtained
    · rw [Clients.completeCleanup_admissions]
      exact fun ha => h.admitted (mem_of_mem_erase ha)
    · obtain heq | hold := Clients.mem_completeCleanup hr
      · cases heq
        exact h.admitted hb.1
      · exact h.waiting r hold
  | _ => exact ⟨h.obtained, h.admitted, h.waiting⟩

/-- The actor has completed an attempt and not ended yet; another one begins, and its command
finds room in the queue that nobody reads any more. -/
def strandingRun : List (Act Choice Input) :=
  [.env .lookup, .env .beginCleanup, .env (.enqueue 0), .take .command] ++ operations 22 ++
  [.env .beginCleanup, .env (.enqueue 1)] ++ operations 2 ++ [.rest]

/-- **A stranded waiter**: the actor has returned, an attempt is not completed, and whatever
happens it will not be. -/
theorem waiter_stranded : ∃ w a, Reach manager anything Created (w, .returned) ∧
    a < w.clients.nextAttempt ∧
    ∀ w', Relation.ReflTransGen (manager.envStep anything) w w' →
      ∀ r, (a, r) ∉ w'.clients.completed := by
  obtain ⟨w, t, h, hend, hnext, hadm, hwait⟩ := reach_startWorld
    (P := fun w t => Thread.ended t = true ∧ 1 < w.clients.nextAttempt ∧
      1 ∉ w.clients.admissions ∧ ∀ p ∈ w.clients.completed, p.1 ≠ 1)
    (fun _ _ => true) (fun act c _ => Guard.permits_free act c) strandingRun (by decide +kernel)
  obtain rfl := Thread.eq_returned hend
  have hstr : Stranded 1 w.clients := ⟨hnext, hadm, fun r hr => hwait (1, r) hr rfl⟩
  refine ⟨w, 1, h, hnext, fun w' hsteps => Stranded.waiting ?_⟩
  induction hsteps with
  | refl => exact hstr
  | tail _ hstep ih =>
    obtain ⟨i, -, hi⟩ := hstep
    obtain ⟨k, hk, rfl⟩ := map_eq_some_iff.1 hi
    exact ih.env hk

end PrivateVm.Session
