import PrivateVm.Session.Manager

set_option autoImplicit false

/-! # The event budget

Three events are reserved for cleanup. `eventCap` says how many events a session in a phase
can have: cleanup passes ABORTING, DESTROYING and DESTROYED at most once each, however often
it is retried, so its three events fit and no cleanup attempt fails for lack of room.
-/

namespace PrivateVm.Session

open Timestamp Checked Program List

/-! ## Room for the events of cleanup -/

/-- How many events a session in a phase has at most. -/
def eventCap : Phase → Nat
  | .aborting => 4094
  | .destroying => 4095
  | .destroyed => 4096
  | _ => 4093

theorem le_eventCap (p : Phase) : 4093 ≤ eventCap p := by
  cases p with
  | other => exact le_rfl
  | _ => decide

def cleanupTargets : List Phase := [.aborting, .destroying, .destroyed]

variable {p target : Phase} {m : Move}

/-- Every phase of cleanup leaves room for the next. -/
theorem eventCap_lt (hedge : target ∈ lifecycleTransitions p) (htgt : target ∈ cleanupTargets) :
    eventCap p < eventCap target := by
  simp only [cleanupTargets, mem_cons, not_mem_nil, or_false] at htgt
  cases p with
  | other => cases hedge
  | _ => obtain rfl | rfl | rfl := htgt <;> first | decide | exact absurd hedge (by decide)

theorem eventCap_lt_max (hedge : target ∈ lifecycleTransitions p) :
    eventCap p < maxSessionEvents := by
  cases p with
  | destroyed | other => cases hedge
  | _ => decide

/-- The moves the actor makes: cleanup owns only the phases it enters. -/
def Move.Proper : Move → Prop
  | .lifecycle target true => target ∈ cleanupTargets
  | _ => True

theorem Move.proper_of_not_cleanupOwned (h : m.cleanupOwned = false) : m.Proper := by
  match m, h with
  | .lifecycle _ false, _ | .workflow _, _ => trivial

section

variable {s : Session} {now : Time} {m : Move} {e : Event}

theorem move_room (h : s.move now m = .ok (e, s.record e)) :
    s.events.length < eventLimit m.cleanupOwned := by
  cases m with
  | lifecycle => exact (Session.transitionLifecycle_eq_ok.1 h).2.2.1
  | workflow => exact (Session.transitionWorkflow_eq_ok.1 h).2.2.1

theorem move_length_le (h : s.move now m = .ok (e, s.record e)) (hm : m.cleanupOwned = false) :
    (s.record e).events.length ≤ 4093 := by
  have hroom := move_room h
  rw [hm] at hroom
  simp only [Session.record, length_append]
  exact hroom

/-- A move keeps the number of events below the cap. -/
theorem move_length_le_cap (h : s.move now m = .ok (e, s.record e)) (hm : m.Proper)
    (hs : s.events.length ≤ eventCap s.phase) :
    (s.record e).events.length ≤ eventCap (s.record e).phase := by
  match m with
  | .workflow _ | .lifecycle target false => exact (move_length_le h rfl).trans (le_eventCap _)
  | .lifecycle target true =>
    obtain ⟨hedge, -, -, code, message, -, rfl, -⟩ := Session.transitionLifecycle_eq_ok.1 h
    have hlt : eventCap s.phase < eventCap target := eventCap_lt hedge hm
    simp only [Session.record, length_append, length_singleton]
    omega

/-- Cleanup's moves are never refused for lack of room. -/
theorem transitionLifecycle_fails (hs : s.events.length ≤ eventCap s.phase) (target : Phase) :
    FailsOnly (fun err => err.isKind .eventLimit = false)
      (s.transitionLifecycle target true now) := by
  refine .bind_ok (failsOnly_failIf rfl) fun _ hedge => .bind (failsOnly_failIf rfl) fun _ => ?_
  have hedge : target ∈ lifecycleTransitions s.phase := by simpa using hedge
  have hroom : s.requireEventRoom true = .ok () :=
    Session.requireEventRoom_eq_ok.2 (hs.trans_lt (eventCap_lt_max hedge))
  rw [hroom]
  split
  · exact failsOnly_throw rfl
  · exact failsOnly_pure _

end

/-! ## The budget through a run -/

structure Budget (c : Core) : Prop where
  cap : c.session.events.length ≤ eventCap c.session.phase
  reserve : (∀ e, .appended e true ∉ c.trace) → c.session.events.length ≤ 4093
  attempts : ∀ a r err, .completed a r ∈ c.trace → r.err = some err →
    err.isKind .eventLimit = false

variable {c : Core} {w : World}

/-- The areas whose operations leave the budget alone. -/
theorem Budget.exec {o : Op} (ho : o.area ∉ [.journal, .rollback, .ending]) (x : Choice)
    (h : Budget c) : Budget (c.exec o x).2 := by
  simp only [mem_cons, not_or] at ho
  have hses : (c.exec o x).2.session = c.session := exec_session (by simp [ho]) x c
  obtain ⟨l, htr, hl⟩ := exec_trace o x c
  have hmem : ∀ f, f.area = .journal ∨ f.area = .ending →
      (f ∈ (c.exec o x).2.trace ↔ f ∈ c.trace) := by
    intro f hf
    rw [htr, mem_append]
    constructor
    · rintro (hfl | hft)
      · rw [hl f hfl] at hf
        exact absurd hf (by simp [ho])
      · exact hft
    · exact .inr
  refine ⟨?_, ?_, ?_⟩
  · rw [hses]
    exact h.cap
  · rw [hses]
    exact fun hno => h.reserve fun e he => hno e ((hmem _ (.inl rfl)).2 he)
  · exact fun a r err hc => h.attempts a r err ((hmem _ (.inr rfl)).1 hc)

theorem Budget.within {α : Type} {areas : List Area} {p : Code α} (hp : Within areas p)
    (hareas : ∀ area ∈ areas, area ∉ [.journal, .rollback, .ending]) (hc : Budget c) :
    Safe (coreRules anyChoice) Budget p (fun _ => Budget) c :=
  .of_uses hp (fun _ h => h) (fun _ _ h hr => hr ▸ h)
    (fun _ x _ ho _ h => h.exec (hareas _ ho) x) hc

theorem Budget.congr {c'} (hc : Budget c) (hses : c'.session = c.session)
    (htr : c'.trace = c.trace) : Budget c' := by
  refine ⟨?_, ?_, ?_⟩
  · rw [hses]
    exact hc.cap
  · rw [hses, htr]
    exact hc.reserve
  · rw [htr]
    exact hc.attempts

/-- Another session and one more effect that is not the end of an attempt. -/
theorem Budget.push {c' f} (hc : Budget c) (htr : c'.trace = f :: c.trace) (hf : f.area ≠ .ending)
    (hcap : c'.session.events.length ≤ eventCap c'.session.phase)
    (hres : (∀ e, f ≠ .appended e true) → (∀ e, .appended e true ∉ c.trace) →
      c'.session.events.length ≤ 4093) : Budget c' := by
  refine ⟨hcap, fun hno => ?_, fun a r err hmem => ?_⟩
  · rw [htr] at hno
    exact hres (fun e he => hno e (he ▸ mem_cons_self))
      fun e he => hno e (mem_cons_of_mem _ he)
  · rw [htr] at hmem
    obtain rfl | hmem := mem_cons.1 hmem
    · exact absurd rfl hf
    · exact hc.attempts a r err hmem

theorem Budget.publish (hc : Budget c) (e : Event) :
    Safe (coreRules anyChoice) Budget (publish e) (fun _ => Budget) c :=
  Budget.within (publish_within e) (by decide) hc

/-- A move within the budget, and taking it back. -/
theorem Budget.advance (hm : m.Proper) (hc : Budget c) :
    Safe (coreRules anyChoice) Budget (advance m)
      (fun r c => Budget c ∧ (m.cleanupOwned = true → ∀ err, r.2 = some err →
        err.isKind .eventLimit = false)) c := by
  have htick : Budget c.tick := ⟨hc.cap, hc.reserve, hc.attempts⟩
  refine core_advance hc htick (fun x err _ href => ⟨htick, ?_⟩) fun x e _ hmade => ?_
  · intro hown err' herr'
    cases herr'
    match m, hown with
    | .lifecycle target true, _ => exact transitionLifecycle_fails hc.cap target err href
  · have happ : (Effect.appended e m.cleanupOwned).area ≠ .ending := fun h => by cases h
    have hmoved : Budget (c.tick.appended m e (c.session.record e)) := by
      refine hc.push rfl happ (move_length_le_cap hmade hm hc.cap) fun hno _ => ?_
      exact move_length_le hmade (Bool.eq_false_iff.2 fun hown => hno e (by rw [hown]))
    refine ⟨hmoved, fun err herr _ => ?_, fun _ _ => ?_⟩
    · have hback : Budget ((c.tick.appended m e (c.session.record e)).restored c.session) :=
        hc.push rfl happ hc.cap fun _ => hc.reserve
      refine ⟨hback, hback, fun _ err' herr' => ?_⟩
      cases herr'
      simp [Err.isKind, show err.wraps = [] from herr]
    · have hsaved : Budget (c.tick.appended m e (c.session.record e)).saved :=
        ⟨hmoved.cap, hmoved.reserve, hmoved.attempts⟩
      exact (hsaved.publish e).post fun _ c' h => ⟨h, h, by simp⟩

/-- What a step of cleanup comes back with. -/
def NotLimited (r : Snapshot × Option Err) (c : Core) : Prop :=
  Budget c ∧ ∀ err, r.2 = some err → err.isKind .eventLimit = false

theorem Budget.removed (hc : Budget c) : Budget c.removed := by
  by_cases hplace : c.place = .aside
  · exact hc.congr rfl (if_pos hplace)
  · exact hc.push (if_neg hplace) (by decide) hc.cap fun _ => hc.reserve

theorem Budget.removalFailed (hc : Budget c) (left : Place) : Budget (c.removalFailed left) := by
  by_cases hleft : c.place = .kept ∧ left = .aside
  · exact hc.push (if_pos hleft) (by decide) hc.cap fun _ => hc.reserve
  · exact hc.congr rfl (if_neg hleft)

theorem Budget.destroy (hc : Budget c) (current : Snapshot) :
    Safe (coreRules anyChoice) Budget (destroy current) NotLimited c := by
  have hinc : ∀ err, some Sentinel.cleanupIncomplete.err = some err →
      err.isKind .eventLimit = false := by
    rintro _ ⟨⟩
    rfl
  refine core_destroy hc ((Budget.within (cleanupSteps_within _ _) (by decide) hc).post
    fun completed c hc => ?_)
  cases completed with
  | false => exact ⟨hc, hc, hinc⟩
  | true =>
    have hrem := hc.removed
    have htick : Budget c.removed.tick := ⟨hrem.cap, hrem.reserve, hrem.attempts⟩
    have hfail := hc.removalFailed
    refine ⟨hc, fun x _ _ => ⟨hfail _, hfail _, hinc⟩, ⟨hrem, htick⟩, ?_, ?_⟩
    · refine fun x err _ href => ⟨htick, ?_⟩
      rintro _ ⟨⟩
      exact transitionLifecycle_fails hc.cap _ err href
    intro x e _ hmade
    have hmoved : Budget (c.removed.tick.appended destroyedMove e (c.session.record e)) :=
      htick.push rfl (by simp [Effect.area])
        (move_length_le_cap hmade (by simp [Move.Proper, cleanupTargets]) hc.cap)
        fun hno => absurd rfl (hno e)
    exact (hmoved.publish e).post fun _ c' h => ⟨h, h, by simp⟩

/-- **Cleanup within the budget**: whatever stops it, it is not the budget. -/
theorem Budget.cleanupEntry (hc : Budget c) :
    Safe (coreRules anyChoice) Budget cleanupEntry NotLimited c := by
  refine core_cleanupEntry (fun _ h => h) (fun target c htgt hc => ?_)
    (fun current _ hc => hc.destroy current) hc ⟨hc.cap, hc.reserve, hc.attempts⟩
  have hprop : (Move.lifecycle target true).Proper := by
    obtain rfl | rfl := htgt <;> simp [Move.Proper, cleanupTargets]
  refine (hc.advance hprop).post fun r c h => ?_
  obtain ⟨last, _ | e⟩ := r
  · exact h.1
  · exact ⟨h.1, h.1, h.2 rfl⟩

theorem Budget.handles : Handles (coreRules anyChoice) Budget Budget :=
  core_handles (fun _ h => h)
    (fun _ _ hm h => (h.advance (Move.proper_of_not_cleanupOwned hm)).post fun _ _ h => h.1)
    fun resource _ => Budget.within (acquire_within resource) (by decide)

theorem Budget.answered (hc : Budget c) (attempt : Nat) (result : CommandResult)
    (h : ∀ err, result.err = some err → err.isKind .eventLimit = false) :
    Budget (c.traced (.completed attempt result)) := by
  refine ⟨hc.cap, fun hno => hc.reserve fun e he => hno e (mem_cons_of_mem _ he), ?_⟩
  intro a r err hmem herr
  obtain hnew | hold := mem_cons.1 hmem
  · cases hnew
    exact h err herr
  · exact hc.attempts a r err hold herr

theorem Budget.handle (hc : Budget c) (cmd : Command) :
    Safe (coreRules anyChoice) Budget (handle cmd) (fun _ => Budget) c := by
  refine safe_ite_self.1 ?_
  cases cmd with
  | cleanup attempt =>
    refine core_handleCleanup (fun _ h => h) (fun _ h => h) (hc.cleanupEntry.post fun r c h => ?_)
    obtain ⟨hc, hr⟩ := h
    split
    · rename_i he
      exact ⟨hc, hc.answered _ _ fun err herr => hr err (he.trans herr)⟩
    · have hfin : Budget (c.finished r.1) := ⟨hc.cap, hc.reserve, hc.attempts⟩
      have hans := hfin.answered attempt ⟨r.1, none, none⟩ (by simp)
      exact ⟨hc, hfin, hans, hans.cap, hans.reserve, hans.attempts⟩
  | _ => exact Budget.handles.handle _ (by simp) hc

theorem Budget.created (h : Created w) : Budget w.core := by
  obtain ⟨id, ownerUID, role, now, s, hs, -, rfl⟩ := h
  obtain ⟨-, -, -, rfl⟩ := newOwned_eq_ok.1 hs
  have hone : 1 ≤ 4093 := by decide
  exact ⟨hone, fun _ => hone, fun a r err h => by cases h⟩

theorem Budget.keeps : manager.Keeps anything Created (fun w => Budget w.core)
    (fun w => Budget w.core) (fun w => Budget w.core) :=
  manager_keeps (fun _ _ _ _ => trivial) (fun _ => .created) (fun _ h => h) (fun _ h => h)
    fun cmd _ hc => safe_ite_self.2 (hc.handle cmd)

/-- Where the results that callers see come from. -/
def Answers (w : World) : Prop :=
  ∀ a r, (a, r) ∈ w.clients.completed →
    .completed a r ∈ w.core.trace ∨ r.err = some Sentinel.notFound.err

theorem Answers.exec (h : Answers w) (o : Op) (x : Choice) : Answers (w.exec o x).2 := by
  obtain ⟨l, htr, -⟩ := exec_trace o (w.clients.answer o x) w.core
  intro a r hmem
  have hkeep : (a, r) ∈ w.clients.completed →
      .completed a r ∈ (w.exec o x).2.core.trace ∨ r.err = some Sentinel.notFound.err := by
    intro hold
    refine (h a r hold).imp_left fun hin => ?_
    change _ ∈ (w.core.exec o (w.clients.answer o x)).2.trace
    rw [htr]
    exact mem_append_right l hin
  cases o with
  | completeCleanup =>
    obtain heq | hold := Clients.mem_completeCleanup hmem
    · cases heq
      exact .inl mem_cons_self
    · exact hkeep hold
  | send =>
    refine hkeep ?_
    simp only [World.exec, Clients.after] at hmem
    split at hmem <;> exact hmem
  | _ => exact hkeep hmem

theorem Answers.env {w'} (h : Answers w) {i} (hi : w.env i = some w') : Answers w' := by
  obtain ⟨k, hk, rfl⟩ := Option.map_eq_some_iff.1 hi
  intro a r hmem
  cases Clients.env_step hk with
  | beginCleanup =>
    refine h a r ?_
    simp only [Clients.beginCleanup] at hmem
    split at hmem <;> exact hmem
  | admitDone =>
    obtain heq | hold := Clients.mem_completeCleanup hmem
    · cases heq
      exact .inr rfl
    · exact h a r hold
  | _ => exact h a r hmem

theorem Answers.of_reach {t} (h : Reach manager anything Created (w, t)) : Answers w := by
  refine Reach.of_step ?_ (fun o x w _ h => h.exec o x) ?_ (fun _ _ _ _ hi h => h.env hi) h
  · rintro _ ⟨id, ownerUID, role, now, s, -, -, rfl⟩ a r hmem
    cases hmem
  · intro i w p w' htake h
    obtain ⟨_, _, -, -, rfl⟩ | ⟨_, _, -, -, rfl⟩ := World.take_cases htake <;> exact h

/-- **The event budget.** In every reachable state a session has at most 4096 events, at most
4093 while no event of cleanup was written, and no cleanup attempt fails for lack of room. -/
theorem events_within_budget {w : World} {t : Thread Op Res}
    (h : Reach manager anything Created (w, t)) :
    ((∀ e, .appended e true ∉ w.core.trace) → w.core.session.events.length ≤ 4093) ∧
    w.core.session.events.length ≤ 4096 ∧
    (∀ a r err, (a, r) ∈ w.clients.completed → r.err = some err →
      err.isKind .eventLimit = false) := by
  have hbudg : Budget w.core := h.inv Budget.keeps
  refine ⟨hbudg.reserve, hbudg.cap.trans ?_, fun a r err hmem herr => ?_⟩
  · cases w.core.session.phase <;> simp [eventCap]
  · obtain htr | hnotF := Answers.of_reach h a r hmem
    · exact hbudg.attempts a r err htr herr
    · obtain rfl := Option.some.inj (hnotF.symm.trans herr)
      rfl

theorem events_within_budget_cleanup : ∃ w t, Reach manager anything Created (w, t) ∧
    w.core.session.phase = .destroyed ∧ w.core.session.events.length ≤ 4096 := by
  obtain ⟨w, t, h, hph⟩ := reach_startWorld (P := fun w _ => w.core.session.phase = .destroyed)
    (fun _ _ => true) (fun act c _ => Guard.permits_free act c) cleanupRun (by decide +kernel)
  exact ⟨w, t, h, hph, (events_within_budget h).2.1⟩

end PrivateVm.Session
