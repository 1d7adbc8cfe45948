import PrivateVm.Session.RoundTrip
import PrivateVm.Session.EventBudget
import PrivateVm.Session.CleanupOrder

set_option autoImplicit false
set_option linter.dupNamespace false

/-! # When cleanup converges

`Save` validates the whole journal before it writes, so that a transition whose clock reading lies
before the session's last event is taken back and the cleanup fails. `Remove` does not find a
record that an earlier one has left aside, and the session is destroyed without the record having
been removed. `cleanup_converges_iff` determines from which states and for which clocks a cleanup
request ends with the session destroyed and the record removed.
-/

namespace PrivateVm.Session

open Timestamp Checked Program

/-! ## Saving a transition -/

/-- An event at one time can be saved after an event at another. -/
structure SavableAfter (last t : Time) : Prop where
  le : last.nanos ≤ t.nanos
  year : 0 ≤ t.utc.date.year ∧ t.utc.date.year ≤ 9999

instance (last t : Time) : Decidable (SavableAfter last t) :=
  decidable_of_iff (last.nanos ≤ t.nanos ∧ 0 ≤ t.utc.date.year ∧ t.utc.date.year ≤ 9999)
    ⟨fun h => ⟨h.1, h.2⟩, fun h => ⟨h.le, h.year⟩⟩

theorem isSome_format_utc {t : Time} :
    (format t.utc).isSome ↔ 0 ≤ t.utc.date.year ∧ t.utc.date.year ≤ 9999 := by
  unfold format
  split
  · rename_i h
    simp [h.1, h.2.1]
  · rename_i h
    simp only [Option.isSome_none, Bool.false_eq_true, false_iff]
    exact fun hyear => h ⟨hyear.1, hyear.2, show ((0 : Int).tdiv 60).natAbs / 60 < 24 by decide⟩

/-- The session can be saved as it is. -/
structure Persisted (s : Session) : Prop where
  accepted : s.snapshot.Accepted
  writable : s.snapshot.TimesWritable

variable {s : Session} {attempt : Nat}

theorem persisted_iff : Persisted s ↔ ∃ data, encodeSnapshot s.snapshot = .ok data := by
  rw [encodeSnapshot_isOk]
  exact ⟨fun h => ⟨h.accepted, h.writable⟩, fun h => ⟨h.1, h.2⟩⟩

/-- **Which transitions are saved.** -/
theorem Session.Appends.persisted_iff {s' : Session} {now : Time} {e : Event}
    (h : s.Appends now e s') (hs : Persisted s) : Persisted s' ↔ SavableAfter s.updatedAt now := by
  have hacc := h.accepted_iff hs.accepted
  obtain ⟨-, htime, -, -, rfl⟩ := h
  have hwr : (s.record e).snapshot.TimesWritable ↔ (format now.utc).isSome := by
    rw [← htime]
    constructor
    · exact fun hw => hw.updatedAt
    refine fun he => ⟨hs.writable.createdAt, he, ?_⟩
    intro e' he'
    obtain hold | hnew := List.mem_append.1 he'
    · exact hs.writable.events e' hold
    · obtain rfl := List.mem_singleton.1 hnew
      exact he
  constructor
  · exact fun h => ⟨hacc.1 h.accepted, isSome_format_utc.1 (hwr.1 h.writable)⟩
  · exact fun h => ⟨hacc.2 h.le, hwr.2 (isSome_format_utc.2 h.year)⟩

/-! ## A session between two commands is saved -/

variable {c : Core} {w : World} {clock : Nat → Time}

theorem Persisted.advance {allows : Op → Choice → Core → Prop} (hc : Persisted c.session) (m : Move)
    : Safe (coreRules allows) (fun _ => True) (advance m)
      (fun _ c => Persisted c.session) c := by
  refine core_advance trivial trivial (fun _ _ _ _ => hc) fun x e _ _ =>
    ⟨trivial, fun _ _ _ => ?_, ?_⟩
  · exact ⟨trivial, hc⟩
  · intro data hdata
    refine (core_publish (fun _ _ => trivial) (fun _ h => h) ?_).post fun _ _ h => ⟨trivial, h⟩
    exact Session.persisted_iff.2 ⟨data, hdata⟩

theorem Persisted.cleanupEntry (hc : Persisted c.session) :
    Safe (coreRules anyChoice) (fun _ => True) cleanupEntry
      (fun r c => r.2 = none ∨ Persisted c.session) c := by
  refine core_cleanupEntry (P := fun c => Persisted c.session) (fun _ _ => trivial)
    (fun target c _ hc => ?_) (fun current c hc => ?_) trivial hc
  · refine (hc.advance _).post fun r c h => ?_
    obtain ⟨last, _ | e⟩ := r
    · exact h
    · exact ⟨trivial, .inr h⟩
  · refine core_destroy trivial ((core_within_session (cleanupSteps_within _ _)
      (by decide) hc).post fun completed c' hc => ?_)
    cases completed with
    | false => exact ⟨trivial, .inr hc⟩
    | true =>
      refine ⟨trivial, fun _ _ _ => ⟨trivial, .inr hc⟩, ⟨trivial, trivial⟩, fun _ _ _ _ => .inr hc,
        fun x e _ _ => ?_⟩
      exact (core_publish (P := fun _ => True) (fun _ _ => trivial) (fun _ _ => trivial)
        trivial).post fun _ _ _ => ⟨trivial, .inl rfl⟩

theorem Persisted.handle (hc : Persisted c.session) (cmd : Command) :
    Safe (coreRules anyChoice) (fun _ => True) (handle cmd)
      (fun b c => if b then True else Persisted c.session) c := by
  cases cmd with
  | cleanup =>
    refine core_handleCleanup (fun _ _ => trivial) (fun _ _ => trivial)
      (hc.cleanupEntry.post fun r c h => ?_)
    obtain ⟨last, _ | e⟩ := r
    · exact ⟨trivial, trivial, trivial, trivial⟩
    · obtain hnone | hc := h
      · cases hnone
      · exact ⟨trivial, hc⟩
  | _ =>
    refine (core_handles (fun _ _ => trivial)
      (fun m c _ hc => hc.advance m) fun resource c hc => ?_).handle _ (by simp) hc
    exact core_within_session (acquire_within resource) (by decide) hc

/-- What is known of a session that waits for its next command. -/
structure Ready (s : Session) : Prop extends Persisted s where
  room : s.events.length ≤ eventCap s.phase
  live : s.phase ≠ .destroyed

theorem Persisted.keeps : manager.Keeps anything Created (fun _ => True)
    (fun w => Persisted w.core.session) (fun _ => True) := by
  refine manager_keeps (fun _ _ _ _ => trivial) ?_
    (fun _ _ => trivial) (fun _ _ => trivial) fun cmd _ hc => Persisted.handle hc cmd
  rintro _ ⟨id, ownerUID, role, now, s, -, hdata, rfl⟩
  exact Session.persisted_iff.2 hdata

theorem Ready.of_reach (h : Reach manager anything Created (w, .idle)) : Ready w.core.session where
  toPersisted := h.holds Persisted.keeps
  room := Budget.cap (h.holds Budget.keeps)
  live := Ledger.live (h.holds Ledger.keeps)

/-! ## Cleanup when everything succeeds -/

/-- Callbacks and store operations succeed, and the clock shows `clock`. -/
def succeeding (clock : Nat → Time) (o : Op) (x : Choice) (c : Core) : Prop :=
  x.ok = true ∧ (o = .now → x.time = clock c.reads)

section

variable {clock : Nat → Time} {c : Core}

theorem exists_lifecycleEvents {p q} (h : q ∈ lifecycleTransitions p) :
    ∃ code message, lifecycleEvents q = some (code, message) := by
  cases p <;> simp only [lifecycleTransitions, List.mem_cons, List.not_mem_nil, or_false] at h <;>
    rcases h with rfl | rfl <;> exact ⟨_, _, rfl⟩

variable {target : Phase}

/-- A transition of the graph with room for its event is made. -/
theorem move_made {s : Session} (hedge : target ∈ lifecycleTransitions s.phase)
    (hroom : s.events.length ≤ eventCap s.phase) (now : Time) :
    ∃ e, s.move now (.lifecycle target true) = .ok (e, s.record e) := by
  obtain ⟨code, message, hev⟩ := exists_lifecycleEvents hedge
  exact ⟨_, Session.transitionLifecycle_eq_ok.2 ⟨hedge, by simp,
    hroom.trans_lt (eventCap_lt_max hedge), code, message, hev, rfl, rfl⟩⟩

/-- One transition of cleanup from `c`: it is made and saved, or taken back. -/
structure Entered (clock : Nat → Time) (target : Phase) (c : Core) (r : Snapshot × Option Err)
    (c' : Core) : Prop where
  saved : SavableAfter c.session.updatedAt (clock c.reads) →
    r = (c'.session.snapshot, none) ∧ Ready c'.session ∧ c'.session.phase = target ∧
      c'.session.updatedAt = (clock c.reads).utc ∧ c'.reads = c.reads + 1
  failed : ¬ SavableAfter c.session.updatedAt (clock c.reads) →
    r.2.isSome ∧ c'.session = c.session

theorem Ready.advance (hc : Ready c.session) (hedge : target ∈ lifecycleTransitions c.session.phase)
    (htgt : target ∈ cleanupTargets) (hlive : target ≠ .destroyed) :
    Safe (coreRules (succeeding clock)) (fun _ => True) (advance (.lifecycle target true))
      (Entered clock target c) c := by
  refine core_advance trivial trivial (fun x err _ href => ?_) fun x e hx hmade => ?_
  · obtain ⟨e, hmade⟩ := move_made hedge hc.room x.time.utc
    simp [hmade] at href
  have htime : x.time = clock c.reads := hx.2 rfl
  have happ : c.session.Appends x.time.utc e (c.session.record e) :=
    Session.appends_of_lifecycle hmade
  have hph : e.phase = target := by
    obtain ⟨-, -, -, code, message, -, rfl, -⟩ := Session.transitionLifecycle_eq_ok.1 hmade
    rfl
  have hsaves :
      Persisted (c.session.record e) ↔ SavableAfter c.session.updatedAt (clock c.reads) := by
    rw [happ.persisted_iff hc.toPersisted, htime]
    exact ⟨fun h => ⟨h.le, h.year⟩, fun h => ⟨h.le, h.year⟩⟩
  refine ⟨trivial, fun err _ hwhy => ⟨trivial, fun hsav => ?_, fun _ => ⟨rfl, rfl⟩⟩,
    fun data hdata => ?_⟩
  · obtain henc | ⟨y, hy, hfalse⟩ := hwhy
    · obtain ⟨data, hdata⟩ := Session.persisted_iff.1 (hsaves.2 hsav)
      exact absurd (hdata.symm.trans henc) (by simp)
    · exact absurd hy.1 (by simp [hfalse])
  · have hpers := Session.persisted_iff.2 ⟨data, hdata⟩
    have hready : Ready (c.session.record e) :=
      ⟨hpers, move_length_le_cap hmade htgt hc.room, by rw [← hph] at hlive; exact hlive⟩
    refine (core_publish (P := fun c' => c'.session = c.session.record e ∧ c'.reads = c.reads + 1)
      (fun _ _ => trivial) (fun _ h => h) ⟨rfl, rfl⟩).post
        fun _ c' hc' => ⟨trivial, fun _ => ?_, ?_⟩
    · rw [hc'.1]
      refine ⟨rfl, hready, hph, ?_, hc'.2⟩
      exact (happ.time.trans (by rw [htime]; rfl))
    · exact (absurd (hsaves.1 hpers))

theorem cleanupSteps_succeeding (steps : List CleanupStep) (index : Nat) :
    Safe (coreRules (succeeding clock)) (fun _ => True) (cleanupSteps steps index)
      (fun completed _ => completed = true) c := by
  induction index generalizing c with
  | zero => exact core_pure.2 ⟨trivial, rfl⟩
  | succ index ih =>
    unfold cleanupSteps
    split
    · exact ih
    split
    · exact ih
    refine core_cleanup trivial fun ok hok => ?_
    obtain ⟨x, hx, rfl⟩ := hok
    rw [hx.1]
    refine core_audit trivial fun ok hok => ?_
    obtain ⟨y, hy, rfl⟩ := hok
    rw [hy.1]
    exact core_call.2 ⟨trivial, fun _ _ => ih⟩

/-- How a cleanup without an error ends: no record has its name any more. -/
def Gone (c : Core) : Prop := c.session.phase = .destroyed ∧ c.place ≠ .kept

theorem Ready.destroy (hc : Ready c.session) (hph : c.session.phase = .destroying)
    (current : Snapshot) :
    Safe (coreRules (succeeding clock)) (fun _ => True) (destroy current)
      (fun r c => r.2 = none ∧ Gone c) c := by
  have hsteps : Safe (coreRules (succeeding clock)) _ (cleanupSteps c.steps c.steps.length) _ c :=
    (cleanupSteps_succeeding c.steps c.steps.length).and
      (core_within_session (P := fun s => s = c.session) (cleanupSteps_within _ _) (by decide) rfl)
  refine core_destroy trivial ((hsteps.mono (fun _ _ => trivial) fun _ _ h => h).post ?_)
  rintro completed c' ⟨rfl, hses⟩
  have hedge : .destroyed ∈ lifecycleTransitions c'.session.phase := by
    rw [hses, hph]
    decide
  refine ⟨trivial, fun x hx hfalse => ?_, ⟨trivial, trivial⟩, fun x err _ href => ?_,
    fun x e _ hmade => ?_⟩
  · exact absurd hx.1 (by simp [hfalse])
  · obtain ⟨e, hmade⟩ := move_made hedge (hses ▸ hc.room) x.time.utc
    simp [hmade] at href
  · obtain ⟨-, -, -, code, message, -, rfl, -⟩ := Session.transitionLifecycle_eq_ok.1 hmade
    have hplace : c'.removed.place ≠ .kept := by
      unfold Core.removed
      split <;> simp
    refine (core_publish (P := Gone) (fun _ _ => trivial) (fun _ h => h) ?_).post
      fun _ _ h => ⟨trivial, rfl, h⟩
    exact ⟨rfl, hplace⟩

/-- How a cleanup ends when its transitions can be saved, and when not. -/
def Decided (savable : Prop) (r : Snapshot × Option Err) (c : Core) : Prop :=
  (savable → r.2 = none ∧ Gone c) ∧ (¬ savable → r.2.isSome ∧ c.session.phase ≠ .destroyed)

theorem Decided.congr {p q : Prop} (hpq : p ↔ q) {r} (h : Decided p r c) : Decided q r c := by
  rwa [← propext hpq]

/-- The second phase of cleanup, and what follows. -/
theorem Ready.enterDestroying (hc : Ready c.session)
    (hedge : c.session.phase ≠ .destroying → .destroying ∈ lifecycleTransitions c.session.phase) :
    Safe (coreRules (succeeding clock)) (fun _ => True)
      (unlessErr (enter (c.session.snapshot.phase == .destroying) .destroying c.session.snapshot)
        Session.destroy)
      (Decided (c.session.phase = .destroying ∨
        SavableAfter c.session.updatedAt (clock c.reads))) c := by
  refine core_unlessErr ?_
  by_cases hph : c.session.phase = .destroying
  · have hpass : (c.session.snapshot.phase == .destroying) = true := beq_iff_eq.2 hph
    rw [hpass]
    exact core_pure.2 ⟨trivial, (hc.destroy hph _).post fun r c h =>
      ⟨fun _ => h, absurd (.inl hph)⟩⟩
  · have hpass : (c.session.snapshot.phase == .destroying) = false := beq_eq_false_iff_ne.2 hph
    rw [hpass]
    refine (hc.advance (hedge hph) (by decide) (by decide)).post fun r c' h => ?_
    by_cases hsav : SavableAfter c.session.updatedAt (clock c.reads)
    · obtain ⟨rfl, hready, hdest, -, -⟩ := h.saved hsav
      exact (hready.destroy hdest _).post fun r c h =>
        ⟨fun _ => h, absurd (.inr hsav)⟩
    obtain ⟨hsome, hses⟩ := h.failed hsav
    obtain ⟨last, _ | e⟩ := r
    · cases hsome
    · refine ⟨trivial, fun hor => ?_, fun _ => ⟨rfl, hses ▸ hc.live⟩⟩
      exact (hor.elim hph hsav).elim

/-- The readings at the transitions that a cleanup has to save: none in DESTROYING, one from
STOPPING and ABORTING, and two before. -/
def ClockOK (clock : Nat → Time) (c : Core) : Prop :=
  match c.session.phase with
  | .destroying => True
  | .stopping | .aborting => SavableAfter c.session.updatedAt (clock c.reads)
  | _ => SavableAfter c.session.updatedAt (clock c.reads) ∧
      SavableAfter (clock c.reads) (clock (c.reads + 1))

/-- The two phases of cleanup, from a session that has not begun it. -/
theorem Ready.enterAborting (hc : Ready c.session)
    (hedge : .aborting ∈ lifecycleTransitions c.session.phase) :
    Safe (coreRules (succeeding clock)) (fun _ => True)
      (unlessErr (enter false .aborting c.session.snapshot) fun current =>
        unlessErr (enter (current.phase == .destroying) .destroying current) Session.destroy)
      (Decided (SavableAfter c.session.updatedAt (clock c.reads) ∧
        SavableAfter (clock c.reads) (clock (c.reads + 1)))) c := by
  refine core_unlessErr ((hc.advance hedge (by decide) (by decide)).post fun r c' h => ?_)
  by_cases hsav : SavableAfter c.session.updatedAt (clock c.reads)
  · obtain ⟨rfl, hready, habor, hupd, hreads⟩ := h.saved hsav
    have hedge' : .destroying ∈ lifecycleTransitions c'.session.phase := by
      rw [habor]
      decide
    refine (hready.enterDestroying fun _ => hedge').post fun r c'' hdec => hdec.congr ?_
    rw [habor, hupd, hreads]
    constructor
    · rintro (hd | hnext)
      · cases hd
      · exact ⟨hsav, hnext.le, hnext.year⟩
    · exact fun hboth => .inr ⟨hboth.2.le, hboth.2.year⟩
  · obtain ⟨hsome, hses⟩ := h.failed hsav
    obtain ⟨last, _ | e⟩ := r
    · cases hsome
    · exact ⟨trivial, fun hboth => absurd hboth.1 hsav, fun _ => ⟨rfl, hses ▸ hc.live⟩⟩

theorem validPhase_of_accepted {sn : Snapshot} (h : sn.Accepted) : validPhase sn.phase = true := by
  obtain ⟨t, rest, -, -, hc⟩ := h.journal
  exact hc.validPhase rfl

theorem Ready.cleanupEntry (hc : Ready c.session) :
    Safe (coreRules (succeeding clock)) (fun _ => True) cleanupEntry
      (Decided (ClockOK clock c)) c := by
  refine core_call.2 ⟨trivial, fun _ _ => core_call.2 ⟨trivial, fun _ _ => ?_⟩⟩
  change Safe _ _ (unlessErr (enter (c.session.phase == .stopping || c.session.phase == .aborting ||
    c.session.phase == .destroying) .aborting c.session.snapshot) _) _ c.stopped
  have hpass : (c.session.phase ≠ .destroying →
        .destroying ∈ lifecycleTransitions c.session.phase) →
      (ClockOK clock c ↔ c.session.phase = .destroying ∨
        SavableAfter c.session.updatedAt (clock c.reads)) →
      Safe (coreRules (succeeding clock)) (fun _ => True)
        (unlessErr (enter true .aborting c.session.snapshot) fun current =>
          unlessErr (enter (current.phase == .destroying) .destroying current) Session.destroy)
        (Decided (ClockOK clock c)) c.stopped := by
    intro hedge hclock
    exact (Ready.enterDestroying (c := c.stopped) hc hedge).post fun r c h => h.congr hclock.symm
  cases hph : c.session.phase with
  | destroying => exact hpass (absurd hph) (by simp [ClockOK, hph])
  | stopping => exact hpass (fun _ => by rw [hph]; decide) (by simp [ClockOK, hph])
  | aborting => exact hpass (fun _ => by rw [hph]; decide) (by simp [ClockOK, hph])
  | destroyed => exact absurd hph hc.live
  | other =>
    have hval := validPhase_of_accepted hc.accepted
    rw [show c.session.snapshot.phase = _ from hph] at hval
    cases hval
  | _ =>
    refine (Ready.enterAborting (c := c.stopped) hc ?_).post fun r c h => h.congr ?_
    · change _ ∈ lifecycleTransitions c.session.phase
      rw [hph]
      decide
    · simp only [ClockOK, hph]
      rfl

end

/-! ## Cleanup requests -/

/-- In every interleaving, callbacks and store operations succeed and the clock shows `clock`. -/
def succeedingRuns (clock : Nat → Time) : Guard Op Choice World Input where
  op o x w := succeeding clock o x w.core
  env _ _ := True

/-- A cleanup request ends the session, whatever callers and subscribers do meanwhile. -/
def Converges (clock : Nat → Time) (attempt : Nat) (w : World) : Prop :=
  Safe (manager.rules (succeedingRuns clock)) (fun _ => True) (handle (.cleanup attempt))
    (fun ended w => ended = true ∧ w.core.session.phase = .destroyed ∧ w.core.place = .gone) w

theorem answer_succeeding {o : Op} {x} (h : succeeding clock o x w.core) :
    succeeding clock o (w.clients.answer o x) w.core := by
  cases o <;> exact h

theorem Ready.handleCleanup (hc : Ready c.session) :
    Safe (coreRules (succeeding clock)) (fun _ => True) (handle (.cleanup attempt))
      (fun ended c' => if ended then ClockOK clock c ∧ Gone c' else ¬ ClockOK clock c) c := by
  refine core_handleCleanup (fun _ _ => trivial) (fun _ _ => trivial)
    (hc.cleanupEntry.post fun r c' h => ?_)
  obtain ⟨last, _ | e⟩ := r
  · have hclock : ClockOK clock c := by
      by_contra hnot
      exact absurd (h.2 hnot).1 (by simp)
    exact ⟨trivial, trivial, trivial, hclock, (h.1 hclock).2⟩
  · exact ⟨trivial, fun hclock => absurd (h.1 hclock).1 (by simp)⟩

/-- A record is set aside by a removal that fails only, and stays there. -/
theorem exec_aside {o : Op} {x : Choice} (hok : x.ok = true) (c : Core) :
    (c.exec o x).2.place = .aside ↔ c.place = .aside := by
  cases o with
  | remove =>
    simp only [Core.exec, hok, if_true, Core.removed]
    split <;> simp [*]
  | move | allocate =>
    simp only [Core.exec]
    split <;> rfl
  | save =>
    simp only [Core.exec]
    split
    · rfl
    · split <;> rfl
  | _ => rfl

theorem succeeding_aside {α : Type} (p : Code α) (c : Core) :
    Safe (coreRules (succeeding clock)) (fun _ => True) p
      (fun _ c' => c'.place = .aside ↔ c.place = .aside) c :=
  .of_uses p.uses_all (fun _ _ => trivial) (fun _ _ h hr => hr ▸ h)
    (fun _ _ c' _ hx h => (exec_aside hx.1 c').trans h) .rfl

theorem Ready.converges_iff (hw : Ready w.core.session) :
    Converges clock attempt w ↔ ClockOK clock w.core ∧ w.core.place ≠ .aside := by
  have hsafe : Safe (manager.rules (succeedingRuns clock)) (fun _ => True)
      (handle (.cleanup attempt)) (fun ended w' => (if ended then
        ClockOK clock w.core ∧ Gone w'.core else ¬ ClockOK clock w.core) ∧
          (w'.core.place = .aside ↔ w.core.place = .aside)) w :=
    ((Safe.of_project (World.projects_core fun _ _ _ => answer_succeeding)
      (hw.handleCleanup.and (succeeding_aside _ _))).mono (fun _ _ => trivial) fun _ _ h => h)
  constructor
  · intro hconv
    have hprog : ∀ o w,
        ∃ x, (manager.rules (succeedingRuns clock)).allows o x w :=
      fun o w => ⟨{ time := clock w.core.reads }, rfl, fun _ => rfl⟩
    obtain ⟨ended, w', ⟨rfl, -, hgone⟩, hclock, hsame⟩ := hconv.not_both hprog hsafe
    refine ⟨hclock.1, fun haside => ?_⟩
    have hstays := hsame.2 haside
    rw [hgone] at hstays
    cases hstays
  · rintro ⟨hclock, hplace⟩
    refine hsafe.post fun ended w' h => ?_
    obtain ⟨h, hsame⟩ := h
    cases ended with
    | false => exact absurd hclock h
    | true =>
      obtain ⟨-, hph, hkept⟩ := h
      refine ⟨rfl, hph, ?_⟩
      cases hat : w'.core.place with
      | kept => exact absurd hat hkept
      | aside => exact absurd (hsame.1 hat) hplace
      | gone => rfl

end PrivateVm.Session
