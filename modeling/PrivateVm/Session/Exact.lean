import PrivateVm.Session.RoundTrip

set_option autoImplicit false
set_option linter.dupNamespace false

/-! # The validator is exact

A `Run` creates a session and applies transitions at times that do not decrease. Its snapshots pass
the validator, and a snapshot of at most 4093 events that passes is the snapshot of a run, once its
times are shown in UTC.
-/

namespace PrivateVm.Session

open Timestamp Checked Decimal Json List

/-- The sessions that creation and transitions lead to, at instants in `R` that do not
decrease. -/
inductive Run (R : Int → Prop) : Session → Prop
  | create {id : String} {ownerUID : UInt32} {role : Role} {now : Time} {s : Session}
      (mem : R now.nanos) (step : newOwned id ownerUID role now = .ok s) : Run R s
  | lifecycle {s s' : Session} {target : Phase} {cleanupOwned : Bool} {now : Time} {e : Event}
      (init : Run R s) (mem : R now.nanos) (le : s.updatedAt.nanos ≤ now.nanos)
      (step : s.transitionLifecycle target cleanupOwned now = .ok (e, s')) : Run R s'
  | workflow {s s' : Session} {target : String} {now : Time} {e : Event}
      (init : Run R s) (mem : R now.nanos) (le : s.updatedAt.nanos ≤ now.nanos)
      (step : s.transitionWorkflow target now = .ok (e, s')) : Run R s'

/-! ## Times shown in UTC -/

def Event.utc (e : Event) : Event := { e with time := e.time.utc }

def Snapshot.utc (sn : Snapshot) : Snapshot :=
  { sn with
    createdAt := sn.createdAt.utc
    updatedAt := sn.updatedAt.utc
    events := sn.events.map Event.utc }

variable {role : Role} {e : Event} {R : Int → Prop} {now : Time} {s : Session} {c d : Cursor}
  {l : List Event} {t : Time} {sn : Snapshot} {id : String} {s' : Session}

theorem Cursor.follows_utc : c.Follows role e.utc ↔ c.Follows role e := by
  constructor <;> intro h <;> cases h with
  | workflow h₁ h₂ h₃ h₄ h₅ => exact .workflow h₁ h₂ h₃ h₄ h₅
  | lifecycle h₁ h₂ h₃ => exact .lifecycle h₁ h₂ h₃

theorem continues_map_utc : Continues role c (l.map .utc) d ↔ Continues role c l d := by
  induction l using List.reverseRecOn generalizing d with
  | nil => rfl
  | append_singleton l e ih =>
    simp only [map_append, map_cons, map_nil, Continues.append_singleton, ih,
      Cursor.follows_utc]
    rfl

theorem eq_createdEvent_of_utc (h : e.utc = createdEvent t) :
    e = createdEvent e.time ∧ e.time.nanos = t.nanos := by
  obtain ⟨seq, code, phase, workflowState, message, time⟩ := e
  simp only [createdEvent, Event.mk.injEq] at h ⊢
  obtain ⟨rfl, rfl, rfl, rfl, rfl, rfl⟩ := h
  exact ⟨⟨rfl, rfl, rfl, rfl, rfl, trivial⟩, rfl⟩

/-- The validator looks at instants only. -/
theorem Snapshot.accepted_utc : sn.utc.Accepted ↔ sn.Accepted := by
  have hjour : Journal sn.utc.role sn.utc.createdAt.nanos sn.utc.events sn.utc.cursor ↔
      Journal sn.role sn.createdAt.nanos sn.events sn.cursor := by
    constructor
    · rintro ⟨t, rest, ht, hev, hc⟩
      obtain ⟨first, rest', hsn, hfst, rfl⟩ := map_eq_cons_iff.1 hev
      obtain ⟨hfst', hnanos⟩ := eq_createdEvent_of_utc hfst
      refine ⟨first.time, rest', hnanos.trans ht, by rw [hsn, ← hfst'], ?_⟩
      have hcurs : (createdEvent t).cursor = (createdEvent first.time).cursor := by
        simp only [Event.cursor, createdEvent, hnanos]
      rw [← hcurs]
      exact continues_map_utc.1 hc
    · rintro ⟨t, rest, ht, hev, hc⟩
      exact ⟨t.utc, rest.map .utc, ht, by simp only [Snapshot.utc, hev]; rfl,
        continues_map_utc.2 hc⟩
  constructor
  · intro h
    exact ⟨h.schemaVersion, h.id, h.role, h.created, by simpa [Snapshot.utc] using h.budget,
      hjour.1 h.journal⟩
  · intro h
    exact ⟨h.schemaVersion, h.id, h.role, h.created, by simpa [Snapshot.utc] using h.budget,
      hjour.2 h.journal⟩

/-! ## Every snapshot of a run is accepted -/

/-- What every session of a run satisfies. -/
structure Session.Reached (R : Int → Prop) (s : Session) : Prop where
  accepted : s.snapshot.Accepted
  utc : s.snapshot.utc = s.snapshot
  mem : ∀ e ∈ s.events, R e.time.nanos
  created : R s.createdAt.nanos
  updated : R s.updatedAt.nanos

theorem newOwned_reached {ownerUID} (mem : R now.nanos) (h : newOwned id ownerUID role now = .ok s)
    : s.Reached R := by
  obtain ⟨hrole, hid, hz, rfl⟩ := newOwned_eq_ok.1 h
  refine ⟨⟨rfl, hid, hrole, hz, ?_, ?_⟩, rfl, by simpa [createdEvent] using mem, mem, mem⟩
  · change 1 ≤ maxSessionEvents
    decide
  · exact ⟨now.utc, [], rfl, rfl, .done _⟩

/-- Transitions write their times in UTC. -/
theorem Session.Appends.utc (h : s.Appends now e s') (hutc : s.snapshot.utc = s.snapshot) :
    s'.snapshot.utc = s'.snapshot := by
  obtain ⟨-, htime, -, -, rfl⟩ := h
  have he : e.utc = e := by
    obtain ⟨seq, code, phase, workflowState, message, time⟩ := e
    subst htime
    rfl
  simp only [Snapshot.utc, Session.snapshot, Snapshot.mk.injEq] at hutc
  simp [Snapshot.utc, Session.snapshot, Session.record, hutc, he, htime]

theorem Session.Appends.reached (h : s.Appends now e s') (hs : s.Reached R) (mem : R now.nanos)
    (le : s.updatedAt.nanos ≤ now.nanos) : s'.Reached R := by
  have hacc := (h.accepted_iff hs.accepted).2 le
  have hutc := h.utc hs.utc
  obtain ⟨-, htime, -, -, rfl⟩ := h
  have hmem : R e.time.nanos := by rw [htime]; exact mem
  refine ⟨hacc, hutc, ?_, hs.created, hmem⟩
  · simp only [Session.record, forall_mem_append, forall_mem_cons]
    exact ⟨hs.mem, hmem, by simp⟩

theorem Run.reached (h : Run R s) : s.Reached R := by
  induction h with
  | create mem step => exact newOwned_reached mem step
  | lifecycle _ mem le step ih => exact (Session.appends_of_lifecycle step).reached ih mem le
  | workflow _ mem le step ih => exact (Session.appends_of_workflow step).reached ih mem le

/-! ## Every accepted snapshot is reached by a run -/

def journalSession (id : String) (ownerUID : UInt32) (role : Role) (t : Time) (l : List Event)
    (d : Cursor) : Session where
  id := id
  ownerUID := ownerUID
  role := role
  phase := d.phase
  workflowState := d.workflowState
  sequence := d.sequence
  createdAt := t.utc
  updatedAt := ⟨d.instant, 0⟩
  events := (createdEvent t :: l).map Event.utc

theorem journalSession_snoc (id : String) (ownerUID : UInt32) (role : Role) (t : Time)
    (l : List Event) (d : Cursor) (e : Event) :
    journalSession id ownerUID role t (l ++ [e]) e.cursor =
      (journalSession id ownerUID role t l d).record e.utc := by
  simp only [journalSession, Session.record, Event.cursor, Event.utc, Time.utc, map_append,
    map_cons, map_nil, cons_append]

/-- A journal within the budget of ordinary events is replayed by a run: each event that
follows is written by the transition it reports. -/
theorem Continues.run (ownerUID : UInt32) (h : Continues role (createdEvent t).cursor l d)
    (hid : validateID id = .ok ()) (hrole : validateRole role = .ok ()) (hz : t.isZero = false)
    (ht : R t.nanos) (hlen : l.length < eventLimit false) (hR : ∀ e ∈ l, R e.time.nanos) :
    Run R (journalSession id ownerUID role t l d) := by
  induction h with
  | done => exact .create ht (newOwned_eq_ok.2 ⟨hrole, hid, hz, rfl⟩)
  | @snoc d l e init hs hle follows ih =>
    simp only [length_append] at hlen
    simp only [forall_mem_append, forall_mem_cons] at hR
    have hrun := ih (by omega) hR.1
    have hroom : (journalSession id ownerUID role t l d).events.length < eventLimit false := by
      simpa [journalSession] using hlen
    rw [journalSession_snoc id ownerUID role t l d]
    cases follows with
    | workflow code message phase open_ allowed =>
      refine .workflow hrun hR.2.1 hle (Session.transitionWorkflow_eq_ok.2
        ⟨open_, allowed, hroom, ?_, rfl⟩)
      simp only [Event.utc, Event.mk.injEq]
      exact ⟨hs, code, phase, trivial, message, trivial⟩
    | lifecycle event state edge =>
      have hstep : (journalSession id ownerUID role t l d).transitionLifecycle e.phase true
          e.time = .ok (e.utc, (journalSession id ownerUID role t l d).record e.utc) := by
        refine Session.transitionLifecycle_eq_ok.2 ⟨edge, fun h => (by cases h),
          hroom.trans_le (Session.eventLimit_le false), e.code, e.message, event, ?_, rfl⟩
        simp only [Event.utc, Event.mk.injEq]
        exact ⟨hs, trivial, trivial, state, trivial, trivial⟩
      exact .lifecycle hrun hR.2.1 hle hstep

theorem Snapshot.Accepted.exists_run (h : sn.Accepted) (hlen : sn.events.length ≤ eventLimit false)
    (hR : ∀ e ∈ sn.events, R e.time.nanos) : ∃ s, Run R s ∧ s.snapshot = sn.utc := by
  obtain ⟨t, rest, ht, hev, hc⟩ := h.journal
  rw [hev] at hlen hR
  rw [forall_mem_cons] at hR
  have hz : t.isZero = false := by simpa [ht] using h.created
  refine ⟨_, hc.run sn.ownerUID h.id h.role hz hR.1 hlen hR.2, ?_⟩
  have hcre : t.utc = sn.createdAt.utc := by simp [Time.utc, ht]
  simp only [journalSession, Snapshot.utc, hcre, hev, h.schemaVersion]
  trivial

/-- The times of a run at representable instants survive being written and read. -/
theorem Session.Reached.timesRepresentable (h : s.Reached fun n => Representable ⟨n, 0⟩) :
    s.snapshot.TimesRepresentable := by
  have hutc := h.utc
  simp only [Snapshot.utc, Session.snapshot, Snapshot.mk.injEq, true_and] at hutc
  obtain ⟨hcre, hupd, hevs⟩ := hutc
  have hc : Representable s.createdAt.utc := h.created
  have hu : Representable s.updatedAt.utc := h.updated
  rw [hcre] at hc
  rw [hupd] at hu
  refine ⟨hc, hu, fun e he => ?_⟩
  change e ∈ s.events at he
  rw [← hevs] at he
  obtain ⟨e', he', rfl⟩ := mem_map.1 he
  exact h.mem e' he'

/-- **The validator is exact**, up to the offset times are shown in, for every set of instants
that the times of the snapshot lie in; every state of a run at representable times can be
written and read back, and every record of at most 4093 events that is read is the state of a
run. -/
theorem validateSnapshot_exact :
    (∀ (R : Int → Prop) (sn : Snapshot), sn.events.length ≤ 4093 →
      ((validateSnapshot sn = .ok () ∧ ∀ e ∈ sn.events, R e.time.nanos) ↔
        ∃ s, Run R s ∧ s.snapshot = sn.utc)) ∧
    (∀ s, Run (fun n => Representable ⟨n, 0⟩) s →
      ∃ data, encodeSnapshot s.snapshot = .ok data ∧
        decodeSnapshot data s.id = .ok s.snapshot) ∧
    ∀ (data : Bytes) (expectedID : String) (sn : Snapshot),
      decodeSnapshot data expectedID = .ok sn → sn.events.length ≤ 4093 →
        ∃ s, Run (fun _ => True) s ∧ s.snapshot = sn.utc := by
  refine ⟨fun R sn hlen => ⟨?_, ?_⟩, fun s hs => ?_, fun data expectedID sn h hlen => ?_⟩
  · rintro ⟨h, hR⟩
    exact (validateSnapshot_eq_ok.1 h).exists_run hlen hR
  · rintro ⟨s, hs, hsn⟩
    have hreac := hs.reached
    refine ⟨validateSnapshot_eq_ok.2 (Snapshot.accepted_utc.1 (hsn ▸ hreac.accepted)), ?_⟩
    intro e he
    have hevs : s.events = sn.events.map .utc := congrArg Snapshot.events hsn
    have := hreac.mem e.utc (by rw [hevs]; exact mem_map_of_mem he)
    exact this
  · exact (roundTrip_iff hs.reached.accepted).2 hs.reached.timesRepresentable
  · obtain ⟨-, -, -, -, ha, -⟩ := decodeSnapshot_eq_ok.1 h
    exact ha.exists_run hlen fun _ _ => trivial

/-! ## What only the offset and the range of times exclude -/

def sampleID : String := "pvm-00112233445566778899aabbccddeeff"

/-- New Year's midnight on a clock with an offset. -/
def sampleTime (year offset : Int) : Time := .ofClock ⟨year, 1, 1⟩ 0 0 0 0 offset

def sampleSnapshot (t : Time) : Snapshot where
  schemaVersion := 1
  id := sampleID
  ownerUID := 1000
  role := .scanner
  phase := .created
  workflowState := ""
  sequence := 1
  createdAt := t
  updatedAt := t
  events := [createdEvent t]

/-- That session after a transition of its lifecycle and one of its workflow. -/
def advancedSnapshot (t : Time) : Snapshot :=
  { sampleSnapshot t with
    phase := .preflighted
    workflowState := "UPDATE_VM_BOOTING"
    sequence := 3
    events := [createdEvent t,
      ⟨2, "SESSION_PREFLIGHTED", .preflighted, "", "Host preflight completed.", t⟩,
      ⟨3, "WORKFLOW_STATE_CHANGED", .preflighted, "UPDATE_VM_BOOTING", "Role workflow advanced.",
        t⟩] }

/-- A snapshot with an offset of an hour is that of a run, taken to UTC. -/
theorem validateSnapshot_exact_sample :
    ∃ s, Run (fun n => Representable ⟨n, 0⟩) s ∧
      s.snapshot = (advancedSnapshot (sampleTime 2026 3600)).utc :=
  (validateSnapshot_exact.1 _ _ (by decide)).1 ⟨by decide +kernel, by decide +kernel⟩

/-- Two accepted snapshots that no run at representable times has: one with an offset of an
hour, one of the year 10000. -/
theorem validateSnapshot_accepts_unreached :
    validateSnapshot (sampleSnapshot (sampleTime 2026 3600)) = .ok () ∧
    (¬ ∃ s, Run (fun n => Representable ⟨n, 0⟩) s ∧
      s.snapshot = sampleSnapshot (sampleTime 2026 3600)) ∧
    validateSnapshot (sampleSnapshot (sampleTime 10000 0)) = .ok () ∧
    ¬ ∃ s, Run (fun n => Representable ⟨n, 0⟩) s ∧
      s.snapshot = sampleSnapshot (sampleTime 10000 0) := by
  refine ⟨by decide +kernel, ?_, by decide +kernel, ?_⟩
  · rintro ⟨s, hs, h⟩
    have hutc := hs.reached.utc
    rw [h] at hutc
    exact absurd hutc (by decide +kernel)
  · rintro ⟨s, hs, h⟩
    have hrep := hs.reached.timesRepresentable.createdAt
    rw [h] at hrep
    exact absurd hrep (by decide +kernel)

end PrivateVm.Session
