import PrivateVm.Session.Model

set_option autoImplicit false
set_option linter.dupNamespace false

/-! # The snapshot validator (`validateSnapshot`)

The validator replays the journal of a snapshot against the two transition graphs. A snapshot
passes exactly when its journal is a creation event followed by events that a `Cursor` can follow,
and the snapshot's own fields are those of the last cursor (`validateSnapshot_eq_ok`).
-/

namespace PrivateVm.Session

open Timestamp Checked List

/-! ## The validator -/

def lifecyclePhases : List Phase :=
  [.preflighted, .imagesVerified, .storageReady, .active, .stopping, .aborting, .destroying,
    .destroyed]

/-- The safe event catalog: the message of each event code. -/
def safeEventMessages : List (String × String) :=
  ("SESSION_CREATED", "Session record created.") ::
    ("WORKFLOW_STATE_CHANGED", "Role workflow advanced.") ::
      lifecyclePhases.filterMap lifecycleEvents

def validateEvent (code message : String) : Except Err Unit := do
  failIf (!eventCodePattern code)
    (newError "event code must be a stable uppercase identifier")
  failIf (safeEventMessages.lookup code != some message)
    (newError "event message is not from the safe event catalog")

/-- What the validator carries from event to event. -/
structure Replay where
  currentPhase : Phase
  currentWorkflow : String
  previousTime : Time

/-- The loop body of `validateSnapshot`. -/
def Replay.step (snapshot : Snapshot) (r : Replay) (index : Nat) (event : Event) :
    Except Err Replay := do
  failIf (event.sequence != index + 1) (newError "invalid volatile session event sequence")
  validateEvent event.code event.message
  failIf (event.time.before r.previousTime || event.time.after snapshot.updatedAt)
    (newError "invalid volatile session event timestamp")
  if index = 0 then
    return r
  else if event.code = "WORKFLOW_STATE_CHANGED" then
    failIf (event.phase != r.currentPhase ||
        !(workflowTransitions snapshot.role).allows r.currentWorkflow event.workflowState)
      (newError "invalid volatile workflow event transition")
    failIf r.currentPhase.inCleanup
      (newError "volatile workflow event occurs after cleanup started")
    return { r with currentWorkflow := event.workflowState, previousTime := event.time }
  else
    failIf (lifecycleEvents event.phase != some (event.code, event.message) ||
        event.workflowState != r.currentWorkflow ||
        !(lifecycleTransitions r.currentPhase).contains event.phase)
      (newError "invalid volatile lifecycle event transition")
    return { r with currentPhase := event.phase, previousTime := event.time }

/-- The loop of `validateSnapshot`, from a position on. -/
def Replay.loop (snapshot : Snapshot) (r : Replay) (index : Nat) : List Event → Except Err Replay
  | [] => return r
  | event :: rest => do
      let r ← r.step snapshot index event
      r.loop snapshot (index + 1) rest

def validateSnapshot (snapshot : Snapshot) : Except Err Unit := do
  failIf (snapshot.schemaVersion != 1) (newError "unsupported volatile session schema version")
  validateID snapshot.id
  validateRole snapshot.role
  failIf (!validPhase snapshot.phase) (newError "invalid volatile session phase")
  failIf (snapshot.createdAt.isZero || snapshot.updatedAt.before snapshot.createdAt)
    (newError "invalid volatile session timestamps")
  failIf (snapshot.events.length = 0 || snapshot.events.length > maxSessionEvents)
    (newError "invalid volatile session event count")
  match snapshot.events with
  | [] => throw (newError "invalid volatile session event count")
  | first :: rest =>
    failIf (first.sequence != 1 || first.code != "SESSION_CREATED" || first.phase != .created ||
        first.workflowState != "" || first.message != "Session record created." ||
        !first.time.equal snapshot.createdAt)
      (newError "volatile session journal has an invalid creation event")
    let r ← Replay.loop snapshot ⟨.created, "", first.time⟩ 0 (first :: rest)
    let last := (first :: rest).getLast (cons_ne_nil _ _)
    failIf (snapshot.sequence != last.sequence || snapshot.phase != r.currentPhase ||
        snapshot.workflowState != r.currentWorkflow || !snapshot.updatedAt.equal last.time)
      (newError "volatile session snapshot does not match its final event")

/-! ## Following a journal -/

/-- Where a journal stands: the state its last event reports. -/
structure Cursor where
  phase : Phase
  workflowState : String
  sequence : Nat
  instant : Int
  deriving DecidableEq

/-- The event a lifecycle or workflow transition of a role writes next. -/
inductive Cursor.Follows (role : Role) (c : Cursor) (e : Event) : Prop
  | workflow (code : e.code = "WORKFLOW_STATE_CHANGED")
      (message : e.message = "Role workflow advanced.") (phase : e.phase = c.phase)
      (open_ : c.phase.inCleanup = false)
      (allowed : (workflowTransitions role).allows c.workflowState e.workflowState = true)
  | lifecycle (event : lifecycleEvents e.phase = some (e.code, e.message))
      (state : e.workflowState = c.workflowState)
      (edge : e.phase ∈ lifecycleTransitions c.phase)

def Event.cursor (e : Event) : Cursor := ⟨e.phase, e.workflowState, e.sequence, e.time.nanos⟩

/-- A journal continues from a cursor: each event is the next in sequence, not earlier than
the one before it, and one that a transition writes. -/
inductive Continues (role : Role) : Cursor → List Event → Cursor → Prop
  | done (c : Cursor) : Continues role c [] c
  | snoc {c d : Cursor} {l : List Event} {e : Event} (init : Continues role c l d)
      (sequence : e.sequence = d.sequence + 1) (time : d.instant ≤ e.time.nanos)
      (follows : d.Follows role e) : Continues role c (l ++ [e]) e.cursor

namespace Continues

variable {role : Role} {c d : Cursor} {l : List Event}

theorem sequence_eq (h : Continues role c l d) : d.sequence = c.sequence + l.length := by
  induction h with
  | done => simp
  | snoc =>
    simp only [Event.cursor, length_append, length_cons, length_nil]
    omega

theorem instant_le (h : Continues role c l d) : c.instant ≤ d.instant := by
  induction h with
  | done => exact le_refl _
  | snoc init _ ht _ ih => exact ih.trans ht

theorem time_le (h : Continues role c l d) : ∀ e ∈ l, e.time.nanos ≤ d.instant := by
  induction h with
  | done => simp
  | snoc init _ ht _ ih =>
    intro e he
    rcases mem_append.1 he with he | he
    · exact (ih e he).trans ht
    · rw [mem_singleton.1 he, Event.cursor]

variable {e : Event}

/-- The last cursor is the one the last event reports. -/
theorem cursor_getLast (h : Continues role e.cursor l d) :
    ((e :: l).getLast (cons_ne_nil e l)).cursor = d := by
  generalize hc : e.cursor = c at h
  cases h with
  | done => exact hc
  | snoc => simp

theorem unique {d'} (h : Continues role e.cursor l d) (h' : Continues role e.cursor l d') :
    d = d' :=
  h.cursor_getLast.symm.trans h'.cursor_getLast

theorem append_singleton : Continues role c (l ++ [e]) d ↔
      ∃ d₀, Continues role c l d₀ ∧ e.sequence = d₀.sequence + 1 ∧
        d₀.instant ≤ e.time.nanos ∧ d₀.Follows role e ∧ d = e.cursor := by
  constructor
  · intro h
    generalize hm : l ++ [e] = m at h
    cases h with
    | done => simp at hm
    | snoc init hs ht hf =>
      obtain ⟨rfl, rfl⟩ : l = _ ∧ e = _ := by simpa using append_inj' hm rfl
      exact ⟨_, init, hs, ht, hf, rfl⟩
  · rintro ⟨d₀, init, hs, ht, hf, rfl⟩
    exact .snoc init hs ht hf

end Continues

variable {p : Phase} {role : Role} {c d : Cursor} {l rest : List Event} {message : String}
  {snapshot : Snapshot} {index : Nat}

theorem validPhase_of_transition {q} (h : q ∈ lifecycleTransitions p) : validPhase q = true := by
  cases p <;> simp only [lifecycleTransitions, mem_cons, not_mem_nil, or_false] at h <;>
    rcases h with rfl | rfl <;> rfl

variable {e : Event} {r : Replay} {sn : Snapshot} {t : Time}

theorem Cursor.Follows.validPhase (h : c.Follows role e) (hc : validPhase c.phase = true) :
    validPhase e.phase = true := by
  cases h with
  | workflow _ _ phase => rwa [phase]
  | lifecycle _ _ edge => exact validPhase_of_transition edge

theorem Continues.validPhase (h : Continues role c l d) (hc : validPhase c.phase = true) :
    validPhase d.phase = true := by
  induction h with
  | done => exact hc
  | snoc _ _ _ follows ih => exact follows.validPhase ih

/-! ## The loop of the validator follows the journal -/

/-- The cursor of the validator after `index` events. -/
def Replay.cursor (r : Replay) (index : Nat) : Cursor :=
  ⟨r.currentPhase, r.currentWorkflow, index, r.previousTime.nanos⟩

/-- A lifecycle event is in the safe catalog, and is not the workflow event. -/
theorem validateEvent_of_lifecycleEvents {code} (h : lifecycleEvents p = some (code, message)) :
    validateEvent code message = .ok () ∧ code ≠ "WORKFLOW_STATE_CHANGED" := by
  cases p <;> simp only [lifecycleEvents] at h <;>
    obtain ⟨rfl, rfl⟩ := h <;> decide

theorem validateEvent_workflow : validateEvent "WORKFLOW_STATE_CHANGED" message = .ok () ↔
      message = "Role workflow advanced." := by
  have hp : eventCodePattern "WORKFLOW_STATE_CHANGED" = true := by decide
  have hl : safeEventMessages.lookup "WORKFLOW_STATE_CHANGED" = some "Role workflow advanced." := by
    decide
  simp [validateEvent, hp, hl, @eq_comm _ _ message]

theorem Replay.step_eq_ok {r'} (hi : index ≠ 0) : r.step snapshot index e = .ok r' ↔
      e.sequence = index + 1 ∧ r.previousTime.nanos ≤ e.time.nanos ∧
      e.time.nanos ≤ snapshot.updatedAt.nanos ∧ (r.cursor index).Follows snapshot.role e ∧
      r' = ⟨e.phase, e.workflowState, e.time⟩ := by
  unfold Replay.step
  by_cases hc : e.code = "WORKFLOW_STATE_CHANGED"
  · simp [hi, hc, validateEvent_workflow]
    intro _
    constructor
    · rintro ⟨h₂, ⟨h₃, h₄⟩, ⟨h₅, h₆⟩, h₇, rfl⟩
      exact ⟨h₃, h₄, .workflow hc h₂ h₅ h₇ h₆, by rw [h₅]⟩
    rintro ⟨h₃, h₄, h, rfl⟩
    cases h with
    | workflow _ message phase open_ allowed =>
      exact ⟨message, ⟨h₃, h₄⟩, ⟨phase, allowed⟩, open_, by rw [phase]; rfl⟩
    | lifecycle event => exact absurd hc (validateEvent_of_lifecycleEvents event).2
  · simp [hi, hc]
    intro _
    constructor
    · rintro ⟨_, ⟨h₃, h₄⟩, ⟨⟨h₅, h₆⟩, h₇⟩, rfl⟩
      exact ⟨h₃, h₄, .lifecycle h₅ h₆ h₇, by rw [h₆]⟩
    rintro ⟨h₃, h₄, h, rfl⟩
    cases h with
    | workflow code => exact absurd code hc
    | lifecycle event state edge =>
      exact ⟨(validateEvent_of_lifecycleEvents event).1, ⟨h₃, h₄⟩,
        ⟨⟨event, state⟩, edge⟩, by rw [state]; rfl⟩

theorem Replay.loop_append (snapshot : Snapshot) (r : Replay) (index : Nat) (l m : List Event) :
    r.loop snapshot index (l ++ m) =
      (do let r ← r.loop snapshot index l; r.loop snapshot (index + l.length) m) := by
  induction l generalizing r index with
  | nil => simp [Replay.loop]
  | cons e l ih =>
    simp only [cons_append, Replay.loop, bind_assoc, length_cons]
    congr 1
    funext r
    rw [ih, Nat.add_right_comm, Nat.add_assoc]

theorem Replay.loop_singleton (snapshot : Snapshot) (r : Replay) (index : Nat) (e : Event) :
    r.loop snapshot index [e] = r.step snapshot index e := by
  simp [Replay.loop]

/-- Past the creation event the loop succeeds exactly on the journals that continue from its
cursor and do not run past the snapshot's own time. -/
theorem Replay.loop_eq_ok (r : Replay) (hi : index ≠ 0) :
    (∃ r', r.loop snapshot index l = .ok r' ∧ r'.cursor (index + l.length) = d) ↔
      Continues snapshot.role (r.cursor index) l d ∧
        ∀ e ∈ l, e.time.nanos ≤ snapshot.updatedAt.nanos := by
  constructor
  · rintro ⟨r', h, rfl⟩
    induction l using List.reverseRecOn generalizing r' with
    | nil =>
      simp only [Replay.loop, pure_eq_ok] at h
      subst h
      exact ⟨.done _, by simp⟩
    | append_singleton l e ih =>
      rw [Replay.loop_append, bind_eq_ok] at h
      obtain ⟨r₁, h₁, h₂⟩ := h
      rw [Replay.loop_singleton, Replay.step_eq_ok (by omega)] at h₂
      obtain ⟨hs, ht, hu, hf, rfl⟩ := h₂
      obtain ⟨hc, hb⟩ := ih r₁ h₁
      have := Continues.snoc hc hs ht hf
      simp only [Event.cursor, hs] at this
      refine ⟨by simpa [Replay.cursor, Nat.add_assoc] using this, fun e' he' => ?_⟩
      rcases mem_append.1 he' with he' | he'
      · exact hb e' he'
      · rwa [mem_singleton.1 he']
  · rintro ⟨h, hb⟩
    generalize hc : r.cursor index = c at h
    induction h with
    | done => exact ⟨r, rfl, hc⟩
    | @snoc d l e init hs ht hf ih =>
      obtain ⟨r₁, h₁, hd⟩ := ih fun e' he' => hb e' (mem_append_left _ he')
      subst hd
      refine ⟨⟨e.phase, e.workflowState, e.time⟩, ?_, ?_⟩
      · rw [Replay.loop_append, h₁]
        change Replay.loop _ _ _ _ = _
        rw [Replay.loop_singleton, Replay.step_eq_ok (by omega)]
        exact ⟨hs, ht, hb e (by simp), hf, rfl⟩
      · simp only [Event.cursor, hs, length_append]
        rfl

/-! ## What the validator accepts -/

/-- The state a snapshot claims for the end of its journal. -/
def Snapshot.cursor (sn : Snapshot) : Cursor :=
  ⟨sn.phase, sn.workflowState, sn.sequence, sn.updatedAt.nanos⟩

/-- A journal: the creation event at an instant, then events that lead to a cursor. -/
def Journal (role : Role) (created : Int) (events : List Event) (c : Cursor) : Prop :=
  ∃ t rest, t.nanos = created ∧ events = createdEvent t :: rest ∧
    Continues role (createdEvent t).cursor rest c

structure Snapshot.Accepted (sn : Snapshot) : Prop where
  schemaVersion : sn.schemaVersion = 1
  id : validateID sn.id = .ok ()
  role : validateRole sn.role = .ok ()
  created : sn.createdAt.isZero = false
  budget : sn.events.length ≤ maxSessionEvents
  journal : Journal sn.role sn.createdAt.nanos sn.events sn.cursor

theorem eq_createdEvent_iff : e = createdEvent e.time ↔
      e.sequence = 1 ∧ e.code = "SESSION_CREATED" ∧ e.phase = .created ∧ e.workflowState = "" ∧
        e.message = "Session record created." := by
  obtain ⟨seq, code, phase, workflowState, message, time⟩ := e
  simp [createdEvent]

theorem Replay.step_created : Replay.step sn ⟨.created, "", t⟩ 0 (createdEvent t) = .ok r ↔
      t.nanos ≤ sn.updatedAt.nanos ∧ r = ⟨.created, "", t⟩ := by
  have : validateEvent "SESSION_CREATED" "Session record created." = .ok () := by decide
  simp [Replay.step, createdEvent, this, @eq_comm _ _ r]

theorem Replay.loop_cons_created :
    Replay.loop sn ⟨.created, "", t⟩ 0 (createdEvent t :: rest) = .ok r ↔
      t.nanos ≤ sn.updatedAt.nanos ∧ Replay.loop sn ⟨.created, "", t⟩ 1 rest = .ok r := by
  rw [Replay.loop, bind_eq_ok]
  simp only [Replay.step_created]
  constructor
  · rintro ⟨_, ⟨h, rfl⟩, h'⟩
    exact ⟨h, h'⟩
  · rintro ⟨h, h'⟩
    exact ⟨_, ⟨h, rfl⟩, h'⟩

/-- The journal part of the validator: the creation event, the loop and the final check. -/
theorem Replay.loop_created {last}
    (hlast : (createdEvent t :: rest).getLast (cons_ne_nil _ _) = last) :
    (∃ r, Replay.loop sn ⟨.created, "", t⟩ 0 (createdEvent t :: rest) = .ok r ∧
      sn.cursor = ⟨r.currentPhase, r.currentWorkflow, last.sequence, last.time.nanos⟩) ↔
      Continues sn.role (createdEvent t).cursor rest sn.cursor := by
  constructor
  · rintro ⟨r, h, hc⟩
    have hr := ((Replay.loop_eq_ok _ one_ne_zero).1 ⟨r, (loop_cons_created.1 h).2, rfl⟩).1
    change Continues _ (createdEvent t).cursor _ _ at hr
    -- The final check reads the last event and the loop's state; both give one cursor.
    have hl := hr.cursor_getLast
    rw [hlast] at hl
    simp only [Event.cursor, Replay.cursor, Cursor.mk.injEq] at hl
    rwa [hc, hl.2.2.1, hl.2.2.2]
  · intro h
    have hl := h.cursor_getLast
    rw [hlast] at hl
    obtain ⟨r, hr, hc⟩ :=
      (Replay.loop_eq_ok ⟨.created, "", t⟩ one_ne_zero).2 ⟨h, h.time_le⟩
    refine ⟨r, loop_cons_created.2 ⟨h.instant_le, hr⟩, ?_⟩
    rw [← hc] at hl ⊢
    simp only [Event.cursor, Replay.cursor, Cursor.mk.injEq] at hl ⊢
    exact ⟨trivial, trivial, hl.2.2.1.symm, hl.2.2.2.symm⟩

/-- **What the validator accepts**: version 1, a well-formed identifier, a known role, a
creation time, at most 4096 events, and a journal that leads to the snapshot's own state. -/
theorem validateSnapshot_eq_ok : validateSnapshot sn = .ok () ↔ sn.Accepted := by
  unfold validateSnapshot
  cases he : sn.events with
  | nil =>
    simp
    intro h
    obtain ⟨t, rest, -, h, -⟩ := h.journal
    simp [he] at h
  | cons first rest =>
    simp
    constructor
    · rintro ⟨hv, hid, hrole, -, ⟨hz, -⟩, hlen, hfst, r, hr, hfinal⟩
      have hce : first = createdEvent first.time := eq_createdEvent_iff.2 (by tauto)
      generalize first.time = t at hfst hr hce
      subst hce
      refine ⟨hv, hid, hrole, by simpa using hz, by simp [he]; omega, t, rest, hfst.2, he, ?_⟩
      refine (Replay.loop_created rfl).1 ⟨r, hr, ?_⟩
      simp only [Snapshot.cursor, Cursor.mk.injEq]
      tauto
    · intro h
      obtain ⟨t, rest', ht, hev, hc⟩ := h.journal
      obtain ⟨rfl, rfl⟩ : first = createdEvent t ∧ rest = rest' := by simpa [he] using hev
      obtain ⟨r, hr, hfinal⟩ := (Replay.loop_created rfl).2 hc
      simp only [Snapshot.cursor, Cursor.mk.injEq] at hfinal
      have hb := h.budget
      simp only [he] at hb
      have hle : t.nanos ≤ sn.updatedAt.nanos := hc.instant_le
      exact ⟨h.schemaVersion, h.id, h.role, hc.validPhase rfl,
        ⟨by simpa using h.created, ht ▸ hle⟩, hb, ⟨⟨⟨⟨⟨rfl, rfl⟩, rfl⟩, rfl⟩, rfl⟩, ht⟩,
        r, hr, by tauto⟩

/-! ## Transitions extend the journal -/

namespace Session

def cursor (s : Session) : Cursor := ⟨s.phase, s.workflowState, s.sequence, s.updatedAt.nanos⟩

/-- One successful transition of either kind. -/
structure Appends (s : Session) (now : Time) (e : Event) (s' : Session) : Prop where
  sequence : e.sequence = s.sequence + 1
  time : e.time = now.utc
  follows : s.cursor.Follows s.role e
  room : s.events.length < maxSessionEvents
  result : s' = s.record e

theorem eventLimit_le (cleanupOwned : Bool) : eventLimit cleanupOwned ≤ maxSessionEvents := by
  cases cleanupOwned <;> decide

variable {s s' : Session} {now : Time} {e : Event}

theorem appends_of_lifecycle {target cleanupOwned}
    (h : s.transitionLifecycle target cleanupOwned now = .ok (e, s')) : s.Appends now e s' := by
  obtain ⟨hedge, -, hroom, code, message, hev, rfl, rfl⟩ := transitionLifecycle_eq_ok.1 h
  exact ⟨rfl, rfl, .lifecycle hev rfl hedge, hroom.trans_le (eventLimit_le _), rfl⟩

theorem appends_of_workflow {target} (h : s.transitionWorkflow target now = .ok (e, s')) :
    s.Appends now e s' := by
  obtain ⟨hopen, hall, hroom, rfl, rfl⟩ := transitionWorkflow_eq_ok.1 h
  exact ⟨rfl, rfl, .workflow rfl rfl rfl hopen hall, hroom.trans_le (eventLimit_le _), rfl⟩

/-- **A transition keeps an accepted session accepted exactly when its time does not lie
before the session's last event.** -/
theorem Appends.accepted_iff (h : s.Appends now e s') (hs : s.snapshot.Accepted) :
    s'.snapshot.Accepted ↔ s.updatedAt.nanos ≤ now.nanos := by
  obtain ⟨hseq, htime, hfoll, hroom, rfl⟩ := h
  obtain ⟨t, rest, ht, hev, hc⟩ := hs.journal
  have hev : s.events = createdEvent t :: rest := hev
  constructor
  · intro h'
    obtain ⟨t', rest', ht', hev', hc'⟩ := h'.journal
    obtain ⟨rfl, rfl⟩ : t = t' ∧ rest ++ [e] = rest' := by
      simpa [snapshot, record, hev, createdEvent] using hev'
    obtain ⟨d, hd, -, hle, -⟩ := Continues.append_singleton.1 hc'
    rwa [htime, hd.unique hc] at hle
  · intro hle
    refine ⟨hs.schemaVersion, hs.id, hs.role, hs.created, ?_, t, rest ++ [e], ht, ?_, ?_⟩
    · simpa [snapshot, record] using hroom
    · simp [snapshot, record, hev]
    · exact .snoc hc hseq (by rw [htime]; exact hle) hfoll

end Session

end PrivateVm.Session
