import PrivateVm.Session.Actor

set_option autoImplicit false
set_option linter.dupNamespace false

/-! # The actor on its own

Rules for the programs of `Session/Actor.lean` run on the core alone, with no environment and
with any answer from the channels. `core_commit` says once what can follow a transition in
memory; the rules for `transition` and `workflow` are read off it.
-/

namespace PrivateVm.Session

open Timestamp Checked Program

/-- The rules of the actor without an environment. -/
def coreRules (allows : Op → Choice → Core → Prop) : Rules Op Res Choice Core where
  exec := Core.exec
  allows := allows
  rely := Eq
  refl _ := rfl
  trans := Eq.trans

abbrev anyChoice : Op → Choice → Core → Prop := fun _ _ _ => True

section

variable {α β : Type} {allows : Op → Choice → Core → Prop} {I : Core → Prop} {c : Core}

theorem core_pure {a : α} {Q : α → Core → Prop} :
    Safe (coreRules allows) I (pure a : Code α) Q c ↔ I c ∧ Q a c := by
  constructor
  · exact fun h => h c rfl
  · rintro h _ rfl
    exact h

variable {Q : β → Core → Prop} {f : Bool → Code β}

theorem core_call {o : Op} {f : Res o → Code β} : Safe (coreRules allows) I (call o >>= f) Q c ↔
      I c ∧ ∀ x, allows o x c →
        Safe (coreRules allows) I (f (c.exec o x).1) Q (c.exec o x).2 := by
  constructor
  · exact fun h => h c rfl
  · rintro h _ rfl
    exact h

def Core.traced (c : Core) (f : Effect) : Core := { c with trace := f :: c.trace }

variable {h : Nat} {event : Event} {P : Core → Prop}

theorem core_cleanup (hI : I c) (hf : ∀ ok, (∃ x, allows (.cleanup h) x c ∧ x.ok = ok) →
      Safe (coreRules allows) I (f ok) Q (c.traced (.cleaned h ok))) :
    Safe (coreRules allows) I (call (.cleanup h) >>= f) Q c :=
  core_call.2 ⟨hI, fun x hx => hf x.ok ⟨x, hx, rfl⟩⟩

theorem core_audit (hI : I c) (hf : ∀ ok, (∃ x, allows (.audit h) x c ∧ x.ok = ok) →
      Safe (coreRules allows) I (f ok) Q (c.traced (.audited h ok))) :
    Safe (coreRules allows) I (call (.audit h) >>= f) Q c :=
  core_call.2 ⟨hI, fun x hx => hf x.ok ⟨x, hx, rfl⟩⟩

def Core.handed (c : Core) : Core :=
  { c with handles := c.handles + 1, trace := .handed c.handles :: c.trace }

/-- An allocator is called: a handle is taken on exactly when both functions are there. -/
theorem core_allocate {f : Nat × Allocation → Code β} (hI : I c)
    (hboth : ∀ err, Safe (coreRules allows) I (f (c.handles, ⟨true, true, err⟩)) Q c.handed)
    (hpart : ∀ a, (a.cleanup && a.audit) = false →
      Safe (coreRules allows) I (f (c.handles, a)) Q c) :
    Safe (coreRules allows) I (call .allocate >>= f) Q c := by
  refine core_call.2 ⟨hI, fun x _ => ?_⟩
  simp only [Core.exec]
  cases hx : x.allocation.cleanup && x.allocation.audit with
  | false => exact hpart x.allocation hx
  | true =>
    obtain ⟨hcln, haudit⟩ := Bool.and_eq_true_iff.1 hx
    have halloc : x.allocation = ⟨true, true, x.allocation.err⟩ := by
      calc x.allocation = ⟨x.allocation.cleanup, x.allocation.audit, x.allocation.err⟩ := rfl
        _ = ⟨true, true, x.allocation.err⟩ := by rw [hcln, haudit]
    rw [halloc]
    exact hboth x.allocation.err

/-- Publishing changes nothing of the core but its trace. -/
theorem core_publishTo (hI : ∀ c, P c → I c) (hP : ∀ c, P c → P (c.traced (.published event)))
    (ids : List Nat) (hc : P c) :
    Safe (coreRules allows) I (publishTo event ids) (fun _ c => P c) c := by
  induction ids generalizing c with
  | nil => exact core_pure.2 ⟨hI c hc, hc⟩
  | cons id ids ih =>
    refine core_call.2 ⟨hI c hc, fun x _ => ?_⟩
    split
    · exact core_call.2 ⟨hI c hc, fun _ _ => ih hc⟩
    · refine core_call.2 ⟨hI c hc, fun y _ => ?_⟩
      split
      · exact ih (hP c hc)
      · exact core_call.2 ⟨hI _ (hP c hc), fun _ _ => ih (hP c hc)⟩

theorem core_publish (hI : ∀ c, P c → I c) (hP : ∀ c, P c → P (c.traced (.published event)))
    (hc : P c) : Safe (coreRules allows) I (publish event) (fun _ c => P c) c :=
  core_call.2 ⟨hI c hc, fun x _ => core_publishTo hI hP x.order hc⟩

/-- Closing the subscriptions changes nothing of the core. -/
theorem core_closeSubscribers {reason} {Q : Unit → Core → Prop} (hI : I c) (hQ : Q () c) :
    Safe (coreRules allows) I (closeSubscribers reason) Q c := by
  refine core_call.2 ⟨hI, fun x _ => ?_⟩
  change Safe (coreRules allows) I (closeSubscribersOf reason x.order) Q c
  induction x.order with
  | nil => exact core_pure.2 ⟨hI, hQ⟩
  | cons id ids ih => exact core_call.2 ⟨hI, fun _ _ => ih⟩

end

/-! ## What an operation leaves alone -/

/-- The area of the operations with an effect. -/
def Effect.area : Effect → Area
  | .handed _ | .cleaned _ _ | .audited _ _ => .resource
  | .recordRemoved | .recordAside | .appended _ _ => .journal
  | .published _ => .publish
  | .completed _ _ => .ending

theorem exec_trace (o : Op) (x : Choice) (c : Core) :
    ∃ l, (c.exec o x).2.trace = l ++ c.trace ∧ ∀ f ∈ l, f.area = o.area := by
  cases o with
  | move =>
    simp only [Core.exec]
    split
    · exact ⟨[], rfl, by simp⟩
    · exact ⟨[_], rfl, by simp [Effect.area, Op.area]⟩
  | save =>
    simp only [Core.exec]
    split
    · exact ⟨[], rfl, by simp⟩
    · split <;> exact ⟨[], rfl, by simp⟩
  | remove =>
    simp only [Core.exec]
    split
    · by_cases hplace : c.place = .aside
      · exact ⟨[], by simp [Core.removed, hplace], by simp⟩
      · exact ⟨[.recordRemoved], by simp [Core.removed, hplace], by simp [Effect.area, Op.area]⟩
    · by_cases hleft : c.place = .kept ∧ x.left = .aside
      · exact ⟨[.recordAside], by simp [Core.removalFailed, hleft], by simp [Effect.area, Op.area]⟩
      · exact ⟨[], by simp [Core.removalFailed, hleft], by simp⟩
  | allocate =>
    simp only [Core.exec]
    split
    · exact ⟨[_], rfl, by simp [Effect.area, Op.area]⟩
    · exact ⟨[], rfl, by simp⟩
  | cleanup | audit | send | completeCleanup => exact ⟨[_], rfl, by simp [Effect.area, Op.area]⟩
  | _ => exact ⟨[], rfl, by simp⟩

theorem exec_session {o : Op} (ho : o.area ∉ [.journal, .rollback]) (x : Choice) (c : Core) :
    (c.exec o x).2.session = c.session := by
  cases o with
  | move | save | restore | remove => simp [Op.area] at ho
  | allocate =>
    simp only [Core.exec]
    split <;> rfl
  | _ => rfl

variable {allows : Op → Choice → Core → Prop} {m : Move} {α : Type} {c : Core} {s : Session}
  {now : Time} {e : Event} {I J : Core → Prop}

/-- A program that makes no transition leaves the session alone. -/
theorem core_within_session {areas : List Area} {p : Code α} (hp : Within areas p)
    (hareas : ∀ area ∈ areas, area ∉ [.journal, .rollback]) {P : Session → Prop} (hc : P c.session)
    : Safe (coreRules allows) (fun _ => True) p (fun _ c => P c.session) c := by
  refine .of_uses hp (fun _ _ => trivial) (fun _ _ h hr => hr ▸ h) (fun o x c ho _ h => ?_) hc
  change P (c.exec o x).2.session
  rwa [exec_session (hareas _ ho)]

/-- Reading, attaching and detaching a subscriber, and answering change nothing of the core. -/
theorem exec_quiet {o : Op} (ho : o.area ∈ [.read, .stream, .reply]) (x : Choice) (c : Core) :
    (c.exec o x).2 = c := by
  cases o with
  | snapshot | accepting | steps | operationErr | subscriberIDs | cancelled | subscriberCount
  | removeSubscriber | addSubscriber | respond => rfl
  | _ => simp [Op.area] at ho

/-! ## Transitions -/

/-- Rolling a transition back gives the session as it was. -/
theorem Session.restore_record (s : Session) (e : Event) :
    (s.record e).restore s.snapshot = s := rfl

theorem Session.move_record {s'} (h : s.move now m = .ok (e, s')) : s' = s.record e := by
  cases m with
  | lifecycle => exact (Session.appends_of_lifecycle h).result
  | workflow => exact (Session.appends_of_workflow h).result

/-- The moves that do not end the session. -/
def Move.NotTerminal : Move → Prop
  | .lifecycle target cleanupOwned => cleanupOwned = true → target ≠ .destroyed
  | .workflow _ => True

theorem Move.notTerminal_of_not_cleanupOwned (h : m.cleanupOwned = false) : m.NotTerminal := by
  cases m with
  | lifecycle => exact fun hown => absurd (h.symm.trans hown) (by decide)
  | workflow => trivial

theorem move_phase_ne (hm : m.NotTerminal) (h : s.move now m = .ok (e, s.record e)) :
    e.phase ≠ .destroyed := by
  cases m with
  | workflow =>
    obtain ⟨hopen, -, -, rfl, -⟩ := Session.transitionWorkflow_eq_ok.1 h
    rintro hph
    have hph : s.phase = .destroyed := hph
    rw [hph] at hopen
    cases hopen
  | lifecycle target cleanupOwned =>
    obtain ⟨-, href, -, code, message, -, rfl, -⟩ := Session.transitionLifecycle_eq_ok.1 h
    cases cleanupOwned with
    | false => exact (href rfl).2
    | true => exact hm rfl

/-- Errors of the store wrap none of the values callers test for. -/
def StoreError (e : Err) : Prop := e.wraps = []

theorem store_check {p : Prop} [Decidable p] {text} {f : Unit → Except Err α}
    (hf : FailsOnly StoreError (f ())) : FailsOnly StoreError (failIf p (newError text) >>= f) :=
  .bind (failsOnly_failIf rfl) fun _ => hf

theorem validateRole_fails (role : Role) : FailsOnly StoreError (validateRole role) := by
  cases role with
  | other => exact failsOnly_throw rfl
  | _ => exact failsOnly_pure ()

theorem replayStep_fails (sn : Snapshot) (r : Replay) (index : Nat) (e : Event) :
    FailsOnly StoreError (r.step sn index e) := by
  refine store_check (.bind (store_check (failsOnly_failIf rfl)) fun _ => store_check ?_)
  split
  · exact failsOnly_pure r
  · split
    · exact store_check (store_check (failsOnly_pure _))
    · exact store_check (failsOnly_pure _)

theorem replayLoop_fails (sn : Snapshot) (r : Replay) (index : Nat) (l : List Event) :
    FailsOnly StoreError (r.loop sn index l) := by
  induction l generalizing r index with
  | nil => exact failsOnly_pure r
  | cons e l ih => exact (replayStep_fails sn r index e).bind fun r => ih r _

theorem validateSnapshot_fails (sn : Snapshot) : FailsOnly StoreError (validateSnapshot sn) := by
  refine store_check (.bind (failsOnly_failIf rfl) fun _ => (validateRole_fails _).bind fun _ =>
    store_check (store_check (store_check ?_)))
  split
  · exact failsOnly_throw rfl
  · exact store_check ((replayLoop_fails _ _ _ _).bind fun _ => failsOnly_failIf rfl)

theorem encodeSnapshot_fails (sn : Snapshot) : FailsOnly StoreError (encodeSnapshot sn) := by
  refine (validateSnapshot_fails sn).bind fun _ => .bind ?_ fun _ => store_check (failsOnly_pure _)
  exact failsOnly_ofOption (by rfl) _

/-- A save fails and changes nothing, or commits the events. -/
theorem exec_save (snapshot : Snapshot) (x : Choice) (c : Core) :
    (∃ err, c.exec (.save snapshot) x = (.error err, c)) ∨
      c.exec (.save snapshot) x = (.ok (), { c with committed := snapshot.events }) := by
  simp only [Core.exec]
  split
  · exact .inl ⟨_, rfl⟩
  · split
    · exact .inr rfl
    · exact .inl ⟨_, rfl⟩

section

variable {allows : Op → Choice → Core → Prop} {I : Core → Prop} {c : Core}
  {Q : Snapshot × Option Err → Core → Prop}

variable {m : Move}

/-- A transition in memory is refused or made. -/
theorem core_move {β : Type} {now} {f : Except Err Event → Code β} {Q : β → Core → Prop} (hI : I c)
    (href : ∀ err, c.session.move now m = .error err →
      Safe (coreRules allows) I (f (.error err)) Q c)
    (hmade : ∀ e, c.session.move now m = .ok (e, c.session.record e) →
      Safe (coreRules allows) I (f (.ok e)) Q (c.appended m e (c.session.record e))) :
    Safe (coreRules allows) I (call (.move m now) >>= f) Q c := by
  refine core_call.2 ⟨hI, fun x _ => ?_⟩
  simp only [Core.exec]
  cases hr : c.session.move now m with
  | error err => exact href err hr
  | ok r =>
    obtain ⟨e, s⟩ := r
    obtain rfl := Session.move_record hr
    exact hmade e hr

def Core.tick (c : Core) : Core := { c with reads := c.reads + 1 }

def Core.saved (c : Core) : Core := { c with committed := c.session.events }

def Core.restored (c : Core) (s : Session) : Core := { c with session := s }

/-- What follows a transition in memory: the save fails and the session is as before, or it
succeeds, the events are committed and the event is published. -/
structure Commits (allows : Op → Choice → Core → Prop) (I : Core → Prop)
    (Q : Snapshot × Option Err → Core → Prop) (s : Session) (e : Event) (c : Core) : Prop where
  made : I c
  failed : ∀ err, StoreError err →
    (encodeSnapshot c.session.snapshot = .error err ∨
      ∃ x, allows (.save c.session.snapshot) x c ∧ x.ok = false) →
    I (c.restored s) ∧ Q (s.snapshot, some err) (c.restored s)
  saved : ∀ data, encodeSnapshot c.session.snapshot = .ok data →
    Safe (coreRules allows) I (publish e) (fun _ c' => I c' ∧ Q (c.session.snapshot, none) c')
      c.saved

theorem core_commit {s e} (hs : c.session = s.record e) (h : Commits allows I Q s e c) :
    Safe (coreRules allows) I (commit s.snapshot e) Q c := by
  have hrest : ∀ err, StoreError err →
      (encodeSnapshot c.session.snapshot = .error err ∨
        ∃ x, allows (.save c.session.snapshot) x c ∧ x.ok = false) →
      Safe (coreRules allows) I
        (do call (.restore s.snapshot); return (s.snapshot, some err)) Q c := by
    intro err herr hwhy
    refine core_call.2 ⟨h.made, fun x _ => core_pure.2 ?_⟩
    have hcore : (c.exec (.restore s.snapshot) x).2 = c.restored s := by
      simp only [Core.exec, hs, Session.restore_record, Core.restored]
    rw [hcore]
    exact h.failed err herr hwhy
  refine core_call.2 ⟨h.made, fun _ _ => core_call.2 ⟨h.made, fun x hx => ?_⟩⟩
  simp only [Core.exec]
  cases henc : encodeSnapshot c.session.snapshot with
  | error err => exact hrest err (encodeSnapshot_fails _ err henc) (.inl henc)
  | ok data =>
    cases hok : x.ok with
    | false => exact hrest _ rfl (.inr ⟨x, hx, hok⟩)
    | true => exact safe_bind.2 ((h.saved data henc).post fun _ c' => core_pure.2)

/-- **One transition command**: it is refused, or made in memory and then saved or taken
back. -/
theorem core_advance (hI : I c) (htick : I c.tick)
    (href : ∀ x err, allows .now x c → c.session.move x.time.utc m = .error err →
      Q (c.session.snapshot, some err) c.tick) (hmade : ∀ x e, allows .now x c →
      c.session.move x.time.utc m = .ok (e, c.session.record e) →
      Commits allows I Q c.session e (c.tick.appended m e (c.session.record e))) :
    Safe (coreRules allows) I (advance m) Q c := by
  refine core_call.2 ⟨hI, fun _ _ => core_call.2 ⟨hI, fun x hx => core_move htick ?_ ?_⟩⟩
  · exact fun err hr => core_pure.2 ⟨htick, href x err hx hr⟩
  · exact fun e hr => core_commit rfl (hmade x e hx hr)

theorem core_unlessErr {p : Code (Snapshot × Option Err)}
    {f : Snapshot → Code (Snapshot × Option Err)}
    (h : Safe (coreRules allows) I p (fun r c => match r.2 with
      | some e => I c ∧ Q (r.1, some e) c
      | none => Safe (coreRules allows) I (f r.1) Q c) c) :
    Safe (coreRules allows) I (unlessErr p f) Q c := by
  refine safe_bind.2 (h.post fun r c hr => ?_)
  obtain ⟨snapshot, _ | e⟩ := r
  · exact hr
  · exact core_pure.2 hr

abbrev destroyedMove : Move := .lifecycle .destroyed true

/-- What can follow the cleanup steps: the removal of the record fails, or it succeeds and the
terminal event is written and published. -/
structure Destroys (allows : Op → Choice → Core → Prop) (I : Core → Prop)
    (Q : Snapshot × Option Err → Core → Prop) (id : String) (c : Core) : Prop where
  now : I c
  failed : ∀ x, allows (.remove id) x c → x.ok = false → I (c.removalFailed x.left) ∧
    Q (c.session.snapshot, some Sentinel.cleanupIncomplete.err) (c.removalFailed x.left)
  removed : I c.removed ∧ I c.removed.tick
  refused : ∀ x err, allows .now x c.removed →
    c.session.move x.time.utc destroyedMove = .error err →
    Q (c.session.snapshot, some err) c.removed.tick
  published : ∀ x e, allows .now x c.removed →
    c.session.move x.time.utc destroyedMove = .ok (e, c.session.record e) →
    Safe (coreRules allows) I (publish e) (fun _ c' => I c' ∧ Q (c'.session.snapshot, none) c')
      (c.removed.tick.appended destroyedMove e (c.session.record e))

theorem core_destroy {current} (hI : I c)
    (h : Safe (coreRules allows) I (cleanupSteps c.steps c.steps.length)
      (fun completed c => if completed then Destroys allows I Q current.id c
        else I c ∧ Q (c.session.snapshot, some Sentinel.cleanupIncomplete.err) c) c) :
    Safe (coreRules allows) I (destroy current) Q c := by
  refine core_call.2 ⟨hI, fun _ _ => safe_bind.2 (h.post fun completed c hc => ?_)⟩
  cases completed with
  | false => exact core_call.2 ⟨hc.1, fun _ _ => core_pure.2 hc⟩
  | true =>
    refine core_call.2 ⟨hc.now, fun x hx => ?_⟩
    simp only [Core.exec]
    cases hok : x.ok with
    | false =>
      obtain ⟨hI, hQ⟩ := hc.failed x hx hok
      exact core_call.2 ⟨hI, fun _ _ => core_pure.2 ⟨hI, hQ⟩⟩
    | true =>
      refine core_call.2 ⟨hc.removed.1, fun y hy => core_move hc.removed.2 ?_ ?_⟩
      · exact fun err hr => core_call.2 ⟨hc.removed.2, fun _ _ =>
          core_pure.2 ⟨hc.removed.2, hc.refused y err hy hr⟩⟩
      · exact fun e hr => safe_bind.2 ((hc.published y e hy hr).post fun _ c' hc' =>
          core_call.2 ⟨hc'.1, fun _ _ => core_pure.2 hc'⟩)

def Core.stopped (c : Core) : Core := { c with accepting := false }

/-- **Cleanup**: the phases it enters keep `P`, and from there the session is destroyed. -/
theorem core_cleanupEntry {P : Core → Prop} (hP : ∀ c, P c → I c)
    (henter : ∀ target c, target = .aborting ∨ target = .destroying → P c →
      Safe (coreRules allows) I (advance (.lifecycle target true)) (fun r c => match r.2 with
        | some e => I c ∧ Q (r.1, some e) c
        | none => P c) c)
    (hdest : ∀ current c, P c → Safe (coreRules allows) I (destroy current) Q c)
    (hI : I c) (hc : P c.stopped) : Safe (coreRules allows) I cleanupEntry Q c := by
  have hstep : ∀ passed target current c, target = .aborting ∨ target = .destroying → P c →
      Safe (coreRules allows) I (enter passed target current) (fun r c => match r.2 with
        | some e => I c ∧ Q (r.1, some e) c
        | none => P c) c := by
    intro passed target current c htgt hc
    cases passed with
    | true => exact core_pure.2 ⟨hP c hc, hc⟩
    | false => exact henter target c htgt hc
  refine core_call.2 ⟨hI, fun _ _ => core_call.2 ⟨hP _ hc, fun _ _ => core_unlessErr ?_⟩⟩
  refine (hstep _ _ _ _ (.inl rfl) hc).post fun r c hr => ?_
  obtain ⟨current, _ | e⟩ := r
  · refine core_unlessErr ((hstep _ _ _ c (.inr rfl) hr).post fun r c hr => ?_)
    obtain ⟨current, _ | e⟩ := r
    · exact hdest current c hr
    · exact hr
  · exact hr

/-- The terminal event was written. -/
def Core.Ended (c : Core) : Prop := ∃ e b, .appended e b ∈ c.trace ∧ e.phase = .destroyed

theorem Core.Ended.exec (h : c.Ended) (o : Op) (x : Choice) : (c.exec o x).2.Ended := by
  obtain ⟨e, b, hmem, hph⟩ := h
  obtain ⟨l, htr, -⟩ := exec_trace o x c
  exact ⟨e, b, by rw [htr]; exact List.mem_append_right l hmem, hph⟩

/-- A cleanup without an error has destroyed the session. -/
theorem cleanupEntry_destroyed (c : Core) :
    Safe (coreRules allows) (fun _ => True) cleanupEntry
      (fun r c => r.2 = none → c.session.phase = .destroyed ∧ c.Ended) c := by
  refine core_cleanupEntry (P := fun _ => True) (fun _ _ => trivial) (fun target c _ _ => ?_)
    (fun current c _ => ?_) trivial trivial
  · refine (Safe.trivial _ _).post fun r c _ => ?_
    obtain ⟨last, _ | e⟩ := r
    · trivial
    · exact ⟨trivial, fun h => by cases h⟩
  · refine core_destroy trivial ((Safe.trivial _ _).post fun completed c _ => ?_)
    cases completed with
    | false => exact ⟨trivial, fun h => by cases h⟩
    | true =>
      refine ⟨trivial, fun _ _ _ => ⟨trivial, fun h => by cases h⟩, ⟨trivial, trivial⟩,
        (fun _ _ _ _ h => by cases h), fun x e _ hmade => ?_⟩
      obtain ⟨-, -, -, code, message, -, rfl, -⟩ := Session.transitionLifecycle_eq_ok.1 hmade
      refine (core_publish
        (fun _ _ => trivial) (fun c h => ⟨h.1, ?_⟩) ⟨rfl, _, _, List.mem_cons_self, rfl⟩).post
        fun _ _ h => ⟨trivial, fun _ => h⟩
      obtain ⟨e, b, hmem, hph⟩ := h.2
      exact ⟨e, b, List.mem_cons_of_mem _ hmem, hph⟩

end

/-! ## Commands -/

section

variable {X S : Type}

/-- What the programs of the commands other than cleanup keep: `J` between commands, `I` at
every moment. -/
structure Handles (R : Rules Op Res X S) (I J : S → Prop) : Prop where
  idle : ∀ s, J s → I s
  rely : ∀ s s', J s → R.rely s s' → J s'
  quiet : ∀ o x s, o.area = .read ∨ o.area = .reply → R.allows o x s → J s → J (R.exec o x s).2
  advance : ∀ m s, m.cleanupOwned = false → J s → Safe R I (advance m) (fun _ => J) s
  acquire : ∀ resource s, J s → Safe R I (acquire resource) (fun _ => J) s
  subscribe : ∀ after s, J s → Safe R I (subscribe after) (fun _ => J) s

variable {R : Rules Op Res X S} {I J K : S → Prop}

variable {s : S}

theorem Handles.call {β : Type} (h : Handles R I J) {o : Op} (ho : o.area = .read ∨ o.area = .reply)
    {f : Res o → Code β} {Q : β → S → Prop} (hs : J s) (hf : ∀ r s, J s → Safe R I (f r) Q s) :
    Safe R I (Session.call o >>= f) Q s := by
  refine safe_call_bind.2 fun s' hs' => ?_
  have hJ : J s' := h.rely s s' hs hs'
  exact ⟨h.idle s' hJ, fun x hx => hf _ _ (h.quiet o x s' ho hx hJ)⟩

theorem Handles.loop (h : Handles R I J) (hs : J s) :
    Safe R I (pure false : Code Bool) (fun b s => if b then K s else J s) s :=
  safe_pure.2 fun s' hs' => ⟨h.idle s' (h.rely s s' hs hs'), h.rely s s' hs hs'⟩

theorem Handles.handle (h : Handles R I J) (cmd : Command) (hcmd : ∀ a, cmd ≠ .cleanup a) (hs : J s)
    : Safe R I (handle cmd) (fun b s => if b then K s else J s) s := by
  cases cmd with
  | transition target =>
    exact safe_bind.2 ((h.advance (.lifecycle target false) s rfl hs).post fun r s hs =>
      h.call (.inr rfl) hs fun _ _ => h.loop)
  | workflow target =>
    exact safe_bind.2 ((h.advance (.workflow target) s rfl hs).post fun r s hs =>
      h.call (.inr rfl) hs fun _ _ => h.loop)
  | acquire resource =>
    exact safe_bind.2 ((h.acquire resource s hs).post fun err s hs =>
      h.call (.inl rfl) hs fun _ _ hs => h.call (.inr rfl) hs fun _ _ => h.loop)
  | subscribe after =>
    refine safe_bind.2 ((h.subscribe after s hs).post fun r s hs =>
      h.call (.inl rfl) hs fun _ s hs => ?_)
    cases r with
    | ok id | error => exact h.call (.inr rfl) hs fun _ _ hs => h.loop hs
  | cleanup attempt => exact absurd rfl (hcmd attempt)

end

/-- On the core alone a subscription and an answer change nothing. -/
theorem core_handles (hidle : ∀ c, J c → I c) (hadv : ∀ m c, m.cleanupOwned = false → J c →
      Safe (coreRules allows) I (advance m) (fun _ => J) c) (hacq : ∀ resource c, J c →
      Safe (coreRules allows) I (acquire resource) (fun _ => J) c) :
    Handles (coreRules allows) I J := by
  have hquiet : ∀ o x c, o.area ∈ [.read, .stream, .reply] → J c →
      J ((coreRules allows).exec o x c).2 := by
    intro o x c ho hc
    rwa [show ((coreRules allows).exec o x c).2 = c from exec_quiet ho x c]
  have hrely : ∀ c c', J c → (coreRules allows).rely c c' → J c' := by
    rintro c _ h rfl
    exact h
  refine ⟨hidle, hrely, fun o x c ho _ h => ?_, hadv, hacq, ?_⟩
  · exact hquiet o x c (by obtain h | h := ho <;> simp [h]) h
  · intro after c hc
    refine .of_uses (subscribe_within after) hidle hrely ?_ hc
    exact fun o x c ho _ => hquiet o x c (by revert ho; simp; tauto)

def Core.finished (c : Core) (snapshot : Snapshot) : Core :=
  { c with registered := false, tombstone := some { snapshot with events := [] } }

/-- **The cleanup command**: a failed attempt is answered and the actor goes on; a successful
one gives up the entry, is answered, closes the subscriptions and ends the actor. -/
theorem core_handleCleanup {K : Core → Prop} {attempt : Nat} (hJ : ∀ c, J c → I c)
    (hK : ∀ c, K c → I c) (h : Safe (coreRules allows) I cleanupEntry (fun r c => match r.2 with
      | some e => I c ∧ J (c.traced (.completed attempt ⟨r.1, none, some e⟩))
      | none => I c ∧ I (c.finished r.1) ∧
          I ((c.finished r.1).traced (.completed attempt ⟨r.1, none, none⟩)) ∧
          K { (c.finished r.1).traced (.completed attempt ⟨r.1, none, none⟩) with done := true }) c)
    :
    Safe (coreRules allows) I (handle (.cleanup attempt))
      (fun b c => if b then K c else J c) c := by
  refine safe_bind.2 (h.post fun r c hr => ?_)
  match r with
  | (last, some e) =>
    exact core_call.2 ⟨hr.1, fun _ _ => core_pure.2 ⟨hJ _ hr.2, hr.2⟩⟩
  | (last, none) =>
    obtain ⟨hI, hfin, hans, hdone⟩ := hr
    refine core_call.2 ⟨hI, fun _ _ => core_call.2 ⟨hfin, fun _ _ => safe_bind.2 ?_⟩⟩
    refine core_closeSubscribers hans ?_
    exact core_call.2 ⟨hans, fun _ _ => core_pure.2 ⟨hK _ hdone, hdone⟩⟩

end PrivateVm.Session
