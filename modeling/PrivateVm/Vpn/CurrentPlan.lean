import PrivateVm.Vpn.Rewrite
import PrivateVm.Vpn.StoreEffects

set_option autoImplicit false

/-! # A plan that is used is the current one

`UsePlan` should hand out the endpoints of the last `Resolve` of the stored profile, not overtaken
by anything since it began. It does in every run in which the 64-bit epoch of an entry is not
counted past its end (`plans_current`): a lookup ends within ten seconds, so that it can never be
outstanding for so many calls.
-/

namespace PrivateVm.Vpn

/-! ## The machine -/

/-- How far a call of `Resolve` has come after its first critical section. -/
inductive Stage where
  | looking
  | looked (result : Except Error (List ResolvedEndpoint))
  | done

structure Request where
  pending : Pending
  stage : Stage

/-- What happened to a profile. A `Resolve` is named by its number among those that began. -/
inductive Event where
  | imported (key : ProfileKey) (profile : Profile)
  | begun (key : ProfileKey) (request : Nat)
  | completed (key : ProfileKey) (request : Nat) (endpoints : List ResolvedEndpoint)
  | removed (key : ProfileKey)
  | closed
  deriving DecidableEq

/-- The event concerns the profile of a key; the end of the store concerns all of them. -/
def Event.concerns (key : ProfileKey) : Event → Bool
  | .imported k _ | .begun k _ | .completed k _ _ | .removed k => k = key
  | .closed => true

/-- The event ends one profile or stores another. -/
def Event.replaces : Event → Bool
  | .imported _ _ | .removed _ | .closed => true
  | .begun _ _ | .completed _ _ _ => false

structure World where
  store : Store
  requests : List Request
  /-- The last event comes first. -/
  log : List Event

def World.events (w : World) (key : ProfileKey) : List Event := w.log.filter (·.concerns key)

/-- What a thread can do next: an operation, or one of the three parts of a `Resolve`. -/
inductive Move where
  | import (key : ProfileKey) (source : Option ByteArray)
  | resolveBegin (key : ProfileKey)
  | lookUp (request : Nat) (lookup : Option Lookup)
  | resolveFinish (request : Nat) (contextErr : Option Fault)
  | remove (key : ProfileKey)
  | close

/-- The event of a store that has been closed. -/
def closings (before after : Store) : List Event :=
  if ¬ before.closed ∧ after.closed then [.closed] else []

/-- The event of a `Resolve` that made a plan. -/
def completions (key : ProfileKey) (r : Nat) :
    Except Error Nat → Except Error (List ResolvedEndpoint) → List Event
  | .ok _, .ok endpoints => [.completed key r endpoints]
  | _, _ => []

/-- The profile that a snapshot of an entry shows. -/
def Store.snapshot (s : Store) (i : Nat) : Option Profile := s.entries[i]? >>= (·.profile)

def World.step (codec : Codec) : Move → World → World
  | .import key source, w =>
    let o := w.store.import codec key source
    match o.1, parseSecret codec source with
    | .ok _, .ok profile => ⟨o.2, w.requests, .imported key profile :: w.log⟩
    | _, _ => ⟨o.2, w.requests, closings w.store o.2 ++ w.log⟩
  | .resolveBegin key, w =>
    let o := w.store.resolveBegin key
    match o.1 with
    | .ok pending =>
      ⟨o.2, w.requests ++ [⟨pending, .looking⟩], .begun key w.requests.length :: w.log⟩
    | .error _ => { w with store := o.2 }
  | .lookUp r lookup, w =>
    match w.requests[r]? with
    | some ⟨pending, .looking⟩ =>
      let result := resolve (w.store.snapshot pending.entry) lookup
      { w with requests := w.requests.set r ⟨pending, .looked result⟩ }
    | _ => w
  | .resolveFinish r contextErr, w =>
    match w.requests[r]? with
    | some ⟨pending, .looked result⟩ =>
      let o := w.store.resolveFinish pending result contextErr
      ⟨o.2, w.requests.set r ⟨pending, .done⟩,
        completions pending.key r o.1.1 result ++ w.log⟩
    | _ => w
  | .remove key, w => { w with store := w.store.remove key, log := .removed key :: w.log }
  | .close, w =>
    { w with
      store := w.store.closeLocked, log := closings w.store w.store.closeLocked ++ w.log }

def storeMachine (codec : Codec) : Machine World Move where
  init w := w = ⟨newMemoryStore, [], []⟩
  step := World.step codec

/-- No epoch is counted past its end. -/
def noWrap : Move → World → Prop
  | .resolveBegin key, w => ∀ i entry, w.store.entry key = some (i, entry) → entry.epoch + 1 ≠ 0
  | _, _ => True

/-! ## The invariant -/

/-- An open `Resolve` of an entry has an epoch of it; one with its present epoch has not been
overtaken. What it looked up it looked up for the profile of the entry. -/
structure Open (w : World) (key : ProfileKey) (e : StoredProfile) (r : Nat) (q : Request) : Prop
    where
  epoch_le : q.pending.epoch.toNat ≤ e.epoch.toNat
  last : q.pending.epoch = e.epoch → ∃ rest, w.events key = .begun key r :: rest
  resolved : ∀ endpoints, q.stage = .looked (.ok endpoints) →
    ∃ lookup, resolve e.profile lookup = .ok endpoints

/-- A plan of an entry is that of the last `Resolve`. -/
structure Planned (w : World) (key : ProfileKey) (e : StoredProfile) (p : ResolutionPlan) : Prop
    where
  last : ∃ r rest, w.events key = .completed key r p.endpoints :: .begun key r :: rest
  resolved : ∃ lookup, resolve e.profile lookup = .ok p.endpoints

/-- What is known of the entry of a key. -/
structure Tracked (w : World) (key : ProfileKey) (i : Nat) (e : StoredProfile) : Prop where
  stored : ∃ p, e.profile = some p ∧
    (w.events key).find? Event.replaces = some (.imported key p)
  planned : ∀ plan p, e.plan = some plan → w.store.plans[plan]? = some p → Planned w key e p
  opened : ∀ (r : Nat) q, w.requests[r]? = some q → q.stage ≠ .done → q.pending.key = key →
    q.pending.entry = i → Open w key e r q

structure Coherent (w : World) : Prop where
  wf : w.store.WF
  fresh : ∀ (r : Nat) q, w.requests[r]? = some q → q.pending.entry < w.store.entries.length
  tracked : ∀ key i e, w.store.entry key = some (i, e) → Tracked w key i e

section

variable {codec : Codec} {w w' : World} {key : ProfileKey} {i : Nat} {e : StoredProfile}

/-- The open calls of a key are the same. -/
def SameRequests (w w' : World) (key : ProfileKey) : Prop :=
  ∀ (r : Nat) q, w'.requests[r]? = some q → q.stage ≠ .done → q.pending.key = key →
    w.requests[r]? = some q

/-- The entry of a key is not affected by what happens to others. -/
theorem Tracked.frame (h : Tracked w key i e) (hs : w.store.WF)
    (hent : w.store.entry key = some (i, e)) (hevs : w'.events key = w.events key)
    (hplans : ∀ (plan : Nat) p, w.store.plans[plan]? = some p → p.key = key →
      w'.store.plans[plan]? = some p)
    (hreqs : SameRequests w w' key) : Tracked w' key i e := by
  refine ⟨hevs ▸ h.stored, fun plan p hplan hp => ?_, fun r q hq hopen hkey hi => ?_⟩
  · obtain ⟨p', hp', hkey⟩ := hs.owned key i e plan hent hplan
    have hsame : p = p' := by
      rw [hplans plan p' hp' hkey, Option.some.injEq] at hp
      exact hp.symm
    have hpld := h.planned plan p hplan (hsame ▸ hp')
    exact ⟨hevs ▸ hpld.last, hpld.resolved⟩
  · have hwas := h.opened r q (hreqs r q hq hopen hkey) hopen hkey hi
    exact ⟨hwas.epoch_le, hevs ▸ hwas.last, hwas.resolved⟩

/-- A step on one key: it is left to show what holds for that key. -/
theorem Coherent.update (h : Coherent w) {new} (hupd : Updates w.store w'.store key new)
    (hevs : ∀ k, k ≠ key → w'.events k = w.events k) (hreqs : ∀ k, k ≠ key → SameRequests w w' k)
    (hfr : ∀ (r : Nat) q, w'.requests[r]? = some q → q.pending.entry < w'.store.entries.length)
    (htrk : ∀ i e, new = some (i, e) → Tracked w' key i e) : Coherent w' := by
  refine ⟨hupd.wf, hfr, fun k i e hk => ?_⟩
  rw [hupd.entry] at hk
  split_ifs at hk with hkey
  · rw [hkey]
    exact htrk i e hk
  · exact (h.tracked k i e hk).frame h.wf hk (hevs k hkey)
      (fun plan p hp hpk => hupd.plans plan p hp (hpk ▸ hkey)) (hreqs k hkey)

theorem SameRequests.refl (h : w'.requests = w.requests) : SameRequests w w' key := by
  intro r q hq _ _
  rwa [← h]

variable {event : Event} {r : Nat} {pending : Pending}

theorem events_cons_self (w : World) (h : event.concerns key = true) (store : Store)
    (requests : List Request) :
    World.events ⟨store, requests, event :: w.log⟩ key = event :: w.events key := by
  simp [World.events, h]

theorem events_cons_other (w : World) (h : event.concerns key = false) (store : Store)
    (requests : List Request) :
    World.events ⟨store, requests, event :: w.log⟩ key = w.events key := by
  simp [World.events, h]

namespace Coherent

variable (h : Coherent w)

include h

/-- A store that has been closed has no entries to speak of. -/
theorem closed (hopen : w.store.closed = false) (hstore : w'.store = w.store.closeLocked)
    (hreqs : w'.requests = w.requests) : Coherent w' := by
  have hnone := lookup_closeLocked hopen
  refine ⟨hstore ▸ wf_closeLocked h.wf, fun r q hq => ?_, fun k i e hk => ?_⟩
  · rw [hstore, length_closeLocked]
    exact h.fresh r q (hreqs ▸ hq)
  · rw [hstore, Store.entry_eq_some, hnone] at hk
    cases hk.1

/-! ## The steps -/

theorem «import» (codec : Codec) (key : ProfileKey)
    (source : Option ByteArray) : Coherent (w.step codec (.import key source)) := by
  rcases import_spec h.wf codec key source with
    ⟨status, p, i, e, hok, hparse, hi, hprof, hplan, hupd⟩ | ⟨err, herr, hstore⟩
  · simp only [World.step, hok, hparse]
    refine h.update hupd (fun k hk => ?_) (fun k hk => .refl rfl) (fun r q hq => ?_)
      fun i' e' hnew => ?_
    · exact events_cons_other w (by simp [Event.concerns, Ne.symm hk]) _ _
    · exact (h.fresh r q hq).trans_le hupd.length
    cases hnew
    refine ⟨⟨p, hprof, ?_⟩, fun plan p' hp' _ => ?_, fun r q hq _ _ hent => ?_⟩
    · rw [events_cons_self w (by simp [Event.concerns])]
      rfl
    · rw [hplan] at hp'
      cases hp'
    · -- the entry is newer than every call
      have := h.fresh r q hq
      omega
  · simp only [World.step, herr]
    by_cases hsame : (w.store.import codec key source).2 = w.store
    · rwa [hsame, closings, if_neg fun hcl => hcl.1 hcl.2]
    have hcl := hstore.resolve_left hsame
    have hopen : w.store.closed = false := by
      by_contra hnot
      rw [Store.closeLocked, if_pos (by simpa using hnot)] at hcl
      exact hsame hcl
    exact h.closed hopen hcl rfl

theorem resolveBegin (codec : Codec) (key : ProfileKey)
    (hgrd : noWrap (.resolveBegin key) w) : Coherent (w.step codec (.resolveBegin key)) := by
  rcases resolveBegin_spec h.wf key with ⟨i, e, hok, hent, hwrap, hupd⟩ | ⟨err, herr, hstore⟩
  · simp only [World.step, hok]
    have htrk := h.tracked key i e hent
    have hepoch : (e.epoch + 1).toNat = e.epoch.toNat + 1 := by
      have hne : (e.epoch + 1).toNat ≠ 0 := fun h0 => hwrap (UInt64.toNat.inj h0)
      rw [UInt64.toNat_add] at hne ⊢
      have := e.epoch.toNat_lt
      have hone : (1 : UInt64).toNat = 1 := rfl
      omega
    -- a call is either an old one or the one that begins now
    have hcall : ∀ r q,
        (w.requests ++ [⟨⟨key, i, e.generation, e.epoch + 1⟩, .looking⟩])[r]? = some q →
        w.requests[r]? = some q ∨ r = w.requests.length ∧
          q = ⟨⟨key, i, e.generation, e.epoch + 1⟩, .looking⟩ := by
      intro r q hq
      rw [List.getElem?_append, List.getElem?_singleton] at hq
      split_ifs at hq with hr
      · exact .inl hq
      · cases hq
        exact .inr ⟨by omega, rfl⟩
    have hi := h.wf.bound key i (Store.entry_eq_some.1 hent).1
    refine h.update hupd (fun k hk => ?_) (fun k hk r q hq _ hkey => ?_) (fun r q hq => ?_)
      fun i' e' hnew => ?_
    · exact events_cons_other w (by simp [Event.concerns, Ne.symm hk]) _ _
    · rcases hcall r q hq with hold | ⟨-, rfl⟩
      · exact hold
      · exact absurd hkey.symm hk
    · refine lt_of_lt_of_le ?_ hupd.length
      rcases hcall r q hq with hold | ⟨-, rfl⟩
      · exact h.fresh r q hold
      · exact hi
    · cases hnew
      have hconc : (Event.begun key w.requests.length).concerns key = true := by
        simp [Event.concerns]
      have hevs := events_cons_self w hconc
      obtain ⟨p, hprof, hlast⟩ := htrk.stored
      refine ⟨⟨p, hprof, ?_⟩, fun plan p' hp' _ => ?_, fun r q hq hopen hkey hsame => ?_⟩
      · rwa [hevs]
      · cases hp'
      rcases hcall r q hq with hold | ⟨rfl, rfl⟩
      · have hwas := htrk.opened r q hold hopen hkey hsame
        refine ⟨?_, fun heq => ?_, hwas.resolved⟩
        · have := hwas.epoch_le
          change q.pending.epoch.toNat ≤ (e.epoch + 1).toNat
          omega
        · have := hwas.epoch_le
          rw [heq] at this
          change (e.epoch + 1).toNat ≤ e.epoch.toNat at this
          omega
      · exact ⟨le_refl _, fun _ => ⟨_, hevs _ _⟩, fun _ hlook => by cases hlook⟩
  · simp only [World.step, herr]
    rcases hstore with hsame | ⟨i, e, hent, hwrap, -⟩
    · rwa [hsame]
    · exact absurd hwrap (hgrd i e hent)

/-- A call that has come further is still for an entry that exists. -/
theorem fresh_set {stage} (hr : w.requests[r]? = some ⟨pending, stage⟩) (stage' : Stage) (r' : Nat)
    (q : Request) (hq : (w.requests.set r ⟨pending, stage'⟩)[r']? = some q) :
    q.pending.entry < w.store.entries.length := by
  rw [List.getElem?_set] at hq
  split_ifs at hq
  · cases hq
    exact h.fresh r ⟨pending, stage⟩ hr
  · exact h.fresh r' q hq

theorem lookUp (codec : Codec) (r : Nat) (lookup : Option Lookup) :
    Coherent (w.step codec (.lookUp r lookup)) := by
  simp only [World.step]
  split
  · rename_i pending hr
    refine ⟨h.wf, h.fresh_set hr _, fun k i e hk => ?_⟩
    have htrk := h.tracked k i e hk
    refine ⟨htrk.stored, fun plan p hplan hp => ?_, fun r' q hq hopen hkey hi => ?_⟩
    · obtain ⟨hlast, hres⟩ := htrk.planned plan p hplan hp
      exact ⟨hlast, hres⟩
    rw [List.getElem?_set] at hq
    split_ifs at hq with hsame
    · cases hq
      subst hsame
      have hwas := htrk.opened r _ hr (by simp) hkey hi
      refine ⟨hwas.epoch_le, hwas.last, fun endpoints hlook => ⟨lookup, ?_⟩⟩
      have hsnap : w.store.snapshot pending.entry = e.profile := by
        change pending.entry = i at hi
        simp [Store.snapshot, hi, (Store.entry_eq_some.1 hk).2]
      simp only [Stage.looked.injEq] at hlook
      rw [← hsnap, hlook]
    · obtain ⟨hle, hlast, hres⟩ := htrk.opened r' q hq hopen hkey hi
      exact ⟨hle, hlast, hres⟩
  · exact h

end Coherent

/-- A call that is done is not an open one. -/
theorem open_of_set_done {requests : List Request} {r' : Nat} {q : Request}
    (h : (requests.set r ⟨pending, .done⟩)[r']? = some q) (hopen : q.stage ≠ .done) :
    r' ≠ r ∧ requests[r']? = some q := by
  rw [List.getElem?_set] at h
  split_ifs at h with hsame
  · cases h
    exact absurd rfl hopen
  · exact ⟨.symm hsame, h⟩

theorem Coherent.resolveFinish (h : Coherent w) (codec : Codec) (r : Nat)
    (contextErr : Option Fault) : Coherent (w.step codec (.resolveFinish r contextErr)) := by
  simp only [World.step]
  split
  swap
  · exact h
  rename_i pending result hr
  rcases resolveFinish_spec h.wf pending result contextErr with
    ⟨endpoints, e, hok, rfl, hent, hgen, hepoch, hplans, hupd⟩ |
    ⟨err, herr, hplans, hstore⟩
  · have htrk := h.tracked _ _ e hent
    have hmine := htrk.opened r _ hr (by simp) rfl rfl
    obtain ⟨rest, hrest⟩ := hmine.last hepoch.symm
    have hconc : (Event.completed pending.key r endpoints).concerns pending.key = true := by
      simp [Event.concerns]
    have hevs := events_cons_self w hconc
    rw [hok]
    refine h.update hupd (fun k hk => ?_) (fun k hk r' q hq hopen _ => ?_) (fun r' q hq => ?_)
      fun i' e' hnew => ?_
    · exact events_cons_other w (by simp [Event.concerns, Ne.symm hk]) _ _
    · exact (open_of_set_done hq hopen).2
    · exact (h.fresh_set hr _ r' q hq).trans_le hupd.length
    cases hnew
    obtain ⟨p, hprof, hlast⟩ := htrk.stored
    refine ⟨⟨p, hprof, ?_⟩, fun plan p' hplan hp' => ?_, fun r' q hq hopen hkey hi => ?_⟩
    · change (World.events ⟨_, _, .completed pending.key r endpoints :: w.log⟩ _).find? _ = _
      rwa [hevs]
    · cases hplan
      rw [hplans, List.getElem?_concat_length, Option.some.injEq] at hp'
      subst hp'
      refine ⟨⟨r, rest, ?_⟩, hmine.resolved endpoints rfl⟩
      rw [← hrest]
      exact hevs _ _
    · obtain ⟨hne, hq⟩ := open_of_set_done hq hopen
      have hwas := htrk.opened r' q hq hopen hkey hi
      refine ⟨hwas.epoch_le, fun heq => ?_, hwas.resolved⟩
      -- only one open call can have the present epoch
      obtain ⟨rest', hrest'⟩ := hwas.last heq
      rw [hrest] at hrest'
      cases hrest'
      exact absurd rfl hne
  · have hnone : completions pending.key r
        (w.store.resolveFinish pending result contextErr).1.1 result = [] := by
      rw [herr]
      cases result <;> rfl
    rw [hnone]
    -- an entry keeps what is known of it
    have hkeep k i e rotation
        (hk : w.store.entry k = some (i, e)) :
        Tracked ⟨(w.store.resolveFinish pending result contextErr).2,
          w.requests.set r ⟨pending, .done⟩, w.log⟩ k i { e with rotation := rotation } := by
      have htrk := h.tracked k i e hk
      refine ⟨htrk.stored, fun plan p hplan hp => ?_, fun r' q hq hopen hkey hi => ?_⟩
      · rw [hplans] at hp
        obtain ⟨hlast, hres⟩ := htrk.planned plan p hplan hp
        exact ⟨hlast, hres⟩
      · obtain ⟨hle, hlast, hres⟩ :=
          htrk.opened r' q (open_of_set_done hq hopen).2 hopen hkey hi
        exact ⟨hle, hlast, hres⟩
    rcases hstore with hsame | ⟨i, e, rotation, hent, hupd⟩
    · refine ⟨?_, fun r' q hq => ?_, fun k i e hk => ?_⟩
      · rw [hsame]
        exact h.wf
      · rw [hsame]
        exact h.fresh_set hr _ r' q hq
      · rw [hsame] at hk
        exact hkeep k i e e.rotation hk
    · refine h.update hupd (fun k _ => rfl) (fun k _ r' q hq hopen _ => ?_)
        (fun r' q hq => ?_) fun i' e' hnew => ?_
      · exact (open_of_set_done hq hopen).2
      · exact (h.fresh_set hr _ r' q hq).trans_le hupd.length
      · cases hnew
        exact hkeep _ i e rotation hent

theorem Coherent.step (h : Coherent w) (codec : Codec) (move : Move) (hgrd : noWrap move w) :
    Coherent (w.step codec move) := by
  cases move with
  | «import» key source => exact h.import codec key source
  | resolveBegin key => exact h.resolveBegin codec key hgrd
  | lookUp r lookup => exact h.lookUp codec r lookup
  | resolveFinish r contextErr => exact h.resolveFinish codec r contextErr
  | remove key =>
    have hupd := updates_remove h.wf key
    refine h.update hupd (fun k hk => ?_) (fun k _ => .refl rfl) (fun r q hq => ?_)
      fun i e hnew => by cases hnew
    · exact events_cons_other w (by simp [Event.concerns, Ne.symm hk]) _ _
    · exact (h.fresh r q hq).trans_le hupd.length
  | close =>
    by_cases hcl : w.store.closed = true
    · have hsame : w.store.closeLocked = w.store := by
        rw [Store.closeLocked, if_pos hcl]
      simp only [World.step, hsame]
      rwa [closings, if_neg fun hnot => hnot.1 hcl]
    · exact h.closed (Bool.not_eq_true _ ▸ hcl) rfl rfl

end

variable {codec : Codec} {w : World} {G : Move → World → Prop}

theorem reachable_coherent (h : (storeMachine codec).Reachable noWrap w) : Coherent w := by
  refine h.inv ?_ fun move w hgrd hw => hw.step codec move hgrd
  rintro _ rfl
  refine ⟨wf_newMemoryStore, fun r q hq => ?_, fun key i e hk => ?_⟩
  · cases hq
  · cases hk

/-- **One step**, whatever the epochs do. -/
theorem World.step_evolves (codec : Codec) (move : Move) (w : World) :
    Evolves w.store (w.step codec move).store := by
  cases move with
  | «import» key source =>
    have h := Evolves.import w.store codec key source
    simp only [World.step]
    split <;> exact h
  | resolveBegin key =>
    have h := Evolves.resolveBegin w.store key
    simp only [World.step]
    split <;> exact h
  | lookUp =>
    simp only [World.step]
    split <;> exact .refl _
  | resolveFinish r contextErr =>
    simp only [World.step]
    split
    · exact .resolveFinish w.store _ _ contextErr
    · exact .refl _
  | remove key => exact .remove w.store key
  | close => exact .closeLocked w.store

theorem reachable_limited (h : (storeMachine codec).Reachable G w) : w.store.Limited := by
  refine Machine.Reachable.inv (P := fun w => w.store.Limited) ?_
    (fun move w _ => (w.step_evolves codec move).limited) h
  rintro _ rfl
  exact ⟨Nat.zero_le _, fun _ => Nat.zero_le _⟩

/-- A callback runs only with the plan of the entry. -/
theorem usePlan_eq_ok {s : Store} {key : ProfileKey} {plan : Nat} {contextErr : Option Fault}
    {view : View} (h : s.usePlan key plan contextErr = .ok view) :
    ∃ i e p, s.entry key = some (i, e) ∧ e.plan = some plan ∧ s.plans[plan]? = some p ∧
      p.key = key ∧ validName key.name = true ∧ view = ⟨p.endpoints, e.profile⟩ := by
  unfold Store.usePlan at h
  split at h
  · cases h
  rename_i hname
  split at h
  · cases h
  split at h
  · cases h
  rename_i i e hent
  split at h
  · cases h
  rename_i p hp
  split at h
  · cases h
  rename_i hsame
  simp only [not_or, not_not] at hsame hname
  split at h
  · cases h
  · cases h
    exact ⟨i, e, p, hent, hsame.1, hp, hsame.2.1, hname, rfl⟩

/-- **Plans are never stale.** In every run in which no epoch is counted past its end, a plan is
used only with the endpoints of the last `Resolve` of the stored profile, which nothing has
overtaken since it began, and with that profile. Every owner has at most 8 profiles, and there
are at most 64. -/
theorem plans_current (codec : Codec) {w : World} (h : (storeMachine codec).Reachable noWrap w) :
    (∀ key plan contextErr view, w.store.usePlan key plan contextErr = .ok view →
      ∃ r p rest lookup,
        w.events key = .completed key r view.endpoints :: .begun key r :: rest ∧
        rest.find? Event.replaces = some (.imported key p) ∧
        view.profile = some p ∧ resolve (some p) lookup = .ok view.endpoints) ∧
    (∀ owner, w.store.ownerCount owner ≤ 8) ∧ w.store.profiles.keys.length ≤ 64 := by
  have hlim := reachable_limited h
  refine ⟨fun key plan contextErr view hview => ?_, hlim.owners, hlim.total⟩
  obtain ⟨i, e, concrete, hent, hplan, hconc, -, -, rfl⟩ := usePlan_eq_ok hview
  have htrk := (reachable_coherent h).tracked key i e hent
  obtain ⟨p, hprof, hstor⟩ := htrk.stored
  obtain ⟨⟨r, rest, hevs⟩, lookup, hlook⟩ := htrk.planned plan concrete hplan hconc
  refine ⟨r, p, rest, lookup, hevs, ?_, hprof, hprof ▸ hlook⟩
  rwa [hevs] at hstor

/-! ## A sample run -/

def sampleKey : ProfileKey := ⟨1000, "home".toList⟩

/-- The store with the sample profile, which has no plan yet. -/
def sampleImported : World :=
  ⟨⟨[⟨some sampleProfile, 1, 0, .resolutionNeeded, none⟩], [], AList.singleton sampleKey 0,
    Function.update (fun _ => 0) 1000 1, false⟩, [], [.imported sampleKey sampleProfile]⟩

def sampleLookup : Lookup := ⟨none, some [sampleResolved.address], none, false⟩

theorem parseSecret_eq_ok {raw p} (h : parse codec raw = .ok p) :
    parseSecret codec (some raw) = .ok p := by
  simp [parseSecret, h]

/-- What an import of the first profile leaves. -/
theorem import_first {source} (h : parseSecret codec source = .ok sampleProfile) :
    (storeMachine codec).step (.import sampleKey source) ⟨newMemoryStore, [], []⟩ =
      sampleImported := by
  have himp : newMemoryStore.import codec sampleKey source =
      (.ok (statusFor ⟨some sampleProfile, 1, 0, .resolutionNeeded, none⟩),
        sampleImported.store) := by
    simp only [Store.import, h]
    rfl
  simp only [storeMachine, World.step, himp, h]
  rfl

theorem reachable_sampleImported : (storeMachine sampleCodec).Reachable noWrap sampleImported := by
  have hparse := parseSecret_eq_ok parse_sampleText
  exact ⟨_, rfl,
    .single ⟨.import sampleKey (some sampleText.utf8Encode), trivial, import_first hparse⟩⟩

/-- The test of `noWrap`. -/
def countable : Move → World → Bool
  | .resolveBegin key, w => (w.store.entry key).all fun found => found.2.epoch + 1 ≠ 0
  | _, _ => true

theorem noWrap_of_countable (move : Move) (w : World) (h : countable move w = true) :
    noWrap move w := by
  cases move with
  | resolveBegin =>
    intro i e he
    simpa [countable, he] using h
  | _ => trivial

theorem plans_current_sample : ∃ w, (storeMachine sampleCodec).Reachable noWrap w ∧
    w.store.usePlan sampleKey 0 none = .ok ⟨[sampleResolved], some sampleProfile⟩ ∧
    ∃ r p rest lookup,
      w.events sampleKey = .completed sampleKey r [sampleResolved] :: .begun sampleKey r :: rest ∧
      rest.find? Event.replaces = some (.imported sampleKey p) ∧
      some sampleProfile = some p ∧ resolve (some p) lookup = .ok [sampleResolved] := by
  have hreach : (storeMachine sampleCodec).Reachable noWrap ((storeMachine sampleCodec).play
      [.resolveBegin sampleKey, .lookUp 0 (some sampleLookup), .resolveFinish 0 none]
      sampleImported) := by
    obtain ⟨w₀, hinit, hlead⟩ := reachable_sampleImported
    exact ⟨w₀, hinit, hlead.trans (Machine.leads_play noWrap_of_countable (by decide +kernel))⟩
  have huse : ((storeMachine sampleCodec).play
      [.resolveBegin sampleKey, .lookUp 0 (some sampleLookup), .resolveFinish 0 none]
      sampleImported).store.usePlan sampleKey 0 none =
        .ok ⟨[sampleResolved], some sampleProfile⟩ := by
    decide +kernel
  exact ⟨_, hreach, huse, (plans_current sampleCodec hreach).1 sampleKey 0 none _ huse⟩

end PrivateVm.Vpn
