import PrivateVm.Vpn.Store

set_option autoImplicit false

/-! # What the operations of the store change

An operation on a profile changes the entry of its key and the plan of that entry, and nothing
that belongs to another key (`Updates`), as the entries of different keys are different ones and a
plan names the key it was made for (`Store.WF`).
-/

namespace PrivateVm.Vpn

open List

/-- Keys have entries of their own, and entries have plans of their own key. -/
structure Store.WF (s : Store) : Prop where
  bound : ∀ key i, s.profiles.lookup key = some i → i < s.entries.length
  inj : ∀ key key' i, s.profiles.lookup key = some i → s.profiles.lookup key' = some i →
    key = key'
  owned : ∀ key i e plan, s.entry key = some (i, e) → e.plan = some plan →
    ∃ p, s.plans[plan]? = some p ∧ p.key = key

/-- From one store to another only what belongs to a key changes; its entry becomes the given
one. -/
structure Updates (s s' : Store) (key : ProfileKey) (new : Option (Nat × StoredProfile)) : Prop
    where
  wf : s'.WF
  entry : ∀ k, s'.entry k = if k = key then new else s.entry k
  plans : ∀ (plan : Nat) p, s.plans[plan]? = some p → p.key ≠ key → s'.plans[plan]? = some p
  length : s.entries.length ≤ s'.entries.length

section

variable {s s' s'' : Store} {key : ProfileKey} {i : Nat} {e : StoredProfile}
  {new new' : Option (Nat × StoredProfile)}

theorem Updates.trans (h : Updates s s' key new) (h' : Updates s' s'' key new') :
    Updates s s'' key new' := by
  refine ⟨h'.wf, fun k => ?_, fun plan p hp hne => h'.plans plan p (h.plans plan p hp hne) hne,
    h.length.trans h'.length⟩
  rw [h'.entry, h.entry]
  split_ifs <;> rfl

theorem Updates.refl (hs : s.WF) (key : ProfileKey) : Updates s s key (s.entry key) := by
  refine ⟨hs, fun k => ?_, fun _ _ hp _ => hp, le_refl _⟩
  split_ifs with hk
  · rw [hk]
  · rfl

variable {k : ProfileKey}

theorem Store.entry_eq_some :
    s.entry k = some (i, e) ↔ s.profiles.lookup k = some i ∧ s.entries[i]? = some e := by
  simp only [Store.entry, Option.pure_def, Option.bind_eq_bind, Option.bind_eq_some_iff,
    Option.some.injEq, Prod.mk.injEq]
  constructor
  · rintro ⟨j, hj, e', he', rfl, rfl⟩
    exact ⟨hj, he'⟩
  · rintro ⟨hi, he⟩
    exact ⟨i, hi, e, he, rfl, rfl⟩

section

variable (hs : s.WF)

include hs

theorem Store.entry_eq_none : s.entry k = none ↔ s.profiles.lookup k = none := by
  cases hk : s.profiles.lookup k with
  | none => simp [Store.entry, hk]
  | some j =>
    have hj := hs.bound k j hk
    simp [Store.entry, hk, hj]

theorem Store.entry_modifyEntry (h : s.entry key = some (i, e))
    (f : StoredProfile → StoredProfile) (k : ProfileKey) :
    (s.modifyEntry i f).entry k = if k = key then some (i, f e) else s.entry k := by
  obtain ⟨hi, he⟩ := Store.entry_eq_some.1 h
  split_ifs with hk
  · rw [Store.entry_eq_some, hk]
    exact ⟨hi, by simp [Store.modifyEntry, he]⟩
  cases hj : s.profiles.lookup k with
  | none => simp [Store.entry, Store.modifyEntry, hj]
  | some j =>
    have hne : i ≠ j := by
      rintro rfl
      exact hk (hs.inj k key i hj hi)
    simp [Store.entry, Store.modifyEntry, hj, hne]

/-- A change of an entry and of the plans that keeps those of the other keys. -/
theorem updates_change (h : s.entry key = some (i, e)) (plans : List ResolutionPlan)
    (f : StoredProfile → StoredProfile)
    (hkept : ∀ (plan : Nat) q, s.plans[plan]? = some q → q.key ≠ key → plans[plan]? = some q)
    (hf : ∀ plan, (f e).plan = some plan → ∃ p, plans[plan]? = some p ∧ p.key = key) :
    Updates s ({ s with plans := plans }.modifyEntry i f) key (some (i, f e)) := by
  have hent := Store.entry_modifyEntry hs h f
  refine ⟨⟨fun k j hj => ?_, hs.inj, fun k j e' plan hk hplan => ?_⟩, hent, hkept,
    by simp [Store.modifyEntry]⟩
  · simpa [Store.modifyEntry] using hs.bound k j hj
  replace hk := (hent k).symm.trans hk
  split_ifs at hk with hkey
  · obtain ⟨-, rfl⟩ := hk
    rw [hkey]
    exact hf plan hplan
  · obtain ⟨q, hq, hkq⟩ := hs.owned k j e' plan hk hplan
    exact ⟨q, hkept plan q hq (hkq ▸ hkey), hkq⟩

/-- A change of an entry that leaves it without a plan, or with the plan it had. -/
theorem updates_modifyEntry (h : s.entry key = some (i, e))
    (f : StoredProfile → StoredProfile) (hf : ∀ plan, (f e).plan = some plan → e.plan = some plan) :
    Updates s (s.modifyEntry i f) key (some (i, f e)) :=
  updates_change hs h s.plans f (fun _ _ hq _ => hq) fun plan hplan =>
    hs.owned key i e plan h (hf plan hplan)

theorem updates_destroy (h : s.entry key = some (i, e)) {plan : Nat} (hplan : e.plan = some plan) :
    Updates s ({ s with plans := s.plans.modify plan fun _ => .destroyed }.modifyEntry i
      ({ · with plan := none })) key (some (i, { e with plan := none })) := by
  obtain ⟨p, hp, hkey⟩ := hs.owned key i e plan h hplan
  refine updates_change hs h _ _ (fun plan' q hq hne => ?_) fun _ hnone => by cases hnone
  have hother : plan ≠ plan' := by
    rintro rfl
    rw [hp, Option.some.injEq] at hq
    exact hne (hq ▸ hkey)
  simp [hother, hq]

theorem updates_invalidatePlan (h : s.entry key = some (i, e)) :
    Updates s (s.invalidatePlan i) key (some (i, { e with plan := none })) := by
  have he := (Store.entry_eq_some.1 h).2
  unfold Store.invalidatePlan
  cases hplan : e.plan with
  | none =>
    have hsame : ({ e with plan := none }) = e := by
      rw [← hplan]
    simp only [he, Option.bind_eq_bind, Option.bind_some, hplan]
    rw [hsame, ← h]
    exact .refl hs key
  | some =>
    simp only [he, Option.bind_eq_bind, Option.bind_some, hplan]
    exact updates_destroy hs h hplan

theorem updates_retire (h : s.entry key = some (i, e)) :
    Updates s (s.retire i) key (some (i, { e with plan := none, profile := none })) := by
  have h₁ := updates_invalidatePlan hs h
  have hent : (s.invalidatePlan i).entry key = some (i, { e with plan := none }) := by
    rw [h₁.entry, if_pos rfl]
  exact h₁.trans (updates_modifyEntry h₁.wf hent ({ · with profile := none }) fun _ hp => hp)

theorem updates_install (h : s.entry key = some (i, e)) (p : ResolutionPlan)
    (hp : p.key = key) (rotation : RotationState) :
    Updates s ({ s with plans := s.plans ++ [p] }.modifyEntry i
      ({ · with plan := some s.plans.length, rotation := rotation })) key
      (some (i, { e with plan := some s.plans.length, rotation := rotation })) := by
  refine updates_change hs h _ _ (fun plan q hq _ => ?_) ?_
  · rw [List.getElem?_append_left (List.getElem?_eq_some_iff.1 hq).1, hq]
  · rintro _ ⟨⟩
    exact ⟨p, by simp, hp⟩

theorem updates_erase : Updates s { s with profiles := s.profiles.erase key } key none := by
  have hent k : Store.entry { s with profiles := s.profiles.erase key } k =
      if k = key then none else s.entry k := by
    split_ifs with hk
    · rw [hk]
      simp [Store.entry]
    · simp [Store.entry, AList.lookup_erase_ne hk]
  have hlook : ∀ k j, (s.profiles.erase key).lookup k = some j →
      s.profiles.lookup k = some j := by
    intro k j hj
    by_cases hk : k = key
    · rw [hk, AList.lookup_erase] at hj
      cases hj
    · rwa [AList.lookup_erase_ne hk] at hj
  refine ⟨⟨fun k j hj => hs.bound k j (hlook k j hj),
    fun k k' j hj hj' => hs.inj k k' j (hlook k j hj) (hlook k' j hj'),
    fun k j e' plan hk hplan => ?_⟩, hent, fun _ _ hp _ => hp, le_refl _⟩
  rw [hent] at hk
  split_ifs at hk
  exact hs.owned k j e' plan hk hplan

theorem updates_insert (key : ProfileKey) (hplan : e.plan = none) (next : UInt32 → UInt64) :
    Updates s { s with
      nextByOwner := next, entries := s.entries ++ [e],
      profiles := s.profiles.insert key s.entries.length } key (some (s.entries.length, e)) := by
  have hlook : ∀ k j, (s.profiles.insert key s.entries.length).lookup k = some j →
      k = key ∧ j = s.entries.length ∨ k ≠ key ∧ s.profiles.lookup k = some j := by
    intro k j hj
    by_cases hk : k = key
    · rw [hk, AList.lookup_insert, Option.some.injEq] at hj
      exact .inl ⟨hk, hj.symm⟩
    · rw [AList.lookup_insert_ne hk] at hj
      exact .inr ⟨hk, hj⟩
  have hent k : Store.entry { s with
      nextByOwner := next, entries := s.entries ++ [e],
      profiles := s.profiles.insert key s.entries.length } k =
        if k = key then some (s.entries.length, e) else s.entry k := by
    split_ifs with hk
    · rw [hk, Store.entry_eq_some]
      exact ⟨AList.lookup_insert _, by simp⟩
    cases hj : s.profiles.lookup k with
    | none => simp [Store.entry, AList.lookup_insert_ne hk, hj]
    | some j =>
      simp [Store.entry, AList.lookup_insert_ne hk, hj, List.getElem?_append_left (hs.bound k j hj)]
  refine ⟨⟨fun k j hj => ?_, fun k k' j hj hj' => ?_, fun k j e' plan hk hplan' => ?_⟩, hent,
    fun _ _ hp _ => hp, by simp⟩
  · rw [length_append, length_singleton]
    rcases hlook k j hj with ⟨-, rfl⟩ | ⟨-, hj⟩
    · omega
    · have := hs.bound k j hj
      omega
  · rcases hlook k j hj with ⟨rfl, rfl⟩ | ⟨-, hj⟩
    · rcases hlook k' _ hj' with ⟨rfl, -⟩ | ⟨-, hj'⟩
      · rfl
      · exact absurd (hs.bound k' _ hj') (lt_irrefl _)
    · rcases hlook k' j hj' with ⟨-, rfl⟩ | ⟨-, hj'⟩
      · exact absurd (hs.bound k _ hj) (lt_irrefl _)
      · exact hs.inj k k' j hj hj'
  · rw [hent] at hk
    split_ifs at hk
    · obtain ⟨-, rfl⟩ := hk
      rw [hplan] at hplan'
      cases hplan'
    · exact hs.owned k j e' plan hk hplan'

end

end

/-! ## The operations -/

section

variable {s : Store} {key : ProfileKey}

theorem wf_newMemoryStore : newMemoryStore.WF := by
  constructor <;> simp [newMemoryStore, Store.entry]

@[simp] theorem length_retire (s : Store) (i : Nat) :
    (s.retire i).entries.length = s.entries.length := by
  unfold Store.retire Store.invalidatePlan
  split <;> simp [Store.modifyEntry]

theorem length_closeLocked (s : Store) : s.closeLocked.entries.length = s.entries.length := by
  have hfold (l : List (Sigma fun _ : ProfileKey => Nat)) (s : Store) :
      (l.foldl (fun s entry => s.retire entry.2) s).entries.length = s.entries.length := by
    induction l generalizing s with
    | nil => rfl
    | cons entry l ih => rw [foldl_cons, ih, length_retire]
  unfold Store.closeLocked
  split
  · rfl
  · exact hfold _ s

theorem lookup_closeLocked (h : s.closed = false) (k : ProfileKey) :
    s.closeLocked.profiles.lookup k = none := by
  simp [Store.closeLocked, h]

/-- A store without profiles. -/
theorem wf_of_lookup (h : ∀ k, s.profiles.lookup k = none) : s.WF := by
  refine ⟨fun k i hk => ?_, fun k k' i hk _ => ?_, fun k i e plan hk _ => ?_⟩
  · simp [h] at hk
  · simp [h] at hk
  · rw [Store.entry_eq_some, h] at hk
    cases hk.1

theorem wf_closeLocked (hs : s.WF) : s.closeLocked.WF := by
  by_cases h : s.closed = true
  · rwa [Store.closeLocked, if_pos h]
  · exact wf_of_lookup (lookup_closeLocked (Bool.not_eq_true _ ▸ h))

theorem modify_append_left {α : Type} {l} {i : Nat} (hi : i < l.length) (f : α → α) (l' : List α) :
    (l ++ l').modify i f = l.modify i f ++ l' := by
  apply ext_getElem?
  intro n
  rw [List.getElem?_modify]
  by_cases hn : n < l.length
  · rw [List.getElem?_append_left hn, List.getElem?_append_left (by simpa using hn),
      List.getElem?_modify]
  · have hle : l.length ≤ n := Nat.le_of_not_lt hn
    have hne : i ≠ n := by omega
    rw [List.getElem?_append_right hle, List.getElem?_append_right (by simpa using hle)]
    simp [hne]

/-- A retired entry makes room for a new one of the same key. -/
theorem updates_replace (hs : s.WF) {old : Nat} (hold : s.profiles.lookup key = some old) {e}
    (hplan : e.plan = none) (next : UInt32 → UInt64) :
    Updates s (.retire { s with
      nextByOwner := next, entries := s.entries ++ [e],
      profiles := s.profiles.insert key s.entries.length } old) key
      (some (s.entries.length, e)) := by
  have hlt := hs.bound key old hold
  obtain ⟨e', he'⟩ : ∃ e', s.entry key = some (old, e') :=
    ⟨s.entries[old], Store.entry_eq_some.2 ⟨hold, List.getElem?_eq_getElem hlt⟩⟩
  have hret := updates_retire hs he'
  have hins := updates_insert hret.wf key hplan next
  have hsame : .retire { s with
      nextByOwner := next, entries := s.entries ++ [e],
      profiles := s.profiles.insert key s.entries.length } old =
      { s.retire old with
        nextByOwner := next, entries := (s.retire old).entries ++ [e],
        profiles := (s.retire old).profiles.insert key (s.retire old).entries.length } := by
    have hget : (s.entries ++ [e])[old]? = s.entries[old]? := List.getElem?_append_left hlt
    simp only [Store.retire, Store.invalidatePlan, hget]
    cases s.entries[old]? >>= (·.plan) with
    | none | some => simp [Store.modifyEntry, modify_append_left, hlt]
  rw [hsame]
  rw [length_retire] at hins
  have hall := hret.trans hins
  rwa [length_retire]

/-- An import stores the profile it parsed in a new entry, or is refused; when it is refused the
store is as it was, or it is closed. -/
theorem import_spec (hs : s.WF) (codec : Codec) (key : ProfileKey) (source : Option ByteArray) :
    (∃ status p i e, (s.import codec key source).1 = .ok status ∧
      parseSecret codec source = .ok p ∧ s.entries.length ≤ i ∧ e.profile = some p ∧
      e.plan = none ∧ Updates s (s.import codec key source).2 key (some (i, e))) ∨
    (∃ err, (s.import codec key source).1 = .error err ∧
      ((s.import codec key source).2 = s ∨ (s.import codec key source).2 = s.closeLocked)) := by
  unfold Store.import
  split
  · exact .inr ⟨_, rfl, .inl rfl⟩
  cases hp : parseSecret codec source with
  | error err => exact .inr ⟨err, rfl, .inl rfl⟩
  | ok p =>
    simp only
    split
    · exact .inr ⟨_, rfl, .inl rfl⟩
    split
    · exact .inr ⟨_, rfl, .inl rfl⟩
    split
    · exact .inr ⟨_, rfl, .inr rfl⟩
    refine .inl ⟨_, p, s.entries.length,
      ⟨some p, s.nextByOwner key.owner + 1, 0, .resolutionNeeded, none⟩, rfl, rfl,
      le_refl _, rfl, rfl, ?_⟩
    cases hold : s.profiles.lookup key with
    | none => exact updates_insert hs key rfl _
    | some => exact updates_replace hs hold rfl _

/-- `Resolve` begins with a new epoch of the entry, and without a plan; or it is refused. -/
theorem resolveBegin_spec (hs : s.WF) (key : ProfileKey) :
    (∃ i e, (s.resolveBegin key).1 = .ok ⟨key, i, e.generation, e.epoch + 1⟩ ∧
      s.entry key = some (i, e) ∧ e.epoch + 1 ≠ 0 ∧
      Updates s (s.resolveBegin key).2 key (some (i, { e with
        epoch := e.epoch + 1, plan := none, rotation := .resolutionNeeded }))) ∨
    (∃ err, (s.resolveBegin key).1 = .error err ∧
      ((s.resolveBegin key).2 = s ∨ ∃ i e, s.entry key = some (i, e) ∧ e.epoch + 1 = 0 ∧
        Updates s (s.resolveBegin key).2 key (some (i, { e with epoch := e.epoch + 1 })))) := by
  unfold Store.resolveBegin
  split
  · exact .inr ⟨_, rfl, .inl rfl⟩
  split
  · exact .inr ⟨_, rfl, .inl rfl⟩
  cases h : s.entry key with
  | none => exact .inr ⟨_, rfl, .inl rfl⟩
  | some found =>
    obtain ⟨i, e⟩ := found
    have hcnt := updates_modifyEntry hs h ({ · with epoch := e.epoch + 1 }) fun _ hp => hp
    simp only
    split
    · rename_i hwrap
      exact .inr ⟨_, rfl, .inr ⟨i, e, rfl, hwrap, hcnt⟩⟩
    rename_i hwrap
    refine .inl ⟨i, e, rfl, rfl, hwrap, ?_⟩
    have hfind := hcnt.entry key
    rw [if_pos rfl] at hfind
    have hplan := hcnt.trans (updates_invalidatePlan hcnt.wf hfind)
    have hfind' := hplan.entry key
    rw [if_pos rfl] at hfind'
    exact hplan.trans (updates_modifyEntry hplan.wf hfind'
      ({ · with rotation := .resolutionNeeded }) fun _ hp => hp)

/-- `Resolve` ends with a plan for the entry and the epoch it began with; or it fails, and then
the plans are as they were and so is the entry but for its rotation. -/
theorem resolveFinish_spec (hs : s.WF) (pending : Pending)
    (result : Except Error (List ResolvedEndpoint)) (contextErr : Option Fault) :
    (∃ endpoints e, (s.resolveFinish pending result contextErr).1.1 = .ok s.plans.length ∧
      result = .ok endpoints ∧ s.entry pending.key = some (pending.entry, e) ∧
      e.generation = pending.generation ∧ e.epoch = pending.epoch ∧
      (s.resolveFinish pending result contextErr).2.plans =
        s.plans ++ [⟨pending.key, pending.generation, pending.epoch, endpoints⟩] ∧
      Updates s (s.resolveFinish pending result contextErr).2 pending.key
        (some (pending.entry, { e with plan := some s.plans.length, rotation := .current }))) ∨
    (∃ err, (s.resolveFinish pending result contextErr).1.1 = .error err ∧
      (s.resolveFinish pending result contextErr).2.plans = s.plans ∧
      ((s.resolveFinish pending result contextErr).2 = s ∨
        ∃ i e rotation, s.entry pending.key = some (i, e) ∧
          Updates s (s.resolveFinish pending result contextErr).2 pending.key
            (some (i, { e with rotation := rotation })))) := by
  unfold Store.resolveFinish
  split
  · exact .inr ⟨_, rfl, rfl, .inl rfl⟩
  cases h : s.entry pending.key with
  | none => exact .inr ⟨_, rfl, rfl, .inl rfl⟩
  | some found =>
    obtain ⟨i, e⟩ := found
    simp only
    split
    · exact .inr ⟨_, rfl, rfl, .inl rfl⟩
    rename_i hsame
    simp only [not_or, not_not] at hsame
    obtain ⟨rfl, hgen, hepoch⟩ := hsame
    have hrot rotation :=
      updates_modifyEntry hs h ({ · with rotation := rotation }) fun _ hp => hp
    cases result with
    | error => exact .inr ⟨_, rfl, rfl, .inr ⟨_, e, _, rfl, hrot _⟩⟩
    | ok endpoints =>
      cases contextErr with
      | some => exact .inr ⟨_, rfl, rfl, .inr ⟨_, e, _, rfl, hrot _⟩⟩
      | none =>
        exact .inl ⟨endpoints, e, rfl, rfl, rfl, hgen, hepoch, rfl, updates_install hs h _ rfl _⟩

theorem updates_remove (hs : s.WF) (key : ProfileKey) : Updates s (s.remove key) key none := by
  unfold Store.remove
  cases hi : s.profiles.lookup key with
  | none =>
    rw [← (Store.entry_eq_none hs).2 hi]
    exact .refl hs key
  | some i =>
    have hlt := hs.bound key i hi
    have hret := updates_retire hs
      (Store.entry_eq_some.2 ⟨hi, List.getElem?_eq_getElem hlt⟩)
    have hsame : Store.retire { s with profiles := s.profiles.erase key } i =
        { s.retire i with profiles := (s.retire i).profiles.erase key } := by
      simp only [Store.retire, Store.invalidatePlan]
      cases s.entries[i]? >>= (·.plan) with
      | none | some => rfl
    change Updates s (.retire { s with profiles := s.profiles.erase key } i) key none
    rw [hsame]
    exact hret.trans (updates_erase hret.wf)

end

/-! ## What the operations keep -/

structure Store.Limited (s : Store) : Prop where
  total : s.profiles.keys.length ≤ maximumStoredProfiles
  owners : ∀ owner, s.ownerCount owner ≤ maximumProfilesPerOwner

/-- A plan is never changed, but it can be destroyed. -/
def PlansKept (s s' : Store) : Prop :=
  ∀ (plan : Nat) p, s.plans[plan]? = some p →
    s'.plans[plan]? = some p ∨ s'.plans[plan]? = some .destroyed

/-- The plans and the limits are kept from one store to another. -/
structure Evolves (s s' : Store) : Prop where
  plans : PlansKept s s'
  limited : s.Limited → s'.Limited

section

variable {s s' s'' : Store} {key : ProfileKey}

namespace Store.Limited

variable (h : s.Limited)

include h

theorem of_sublist (hkeys : s'.profiles.keys.Sublist s.profiles.keys) : s'.Limited :=
  ⟨hkeys.length_le.trans h.total, fun owner => hkeys.countP_le.trans (h.owners owner)⟩

/-- A key that is stored already takes no room, and another one is stored only if there is
some. -/
theorem insert
    (hroom : ¬ (s.profiles.lookup key = none ∧ (maximumStoredProfiles ≤ s.profiles.keys.length ∨
      maximumProfilesPerOwner ≤ s.ownerCount key.owner)))
    {i : Nat} (hprof : s'.profiles = s.profiles.insert key i) : s'.Limited := by
  have hkeys : s'.profiles.keys = key :: s.profiles.keys.erase key := by
    rw [hprof, AList.keys_insert]
  by_cases hmem : key ∈ s.profiles.keys
  · have hperm : s'.profiles.keys.Perm s.profiles.keys := by
      rw [hkeys]
      exact (perm_cons_erase hmem).symm
    refine ⟨hperm.length_eq ▸ h.total, fun owner => ?_⟩
    rw [Store.ownerCount, hperm.countP_eq]
    exact h.owners owner
  · have hnone : s.profiles.lookup key = none :=
      AList.lookup_eq_none.2 fun hin => hmem (AList.mem_keys.1 hin)
    simp only [hnone, true_and, not_or, not_le] at hroom
    rw [erase_of_not_mem hmem] at hkeys
    refine ⟨?_, fun owner => ?_⟩
    · rw [hkeys]
      exact hroom.1
    have hcnt : s'.ownerCount owner =
        s.ownerCount owner + if key.owner = owner then 1 else 0 := by
      simp [Store.ownerCount, hkeys, countP_cons]
    rw [hcnt]
    split_ifs with howner
    · rw [← howner]
      exact hroom.2
    · exact h.owners owner

end Store.Limited

namespace Evolves

theorem refl (s : Store) : Evolves s s := ⟨fun _ _ => .inl, id⟩

theorem trans (h : Evolves s s') (h' : Evolves s' s'') : Evolves s s'' := by
  refine ⟨fun plan p hp => ?_, fun hlim => h'.limited (h.limited hlim)⟩
  rcases h.plans plan p hp with hkept | hdest
  · exact h'.plans plan p hkept
  · exact .inr ((h'.plans plan _ hdest).elim id id)

/-- The plans are the same, and no key is new. -/
theorem of_eq (hplans : s'.plans = s.plans)
    (hkeys : s'.profiles.keys.Sublist s.profiles.keys) : Evolves s s' :=
  ⟨fun _ _ hp => .inl (hplans ▸ hp), fun h => h.of_sublist hkeys⟩

theorem invalidatePlan (s : Store) (i : Nat) : Evolves s (s.invalidatePlan i) := by
  unfold Store.invalidatePlan
  split
  · exact .refl s
  rename_i plan' _
  refine ⟨fun plan p hp => ?_, fun h => h.of_sublist (.refl _)⟩
  by_cases hsame : plan' = plan
  · exact .inr (by simp [Store.modifyEntry, hsame, hp])
  · exact .inl (by simp [Store.modifyEntry, hsame, hp])

theorem retire (s : Store) (i : Nat) : Evolves s (s.retire i) :=
  (invalidatePlan s i).trans (.of_eq rfl (.refl _))

theorem closeLocked (s : Store) : Evolves s s.closeLocked := by
  have hfold (l : List (Sigma fun _ : ProfileKey => Nat)) s :
      Evolves s (l.foldl (fun s entry => s.retire entry.2) s) := by
    induction l generalizing s with
    | nil => exact .refl s
    | cons entry l ih => exact (retire s entry.2).trans (ih _)
  unfold Store.closeLocked
  split
  · exact .refl s
  · exact (hfold _ s).trans (.of_eq rfl (nil_sublist _))

theorem «import» (s : Store) (codec : Codec) (key : ProfileKey) (source : Option ByteArray) :
    Evolves s (s.import codec key source).2 := by
  unfold Store.import
  split
  · exact .refl s
  cases parseSecret codec source with
  | error => exact .refl s
  | ok =>
    simp only
    split
    · exact .refl s
    split
    · exact .refl s
    rename_i hroom
    split
    · exact .closeLocked s
    have hstored next entries : Evolves s { s with
        nextByOwner := next, entries := entries,
        profiles := s.profiles.insert key s.entries.length } :=
      ⟨fun _ _ => .inl, fun h => h.insert hroom rfl⟩
    cases s.profiles.lookup key with
    | none => exact hstored _ _
    | some old => exact (hstored _ _).trans (.retire _ old)

theorem resolveBegin (s : Store) (key : ProfileKey) : Evolves s (s.resolveBegin key).2 := by
  unfold Store.resolveBegin
  split
  · exact .refl s
  split
  · exact .refl s
  cases s.entry key with
  | none => exact .refl s
  | some found =>
    have hcnt f : Evolves s (s.modifyEntry found.1 f) := .of_eq rfl (.refl _)
    simp only
    split
    · exact hcnt _
    · exact ((hcnt _).trans (.invalidatePlan _ _)).trans (.of_eq rfl (.refl _))

theorem resolveFinish (s : Store) (pending : Pending)
    (result : Except Error (List ResolvedEndpoint)) (contextErr : Option Fault) :
    Evolves s (s.resolveFinish pending result contextErr).2 := by
  unfold Store.resolveFinish
  split
  · exact .refl s
  cases s.entry pending.key with
  | none => exact .refl s
  | some =>
    simp only
    split
    · exact .refl s
    cases result with
    | error => exact .of_eq rfl (.refl _)
    | ok =>
      cases contextErr with
      | some => exact .of_eq rfl (.refl _)
      | none =>
        refine ⟨fun plan p hp => .inl ?_, fun h => h.of_sublist (.refl _)⟩
        have hlt := (List.getElem?_eq_some_iff.1 hp).1
        simp [Store.modifyEntry, List.getElem?_append_left hlt, hp]

theorem remove (s : Store) (key : ProfileKey) : Evolves s (s.remove key) := by
  unfold Store.remove
  split
  · exact .refl s
  · have herase : Evolves s { s with profiles := s.profiles.erase key } := by
      refine .of_eq rfl ?_
      rw [AList.keys_erase]
      exact erase_sublist
    exact herase.trans (.retire _ _)

end Evolves

end

end PrivateVm.Vpn
