import PrivateVm.Session.Interleaving

set_option autoImplicit false

/-! # Event streams

What a subscriber is given is at every moment an initial part of the committed events after its
cursor. While nothing is being published it has all of them; during a publication those still to be
visited lack the last one (`Fed`). An event that is not saved is never published.
-/

namespace PrivateVm.Session

open Timestamp Checked Program List

/-! ## Numbered journals -/

/-- The event at position `i` has the number `i + 1`. -/
def Numbered (l : List Event) : Prop :=
  ∀ (i : Nat) (e : Event), l[i]? = some e → e.sequence = i + 1

variable {l log : List Event} {e : Event} {c : Core} {m : Move} {id : Nat} {k : Clients} {w : World}
  {o : Op}

theorem Numbered.append (h : Numbered l) (he : e.sequence = l.length + 1) :
    Numbered (l ++ [e]) := by
  intro i e' hi
  rw [List.getElem?_append] at hi
  split at hi
  · exact h i e' hi
  · rw [List.getElem?_singleton] at hi
    split at hi <;> cases hi
    omega

theorem Numbered.of_append (h : Numbered (l ++ [e])) : Numbered l ∧ e.sequence = l.length + 1 := by
  refine ⟨fun i e' hi => h i e' ?_, h l.length e List.getElem?_concat_length⟩
  rwa [List.getElem?_append_left (List.getElem?_eq_some_iff.1 hi).1]

/-- The events after a number are a tail of the journal. -/
theorem Numbered.filter_eq_drop (h : Numbered l) (after : Nat) :
    l.filter (fun e => e.sequence > after) = l.drop after := by
  induction l using List.reverseRecOn with
  | nil => simp
  | append_singleton l e ih =>
    obtain ⟨hl, he⟩ := h.of_append
    rw [filter_append, ih hl]
    by_cases haft : after ≤ l.length
    · rw [drop_append_of_le_length haft]
      simp [he, Nat.lt_succ_of_le haft]
    have hnot : ¬ after < e.sequence := by omega
    have hl : l.drop after = [] := drop_eq_nil_of_le (by omega)
    have hle : (l ++ [e]).drop after = [] := drop_eq_nil_of_le (by simp; omega)
    simp [hl, hle, hnot]

/-! ## Streams -/

/-- Everything a subscriber is given. -/
def Subscriber.content (s : Subscriber) : List Event := s.replay ++ s.received ++ s.queue

/-- The stream of one subscriber of a log; `pending` are those that lack its last event. -/
structure Subscriber.Fed (log : List Event) (pending : List Nat) (final : Prop)
    (unsubscribe : List Nat) (s : Subscriber) : Prop where
  start : s.after ≤ log.length
  run : s.content <+: log.drop s.after
  caught : s.attached = true → s.id ∉ pending → s.content = log.drop s.after
  behind : s.id ∈ pending → s.attached = true ∧ s.after ≤ log.dropLast.length ∧
    s.content = log.dropLast.drop s.after
  ended : ∀ r, s.reason = some r →
    r = some .subscriberSlow ∨ r = none ∧ (s.cancelled = true ∨ final)
  asked : s.id ∈ unsubscribe → s.cancelled = true

/-- The streams of a session; `final` says that the terminal event was written. -/
structure Fed (log : List Event) (pending : List Nat) (final : Prop) (k : Clients) : Prop where
  ids : (k.subscribers.map Subscriber.id).Nodup
  fresh : ∀ s ∈ k.subscribers, s.id ≤ k.nextSubID
  known : ∀ id ∈ k.unsubscribe, id ≤ k.nextSubID
  all : ∀ s ∈ k.subscribers, s.Fed log pending final k.unsubscribe

section

variable {log : List Event} {pending : List Nat} {final : Prop} {k k' : Clients}

theorem Fed.mono {final' : Prop} (h : Fed log pending final k) (hfinal : final → final') :
    Fed log pending final' k :=
  { h with
    all := fun s hs =>
      let hfed := h.all s hs
      { hfed with
        ended := fun r hr => (hfed.ended r hr).imp_right fun h => ⟨h.1, h.2.imp_right hfinal⟩ } }

theorem Fed.congr (h : Fed log pending final k) (hsubs : k'.subscribers = k.subscribers)
    (hnext : k'.nextSubID = k.nextSubID) (hunsub : k'.unsubscribe = k.unsubscribe) :
    Fed log pending final k' where
  ids := hsubs ▸ h.ids
  fresh := by rw [hsubs, hnext]; exact h.fresh
  known := by rw [hunsub, hnext]; exact h.known
  all := by rw [hsubs, hunsub]; exact h.all

variable {f : Subscriber → Subscriber} {pending' ids : List Nat}

theorem map_id_update (subscribers : List Subscriber) (id : Nat) (hf : ∀ s, (f s).id = s.id) :
    (subscribers.map fun s => if s.id = id then f s else s).map Subscriber.id =
      subscribers.map Subscriber.id := by
  rw [map_map]
  refine map_congr_left fun s _ => ?_
  simp
  split
  · exact hf s
  · rfl

variable {id : Nat}

namespace Fed

variable (h : Fed log pending final k)

include h

theorem update {log'} (hid : ∀ s, (f s).id = s.id)
    (hf : ∀ s ∈ k.subscribers, s.id = id → s.Fed log pending final k.unsubscribe →
      (f s).Fed log' pending' final k.unsubscribe)
    (hother : ∀ s ∈ k.subscribers, s.id ≠ id → s.Fed log pending final k.unsubscribe →
      s.Fed log' pending' final k.unsubscribe) : Fed log' pending' final (k.update id f) where
  ids := by
    change (List.map _ (k.subscribers.map _)).Nodup
    rw [map_id_update _ id hid]
    exact h.ids
  fresh s hs := by
    obtain ⟨s₀, hs₀, rfl⟩ := mem_map.1 hs
    split
    · rw [hid]
      exact h.fresh s₀ hs₀
    · exact h.fresh s₀ hs₀
  known := h.known
  all s hs := by
    obtain ⟨s₀, hs₀, rfl⟩ := mem_map.1 hs
    split
    · rename_i heq
      exact hf s₀ hs₀ heq (h.all s₀ hs₀)
    · rename_i hne
      exact hother s₀ hs₀ hne (h.all s₀ hs₀)

/-- A receive does not change what the subscriber has been given. -/
theorem receive (id : Nat) : Fed log pending final (k.receive id) := by
  refine h.update (fun s => ?_) (fun s _ _ hs => ?_) fun s _ _ hs => hs
  · split <;> rfl
  split
  · exact hs
  rename_i event rest hqueue
  have hcont : s.content =
      ({ s with queue := rest, received := s.received ++ [event] }).content := by
    simp [Subscriber.content, hqueue]
  exact ⟨hs.start, hcont ▸ hs.run, hcont ▸ hs.caught, hcont ▸ hs.behind, hs.ended, hs.asked⟩

theorem close (hid : (k.subscriber? id).any (fun s => !s.cancelled) = true) :
    Fed log pending final (k.close id) := by
  have hknown : id ≤ k.nextSubID := by
    obtain ⟨s, hs, -⟩ := (Option.any_eq_true _ _).1 hid
    have hmem := mem_of_find?_eq_some hs
    have heq : s.id = id := by simpa using List.find?_some hs
    exact heq ▸ h.fresh s hmem
  have hupd : Fed log pending final (k.update id fun s => { s with cancelled := true }) :=
    h.update (fun _ => rfl)
      (fun s _ _ hs => ⟨hs.start, hs.run, hs.caught, hs.behind,
        fun r hr => (hs.ended r hr).imp_right fun hn => ⟨hn.1, .inl rfl⟩, fun _ => rfl⟩)
      fun s _ _ hs => hs
  have hmem : ∀ id', id' ∈ (k.close id).unsubscribe → id' = id ∨ id' ∈ k.unsubscribe := by
    intro id' hid'
    simp only [Clients.close] at hid'
    split at hid'
    · simpa [or_comm] using hid'
    · exact .inr hid'
  refine ⟨hupd.ids, hupd.fresh, fun id' hid' => ?_, fun s hs => ?_⟩
  · obtain rfl | hold := hmem id' hid'
    · exact hknown
    · exact h.known id' hold
  have hfed := hupd.all s hs
  refine { hfed with asked := fun hs' => ?_ }
  obtain heq | hold := hmem s.id hs'
  · obtain ⟨s₀, hs₀, rfl⟩ := mem_map.1 hs
    split
    · rfl
    · rename_i hne
      split at heq
      · contradiction
      · exact absurd heq hne
  · exact hfed.asked hold

theorem env {i c} (hk : k.env i c = some k') : Fed log pending final k' := by
  cases Clients.env_step hk with
  | receive id => exact h.receive id
  | close hid => exact h.close hid
  | beginCleanup =>
    unfold Clients.beginCleanup
    split
    · exact h
    · exact h.congr rfl rfl rfl
  | admitDone =>
    unfold Clients.completeCleanup
    split <;> exact h.congr rfl rfl rfl
  | _ => exact h.congr rfl rfl rfl

/-- A subscriber leaves: it is too slow, it was closed, or the session is over. -/
theorem detach {reason} (hwhy : reason = some .subscriberSlow ∨
      reason = none ∧ ((∀ s ∈ k.subscribers, s.id = id → s.cancelled = true) ∨ final))
    (hid : id ∉ pending') (hpend : ∀ id', id' ≠ id → (id' ∈ pending' ↔ id' ∈ pending)) :
    Fed log pending' final (k.detach id reason) := by
  refine h.update (fun s => ?_) (fun s hmem heq hs => ?_) fun s _ hne hs => ?_
  · split <;> rfl
  · have hnot : s.id ∉ pending' := heq ▸ hid
    split
    · refine ⟨hs.start, hs.run, (fun h => by cases h), fun h => absurd h hnot, fun r hr => ?_,
        hs.asked⟩
      cases hr
      obtain hslow | ⟨hnone, hcl | hfinal⟩ := hwhy
      · exact .inl hslow
      · exact .inr ⟨hnone, .inl (hcl s hmem heq)⟩
      · exact .inr ⟨hnone, .inr hfinal⟩
    · rename_i hdet
      exact ⟨hs.start, hs.run, fun h => absurd h hdet, fun h => absurd h hnot, hs.ended, hs.asked⟩
  · exact ⟨hs.start, hs.run, fun ha hp => hs.caught ha fun h => hp ((hpend _ hne).2 h),
      fun hp => hs.behind ((hpend _ hne).1 hp), hs.ended, hs.asked⟩

end Fed

theorem Fed.push {e} (h : Fed (log ++ [e]) (id :: ids) final k) (hid : id ∉ ids) :
    Fed (log ++ [e]) ids final (k.push id e) := by
  refine h.update (fun _ => rfl) (fun s _ heq hs => ?_) fun s _ hne hs => ?_
  · have hnot : s.id ∉ ids := heq ▸ hid
    obtain ⟨-, hstart, hcont⟩ := hs.behind (heq ▸ mem_cons_self)
    rw [dropLast_concat] at hstart hcont
    have hnow : s.replay ++ s.received ++ (s.queue ++ [e]) = (log ++ [e]).drop s.after := by
      rw [drop_append_of_le_length hstart, ← hcont, Subscriber.content]
      simp
    exact ⟨hs.start, hnow ▸ prefix_rfl, fun _ _ => hnow, fun h => absurd h hnot, hs.ended,
      hs.asked⟩
  · exact ⟨hs.start, hs.run, fun ha hp => hs.caught ha (by simp [hne, hp]),
      fun hp => hs.behind (mem_cons_of_mem _ hp), hs.ended, hs.asked⟩

/-- A new subscriber is given the committed events after its cursor. -/
theorem Fed.attach {after : Nat} (h : Fed log [] final k) (haft : after ≤ log.length) :
    Fed log [] final (k.attach after (log.drop after)) where
  ids := by
    simp only [Clients.attach, map_append]
    refine nodup_append.2 ⟨h.ids, nodup_singleton _, ?_⟩
    intro id hid id' hid'
    obtain ⟨s, hs, rfl⟩ := mem_map.1 hid
    obtain rfl := mem_singleton.1 hid'
    exact Nat.ne_of_lt (Nat.lt_succ_of_le (h.fresh s hs))
  fresh s hs := by
    obtain hold | hnew := mem_append.1 hs
    · exact (h.fresh s hold).trans (Nat.le_succ _)
    · obtain rfl := mem_singleton.1 hnew
      exact le_rfl
  known id hid := (h.known id hid).trans (Nat.le_succ _)
  all s hs := by
    obtain hold | hnew := mem_append.1 hs
    · exact h.all s hold
    obtain rfl := mem_singleton.1 hnew
    have hcont : log.drop after ++ [] ++ [] = log.drop after := by simp
    refine ⟨haft, ?_, fun _ _ => hcont, (fun h => by cases h), (fun r hr => by cases hr),
      fun hasked => absurd (h.known _ hasked) (Nat.not_succ_le_self _)⟩
    change log.drop after ++ [] ++ [] <+: log.drop after
    rw [hcont]

/-- A new event makes every attached subscriber one that lacks it. -/
theorem Fed.extend (h : Fed log [] final k) (e : Event) (hids : ids.Perm k.attachedIDs) :
    Fed (log ++ [e]) ids final k where
  ids := h.ids
  fresh := h.fresh
  known := h.known
  all s hs := by
    have hfed := h.all s hs
    have hmem : s.id ∈ ids ↔ s.attached = true := by
      rw [hids.mem_iff]
      constructor
      · intro hin
        obtain ⟨s', hs', heq⟩ := mem_map.1 hin
        obtain ⟨hs', hatt⟩ := mem_filter.1 hs'
        rwa [inj_on_of_nodup_map h.ids hs' hs heq] at hatt
      · exact fun ha => mem_map_of_mem (mem_filter.2 ⟨hs, ha⟩)
    have hdrop : (log ++ [e]).drop s.after = log.drop s.after ++ [e] :=
      drop_append_of_le_length hfed.start
    refine ⟨hfed.start.trans (by simp), ?_, fun ha => absurd (hmem.2 ha), fun hp => ?_,
      hfed.ended, hfed.asked⟩
    · rw [hdrop]
      exact hfed.run.trans (prefix_append _ _)
    · rw [dropLast_concat]
      exact ⟨hmem.1 hp, hfed.start, hfed.caught (hmem.1 hp) (by simp)⟩

end

/-! ## Committed events -/

/-- Between commands the committed events are those of the session, and they are numbered. -/
structure Synced (c : Core) : Prop where
  committed : c.committed = c.session.events
  numbered : Numbered c.committed
  sequence : c.session.sequence = c.session.events.length

variable {now : Time} {α : Type}

theorem Synced.record (hc : Synced c) (h : c.session.move now m = .ok (e, c.session.record e)) :
    (c.session.record e).events = c.committed ++ [e] ∧ Numbered (c.committed ++ [e]) ∧
      (c.session.record e).sequence = (c.session.record e).events.length := by
  have hseq : e.sequence = c.session.sequence + 1 := by
    cases m with
    | lifecycle => exact (Session.appends_of_lifecycle h).sequence
    | workflow => exact (Session.appends_of_workflow h).sequence
  rw [hc.sequence] at hseq
  refine ⟨by rw [hc.committed]; rfl, hc.numbered.append (hc.committed ▸ hseq), ?_⟩
  simp [Session.record, hseq]

theorem Synced.advance (hc : Synced c) (hm : m.NotTerminal) :
    Safe (coreRules anyChoice) (fun c => Numbered c.committed) (advance m) (fun _ => Synced) c := by
  refine core_advance hc.numbered hc.numbered (fun _ _ _ _ => ⟨hc.1, hc.2, hc.3⟩)
    fun x e _ hmade => ?_
  have hph := move_phase_ne hm hmade
  obtain ⟨hevs, hnum, hseq⟩ := hc.record hmade
  have hold : (c.tick.appended m e (c.session.record e)).committed = c.committed := if_neg hph
  refine ⟨hold ▸ hc.numbered, fun _ _ _ => ?_, fun _ _ => ?_⟩
  · exact ⟨hold ▸ hc.numbered, hold.trans hc.committed, hold ▸ hc.numbered, hc.sequence⟩
  · have hsaved : Synced (c.tick.appended m e (c.session.record e)).saved :=
      ⟨rfl, (show Numbered (c.session.record e).events by rw [hevs]; exact hnum), hseq⟩
    exact (core_publish (fun _ h => h.numbered) (fun _ h => ⟨h.1, h.2, h.3⟩)
      hsaved).post fun _ _ h => ⟨h.numbered, h⟩

/-! ## Publication -/

structure Streams (w : World) : Prop where
  numbered : Numbered w.core.committed
  start : ∀ s ∈ w.clients.subscribers, s.after ≤ w.core.committed.length
  run : ∀ s ∈ w.clients.subscribers, s.content <+: w.core.committed.drop s.after
  ended : ∀ s ∈ w.clients.subscribers, ∀ r, s.reason = some r →
    r = some .subscriberSlow ∨ r = none ∧ (s.cancelled = true ∨ w.core.Ended)

/-- Code that keeps the streams intact while the environment acts. -/
abbrev Flows (p : Code α) (Q : α → World → Prop) (w : World) : Prop :=
  Safe (manager.rules anything) Streams p Q w

/-- The log is what is committed, and some subscribers lack its last event. -/
structure Publishing (log : List Event) (pending : List Nat) (c : Core) (k : Clients) : Prop where
  committed : c.committed = log
  numbered : Numbered log
  fed : Fed log pending c.Ended k

theorem Publishing.follows (log : List Event) (pending : List Nat) :
    Follows anything Streams (Publishing log pending) where
  env h _ hk := ⟨h.committed, h.numbered, h.fed.env hk⟩
  inv := by
    rintro c k ⟨rfl, hnum, hfed⟩
    exact ⟨hnum, fun s hs => (hfed.all s hs).start, fun s hs => (hfed.all s hs).run,
      fun s hs => (hfed.all s hs).ended⟩

/-- Every subscriber with this number was closed by its holder. -/
def Cancelled (id : Nat) (k : Clients) : Prop :=
  ∀ s ∈ k.subscribers, s.id = id → s.cancelled = true

theorem Cancelled.update {id' : Nat} {f : Subscriber → Subscriber} (h : Cancelled id k)
    (hid : ∀ s, (f s).id = s.id) (hf : ∀ s, s.cancelled = true → (f s).cancelled = true) :
    Cancelled id (k.update id' f) := by
  intro s hs heq
  obtain ⟨s₀, hs₀, rfl⟩ := mem_map.1 hs
  split_ifs at heq ⊢
  · rw [hid] at heq
    exact hf s₀ (h s₀ hs₀ heq)
  · exact h s₀ hs₀ heq

theorem Cancelled.env {i k'} (h : Cancelled id k) (hk : k.env i c = some k') : Cancelled id k' := by
  cases Clients.env_step hk with
  | receive => exact h.update (fun s => by split <;> rfl) fun s hs => by split <;> exact hs
  | close => exact h.update (fun _ => rfl) fun _ _ => rfl
  | beginCleanup =>
    unfold Clients.beginCleanup
    split <;> exact h
  | admitDone =>
    unfold Clients.completeCleanup
    split <;> exact h
  | _ => exact h

theorem cancelled_of_any (hids : (k.subscribers.map Subscriber.id).Nodup)
    (h : (k.subscriber? id).any Subscriber.cancelled = true) : Cancelled id k := by
  intro s hs hid
  obtain ⟨s', hs', hcanc⟩ := (Option.any_eq_true _ _).1 h
  have heq : s'.id = s.id := by
    have hfound := List.find?_some hs'
    simp only [beq_iff_eq] at hfound
    exact hfound.trans hid.symm
  rwa [inj_on_of_nodup_map hids (mem_of_find?_eq_some hs') hs heq] at hcanc

/-- A publication that comes upon a closed subscriber. -/
theorem Publishing.cancelled_follows (log : List Event) (pending : List Nat) (id : Nat) :
    Follows anything Streams (fun c k => Publishing log pending c k ∧ Cancelled id k) where
  env h hi hk := ⟨(Publishing.follows log pending).env h.1 hi hk, h.2.env hk⟩
  inv h := (Publishing.follows log pending).inv h.1

theorem Publishing.traced {pending} (h : Publishing log pending c k) (f : Effect) :
    Publishing log pending (c.traced f) k where
  committed := h.committed
  numbered := h.numbered
  fed := h.fed.mono fun ⟨e, b, hmem, hph⟩ => ⟨e, b, mem_cons_of_mem _ hmem, hph⟩

/-- The loop of `publish`. -/
theorem publishTo_fed (ids : List Nat) (hids : ids.Nodup)
    (hw : Joined (Publishing (log ++ [e]) ids) w) :
    Flows (publishTo e ids) (fun _ => Joined (Publishing (log ++ [e]) [])) w := by
  induction ids generalizing w with
  | nil => exact world_pure (Publishing.follows _ _) hw fun _ h => h
  | cons id ids ih =>
    obtain ⟨hid, hids⟩ := nodup_cons.1 hids
    have hpend : ∀ id', id' ≠ id → (id' ∈ ids ↔ id' ∈ id :: ids) := by
      intro id' hne
      simp [hne]
    refine world_cancelled (Publishing.follows _ _) hw fun cancelled k hk hcanc => ?_
    cases cancelled with
    | true =>
      refine world_call (Publishing.cancelled_follows _ _ id)
        ⟨hk, cancelled_of_any hk.fed.ids hcanc⟩ fun y k hk _ => ih hids ?_
      exact ⟨hk.1.committed, hk.1.numbered, hk.1.fed.detach (.inr ⟨rfl, .inl hk.2⟩) hid hpend⟩
    | false =>
      refine world_send (Publishing.follows _ _) hk fun sent k hk => ?_
      have htrac := hk.traced (.published e)
      cases sent with
      | true => exact ih hids ⟨htrac.committed, htrac.numbered, htrac.fed.push hid⟩
      | false =>
        refine world_call (Publishing.follows _ _)
          htrac fun z k hk _ => ih hids ?_
        exact ⟨hk.committed, hk.numbered, hk.fed.detach (.inl rfl) hid hpend⟩

/-- An event was committed and no subscriber has it yet. -/
structure Unpublished (log : List Event) (e : Event) (c : Core) (k : Clients) : Prop where
  committed : c.committed = log ++ [e]
  numbered : Numbered (log ++ [e])
  fed : Fed log [] c.Ended k

theorem Unpublished.publishing (h : Unpublished log e c k) {ids} (hids : ids.Perm k.attachedIDs) :
    Publishing (log ++ [e]) ids c k :=
  ⟨h.committed, h.numbered, h.fed.extend e hids⟩

theorem Unpublished.follows (log : List Event) (e : Event) :
    Follows anything Streams (Unpublished log e) where
  env h _ hk := ⟨h.committed, h.numbered, h.fed.env hk⟩
  inv h := (Publishing.follows _ _).inv (h.publishing (.refl _))

/-- Every attached subscriber has everything. -/
abbrev Published (c : Core) (k : Clients) : Prop := Publishing c.committed [] c k

theorem Publishing.published (h : Publishing log [] c k) : Published c k := by
  obtain ⟨rfl, hnum, hfed⟩ := h
  exact ⟨rfl, hnum, hfed⟩

theorem Published.follows : Follows anything Streams Published where
  env h _ hk := ⟨h.committed, h.numbered, h.fed.env hk⟩
  inv h := (Publishing.follows _ _).inv h

theorem order_perm (k : Clients) (x : Choice) :
    ((k.answer .subscriberIDs x).order).Perm k.attachedIDs := by
  simp only [Clients.answer]
  split
  · exact isPerm_iff.1 ‹_›
  · exact .refl _

/-- **One publication** gives the event to every attached subscriber, or detaches it. -/
theorem publish_fed (hw : Joined (Unpublished log e) w) :
    Flows (publish e) (fun _ => Joined Published) w := by
  refine world_call (Unpublished.follows log e) hw fun x k hk _ => ?_
  have hperm := order_perm k x
  have hnd : (k.answer .subscriberIDs x).order.Nodup :=
    hperm.nodup_iff.2 (hk.fed.ids.sublist (List.filter_sublist.map _))
  exact (publishTo_fed _ hnd (hk.publishing hperm)).post
    fun _ _ h => h.published

/-! ## Commands -/

structure Calm (c : Core) (k : Clients) : Prop where
  synced : Synced c
  fed : Fed c.committed [] c.Ended k

theorem Calm.published (h : Calm c k) : Published c k :=
  ⟨rfl, h.synced.numbered, h.fed⟩

theorem Calm.follows : Follows anything Streams Calm where
  env h _ hk := ⟨h.synced, h.fed.env hk⟩
  inv h := Published.follows.inv h.published

theorem publish_calm (hsync : Synced w.core) (hw : Joined (Unpublished log e) w) :
    Flows (publish e) (fun _ => Joined Calm) w := by
  have hkept : Safe (manager.rules anything) (fun _ => True) (publish e)
      (fun _ w => Synced w.core) w :=
    .of_project World.projects_any
      (core_publish (fun _ _ => trivial) (fun _ h => ⟨h.1, h.2, h.3⟩) hsync)
  exact ((publish_fed hw).and hkept).mono (fun _ h => h.1) fun _ _ h => ⟨h.2, h.1.fed⟩

theorem advance_calm (hm : m.NotTerminal) (hw : Joined Calm w) :
    Flows (advance m) (fun _ => Joined Calm) w := by
  have hsync := Safe.of_project (World.projects_any (G := anything)) (hw.synced.advance hm)
  have hfed : Flows (advance m) (fun _ => Joined Published) w := by
    refine world_advance Published.follows hw.published (fun k hk => ⟨rfl, hk.numbered, hk.fed⟩)
      (fun now e hmade k hk => ?_) (fun now e _ x k hk _ => ⟨rfl, hk.numbered, hk.fed⟩)
      fun now e hmade k hk =>
        publish_fed ⟨(hw.synced.record hmade).1, (hw.synced.record hmade).2.1, ?_⟩
    · have hold : (w.core.tick.appended m e (w.core.session.record e)).committed =
          w.core.committed := if_neg (move_phase_ne hm hmade)
      refine ⟨rfl, hold ▸ hk.numbered, hold ▸ hk.fed.mono ?_⟩
      exact fun ⟨e, b, hmem, hph⟩ => ⟨e, b, mem_cons_of_mem _ hmem, hph⟩
    · have hold : (w.core.tick.appended m e (w.core.session.record e)).committed =
          w.core.committed := if_neg (move_phase_ne hm hmade)
      exact hold ▸ hk.fed
  exact (hfed.and hsync).mono (fun _ h => h.1) fun _ _ h => ⟨h.2, h.1.fed⟩

/-- The operations that neither write the journal nor reach a subscriber. -/
def Op.silent : Op → Bool
  | .remove _ => true
  | o => !([.journal, .rollback, .publish, .stream] : List Area).contains o.area

theorem Op.silent_of_area (ho : o.area ∉ [.journal, .rollback, .publish, .stream]) :
    o.silent = true := by
  cases o with
  | move | restore | save | remove | send | removeSubscriber | addSubscriber =>
    simp [Op.area] at ho
  | _ => rfl

theorem Op.silent_core (ho : o.silent = true) (x : Choice) (c : Core) :
    (c.exec o x).2.committed = c.committed ∧ (c.exec o x).2.session = c.session := by
  cases o with
  | move | restore | save | send | removeSubscriber | addSubscriber => cases ho
  | allocate | remove =>
    simp only [Core.exec]
    split <;> exact ⟨rfl, rfl⟩
  | _ => exact ⟨rfl, rfl⟩

theorem Op.silent_clients (ho : o.silent = true) (x : Choice) (k : Clients) :
    (k.after o x).subscribers = k.subscribers ∧ (k.after o x).nextSubID = k.nextSubID ∧
      (k.after o x).unsubscribe = k.unsubscribe := by
  cases o with
  | send | removeSubscriber | addSubscriber => cases ho
  | completeCleanup =>
    simp only [Clients.after, Clients.completeCleanup]
    split <;> exact ⟨rfl, rfl, rfl⟩
  | _ => exact ⟨rfl, rfl, rfl⟩

theorem Calm.exec (ho : o.silent = true) (x : Choice) (hw : Joined Calm w) :
    Joined Calm (w.exec o x).2 := by
  obtain ⟨hcom, hses⟩ := Op.silent_core ho (w.clients.answer o x) w.core
  obtain ⟨hsubs, hnext, hunsub⟩ := Op.silent_clients ho (w.clients.answer o x) w.clients
  have hsync : Synced (w.core.exec o (w.clients.answer o x)).2 := by
    refine ⟨?_, ?_, ?_⟩
    · rw [hcom, hses]
      exact hw.synced.committed
    · rw [hcom]
      exact hw.synced.numbered
    · rw [hses]
      exact hw.synced.sequence
  refine ⟨hsync, ?_⟩
  change Fed (w.core.exec o _).2.committed [] _ _
  rw [hcom]
  exact (hw.fed.mono fun h => h.exec o _).congr hsubs hnext hunsub

theorem Calm.rely {w'} (hw : Joined Calm w) (hr : (manager.rules anything).rely w w') :
    Joined Calm w' := Calm.follows.rely hw hr

theorem calm_within {areas : List Area} {p : Code α} (hp : Within areas p)
    (hareas : ∀ area ∈ areas, area ∉ [.journal, .rollback, .publish, .stream]) (hw : Joined Calm w)
    :
    Flows p (fun _ => Joined Calm) w :=
  .of_uses hp (fun _ => Calm.follows.inv) (fun _ _ h => h.rely)
    (fun _ x _ ho _ h => h.exec (Op.silent_of_area (hareas _ ho)) x) hw

theorem calm_call {β : Type} (ho : o.silent = true) (hw : Joined Calm w) {f : Res o → Code β}
    {Q : β → World → Prop} (hf : ∀ r w, Joined Calm w → Flows (f r) Q w) :
    Flows (call o >>= f) Q w :=
  world_call Calm.follows hw fun x _ hk _ => hf _ _ (.exec ho x hk)

theorem calm_pure {a : α} (hw : Joined Calm w) : Flows (pure a : Code α) (fun _ => Joined Calm) w :=
  world_pure Calm.follows hw fun _ h => h

/-- The terminal event is committed when it is written. -/
theorem Calm.ending (hk : Calm w.core k)
    (hmade : w.core.session.move now destroyedMove = .ok (e, w.core.session.record e)) :
    Synced (w.core.appended destroyedMove e (w.core.session.record e)) ∧
      Unpublished w.core.committed e
        (w.core.appended destroyedMove e (w.core.session.record e)) k := by
  obtain ⟨hevs, hnum, hseq⟩ := hk.synced.record hmade
  have hph : (w.core.session.record e).phase = .destroyed := by
    obtain ⟨-, -, -, code, message, -, rfl, -⟩ := Session.transitionLifecycle_eq_ok.1 hmade
    rfl
  have hcom : (w.core.appended destroyedMove e (w.core.session.record e)).committed =
      (w.core.session.record e).events := if_pos hph
  refine ⟨⟨hcom, ?_, hseq⟩, hcom.trans hevs, hnum, hk.fed.mono ?_⟩
  · rwa [hcom, hevs]
  · exact fun ⟨e, b, hmem, hph⟩ => ⟨e, b, mem_cons_of_mem _ hmem, hph⟩

theorem destroy_calm (current : Snapshot) (hw : Joined Calm w) :
    Flows (destroy current) (fun _ => Joined Calm) w := by
  refine calm_call rfl hw fun steps w hw =>
    safe_bind.2 ((calm_within (cleanupSteps_within steps _) (by decide) hw).post
      fun completed w hw => ?_)
  split
  · exact calm_call rfl hw fun _ w hw => calm_pure hw
  refine calm_call rfl hw fun removed w hw => ?_
  match removed with
  | .error _ => exact calm_call rfl hw fun _ w hw => calm_pure hw
  | .ok () =>
    refine calm_call rfl hw fun now w hw =>
      world_move Calm.follows hw (fun err k hk _ => ?_) fun e k hk hmade => ?_
    · exact calm_call rfl hk fun _ w hw => calm_pure hw
    · obtain ⟨hsync, hunp⟩ := hk.ending hmade
      exact safe_bind.2 ((publish_calm hsync hunp).post fun _ w hw =>
        calm_call rfl hw fun _ w => calm_pure)

/-- A new subscriber gets the committed events after its cursor, and is attached. -/
theorem subscribe_calm (after : Nat) (hw : Joined Calm w) :
    Flows (subscribe after) (fun _ => Joined Calm) w := by
  refine world_call Calm.follows hw fun _ k hk _ => ?_
  split
  · exact calm_pure hk
  rename_i haft
  refine world_call Calm.follows hk fun _ k hk _ => ?_
  split
  · exact calm_pure hk
  refine world_call (w := ⟨w.core, k⟩) Calm.follows hk fun _ k hk _ => calm_pure ?_
  have hle : after ≤ w.core.committed.length := by
    rw [hk.synced.committed, ← hk.synced.sequence]
    exact Nat.le_of_not_lt haft
  have hrepl : w.core.session.events.filter (fun e => e.sequence > after) =
      w.core.committed.drop after := by
    rw [← hk.synced.committed]
    exact hk.synced.numbered.filter_eq_drop after
  refine ⟨hk.synced, ?_⟩
  change Fed w.core.committed [] w.core.Ended (k.attach after (w.core.session.events.filter _))
  rw [hrepl]
  exact hk.fed.attach hle

/-- A subscriber is detached for a good reason. -/
theorem Calm.detach (h : Calm c k) (hid : Cancelled id k ∨ c.Ended) : Calm c (k.detach id none) :=
  ⟨h.synced, h.fed.detach (.inr ⟨rfl, hid⟩) (by simp) (by simp)⟩

theorem closeSubscribers_calm (hw : Joined Calm w) (hend : w.core.Ended) :
    Flows (closeSubscribers none) (fun _ => Joined Calm) w := by
  have hloop : ∀ ids k, Calm w.core k → Flows
      (closeSubscribersOf none ids) (fun _ => Joined Calm) ⟨w.core, k⟩ := by
    intro ids
    induction ids with
    | nil => exact fun k hk => calm_pure hk
    | cons id ids ih =>
      exact fun k hk => world_call Calm.follows hk fun y k hk _ =>
        ih (k.detach id none) (hk.detach (.inr hend))
  exact world_call Calm.follows hw fun x k hk _ => hloop _ k hk

theorem cleanupEntry_calm (hw : Joined Calm w) : Flows cleanupEntry
      (fun r w => Joined Calm w ∧ (r.2 = none → w.core.Ended)) w := by
  have hcalm : Preserves (manager.rules anything) Streams (Joined Calm) cleanupEntry := by
    refine cleanupEntry_preserves (fun _ h => Calm.follows.inv h) (fun _ _ h hr => h.rely hr)
      ?_ ?_ (fun m hm w hw => advance_calm hm hw) (fun current w hw => destroy_calm current hw) <;>
      exact fun w hw => calm_within (within_own _) (by decide) hw
  have hend : Safe (manager.rules anything) (fun _ => True) cleanupEntry
      (fun r w => r.2 = none → w.core.Ended) w :=
    (Safe.of_project World.projects_any (cleanupEntry_destroyed w.core)).post
      fun _ _ h hnone => (h hnone).2
  exact ((hcalm w hw).and hend).mono (fun _ h => h.1) fun _ _ h => h

theorem handleCleanup_calm (attempt : Nat) (hw : Joined Calm w) :
    Flows (handle (.cleanup attempt)) (fun _ => Joined Calm) w := by
  refine safe_bind.2 ((cleanupEntry_calm hw).post fun r w hr => ?_)
  obtain ⟨hw, hend⟩ := hr
  obtain ⟨last, _ | e⟩ := r
  · refine world_call Calm.follows hw fun x k hk _ => ?_
    have hfin := Calm.exec (w := ⟨w.core, k⟩) (o := .finish last) rfl x hk
    refine world_call Calm.follows hfin fun y k hk _ => ?_
    have hans := Calm.exec (w := ⟨_, k⟩) (o := .completeCleanup attempt ⟨last, none, none⟩)
      rfl y hk
    have htail := closeSubscribers_calm hans (((hend rfl).exec (.finish last) x).exec _ y)
    refine safe_bind.2 (htail.post fun _ w hw => ?_)
    exact calm_call rfl hw fun _ w hw => calm_pure hw
  · exact calm_call rfl hw fun _ w hw => calm_pure hw

theorem Calm.handles : Handles (manager.rules anything) Streams (Joined Calm) where
  idle _ h := Calm.follows.inv h
  rely _ _ h hr := h.rely hr
  quiet o x w ho _ h := h.exec (Op.silent_of_area (by obtain h | h := ho <;> simp [h])) x
  advance _ _ hm h := advance_calm (Move.notTerminal_of_not_cleanupOwned hm) h
  acquire resource _ h := calm_within (acquire_within resource) (by decide) h
  subscribe after _ h := subscribe_calm after h

theorem unsubscribe_calm {rest} (hw : Joined Calm w) (hid : w.clients.unsubscribe = id :: rest) :
    Flows (do call (.removeSubscriber id none); return false) (fun _ => Joined Calm)
      { w with clients := { w.clients with unsubscribe := rest } } := by
  have htaken : Calm w.core { w.clients with unsubscribe := rest } ∧
      Cancelled id { w.clients with unsubscribe := rest } := by
    refine ⟨⟨hw.synced, hw.fed.ids, hw.fed.fresh, fun id' hid' => ?_, fun s hs => ?_⟩, ?_⟩
    · exact hw.fed.known id' (hid ▸ mem_cons_of_mem _ hid')
    · have hfed := hw.fed.all s hs
      exact { hfed with asked := fun hin => hfed.asked (hid ▸ mem_cons_of_mem _ hin) }
    · exact fun s hs heq => (hw.fed.all s hs).asked (by rw [hid, heq]; exact mem_cons_self)
  have hfoll : Follows anything Streams (fun c k => Calm c k ∧ Cancelled id k) :=
    ⟨fun h hi hk => ⟨Calm.follows.env h.1 hi hk, h.2.env hk⟩, fun h => Calm.follows.inv h.1⟩
  exact world_call hfoll htaken fun _ k hk _ => calm_pure (hk.1.detach (.inl hk.2))

theorem Calm.keeps : manager.Keeps anything Created Streams (Joined Calm) (Joined Calm) where
  init := by
    rintro _ ⟨id, ownerUID, role, now, s, hs, -, rfl⟩
    obtain ⟨-, -, -, rfl⟩ := newOwned_eq_ok.1 hs
    refine ⟨⟨rfl, ?_, rfl⟩, by simp [World.create], by simp [World.create], by simp [World.create],
      by simp [World.create]⟩
    exact .append (l := []) (fun i e h => by simp at h) rfl
  idle _ h := Calm.follows.inv h
  env _ _ h hstep := Calm.follows.envStep h hstep
  take w w' i p h htake := by
    obtain ⟨cmd, rest, hcmds, rfl, rfl⟩ | ⟨id, rest, hid, rfl, rfl⟩ := World.take_cases htake
    · have htaken : Joined Calm { w with clients := { w.clients with commands := rest } } :=
        ⟨h.synced, h.fed.congr rfl rfl rfl⟩
      cases cmd with
      | cleanup a => exact safe_ite_self.2 (handleCleanup_calm a htaken)
      | _ => exact Calm.handles.handle _ (by simp) htaken
    · exact safe_ite_self.2 (unsubscribe_calm h hid)
  ended _ h := Calm.follows.inv h
  endedEnv _ _ h hstep := Calm.follows.envStep h hstep

/-! ## What a subscriber sees -/

/-- **The stream of every subscriber is a run of the committed events after its cursor**, in
every interleaving: without gap and without repetition, the event at position `i` has the
number `after + 1 + i`. A stream is ended because its holder closed it, because the session
was destroyed, or because the subscriber was too slow. -/
theorem stream_integrity {w : World} {t : Thread Op Res} (h : Reach manager anything Created (w, t))
    {s : Subscriber} (hs : s ∈ w.clients.subscribers) :
    s.content <+: w.core.committed.drop s.after ∧
      (∀ i e, s.content[i]? = some e → e.sequence = s.after + 1 + i) ∧
      ∀ r, s.reason = some r →
        r = some .subscriberSlow ∨ r = none ∧ (s.cancelled = true ∨ w.core.Ended) := by
  have hstr : Streams w := h.inv Calm.keeps
  refine ⟨hstr.run s hs, fun i e hi => ?_, hstr.ended s hs⟩
  obtain ⟨rest, hrest⟩ := hstr.run s hs
  have hlog : (w.core.committed.drop s.after)[i]? = some e := by
    rwa [← hrest, List.getElem?_append_left (List.getElem?_eq_some_iff.1 hi).1]
  rw [List.getElem?_drop] at hlog
  rw [hstr.numbered _ _ hlog]
  omega

/-- A subscriber from the first event on, a cleanup, and one receive. -/
def subscribedRun : List (Act Choice Input) :=
  [.env .lookup, .env (.request (.subscribe 1)), .take .command] ++ operations 5 ++
    [.rest, .env .beginCleanup, .env (.enqueue 0), .take .command] ++ operations 31 ++
    [.rest, .env (.receive 1)]

theorem stream_integrity_cleanup : ∃ w t s, Reach manager anything Created (w, t) ∧
    s ∈ w.clients.subscribers ∧ s.content.length = 3 ∧ s.received.length = 1 ∧
    s.content <+: w.core.committed.drop s.after := by
  obtain ⟨w, t, h, hfound⟩ := reach_startWorld
    (P := fun w _ => ∃ s ∈ w.clients.subscribers, s.content.length = 3 ∧ s.received.length = 1)
    (fun _ _ => true) (fun act c _ => Guard.permits_free act c) subscribedRun (by decide +kernel)
  obtain ⟨s, hs, hlen, hrec⟩ := hfound
  exact ⟨w, t, s, h, hs, hlen, hrec, (stream_integrity h hs).1⟩

end PrivateVm.Session
