import PrivateVm.Session.Interleaving

set_option autoImplicit false
set_option linter.dupNamespace false

/-! # What readers see

`Get` and `List` take a snapshot of a live session at any moment, also between a transition in
memory and its save. When the save fails the transition is taken back, and a reader that saw its
event sees a shorter journal afterwards (`observed_rolled_back`).
-/

namespace PrivateVm.Session

open Timestamp Checked Program List

/-! ## The journal of a session -/

/-- The number of a session is the length of its journal. -/
def Session.Counted (s : Session) : Prop := s.sequence = s.events.length

variable {s : Session} {e : Event} {o : Op} {k' : Clients}

theorem Session.Counted.move {s' now m} (hs : s.Counted) (h : s.move now m = .ok (e, s')) :
    s'.Counted ∧ s.events <+: s'.events := by
  have hseq : e.sequence = s.sequence + 1 := by
    cases m with
    | lifecycle => exact (Session.appends_of_lifecycle h).sequence
    | workflow => exact (Session.appends_of_workflow h).sequence
  rw [Session.move_record h]
  rw [Session.Counted, Session.record, hseq, show s.sequence = _ from hs]
  simp

variable {c : Core} {k : Clients} {w : World}

/-- Only a rollback shortens the journal. -/
theorem exec_extends (ho : o.area ≠ .rollback) (x : Choice) (hc : c.session.Counted) :
    (c.exec o x).2.session.Counted ∧ c.session.events <+: (c.exec o x).2.session.events := by
  have hsame : ∀ s, s = c.session → s.Counted ∧ c.session.events <+: s.events := by
    rintro s rfl
    exact ⟨hc, prefix_rfl⟩
  cases o with
  | restore => exact absurd rfl ho
  | move =>
    simp only [Core.exec]
    split
    · exact hsame _ rfl
    · exact hc.move ‹_›
  | save snapshot =>
    obtain ⟨err, h⟩ | h := exec_save snapshot x c <;> exact hsame _ (by rw [h])
  | remove id | allocate =>
    simp only [Core.exec]
    split <;> exact hsame _ rfl
  | _ => exact hsame _ rfl

/-! ## Snapshots seen -/

/-- A later snapshot extends an earlier one. -/
def Snapshot.Extends (later earlier : Snapshot) : Prop :=
  earlier.events <+: later.events ∧ earlier.sequence ≤ later.sequence

def Monotone (w : World) : Prop := w.clients.observed.Pairwise Snapshot.Extends

/-- Everything that was seen is an initial part of the journal. -/
structure Seen (c : Core) (k : Clients) : Prop where
  counted : c.session.Counted
  lengths : ∀ sn ∈ k.observed, sn.sequence = sn.events.length
  initial : ∀ sn ∈ k.observed, sn.events <+: c.session.events
  monotone : k.observed.Pairwise Snapshot.Extends

theorem Seen.extend {c'} (h : Seen c k) (hcnt : c'.session.Counted)
    (hevs : c.session.events <+: c'.session.events) : Seen c' k :=
  ⟨hcnt, h.lengths, fun sn hsn => (h.initial sn hsn).trans hevs, h.monotone⟩

theorem Seen.congr (h : Seen c k) (hk : k'.observed = k.observed) : Seen c k' :=
  ⟨h.counted, by rw [hk]; exact h.lengths, by rw [hk]; exact h.initial,
    by rw [hk]; exact h.monotone⟩

theorem Seen.observe (h : Seen c k) :
    Seen c { k with observed := c.session.snapshot :: k.observed } := by
  refine ⟨h.counted, ?_, ?_, pairwise_cons.2 ⟨fun sn hsn => ⟨h.initial sn hsn, ?_⟩, h.monotone⟩⟩
  · exact forall_mem_cons.2 ⟨h.counted, h.lengths⟩
  · exact forall_mem_cons.2 ⟨prefix_rfl, h.initial⟩
  · rw [h.lengths sn hsn, show c.session.snapshot.sequence = _ from h.counted]
    exact (h.initial sn hsn).length_le

theorem Seen.env {i} (h : Seen c k) (hk : k.env i c = some k') : Seen c k' := by
  cases Clients.env_step hk with
  | observe => exact h.observe
  | beginCleanup =>
    unfold Clients.beginCleanup
    split
    · exact h
    · exact h.congr rfl
  | admitDone =>
    unfold Clients.completeCleanup
    split <;> exact h.congr rfl
  | _ => exact h.congr rfl

theorem Clients.after_observed (o : Op) (x : Choice) (k : Clients) :
    (k.after o x).observed = k.observed := by
  cases o with
  | send =>
    simp only [Clients.after]
    split <;> rfl
  | completeCleanup =>
    simp only [Clients.after, Clients.completeCleanup]
    split <;> rfl
  | _ => rfl

/-! ## The actor -/

/-- A transition is taken back only if no reader saw its event. -/
def unseenRollback : Guard Op Choice World Input where
  op o _ w := ∀ before, o = .restore before →
    ∀ sn ∈ w.clients.observed, sn.events.length ≤ before.events.length
  env _ _ := True

theorem Seen.follows : Follows unseenRollback Monotone Seen where
  env h _ hk := h.env hk
  inv h := h.monotone

theorem Seen.rely {w'} (h : Joined Seen w) (hr : (manager.rules unseenRollback).rely w w') :
    Joined Seen w' := Seen.follows.rely h hr

theorem Seen.exec (ho : o.area ≠ .rollback) (x : Choice) (hw : Joined Seen w) :
    Joined Seen (w.exec o x).2 := by
  obtain ⟨hcnt, hevs⟩ := exec_extends ho (w.clients.answer o x) hw.counted
  exact (hw.extend hcnt hevs).congr (Clients.after_observed o _ w.clients)

/-- A program that takes nothing back. -/
theorem seen_within {α : Type} {areas : List Area} {p : Code α} (hp : Within areas p)
    (hareas : .rollback ∉ areas) (hw : Joined Seen w) :
    Safe (manager.rules unseenRollback) Monotone p (fun _ => Joined Seen) w :=
  .of_uses hp (fun _ h => h.monotone) (fun _ _ h => h.rely)
    (fun _ x _ ho _ h => h.exec (fun harea => hareas (harea ▸ ho)) x) hw

/-- Taking a transition back that nobody saw. -/
theorem Seen.restored (hs : s.Counted) (h : Seen c k) (hc : c.session = s.record e)
    (huns : ∀ sn ∈ k.observed, sn.events.length ≤ s.events.length) : Seen (c.restored s) k := by
  refine ⟨hs, h.lengths, fun sn hsn => ?_, h.monotone⟩
  have hinit : sn.events <+: s.events ++ [e] := by
    have := h.initial sn hsn
    rwa [hc] at this
  exact prefix_of_prefix_length_le hinit (prefix_append _ _) (huns sn hsn)

theorem advance_seen (m : Move) (hw : Joined Seen w) :
    Safe (manager.rules unseenRollback) Monotone (advance m) (fun _ => Joined Seen) w := by
  refine world_advance Seen.follows hw (fun k hk => hk.extend hk.counted prefix_rfl)
    (fun now e hmade k hk => ?_) (fun now e hmade x k hk hG => ?_) fun now e hmade k hk => ?_
  · obtain ⟨hcnt, hevs⟩ := hw.counted.move hmade
    exact hk.extend hcnt hevs
  · exact hk.restored hw.counted rfl fun sn hsn => hG _ rfl sn hsn
  · exact seen_within (publish_within e) (by decide) (hk.extend hk.counted prefix_rfl)

theorem cleanupEntry_seen (hw : Joined Seen w) :
    Safe (manager.rules unseenRollback) Monotone cleanupEntry (fun _ => Joined Seen) w := by
  refine cleanupEntry_preserves (fun _ h => h.monotone) (fun _ _ h hr => h.rely hr) ?_ ?_
    (fun m _ w hw => advance_seen m hw)
    (fun current w hw => seen_within (destroy_within current) (by decide) hw) w hw <;>
    exact fun w hw => seen_within (within_own _) (by decide) hw

theorem Seen.handles : Handles (manager.rules unseenRollback) Monotone (Joined Seen) where
  idle _ h := h.monotone
  rely _ _ h hr := h.rely hr
  quiet o x w ho _ h := h.exec (by obtain h | h := ho <;> simp [h]) x
  advance m _ _ h := advance_seen m h
  acquire resource _ h := seen_within (acquire_within resource) (by decide) h
  subscribe after _ h := seen_within (subscribe_within after) (by decide) h

/-- What follows a cleanup takes nothing back. -/
theorem handle_seen (cmd : Command) (hw : Joined Seen w) :
    Safe (manager.rules unseenRollback) Monotone (handle cmd) (fun _ => Joined Seen) w := by
  cases cmd with
  | transition | workflow | acquire | subscribe =>
    exact safe_ite_self.1 (Seen.handles.handle _ (by simp) hw)
  | cleanup =>
    refine safe_bind.2 ((cleanupEntry_seen hw).post fun r w hw => ?_)
    refine @seen_within _ _ [.read, .stream, .ending] _ ?_ (by decide) hw
    obtain ⟨last, _ | e⟩ := r
    · exact within_call rfl fun _ => within_call rfl fun _ =>
        ((closeSubscribers_within none).mono (by decide)).bind fun _ =>
          within_call rfl fun _ => within_pure _
    · exact within_call rfl fun _ => within_pure _

theorem Seen.keeps : manager.Keeps unseenRollback Created Monotone (Joined Seen) (Joined Seen) where
  init := by
    rintro _ ⟨id, ownerUID, role, now, s, hs, -, rfl⟩
    obtain ⟨-, -, -, rfl⟩ := newOwned_eq_ok.1 hs
    exact ⟨rfl, by simp [World.create], by simp [World.create], .nil⟩
  idle _ h := h.monotone
  env _ _ h hstep := Seen.follows.envStep h hstep
  take w w' i p h htake := by
    obtain ⟨cmd, rest, -, rfl, rfl⟩ | ⟨id, rest, -, rfl, rfl⟩ := World.take_cases htake
    · exact safe_ite_self.2 (handle_seen cmd (h.congr rfl))
    have hp : Within [.stream]
        (do call (.removeSubscriber id none); return false) :=
      within_call rfl fun _ => within_pure _
    have htaken : Joined Seen { w with clients := { w.clients with unsubscribe := rest } } :=
      h.congr rfl
    exact safe_ite_self.2 (seen_within hp (by decide) htaken)
  ended _ h := h.monotone
  endedEnv _ _ h hstep := Seen.follows.envStep h hstep

/-! ## Every snapshot extends the earlier ones -/

/-- **Readers see a growing journal** in a run in which no transition is taken back whose event
was seen. -/
theorem observed_extends {w : World} {t : Thread Op Res}
    (h : Reach manager unseenRollback Created (w, t)) :
    w.clients.observed.Pairwise fun later earlier =>
      earlier.events <+: later.events ∧ earlier.sequence ≤ later.sequence :=
  h.inv Seen.keeps

/-- The steps that `unseenRollback` permits. -/
def unseen (act : Act Choice Input) (c : World × Thread Op Res) : Bool :=
  match act, c with
  | .op _, (w, .running (.op (.restore before) _)) =>
    w.clients.observed.all fun sn => sn.events.length ≤ before.events.length
  | _, _ => true

theorem permits_of_unseen {act c} (h : unseen act c = true) : unseenRollback.permits act c := by
  obtain ⟨w, t⟩ := c
  cases act with
  | op =>
    cases t with
    | idle | returned => trivial
    | running p =>
      cases p with
      | pure => trivial
      | op =>
        rintro before rfl sn hsn
        exact of_decide_eq_true (List.all_eq_true.1 h sn hsn)
  | env i | rest | take => cases t <;> trivial

/-- A transition whose save fails, with a reader before and after it. -/
def failedRun : List (Act Choice Input) :=
  [.env .lookup, .env .observe, .env (.request (.transition .preflighted)), .take .command] ++
    operations 4 ++ [.op { ok := false }] ++ operations 2 ++ [.rest, .env .observe]

theorem observed_extends_failed : ∃ w t, Reach manager unseenRollback Created (w, t) ∧
    w.clients.observed.length = 2 ∧ w.clients.observed.Pairwise fun later earlier =>
      earlier.events <+: later.events ∧ earlier.sequence ≤ later.sequence := by
  obtain ⟨w, t, h, hlen⟩ := reach_startWorld
    (P := fun w _ => w.clients.observed.length = 2) unseen (fun _ _ => permits_of_unseen) failedRun
    (by decide +kernel)
  exact ⟨w, t, h, hlen, observed_extends h⟩

/-! ## A transition that was seen is taken back -/

/-- A reader looks between the transition in memory and its save, which fails, and looks
again. -/
def rolledBackRun : List (Act Choice Input) :=
  [.env .lookup, .env (.request (.transition .preflighted)), .take .command] ++
    operations 3 ++ [.env .observe] ++ operations 1 ++ [.op { ok := false }] ++ operations 1 ++
    [.env .observe]

/-- The second snapshot is shorter than the first. -/
theorem observed_rolled_back : ∃ w t later earlier, Reach manager anything Created (w, t) ∧
    w.clients.observed = [later, earlier] ∧
    later.sequence < earlier.sequence ∧ ¬ earlier.events <+: later.events := by
  obtain ⟨w, t, h, hfound⟩ := reach_startWorld
    (P := fun w _ => w.clients.observed.map (fun s => (s.sequence, s.events.length)) =
      [(1, 1), (2, 2)])
    (fun _ _ => true) (fun act c _ => Guard.permits_free act c) rolledBackRun (by decide +kernel)
  obtain ⟨later, rest, hobs, hlater, hrest⟩ := map_eq_cons_iff.1 hfound
  obtain ⟨earlier, rest', rfl, hearl, hnil⟩ := map_eq_cons_iff.1 hrest
  obtain rfl := map_eq_nil_iff.1 hnil
  obtain ⟨hlater, hshort⟩ := Prod.mk.inj hlater
  obtain ⟨hearl, hlong⟩ := Prod.mk.inj hearl
  refine ⟨w, t, later, earlier, h, hobs, by omega, fun hinit => ?_⟩
  have hle := hinit.length_le
  omega

end PrivateVm.Session
