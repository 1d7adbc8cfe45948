import PrivateVm.Session.Manager

set_option autoImplicit false

/-! # The actor among its clients

Rules for the programs of the actor in every interleaving. Between two operations the core stands
still, and clients do what the guard permits; `Follows` says that a relation between core and
clients survives that.
-/

namespace PrivateVm.Session

open Timestamp Checked Program

/-- What is known of the clients while the core stands still. -/
structure Follows (G : Guard Op Choice World Input) (I : World → Prop)
    (F : Core → Clients → Prop) : Prop where
  env : ∀ {i c k k'}, F c k → G.env i ⟨c, k⟩ → k.env i c = some k' → F c k'
  inv : ∀ {c k}, F c k → I ⟨c, k⟩

/-- The relation as a predicate of the system. -/
abbrev Joined (F : Core → Clients → Prop) (w : World) : Prop := F w.core w.clients

section

variable {α β : Type} {G : Guard Op Choice World Input} {I : World → Prop}
  {F : Core → Clients → Prop} {w : World} {w' : World} {id : Nat} {e : Event} {m : Move}

section

variable (hF : Follows G I F)

include hF

theorem Follows.envStep (hw : Joined F w) (h : manager.envStep G w w') : Joined F w' := by
  obtain ⟨i, hi, henv⟩ := h
  obtain ⟨k, hk, rfl⟩ := Option.map_eq_some_iff.1 henv
  exact hF.env hw hi hk

theorem Follows.rely (hw : Joined F w) (h : (manager.rules G).rely w w') : Joined F w' := by
  induction h with
  | refl => exact hw
  | tail _ hstep ih => exact hF.envStep ih hstep

theorem world_pure (hw : Joined F w) {a : α} {Q : α → World → Prop}
    (hQ : ∀ k, F w.core k → Q a ⟨w.core, k⟩) : Safe (manager.rules G) I (pure a : Code α) Q w := by
  refine safe_pure.2 fun w' hr => ?_
  have hw' := hF.rely hw hr
  have hcore := rely_core hr
  obtain ⟨c, k⟩ := w'
  obtain rfl : c = w.core := hcore
  exact ⟨hF.inv hw', hQ k hw'⟩

variable {Q : β → World → Prop} {f : Bool → Code β}

/-- One operation and what follows, with the clients as they are by then. -/
theorem world_call (hw : Joined F w) {o : Op} {f : Res o → Code β}
    (hf : ∀ x k, F w.core k → G.op o x ⟨w.core, k⟩ →
      Safe (manager.rules G) I (f (World.exec o x ⟨w.core, k⟩).1) Q
        (World.exec o x ⟨w.core, k⟩).2) : Safe (manager.rules G) I (call o >>= f) Q w := by
  refine safe_call_bind.2 fun w' hr => ?_
  have hw' := hF.rely hw hr
  have hcore := rely_core hr
  obtain ⟨c, k⟩ := w'
  obtain rfl : c = w.core := hcore
  exact ⟨hF.inv hw', fun x => hf x k hw'⟩

/-- A subscriber is asked whether its holder closed it. -/
theorem world_cancelled (hw : Joined F w)
    (hf : ∀ b k, F w.core k → (k.subscriber? id).any Subscriber.cancelled = b →
      Safe (manager.rules G) I (f b) Q ⟨w.core, k⟩) :
    Safe (manager.rules G) I (call (.cancelled id) >>= f) Q w :=
  world_call hF hw fun _ k hk _ => hf _ k hk rfl

/-- An event is put into the channel of a subscriber, if there is room. -/
theorem world_send (hw : Joined F w) (hf : ∀ b k, F w.core k → Safe (manager.rules G) I (f b) Q
      ⟨w.core.traced (.published e), if b then k.push id e else k⟩) :
    Safe (manager.rules G) I (call (.send id e) >>= f) Q w :=
  world_call hF hw fun _ k hk _ => hf _ k hk

theorem world_move (hw : Joined F w) {now} {f : Except Err Event → Code β}
    (href : ∀ err k, F w.core k → w.core.session.move now m = .error err →
      Safe (manager.rules G) I (f (.error err)) Q ⟨w.core, k⟩)
    (hmade : ∀ e k, F w.core k → w.core.session.move now m = .ok (e, w.core.session.record e) →
      Safe (manager.rules G) I (f (.ok e)) Q
        ⟨w.core.appended m e (w.core.session.record e), k⟩) :
    Safe (manager.rules G) I (call (.move m now) >>= f) Q w := by
  refine world_call hF hw fun x k hk _ => ?_
  simp only [World.exec, Core.exec]
  cases hr : w.core.session.move now m with
  | error err => exact href err k hk hr
  | ok r =>
    obtain ⟨e, s⟩ := r
    obtain rfl := Session.move_record hr
    exact hmade e k hk hr

theorem world_commit (hw : Joined F w) {s} (hs : w.core.session = s.record e)
    (hfail : ∀ x k, F w.core k → G.op (.restore s.snapshot) x ⟨w.core, k⟩ →
      F (w.core.restored s) k) (hsaved : ∀ k, F w.core k →
      Safe (manager.rules G) I (publish e) (fun _ => Joined F) ⟨w.core.saved, k⟩) :
    Safe (manager.rules G) I (commit s.snapshot e) (fun _ => Joined F) w := by
  have hrest : ∀ k (err : Err), F w.core k → Safe (manager.rules G) I
      (do call (.restore s.snapshot); return (s.snapshot, some err)) (fun _ => Joined F)
      ⟨w.core, k⟩ := by
    intro k err hk
    refine world_call hF hk fun x k hk hx => ?_
    have hback : World.exec (.restore s.snapshot) x ⟨w.core, k⟩ = ((), ⟨w.core.restored s, k⟩) := by
      simp only [World.exec, Core.exec, hs]
      rfl
    rw [hback]
    exact world_pure hF (hfail x k hk hx) fun _ h => h
  refine world_call hF hw fun _ k hk _ => world_call hF hk fun x k hk _ => ?_
  obtain ⟨err, hexec⟩ | hexec := exec_save w.core.session.snapshot x w.core
  · have hworld : World.exec (.save w.core.session.snapshot) x ⟨w.core, k⟩ =
        (.error err, ⟨w.core, k⟩) := by simp only [World.exec, Clients.answer, hexec, Clients.after]
    exact hworld ▸ hrest k err hk
  have hworld : World.exec (.save w.core.session.snapshot) x ⟨w.core, k⟩ =
      (.ok (), ⟨w.core.saved, k⟩) := by
    simp only [World.exec, Clients.answer, hexec]
    rfl
  exact hworld ▸ safe_bind.2 ((hsaved k hk).post fun _ w' h => world_pure hF h fun _ h => h)

/-- **One transition command among clients.** -/
theorem world_advance (hw : Joined F w)
    (htick : ∀ k, F w.core k → F w.core.tick k)
    (hmade : ∀ now e, w.core.session.move now m = .ok (e, w.core.session.record e) →
      ∀ k, F w.core.tick k → F (w.core.tick.appended m e (w.core.session.record e)) k)
    (hfail : ∀ now e, w.core.session.move now m = .ok (e, w.core.session.record e) →
      ∀ x k, F (w.core.tick.appended m e (w.core.session.record e)) k →
        G.op (.restore w.core.session.snapshot) x
          ⟨w.core.tick.appended m e (w.core.session.record e), k⟩ →
        F ((w.core.tick.appended m e (w.core.session.record e)).restored w.core.session) k)
    (hsaved : ∀ now e, w.core.session.move now m = .ok (e, w.core.session.record e) →
      ∀ k, F (w.core.tick.appended m e (w.core.session.record e)) k →
        Safe (manager.rules G) I (publish e) (fun _ => Joined F)
          ⟨(w.core.tick.appended m e (w.core.session.record e)).saved, k⟩) :
    Safe (manager.rules G) I (advance m) (fun _ => Joined F) w := by
  refine world_call hF hw fun _ k hk _ => world_call hF hk fun x k hk _ => ?_
  refine world_move hF (htick k hk) (fun err k hk _ => ?_)
    fun e k hk hr => ?_
  · exact world_pure hF hk fun _ h => h
  · exact world_commit hF (hmade _ e hr k hk) rfl (hfail _ e hr) (hsaved _ e hr)

end

end

/-! ## Cleanup -/

variable {X S : Type} {R : Rules Op Res X S} {I J : S → Prop}

/-- What transitions and the end of a session keep, cleanup keeps. -/
theorem cleanupEntry_preserves (hI : ∀ s, J s → I s) (hrely : ∀ s s', J s → R.rely s s' → J s')
    (hstop : Preserves R I J (call .stopAccepting)) (hsnap : Preserves R I J (call .snapshot))
    (hadv : ∀ m, m.NotTerminal → Preserves R I J (advance m))
    (hdest : ∀ current, Preserves R I J (destroy current)) : Preserves R I J cleanupEntry := by
  have henter : ∀ passed current target, target ≠ .destroyed →
      Preserves R I J (enter passed target current) := by
    intro passed current target htgt
    cases passed with
    | true => exact preserves_pure hI hrely _
    | false => exact hadv (.lifecycle target true) fun _ => htgt
  have hthen : ∀ p f, Preserves R I J p → (∀ current, Preserves R I J (f current)) →
      Preserves R I J (unlessErr p f) := by
    intro p f hp hf
    refine hp.bind fun r => ?_
    obtain ⟨last, _ | e⟩ := r
    · exact hf last
    · exact preserves_pure hI hrely _
  exact hstop.bind fun _ => hsnap.bind fun _ => hthen _ _ (henter _ _ _ (by decide)) fun _ =>
    hthen _ _ (henter _ _ _ (by decide)) hdest

end PrivateVm.Session
