import PrivateVm.Scanner.VirtualMachine

set_option autoImplicit false

/-! # What a scanner VM holds is recorded

`Resource.records` says what a `Stop` of the resource will give back. The invariant `Owns` is
that everything held is recorded. `Stop` keeps it when it fails, and gives everything back when
it succeeds; `Audit` passes only when nothing is held.
-/

namespace PrivateVm.Scanner

open Checked Program Program.Method

/-! ## What is recorded -/

/-- What a runtime holds is recorded. -/
structure RuntimeHolds (n : NetworkedRuntime) (h : Held) : Prop where
  process : h .process = true → n.process = true ∧ n.processStopped = false
  guest : h .guest = true → n.guest = true ∧ n.guestClosed = false
  network : h .network = true → n.networkCleaned = false

/-- What a runtime holds it will give back: an error is kept only as long as something is left
to do. -/
structure RuntimeOwns (n : NetworkedRuntime) (h : Held) : Prop extends RuntimeHolds n h where
  cleanupErr : n.cleanupErr = true →
    ¬ (n.processStopped && n.guestClosed && n.capDestroyed && n.networkCleaned) = true

/-- Everything a runtime can hold is given back. -/
structure RuntimeCleared (h : Held) : Prop where
  process : h .process = false
  guest : h .guest = false
  network : h .network = false

/-- What every resource gives back by itself. -/
def keptThings : List Thing := [.images, .cid, .directories]

/-- **Everything held is recorded**, so that `Stop` will give it back. -/
structure Owns (r : Resource) (h : Held) : Prop where
  own : ∀ t ∈ keptThings, h t = true → r.has t = true ∧ r.gone t = false
  offline : r.networked = false →
    (h .process = true → r.process = .process ∧ r.gone .process = false) ∧ h .guest = false ∧
    ∀ t ∈ [Thing.connection, .network], h t = true → r.has t = true ∧ r.gone t = false
  online : r.networked = true → h .connection = false ∧
    (r.gone .process = false → RuntimeOwns r.runtime h) ∧
    (r.gone .process = true → RuntimeCleared h)
  pointer : r.process ≠ .nilPointer

variable {h h' : Held} {t : Thing} {t' : Thing} {r : Resource} {ts : List Thing}

theorem Held.le_of_set (ht : h.set t false t' = true) : h t' = true := by
  by_cases hne : t' = t
  · rw [hne, Held.set_self] at ht
    cases ht
  · rwa [Held.set_of_ne h _ hne] at ht

theorem eq_false_of_le (hle : ∀ t, h' t = true → h t = true) (ht : h t = false) : h' t = false :=
  Bool.eq_false_iff.2 fun ht' => by
    rw [hle t ht'] at ht
    cases ht

theorem Held.set_of_false (ht : h t' = false) : h.set t false t' = false :=
  eq_false_of_le (fun _ => Held.le_of_set) ht

/-- What holds less is owned as well. -/
theorem Owns.mono (ho : Owns r h) (hle : ∀ t, h' t = true → h t = true) : Owns r h' := by
  refine ⟨fun t ht hh => ho.own t ht (hle t hh), fun hn => ?_, fun hn => ?_, ho.pointer⟩
  · obtain ⟨hproc, hguest, hown⟩ := ho.offline hn
    exact ⟨fun hp => hproc (hle _ hp), eq_false_of_le hle hguest,
      fun t ht hh => hown t ht (hle t hh)⟩
  obtain ⟨hconn, hrun, hclr⟩ := ho.online hn
  refine ⟨eq_false_of_le hle hconn, fun hg => ?_, fun hg => ?_⟩
  · have hr := hrun hg
    exact ⟨⟨fun hp => hr.process (hle _ hp), fun hg => hr.guest (hle _ hg),
      fun hn => hr.network (hle _ hn)⟩, hr.cleanupErr⟩
  · have hc := hclr hg
    exact ⟨eq_false_of_le hle hc.process, eq_false_of_le hle hc.guest,
      eq_false_of_le hle hc.network⟩

/-- Only the given things may have changed. -/
def Frame (ts : List Thing) (h h' : Held) : Prop := ∀ t, t ∉ ts → h' t = h t

theorem Frame.refl (ts : List Thing) (h : Held) : Frame ts h h := fun _ _ => rfl

theorem Frame.trans {h''} (hf : Frame ts h h') (hf' : Frame ts h' h'') : Frame ts h h'' :=
  fun t ht => (hf' t ht).trans (hf t ht)

theorem Frame.set (h : Held) (b : Bool) (ht : t ∈ ts) : Frame ts h (h.set t b) := by
  intro t' ht'
  refine h.set_of_ne b ?_
  rintro rfl
  exact ht' ht

/-! ## Single calls -/

section

variable {r : Resource} {h : Held} {problem : Fault → Problem}
  {Q : Except Failure Unit → Resource → Held → Prop}

theorem does_perform {c} (hok : Q (.ok ()) r h) (herr : ∀ es, Q (.error (.errors es)) r h) :
    Does exec (perform c problem) Q r h := by
  refine does_invoke_bind fun x => ?_
  have hx : exec (.check c) x h = (x (.check c), h) := rfl
  rw [hx]
  cases x (.check c) with
  | none => exact does_pure hok
  | some => exact does_throw (herr _)

/-- A call that gives something back succeeds, or the thing is held before and after it. -/
theorem exec_giveBack (t : Thing) (x : Answer) (h : Held) :
    exec (.giveBack t) x h = (none, h.set t false) ∨
      ∃ f, h t = true ∧ exec (.giveBack t) x h = (some f, h) := by
  simp only [exec, Op.settled]
  split_ifs with ht
  · cases x (.giveBack t) with
    | none => exact .inl rfl
    | some f => exact .inr ⟨f, ht, rfl⟩
  · exact .inl rfl

/-- If what is held is pending, it is given back or still held. -/
theorem does_relinquish {pending : Resource → Bool} {t} {mark : Resource → Resource}
    {Q : Except Failure Errors → Resource → Held → Prop} (hpend : h t = true → pending r = true)
    (hok : Q (.ok []) (mark r) (h.set t false)) (herr : ∀ f, h t = true → Q (.ok [problem f]) r h) :
    Does exec (relinquish pending t problem mark) Q r h := by
  refine does_get_bind ?_
  cases hp : pending r with
  | false =>
    have ht : h t = false := by
      simpa [hp] using hpend
    rw [← ht, Held.set_eq] at hok
    exact does_modify_bind (does_pure hok)
  | true =>
    refine does_invoke_bind fun x => ?_
    rcases exec_giveBack t x h with he | ⟨f, ht, he⟩
    · rw [he]
      exact does_modify_bind (does_pure hok)
    · rw [he]
      exact does_pure (herr f ht)

end

/-! ## The networked runtime -/

section

variable {r : Resource} {h : Held}

/-- What `stopAndCleanup` and the start of a runtime may change. -/
def runtimeThings : List Thing := [.process, .guest, .network]

theorem does_shutdownGuest_bind {β : Type} {f : Option Fault → Vm β}
    {Q : Except Failure β → Resource → Held → Prop} (hf : ∀ x, Does exec (f x) Q r h) :
    Does exec (shutdownGuest >>= f) Q r h := by
  refine does_bind (does_get_bind ?_)
  cases r.runtime.guest with
  | false => exact does_pure (hf none)
  | true => exact does_invoke fun x => hf (x (.check .shutdown))

variable {Q : Except Failure Unit → Resource → Held → Prop}

theorem does_stopRuntimeProcess (hown : RuntimeHolds r.runtime h)
    (hok : Q (.ok ()) (r.mapRuntime ({ · with processStopped := true })) (h.set .process false))
    (herr : ∀ es, h .process = true →
      Q (.error (.errors es)) (r.mapRuntime ({ · with cleanupErr := true })) h) :
    Does exec stopRuntimeProcess Q r h := by
  refine does_shutdownGuest_bind fun _ => does_bind (does_relinquish ?_ ?_ fun f hp => ?_)
  · exact fun hp => (hown.process hp).1
  · exact does_pure hok
  · exact does_modify_bind (does_throw (herr _ hp))

section

variable (hok : ∀ n h', RuntimeCleared h' → Frame runtimeThings h h' →
    Q (.ok ()) { r with runtime := n } h')
  (herr : ∀ n es h', RuntimeOwns n h' → Frame runtimeThings h h' → h' ≠ .nothing →
    Q (.error (.errors es)) { r with runtime := n } h')

include hok herr

/-- Once the process is stopped the rest is given back, as far as that succeeds. -/
theorem does_cleanupAfterProcess (hown : RuntimeHolds r.runtime h) (hproc : h .process = false) :
    Does exec cleanupAfterProcess Q r h := by
  have hfrm : ∀ t ∈ runtimeThings, Frame runtimeThings h (h.set t false) :=
    fun t ht => .set h false ht
  refine does_bind (does_relinquish (fun hg => ?_) ?_ fun f hg => ?_)
  · simp [(hown.guest hg).1, (hown.guest hg).2]
  · -- the guest connection is closed
    rw [then_ok]
    refine does_modify_bind (does_bind (does_relinquish (fun hn => ?_) ?_ fun f hn => ?_))
    · exact congrArg (! ·) (hown.network hn)
    · refine does_modify (hok _ _ ⟨hproc, rfl, rfl⟩ ?_)
      exact (hfrm _ (by decide)).trans (.set _ false (by decide))
    refine does_modify_bind (does_throw (herr _ _ _ ⟨⟨?_, ?_, ?_⟩, ?_⟩ (hfrm _ (by decide)) ?_))
    · exact fun hp => absurd hp (by simp [Held.set, hproc])
    · exact fun hg => absurd hg (by simp)
    · exact fun _ => hown.network hn
    · exact fun _ => by simp [Resource.mapRuntime, hown.network hn]
    · exact fun h' => absurd hn (by rw [h']; simp [Held.nothing])
  · -- it is still there
    rw [then_ok]
    refine does_modify_bind (does_bind (does_relinquish (fun hn => ?_) ?_ fun f hn => ?_))
    · exact congrArg (! ·) (hown.network hn)
    · refine does_modify_bind (does_throw (herr _ _ _ ⟨⟨?_, ?_, ?_⟩, ?_⟩ (hfrm _ (by decide)) ?_))
      · exact fun hp => absurd hp (by simp [Held.set, hproc])
      · exact fun _ => hown.guest hg
      · exact fun hn => absurd hn (by simp)
      · exact fun _ => by simp [Resource.mapRuntime, (hown.guest hg).2]
      · exact fun h' => absurd (congrFun h' .guest) (by simp [Held.set, Held.nothing, hg])
    · refine does_modify_bind (does_throw (herr _ _ _ ⟨⟨?_, ?_, ?_⟩, ?_⟩ (.refl _ h) ?_))
      · exact fun hp => absurd hp (by simp [hproc])
      · exact fun _ => hown.guest hg
      · exact fun _ => hown.network hn
      · exact fun _ => by simp [Resource.mapRuntime, hown.network hn]
      · exact fun h' => absurd hn (by simp [h', Held.nothing])

theorem does_stopAndCleanup (hown : RuntimeHolds r.runtime h) :
    Does exec stopAndCleanup Q r h := by
  refine does_get_bind ?_
  split_ifs with hs
  · refine does_cleanupAfterProcess hok herr hown ?_
    exact Bool.eq_false_iff.2 fun hp => absurd (hown.process hp).2 (by simp [hs])
  have hfrm : Frame runtimeThings h (h.set .process false) := .set h false (by decide)
  refine does_bind (does_stopRuntimeProcess hown ?_ fun es hp => ?_)
  · refine does_cleanupAfterProcess ?_ ?_ ⟨?_, hown.guest, hown.network⟩ rfl
    · exact fun n h' hc hf => hok n h' hc (hfrm.trans hf)
    · exact fun n es h' ho hf hne => herr n es h' ho (hfrm.trans hf) hne
    · exact fun hp => absurd hp (by simp)
  · refine herr _ es h ⟨⟨hown.process, hown.guest, hown.network⟩, ?_⟩ (.refl _ h) ?_
    · exact fun _ => by simp [hs]
    · exact fun h' => absurd hp (by simp [h', Held.nothing])

/-- `NetworkedRuntime.Stop`. -/
theorem does_stopNetworked (hown : RuntimeOwns r.runtime h) : Does exec stopNetworked Q r h := by
  refine does_get_bind ?_
  split_ifs with hdone
  · have hnone : ¬ r.runtime.cleanupErr = true := fun he => hown.cleanupErr he hdone
    simp only [Bool.and_eq_true] at hdone
    obtain ⟨⟨⟨hstop, hcl⟩, -⟩, hcln⟩ := hdone
    rw [failIf, if_neg hnone]
    refine does_check (hok r.runtime h ⟨?_, ?_, ?_⟩ (.refl _ h))
    · exact Bool.eq_false_iff.2 fun hp => absurd (hown.process hp).2 (by simp [hstop])
    · exact Bool.eq_false_iff.2 fun hg => absurd (hown.guest hg).2 (by simp [hcl])
    · exact Bool.eq_false_iff.2 fun hn => absurd (hown.network hn) (by simp [hcln])
  · exact does_stopAndCleanup hok herr hown.toRuntimeHolds

end

/-- A runtime that is being started: none of its flags of the way back is set. -/
structure Connecting (r₀ : Resource) (h₀ : Held) (r : Resource) (h : Held) : Prop where
  runtime : r = { r₀ with runtime := { process := r.runtime.process, guest := r.runtime.guest } }
  process : h .process = true → r.runtime.process = true
  guest : h .guest = true → r.runtime.guest = true
  frame : Frame runtimeThings h₀ h

variable {r₀ : Resource} {h₀ : Held}

theorem Connecting.holds (hc : Connecting r₀ h₀ r h) : RuntimeOwns r.runtime h := by
  refine ⟨⟨fun hp => ⟨hc.process hp, ?_⟩, fun hg => ⟨hc.guest hg, ?_⟩, fun _ => ?_⟩, fun he => ?_⟩
  · rw [hc.runtime]
  · rw [hc.runtime]
  · rw [hc.runtime]
  · rw [hc.runtime] at he
    cases he

theorem Connecting.eq (hc : Connecting r₀ h₀ r h) :
    ∃ n, r = { r₀ with runtime := n } ∧ RuntimeOwns n h := by
  have hn := congrArg Resource.runtime hc.runtime
  refine ⟨r.runtime, ?_, hc.holds⟩
  rw [hn]
  exact hc.runtime

/-- The ends of a start: no nil pointer is used. -/
def Unpanicked {α : Type} : Except Failure α → Prop
  | .error .nilDereference => False
  | _ => True

/-- A part of the start keeps the runtime's record. -/
def Keeps (r₀ : Resource) (h₀ : Held) {α : Type} (m : Vm α) : Prop :=
  ∀ r h, Connecting r₀ h₀ r h →
    Does exec m (fun res r' h' => Unpanicked res ∧ Connecting r₀ h₀ r' h') r h

theorem Keeps.bind {α β : Type} {m} {f : α → Vm β} (hm : Keeps r₀ h₀ m)
    (hf : ∀ a, Keeps r₀ h₀ (f a)) : Keeps r₀ h₀ (m >>= f) := by
  intro r h hc
  refine does_bind (.post (hm r h hc) fun res r' h' hres => ?_)
  cases res with
  | ok a => exact hf a r' h' hres.2
  | error e =>
    cases e with
    | errors es | nilDereference => exact hres

theorem keeps_check (c : Check) : Keeps r₀ h₀ (invoke (.check c)) :=
  fun _ _ hc => does_invoke fun _ => ⟨trivial, hc⟩

theorem keeps_perform (c : Check) (problem : Fault → Problem) : Keeps r₀ h₀ (perform c problem) :=
  fun _ _ hc => does_perform ⟨trivial, hc⟩ fun _ => ⟨trivial, hc⟩

theorem keeps_startError : Keeps r₀ h₀ startError :=
  (keeps_check _).bind fun _ _ _ hc => does_throw ⟨trivial, hc⟩

theorem keeps_orStartError (f : Option Fault) : Keeps r₀ h₀ (orStartError f) := by
  cases f with
  | none => exact fun _ _ hc => does_pure ⟨trivial, hc⟩
  | some => exact keeps_startError

theorem keeps_launchWithTap : Keeps r₀ h₀ launchWithTap := by
  refine (keeps_check _).bind fun _ => (keeps_orStartError _).bind fun _ r h hc => ?_
  refine does_invoke_bind fun x => does_modify_bind ?_
  have hx : exec .launch x h = (x .launch, h.after .launch (x .launch)) := rfl
  rw [hx]
  cases x .launch with
  | started =>
    refine (keeps_check _).bind (keeps_orStartError) _ _ ⟨?_, ?_, ?_, ?_⟩
    · rw [hc.runtime]
      rfl
    · exact fun _ => rfl
    · exact hc.guest
    · exact hc.frame.trans (.set h true (by decide))
  | unavailable | failed => exact (keeps_check _).bind (fun _ => keeps_startError) _ _ hc

theorem keeps_connectNetworked : Keeps r₀ h₀ connectNetworked := by
  refine (keeps_check _).bind fun _ => (keeps_orStartError _).bind fun _ => ?_
  refine (keeps_perform _ _).bind fun _ => keeps_launchWithTap.bind fun _ r h hc => ?_
  refine does_invoke_bind fun x => ?_
  have hx : exec (.obtain .guest) x h =
      (x (.obtain .guest), h.after (.obtain .guest) (x (.obtain .guest))) := rfl
  rw [hx]
  cases x (.obtain .guest) with
  | some => exact keeps_startError _ _ hc
  | none =>
    have hc' : Connecting r₀ h₀ (r.mapRuntime ({ · with guest := true })) (h.set .guest true) := by
      refine ⟨?_, hc.process, fun _ => rfl, hc.frame.trans (.set h true (by decide))⟩
      rw [hc.runtime]
      rfl
    exact (keeps_check _).bind (fun f => (keeps_orStartError f).bind fun _ =>
      (keeps_perform _ _).bind fun _ => (keeps_perform _ _).bind fun _ => keeps_perform _ _)
      _ _ hc'

/-- `StartNetworked` returns no runtime only if nothing of it is left. -/
theorem does_startNetworked {Q : Except Failure (Bool × Errors) → Resource → Held → Prop}
    (hproc : h .process = false) (hguest : h .guest = false)
    (hsome : ∀ n es h', RuntimeOwns n h' → Frame runtimeThings h h' →
      Q (.ok (true, es)) { r with runtime := n } h')
    (hnone : ∀ n es h', h' .process = false → h' .guest = false → Frame runtimeThings h h' →
      Q (.ok (false, es)) { r with runtime := n } h') :
    Does exec startNetworked Q r h := by
  refine does_invoke_bind fun x => ?_
  split_ifs
  · exact does_pure (hnone r.runtime _ h hproc hguest (.refl _ h))
  refine does_modify_bind (does_settle_bind ?_)
  have hc : Connecting r h (r.mapRuntime fun _ => {}) h := by
    refine ⟨rfl, fun hp => ?_, fun hg => ?_, .refl _ h⟩
    · simp [hproc] at hp
    · simp [hguest] at hg
  refine .post (keeps_connectNetworked _ _ hc) fun res r' h' hres => ?_
  obtain ⟨hunp, hc'⟩ := hres
  have hfrm := hc'.frame
  obtain ⟨n, rfl, hown⟩ := hc'.eq
  cases res with
  | ok => exact does_pure (hsome n _ h' hown hfrm)
  | error e =>
    cases e with
    | nilDereference => exact hunp.elim
    | errors es =>
      refine does_settle_bind (does_stopAndCleanup ?_ ?_ hown.toRuntimeHolds)
      · intro n' h'' hclr hfrm'
        exact does_check (hnone n' es h'' hclr.process hclr.guest (hfrm.trans hfrm'))
      · intro n' _ h'' hown' hfrm' _
        exact does_pure (hsome n' _ h'' hown' (hfrm.trans hfrm'))

end

/-! ## Stop -/

section

variable {r : Resource} {h : Held}

/-- What the second part of `Stop` gives back. -/
def ownThings : List Thing := [.connection, .images, .network, .cid, .directories]

/-- The process and what a runtime has are gone. -/
structure Stopped (r : Resource) (h : Held) : Prop where
  gone : r.gone .process = true
  process : h .process = false
  guest : h .guest = false
  own : ∀ t ∈ ownThings, h t = true → r.has t = true ∧ r.gone t = false
  online : r.networked = true → h .connection = false ∧ h .network = false
  pointer : r.process ≠ .nilPointer

theorem Stopped.owns (hs : Stopped r h) : Owns r h := by
  have hsub : ∀ t ∈ keptThings, t ∈ ownThings := by decide
  have hsub' : ∀ t ∈ [.connection, .network], t ∈ ownThings := by decide
  refine ⟨fun t ht => hs.own t (hsub t ht), fun _ => ⟨?_, hs.guest, ?_⟩, fun hn => ?_, hs.pointer⟩
  · exact fun hp => absurd hp (by simp [hs.process])
  · exact fun t ht => hs.own t (hsub' t ht)
  · obtain ⟨hconn, hnet⟩ := hs.online hn
    refine ⟨hconn, fun hg => ?_, fun _ => ⟨hs.process, hs.guest, hnet⟩⟩
    simp [hs.gone] at hg

/-- An offline VM whose process is gone. -/
theorem Owns.stopped_offline (ho : Owns r h) (hn : r.networked = false)
    (hp : h .process = false) : Stopped (r.setGone .process) h := by
  obtain ⟨-, hguest, hown⟩ := ho.offline hn
  refine ⟨rfl, hp, hguest, fun t ht => ?_, fun hn' => ?_, ho.pointer⟩
  · have hcases : ∀ t ∈ ownThings, (t ∈ keptThings ∨
      t ∈ [.connection, .network]) ∧ t ≠ .process := by decide
    obtain ⟨hmem, hne⟩ := hcases t ht
    have hgone : (r.setGone .process).gone t = r.gone t := if_neg hne
    rw [hgone]
    exact hmem.elim (ho.own t) (hown t)
  · have hn'' : r.networked = true := hn'
    simp [hn] at hn''

/-- A VM with a runtime that has given everything back. -/
theorem stopped_online (hown : ∀ t ∈ keptThings, h t = true → r.has t = true ∧ r.gone t = false)
    (hgone : r.gone .process = true) (hconn : h .connection = false) (hc : RuntimeCleared h)
    (hpoin : r.process ≠ .nilPointer) : Stopped r h := by
  refine ⟨hgone, hc.process, hc.guest, fun t ht hh => ?_, fun _ => ⟨hconn, hc.network⟩, hpoin⟩
  have hcases : ∀ t ∈ ownThings, t ∈ keptThings ∨ t = .connection ∨
      t = .network := by decide
  rcases hcases t ht with hmem | rfl | rfl
  · exact hown t hmem hh
  · simp [hconn] at hh
  · simp [hc.network] at hh

theorem exec_wait (x : Answer) (h : Held) :
    exec .wait x h = (true, h.set .process false) ∨
      h .process = true ∧ exec .wait x h = (false, h) := by
  simp only [exec, Op.settled]
  split_ifs with hp
  · cases x .wait with
    | true => exact .inl rfl
    | false => exact .inr ⟨hp, rfl⟩
  · exact .inl rfl

variable {Q : Except Failure Unit → Resource → Held → Prop}

theorem does_stopProcess (ho : Owns r h) (hok : ∀ r' h', Stopped r' h' → Q (.ok ()) r' h')
    (herr : ∀ es r' h', Owns r' h' → h' ≠ .nothing → Q (.error (.errors es)) r' h') :
    Does exec stopProcess Q r h := by
  refine does_get_bind ?_
  by_cases hnet : r.networked = true
  · obtain ⟨hconn, hrun, hclr⟩ := ho.online hnet
    by_cases hg : r.gone .process = true
    · rw [if_neg (by simp [hg]), if_pos hg]
      exact does_pure (hok r h (stopped_online ho.own hg hconn (hclr hg) ho.pointer))
    rw [if_pos (by simp [hnet, hg])]
    have houter : ∀ t ∈ keptThings, t ∉ runtimeThings := by decide
    refine does_bind (does_stopNetworked ?_ ?_ (hrun (by simpa using hg)))
    · intro n h' hc hfrm
      refine does_modify (hok _ h' (stopped_online (fun t ht hh => ?_) rfl ?_ hc ho.pointer))
      · rw [hfrm t (houter t ht)] at hh
        have hcases : ∀ t ∈ keptThings, t ≠ .process ∧ t ≠ .connection ∧
          t ≠ .network := by decide
        simpa [Resource.setGone, hcases t ht] using ho.own t ht hh
      · rwa [hfrm .connection (by decide)]
    · intro n es h' hown hfrm hne
      refine herr es _ h' ⟨fun t ht hh => ?_, fun hn => ?_, fun _ => ⟨?_, fun _ => hown, ?_⟩,
        ho.pointer⟩ hne
      · rw [hfrm t (houter t ht)] at hh
        exact ho.own t ht hh
      · simp [hnet] at hn
      · rwa [hfrm .connection (by decide)]
      · exact fun hg' => absurd hg' hg
  · have hnet : r.networked = false := by simpa using hnet
    obtain ⟨hproc, -, -⟩ := ho.offline hnet
    rw [if_neg (by simp [hnet])]
    by_cases hg : r.gone .process = true
    · rw [if_pos hg]
      have hp : h .process = false := Bool.eq_false_iff.2 fun hp => by simp [hproc hp] at hg
      refine does_pure (hok r h ?_)
      have hs := ho.stopped_offline hnet hp
      rwa [Resource.setGone_eq hg] at hs
    rw [if_neg hg]
    cases hman : r.process with
    | none =>
      have hp : h .process = false :=
        Bool.eq_false_iff.2 fun hp => by simp [hman] at hproc; simp [hproc] at hp
      exact does_modify (hok _ h (ho.stopped_offline hnet hp))
    | nilPointer => exact absurd hman ho.pointer
    | process =>
      refine does_invoke_bind fun x => ?_
      -- whether or not the request to stop succeeds, only the wait counts
      have hle : ∀ t, (exec (.giveBack .process) x h).2 t = true → h t = true := by
        rcases exec_giveBack .process x h with he | ⟨f, -, he⟩
        · rw [he]
          exact fun t => Held.le_of_set
        · rw [he]
          exact fun t => id
      have ho' := ho.mono hle
      generalize (exec (.giveBack .process) x h).2 = h' at ho'
      refine does_invoke_bind fun x => ?_
      rcases exec_wait x h' with he | ⟨hp, he⟩
      · rw [he]
        refine does_modify (hok _ _ ((ho'.mono fun t => Held.le_of_set).stopped_offline hnet ?_))
        exact Held.set_self _ _ _
      · rw [he]
        refine does_throw (herr _ _ _ ho' fun hn => ?_)
        exact absurd (congrFun hn .process) (by simp [hp, Held.nothing])

theorem Stopped.relinquish (hs : Stopped r h) (t : Thing) :
    Stopped (r.setGone t) (h.set t false) := by
  refine ⟨?_, ?_, ?_, fun t' ht' hh => ?_, fun hn => ?_, hs.pointer⟩
  · simp [Resource.setGone, hs.gone]
  · exact Held.set_of_false hs.process
  · exact Held.set_of_false hs.guest
  · by_cases heq : t' = t
    · rw [heq, Held.set_self] at hh
      cases hh
    · simpa [Resource.setGone, heq] using hs.own t' ht' (Held.le_of_set hh)
  · obtain ⟨hconn, hnet⟩ := hs.online hn
    exact ⟨Held.set_of_false hconn, Held.set_of_false hnet⟩

/-- One thing of the second part: there is an error just if the thing is held afterwards. -/
theorem does_relinquishOwn_bind {β : Type} {t} {problem : Fault → Problem} {f : Errors → Vm β}
    {Q : Except Failure β → Resource → Held → Prop} (hs : Stopped r h) (ht : t ∈ ownThings)
    (hf : ∀ es r' h', Stopped r' h' → Frame [t] h h' → (es ≠ [] ↔ h' t = true) →
      Does exec (f es) Q r' h') : Does exec (relinquishOwn t problem >>= f) Q r h := by
  refine does_bind (does_relinquish (fun hh => ?_) ?_ fun p hh => ?_)
  · simp [hs.own t ht hh]
  · exact hf [] _ _ (hs.relinquish t) (.set h false (by simp)) (by simp)
  · exact hf _ r h hs (.refl _ h) (by simp [hh])

/-- **Stop gives everything back, or keeps the record of what is left.** -/
theorem does_stop (ho : Owns r h) (hok : ∀ r', Q (.ok ()) r' .nothing)
    (herr : ∀ es r' h', Owns r' h' → h' ≠ .nothing → Q (.error (.errors es)) r' h') :
    Does exec stop Q r h := by
  refine does_bind (does_stopProcess ho (fun r h hs => ?_) herr)
  refine does_relinquishOwn_bind hs (by decide) fun e₁ r h₁ hs _ hc => ?_
  refine does_relinquishOwn_bind hs (by decide) fun e₂ r h₂ hs f₂ hi => does_modify_bind ?_
  refine does_relinquishOwn_bind { hs with } (by decide) fun e₃ r h₃ hs f₃ hn => ?_
  refine does_relinquishOwn_bind hs (by decide) fun e₄ r h₄ hs f₄ hd => ?_
  refine does_relinquishOwn_bind hs (by decide) fun e₅ r h₅ hs f₅ hr => does_check ?_
  -- later calls do not touch what an earlier one has left
  rw [← f₂ .connection (by decide), ← f₃ .connection (by decide), ← f₄ .connection (by decide),
    ← f₅ .connection (by decide)] at hc
  rw [← f₃ .images (by decide), ← f₄ .images (by decide), ← f₅ .images (by decide)] at hi
  rw [← f₄ .network (by decide), ← f₅ .network (by decide)] at hn
  rw [← f₅ .cid (by decide)] at hd
  by_cases hes : e₁ ++ e₂ ++ e₃ ++ e₄ ++ e₅ = []
  · rw [failIf, if_neg (by simpa using hes)]
    simp only [List.append_eq_nil_iff] at hes
    obtain ⟨⟨⟨⟨n₁, n₂⟩, n₃⟩, n₄⟩, n₅⟩ := hes
    have hnothing : ∀ t, h₅ t = Held.nothing t := by
      intro t
      cases t with
      | process => exact hs.process
      | guest => exact hs.guest
      | connection => exact Bool.eq_false_iff.2 fun h => hc.2 h n₁
      | images => exact Bool.eq_false_iff.2 fun h => hi.2 h n₂
      | network => exact Bool.eq_false_iff.2 fun h => hn.2 h n₃
      | cid => exact Bool.eq_false_iff.2 fun h => hd.2 h n₄
      | directories => exact Bool.eq_false_iff.2 fun h => hr.2 h n₅
    rw [funext hnothing]
    exact hok r
  · rw [failIf, if_pos hes]
    refine herr _ r _ hs.owns fun hnothing => hes ?_
    rw [hnothing] at hc hi hn hd hr
    simp only [Held.nothing, Bool.false_eq_true, iff_false, not_not] at hc hi hn hd hr
    rw [hc, hi, hn, hd, hr]
    rfl

/-- With a nil pointer for a process `Stop` is the end of the daemon. -/
theorem does_stop_nilPointer {X H : Type} {exec : (o : Op) → X → H → o.Res × H} {h : H}
    {Q : Except Failure Unit → Resource → H → Prop} (hn : r.networked = false)
    (hg : r.gone .process = false) (hp : r.process = .nilPointer)
    (hQ : Q (.error .nilDereference) r h) : Does exec stop Q r h := by
  refine does_bind (does_get_bind ?_)
  simp only [hn, hg, hp]
  exact does_throw hQ

end

end PrivateVm.Scanner
