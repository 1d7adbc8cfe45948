import PrivateVm.GuestVpn.Guest

set_option autoImplicit false

/-! # Loss of proof is handled

When a verification that `Monitor` makes fails, and the context passed to `Monitor` is not done,
the hook for the loss of the VPN must be called next. It is, unless the verification fails with an
error of a context (`loss_handled`): this is taken for the end of the context passed to `Monitor`,
but a verification has deadlines of its own (`loss_unhandled`).
-/

namespace PrivateVm.GuestVpn

open Program Method

/-! ## What is to happen -/

def Event.loop : Event → Nat
  | .verified l _ | .responded l _ | .returned l => l

def Event.isLoss : Event → Bool
  | .verified _ lost => lost
  | _ => false

def Event.isResponse : Event → Bool
  | .responded _ _ => true
  | _ => false

/-- The last thing that a loop did was a verification that failed while its context was not
done. -/
def owed (l : Nat) : List Event → Bool
  | [] => false
  | e :: events => if e.loop = l then e.isLoss else owed l events

/-- The next thing that a loop did after such a verification was to call the hook. -/
def handled : List Event → Bool
  | [] => true
  | e :: events => handled events && (!owed e.loop events || e.isResponse)

/-! ## Verifications that end in time -/

/-- The online service does not answer its start with an error of a context, and no probe fails
after the deadline of the verification. -/
def answeredInTime : Op → GuestAnswer → Guest → Bool
  | .onlineStart, x, _ => !x.answer.error.any isContextError
  | .verify ctx policy, x, _ => !x.probes.late ctx policy
  | _, _, _ => true

/-- The context passed to `Monitor` is done after a verification of a loop, or the calls made for
the verification are answered in time. -/
def endsInTime (move : Move GuestAnswer) (w : World Guest) : Bool :=
  match move.input with
  | .tick l start finish =>
    match w.loops[l]? with
    | some (.waiting ctx) => (ctx.err finish).isSome ||
        (Controller.verify ctx start).along guestExec answeredInTime move.answers w.controller
          w.outside
    | _ => true
  | _ => true

/-- The error of a context is returned. -/
def contextError : Except Error Unit → Bool
  | .ok () => false
  | .error e => isContextError e

theorem isContextError_verificationFailed (error : Option Error) :
    isContextError (verificationFailed error) = error.any isContextError := by
  cases error with
  | none => rfl
  | some e =>
    simp only [verificationFailed, passContext, Option.any_some]
    split_ifs with he
    · rfl
    · exact (Bool.eq_false_of_not_eq_true he).symm

section

variable {c : Controller} {g : Guest} {v : Bool}

theorem does_prove (operationCtx : Ctx) :
    Does (marking guestExec answeredInTime) (Controller.prove operationCtx (return ()))
      (fun r _ h => h.2 = !contextError r) c (g, true) := by
  refine does_get_bind (does_invoke_bind fun x => ?_)
  -- the mark is now a statement about what the verifier returns
  simp only [marking, guestExec, answeredInTime, Bool.true_and, ← any_controlledVerify]
  generalize controlledVerify operationCtx c.verificationPolicy x.probes = out
  obtain ⟨proof, error⟩ := out
  refine does_modify_bind ?_
  split
  · refine does_modify_bind (does_throw ?_)
    exact congrArg (! ·) (isContextError_verificationFailed error).symm
  · rename_i hgood
    obtain rfl := Option.not_isSome_iff_eq_none.1 (not_or.1 hgood).1
    exact does_modify rfl

theorem does_stopOnlineDetached_bind {f : Unit → Action Unit}
    {Q : Except Error Unit → Controller → Guest × Bool → Prop}
    (hf : ∀ c g, Does (marking guestExec answeredInTime) (f ()) Q c (g, v)) :
    Does (marking guestExec answeredInTime) (Controller.stopOnlineDetached >>= f) Q c (g, v) := by
  refine does_bind (does_get_bind ?_)
  cases c.online && c.onlineActive with
  | false => exact does_pure (hf _ _)
  | true =>
    refine does_fine_bind (fun _ => rfl) fun x => ?_
    split
    · exact does_modify (hf _ _)
    · exact does_pure (hf _ _)

/-- **When a verification returns an error of a context**: just if a call made for it is not
answered in time. -/
theorem does_verify (ctx : Ctx) (start : Int) (c : Controller) (g : Guest) :
    Does (marking guestExec answeredInTime) (Controller.verify ctx start)
      (fun r _ h => h.2 = !contextError r) c (g, true) := by
  refine does_get_bind ?_
  split_ifs
  · exact does_throw rfl
  refine does_bind ?_
  cases c.online && !c.onlineActive with
  | false => exact does_pure (does_prove _)
  | true =>
    refine does_modify_bind (does_invoke_bind fun x => ?_)
    simp only [marking, guestExec, answeredInTime, Answer.result]
    cases x.answer.error with
    | none => exact does_pure (does_prove _)
    | some e =>
      refine does_modify_bind (does_stopOnlineDetached_bind fun _ _ => does_throw ?_)
      exact congrArg (! ·) (isContextError_verificationFailed (some e)).symm

end

section

variable {l : Nat} {ctx : Ctx} {e : Event} {w w' : World Guest} {answers : Nat → GuestAnswer}

theorem endsInTime_tick {start finish : Int} (hl : w.loops[l]? = some (.waiting ctx)) :
    endsInTime ⟨.tick l start finish, answers⟩ w = ((ctx.err finish).isSome ||
      !contextError (w.perform guestExec answers (Controller.verify ctx start)).1) := by
  simp only [endsInTime, hl]
  exact congrArg _ ((does_verify ctx start w.controller w.outside).along answers)

/-! ## One step -/

/-- Every loss was handled, and a loop that owes a response is about to give it. -/
structure Responsive (w : World Guest) : Prop where
  all : handled w.events = true
  responding : ∀ l, owed l w.events = true → ∃ status, w.loops[l]? = some (.responding status)

/-- A loop that waits owes nothing. -/
theorem Responsive.waiting (h : Responsive w) (hl : w.loops[l]? = some (.waiting ctx)) :
    owed l w.events = false := by
  rw [← Bool.not_eq_true]
  intro howed
  obtain ⟨status, hstat⟩ := h.responding l howed
  cases hl.symm.trans hstat

theorem handled_cons {events} (h : handled events = true) (howed : owed e.loop events = false) :
    handled (e :: events) = true := by
  rw [handled, h, howed]
  rfl

theorem owed_cons_self (e : Event) (events : List Event) : owed e.loop (e :: events) = e.isLoss :=
  if_pos rfl

theorem owed_cons_of_ne (hl : e.loop ≠ l) (events : List Event) :
    owed l (e :: events) = owed l events :=
  if_neg hl

/-- A loop acts: its events settle what it owes, or it is about to respond; the others owe what
they owed. -/
theorem Responsive.act (h : Responsive w) (entries : List Event) (loop : Loop)
    (hl : l < w.loops.length) (hloops : w'.loops = w.loops.set l loop)
    (hevs : w'.events = entries ++ w.events) (hents : ∀ e ∈ entries, e.loop = l)
    (hhand : handled w'.events = true)
    (howed : owed l w'.events = true → ∃ status, loop = .responding status) : Responsive w' := by
  refine ⟨hhand, fun j hj => ?_⟩
  by_cases hjl : l = j
  · subst hjl
    obtain ⟨status, rfl⟩ := howed hj
    exact ⟨status, by rw [hloops, List.getElem?_set_self hl]⟩
  -- events of another loop change nothing here
  have hsame : ∀ entries, (∀ e ∈ entries, e.loop = l) →
      owed j (entries ++ w.events) = owed j w.events := by
    intro entries hents
    induction entries with
    | nil => rfl
    | cons e entries ih =>
      obtain ⟨he, hrest⟩ := List.forall_mem_cons.1 hents
      exact (owed_cons_of_ne (by rwa [he]) _).trans (ih hrest)
  rw [hevs, hsame entries hents] at hj
  obtain ⟨status, hstat⟩ := h.responding j hj
  exact ⟨status, by rw [hloops, List.getElem?_set_ne hjl, hstat]⟩

theorem World.perform_loops {α : Type} {m : Action α} {r : Except Error α}
    (h : w.perform guestExec answers m = (r, w')) : w'.loops = w.loops ∧ w'.events = w.events := by
  obtain ⟨-, rfl⟩ := Prod.mk.inj h
  exact ⟨rfl, rfl⟩

theorem Responsive.tick (h : Responsive w) {start finish : Int}
    (hl : w.loops[l]? = some (.waiting ctx))
    (htime : endsInTime ⟨.tick l start finish, answers⟩ w = true) :
    Responsive (w.tick guestExec answers l ctx start finish) := by
  obtain ⟨hlen, hget⟩ := List.getElem?_eq_some_iff.1 hl
  have hfree := h.waiting hl
  rw [endsInTime_tick hl] at htime
  unfold World.tick
  split
  · rename_i w' heq
    obtain ⟨hloops, hevs⟩ := World.perform_loops heq
    refine h.act [.verified l false] (.waiting ctx) hlen ?_ ?_ ?_ ?_ ?_
    · rwa [← hget, List.set_getElem_self]
    · exact congrArg (List.cons _) hevs
    · exact List.forall_mem_singleton.2 rfl
    · rw [hevs]
      exact handled_cons h.all hfree
    · intro howed
      cases (owed_cons_self (.verified l false) w'.events).symm.trans howed
  · rename_i e w' heq
    obtain ⟨hloops, hevs⟩ := World.perform_loops heq
    have hver : handled (.verified l (ctx.err finish).isNone :: w'.events) = true := by
      rw [hevs]
      exact handled_cons h.all hfree
    rw [heq] at htime
    split
    · -- the error is one of a context, so that of `Monitor` is done
      rename_i hctx
      have hdone : (ctx.err finish).isNone = false := by
        simpa [contextError, hctx] using htime
      rw [hdone] at hver ⊢
      refine h.act [.returned l, .verified l false] (.returned e) hlen ?_ ?_ ?_ ?_ ?_
      · rw [hloops]
      · exact congrArg (fun events => .returned l :: .verified l false :: events) hevs
      · exact List.forall_mem_cons.2 ⟨rfl, List.forall_mem_singleton.2 rfl⟩
      · exact handled_cons hver (owed_cons_self (.verified l false) _)
      · intro howed
        cases (owed_cons_self (.returned l) _).symm.trans howed
    · refine h.act [.verified l (ctx.err finish).isNone] (.responding w'.controller.status)
        hlen ?_ ?_ ?_ hver ?_
      · rw [hloops]
      · exact congrArg (List.cons _) hevs
      · exact List.forall_mem_singleton.2 rfl
      · exact fun _ => ⟨_, rfl⟩

/-- **One step.** -/
theorem Responsive.step (h : Responsive w) (move : Move GuestAnswer)
    (htime : endsInTime move w = true) : Responsive (w.step guestExec move) := by
  obtain ⟨i, answers⟩ := move
  cases i with
  | configure ctx now | verify ctx now | stop => exact ⟨h.all, h.responding⟩
  | monitor =>
    -- a new loop comes last and owes nothing
    have happ : ∀ {loops : List Loop}, loops = w.loops → ∀ loop l, owed l w.events = true →
        ∃ status, (loops ++ [loop])[l]? = some (.responding status) := by
      rintro _ rfl loop l howed
      obtain ⟨status, hstat⟩ := h.responding l howed
      obtain ⟨hl, -⟩ := List.getElem?_eq_some_iff.1 hstat
      exact ⟨status, by rw [List.getElem?_append_left hl, hstat]⟩
    simp only [World.step]
    split <;>
      · rename_i heq
        obtain ⟨hloops, hevs⟩ := World.perform_loops heq
        refine ⟨by rw [hevs]; exact h.all, fun l howed => happ hloops _ l ?_⟩
        rwa [hevs] at howed
  | tick =>
    simp only [World.step]
    split
    · rename_i hl
      exact h.tick hl htime
    · exact h
  | done l =>
    simp only [World.step]
    split
    · rename_i hl
      split
      · rename_i fault hfault
        obtain ⟨hlen, -⟩ := List.getElem?_eq_some_iff.1 hl
        refine h.act [.returned l] (.returned (.cause fault)) hlen rfl rfl ?_ ?_ ?_
        · exact List.forall_mem_singleton.2 rfl
        · exact handled_cons h.all (h.waiting hl)
        · intro howed
          cases (owed_cons_self (.returned l) _).symm.trans howed
      · exact h
    · exact h
  | respond l error =>
    simp only [World.step]
    split
    · rename_i status hl
      obtain ⟨hlen, -⟩ := List.getElem?_eq_some_iff.1 hl
      have hresp : handled (.responded l status :: w.events) = true := by
        rw [handled, h.all]
        exact Bool.or_true _
      refine h.act [.returned l, .responded l status] (.returned (responseError error)) hlen
        rfl rfl ?_ ?_ ?_
      · exact List.forall_mem_cons.2 ⟨rfl, List.forall_mem_singleton.2 rfl⟩
      · exact handled_cons hresp (owed_cons_self (.responded l status) _)
      · intro howed
        cases (owed_cons_self (.returned l) _).symm.trans howed
    · exact h

/-- A verification that does not end in time is a loss that is not handled. -/
theorem unhandled_of_late {move : Move GuestAnswer} (htime : endsInTime move w = false) :
    handled (w.step guestExec move).events = false := by
  obtain ⟨i, answers⟩ := move
  cases i with
  | tick l start finish =>
    have htick := htime
    simp only [endsInTime] at htick
    split at htick
    · rename_i ctx hl
      rw [endsInTime_tick hl] at htime
      cases heq : (w.perform guestExec answers (Controller.verify ctx start)).1 with
      | error e =>
        have hlate : isContextError e = true ∧ (ctx.err finish).isNone = true := by
          simpa [heq, contextError, and_comm] using htime
        -- the loop returns right after the loss
        have hevs : (w.step guestExec ⟨.tick l start finish, answers⟩).events =
            .returned l :: .verified l true :: w.events := by
          simp only [World.step, hl, World.tick]
          split
          · rename_i hok
            rw [hok] at heq
            cases heq
          rename_i herr
          rw [herr] at heq
          cases heq
          obtain ⟨-, hevs⟩ := World.perform_loops herr
          simp only [hlate.1, if_true, hlate.2, hevs]
        have howed := owed_cons_self (.verified l true) w.events
        rw [hevs]
        change (_ && (!owed l _ || false)) = false
        rw [show owed l (.verified l true :: w.events) = true from howed]
        exact Bool.and_false _
      | ok =>
        rw [heq] at htime
        simp [contextError] at htime
    · cases htick
  | _ => cases htime

end

theorem reachable_responsive {w : World Guest}
    (h : (machine guestExec .fresh).Reachable (fun move w => endsInTime move w = true) w) :
    Responsive w := by
  refine h.inv ?_ ?_
  · rintro _ ⟨online, policy, underlay, c, -, rfl⟩
    exact ⟨rfl, nofun⟩
  · exact fun move v htime hv => hv.step move htime

/-! ## The result -/

/-- **Loss of proof is handled.** In every run in which no verification of a loop fails with an
error of a context while the context passed to `Monitor` is not done, the hook was called for
every loss before the loop did anything else; and after any further step this is so exactly if
the step is again such a one. -/
theorem loss_handled {w : World Guest}
    (h : (machine guestExec .fresh).Reachable
      (fun move w => endsInTime move w = true) w) :
    handled w.events = true ∧
      ∀ move, handled (w.step guestExec move).events = true ↔ endsInTime move w = true := by
  have hresp := reachable_responsive h
  refine ⟨hresp.all, fun move => ⟨fun hhand => ?_, fun htime => ?_⟩⟩
  · rw [← Bool.not_eq_false]
    intro hlate
    cases hhand.symm.trans (unhandled_of_late hlate)
  · exact (hresp.step move htime).all

/-! ## Sample runs -/

/-- An input on which the probe of the handshake fails at a given time. -/
def Input.failingProbe (i : Input) (time : Int) : Move GuestAnswer :=
  ⟨i, fun _ => { sampleGuestAnswer with
    probes := { sampleProbes with handshake := ⟨false, true, time⟩ } }⟩

def toMonitoring : List (Move GuestAnswer) :=
  [(Input.configure background 0).working, (Input.monitor background (seconds 1)).working]

theorem loss_handled_sample :
    let w := (machine guestExec .fresh).play
      (toMonitoring ++ [(Input.tick 0 0 1).failingProbe 1, (Input.respond 0 none).working])
      sampleWorld
    owed 0 (w.events.drop 2) = true ∧ w.events.length = 3 ∧ handled w.events = true := by
  intro w
  have hreach : (machine guestExec .fresh).Reachable
      (fun move w => endsInTime move w = true) w :=
    Machine.reachable_play (fun _ _ h => h) (init_sample guestExec .fresh) (by decide +kernel)
  exact ⟨by decide +kernel, by decide +kernel, (loss_handled hreach).1⟩

/-- **A loss that is not handled.** The context passed to `Monitor` is never done. A probe is ended
by the deadline of its verification, after thirty seconds, and `Monitor` returns without a call
of the hook. -/
theorem loss_unhandled :
    ∃ w, (machine guestExec .fresh).Reachable
        (Machine.free (Move GuestAnswer) (World Guest)) w ∧
      w.events = [.returned 0, .verified 0 true] ∧ handled w.events = false := by
  refine ⟨_, Machine.reachable_play_free (toMonitoring ++
    [(Input.tick 0 0 (seconds 30)).failingProbe (seconds 30)]) (init_sample guestExec .fresh),
    ?_, ?_⟩ <;> decide +kernel

end PrivateVm.GuestVpn
