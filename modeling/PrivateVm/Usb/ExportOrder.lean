import PrivateVm.Usb.Export

set_option autoImplicit false

/-! # The order of a USB export

`Status` is what the history of calls says of the outside. `permitted` is the order of the steps
back: abort, finalize, detach, stop, release, audit, each only when those before it have nothing
left to do, and nothing is begun or undone after the release. `Agree` ties the fields of the
operation to the status, and makes `cleanup` do the right steps from wherever `Run` failed.
-/

namespace PrivateVm.Usb

open Checked Program Program.Method Transfer

/-! ## What the history says -/

structure Status where
  booted : Bool := false
  attached : Bool := false
  opened : Bool := false
  writing : Bool := false
  finalized : Bool := false
  detached : Bool := false
  stopped : Bool := false
  released : Bool := false
  audited : Bool := false
  obtained : Bytes := []
  evidence : Option DestinationEvidence := none

/-- A boot or an attachment that was only attempted counts. -/
def Status.afterStep (s : Status) : Step → Except Fault Unit → Status
  | .bootNetworkless, _ => { s with booted := true }
  | .attachExactUSB _, _ => { s with attached := true }
  | .abort, .ok () => { s with writing := false }
  | .detachUSB, .ok () => { s with attached := false, detached := true }
  | .stopExporter, .ok () => { s with booted := false, stopped := true }
  | .release, .ok () => { s with released := true }
  | .auditAbsent, .ok () => { s with audited := true }
  | _, _ => s

def Status.after (s : Status) : Entry → Status
  | ⟨.step step, r⟩ => s.afterStep step r
  | ⟨.begin _, r⟩ => if r.1 then { s with opened := true, writing := true } else s
  | ⟨.next, .chunk c⟩ => { s with obtained := s.obtained ++ c.data }
  | ⟨.commit _ _, .ok evidence⟩ => { s with writing := false, evidence := some evidence }
  | ⟨.finalize, r⟩ =>
    if (finalizeFailure r).isNone then { s with opened := false, finalized := true } else s
  | _ => s

theorem Status.after_step (s : Status) (step : Step) (r : Except Fault Unit) :
    s.after ⟨.step step, r⟩ = s.afterStep step r := rfl

/-- The status after a history, newest call first. -/
def status : List Entry → Status
  | [] => {}
  | e :: log => (status log).after e

/-- The first `k` steps of the way back have nothing left to do. -/
structure Status.Cleared (s : Status) (k : Nat) : Prop where
  aborted : 1 ≤ k → s.writing = false
  finalized : 2 ≤ k → s.opened = false
  detached : 3 ≤ k → s.attached = false
  stopped : 4 ≤ k → s.booted = false
  released : 5 ≤ k → s.released = true

/-- After the release there is only the audit, which clears nothing. -/
theorem Status.Cleared.beyond {s s' : Status} (h : s.Cleared 5) (hw : s'.writing = s.writing)
    (ho : s'.opened = s.opened) (ha : s'.attached = s.attached) (hb : s'.booted = s.booted)
    (hr : s'.released = s.released) {k : Nat} : s'.Cleared k :=
  ⟨fun _ => hw.trans (h.aborted (by omega)), fun _ => ho.trans (h.finalized (by omega)),
    fun _ => ha.trans (h.detached (by omega)), fun _ => hb.trans (h.stopped (by omega)),
    fun _ => hr.trans (h.released (by omega))⟩

/-- **The order of the way back.** The claim is released only when nothing is written, open,
attached or running, and after that nothing is booted, attached, begun or undone. -/
def Op.permitted : Op → Status → Prop
  | .step .bootNetworkless, s | .step (.attachExactUSB _), s | .begin _, s => s.released = false
  | .step .abort, s => s.released = false ∧ s.writing = true ∧ s.opened = true
  | .finalize, s => s.released = false ∧ s.Cleared 1
  | .step .detachUSB, s => s.released = false ∧ s.Cleared 2
  | .step .stopExporter, s => s.released = false ∧ s.Cleared 3
  | .step .release, s => s.released = false ∧ s.Cleared 4
  | .step .auditAbsent, s => s.Cleared 5
  | _, _ => True

/-- Every call of a history was permitted when it was made. -/
def Ordered : List Entry → Prop
  | [] => True
  | e :: log => e.1.permitted (status log) ∧ Ordered log

/-! ## The fields and the outside -/

/-- What is there is known to the operation, and it is gone once the claim is released. -/
structure Agree (o : ExportOperation) (s : Status) : Prop where
  writing : (o.writer && !o.committed) = s.writing
  opened : (o.destinationOpened && !o.finalized) = s.opened
  writingOpened : s.writing = true → s.opened = true
  attached : (o.attached && !o.detached) = s.attached
  booted : (o.booted && !o.stopped) = s.booted
  released : o.released = s.released
  cleared : s.released = true → s.Cleared 4

structure Inv (o : ExportOperation) (log : List Entry) : Prop where
  agree : Agree o (status log)
  ordered : Ordered log

/-- Nothing has been begun. -/
structure Fresh (o : ExportOperation) : Prop where
  writer : o.writer = false
  opened : o.destinationOpened = false
  attached : o.attached = false
  booted : o.booted = false
  committed : o.committed = false
  finalized : o.finalized = false
  detached : o.detached = false
  stopped : o.stopped = false

/-- What `cleanup` does not change. -/
structure Keep (o o' : ExportOperation) : Prop where
  running : o'.running = o.running
  finished : o'.finished = o.finished

theorem Keep.trans {o o' o''} (h : Keep o o') (h' : Keep o' o'') : Keep o o'' :=
  ⟨h'.running.trans h.running, h'.finished.trans h.finished⟩

/-! ## Cleanup -/

variable {o : ExportOperation} {log : List Entry}
  {Q : Except ExportError Unit → ExportOperation → List Entry → Prop} {op : Op}
  {pending : ExportOperation → Bool} {done : ExportOperation → ExportOperation} {k : Nat}

theorem Inv.call {o' r} (h : Inv o log) (hop : op.permitted (status log))
    (hagree : Agree o' ((status log).after ⟨op, r⟩)) : Inv o' (⟨op, r⟩ :: log) :=
  ⟨hagree, hop, h.ordered⟩

/-- An action that makes one call and succeeds if the answer is good. -/
def Calls (act : Export Unit) (op : Op) (good : op.Res → Bool) : Prop :=
  ∀ {Q : Except ExportError Unit → ExportOperation → List Entry → Prop} (o : ExportOperation)
    (log : List Entry), (∀ r, good r = true → Q (.ok ()) o (⟨op, r⟩ :: log)) →
    (∀ r e, good r = false → Q (.error e) o (⟨op, r⟩ :: log)) → Does exec act Q o log

def succeeded : Except Fault Unit → Bool
  | .ok () => true
  | .error _ => false

theorem calls_call (step : Step) (wrap : Fault → ExportError) :
    Calls (call step wrap) (.step step) succeeded := by
  intro Q o log hok herr
  refine does_invoke_bind fun x => does_check ?_
  simp only [exec]
  cases x (.step step) with
  | ok => exact hok _ rfl
  | error => exact herr _ _ rfl

theorem calls_finalize (failed : Option Cause → ExportError) :
    Calls (callFinalize fun c => throw (failed c)) .finalize
      fun r => (finalizeFailure r).isNone := by
  intro Q o log hok herr
  refine does_invoke_bind fun x => ?_
  simp only [exec]
  cases hx : finalizeFailure (x .finalize) with
  | none => exact does_pure (hok _ (by simp [hx]))
  | some => exact does_throw (herr _ _ (by simp [hx]))

/-- What makes a step of the way back: if it is pending its call is permitted, and afterwards
one thing more is cleared. -/
structure StepBack (pending : ExportOperation → Bool) (op : Op) (good : op.Res → Bool)
    (done : ExportOperation → ExportOperation) (k : Nat) : Prop where
  permitted : ∀ {o s}, Agree o s → s.Cleared k → pending o = true → op.permitted s
  skip : ∀ {o s}, Agree o s → s.Cleared k → pending o = false → s.Cleared (k + 1)
  agree : ∀ {o s r}, Agree o s → s.Cleared k → good r = true →
    Agree (done o) (s.after ⟨op, r⟩)
  cleared : ∀ {s : Status} {r}, s.Cleared k → good r = true →
    (s.after ⟨op, r⟩).Cleared (k + 1)
  failed : ∀ {s : Status} {r}, good r = false → s.after ⟨op, r⟩ = s
  keep : ∀ o, Keep o (done o)

theorem StepBack.does {act} {good : op.Res → Bool} (hstep : StepBack pending op good done k)
    (hact : Calls act op good) (h : Inv o log) (hk : (status log).Cleared k)
    (hok : ∀ o' log', Inv o' log' → (status log').Cleared (k + 1) → Keep o o' → Q (.ok ()) o' log')
    (herr : ∀ e log', Inv o log' → Q (.error e) o log') :
    Does exec (pendingStep pending act done) Q o log := by
  refine does_get_bind ?_
  cases hp : pending o with
  | false => exact does_pure (hok o log h (hstep.skip h.agree hk hp) ⟨rfl, rfl⟩)
  | true =>
    have hop := hstep.permitted h.agree hk hp
    refine does_bind (hact o log (fun r hr => ?_) fun r e hr => ?_)
    · exact does_modify (hok _ _ (h.call hop (hstep.agree h.agree hk hr)) (hstep.cleared hk hr)
        (hstep.keep o))
    · -- a call that failed has changed nothing outside
      refine herr e _ (h.call hop ?_)
      rw [hstep.failed hr]
      exact h.agree

/-- A step back by a call that returns nothing but an error. -/
theorem StepBack.ofStep {step} {after : Status → Status}
    (hok : ∀ s, s.afterStep step (.ok ()) = after s)
    (herr : ∀ (s : Status) f, s.afterStep step (.error f) = s)
    (permitted : ∀ {o s}, Agree o s → s.Cleared k → pending o = true →
      (Op.step step).permitted s)
    (skip : ∀ {o s}, Agree o s → s.Cleared k → pending o = false → s.Cleared (k + 1))
    (agree : ∀ {o s}, Agree o s → s.Cleared k → Agree (done o) (after s))
    (cleared : ∀ {s : Status}, s.Cleared k → (after s).Cleared (k + 1))
    (keep : ∀ o, Keep o (done o)) : StepBack pending (.step step) succeeded done k where
  permitted := permitted
  skip := skip
  agree {o s r} h hk hr := by
    cases r with
    | ok =>
      rw [Status.after_step, hok s]
      exact agree h hk
    | error => cases hr
  cleared {s r} hk hr := by
    cases r with
    | ok =>
      rw [Status.after_step, hok s]
      exact cleared hk
    | error => cases hr
  failed {s r} hr := by
    cases r with
    | ok => cases hr
    | error f => exact herr s f
  keep := keep

/-- What is still there is there before the release. -/
theorem Agree.unreleased {s} (h : Agree o s) (hs : s.Cleared 4 → False) : s.released = false :=
  Bool.eq_false_iff.2 fun hr => hs (h.cleared hr)

theorem stepBack_abort : StepBack (fun o => o.writer && !o.committed) (.step .abort) succeeded
    (fun o => { o with writer := false }) 0 := by
  refine .ofStep (fun _ => rfl) (fun _ _ => rfl) (fun h _ hp => ?_) (fun h hk hp => ?_)
    (fun h _ => ?_) (fun hk => ?_) fun _ => ⟨rfl, rfl⟩
  · have hw := h.writing.symm.trans hp
    exact ⟨h.unreleased fun hk => by simp [hk.aborted] at hw, hw, h.writingOpened hw⟩
  · exact ⟨fun _ => h.writing.symm.trans hp, by omega, by omega, by omega, by omega⟩
  · exact { h with writing := rfl, writingOpened := by intro hw; cases hw
                   cleared := fun hr => { h.cleared hr with aborted := fun _ => rfl } }
  · exact ⟨fun _ => rfl, by omega, by omega, by omega, by omega⟩

theorem stepBack_finalize : StepBack (fun o => o.destinationOpened && !o.finalized) .finalize
    (fun r => (finalizeFailure r).isNone)
    (fun o => { o with destinationOpened := false, finalized := true }) 1 where
  permitted h hk hp := by
    have ho := h.opened.symm.trans hp
    exact ⟨h.unreleased fun hk => by simp [hk.finalized] at ho, hk⟩
  skip h hk hp := ⟨fun _ => hk.aborted le_rfl, fun _ => h.opened.symm.trans hp,
    by omega, by omega, by omega⟩
  agree {o s r} h hk hr := by
    simp only [Status.after, hr]
    have hw := hk.aborted le_rfl
    exact { h with opened := rfl, writingOpened := by intro h'; simp [hw] at h'
                   cleared := fun hr => { h.cleared hr with finalized := fun _ => rfl } }
  cleared {s r} hk hr := by
    simp only [Status.after, hr]
    exact ⟨fun _ => hk.aborted le_rfl, fun _ => rfl, by omega, by omega, by omega⟩
  failed {s r} hr := by
    simp [Status.after, hr]
  keep _ := ⟨rfl, rfl⟩

theorem stepBack_detach : StepBack (fun o => o.attached && !o.detached) (.step .detachUSB)
    succeeded (fun o => { o with attached := false, detached := true }) 2 := by
  refine .ofStep (fun _ => rfl) (fun _ _ => rfl) (fun h hk hp => ?_) (fun h hk hp => ?_)
    (fun h _ => ?_) (fun hk => ?_) fun _ => ⟨rfl, rfl⟩
  · have ha := h.attached.symm.trans hp
    exact ⟨h.unreleased fun hk => by simp [hk.detached] at ha, hk⟩
  · exact ⟨fun _ => hk.aborted (by omega), fun _ => hk.finalized le_rfl,
      fun _ => h.attached.symm.trans hp, by omega, by omega⟩
  · exact { h with attached := rfl
                   cleared := fun hr => { h.cleared hr with detached := fun _ => rfl } }
  · exact ⟨fun _ => hk.aborted (by omega), fun _ => hk.finalized le_rfl, fun _ => rfl, by omega,
      by omega⟩

theorem stepBack_stop : StepBack (fun o => o.booted && !o.stopped) (.step .stopExporter)
    succeeded (fun o => { o with booted := false, stopped := true }) 3 := by
  refine .ofStep (fun _ => rfl) (fun _ _ => rfl) (fun h hk hp => ?_) (fun h hk hp => ?_)
    (fun h _ => ?_) (fun hk => ?_) fun _ => ⟨rfl, rfl⟩
  · have hb := h.booted.symm.trans hp
    exact ⟨h.unreleased fun hk => by simp [hk.stopped] at hb, hk⟩
  · exact ⟨fun _ => hk.aborted (by omega), fun _ => hk.finalized (by omega),
      fun _ => hk.detached le_rfl, fun _ => h.booted.symm.trans hp, by omega⟩
  · exact { h with booted := rfl
                   cleared := fun hr => { h.cleared hr with stopped := fun _ => rfl } }
  · exact ⟨fun _ => hk.aborted (by omega), fun _ => hk.finalized (by omega),
      fun _ => hk.detached le_rfl, fun _ => rfl, by omega⟩

theorem stepBack_release : StepBack (fun o => !o.released) (.step .release) succeeded
    (fun o => { o with released := true }) 4 := by
  refine .ofStep (fun _ => rfl) (fun _ _ => rfl) (fun h hk hp => ?_) (fun h hk hp => ?_)
    (fun h hk => ?_) (fun hk => ?_) fun _ => ⟨rfl, rfl⟩
  · exact ⟨h.released.symm.trans (by simpa using hp), hk⟩
  · exact ⟨fun _ => hk.aborted (by omega), fun _ => hk.finalized (by omega),
      fun _ => hk.detached (by omega), fun _ => hk.stopped le_rfl,
      fun _ => h.released.symm.trans (by simpa using hp)⟩
  · exact { h with released := rfl, cleared := fun _ => { hk with released := by omega } }
  · exact ⟨fun _ => hk.aborted (by omega), fun _ => hk.finalized (by omega),
      fun _ => hk.detached (by omega), fun _ => hk.stopped le_rfl, fun _ => rfl⟩

theorem stepBack_audit : StepBack (fun o => !o.audited) (.step .auditAbsent) succeeded
    (fun o => { o with audited := true }) 5 := by
  refine .ofStep (fun _ => rfl) (fun _ _ => rfl) (fun _ hk _ => hk) (fun h hk hp => ?_)
    (fun h _ => ?_) (fun hk => ?_) fun _ => ⟨rfl, rfl⟩
  · exact .beyond hk rfl rfl rfl rfl rfl
  · exact { h with cleared := fun hr => { h.cleared hr with } }
  · exact @Status.Cleared.beyond _ (.afterStep _ .auditAbsent (.ok ())) hk rfl rfl rfl rfl
      rfl _

theorem Status.Cleared.zero (s : Status) : s.Cleared 0 :=
  ⟨by omega, by omega, by omega, by omega, by omega⟩

/-- **Cleanup keeps the order**, from wherever it starts and wherever it fails. -/
theorem does_cleanup {allowRunning} (h : Inv o log)
    (hend : ∀ r o' log', Inv o' log' → Keep o o' → Q r o' log') :
    Does exec (cleanup allowRunning) Q o log := by
  refine does_get_bind (does_bind (does_check ?_))
  cases failIf (o.running && !allowRunning)
      (ExportError.cause (.new "USB export cleanup is owned by the active operation")) with
  | error => exact hend _ _ _ h ⟨rfl, rfl⟩
  | ok =>
    refine does_bind (stepBack_abort.does (calls_call _ _) h (.zero _) ?_
      fun e log' h' => hend _ _ _ h' ⟨rfl, rfl⟩)
    intro o₁ log₁ h₁ hk₁ k₁
    refine does_bind (stepBack_finalize.does (calls_finalize _) h₁ hk₁ ?_
      fun e log' h' => hend _ _ _ h' k₁)
    intro o₂ log₂ h₂ hk₂ k₂
    have k₂ := k₁.trans k₂
    refine does_bind (stepBack_detach.does (calls_call _ _) h₂ hk₂ ?_
      fun e log' h' => hend _ _ _ h' k₂)
    intro o₃ log₃ h₃ hk₃ k₃
    have k₃ := k₂.trans k₃
    refine does_bind (stepBack_stop.does (calls_call _ _) h₃ hk₃ ?_
      fun e log' h' => hend _ _ _ h' k₃)
    intro o₄ log₄ h₄ hk₄ k₄
    have k₄ := k₃.trans k₄
    refine does_bind (stepBack_release.does (calls_call _ _) h₄ hk₄ ?_
      fun e log' h' => hend _ _ _ h' k₄)
    intro o₅ log₅ h₅ hk₅ k₅
    have k₅ := k₄.trans k₅
    exact stepBack_audit.does (calls_call _ _) h₅ hk₅
      (fun o₆ log₆ h₆ _ k₆ => hend _ _ _ h₆ (k₅.trans k₆)) fun e log' h' => hend _ _ _ h' k₅

end PrivateVm.Usb
