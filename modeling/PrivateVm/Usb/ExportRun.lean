import PrivateVm.Usb.ExportOrder

set_option autoImplicit false

/-! # A whole USB export

The stages of `Run` one after the other: each keeps the order of the way back, and what the
stages have left in the history is what the receipt stands for. `Run` and any later `Run` and
`Cleanup` calls then keep the order.
-/

namespace PrivateVm.Usb

open Checked Program Program.Method Transfer

/-! ## The stages of Run

Every stage of `Run` either goes on or ends in an error after `cleanup`. -/

/-- A stage goes on with `P`, or ends in an error with the order kept. -/
def Reaches {α : Type} (P : α → ExportOperation → List Entry → Prop) :
    Except ExportError α → ExportOperation → List Entry → Prop
  | .ok a, o, log => P a o log
  | .error _, o, log => Inv o log

def Stage {α : Type} (m : Export α) (P : α → ExportOperation → List Entry → Prop)
    (o : ExportOperation) (log : List Entry) : Prop :=
  Does exec m (Reaches P) o log

/-- The operation agrees with a history that amounts to `s`. -/
structure At (o : ExportOperation) (log : List Entry) (s : Status) : Prop where
  agree : Agree o s
  ordered : Ordered log
  status : status log = s

variable {o : ExportOperation} {log : List Entry}

theorem At.inv {s} (h : At o log s) : Inv o log :=
  ⟨h.status ▸ h.agree, h.ordered⟩

theorem Inv.at (h : Inv o log) : At o log (status log) :=
  ⟨h.agree, h.ordered, rfl⟩

section

variable {α β : Type} {o : ExportOperation} {log : List Entry} {s : Status}
  {P : β → ExportOperation → List Entry → Prop} {f : α → Export β}

theorem At.call {o'} (h : At o log s) (op : Op) (r : op.Res) (hop : op.permitted s)
    (hagree : Agree o' (s.after ⟨op, r⟩)) : At o' (⟨op, r⟩ :: log) (s.after ⟨op, r⟩) :=
  ⟨hagree, ⟨h.status.symm ▸ hop, h.ordered⟩, h.status ▸ rfl⟩

/-- The answer of a call is any. -/
theorem stage_invoke_bind {op : Op} {f : op.Res → Export β}
    (hf : ∀ r, Stage (f r) P o (⟨op, r⟩ :: log)) : Stage (invoke op >>= f) P o log :=
  does_invoke_bind fun x => hf (x op)

theorem stage_bind {m} {R : α → ExportOperation → List Entry → Prop} (hm : Stage m R o log)
    (hf : ∀ a o' log', R a o' log' → Stage (f a) P o' log') : Stage (m >>= f) P o log := by
  refine does_bind (.post hm fun r o' log' hr => ?_)
  cases r with
  | ok a => exact hf a o' log' hr
  | error => exact hr

variable {state : ExportState} {code message : String} {current total : Nat}
  {output : ApprovedOutput} {sha256 : Bytes → Digest}

/-- An event changes the counter of events only. -/
theorem does_emit {Q : Except ExportError Unit → ExportOperation → List Entry → Prop}
    (h : At o log s)
    (hend : ∀ r n log', At { o with sequence := n } log' s → Q r { o with sequence := n } log') :
    Does exec (emit state code message current total) Q o log := by
  unfold emit
  refine does_check_bind (fun e _ => hend _ o.sequence log h) fun u _ => ?_
  have hseq : Agree { o with sequence := o.sequence + 1 } s := { h.agree with }
  have hcall : ∀ e r, At { o with sequence := o.sequence + 1 } (⟨.step (.event e), r⟩ :: log) s :=
    fun e r => h.call _ r trivial hseq
  exact calls_call _ _ _ _ (fun r _ => hend _ _ _ (hcall _ r)) fun r e _ => hend _ _ _ (hcall _ r)

variable {e : ExportError} {f : Unit → Export β}

/-- A failure ends in an error, whatever `cleanup` could do. -/
theorem does_failWith {Q : Except ExportError α → ExportOperation → List Entry → Prop}
    (h : At o log s) (hend : ∀ e o' log', Inv o' log' → Q (.error e) o' log') :
    Does exec (failWith code message e) Q o log := by
  refine does_settle_bind (does_emit h fun _ n log' h' => ?_)
  refine does_bind (does_cleanup h'.inv fun r o'' log'' h'' _ => ?_)
  cases r with
  | ok => exact does_throw (hend _ _ _ h'')
  | error => exact hend _ _ _ h''

theorem stage_modify_bind {g : ExportOperation → ExportOperation} (hf : Stage (f ()) P (g o) log) :
    Stage (modify g >>= f) P o log :=
  does_modify_bind hf

theorem Agree.booting (h : Agree o s) (hheld : s.released = false) (hstop : o.stopped = false) :
    Agree { o with booted := true } { s with booted := true } :=
  { h with booted := by simp [hstop], cleared := fun hr => by simp [hheld] at hr }

theorem Agree.attaching (h : Agree o s) (hheld : s.released = false) (hdet : o.detached = false) :
    Agree { o with attached := true } { s with attached := true } :=
  { h with attached := by simp [hdet], cleared := fun hr => by simp [hheld] at hr }

/-- A call whose failure ends the run. What the fields say before it, and after it unless it
fails, is for the stage to say. -/
theorem stage_perform_bind {step : Step} (hord : Ordered log) (hs : status log = s)
    (hop : (Op.step step).permitted s) (hfail : ∀ fault, Agree o (s.afterStep step (.error fault)))
    (hf : ∀ log', Ordered log' → status log' = s.afterStep step (.ok ()) →
      Stage (f ()) P o log') : Stage (perform step message >>= f) P o log := by
  refine does_bind (does_invoke_bind fun x => ?_)
  simp only [exec]
  subst hs
  cases x (.step step) with
  | ok => exact does_pure (hf _ ⟨hop, hord⟩ rfl)
  | error fault =>
    exact does_failWith (s := (status log).afterStep step (.error fault))
      ⟨hfail fault, ⟨hop, hord⟩, rfl⟩ fun _ _ _ h' => h'

variable {cause : Option Cause} {step : Step} {relayed : Bytes} (h : At o log s)

include h

theorem stage_failWith : Stage (failWith code message e) P o log :=
  does_failWith h fun _ _ _ h' => h'

theorem stage_fail : Stage (fail message cause) P o log := stage_failWith h

theorem stage_announce {P : Unit → ExportOperation → List Entry → Prop}
    (hend : ∀ n log', At { o with sequence := n } log' s → P () { o with sequence := n } log') :
    Stage (announce state code message current total) P o log := by
  refine does_settle_bind (does_emit h fun r n log' h' => ?_)
  cases r with
  | ok => exact does_pure (hend n log' h')
  | error => exact stage_fail h'

theorem stage_announce_bind (hf : ∀ n log', At { o with sequence := n } log' s →
      Stage (f ()) P { o with sequence := n } log') :
    Stage (announce state code message current total >>= f) P o log :=
  stage_bind (stage_announce h hf) fun _ _ _ h' => h'

theorem stage_require_bind {p : Prop} [Decidable p] (hf : p → Stage (f ()) P o log) :
    Stage (require p message >>= f) P o log := by
  refine does_bind ?_
  by_cases hp : p
  · rw [require, if_pos hp]
    exact does_pure (hf hp)
  · rw [require, if_neg hp]
    exact does_failWith h fun _ _ _ h' => h'

/-- A call that changes nothing that has to be undone. -/
theorem stage_neutral_bind (hneut : ∀ r, s.afterStep step r = s) (hop : (Op.step step).permitted s)
    (hf : ∀ log', At o log' s → Stage (f ()) P o log') :
    Stage (perform step message >>= f) P o log :=
  stage_perform_bind h.ordered h.status hop (fun _ => (hneut _).symm ▸ h.agree)
    fun log' hord hs => hf log' ⟨h.agree, hord, hs.trans (hneut _)⟩

/-! ### The stages -/

/-- The exporter and the device count as there from the first attempt on. -/
theorem stage_prepareExporter {claim} (hheld : s.released = false) (hstop : o.stopped = false)
    (hdet : o.detached = false) : Stage (prepareExporter claim total)
      (fun _ o' log' => ∃ n, o' = { o with booted := true, attached := true, sequence := n } ∧
        At o' log' { s with booted := true, attached := true }) o log := by
  refine stage_announce_bind h fun _ log h => ?_
  refine stage_neutral_bind h (fun _ => rfl) trivial fun log h => stage_modify_bind ?_
  -- the boot
  have hboot := h.agree.booting hheld hstop
  refine stage_perform_bind h.ordered h.status hheld (fun _ => hboot) fun log hord hs => ?_
  refine stage_announce_bind ⟨hboot, hord, hs⟩ fun _ log h => ?_
  refine stage_neutral_bind h (fun _ => rfl) trivial fun log h => ?_
  refine stage_announce_bind h fun _ log h => stage_modify_bind ?_
  -- the attachment
  have hattach := h.agree.attaching hheld hdet
  refine stage_perform_bind h.ordered h.status hheld (fun _ => hattach) fun log hord hs => ?_
  refine stage_neutral_bind ⟨hattach, hord, hs⟩ (fun _ => rfl) trivial fun log h => ?_
  exact stage_announce h fun n log h => ⟨n, rfl, h⟩

/-- A destination is open from the moment there is a writer. -/
theorem stage_beginWrite (hheld : s.released = false) (hcom : o.committed = false)
    (hfin : o.finalized = false) : Stage (beginWrite output) (fun _ o' log' =>
      ∃ n, o' = { o with writer := true, destinationOpened := true, sequence := n } ∧
        At o' log' { s with opened := true, writing := true }) o log := by
  refine stage_invoke_bind ?_
  rintro ⟨made, fault⟩
  cases made with
  | false =>
    have h' : At o (⟨.begin output, (false, fault)⟩ :: log) s :=
      h.call (.begin output) (false, fault) hheld h.agree
    rw [if_neg (by simp), if_pos (by simp)]
    exact stage_fail h'
  | true =>
    have hopen : Agree { o with writer := true, destinationOpened := true }
        { s with opened := true, writing := true } :=
      { h.agree with writing := by simp [hcom], opened := by simp [hfin]
                     writingOpened := fun _ => rfl
                     cleared := fun hr => by simp [hheld] at hr }
    have h' := h.call (.begin output) (true, fault) hheld hopen
    refine stage_modify_bind ?_
    cases fault with
    | some => exact stage_fail h'
    | none => exact stage_announce h' fun n log h => ⟨n, rfl, h⟩

omit h in
/-- The bytes relayed are those obtained from the source. -/
theorem stage_relayChunks (n : Nat) :
    ∀ relayed expected o log s,
    At o log s → s.obtained = relayed →
    Stage (relayChunks output n relayed expected)
      (fun bytes o' log' => (∃ m, o' = { o with sequence := m }) ∧
        At o' log' { s with obtained := bytes }) o log := by
  induction n with
  | zero => exact fun _ _ _ _ _ h _ => stage_fail h
  | succ n ih =>
    rintro _ expected o log s h rfl
    refine stage_invoke_bind fun r => ?_
    cases r with
    | eof => exact does_pure ⟨⟨o.sequence, rfl⟩, h.call .next .eof trivial h.agree⟩
    | failed f => exact stage_fail (h.call .next (.failed f) trivial h.agree)
    | chunk c =>
      have hagree : Agree o (s.after ⟨.next, .chunk c⟩) :=
        { h.agree with cleared := fun hr => { h.agree.cleared hr with } }
      have h' := h.call .next (.chunk c) trivial hagree
      refine stage_require_bind h' fun _ => ?_
      refine stage_neutral_bind h' (fun _ => rfl) trivial fun log h' => ?_
      refine stage_announce_bind h' fun m log h' => ?_
      exact ih _ _ _ _ (s.after ⟨.next, .chunk c⟩) h' rfl

theorem stage_finishStream : Stage (finishStream sha256 output relayed)
      (fun _ o' log' => (∃ n, o' = { o with sequence := n, sourceClosed := true }) ∧ At o' log' s ∧
        output.sourceDigest = sha256 relayed) o log := by
  refine stage_require_bind h fun _ => stage_invoke_bind fun r => stage_modify_bind ?_
  have h' : At { o with sourceClosed := true } (⟨.step .closeSource, r⟩ :: log) s :=
    h.call (.step .closeSource) r trivial { h.agree with }
  cases r with
  | error => exact stage_fail h'
  | ok =>
    by_cases hd : output.sourceDigest = sha256 relayed
    · rw [if_pos hd]
      exact stage_announce h' fun n log h => ⟨⟨n, rfl⟩, h, hd⟩
    · rw [if_neg hd]
      exact stage_failWith h'

/-- Once the write is committed there is nothing to abort. -/
theorem stage_commitWrite : Stage (commitWrite sha256 output relayed)
      (fun evidence o' log' =>
        (∃ n, o' = { o with committed := true, writer := false, sequence := n }) ∧
        At o' log' { s with writing := false, evidence := some evidence } ∧
        sha256 relayed = evidence.receivedDigest ∧
        sha256 relayed = evidence.rereadDigest) o log := by
  refine stage_invoke_bind fun r => ?_
  cases r with
  | error f => exact stage_fail (h.call (.commit _ _) (.error f) trivial h.agree)
  | ok evidence =>
    refine stage_modify_bind ?_
    have hagree : Agree { o with committed := true, writer := false }
        { s with writing := false, evidence := some evidence } :=
      { h.agree with writing := rfl, writingOpened := by intro hw; cases hw
                     cleared := fun hr => { h.agree.cleared hr with aborted := fun _ => rfl } }
    have h' := h.call (.commit relayed.length (sha256 relayed)) (.ok evidence) trivial hagree
    refine stage_require_bind h' fun _ => ?_
    by_cases hd : sha256 relayed = evidence.receivedDigest ∧ sha256 relayed = evidence.rereadDigest
    · rw [if_pos hd]
      refine stage_announce_bind h' fun _ log h => stage_announce_bind h fun n log h => ?_
      exact does_pure ⟨⟨n, rfl⟩, h, hd⟩
    · rw [if_neg hd]
      exact stage_failWith h'

theorem stage_callFinalize (hheld : s.released = false) (hk : s.Cleared 1) :
    Stage (callFinalize (fail message)) (fun _ o' log' => o' = o ∧ Ordered log' ∧
      status log' = { s with opened := false, finalized := true }) o log := by
  refine stage_invoke_bind fun r => ?_
  cases hr : finalizeFailure r with
  | some =>
    refine stage_fail (h.call .finalize r ⟨hheld, hk⟩ ?_)
    rw [stepBack_finalize.failed (by rw [hr]; rfl)]
    exact h.agree
  | none =>
    refine does_pure ⟨rfl, ⟨h.status.symm ▸ ⟨hheld, hk⟩, h.ordered⟩, ?_⟩
    simp only [status, h.status, Status.after, hr, Option.isNone_none, if_true]

/-- What the way back leaves. -/
def Status.takenDown (s : Status) : Status :=
  { s with opened := false, finalized := true, attached := false, detached := true,
           booted := false, stopped := true, released := true, audited := true }

theorem stage_takeDown {written : Nat} (hheld : s.released = false) (hk : s.Cleared 1) :
    Stage (takeDown written total) (fun _ o' log' => At o' log' s.takenDown) o log := by
  refine stage_bind (stage_callFinalize h hheld hk) ?_
  rintro _ o log ⟨rfl, hord, hs⟩
  refine stage_modify_bind ?_
  have hk₂ : Status.Cleared { s with opened := false, finalized := true } 2 :=
    ⟨fun _ => hk.aborted le_rfl, fun _ => rfl, by omega, by omega, by omega⟩
  have hagree : Agree { o with finalized := true, destinationOpened := false }
      { s with opened := false, finalized := true } :=
    { h.agree with opened := by simp
                   writingOpened := fun hw => absurd hw (by simp [hk.aborted le_rfl])
                   cleared := fun hr => by simp [hheld] at hr }
  refine stage_announce_bind ⟨hagree, hord, hs⟩ fun _ log h => ?_
  refine stage_perform_bind h.ordered h.status ⟨hheld, hk₂⟩ (fun _ => h.agree)
    fun log hord hs => stage_modify_bind ?_
  have hk₃ := stepBack_detach.cleared (r := .ok ()) hk₂ rfl
  refine stage_announce_bind ⟨stepBack_detach.agree (r := .ok ()) h.agree hk₂ rfl, hord, hs⟩
    fun _ log h => ?_
  refine stage_perform_bind h.ordered h.status ⟨hheld, hk₃⟩ (fun _ => h.agree)
    fun log hord hs => stage_modify_bind ?_
  have hk₄ := stepBack_stop.cleared (r := .ok ()) hk₃ rfl
  refine stage_announce_bind ⟨stepBack_stop.agree (r := .ok ()) h.agree hk₃ rfl, hord, hs⟩
    fun _ log h => ?_
  refine stage_perform_bind h.ordered h.status ⟨hheld, hk₄⟩ (fun _ => h.agree)
    fun log hord hs => stage_modify_bind ?_
  have hk₅ := stepBack_release.cleared (r := .ok ()) hk₄ rfl
  have h : At _ log _ := ⟨stepBack_release.agree (r := .ok ()) h.agree hk₄ rfl, hord, hs⟩
  refine stage_perform_bind h.ordered h.status hk₅ (fun _ => h.agree) fun log hord hs => ?_
  exact does_modify ⟨stepBack_audit.agree (r := .ok ()) h.agree hk₅ rfl, hord, hs⟩

/-- What a receipt for `output` stands for: the bytes obtained have the approved digest, the
exporter received and reread that digest, and everything was taken down. -/
structure Evidenced (sha256 : Bytes → Digest) (output : ApprovedOutput) (s : Status) : Prop where
  source : sha256 s.obtained = output.sourceDigest
  exporter : ∃ evidence, s.evidence = some evidence ∧
    evidence.receivedDigest = output.sourceDigest ∧ evidence.rereadDigest = output.sourceDigest
  finalized : s.finalized = true
  detached : s.detached = true
  stopped : s.stopped = true
  released : s.released = true
  audited : s.audited = true

theorem stage_exportOutput (hfr : Fresh o) (hheld : s.released = false) (hobt : s.obtained = []) :
    Stage (exportOutput sha256 output)
      (fun _ o' log' => Inv o' log' ∧ Evidenced sha256 output (status log')) o log := by
  refine does_get_bind ?_
  cases output.validate o.maxBytes with
  | error => exact stage_fail h
  | ok =>
  by_cases hsize : output.size > o.capacity
  · simp only [if_pos hsize]
    exact stage_failWith h
  simp only [if_neg hsize]
  refine stage_invoke_bind fun r => ?_
  cases r with
  | error f =>
    refine does_bind (does_cleanup (h.call .revalidate (.error f) trivial h.agree).inv ?_)
    intro r o' log' h' _
    cases r with
    | error => exact h'
    | ok => exact does_throw h'
  | ok claim =>
    have h := h.call .revalidate (.ok claim) trivial h.agree
    refine stage_bind (stage_prepareExporter h hheld hfr.stopped hfr.detached) ?_
    rintro _ _ log ⟨n, rfl, h⟩
    refine stage_bind (stage_beginWrite h hheld hfr.committed hfr.finalized) ?_
    rintro _ _ log ⟨m, rfl, h⟩
    refine stage_bind (stage_relayChunks _ _ _ _ _ _ h hobt) ?_
    rintro relayed _ log ⟨⟨m, rfl⟩, h⟩
    refine stage_bind (stage_finishStream h) ?_
    rintro _ _ log ⟨⟨m, rfl⟩, h, hsrc⟩
    refine stage_bind (stage_commitWrite h) ?_
    rintro evidence _ log ⟨⟨m, rfl⟩, h, hrec, hrer⟩
    have hk : Status.Cleared { s with
        booted := true, attached := true, opened := true, writing := false,
        obtained := relayed, evidence := some evidence } 1 :=
      ⟨fun _ => rfl, by omega, by omega, by omega, by omega⟩
    refine stage_bind (stage_takeDown h hheld hk) ?_
    intro _ o' log' h'
    refine stage_modify_bind (does_pure ⟨?_, ?_⟩)
    · exact ⟨{ h'.inv.agree with }, h'.ordered⟩
    · rw [h'.status]
      exact ⟨hsrc.symm, ⟨evidence, rfl, hrec.symm.trans hsrc.symm,
        hrer.symm.trans hsrc.symm⟩, rfl, rfl, rfl, rfl, rfl⟩

theorem stage_closeUnclosed_bind (hf : ∀ log', At o log' s → Stage (f ()) P o log') :
    Stage (closeUnclosed >>= f) P o log := by
  refine does_bind (does_get_bind ?_)
  by_cases hc : o.sourceClosed = true
  · rw [if_pos hc]
    exact does_pure (hf log h)
  · rw [if_neg hc]
    refine does_invoke_bind fun x => does_pure (hf _ ?_)
    exact h.call (.step .closeSource) _ trivial h.agree

theorem stage_runSource {source} (hfr : Fresh o) (hheld : s.released = false)
    (hobt : s.obtained = []) :
    Stage (runSource sha256 source)
      (fun _ o' log' => Inv o' log' ∧ ∃ output, source = some output ∧
        Evidenced sha256 output (status log')) o log := by
  cases source with
  | none => exact stage_fail h
  | some output =>
    refine does_settle_bind (.post (stage_exportOutput h hfr hheld hobt) ?_)
    intro r o' log' hr
    cases r with
    | error => exact stage_closeUnclosed_bind hr.at fun log'' h'' => does_check h''.inv
    | ok =>
      refine stage_closeUnclosed_bind hr.1.at fun log'' h'' => ?_
      exact does_check ⟨h''.inv, output, rfl, h''.status.symm ▸ hr.2⟩

end

/-- What `Run` and `Cleanup` find and leave: nothing is begun until `Run` has run. -/
structure Idle (o : ExportOperation) (log : List Entry) : Prop extends Inv o log where
  running : o.running = false
  fresh : o.finished = false → Fresh o ∧ log = []

variable {sha256 : Bytes → Digest}

/-- **One run.** -/
theorem does_run {source} (h : Idle o log) :
    Does exec (run sha256 source) (fun r o' log' => Idle o' log' ∧
      ∀ receipt, r = .ok receipt → ∃ output, source = some output ∧
        Evidenced sha256 output (status log')) o log := by
  refine does_get_bind (does_check_bind (fun e _ => ⟨h, by intro _ h; cases h⟩) fun u hu => ?_)
  have hfin : o.finished = false := by
    simp_all
  obtain ⟨hfr, rfl⟩ := h.fresh hfin
  have h' : At { o with running := true } [] {} := ⟨{ h.agree with }, h.ordered, rfl⟩
  refine does_modify_bind (does_settle_bind ?_)
  refine .post (stage_runSource h' { hfr with } rfl rfl) fun r o' log' hr => ?_
  refine does_modify_bind (does_check ?_)
  cases r with
  | error =>
    refine ⟨⟨⟨{ hr.agree with }, hr.ordered⟩, rfl, ?_⟩, ?_⟩
    · intro hf
      cases hf
    · intro _ hf
      cases hf
  | ok =>
    refine ⟨⟨⟨{ hr.1.agree with }, hr.1.ordered⟩, rfl, ?_⟩, fun _ _ => hr.2⟩
    intro hf
    cases hf

theorem does_cleanup_idle (h : Idle o log) (hfin : o.finished = true) :
    Does exec (cleanup false) (fun _ o' log' => Idle o' log') o log := by
  refine does_cleanup h.toInv fun r o' log' h' hkeep => ⟨h', hkeep.running.trans h.running, ?_⟩
  intro hf
  cases hfin.symm.trans (hkeep.finished.symm.trans hf)

/-! ## Any sequence of calls -/

/-- A receipt that was returned, with the source and the history at that moment. -/
structure Returned where
  source : Option ApprovedOutput
  receipt : ExportReceipt
  log : List Entry

/-- The operation, everything it has called, and the receipts it has returned. -/
structure World where
  operation : ExportOperation
  log : List Entry
  returned : List Returned

inductive Move where
  | run (source : Option ApprovedOutput) (answers : Nat → Answer)
  | cleanup (answers : Nat → Answer)

def World.step (sha256 : Bytes → Digest) : Move → World → World
  | .run source answers, w =>
    let out := (run sha256 source).outcome exec answers w.operation w.log
    { operation := out.1.2
      log := out.2
      returned := match out.1.1 with
        | .ok receipt => ⟨source, receipt, out.2⟩ :: w.returned
        | .error _ => w.returned }
  | .cleanup answers, w =>
    let out := (cleanup false).outcome exec answers w.operation w.log
    { w with operation := out.1.2, log := out.2 }

/-- An operation with which nothing has been done. -/
def World.created (maxBytes : Nat) (enrollmentID : String) (capacity : Nat) : World :=
  ⟨{ maxBytes, enrollmentID, capacity }, [], []⟩

def exportMachine (sha256 : Bytes → Digest) : Machine World Move where
  init w := ∃ maxBytes enrollmentID capacity, w = .created maxBytes enrollmentID capacity
  step := World.step sha256

/-- The `Cleanup` calls are later than `Run`: one before it releases the claim that `Run` asks
for. -/
def Move.later : Move → World → Bool
  | .run _ _, _ => true
  | .cleanup _, w => w.operation.finished

structure World.Good (sha256 : Bytes → Digest) (w : World) : Prop where
  idle : Idle w.operation w.log
  returned : ∀ x ∈ w.returned, ∃ output, x.source = some output ∧
    Evidenced sha256 output (status x.log)

theorem created_good (sha256 : Bytes → Digest) (maxBytes : Nat) (enrollmentID : String)
    (capacity : Nat) : (World.created maxBytes enrollmentID capacity).Good sha256 where
  idle := by
    refine ⟨⟨⟨rfl, rfl, ?_, rfl, rfl, rfl, ?_⟩, trivial⟩, rfl, fun _ => ⟨?_, rfl⟩⟩
    iterate 2
      · intro h
        cases h
    exact ⟨rfl, rfl, rfl, rfl, rfl, rfl, rfl, rfl⟩
  returned := by
    intro x hx
    cases hx

theorem World.Good.step {w : World} (h : w.Good sha256) (m : Move) (hm : m.later w = true) :
    (w.step sha256 m).Good sha256 := by
  cases m with
  | run source answers =>
    obtain ⟨hidle, hrcpt⟩ := (@does_run _ _ sha256 source h.idle).outcome answers
    refine ⟨hidle, ?_⟩
    simp only [World.step]
    split
    next receipt hr =>
      intro x hx
      rcases List.mem_cons.1 hx with rfl | hx
      · exact hrcpt receipt hr
      · exact h.returned x hx
    next => exact h.returned
  | cleanup answers => exact ⟨(does_cleanup_idle h.idle hm).outcome answers, h.returned⟩

/-- **The order and the evidence of an export**: however often `Cleanup` is called after `Run`
and whatever fails, the calls of the way back come in their order, the claim being released only
when nothing is left to stop, detach or finalize and nothing is booted, attached or opened
afterwards; and a receipt is returned only with all the evidence. -/
theorem export_ordered_and_evidenced (sha256 : Bytes → Digest) {w : World}
    (h : (exportMachine sha256).Reachable (fun m w => m.later w = true) w) :
    Ordered w.log ∧ ∀ x ∈ w.returned, ∃ output, x.source = some output ∧
      Evidenced sha256 output (status x.log) := by
  have hgood : w.Good sha256 := by
    refine Machine.Reachable.inv ?_ (fun m _ hm h => h.step m hm) h
    rintro _ ⟨maxBytes, enrollmentID, capacity, rfl⟩
    exact created_good sha256 maxBytes enrollmentID capacity
  exact ⟨hgood.idle.ordered, hgood.returned⟩

def sampleDigest : Digest := Vector.replicate 32 1

def sampleOutput : ApprovedOutput where
  sourceRole := .scanner
  outputID := "output-1"
  logicalName := "a.pdf"
  mediaType := "application/pdf"
  size := 1
  sourceDigest := sampleDigest
  reportAuthenticated := true
  reportComplete := true
  policyApproved := true
  reconstructed := true
  exportStateAuthenticated := false
  exportStateReady := false
  workspaceDestinationAuthorized := false

/-- Everything succeeds; the source has one chunk of one byte. -/
def sampleAnswers (n : Nat) : Answer
  | .step _ => .ok ()
  | .revalidate => .ok ⟨"usb", "session", 7, stickDevice, 0⟩
  | .begin _ => (true, none)
  | .next => if n < 13 then .chunk ⟨0, [7]⟩ else .eof
  | .commit _ _ => .ok ⟨1, sampleDigest, sampleDigest, true, true, true⟩
  | .finalize => .ok ⟨true, true⟩

def sampleRun : World :=
  (exportMachine fun _ => sampleDigest).play
    [.run (some sampleOutput) sampleAnswers, .cleanup sampleAnswers]
    (.created 10 "usb" 10)

theorem export_ordered_and_evidenced_sample :
    sampleRun.returned.length = 1 ∧ Ordered sampleRun.log ∧
      ∀ x ∈ sampleRun.returned, ∃ output, x.source = some output ∧
        Evidenced (fun _ => sampleDigest) output (status x.log) :=
  ⟨by decide +kernel, export_ordered_and_evidenced _
    (Machine.reachable_play (fun _ _ h => h) ⟨10, "usb", 10, rfl⟩ (by decide +kernel))⟩

end PrivateVm.Usb
