import PrivateVm.Usb.Enrollment
import PrivateVm.Usb.Export
import PrivateVm.Usb.Sources

set_option autoImplicit false

/-! # Admission to a USB export

The operation that the host workflow creates has the default options. Whether its `Run` goes on
with an output, that is, revalidates the claim, or refuses it after the exporter was prepared,
is decided by the size that the options admit.
-/

namespace PrivateVm.Usb

open Checked Program Program.Method Transfer

/-! ## Options -/

def maximumExportBytes : Nat := 16 * 1024 * 1024 * 1024 * 1024

/-- Durations are in nanoseconds. -/
def second : Int := 1000000000
def maximumExportDuration : Int := 24 * 3600 * second
def maximumIdleDuration : Int := 5 * 60 * second

structure ExportOptions where
  maxBytes : Nat := 0
  timeout : Int := 0
  idleTimeout : Int := 0
  deriving DecidableEq

def defaultMaxBytes : Nat := 4 * 1024 * 1024 * 1024

/-- Zero stands for the default. -/
def ExportOptions.defaulted (o : ExportOptions) : ExportOptions where
  maxBytes := if o.maxBytes = 0 then defaultMaxBytes else o.maxBytes
  timeout := if o.timeout = 0 then 2 * 3600 * second else o.timeout
  idleTimeout := if o.idleTimeout = 0 then 30 * second else o.idleTimeout

def ExportOptions.normalized (options : ExportOptions) : Except String ExportOptions := do
  let o := options.defaulted
  failIf (o.maxBytes > maximumExportBytes ∨ o.timeout ≤ 0 ∨ o.timeout > maximumExportDuration ∨
      o.idleTimeout ≤ 0 ∨ o.idleTimeout > maximumIdleDuration ∨ o.idleTimeout > o.timeout)
    "USB export bounds are invalid"
  return o

/-! ## Operations -/

def ExportOptions.newExportOperation (sha256 : Bytes → Digest) (options : ExportOptions)
    (claimID sessionID : String) (enrollment : Enrollment) : Except String ExportOperation := do
  let normalized ← options.normalized
  enrollment.validate sha256
  failIf (claimID = "" ∨ sessionID = "") "USB export requires a claim and session"
  return {
    maxBytes := normalized.maxBytes
    enrollmentID := enrollment.enrollmentID
    capacity := enrollment.identity.capacity }

/-- The operation that `exportSource` creates. -/
def workflowOperation (sha256 : Bytes → Digest) (claimID sessionID : String)
    (enrollment : Enrollment) : Except String ExportOperation :=
  ExportOptions.newExportOperation sha256 {} claimID sessionID enrollment

variable {o : ExportOperation} {sha256 : Bytes → Digest} {claimID sessionID : String}
  {enrollment : Enrollment} {output : ApprovedOutput} {α : Type}

theorem workflowOperation_eq_ok (h : workflowOperation sha256 claimID sessionID enrollment = .ok o)
    :
    o = { maxBytes := defaultMaxBytes, enrollmentID := enrollment.enrollmentID,
          capacity := enrollment.identity.capacity } := by
  simp only [workflowOperation, ExportOptions.newExportOperation, bind_eq_ok, pure_eq_ok] at h
  obtain ⟨-, ⟨-, -, rfl⟩, -, -, -, -, rfl⟩ := h
  rfl

/-! ## What Run refuses -/

/-- `Run` has gone on to revalidate the claim. -/
def Revalidated (log : List Entry) : Prop := ∃ r, (⟨.revalidate, r⟩ : Entry) ∈ log

/-- Only the size of an output depends on the bound it is validated against. -/
theorem ApprovedOutput.validate_iff {bound : Nat} (h : output.validate bound = .ok ()) (limit : Nat)
    :
    output.validate limit = .ok () ↔ output.size ≤ limit := by
  simp only [ApprovedOutput.validate, bind_eq_ok, failIf_eq_ok, exists_const, not_or,
    Nat.not_lt] at h ⊢
  obtain ⟨hid, hname, hmedia, ⟨hzero, -, hdig⟩, hevid⟩ := h
  constructor
  · rintro ⟨-, -, -, ⟨-, hsize, -⟩, -⟩
    exact hsize
  · intro hsize
    exact ⟨hid, hname, hmedia, ⟨hzero, hsize, hdig⟩, hevid⟩

/-- A call other than the revalidation. -/
def Other (o : Op) : Prop := o ≠ .revalidate

theorem uses_call_step (step : Step) (wrap : Fault → ExportError) : Uses Other (call step wrap) :=
  uses_bind (uses_invoke (by simp [Other])) fun _ => uses_check _

theorem uses_pendingStep {pending : ExportOperation → Bool} {act : Export Unit}
    {done : ExportOperation → ExportOperation} (hact : Uses Other act) :
    Uses Other (pendingStep pending act done) := by
  refine uses_bind uses_get fun o => ?_
  split
  · exact uses_bind hact fun _ => uses_modify _
  · exact uses_pure _

theorem uses_finalizeDestination : Uses Other finalizeDestination := by
  refine uses_pendingStep (uses_bind (uses_invoke (by simp [Other])) fun r => ?_)
  split
  · exact uses_pure _
  · exact uses_throw _

theorem uses_cleanup (allowRunning : Bool) : Uses Other (cleanup allowRunning) := by
  refine uses_bind uses_get fun o => uses_bind (uses_check _) fun _ => ?_
  refine uses_bind (uses_pendingStep (uses_call_step _ _)) fun _ => ?_
  refine uses_bind uses_finalizeDestination fun _ => ?_
  refine uses_bind (uses_pendingStep (uses_call_step _ _)) fun _ => ?_
  refine uses_bind (uses_pendingStep (uses_call_step _ _)) fun _ => ?_
  exact uses_bind (uses_pendingStep (uses_call_step _ _)) fun _ =>
    uses_pendingStep (uses_call_step _ _)

theorem uses_emit (state : ExportState) (code message : String) (current total : Nat) :
    Uses Other (emit state code message current total) := by
  unfold emit
  exact uses_bind (uses_check _) fun _ => uses_bind (uses_modify _) fun _ =>
    uses_bind uses_get fun o => uses_call_step _ _

theorem uses_failWith (code message : String) (e : ExportError) :
    Uses Other (failWith code message e : Export α) :=
  uses_bind (uses_settle (uses_emit _ _ _ _ _)) fun _ =>
    uses_bind (uses_cleanup true) fun _ => uses_throw e

theorem uses_closeUnclosed : Uses Other closeUnclosed := by
  refine uses_bind uses_get fun o => ?_
  split
  · exact uses_pure _
  · exact uses_bind (uses_invoke (by simp [Other])) fun _ => uses_pure _

/-- No other call revalidates the claim. -/
theorem does_not_revalidate {m : Export α} {log : List Entry} (hm : Uses Other m)
    (hlog : ¬ Revalidated log) : Does exec m (fun _ _ log' => ¬ Revalidated log') o log := by
  refine Uses.does hm ?_ o hlog
  rintro o x log ho h ⟨r, hr⟩
  rcases List.mem_cons.1 hr with heq | hmem
  · exact ho (congrArg Sigma.fst heq).symm
  · exact h ⟨r, hmem⟩

theorem revalidated_exec (o : Op) (x : Answer) (log : List Entry) (h : Revalidated log) :
    Revalidated (exec o x log).2 := by
  obtain ⟨r, hr⟩ := h
  exact ⟨r, List.mem_cons_of_mem _ hr⟩

/-- The outputs that `Run` goes on with. -/
def ExportOperation.Admits (o : ExportOperation) (output : ApprovedOutput) : Prop :=
  output.validate o.maxBytes = .ok () ∧ output.size ≤ o.capacity

section

variable (sha256 : Bytes → Digest) (output : ApprovedOutput) {o : ExportOperation}
  {log : List Entry}

theorem does_exportOutput (hlog : ¬ Revalidated log) :
    Does exec (exportOutput sha256 output)
      (fun _ _ log' => Revalidated log' ↔ o.Admits output) o log := by
  have href : ∀ {α : Type} (m : Export α), Uses Other m → ¬ o.Admits output →
      Does exec m (fun _ _ log' => Revalidated log' ↔ o.Admits output) o log := by
    intro α m hm hnot
    exact (does_not_revalidate hm hlog).post fun _ _ _ h => iff_of_false h hnot
  refine does_get_bind ?_
  split
  · rename_i herr
    refine href _ (uses_failWith _ _ _) fun hadm => ?_
    cases herr.symm.trans hadm.1
  rename_i hval
  by_cases hsize : output.size > o.capacity
  · rw [if_pos hsize]
    exact href _ (uses_failWith _ _ _) fun hadm => absurd hadm.2 (Nat.not_le.2 hsize)
  rw [if_neg hsize]
  -- from the revalidation on it is in the history
  refine does_invoke_bind fun x => ?_
  have hreval : Revalidated (exec .revalidate x log).2 := ⟨_, List.mem_cons_self⟩
  refine (does_of_calls revalidated_exec _ o hreval).post fun _ _ _ h => ?_
  exact iff_of_true h ⟨hval, Nat.not_lt.1 hsize⟩

/-- **Run revalidates the claim exactly for the outputs it admits.** -/
theorem does_run_admits (hrunn : o.running = false) (hfin : o.finished = false)
    (hlog : ¬ Revalidated log) :
    Does exec (run sha256 (some output))
      (fun _ _ log' => Revalidated log' ↔ o.Admits output) o log := by
  refine does_get_bind (does_passed_bind (a := ()) (failIf_eq_ok.2 (by simp [hrunn, hfin])) ?_)
  refine does_modify_bind (does_settle_bind ?_)
  refine does_settle_bind (.post (does_exportOutput sha256 output hlog) fun r o' log' h => ?_)
  have hend : Does exec closeUnclosed (fun _ _ log'' => Revalidated log'' ↔ o.Admits output) o'
      log' := by
    by_cases hreval : Revalidated log'
    · exact (does_of_calls revalidated_exec _ o' hreval).post fun _ _ _ h' =>
        iff_of_true h' (h.1 hreval)
    · exact (does_not_revalidate uses_closeUnclosed hreval).post fun _ _ _ h' =>
        iff_of_false h' fun hadm => hreval (h.2 hadm)
  refine does_bind (hend.post fun r o'' log'' h'' => ?_)
  cases r with
  | ok =>
    rw [then_ok]
    exact does_check (does_modify_bind (does_check h''))
  | error =>
    unfold Then
    exact does_modify_bind (does_check h'')

end

/-- `Run` of the operation of the workflow goes on with an output that its sources admit and
that fits the device exactly up to the default bound. -/
theorem revalidated_run_iff (hadm : Admitted output)
    (hcap : output.size ≤ enrollment.identity.capacity)
    (hnew : workflowOperation sha256 claimID sessionID enrollment = .ok o) (xs : Nat → Answer) :
    Revalidated ((run sha256 (some output)).outcome exec xs o []).2 ↔
      output.size ≤ defaultMaxBytes := by
  have ho := workflowOperation_eq_ok hnew
  have hemp : ¬ Revalidated [] := by
    rintro ⟨r, hr⟩
    cases hr
  have hrunn : o.running = false := by rw [ho]
  have hfin : o.finished = false := by rw [ho]
  have hrun := (does_run_admits sha256 output hrunn hfin hemp).outcome xs
  rw [hrun, ExportOperation.Admits, ApprovedOutput.validate_iff hadm.validate, ho]
  exact ⟨And.left, fun h => ⟨h, hcap⟩⟩

/-- **The operation of the workflow admits an output of a source exactly up to four GiB**: a
larger one, which the sources admit up to eight GiB, is refused by its size after the exporter
was prepared. -/
theorem workflow_admits_iff {sha256 : Bytes → Digest} {output : ApprovedOutput}
    {claimID sessionID : String} {enrollment : Enrollment} {o : ExportOperation}
    (hadmitted : Admitted output) (hcapacity : output.size ≤ enrollment.identity.capacity)
    (hnew : workflowOperation sha256 claimID sessionID enrollment = .ok o) (xs : Nat → Answer) :
    Revalidated ((run sha256 (some output)).outcome exec xs o []).2 ↔
      output.size ≤ 4 * 1024 * 1024 * 1024 :=
  revalidated_run_iff hadmitted hcapacity hnew xs

/-! ## Two outputs of a workstation -/

def plainSum : Bytes → Digest := fun _ => Vector.replicate 32 1

def plainEnrollment : Enrollment where
  schemaVersion := 1
  enrollmentID := "usb-0101010101010101"
  label := "ARCHIVE"
  identity := ⟨"0781", "5581", "S1", "AAAAAAAAAAAAAAAA", ["08:06:50"], 16 * 1024 * 1024 * 1024,
    "1-2", false, "Model"⟩
  filesystem := "luks2-ext4"

theorem exists_workflowOperation :
    ∃ o, workflowOperation plainSum "claim" "session" plainEnrollment = .ok o := by
  have hok : (workflowOperation plainSum "claim" "session" plainEnrollment).isOk = true := by
    decide +kernel
  revert hok
  cases workflowOperation plainSum "claim" "session" plainEnrollment with
  | ok o => exact fun _ => ⟨o, rfl⟩
  | error => exact Bool.noConfusion

def workspaceFile : String := "output-0123456789abcdef0123456789abcdef"

/-- The first frame of the stream of an output of a workstation. -/
def beginOf (size : Nat) : TransferFrame :=
  .beginning ⟨none, workspaceFile,
    some ⟨"notes.txt", size, "text/plain", some (protoHash (plainSum []))⟩⟩

def outputOf (size : Nat) : ApprovedOutput :=
  workstationOutput workspaceFile "notes.txt" "text/plain" size (plainSum []) false true

theorem workflow_admits_four : ∃ o,
    workflowOperation plainSum "claim" "session" plainEnrollment = .ok o ∧
      ∀ xs, Revalidated ((run plainSum (some (outputOf (4 * 1024 * 1024 * 1024)))).outcome exec xs
        o []).2 := by
  obtain ⟨o, ho⟩ := exists_workflowOperation
  have hsrc : newWorkspaceUSBApprovedSource workspaceFile
      (some (beginOf (4 * 1024 * 1024 * 1024))) = .ok (outputOf (4 * 1024 * 1024 * 1024)) := by
    decide +kernel
  exact ⟨o, ho, fun xs => (workflow_admits_iff (.destination hsrc) (by decide) ho xs).2 (by decide)⟩

/-- An output of five GiB, on a device of sixteen, is admitted as a source and refused by every
run of the export. -/
theorem workflow_refuses_five : ∃ o,
    newWorkspaceUSBApprovedSource workspaceFile (some (beginOf (5 * 1024 * 1024 * 1024))) =
      .ok (outputOf (5 * 1024 * 1024 * 1024)) ∧
    workflowOperation plainSum "claim" "session" plainEnrollment = .ok o ∧
    (outputOf (5 * 1024 * 1024 * 1024)).size ≤ plainEnrollment.identity.capacity ∧
    ∀ xs, ¬ Revalidated ((run plainSum (some (outputOf (5 * 1024 * 1024 * 1024)))).outcome exec xs
      o []).2 := by
  obtain ⟨o, ho⟩ := exists_workflowOperation
  have hsrc : newWorkspaceUSBApprovedSource workspaceFile
      (some (beginOf (5 * 1024 * 1024 * 1024))) = .ok (outputOf (5 * 1024 * 1024 * 1024)) := by
    decide +kernel
  refine ⟨o, hsrc, ho, by decide, fun xs hreval => ?_⟩
  have hsize := (revalidated_run_iff (.destination hsrc) (by decide) ho xs).1 hreval
  exact absurd hsize (by decide)

end PrivateVm.Usb
