import PrivateVm.Session.Exact
import PrivateVm.Session.Manager
import PrivateVm.Session.Save

set_option autoImplicit false

/-! # The journal on disk and the session in memory

`Disk` puts the sequential actor of `Session/Sequential.lean` on top of the store of
`Session/Store.lean`: a save runs the store's calls, some of which may fail. After a command `Load`
gives the session as it is in memory exactly when no call fails after the rename of the record,
and the removal of the temporary file does not fail (`journal_agrees`).
-/

namespace PrivateVm.Session

open Decimal Timestamp Checked FileSystem Program

/-! ## One save -/

namespace Store

variable {st : Store} {fs fs' : FS} {id : String} {d f : Nat}

def recordOf (st : Store) (fs : FS) (id : String) : Option Bytes :=
  (fs.lookup st.ino id).bind fun d => (fs.lookup d metadataName).map fun f => (fs.inode f).data

def removesTemporary : Call → Bool
  | .unlink _ name => name == temporaryName
  | _ => false

/-- The calls of a save whose failure leaves the disk out of step with what is returned: the
removal of the temporary file, and any call once the new record is in place. -/
def harmsSave (st : Store) (id : String) (data : Bytes) (c : Call) (fs : FS) : Bool :=
  removesTemporary c || st.recordOf fs id == some data

variable {snapshot : Snapshot} {data : Bytes}

theorem Recorded.recordOf (h : st.Recorded fs id d f snapshot) :
    st.recordOf fs id = some (fs.inode f).data := by
  simp [Store.recordOf, h.session.entry, h.record]

theorem harmsSave_of_record {c} (hrec : st.recordOf fs id ≠ some data)
    (hc : ∀ dir name, c ≠ .unlink dir name) : st.harmsSave id data c fs = false := by
  have hdata : (st.recordOf fs id == some data) = false := by simpa using hrec
  rw [harmsSave, hdata]
  cases c with
  | unlink dir name => exact absurd rfl (hc dir name)
  | _ => rfl

/-- The record stays in place until the rename. -/
theorem Recorded.recordOf_staged (h : st.Recorded fs id d f snapshot) (hw : st.Writable fs d)
    (n : Inode) : st.recordOf (staged fs d n) id = some (fs.inode f).data := by
  have hdata : ((staged fs d n).inode f).attributes = (fs.inode f).attributes :=
    FS.attributes_add (Nat.ne_of_lt (hw.closed.entries _ _ _ h.record))
  simp only [Store.recordOf, hw.lookup_root_staged, h.session.entry, Option.bind_some,
    hw.lookup_staged_ne n metadataName_ne, h.record]
  exact congrArg some (Inode.data_of_attributes hdata)

variable {before : Snapshot}

/-- Where failures of a save do harm. -/
theorem Recorded.harms (h : st.Recorded fs id d f before) (hw : st.Writable fs d)
    (hne : (fs.inode f).data ≠ data)
    (hinst : st.Recorded (installed st fs d data) id d fs.next snapshot) :
    Harms (st.harmsSave id data) st fs d data true true where
  early c hc := harmsSave_of_record (by simpa [h.recordOf] using hne) hc
  staged c n hc := harmsSave_of_record (by simpa [h.recordOf_staged hw] using hne) hc
  undo n := by simp [harmsSave, removesTemporary]
  late c _ := by
    have hrec := hinst.recordOf
    rw [hw.inode_installed] at hrec
    rw [harmsSave, hrec]
    simp [draft]

/-- **One save**: as long as no failure does harm, the record is the new one if no error is
returned and the old one if one is. After a failure that does harm an error is returned, and
the old record is not to be had. -/
theorem save_yields (hload : quietly (st.load snapshot.id) fs = .ok before) (hcl : fs.Closed)
    (henc : encodeSnapshot snapshot = .ok data)
    (hsize : 1 ≤ data.length ∧ data.length ≤ maxMetadataSize)
    (hdec : decodeSnapshot data snapshot.id = .ok snapshot) (hne : snapshot ≠ before) :
    Yields (st.harmsSave snapshot.id data) (st.save snapshot).run (fun r fs' v =>
      v = true ∧ (r = .ok () ∧ quietly (st.load snapshot.id) fs' = .ok snapshot ∨
        (∃ e, r = .error e) ∧ quietly (st.load snapshot.id) fs' = .ok before) ∨
      v = false ∧ (∃ e, r = .error e) ∧
        quietly (st.load snapshot.id) fs' ≠ .ok before) fs true := by
  obtain ⟨hready, d, f, h⟩ := quietly_load.1 hload
  have hw := h.writable hready hcl
  have hinst : st.Recorded (installed st fs d data) snapshot.id d fs.next snapshot :=
    hw.recorded_installed h.session.valid h.session.entry (hready.ne_dir h.session.owned) hsize
      hdec
  have hdata : (fs.inode f).data ≠ data := by
    intro heq
    have hold := h.decoded
    rw [heq, hdec] at hold
    exact hne (Except.ok.inj hold)
  have hharm := h.harms hw hdata hinst
  have hread : ∀ c, c.readOnly = true → st.harmsSave snapshot.id data c fs = false :=
    fun c hc => hharm.early c (ne_unlink_of_readOnly hc)
  have hnew : quietly (st.load snapshot.id) (installed st fs d data) = .ok snapshot :=
    quietly_load.2 ⟨hw.installed_ready data, d, _, hinst⟩
  refine yields_check_then (mapError_eq_ok.2 henc) ?_
  refine yields_read st.reads_openRoot hread (quietly_openRoot.2 ⟨hready, rfl⟩) ?_ fun e =>
    .inl ⟨rfl, .inr ⟨⟨e, rfl⟩, hload⟩⟩
  refine yields_read (st.reads_openSession _ _) hread (quietly_openSession.2 h.session) ?_ fun e =>
    .inl ⟨rfl, .inr ⟨⟨e, rfl⟩, hload⟩⟩
  refine (saveAt_yields hw hharm).post fun r fs' v hr => ?_
  cases hr with
  | done => exact .inl ⟨rfl, .inl ⟨rfl, hnew⟩⟩
  | unchanged e => exact .inl ⟨rfl, .inr ⟨⟨e, rfl⟩, hload⟩⟩
  | discarded e n =>
    refine .inl ⟨rfl, .inr ⟨⟨e, rfl⟩, quietly_load.2 ⟨?_, d, f, h.discarded hw n⟩⟩⟩
    exact hready.congr rfl rfl (attributes_discarded (Nat.ne_of_lt hw.root_lt))
  | abandoned e n =>
    refine .inr ⟨rfl, ⟨e, rfl⟩, fun hload => ?_⟩
    obtain ⟨-, d', f', hrec⟩ := quietly_load.1 hload
    exact hw.not_recorded_staged h.session.entry n hrec
  | late e =>
    refine .inr ⟨rfl, ⟨e, rfl⟩, fun hload => hne ?_⟩
    rw [hnew] at hload
    exact Except.ok.inj hload

end Store

/-! ## The actor over the store -/

/-- Where the directory of a session is. -/
def Store.place (st : Store) (id : String) (fs : FS) : Place :=
  if (fs.lookup st.ino id).isSome then .kept
  else if (fs.lookup st.ino (removingName id)).isSome then .aside else .gone

structure Disk where
  core : Core
  fs : FS

/-- What the outside decides at one operation of the actor, the failures of the store's calls
among it. -/
structure DiskChoice where
  choice : Choice
  faults : Nat → FileSystem.Fault

namespace Disk

def afterCalls (st : Store) (o : Op) (x : DiskChoice) (d : Disk) : FS :=
  match o with
  | .save snapshot => (runCalls (st.save snapshot).run x.faults d.fs).2
  | .remove id => (runCalls (st.remove id).run x.faults d.fs).2
  | _ => d.fs

def answered (x : Choice) : Except Failure Unit → Choice
  | .ok () => { x with ok := true }
  | .error e => { x with ok := false, fault := e.message }

def seen (st : Store) (o : Op) (x : DiskChoice) (d : Disk) : Choice :=
  match o with
  | .save snapshot => answered x.choice (runCalls (st.save snapshot).run x.faults d.fs).1
  | .remove id =>
    { answered x.choice (runCalls (st.remove id).run x.faults d.fs).1 with
      left := st.place id (runCalls (st.remove id).run x.faults d.fs).2 }
  | _ => x.choice

def exec (st : Store) (o : Op) (x : DiskChoice) (d : Disk) : Res o × Disk :=
  ((d.core.exec o (d.seen st o x)).1, ⟨(d.core.exec o (d.seen st o x)).2, d.afterCalls st o x⟩)

theorem exec_save_answered (c : Core) (snapshot : Snapshot) (x : Choice) (r : Except Failure Unit)
    {data} (henc : encodeSnapshot snapshot = .ok data) :
    (c.exec (.save snapshot) (answered x r)).1 = r.mapError fun e => newError e.message := by
  simp only [Core.exec, henc]
  cases r with
  | ok u | error => rfl

/-- The answer of a save is that of the store. -/
theorem exec_save (st : Store) (snapshot : Snapshot) (x : DiskChoice) (d : Disk) :
    (d.exec st (.save snapshot) x).1 =
      (runCalls (st.save snapshot).run x.faults d.fs).1.mapError fun e => newError e.message := by
  cases henc : encodeSnapshot snapshot with
  | ok => exact exec_save_answered d.core snapshot x.choice _ henc
  | error e =>
    have hrun : (runCalls (st.save snapshot).run x.faults d.fs).1 = .error (.ofErr e) := by
      rw [Store.save, henc]
      rfl
    have herr : newError e.message = e := by
      obtain ⟨message, wraps⟩ := e
      obtain rfl : wraps = [] := encodeSnapshot_fails _ _ henc
      rfl
    rw [hrun]
    simp only [Disk.exec, Core.exec, henc]
    exact congrArg Except.error herr.symm

end Disk

/-! ## One command -/

/-- The record of the session and the session in memory are the same. -/
def Agrees (st : Store) (d : Disk) : Prop :=
  quietly (st.load d.core.session.id) d.fs = .ok d.core.session.snapshot

/-- No call of a save fails where this does harm. -/
def saveFine (st : Store) (o : Op) (x : DiskChoice) (d : Disk) : Bool :=
  match o with
  | .save snapshot =>
    match encodeSnapshot snapshot with
    | .ok data => harmless (st.harmsSave snapshot.id data) (st.save snapshot).run x.faults d.fs
    | .error _ => true
  | _ => true

/-- The disk and the core after a transition command. -/
def Disk.command (st : Store) (m : Move) (xs : Nat → DiskChoice) (d : Disk) : Disk :=
  ((advance m).run (Disk.exec st) xs 0 d).2

/-- No call fails where this does harm while the command runs. -/
def Disk.harmless (st : Store) (m : Move) (xs : Nat → DiskChoice) (d : Disk) : Bool :=
  (advance m).along (Disk.exec st) (saveFine st) xs 0 d

/-- What holds between commands. -/
structure Journaled (st : Store) (d : Disk) : Prop where
  closed : d.fs.Closed
  utc : d.core.session.snapshot.utc = d.core.session.snapshot
  agrees : Agrees st d

/-- The operations that do not reach the store. -/
def Op.inMemory : Op → Bool
  | .save _ | .remove _ => false
  | _ => true

section

variable {st : Store} {β : Type} {d : Disk} {v : Bool}

abbrev judged (st : Store) : Rules Op Res DiskChoice (Disk × Bool) :=
  alone (marking (Disk.exec st) (saveFine st))

variable {o : Op}

theorem disk_exec (ho : o.inMemory = true) (x : DiskChoice) : (judged st).exec o x (d, v) =
      ((d.core.exec o x.choice).1, ⟨(d.core.exec o x.choice).2, d.fs⟩, v) := by
  change ((d.exec st o x).1, (d.exec st o x).2, v && saveFine st o x d) = _
  cases o with
  | save | remove => cases ho
  | _ =>
    rw [show saveFine st _ x d = true from rfl, Bool.and_true]
    rfl

variable {Q : β → Disk × Bool → Prop}

theorem disk_call {f : Res o → Code β} (ho : o.inMemory = true)
    (hf : ∀ x, Safe (judged st) (fun _ => True) (f (d.core.exec o x).1) Q
      (⟨(d.core.exec o x).2, d.fs⟩, v)) :
    Safe (judged st) (fun _ => True) (call o >>= f) Q (d, v) := by
  rintro _ rfl
  refine ⟨trivial, fun x _ => ?_⟩
  rw [disk_exec ho]
  exact hf x.choice

theorem disk_pure {a : β} (h : Q a (d, v)) :
    Safe (judged st) (fun _ => True) (pure a : Code β) Q (d, v) := by
  rintro _ rfl
  exact ⟨trivial, h⟩

/-- Publishing leaves the session and the disk alone. -/
theorem disk_publish {e} {P : Session → FS → Bool → Prop} (h : P d.core.session d.fs v) :
    Safe (judged st) (fun _ => True) (publish e)
      (fun _ s => P s.1.core.session s.1.fs s.2) (d, v) := by
  refine .of_uses (publish_within e)
    (fun _ _ => trivial) (fun _ _ h hr => by cases hr; exact h) (fun o x s ho _ hs => ?_) h
  obtain ⟨d, v⟩ := s
  have hmem : o.inMemory = true := by
    cases o with
    | save | remove => simp [Op.area] at ho
    | _ => rfl
  have hses : (d.core.exec o x.choice).2.session = d.core.session := by
    refine exec_session ?_ _ _
    revert ho
    generalize o.area = area
    decide +revert
  rw [disk_exec hmem]
  rwa [hses]

/-- A save, with what the actor does on either answer. -/
theorem disk_save {snapshot} {f : Except Err Unit → Code β}
    (hf : ∀ x c, c.session = d.core.session →
      Safe (judged st) (fun _ => True)
        (f ((runCalls (st.save snapshot).run x.faults d.fs).1.mapError
          fun e => newError e.message)) Q
        (⟨c, (runCalls (st.save snapshot).run x.faults d.fs).2⟩,
          v && saveFine st (.save snapshot) x d)) :
    Safe (judged st) (fun _ => True) (call (.save snapshot) >>= f) Q (d, v) := by
  rintro _ rfl
  refine ⟨trivial, fun x _ => ?_⟩
  have hans := Disk.exec_save st snapshot x d
  change Safe (judged st) (fun _ => True) (f (d.exec st (.save snapshot) x).1) Q _
  rw [hans]
  refine hf x _ ?_
  obtain ⟨err, hexec⟩ | hexec :=
    Session.exec_save snapshot (d.seen st (.save snapshot) x) d.core <;> rw [hexec]

end

/-- The times of a session are read back from its record. -/
theorem representable_of_format {t} (hutc : t.utc = t) (h : (format t).isSome) :
    Representable t := by
  have hoffs : t.offset = 0 := (congrArg Time.offset hutc).symm
  unfold format at h
  split at h
  · rename_i hyear
    refine ⟨hyear.1, hyear.2.1, ?_, ?_⟩ <;> simp [hoffs]
  · cases h

variable {sn : Snapshot} {data : Bytes} {st : Store}

theorem decodeSnapshot_of_utc (hutc : sn.utc = sn) (h : encodeSnapshot sn = .ok data) :
    decodeSnapshot data sn.id = .ok sn := by
  obtain ⟨hacc, hwr⟩ := encodeSnapshot_isOk.1 ⟨data, h⟩
  have hcre : sn.createdAt.utc = sn.createdAt := congrArg Snapshot.createdAt hutc
  have hupd : sn.updatedAt.utc = sn.updatedAt := congrArg Snapshot.updatedAt hutc
  have hevs : sn.events.map .utc = sn.events := congrArg Snapshot.events hutc
  have htimes : sn.TimesRepresentable := by
    refine ⟨representable_of_format hcre hwr.createdAt,
      representable_of_format hupd hwr.updatedAt, fun e he => ?_⟩
    have hutc : e.time.utc = e.time := by
      rw [← hevs] at he
      obtain ⟨e', -, rfl⟩ := List.mem_map.1 he
      rfl
    exact representable_of_format hutc (hwr.events e he)
  exact (decodeSnapshot_encodeSnapshot h).2 ⟨Snapshot.reread_eq_self.2 htimes, hacc⟩

theorem encodeSnapshot_size (hutc : sn.utc = sn) (h : encodeSnapshot sn = .ok data) :
    1 ≤ data.length ∧ data.length ≤ maxMetadataSize := by
  constructor
  · by_contra hemp
    obtain rfl : data = [] := List.length_eq_zero_iff.1 (by omega)
    have hdec := decodeSnapshot_of_utc hutc h
    have hfails : (decodeSnapshot [] sn.id).toBool = false := rfl
    simp [hdec, Except.toBool] at hfails
  · simp only [encodeSnapshot, bind_eq_ok, failIf_eq_ok, pure_eq_ok] at h
    obtain ⟨_, _, _, _, _, hsize, rfl⟩ := h
    exact Nat.not_lt.1 hsize

section

variable {st : Store} {d : Disk}

/-- What the actor goes on with after a save, and the record. -/
def Kept (st : Store) (before after : Session) (s : Disk × Bool) : Prop :=
  (Agrees st s.1 ↔ s.2 = true) ∧ (s.1.core.session = before ∨ s.1.core.session = after)

variable {s : Session} {e : Event}

theorem disk_rollback {err : Err} {v} (hs : d.core.session = s.record e)
    (h : quietly (st.load s.id) d.fs = .ok s.snapshot ↔ v = true) :
    Safe (judged st) (fun _ => True) (do call (.restore s.snapshot); return (s.snapshot, some err))
      (fun _ => Kept st s (s.record e)) (d, v) := by
  refine disk_call rfl fun _ => disk_pure ?_
  have hback : d.core.session.restore s.snapshot = s := by
    rw [hs]
    exact Session.restore_record s e
  refine ⟨?_, .inl hback⟩
  simp only [Core.exec, hback]
  exact h

/-- The transition is saved, or taken back. -/
theorem disk_commit (hcl : d.fs.Closed) (hload : quietly (st.load s.id) d.fs = .ok s.snapshot)
    (hs : d.core.session = s.record e) (hutc : (s.record e).snapshot.utc = (s.record e).snapshot) :
    Safe (judged st) (fun _ => True) (commit s.snapshot e)
      (fun _ => Kept st s (s.record e)) (d, true) := by
  refine disk_call rfl fun _ => disk_save fun x c hc => ?_
  simp only [Core.exec, hs] at hc ⊢
  have hne : (s.record e).snapshot ≠ s.snapshot := by
    intro heq
    have hlen := congrArg (fun sn => sn.events.length) heq
    simp [Session.record, Session.snapshot] at hlen
  cases henc : encodeSnapshot (s.record e).snapshot with
  | error err =>
    have hrun : runCalls (st.save (s.record e).snapshot).run x.faults d.fs =
        (.error (.ofErr err), d.fs) := by
      rw [Store.save, henc]
      rfl
    have hfine : saveFine st (.save (s.record e).snapshot) x d = true := by
      simp [saveFine, henc]
    rw [hrun, hfine]
    exact disk_rollback hc (iff_of_true hload rfl)
  | ok data =>
    have hbefore : quietly (st.load (s.record e).snapshot.id) d.fs = .ok s.snapshot := hload
    have hspec := (Store.save_yields hbefore hcl henc (encodeSnapshot_size hutc henc)
      (decodeSnapshot_of_utc hutc henc) hne).along x.faults
    have hfine : saveFine st (.save (s.record e).snapshot) x d =
        harmless (st.harmsSave (s.record e).snapshot.id data) (st.save (s.record e).snapshot).run
          x.faults d.fs := by
      simp [saveFine, henc]
    rw [hfine]
    generalize runCalls (st.save (s.record e).snapshot).run x.faults d.fs = r at hspec
    obtain ⟨r, fs'⟩ := r
    obtain ⟨hv, ⟨rfl, hnew⟩ | ⟨⟨err, rfl⟩, hold⟩⟩ | ⟨hv, ⟨err, rfl⟩, hlost⟩ := hspec
    · refine safe_bind.2 ((disk_publish (d := ⟨c, fs'⟩) (P := fun s' fs v => s' = s.record e ∧
        quietly (st.load s.id) fs = .ok (s.record e).snapshot ∧ v = true) ⟨hc, hnew, hv⟩).post ?_)
      rintro - ⟨d', v'⟩ ⟨hses, hload', hv'⟩
      refine disk_pure ⟨iff_of_true ?_ hv', .inr hses⟩
      rwa [Agrees, hses]
    · exact disk_rollback hc (iff_of_true hold hv)
    · exact disk_rollback hc (iff_of_false hlost (by simp [hv]))

/-- **One command**: afterwards the record and the session in memory are the same exactly if no
call failed where this does harm. -/
theorem advance_judged (m : Move) (h : Journaled st d) :
    Safe (judged st) (fun _ => True) (advance m) (fun _ s => (Agrees st s.1 ↔ s.2 = true) ∧
      s.1.core.session.snapshot.utc = s.1.core.session.snapshot) (d, true) := by
  refine disk_call rfl fun _ => disk_call rfl fun x => disk_call rfl fun _ => ?_
  simp only [Core.exec]
  cases hmove : d.core.session.move x.time.utc m with
  | error => exact disk_pure ⟨iff_of_true h.agrees rfl, h.utc⟩
  | ok r =>
    obtain ⟨e, s⟩ := r
    obtain rfl := Session.move_record hmove
    have hutc : (d.core.session.record e).snapshot.utc = (d.core.session.record e).snapshot := by
      cases m with
      | lifecycle => exact (Session.appends_of_lifecycle hmove).utc h.utc
      | workflow => exact (Session.appends_of_workflow hmove).utc h.utc
    refine (disk_commit (d := ⟨d.core.tick.appended m e (d.core.session.record e), d.fs⟩) h.closed
      h.agrees rfl hutc).post fun _ s hs => ⟨hs.1, ?_⟩
    obtain hold | hnew := hs.2
    · rw [hold]
      exact h.utc
    · rwa [hnew]

theorem Disk.closed_exec (o : Op) (x : DiskChoice) (h : d.fs.Closed) :
    (d.exec st o x).2.fs.Closed := by
  cases o with
  | save | remove => exact Prog.run_keeps (fun c x fs h => h.exec c x) x.faults _ 0 h
  | _ => exact h

theorem Disk.command_judged (m : Move) (xs : Nat → DiskChoice) (h : Journaled st d) :
    (Agrees st (d.command st m xs) ↔ d.harmless st m xs = true) ∧
      (d.command st m xs).fs.Closed ∧ (d.command st m xs).core.session.snapshot.utc =
        (d.command st m xs).core.session.snapshot := by
  have hrun := (advance_judged m h).along xs
  exact ⟨hrun.1, Prog.run_keeps (J := fun d : Disk => d.fs.Closed)
    (fun o x d => Disk.closed_exec o x) xs _ 0 h.closed, hrun.2⟩

end

/-! ## Runs of commands -/

/-- A session is created in a runtime root, and goes through commands in which no call fails
where this does harm. In between others use the root, and leave the record of the session. -/
inductive JournalRun (st : Store) : Disk → Prop
  | created {id : String} {ownerUID : UInt32} {role : Role} {now : Time} {s : Session}
      {fs fs' : FS} {xs : Nat → FileSystem.Fault} (closed : fs.Closed) (ready : st.RootReady fs)
      (step : newOwned id ownerUID role now.utc = .ok s)
      (written : runCalls (st.create s.snapshot).run xs fs = (.ok (), fs')) :
      JournalRun st ⟨(World.create s).core, fs'⟩
  | command {d : Disk} (m : Move) (xs : Nat → DiskChoice) (before : JournalRun st d)
      (fine : d.harmless st m xs = true) : JournalRun st (d.command st m xs)
  | elsewhere {d : Disk} {fs : FS} (before : JournalRun st d) (closed : fs.Closed)
      (same : quietly (st.load d.core.session.id) fs = quietly (st.load d.core.session.id) d.fs) :
      JournalRun st ⟨d.core, fs⟩

theorem journaled_created {id : String} {ownerUID : UInt32} {role : Role} {now : Time} {s : Session}
    {fs fs' : FS} {xs : Nat → FileSystem.Fault} (hcl : fs.Closed) (hready : st.RootReady fs)
    (hs : newOwned id ownerUID role now.utc = .ok s)
    (hwr : runCalls (st.create s.snapshot).run xs fs = (.ok (), fs')) :
    Journaled st ⟨(World.create s).core, fs'⟩ := by
  have hutc : s.snapshot.utc = s.snapshot := by
    obtain ⟨-, -, -, rfl⟩ := newOwned_eq_ok.1 hs
    rfl
  have hid : sessionIDPattern s.snapshot.id = true := by
    obtain ⟨-, hid, -, rfl⟩ := newOwned_eq_ok.1 hs
    simp only [validateID, failIf_eq_ok, Bool.not_eq_true, Bool.not_eq_false'] at hid
    exact hid
  have hcl' : fs'.Closed := by
    have hrun := Prog.run_keeps (fun c x fs h => h.exec c x) xs
      (st.create s.snapshot).run 0 hcl
    rwa [show Prog.run FS.exec xs (st.create s.snapshot).run 0 fs = _ from hwr] at hrun
  refine ⟨hcl', hutc, ?_⟩
  cases henc : encodeSnapshot s.snapshot with
  | error e =>
    have hrun : runCalls (st.create s.snapshot).run xs fs = (.error (.ofErr e), fs) := by
      rw [Store.create, henc]
      rfl
    rw [hrun] at hwr
    cases hwr
  | ok =>
    have hspec := (Store.create_yields hready hcl hid henc (encodeSnapshot_size hutc henc)
      (decodeSnapshot_of_utc hutc henc)).along xs
    rw [hwr] at hspec
    exact Store.quietly_load.2 (hspec rfl)

theorem JournalRun.journaled {d : Disk} (h : JournalRun st d) : Journaled st d := by
  induction h with
  | created closed ready step written => exact journaled_created closed ready step written
  | command m xs _ fine ih =>
    obtain ⟨hagr, hcl, hutc⟩ := Disk.command_judged m xs ih
    exact ⟨hcl, hutc, hagr.2 fine⟩
  | elsewhere _ closed same ih => exact ⟨closed, ih.utc, same.trans ih.agrees⟩

/-- **The journal and the memory agree** after every command of a run in which no call fails
where this does harm; and after any further command exactly if none does. -/
theorem journal_agrees {st : Store} {d : Disk} (h : JournalRun st d) : Agrees st d ∧
    ∀ m xs, Agrees st (d.command st m xs) ↔ d.harmless st m xs = true :=
  ⟨h.journaled.agrees, fun m xs => (Disk.command_judged m xs h.journaled).1⟩

/-! ## Runs of one session -/

def sampleStore : Store where
  root := "/run/private-vm"
  uid := 10
  gid := 20
  dev := 7
  ino := 1

/-- The runtime root before the first session. -/
def sampleRoot : FS where
  dev := 7
  uid := 10
  gid := 20
  paths path := if path = "/run/private-vm" then some 1 else none
  inode _ := ⟨.directory, 10, 20, 0o750, 2, ∅, []⟩
  next := 2

theorem closed_sampleRoot : sampleRoot.Closed where
  paths path i h := by
    simp only [sampleRoot, Option.ite_none_right_eq_some, Option.some.injEq] at h
    exact h.2 ▸ Nat.lt_succ_self 1
  entries _ _ _ h := by cases h

theorem ready_sampleRoot : sampleStore.RootReady sampleRoot := ⟨rfl, ⟨rfl, rfl, rfl, rfl⟩, rfl⟩

def failAt (n : Nat) (i : Nat) : FileSystem.Fault :=
  if i = n then { errno := some (.other "input/output error") } else {}

/-- Every operation is at one time, and the store's calls fail as given. -/
def diskChoice (faults : Nat → FileSystem.Fault) : DiskChoice := ⟨{ time := startTime }, faults⟩

/-- The root with the session of `startWorld`. -/
def sampleFS : FS :=
  (runCalls (sampleStore.create startWorld.core.session.snapshot).run (fun _ => {}) sampleRoot).2

def sampleDisk : Disk := ⟨startWorld.core, sampleFS⟩

theorem journalRun_sampleDisk : JournalRun sampleStore sampleDisk := by
  obtain ⟨id, ownerUID, role, now, s, hs, -, hw⟩ := created_startWorld
  obtain rfl : startWorld.core.session = s := congrArg (fun w => w.core.session) hw
  have hok : (runCalls (sampleStore.create startWorld.core.session.snapshot).run (fun _ => {})
      sampleRoot).1.toBool = true := by decide +kernel
  have hwr : runCalls (sampleStore.create startWorld.core.session.snapshot).run (fun _ => {})
      sampleRoot = (.ok (), sampleFS) := by
    unfold sampleFS
    generalize runCalls (sampleStore.create startWorld.core.session.snapshot).run (fun _ => {})
      sampleRoot = r at hok ⊢
    obtain ⟨r, fs⟩ := r
    cases r with
    | ok => rfl
    | error => cases hok
  have hrun : JournalRun sampleStore ⟨(World.create startWorld.core.session).core, sampleFS⟩ :=
    .created closed_sampleRoot ready_sampleRoot hs hwr
  exact hrun

/-- The session is brought to another phase, while the calls of the save fail as given. -/
def sampleCommand (faults : Nat → FileSystem.Fault) : Disk :=
  sampleDisk.command sampleStore (.lifecycle .preflighted false) fun _ => diskChoice faults

/-- A transition whose record cannot be written. -/
theorem journal_agrees_unwritten : JournalRun sampleStore sampleDisk ∧
    Agrees sampleStore sampleDisk ∧ Agrees sampleStore (sampleCommand (failAt 12)) := by
  have h := journal_agrees journalRun_sampleDisk
  exact ⟨journalRun_sampleDisk, h.1, (h.2 _ _).2 (by decide +kernel)⟩

/-- **The journal may be ahead.** The directory cannot be synchronised after the rename: the
command returns an error and takes the transition back, and its event stays in the record. -/
theorem journal_ahead : ∃ d m xs, JournalRun sampleStore d ∧
    (quietly (sampleStore.load d.core.session.id) (d.command sampleStore m xs).fs).toOption.map
      Snapshot.sequence = some 2 ∧
    (d.command sampleStore m xs).core.session.sequence = 1 ∧
    ¬ Agrees sampleStore (d.command sampleStore m xs) := by
  have hdisk : (quietly (sampleStore.load sampleDisk.core.session.id)
      (sampleCommand (failAt 20)).fs).toOption.map Snapshot.sequence = some 2 := by decide +kernel
  have hmem : (sampleCommand (failAt 20)).core.session.sequence = 1 := by decide +kernel
  have hid : (sampleCommand (failAt 20)).core.session.id = sampleDisk.core.session.id := by
    decide +kernel
  refine ⟨sampleDisk, .lifecycle .preflighted false, fun _ => diskChoice (failAt 20),
    journalRun_sampleDisk, ?_⟩
  rw [show sampleDisk.command sampleStore _ _ = sampleCommand (failAt 20) from rfl]
  refine ⟨hdisk, hmem, fun hagr => ?_⟩
  rw [Agrees, hid] at hagr
  rw [hagr] at hdisk
  exact absurd (Option.some.inj hdisk) (by rw [Session.snapshot, hmem]; decide)

end PrivateVm.Session
