import PrivateVm.Session.Record

set_option autoImplicit false

/-! # Writing a record while calls fail

`saveAt` writes a temporary file and renames it. `SaveOutcome` lists how it can end; the temporary
file may be left behind, and a call may fail after the rename, with the new record in place.
-/

namespace PrivateVm.Session

open Decimal Checked FileSystem Program List

/-! ## What a change of names keeps -/

section

variable {n n' : Inode} {uid gid mode : Nat}

theorem OwnedDirectory.congr (h : OwnedDirectory n uid gid mode)
    (heq : n'.attributes = n.attributes) : OwnedDirectory n' uid gid mode where
  kind := (congrArg Inode.kind heq).trans h.kind
  uid := (congrArg Inode.uid heq).trans h.uid
  gid := (congrArg Inode.gid heq).trans h.gid
  mode := (congrArg Inode.mode heq).trans h.mode

theorem OwnedRegular.congr (h : OwnedRegular n uid gid mode)
    (heq : n'.attributes = n.attributes) : OwnedRegular n' uid gid mode where
  kind := (congrArg Inode.kind heq).trans h.kind
  nlink := (congrArg Inode.nlink heq).trans h.nlink
  uid := (congrArg Inode.uid heq).trans h.uid
  gid := (congrArg Inode.gid heq).trans h.gid
  mode := (congrArg Inode.mode heq).trans h.mode

end

namespace Store

variable {st : Store} {fs fs' : FS} {id : String} {d f : Nat} {snapshot : Snapshot}

theorem RootReady.congr (h : st.RootReady fs) (hpaths : fs'.paths = fs.paths)
    (hdev : fs'.dev = fs.dev)
    (hattr : (fs'.inode st.ino).attributes = (fs.inode st.ino).attributes) : st.RootReady fs' where
  path := by
    rw [hpaths]
    exact h.path
  owned := h.owned.congr hattr
  dev := hdev.trans h.dev

variable {name : String} {data : Bytes} {allowRes : Bool} {i dir : Nat}

theorem Permitted.congr {allowTemp} (h : st.Permitted fs d allowTemp allowRes name)
    (hlook : fs'.lookup d name = fs.lookup d name)
    (hattr : ∀ i, fs.lookup d name = some i → (fs'.inode i).attributes = (fs.inode i).attributes) :
    st.Permitted fs' d allowTemp allowRes name := by
  obtain ⟨i, hi, hown⟩ := h
  refine ⟨i, hlook.trans hi, ?_⟩
  split_ifs at hown ⊢
  · exact hown.congr (hattr i hi)
  · exact ⟨hown.1, hown.2.congr (hattr i hi)⟩

/-- A session is recorded as long as its names and what they stand for stay. -/
theorem Recorded.congr (h : st.Recorded fs id d f snapshot)
    (hroot : fs'.lookup st.ino id = fs.lookup st.ino id)
    (hnames : ∀ name, fs'.lookup d name = fs.lookup d name)
    (hdir : (fs'.inode d).attributes = (fs.inode d).attributes)
    (hattr : ∀ name i, fs.lookup d name = some i →
      (fs'.inode i).attributes = (fs.inode i).attributes) :
    st.Recorded fs' id d f snapshot := by
  have hf := hattr metadataName f h.record
  have hdata : (fs'.inode f).data = (fs.inode f).data := Inode.data_of_attributes hf
  refine ⟨⟨h.session.valid, hroot.trans h.session.entry, h.session.owned.congr hdir⟩, ?_,
    (hnames _).trans h.record, h.regular.congr hf, ?_, ?_, ?_⟩
  · intro name hname
    obtain ⟨i, hi⟩ := mem_keys_iff.1 hname
    have hold := h.names name (mem_keys_iff.2 ⟨i, (hnames name).symm.trans hi⟩)
    exact hold.congr (hnames name) (hattr name)
  · rw [hdata]
    exact h.nonempty
  · rw [hdata]
    exact h.bounded
  · rw [hdata]
    exact h.decoded

/-! ## A directory that can be written to -/

theorem metadataName_ne : metadataName ≠ temporaryName := by decide

/-- The directory of a session in order, with or without a record. -/
structure Writable (st : Store) (fs : FS) (d : Nat) : Prop where
  ready : st.RootReady fs
  owned : OwnedDirectory (fs.inode d) st.uid st.gid sessionDirMode
  names : ∀ name ∈ (fs.inode d).entries.keys, st.Permitted fs d false true name
  closed : fs.Closed
  below : d < fs.next

theorem Recorded.writable (h : st.Recorded fs id d f snapshot) (hready : st.RootReady fs)
    (hcl : fs.Closed) : st.Writable fs d :=
  ⟨hready, h.session.owned, h.names, hcl, hcl.entries _ _ _ h.session.entry⟩

theorem not_permitted_temporary : ¬ st.Permitted fs d false allowRes temporaryName := by
  rintro ⟨i, -, h⟩
  obtain ⟨hname | ⟨hfalse, -⟩, -⟩ := h
  · exact metadataName_ne hname.symm
  · cases hfalse

theorem Writable.no_temporary (h : st.Writable fs d) : fs.lookup d temporaryName = none := by
  cases hlook : fs.lookup d temporaryName with
  | none => rfl
  | some i => exact absurd (h.names _ (mem_keys_iff.2 ⟨i, hlook⟩)) not_permitted_temporary

theorem Writable.root_lt (h : st.Writable fs d) : st.ino < fs.next :=
  h.closed.paths _ _ h.ready.path

theorem Writable.dir_ne (h : st.Writable fs d) : d ≠ fs.next := Nat.ne_of_lt h.below

def draft (uid gid mode : Nat) (data : Bytes) : Inode := ⟨.regular, uid, gid, mode, 1, ∅, data⟩

def staged (fs : FS) (d : Nat) (n : Inode) : FS := fs.add d temporaryName n

def discarded (fs : FS) (d : Nat) (n : Inode) : FS :=
  ((staged fs d n).leave d temporaryName).dropLink fs.next

def installed (st : Store) (fs : FS) (d : Nat) (data : Bytes) : FS :=
  let moved := ((staged fs d (draft st.uid st.gid metadataMode data)).leave d temporaryName).enter d
    metadataName fs.next
  match fs.lookup d metadataName with
  | none => moved
  | some f => moved.dropLink f

namespace Writable

variable (h : st.Writable fs d)

include h

theorem staged_ready (n : Inode) : st.RootReady (staged fs d n) :=
  h.ready.congr rfl rfl (FS.attributes_add (Nat.ne_of_lt h.root_lt))

theorem lookup_staged (n : Inode) : (staged fs d n).lookup d temporaryName = some fs.next := by
  rw [staged, FS.lookup_add h.dir_ne]
  simp

theorem lookup_staged_ne (n : Inode) (hname : name ≠ temporaryName)
    : (staged fs d n).lookup d name = fs.lookup d name := by
  rw [staged, FS.lookup_add h.dir_ne]
  simp [hname]

theorem create (short mode : Nat) :
    fs.perform short (.create d temporaryName mode) =
      (.ok fs.next, staged fs d (draft fs.uid fs.gid mode [])) := by
  simp only [FS.perform, h.no_temporary]
  rfl

theorem chown (short uid gid uid' gid' mode : Nat) (data : Bytes) :
    (staged fs d (draft uid gid mode data)).perform short (.fchown fs.next uid' gid') =
      (.ok (), staged fs d (draft uid' gid' mode data)) := by
  simp only [FS.perform, FS.chown, staged, FS.modify_add h.dir_ne]
  rfl

theorem chmod (short uid gid mode mode' : Nat) (data : Bytes) :
    (staged fs d (draft uid gid mode data)).perform short (.fchmod fs.next mode') =
      (.ok (), staged fs d (draft uid gid mode' data)) := by
  simp only [FS.perform, FS.chmod, staged, FS.modify_add h.dir_ne]
  rfl

theorem append (uid gid mode : Nat) (data data' : Bytes) :
    (staged fs d (draft uid gid mode data)).append fs.next data' =
      staged fs d (draft uid gid mode (data ++ data')) := by
  simp only [FS.append, staged, FS.modify_add h.dir_ne]
  rfl

theorem unlink (short uid gid mode : Nat) (data : Bytes) :
    (staged fs d (draft uid gid mode data)).perform short (.unlink d temporaryName) =
      (.ok (), discarded fs d (draft uid gid mode data)) := by
  have hkind : ((staged fs d (draft uid gid mode data)).inode fs.next).kind = .regular := by
    rw [staged, FS.inode_add_next h.dir_ne]
    rfl
  simp only [FS.perform, h.lookup_staged, hkind]
  rfl

/-- The record that is replaced is a regular file, below the new one. -/
theorem record_regular (hf : fs.lookup d metadataName = some f) :
    (fs.inode f).kind = .regular ∧ f < fs.next := by
  obtain ⟨i, hi, hown⟩ := h.names _ (mem_keys_iff.2 ⟨f, hf⟩)
  cases hi.symm.trans hf
  exact ⟨hown.2.kind, h.closed.entries _ _ _ hf⟩

theorem rename (short : Nat) (data : Bytes) :
    (staged fs d (draft st.uid st.gid metadataMode data)).perform short
      (.rename d temporaryName metadataName) = (.ok (), installed st fs d data) := by
  have hkind : ((staged fs d (draft st.uid st.gid metadataMode data)).inode fs.next).kind =
      .regular := by
    rw [staged, FS.inode_add_next h.dir_ne]
    rfl
  simp only [FS.perform, h.lookup_staged, h.lookup_staged_ne _ metadataName_ne, installed]
  cases hrec : fs.lookup d metadataName with
  | none => rfl
  | some f =>
    obtain ⟨hreg, hlt⟩ := h.record_regular hrec
    have hkind' : ((staged fs d (draft st.uid st.gid metadataMode data)).inode f).kind =
        .regular := by
      have hattr : ((staged fs d (draft st.uid st.gid metadataMode data)).inode f).attributes =
          (fs.inode f).attributes := FS.attributes_add (Nat.ne_of_lt hlt)
      exact (congrArg Inode.kind hattr).trans hreg
    simp only [Ne.symm (Nat.ne_of_lt hlt), FS.renameError, hkind, hkind']
    rfl

/-- All old inodes but the record that is replaced stay as they were. -/
theorem attributes_installed (data : Bytes) (hi : i < fs.next)
    (hkind : (fs.inode i).kind ≠ .regular) :
    ((installed st fs d data).inode i).attributes = (fs.inode i).attributes := by
  have hstag : ((staged fs d (draft st.uid st.gid metadataMode data)).inode i).attributes =
      (fs.inode i).attributes := FS.attributes_add (Nat.ne_of_lt hi)
  unfold installed
  split
  · rw [FS.attributes_enter, FS.attributes_leave, hstag]
  rename_i f hf
  have hne : i ≠ f := by
    rintro rfl
    exact hkind (h.record_regular hf).1
  rw [FS.attributes_dropLink hne, FS.attributes_enter, FS.attributes_leave, hstag]

theorem installed_ready (data : Bytes) : st.RootReady (installed st fs d data) := by
  refine h.ready.congr ?_ ?_ (h.attributes_installed data h.root_lt ?_)
  · unfold installed
    split <;> rfl
  · unfold installed
    split <;> rfl
  · rw [h.ready.owned.kind]
    decide

theorem lookup_installed (data : Bytes) (hdir : dir ≠ fs.next) :
    (installed st fs d data).lookup dir name =
      if dir = d ∧ name = metadataName then some fs.next else fs.lookup dir name := by
  have hmoved :
      (((staged fs d (draft st.uid st.gid metadataMode data)).leave d temporaryName).enter d
        metadataName fs.next).lookup dir name =
        if dir = d ∧ name = metadataName then some fs.next else fs.lookup dir name := by
    rw [FS.lookup_enter, FS.lookup_leave, staged, FS.lookup_add hdir]
    by_cases htemp : dir = d ∧ name = temporaryName
    · obtain ⟨rfl, rfl⟩ := htemp
      simp [h.no_temporary]
    · simp [htemp]
  unfold installed
  split
  · exact hmoved
  · rw [FS.lookup_dropLink, hmoved]

theorem inode_installed (data : Bytes) :
    (installed st fs d data).inode fs.next = draft st.uid st.gid metadataMode data := by
  have hmoved :
      (((staged fs d (draft st.uid st.gid metadataMode data)).leave d temporaryName).enter d
        metadataName fs.next).inode fs.next = draft st.uid st.gid metadataMode data := by
    rw [FS.enter, FS.inode_modify_ne _ h.dir_ne.symm, FS.leave,
      FS.inode_modify_ne _ h.dir_ne.symm, staged, FS.inode_add_next h.dir_ne]
  unfold installed
  split
  · exact hmoved
  · rename_i hf
    rw [FS.dropLink, FS.inode_modify_ne _ (.symm (Nat.ne_of_lt (h.record_regular hf).2)), hmoved]

/-- **The new record is read back.** -/
theorem recorded_installed (hid : sessionIDPattern id = true)
    (hent : fs.lookup st.ino id = some d) (hne : st.ino ≠ d)
    (hsize : 1 ≤ data.length ∧ data.length ≤ maxMetadataSize)
    (hdec : decodeSnapshot data id = .ok snapshot) :
    st.Recorded (installed st fs d data) id d fs.next snapshot := by
  have hinode := h.inode_installed data
  have hlook : ∀ name, (installed st fs d data).lookup d name =
      if name = metadataName then some fs.next else fs.lookup d name := by
    intro name
    rw [h.lookup_installed data h.dir_ne]
    simp
  have hreg : OwnedRegular ((installed st fs d data).inode fs.next) st.uid st.gid
      metadataMode := by
    rw [hinode]
    exact ⟨rfl, rfl, rfl, rfl, rfl⟩
  refine ⟨⟨hid, ?_, h.owned.congr (h.attributes_installed data h.below ?_)⟩, ?_, ?_, hreg, ?_,
    ?_, ?_⟩
  · rwa [h.lookup_installed data (Nat.ne_of_lt h.root_lt), if_neg fun hand => hne hand.1]
  · rw [h.owned.kind]
    decide
  · intro name hname
    obtain ⟨i, hi⟩ := mem_keys_iff.1 hname
    rw [hlook] at hi
    split at hi
    · rename_i hmeta
      subst hmeta
      exact ⟨fs.next, by rw [hlook, if_pos rfl], .inl rfl, hreg⟩
    rename_i hmeta
    -- the other names stand for documented directories
    have hold := h.names name (mem_keys_iff.2 ⟨i, hi⟩)
    refine hold.congr (by rw [hlook, if_neg hmeta]) fun j hj => ?_
    refine h.attributes_installed data (h.closed.entries _ _ _ hj) ?_
    obtain ⟨k, hk, hown⟩ := hold
    cases hk.symm.trans hj
    split at hown
    · rw [hown.kind]
      decide
    · obtain ⟨hname | ⟨hfalse, -⟩, -⟩ := hown
      · exact absurd hname hmeta
      · cases hfalse
  · rw [hlook, if_pos rfl]
  · rw [hinode]
    exact hsize.1
  · rw [hinode]
    exact hsize.2
  · rwa [hinode]

end Writable

/-! ## The outcomes of a write -/

/-- Where failures do harm: `undo` at the removal of the temporary file, `late` after the
rename, and nowhere else. -/
structure Harms (harm : Call → FS → Bool) (st : Store) (fs : FS) (d : Nat) (data : Bytes)
    (undo late : Bool) : Prop where
  early : ∀ c, (∀ dir name, c ≠ .unlink dir name) → harm c fs = false
  staged : ∀ c n, (∀ dir name, c ≠ .unlink dir name) → harm c (staged fs d n) = false
  undo : ∀ n, harm (.unlink d temporaryName) (Store.staged fs d n) = undo
  late : ∀ c, c.readOnly = true → harm c (installed st fs d data) = late

/-- What `saveAt` can end with. -/
inductive SaveOutcome (st : Store) (fs : FS) (d : Nat) (data : Bytes) (v undo late : Bool) :
    Except Failure Unit → FS → Bool → Prop
  | done : SaveOutcome st fs d data v undo late (.ok ()) (installed st fs d data) v
  | unchanged (e : Failure) : SaveOutcome st fs d data v undo late (.error e) fs v
  | discarded (e : Failure) (n : Inode) :
      SaveOutcome st fs d data v undo late (.error e) (discarded fs d n) v
  | abandoned (e : Failure) (n : Inode) :
      SaveOutcome st fs d data v undo late (.error e) (staged fs d n) (v && !undo)
  | late (e : Failure) :
      SaveOutcome st fs d data v undo late (.error e) (installed st fs d data) (v && !late)

section

variable {harm : Call → FS → Bool} {data : Bytes} {v undo late : Bool}

theorem ne_unlink_of_readOnly {c : Call} (hc : c.readOnly = true) (dir : Nat) (name : String) :
    c ≠ .unlink dir name := by
  rintro rfl
  cases hc

/-- Every write appends, and after the last one the content is complete. -/
theorem yields_writeLoop (hw : st.Writable fs d) (hharm : Harms harm st fs d data undo late)
    (uid gid mode : Nat) (fuel : Nat) (rest written : Bytes) (hfuel : rest.length ≤ fuel) :
    Yields harm (writeLoop fs.next fuel rest).run (fun r fs' v' => v' = v ∧
      ∃ content, fs' = staged fs d (draft uid gid mode content) ∧
        (r = .ok () → content = written ++ rest))
      (staged fs d (draft uid gid mode written)) v := by
  induction fuel generalizing rest written with
  | zero =>
    obtain rfl : rest = [] := length_eq_zero_iff.1 (Nat.le_zero.1 hfuel)
    exact yields_pure ⟨rfl, written, rfl, fun _ => by simp⟩
  | succ fuel ih =>
    cases rest with
    | nil => exact yields_pure ⟨rfl, written, rfl, fun _ => by simp⟩
    | cons b rest =>
      have happ := hw.append uid gid mode written
      refine yields_then (yields_sys (fun short => ?_) fun e short => ?_)
      · simp only [FS.perform, Except.mapError, Next, happ]
        generalize hk : (b :: rest).length - short = k
        have hlen : ((b :: rest).take k).length = k := by
          rw [length_take]
          omega
        rw [hlen]
        split
        · exact yields_pure ⟨rfl, _, rfl, fun h => by cases h⟩
        rename_i hpos
        have hpos : k ≠ 0 := hpos
        refine (ih ((b :: rest).drop k) (written ++ (b :: rest).take k) ?_).post ?_
        · rw [length_drop]
          omega
        · rintro r fs' v' ⟨hv, content, hfs, hcont⟩
          refine ⟨hv, content, hfs, fun hr => ?_⟩
          rw [hcont hr, append_assoc, take_append_drop]
      · rw [hharm.staged _ _ (by simp), FS.interrupted, happ]
        exact ⟨by simp, _, rfl, fun h => by cases h⟩

/-- The temporary file from its creation to its renaming. -/
theorem yields_stage (hw : st.Writable fs d) (hharm : Harms harm st fs d data undo late) :
    Yields harm (st.stage d fs.next data).run (fun r fs' v' => v' = v ∧
      (r = .ok () ∧ fs' = installed st fs d data ∨
        ∃ e uid gid mode content, r = .error e ∧ fs' = staged fs d (draft uid gid mode content)))
      (staged fs d (draft fs.uid fs.gid metadataMode [])) v := by
  have hfine : ∀ c n, (∀ dir name, c ≠ .unlink dir name) → (v && !harm c (staged fs d n)) = v := by
    intro c n hc
    rw [hharm.staged c n hc]
    simp
  have hread : ∀ n c, c.readOnly = true → harm c (staged fs d n) = false :=
    fun n c hc => hharm.staged c n (ne_unlink_of_readOnly hc)
  have hsec : Yields harm (setOwnedMode fs.next st.uid st.gid metadataMode).run
      (fun r fs' v' => v' = v ∧ ∃ uid gid mode, fs' = staged fs d (draft uid gid mode []) ∧
        (r = .ok () → uid = st.uid ∧ gid = st.gid ∧ mode = metadataMode))
      (staged fs d (draft fs.uid fs.gid metadataMode [])) v := by
    refine yields_sys_then (fun short => hw.chown short _ _ _ _ _ _) ?_ fun e short =>
      ⟨hfine _ _ (by simp), _, _, _, rfl, fun h => by cases h⟩
    refine yields_sys (fun short => ?_) fun e short =>
      ⟨hfine _ _ (by simp), _, _, _, rfl, fun h => by cases h⟩
    rw [hw.chmod]
    exact ⟨rfl, _, _, _, rfl, fun _ => ⟨rfl, rfl, rfl⟩⟩
  refine yields_then (yields_mapError (hsec.post fun r fs' v' hr => ?_))
  obtain ⟨rfl, uid, gid, mode, rfl, hok⟩ := hr
  cases r with
  | error => exact ⟨rfl, .inr ⟨_, _, _, _, _, rfl, rfl⟩⟩
  | ok =>
    obtain ⟨rfl, rfl, rfl⟩ := hok rfl
    simp only [Next]
    refine yields_then (yields_mapError ((yields_writeLoop hw hharm st.uid st.gid metadataMode
      data.length data [] le_rfl).post fun r fs' v' hr => ?_))
    obtain ⟨rfl, content, rfl, hcont⟩ := hr
    cases r with
    | error => exact ⟨rfl, .inr ⟨_, _, _, _, _, rfl, rfl⟩⟩
    | ok =>
      obtain rfl : content = data := hcont rfl
      simp only [Next]
      refine yields_sys_then (fun short => rfl) ?_ fun e short =>
        ⟨hfine _ _ (by simp), .inr ⟨_, _, _, _, _, rfl, rfl⟩⟩
      refine yields_sys_then (fun short => rfl) ?_ fun e short =>
        ⟨hfine _ _ (by simp), .inr ⟨_, _, _, _, _, rfl, rfl⟩⟩
      refine yields_read st.reads_verifyRootPathIdentity (hread _)
        (quietly_verifyRootPathIdentity.2 (hw.staged_ready _)) ?_ fun e =>
          ⟨by simp, .inr ⟨_, _, _, _, _, rfl, rfl⟩⟩
      refine yields_sys (fun short => ?_) fun e short =>
        ⟨hfine _ _ (by simp), .inr ⟨_, _, _, _, _, rfl, rfl⟩⟩
      rw [hw.rename]
      exact ⟨rfl, .inl ⟨rfl, rfl⟩⟩

theorem each_removeIncomplete {names} (h : temporaryName ∉ names) :
    each (removeIncomplete d) names = pure () := by
  induction names with
  | nil => rfl
  | cons name names ih =>
    obtain ⟨hname, hnames⟩ := not_or.1 (mt mem_cons.2 h)
    rw [each, ih hnames, removeIncomplete, if_neg (Ne.symm hname)]
    rfl

/-- **What `saveAt` can end with**, whatever calls fail. -/
theorem saveAt_yields (hw : st.Writable fs d) (hharm : Harms harm st fs d data undo late) :
    Yields harm (st.saveAt d data).run (SaveOutcome st fs d data v undo late) fs v := by
  have hfine : ∀ c, (∀ dir name, c ≠ .unlink dir name) → (v && !harm c fs) = v := by
    intro c hc
    rw [hharm.early c hc]
    simp
  have hread : ∀ c, c.readOnly = true → harm c fs = false :=
    fun c hc => hharm.early c (ne_unlink_of_readOnly hc)
  have hunch : ∀ e, SaveOutcome st fs d data v undo late (.error e) fs (v && !false) := by
    intro e
    rw [Bool.not_false, Bool.and_true]
    exact .unchanged e
  have hents : quietly (st.verifySessionEntries d true true) fs =
      .ok ((fs.inode d).entries.keys.insertionSort (· ≤ ·)) := by
    refine quietly_verifySessionEntries.2 ⟨fun name hname => ?_, rfl⟩
    obtain ⟨i, hi, hown⟩ := hw.names name hname
    refine ⟨i, hi, ?_⟩
    split_ifs at hown ⊢
    · exact hown
    · exact ⟨hown.1.imp_right fun h => absurd h.1 (by decide), hown.2⟩
  have htemp : temporaryName ∉ (fs.inode d).entries.keys.insertionSort (· ≤ ·) := by
    rw [mem_insertionSort]
    intro hmem
    exact not_permitted_temporary (hw.names _ hmem)
  refine yields_read (st.reads_verifySessionFD d) hread (quietly_verifySessionFD.2 hw.owned) ?_
    hunch
  refine yields_read (st.reads_verifySessionEntries d true true) hread hents ?_ hunch
  rw [each_removeIncomplete htemp]
  refine yields_sys_then (fun short => hw.create short metadataMode) ?_ fun e short => by
    rw [hfine _ (by simp)]
    exact .unchanged _
  refine yields_then (yields_onError ((yields_stage hw hharm).post fun r fs' v' hr => ?_))
  obtain ⟨rfl, ⟨rfl, rfl⟩ | ⟨e, uid, gid, mode, content, rfl, rfl⟩⟩ := hr
  · refine yields_sys_then (fun short => rfl) ?_ fun e short => ?_
    · have hident := (st.reads_verifyRootPathIdentity).faults harm _ v' late hharm.late
      refine hident.post fun r fs' v'' hr => ?_
      rw [quietly_verifyRootPathIdentity.2 (hw.installed_ready data)] at hr
      obtain ⟨rfl, ⟨rfl, rfl⟩ | ⟨e, rfl, rfl⟩⟩ := hr
      · exact .done
      · exact .late e
    · rw [hharm.late _ rfl]
      exact .late _
  · refine yields_bind (yields_ignore (fun short => yields_pure ?_) fun short => yields_pure ?_)
    · rw [hw.unlink]
      exact .discarded e _
    · rw [hharm.undo]
      exact .abandoned e _

end

/-! ## What `Load` gives afterwards -/

theorem RootReady.ne_dir (h : st.RootReady fs)
    (hd : OwnedDirectory (fs.inode d) st.uid st.gid sessionDirMode) : st.ino ≠ d := by
  rintro rfl
  exact absurd (h.owned.mode.symm.trans hd.mode) (by decide)

theorem Writable.lookup_discarded (h : st.Writable fs d) (n : Inode) (name : String)
    (hdir : dir ≠ fs.next) : (discarded fs d n).lookup dir name = fs.lookup dir name := by
  rw [discarded, FS.lookup_dropLink, FS.lookup_leave, staged, FS.lookup_add hdir]
  by_cases htemp : dir = d ∧ name = temporaryName
  · obtain ⟨rfl, rfl⟩ := htemp
    simp [h.no_temporary]
  · simp [htemp]

theorem attributes_discarded {n} (hi : i ≠ fs.next) :
    ((discarded fs d n).inode i).attributes = (fs.inode i).attributes := by
  rw [discarded, FS.attributes_dropLink hi, FS.attributes_leave, staged, FS.attributes_add hi]

/-- A temporary file that was removed again changes nothing for readers. -/
theorem Recorded.discarded (h : st.Recorded fs id d f snapshot) (hw : st.Writable fs d)
    (n : Inode) : st.Recorded (discarded fs d n) id d f snapshot :=
  h.congr (hw.lookup_discarded n id (Nat.ne_of_lt hw.root_lt))
    (fun name => hw.lookup_discarded n name hw.dir_ne) (attributes_discarded hw.dir_ne)
    fun _ _ hi => attributes_discarded (Nat.ne_of_lt (hw.closed.entries _ _ _ hi))

theorem Writable.lookup_root_staged (h : st.Writable fs d) (n : Inode) (name : String) :
    (staged fs d n).lookup st.ino name = fs.lookup st.ino name := by
  rw [staged, FS.lookup_add (Nat.ne_of_lt h.root_lt), if_neg]
  exact fun hand => h.ready.ne_dir h.owned hand.1

/-- A temporary file that is left behind makes the record unreadable. -/
theorem Writable.not_recorded_staged (h : st.Writable fs d) (hent : fs.lookup st.ino id = some d)
    (n : Inode) {d' f' : Nat} : ¬ st.Recorded (staged fs d n) id d' f' snapshot := by
  intro hrec
  have hd := hrec.session.entry
  rw [h.lookup_root_staged, hent] at hd
  cases hd
  exact not_permitted_temporary (hrec.names _ (mem_keys_iff.2 ⟨_, h.lookup_staged n⟩))

/-! ## Creating a directory -/

/-- A new directory, empty and in order. -/
theorem RootReady.writable_add (h : st.RootReady fs) (hcl : fs.Closed) (n : Inode)
    (hn : OwnedDirectory n st.uid st.gid sessionDirMode) (hemp : n.entries = ∅) :
    st.Writable (fs.add st.ino id n) fs.next := by
  have hroot : st.ino ≠ fs.next := Nat.ne_of_lt (hcl.paths _ _ h.path)
  have hinode : (fs.add st.ino id n).inode fs.next = n := FS.inode_add_next hroot
  refine ⟨h.congr rfl rfl (FS.attributes_add hroot), by rwa [hinode], fun name hname => ?_,
    hcl.add hemp, Nat.lt_succ_self _⟩
  rw [hinode, hemp] at hname
  cases hname

theorem populate_yields (hready : st.RootReady fs) (hcl : fs.Closed) (n : Inode)
    (hkind : n.kind = .directory) (hemp : n.entries = ∅) :
    Yields (fun _ _ => false) (st.populate st.ino id data).run (fun r fs' _ => r = .ok () →
      ∃ n', OwnedDirectory n' st.uid st.gid sessionDirMode ∧ n'.entries = ∅ ∧
        fs' = installed st (fs.add st.ino id n') fs.next data) (fs.add st.ino id n) true := by
  have hroot : st.ino ≠ fs.next := Nat.ne_of_lt (hcl.paths _ _ hready.path)
  have hlook : ∀ n, (fs.add st.ino id n).lookup st.ino id = some fs.next := by
    intro n
    rw [FS.lookup_add hroot]
    simp
  have hopen : ∀ short, (fs.add st.ino id n).perform short (.openDirectory st.ino id) =
      (.ok fs.next, fs.add st.ino id n) := by
    refine fun short => Prod.ext (FS.openDirectory_eq_ok.2 ⟨hlook n, ?_⟩) rfl
    rwa [FS.inode_add_next hroot]
  refine yields_sys_then hopen ?_ fun e short h => by cases h
  refine yields_then (yields_mapError ?_)
  have hsec : Yields (fun _ _ => false) (setOwnedMode fs.next st.uid st.gid sessionDirMode).run
      (fun r fs' _ => r = .ok () →
        fs' = fs.add st.ino id { n with uid := st.uid, gid := st.gid, mode := sessionDirMode })
      (fs.add st.ino id n) true := by
    refine yields_sys_then (fun short => rfl) ?_ fun e short h => by cases h
    refine yields_sys (fun short => ?_) fun e short h => by cases h
    intro _
    simp only [FS.perform, FS.chown, FS.chmod, FS.modify_add hroot]
  refine hsec.post fun r fs' v' hr => ?_
  cases r with
  | error => exact fun h => by cases h
  | ok =>
    obtain rfl := hr rfl
    generalize hn' : ({ n with uid := st.uid, gid := st.gid, mode := sessionDirMode }) = n'
    have hown : OwnedDirectory n' st.uid st.gid sessionDirMode := by
      subst hn'
      exact ⟨hkind, rfl, rfl, rfl⟩
    have hemp' : n'.entries = ∅ := by
      subst hn'
      exact hemp
    have hw : st.Writable (fs.add st.ino id n') fs.next :=
      hready.writable_add hcl n' hown hemp'
    have hharm : Harms (fun _ _ => false) st (fs.add st.ino id n') fs.next data false false :=
      ⟨fun _ _ => rfl, fun _ _ _ => rfl, fun _ => rfl, fun _ _ => rfl⟩
    simp only [Next]
    refine yields_then ((saveAt_yields hw hharm).post fun r fs' v' hr => ?_)
    cases hr with
    | done =>
      simp only [Next]
      refine yields_sys_then (fun short => rfl) ?_ fun e short h => by cases h
      refine yields_sys_then (fun short => rfl) ?_ fun e short h => by cases h
      refine (st.reads_verifyRootPathIdentity.faults _ _ v' false fun _ _ => rfl).post ?_
      rintro r fs' v'' ⟨rfl, -⟩ -
      exact ⟨n', hown, hemp', rfl⟩
    | _ => exact fun h => by cases h

/-- **A record that was created is read back.** -/
theorem create_yields (hready : st.RootReady fs) (hcl : fs.Closed)
    (hid : sessionIDPattern snapshot.id = true) (henc : encodeSnapshot snapshot = .ok data)
    (hsize : 1 ≤ data.length ∧ data.length ≤ maxMetadataSize)
    (hdec : decodeSnapshot data snapshot.id = .ok snapshot) :
    Yields (fun _ _ => false) (st.create snapshot).run (fun r fs' _ => r = .ok () →
      st.RootReady fs' ∧ ∃ d f, st.Recorded fs' snapshot.id d f snapshot) fs true := by
  have hroot : st.ino ≠ fs.next := Nat.ne_of_lt (hcl.paths _ _ hready.path)
  refine yields_check_then (mapError_eq_ok.2 henc) ?_
  refine yields_read st.reads_openRoot (fun _ _ => rfl) (quietly_openRoot.2 ⟨hready, rfl⟩) ?_
    fun e h => by cases h
  refine yields_then (yields_sys (fun short => ?_) fun e short h => by cases h)
  simp only [FS.perform]
  cases hnew : fs.lookup st.ino snapshot.id with
  | some => exact fun h => by cases h
  | none =>
    simp only [Next]
    refine yields_onError ((populate_yields hready hcl _ rfl rfl).post fun r fs' v' hr => ?_)
    cases r with
    | error => exact Safe.post (.trivial _ _) fun _ _ _ h => by cases h
    | ok =>
      intro _
      obtain ⟨n', hown, hemp, rfl⟩ := hr rfl
      have hw : st.Writable (fs.add st.ino snapshot.id n') fs.next :=
        hready.writable_add hcl n' hown hemp
      refine ⟨hw.installed_ready data, _, _, hw.recorded_installed hid ?_ hroot hsize hdec⟩
      rw [FS.lookup_add hroot]
      simp

end Store

end PrivateVm.Session
