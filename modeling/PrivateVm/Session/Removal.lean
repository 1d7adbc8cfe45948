import PrivateVm.Session.Journal

set_option autoImplicit false

/-! # Removing a session while calls fail

`Remove` gives the directory of a session another name, takes the record out of it and then
removes it; a failure on the way gives the directory its name back. The directory may stay behind
under the other name, and it may get its name back without the record (`RemoveOutcome`).
`remove_usable` judges a `Remove` that returns an error.
-/

namespace PrivateVm.Session

open Decimal Checked FileSystem Program

namespace Store

variable {st : Store} {fs fs' : FS} {id : String} {d f : Nat} {snapshot : Snapshot}

/-! ## The states of a removal -/

theorem removingName_ne : removingName id ≠ id := by
  intro h
  have hlen := congrArg String.length h
  rw [removingName, String.length_append] at hlen
  have hten : ".removing-".length = 10 := by decide
  omega

/-- The directory has its other name. -/
def isolated (st : Store) (fs : FS) (id : String) (d : Nat) : FS :=
  (fs.leave st.ino id).enter st.ino (removingName id) d

/-- The directory has its name again. -/
def restored (st : Store) (fs : FS) (id : String) (d : Nat) : FS :=
  (fs.leave st.ino (removingName id)).enter st.ino id d

/-- The record is taken out of the directory. -/
def emptied (fs : FS) (d f : Nat) : FS := (fs.leave d metadataName).dropLink f

/-- The record and then the directory are removed. -/
def removed (st : Store) (fs : FS) (id : String) (d f : Nat) : FS :=
  (emptied (isolated st fs id d) d f).leave st.ino (removingName id)

theorem lookup_isolated (dir : Nat) (name : String) : (isolated st fs id d).lookup dir name =
    if dir = st.ino ∧ name = removingName id then some d
    else if dir = st.ino ∧ name = id then none else fs.lookup dir name := by
  rw [isolated, FS.lookup_enter, FS.lookup_leave]

theorem lookup_emptied (dir : Nat) (name : String) :
    (emptied (isolated st fs id d) d f).lookup dir name =
      if dir = d ∧ name = metadataName then none else (isolated st fs id d).lookup dir name := by
  rw [emptied, FS.lookup_dropLink, FS.lookup_leave]

variable {i : Nat}

/-- The kind, the owner and the content of all but the record stay. -/
theorem attributes_emptied (hi : i ≠ f) :
    ((emptied (isolated st fs id d) d f).inode i).attributes = (fs.inode i).attributes := by
  simp [emptied, isolated, FS.attributes_dropLink hi]

theorem attributes_restored (i : Nat) :
    ((restored st (isolated st fs id d) id d).inode i).attributes = (fs.inode i).attributes := by
  simp [restored, isolated]

theorem attributes_removed (hi : i ≠ f) :
    ((removed st fs id d f).inode i).attributes = (fs.inode i).attributes := by
  rw [removed, FS.attributes_leave, attributes_emptied hi]

/-- The directory is there under its other name only. -/
def Aside (st : Store) (fs : FS) (id : String) (d : Nat) : Prop :=
  fs.lookup st.ino (removingName id) = some d ∧ fs.lookup st.ino id = none

theorem aside_isolated : Aside st (isolated st fs id d) id d := by
  simp [Aside, lookup_isolated, removingName_ne.symm]

/-- A recorded session, with no directory under its other name. -/
structure Removing (st : Store) (fs : FS) (id : String) (d f : Nat) (snapshot : Snapshot) :
    Prop where
  ready : st.RootReady fs
  recorded : st.Recorded fs id d f snapshot
  absent : fs.lookup st.ino (removingName id) = none

/-- What `Remove` asks of the names of the directory. -/
def Removable (st : Store) (fs : FS) (d : Nat) : Prop :=
  ∀ name ∈ (fs.inode d).entries.keys, st.Permitted fs d true false name

namespace Removing

variable (h : st.Removing fs id d f snapshot)

include h

theorem root_ne : st.ino ≠ d := h.ready.ne_dir h.recorded.session.owned

theorem file_ne {i : Nat} (hi : (fs.inode i).kind ≠ .regular) : i ≠ f := by
  rintro rfl
  exact hi h.recorded.regular.kind

theorem lookup_isolated_dir (name : String) :
    (isolated st fs id d).lookup d name = fs.lookup d name := by
  rw [lookup_isolated]
  simp [h.root_ne.symm]

theorem lookup_restored (dir : Nat) (name : String) :
    (restored st (isolated st fs id d) id d).lookup dir name = fs.lookup dir name := by
  rw [restored, FS.lookup_enter, FS.lookup_leave, lookup_isolated]
  split_ifs with hid hrem
  · rw [hid.1, hid.2, h.recorded.session.entry]
  · rw [hrem.1, hrem.2, h.absent]
  · rfl

theorem aside_emptied : Aside st (emptied (isolated st fs id d) d f) id d := by
  simp only [Aside, lookup_emptied, h.root_ne, false_and, if_false]
  exact aside_isolated

theorem lookup_removed (dir : Nat) (name : String) :
    (removed st fs id d f).lookup dir name =
      if dir = st.ino ∧ (name = removingName id ∨ name = id) ∨ dir = d ∧ name = metadataName
      then none else fs.lookup dir name := by
  rw [removed, FS.lookup_leave, lookup_emptied, lookup_isolated]
  by_cases hdir : dir = st.ino
  · subst hdir
    by_cases hrem : name = removingName id <;> simp [hrem, h.root_ne]
  · simp [hdir]

theorem ready_isolated : st.RootReady (isolated st fs id d) :=
  h.ready.congr rfl rfl (by rw [isolated, FS.attributes_enter, FS.attributes_leave])

theorem ready_restored : st.RootReady (restored st (isolated st fs id d) id d) :=
  h.ready.congr rfl rfl (attributes_restored _)

theorem ready_removed : st.RootReady (removed st fs id d f) := by
  refine h.ready.congr rfl rfl (attributes_removed (h.file_ne ?_))
  rw [h.ready.owned.kind]
  decide

theorem unlink_emptied (short : Nat) :
    (isolated st fs id d).perform short (.unlink d metadataName) =
      (.ok (), emptied (isolated st fs id d) d f) := by
  have hattr : ((isolated st fs id d).inode f).attributes = (fs.inode f).attributes := by
    rw [isolated, FS.attributes_enter, FS.attributes_leave]
  have hkind : ((isolated st fs id d).inode f).kind = .regular :=
    (congrArg Inode.kind hattr).trans h.recorded.regular.kind
  simp only [FS.perform, h.lookup_isolated_dir, h.recorded.record, hkind]
  rfl

/-- The record is all there is in a directory that can be removed. -/
theorem keys_eq (hremov : st.Removable fs d) : (fs.inode d).entries.keys = [metadataName] := by
  have hall : ∀ name ∈ (fs.inode d).entries.keys, name = metadataName := by
    intro name hname
    obtain ⟨j, -, hrem⟩ := hremov name hname
    rw [Bool.and_false] at hrem
    obtain ⟨rfl | ⟨-, rfl⟩, -⟩ := hrem
    · rfl
    · exact absurd (h.recorded.names _ hname) not_permitted_temporary
  have hmem : metadataName ∈ (fs.inode d).entries.keys := mem_keys_iff.2 ⟨f, h.recorded.record⟩
  have hnd : (fs.inode d).entries.keys.Nodup := (fs.inode d).entries.nodupKeys
  refine List.perm_singleton.1 ((List.perm_ext_iff_of_nodup hnd (List.nodup_singleton _)).2 ?_)
  intro name
  rw [List.mem_singleton]
  exact ⟨hall name, fun hname => hname ▸ hmem⟩

theorem rmdir_isolated (hrem : st.Removable fs d) (short : Nat) :
    (isolated st fs id d).perform short (.rmdir st.ino (removingName id)) =
      (.error .notempty, isolated st fs id d) := by
  have hinode : (isolated st fs id d).inode d = fs.inode d := by
    rw [isolated, FS.enter, FS.inode_modify_ne _ h.root_ne.symm, FS.leave,
      FS.inode_modify_ne _ h.root_ne.symm]
  simp only [FS.perform, aside_isolated.1, hinode, h.recorded.session.owned.kind, h.keys_eq hrem]
  rfl

theorem rmdir_removed (hrem : st.Removable fs d) (short : Nat) :
    (emptied (isolated st fs id d) d f).perform short (.rmdir st.ino (removingName id)) =
      (.ok (), removed st fs id d f) := by
  have hne : d ≠ f := h.file_ne (by rw [h.recorded.session.owned.kind]; decide)
  have hkind : ((emptied (isolated st fs id d) d f).inode d).kind = .directory :=
    (congrArg Inode.kind (attributes_emptied hne)).trans h.recorded.session.owned.kind
  have hkeys : ((emptied (isolated st fs id d) d f).inode d).entries.keys = [] := by
    refine List.eq_nil_iff_forall_not_mem.2 fun name hname => ?_
    obtain ⟨i, hi⟩ := mem_keys_iff.1 hname
    rw [lookup_emptied, h.lookup_isolated_dir] at hi
    have hold : name ∈ (fs.inode d).entries.keys := by
      refine mem_keys_iff.2 ⟨i, ?_⟩
      split at hi
      · cases hi
      · exact hi
    rw [h.keys_eq hrem, List.mem_singleton] at hold
    simp [hold] at hi
  simp only [FS.perform, h.aside_emptied.1, hkind, hkeys]
  rfl

end Removing

/-! ## The outcomes of a removal -/

/-- Where failures do harm: at the rename back, and while the directory is without its record;
elsewhere as `g` says. -/
structure RemovalHarms (harm : Call → FS → Bool) (st : Store) (fs : FS) (id : String) (d f : Nat)
    (g : Bool) : Prop where
  early : ∀ c, c ≠ .rename st.ino (removingName id) id → harm c fs = g
  isolated : ∀ c, c ≠ .rename st.ino (removingName id) id → harm c (isolated st fs id d) = g
  undo : harm (.rename st.ino (removingName id) id) (Store.isolated st fs id d) = true
  restored : ∀ c, c.readOnly = true → harm c (restored st (Store.isolated st fs id d) id d) = g
  emptied : ∀ c, harm c (emptied (Store.isolated st fs id d) d f) = true
  removed : ∀ c, c.readOnly = true → harm c (removed st fs id d f) = g

/-- What `Remove` can end with. A call that is made to fail with `ENOENT` is taken for a name
that is gone, so that an unharmed mark does not come with a success. -/
inductive RemoveOutcome (st : Store) (fs : FS) (id : String) (d f : Nat) (v g : Bool) :
    Except Failure Unit → FS → Bool → Prop
  | done {w : Bool} (names : st.Removable fs d) (mark : w = v ∨ w = (v && !g)) :
      RemoveOutcome st fs id d f v g (.ok ()) (removed st fs id d f) w
  | skipped : RemoveOutcome st fs id d f v g (.ok ()) fs (v && !g)
  | refused (e : Failure) (names : ¬ st.Removable fs d) :
      RemoveOutcome st fs id d f v g (.error e) fs v
  | unchanged (e : Failure) : RemoveOutcome st fs id d f v g (.error e) fs (v && !g)
  | restored (e : Failure) :
      RemoveOutcome st fs id d f v g (.error e) (restored st (isolated st fs id d) id d) (v && !g)
  | isolated (e : Failure) : RemoveOutcome st fs id d f v g (.error e) (isolated st fs id d) false
  | emptied (e : Failure) :
      RemoveOutcome st fs id d f v g (.error e) (emptied (isolated st fs id d) d f) false
  | halted (e : Failure) :
      RemoveOutcome st fs id d f v g (.error e)
        (restored st (emptied (isolated st fs id d) d f) id d) false
  | late (e : Failure) : RemoveOutcome st fs id d f v g (.error e) (removed st fs id d f) (v && !g)

section

variable {harm : Call → FS → Bool} {v w g : Bool}

theorem mark_failed (hw : w = v ∨ w = (v && !g)) : (w && !g) = (v && !g) := by
  obtain rfl | rfl := hw
  · rfl
  · rw [Bool.and_assoc, Bool.and_self]

theorem ne_rename_of_readOnly {c : Call} (hc : c.readOnly = true) (dir : Nat) (old new : String) :
    c ≠ .rename dir old new := by
  rintro rfl
  cases hc

theorem dismantle_yields (h : st.Removing fs id d f snapshot) (hrem : st.Removable fs d)
    (hharm : RemovalHarms harm st fs id d f g) (hw : w = v ∨ w = (v && !g)) :
    Yields harm (st.dismantle st.ino d id [metadataName]).run (fun r fs' w' =>
      r = .ok () ∧ fs' = removed st fs id d f ∧ w' = w ∨
      (∃ e, r = .error e) ∧ (fs' = isolated st fs id d ∧ w' = (v && !g) ∨
        fs' = emptied (isolated st fs id d) d f ∧ w' = false)) (isolated st fs id d) w := by
  have hread : ∀ c, c.readOnly = true → harm c (isolated st fs id d) = g :=
    fun c hc => hharm.isolated c (ne_rename_of_readOnly hc _ _ _)
  have hmark : ∀ c, c ≠ .rename st.ino (removingName id) id →
      (w && !harm c (isolated st fs id d)) = (v && !g) :=
    fun c hc => by rw [hharm.isolated c hc, mark_failed hw]
  refine yields_sys_then (fun short => rfl) ?_ fun e short =>
    .inr ⟨⟨_, rfl⟩, .inl ⟨rfl, hmark _ (by simp)⟩⟩
  refine yields_read st.reads_verifyRootPathIdentity hread
    (quietly_verifyRootPathIdentity.2 h.ready_isolated) ?_ fun e =>
    .inr ⟨⟨e, rfl⟩, .inl ⟨rfl, mark_failed hw⟩⟩
  refine yields_then (yields_then (yields_attempt (fun short => ?_) fun e short => ?_))
  · -- the record is removed, and nothing else is in the directory
    rw [h.unlink_emptied]
    refine yields_pure (yields_pure ?_)
    simp only [Next]
    refine yields_sys (fun short => ?_) fun e short =>
      .inr ⟨⟨_, rfl⟩, .inr ⟨rfl, by rw [hharm.emptied]; simp⟩⟩
    rw [h.rmdir_removed hrem]
    exact .inl ⟨rfl, rfl, rfl⟩
  · cases e with
    | noent =>
      -- the record is still there, and the directory cannot be removed
      refine yields_pure (yields_pure ?_)
      simp only [Next]
      rw [hmark _ (by simp)]
      change Yields harm _ _ (isolated st fs id d) _
      refine yields_sys (fun short => ?_) fun e short =>
        .inr ⟨⟨_, rfl⟩, .inl ⟨rfl, by rw [hharm.isolated _ (by simp), mark_failed (.inr rfl)]⟩⟩
      rw [h.rmdir_isolated hrem]
      exact .inr ⟨⟨_, rfl⟩, .inl ⟨rfl, rfl⟩⟩
    | _ => exact yields_pure (.inr ⟨⟨_, rfl⟩, .inl ⟨rfl, hmark _ (by simp)⟩⟩)

/-- The rename back and the sync after it: the directory has its name again, or nothing is done. -/
theorem undo_yields {Q : Failure → FS → Bool → Prop} (e : Failure) (hfs : Aside st fs id d)
    (hren : (w && !harm (.rename st.ino (removingName id) id) fs) = false)
    (hsync : (w && !harm (.fsync st.ino) (restored st fs id d)) = w)
    (hback : Q e (restored st fs id d) w) (hkept : Q e fs false) :
    Yields harm (do
      ignore (.rename st.ino (removingName id) id)
      ignore (.fsync st.ino)
      return e) Q fs w := by
  refine yields_bind (yields_ignore (fun short => ?_) fun short => ?_)
  · rw [FS.perform_rename hfs.1 hfs.2]
    refine yields_bind (yields_ignore (fun short => yields_pure hback) fun short => ?_)
    rw [← restored, hsync]
    exact yields_pure hback
  · rw [hren]
    exact yields_bind (yields_ignore (fun short => yields_pure hkept) fun short =>
      yields_pure hkept)

theorem removeSession_yields (h : st.Removing fs id d f snapshot)
    (hharm : RemovalHarms harm st fs id d f g) :
    Yields harm (st.removeSession st.ino d id).run (RemoveOutcome st fs id d f v g) fs v := by
  have hread : ∀ c, c.readOnly = true → harm c fs = g :=
    fun c hc => hharm.early c (ne_rename_of_readOnly hc _ _ _)
  refine yields_then (((st.reads_verifySessionEntries d true false).faults harm fs v g hread).post
    fun r fs' v' hr => ?_)
  obtain ⟨rfl, ⟨rfl, rfl⟩ | ⟨e, rfl, rfl⟩⟩ := hr
  swap
  · exact .unchanged e
  cases hnames : quietly (st.verifySessionEntries d true false) fs' with
  | error e =>
    refine .refused e fun hrem => ?_
    rw [quietly_verifySessionEntries.2 ⟨hrem, rfl⟩] at hnames
    cases hnames
  | ok =>
    obtain ⟨hrem, rfl⟩ := quietly_verifySessionEntries.1 hnames
    rw [h.keys_eq hrem]
    have hrest : ∀ w, w = v' ∨ w = (v' && !g) → Yields harm (do
        sys (.rename st.ino id (removingName id))
          (.errorf "isolate volatile session directory for removal")
        onError (st.dismantle st.ino d id [metadataName]) fun e => do
          ignore (.rename st.ino (removingName id) id)
          ignore (.fsync st.ino)
          return e
        sys (.fsync st.ino) (.errorf "sync runtime root after session removal")
        st.verifyRootPathIdentity : Action Failure Unit).run
        (RemoveOutcome st fs' id d f v' g) fs' w := by
      intro w hw
      refine yields_sys_then (fun _ => FS.perform_rename h.recorded.session.entry h.absent) ?_
        fun e short => ?_
      · refine yields_then (yields_onError ((dismantle_yields h hrem hharm hw).post ?_))
        rintro r fs'' w' (⟨rfl, rfl, rfl⟩ | ⟨⟨e, rfl⟩, ⟨rfl, rfl⟩ | ⟨rfl, rfl⟩⟩)
        · refine yields_sys_then (fun short => rfl) ?_ fun e short => ?_
          · refine (st.reads_verifyRootPathIdentity.faults harm _ w' g hharm.removed).post ?_
            rintro r fs'' w'' ⟨rfl, ⟨rfl, rfl⟩ | ⟨e, rfl, rfl⟩⟩
            · rw [quietly_verifyRootPathIdentity.2 h.ready_removed]
              exact .done hrem hw
            · rw [mark_failed hw]
              exact .late e
          · rw [hharm.removed _ rfl, mark_failed hw]
            exact .late _
        · refine undo_yields e aside_isolated ?_ ?_ (.restored e) (.isolated e)
          · rw [hharm.undo, Bool.not_true, Bool.and_false]
          · rw [hharm.restored _ rfl, mark_failed (.inr rfl)]
        · exact undo_yields e h.aside_emptied rfl rfl (.halted e) (.emptied e)
      · rw [hharm.early _ ?_, mark_failed hw]
        · exact .unchanged _
        · simp [removingName_ne.symm]
    refine yields_then (yields_attempt (fun short => ?_) fun e short => ?_)
    · simp only [FS.perform, h.absent]
      exact yields_pure (hrest v' (.inl rfl))
    · rw [hharm.early _ (by simp)]
      cases e with
      | noent => exact yields_pure (hrest _ (.inr rfl))
      | _ => exact yields_pure (.unchanged _)

/-- **What `Remove` ends with**, whatever calls fail. -/
theorem remove_yields (h : st.Removing fs id d f snapshot)
    (hharm : RemovalHarms harm st fs id d f g) :
    Yields harm (st.remove id).run (RemoveOutcome st fs id d f v g) fs v := by
  have hread : ∀ c, c.readOnly = true → harm c fs = g :=
    fun c hc => hharm.early c (ne_rename_of_readOnly hc _ _ _)
  refine yields_check_then (checkID_eq_ok.2 h.recorded.session.valid) ?_
  refine yields_read st.reads_openRoot hread (quietly_openRoot.2 ⟨h.ready, rfl⟩) ?_ .unchanged
  refine yields_bind (((st.reads_openSession st.ino id).faults harm fs v g hread).post ?_)
  rintro r fs' v' ⟨rfl, ⟨rfl, rfl⟩ | ⟨e, rfl, rfl⟩⟩
  · rw [quietly_openSession.2 h.recorded.session]
    exact removeSession_yields h hharm
  · simp only
    split
    · exact yields_pure .skipped
    · exact yields_pure (.unchanged e)

end

/-! ## What the other sessions keep -/

variable {controlGID : Nat}

theorem ControlSocket.congr {n n'} (h : st.ControlSocket controlGID n)
    (heq : n'.attributes = n.attributes) : st.ControlSocket controlGID n' where
  kind := (congrArg Inode.kind heq).trans h.kind
  uid := (congrArg Inode.uid heq).trans h.uid
  gid := (congrArg Inode.gid heq).trans h.gid
  mode := (congrArg Inode.mode heq).trans h.mode

theorem Listed.congr {name} (h : st.Listed controlGID fs name)
    (hlook : ∀ dir name, fs'.lookup dir name = fs.lookup dir name)
    (hattr : ∀ i, (fs'.inode i).attributes = (fs.inode i).attributes) :
    st.Listed controlGID fs' name := by
  unfold Listed at h ⊢
  split_ifs at h ⊢
  · obtain ⟨i, hi, hsock⟩ := h
    exact ⟨i, (hlook _ _).trans hi, hsock.congr (hattr i)⟩
  · obtain ⟨d, f, snapshot, h⟩ := h
    exact ⟨d, f, snapshot, h.congr (hlook _ _) (hlook d) (hattr d) fun _ i _ => hattr i⟩

theorem Recorded.id_eq {id'} {d' : Nat} {snapshot'} (h : st.Recorded fs id d f snapshot)
    (h' : st.Recorded fs id' d' f snapshot') : id = id' := by
  obtain ⟨v, hv, -, hd, -, hid⟩ := decodeSnapshot_eq_ok.1 h.decoded
  obtain ⟨v', hv', -, hd', -, hid'⟩ := decodeSnapshot_eq_ok.1 h'.decoded
  obtain rfl : v = v' := Json.Value.toks_injective (Option.some.inj (hv.symm.trans hv'))
  obtain rfl := Option.some.inj (hd.symm.trans hd')
  exact hid.symm.trans hid'

namespace Removing

variable (h : st.Removing fs id d f snapshot)

include h

/-- The other sessions are recorded as before. -/
theorem recorded_removed {name} {d' f' : Nat} {snapshot'} (h' : st.Recorded fs name d' f' snapshot')
    (hne : name ≠ id) : st.Recorded (removed st fs id d f) name d' f' snapshot' := by
  have hfile : f' ≠ f := by
    rintro rfl
    exact hne (h'.id_eq h.recorded)
  have hdir : d' ≠ d := by
    rintro rfl
    exact hfile (Option.some.inj (h'.record.symm.trans h.recorded.record))
  have hroot : d' ≠ st.ino := (h.ready.ne_dir h'.session.owned).symm
  have hname : name ≠ removingName id := by
    rintro rfl
    exact absurd (h'.session.entry.symm.trans h.absent) (by simp)
  refine h'.congr ?_ (fun name => ?_) (attributes_removed (h.file_ne ?_)) fun entry i hi => ?_
  · rw [h.lookup_removed, if_neg]
    rintro (⟨-, rfl | rfl⟩ | ⟨heq, -⟩)
    · exact hname rfl
    · exact hne rfl
    · exact h.root_ne heq
  · rw [h.lookup_removed, if_neg]
    rintro (⟨heq, -⟩ | ⟨heq, -⟩)
    · exact hroot heq
    · exact hdir heq
  · rw [h'.session.owned.kind]
    decide
  · -- a regular file of the directory is its record
    refine attributes_removed ?_
    rintro rfl
    obtain ⟨j, hj, hown⟩ := h'.names entry (mem_keys_iff.2 ⟨i, hi⟩)
    cases hj.symm.trans hi
    split at hown
    · exact absurd (hown.kind.symm.trans h.recorded.regular.kind) (by decide)
    · obtain ⟨rfl | ⟨hfalse, -⟩, -⟩ := hown
      · exact hfile (Option.some.inj (h'.record.symm.trans hi))
      · cases hfalse

variable {controlGID : Nat}

theorem listable_removed (hlist : st.Listable controlGID fs) :
    st.Listable controlGID (removed st fs id d f) := by
  refine ⟨h.ready_removed, fun name hname => ?_⟩
  obtain ⟨i, hi⟩ := mem_keys_iff.1 hname
  rw [h.lookup_removed] at hi
  split at hi
  · cases hi
  rename_i hcond
  have hold := hlist.names name (mem_keys_iff.2 ⟨i, hi⟩)
  unfold Listed at hold ⊢
  split_ifs at hold ⊢
  · obtain ⟨j, hj, hsock⟩ := hold
    have hne : j ≠ f := h.file_ne (by rw [hsock.kind]; decide)
    refine ⟨j, ?_, hsock.congr (attributes_removed hne)⟩
    rwa [h.lookup_removed, if_neg hcond]
  · obtain ⟨d', f', snapshot', h'⟩ := hold
    exact ⟨d', f', snapshot', h.recorded_removed h' fun heq => hcond (.inl ⟨rfl, .inr heq⟩)⟩

/-- The state after the rename back is as the one before. -/
theorem restored_removing :
    st.Removing (restored st (isolated st fs id d) id d) id d f snapshot where
  ready := h.ready_restored
  recorded := h.recorded.congr (h.lookup_restored _ _) (h.lookup_restored d) (attributes_restored d)
    fun _ i _ => attributes_restored i
  absent := (h.lookup_restored _ _).trans h.absent

theorem listable_restored (hlist : st.Listable controlGID fs) :
    st.Listable controlGID (restored st (isolated st fs id d) id d) := by
  refine ⟨h.ready_restored, fun name hname => ?_⟩
  obtain ⟨i, hi⟩ := mem_keys_iff.1 hname
  rw [h.lookup_restored] at hi
  exact (hlist.names name (mem_keys_iff.2 ⟨i, hi⟩)).congr h.lookup_restored attributes_restored

theorem removable_restored (hrem : st.Removable fs d) :
    st.Removable (restored st (isolated st fs id d) id d) d := by
  intro name hname
  obtain ⟨i, hi⟩ := mem_keys_iff.1 hname
  rw [h.lookup_restored] at hi
  exact (hrem name (mem_keys_iff.2 ⟨i, hi⟩)).congr (h.lookup_restored d name) fun j _ =>
    attributes_restored j

end Removing

/-! ## Usable records -/

/-- There is no directory of the session, under either name. -/
def Gone (st : Store) (id : String) (fs : FS) : Prop :=
  fs.lookup st.ino id = none ∧ fs.lookup st.ino (removingName id) = none

/-- A removal in which no call is made to fail succeeds. -/
def Retriable (st : Store) (id : String) (fs : FS) : Prop :=
  ∀ xs : Nat → FileSystem.Fault, (∀ n, (xs n).errno = none) →
    (runCalls (st.remove id).run xs fs).1 = .ok () ∧
      st.Gone id (runCalls (st.remove id).run xs fs).2

/-- What a removal that failed is to leave. -/
structure Usable (st : Store) (id : String) (snapshot : Snapshot) (fs fs' : FS) : Prop where
  record : quietly (st.load id) fs' = .ok snapshot ∨ st.Gone id fs'
  listing : ∀ controlGID ids, quietly (st.listIDs controlGID) fs = .ok ids →
    ∃ ids', quietly (st.listIDs controlGID) fs' = .ok ids'
  retry : st.Retriable id fs → st.Retriable id fs'

/-- Without failures the directory is removed, or its names do not permit it. -/
theorem RemoveOutcome.quiet {r w} (h : RemoveOutcome st fs id d f true true r fs' w) (hw : w = true)
    :
    r = .ok () ∧ fs' = removed st fs id d f ∧ st.Removable fs d ∨
      ¬ st.Removable fs d ∧ ∃ e, r = .error e := by
  cases h with
  | done names => exact .inl ⟨rfl, rfl, names⟩
  | refused e names => exact .inr ⟨names, e, rfl⟩
  | _ => cases hw

theorem Removing.gone_removed (h : st.Removing fs id d f snapshot) :
    st.Gone id (removed st fs id d f) := by
  constructor <;> simp [h.lookup_removed]

/-- A removal in a quiet environment succeeds if the names of the directory permit it. -/
theorem Removing.retriable_iff (h : st.Removing fs id d f snapshot) :
    st.Retriable id fs ↔ st.Removable fs d := by
  have hharm : RemovalHarms (fun _ _ => true) st fs id d f true :=
    ⟨fun _ _ => rfl, fun _ _ => rfl, rfl, fun _ _ => rfl, fun _ => rfl, fun _ _ => rfl⟩
  have hquiet := fun xs hxs =>
    ((remove_yields h hharm).along xs).quiet (harmless_of_quiet hxs)
  constructor
  · intro hretr
    have hok := (hretr (fun _ => {}) fun _ => rfl).1
    obtain ⟨-, -, hrem⟩ | ⟨-, e, he⟩ := hquiet (fun _ => {}) fun _ => rfl
    · exact hrem
    · rw [hok] at he
      cases he
  · intro hrem xs hxs
    obtain ⟨hok, hfs, -⟩ | ⟨hnot, -⟩ := hquiet xs hxs
    · rw [hok, hfs]
      exact ⟨rfl, h.gone_removed⟩
    · exact absurd hrem hnot

/-- There is nothing left to do. -/
theorem Gone.retriable (h : st.Gone id fs) (hready : st.RootReady fs)
    (hid : sessionIDPattern id = true) : st.Retriable id fs := by
  have hopen : ∃ e, e.errno = some .noent ∧
      quietly (st.openSession st.ino id) fs = .error e := by
    refine ⟨.errorf "open volatile session directory" .noent, rfl, ?_⟩
    rw [openSession, quietly_bind (reads_check _), checkID_eq_ok.2 hid]
    rw [quietly_bind (reads_sys rfl _), quietly_sys]
    simp only [FS.perform, FS.resolve, h.1]
    rfl
  obtain ⟨e, he, hopen⟩ := hopen
  have hyiel : Yields (fun _ _ => true) (st.remove id).run (fun r fs' v =>
      v = true → r = .ok () ∧ fs' = fs) fs true := by
    refine yields_check_then (checkID_eq_ok.2 hid) ?_
    refine yields_read st.reads_openRoot (fun _ _ => rfl)
      (quietly_openRoot.2 ⟨hready, rfl⟩) ?_ fun _ hv => by cases hv
    refine yields_bind (((st.reads_openSession st.ino id).faults _ fs true true
      fun _ _ => rfl).post ?_)
    rintro r fs' v ⟨rfl, ⟨rfl, rfl⟩ | ⟨e', rfl, rfl⟩⟩
    · rw [hopen]
      simp only [he]
      exact yields_pure fun _ => ⟨rfl, rfl⟩
    · simp only
      split <;> exact yields_pure fun hv => by cases hv
  intro xs hxs
  obtain ⟨hok, hfs⟩ := hyiel.along xs (harmless_of_quiet hxs)
  rw [hok, hfs]
  exact ⟨rfl, h⟩

namespace Removing

variable (h : st.Removing fs id d f snapshot)

include h

theorem usable_restored : st.Usable id snapshot fs (restored st (isolated st fs id d) id d) where
  record := .inl (quietly_load.2 ⟨h.ready_restored, d, f, h.restored_removing.recorded⟩)
  listing _ _ hids :=
    ⟨_, quietly_listIDs.2 ⟨h.listable_restored (quietly_listIDs.1 hids).1, rfl⟩⟩
  retry hretr := h.restored_removing.retriable_iff.2
    (h.removable_restored (h.retriable_iff.1 hretr))

theorem usable_removed : st.Usable id snapshot fs (removed st fs id d f) where
  record := .inr h.gone_removed
  listing _ _ hids :=
    ⟨_, quietly_listIDs.2 ⟨h.listable_removed (quietly_listIDs.1 hids).1, rfl⟩⟩
  retry _ := h.gone_removed.retriable h.ready_removed h.recorded.session.valid

end Removing

/-- A directory under the other name, or one without its record, is not usable. -/
theorem not_usable (hid : fs'.lookup st.ino id = none ∨
      fs'.lookup st.ino id = some d ∧ fs'.lookup d metadataName = none)
    (hthere : ¬ st.Gone id fs') : ¬ st.Usable id snapshot fs fs' := by
  rintro ⟨hload | hgone, -, -⟩
  · obtain ⟨-, d', f', h'⟩ := quietly_load.1 hload
    obtain hnone | ⟨hsome, hnone⟩ := hid
    · exact absurd (hnone.symm.trans h'.session.entry) (by simp)
    · cases hsome.symm.trans h'.session.entry
      exact absurd (hnone.symm.trans h'.record) (by simp)
  · exact hthere hgone

theorem Aside.not_usable (h : Aside st fs' id d) : ¬ st.Usable id snapshot fs fs' :=
  Store.not_usable (d := d) (.inl h.2) fun hgone => absurd (hgone.2.symm.trans h.1) (by simp)

/-! ## Where a failure does harm -/

/-- The directory is without its record, under its other name. -/
def lacksRecord (st : Store) (id : String) (fs : FS) : Bool :=
  match fs.lookup st.ino (removingName id) with
  | some d => (fs.lookup d metadataName).isNone
  | none => false

/-- There are directories under both names, and the second one is looked for. -/
def leftover (st : Store) (id : String) (c : Call) (fs : FS) : Bool :=
  c == .fstatat st.ino (removingName id) && (fs.lookup st.ino (removingName id)).isSome &&
    (fs.lookup st.ino id).isSome

/-- The calls of a removal whose failure does harm. -/
def harmsRemove (st : Store) (id : String) (c : Call) (fs : FS) : Bool :=
  c == .rename st.ino (removingName id) id || st.lacksRecord id fs || st.leftover id c fs

theorem harmsRemove_eq_false {c} (hc : c ≠ .rename st.ino (removingName id) id)
    (hrec : st.lacksRecord id fs = false)
    (hnames : fs.lookup st.ino (removingName id) = none ∨ fs.lookup st.ino id = none) :
    st.harmsRemove id c fs = false := by
  have hc' : (c == .rename st.ino (removingName id) id) = false := beq_eq_false_iff_ne.2 hc
  rw [harmsRemove, hc', hrec, leftover]
  obtain hnone | hnone := hnames <;> simp [hnone]

theorem harmsRemove_of_absent {c} (hc : c ≠ .rename st.ino (removingName id) id)
    (habs : fs.lookup st.ino (removingName id) = none) : st.harmsRemove id c fs = false :=
  harmsRemove_eq_false hc (by simp [lacksRecord, habs]) (.inl habs)

theorem Removing.harms (h : st.Removing fs id d f snapshot) :
    RemovalHarms (st.harmsRemove id) st fs id d f false where
  early c hc := harmsRemove_of_absent hc h.absent
  isolated c hc := by
    refine harmsRemove_eq_false hc ?_ (.inr aside_isolated.2)
    rw [lacksRecord, aside_isolated.1]
    simp [h.lookup_isolated_dir, h.recorded.record]
  undo := by simp [harmsRemove]
  restored c hc :=
    harmsRemove_of_absent (ne_rename_of_readOnly hc _ _ _) h.restored_removing.absent
  emptied c := by
    have hlacks : st.lacksRecord id (emptied (Store.isolated st fs id d) d f) = true := by
      rw [lacksRecord, h.aside_emptied.1]
      simp [lookup_emptied]
    simp [harmsRemove, hlacks]
  removed c hc := harmsRemove_of_absent (ne_rename_of_readOnly hc _ _ _) h.gone_removed.2

/-- A directory that stands under the other name stops the removal. -/
theorem remove_leftover_yields (hent : fs.lookup st.ino id = some d)
    (hleft : fs.lookup st.ino (removingName id) = some i) :
    Yields (st.harmsRemove id) (st.remove id).run (fun _ fs' v => v = true → fs' = fs) fs true := by
  have hharm : st.harmsRemove id (.fstatat st.ino (removingName id)) fs = true := by
    simp [harmsRemove, leftover, hent, hleft]
  refine yields_read_unmarked (reads_check _) (fun _ v _ => ?_) fun _ _ _ => rfl
  refine yields_read_unmarked st.reads_openRoot (fun root v hroot => ?_) fun _ _ _ => rfl
  obtain ⟨-, rfl⟩ := quietly_openRoot.1 hroot
  refine yields_bind (.post (.unmarked (v := true)
    (((st.reads_openSession st.ino id).faults (fun _ _ => false) fs true false fun _ _ => rfl).post
      fun _ _ _ hr => hr.1)) ?_)
  rintro r fs' v' rfl
  cases r with
  | error =>
    simp only
    split <;> exact yields_pure fun _ => rfl
  | ok =>
    refine yields_read_unmarked (st.reads_verifySessionEntries _ _ _) (fun _ v _ => ?_)
      fun _ _ _ => rfl
    refine yields_then (yields_attempt (fun short => ?_) fun e short => ?_)
    · simp only [FS.perform, hleft]
      exact yields_pure fun _ => rfl
    rw [hharm, Bool.not_true, Bool.and_false]
    refine (yields_marked _).post fun r fs' v' hv => ?_
    subst hv
    cases r with
    | error =>
      rintro ⟨⟩
    | ok =>
      simp only [Next]
      refine .post (yields_marked _) fun _ _ v hv hv' => ?_
      rw [hv] at hv'
      cases hv'

/-- **A removal that fails** leaves a usable record if no call fails where this does harm. If no
directory stood under the other name to begin with, it does so only then. -/
theorem remove_usable {e : Failure} {xs : Nat → FileSystem.Fault}
    (hload : quietly (st.load id) fs = .ok snapshot)
    (herror : (runCalls (st.remove id).run xs fs).1 = .error e) :
    (harmless (st.harmsRemove id) (st.remove id).run xs fs = true →
      st.Usable id snapshot fs (runCalls (st.remove id).run xs fs).2) ∧
    (fs.lookup st.ino (removingName id) = none →
      st.Usable id snapshot fs (runCalls (st.remove id).run xs fs).2 →
        harmless (st.harmsRemove id) (st.remove id).run xs fs = true) := by
  obtain ⟨hready, d, f, hrec⟩ := quietly_load.1 hload
  have hsame : st.Usable id snapshot fs fs :=
    ⟨.inl hload, fun _ ids hids => ⟨ids, hids⟩, fun h => h⟩
  cases hleft : fs.lookup st.ino (removingName id) with
  | some =>
    refine ⟨fun hfine => ?_, nofun⟩
    rwa [(remove_leftover_yields hrec.session.entry hleft).along xs hfine]
  | none =>
    have h : st.Removing fs id d f snapshot := ⟨hready, hrec, hleft⟩
    have hrun := (remove_yields h h.harms).along xs
    rw [herror] at hrun
    generalize (runCalls (st.remove id).run xs fs).2 = fs' at hrun ⊢
    generalize harmless (st.harmsRemove id) (st.remove id).run xs fs = v at hrun ⊢
    cases hrun with
    | refused | unchanged => exact ⟨fun _ => hsame, fun _ _ => rfl⟩
    | restored => exact ⟨fun _ => h.usable_restored, fun _ _ => rfl⟩
    | late => exact ⟨fun _ => h.usable_removed, fun _ _ => rfl⟩
    | isolated => exact ⟨nofun, fun _ husab => absurd husab aside_isolated.not_usable⟩
    | emptied => exact ⟨nofun, fun _ husab => absurd husab h.aside_emptied.not_usable⟩
    | halted =>
      have hent : (Store.restored st (Store.emptied (Store.isolated st fs id d) d f) id
          d).lookup st.ino id = some d := by simp [Store.restored, FS.lookup_enter]
      refine ⟨nofun, fun _ husab => absurd husab (not_usable (.inr ⟨hent, ?_⟩) ?_)⟩
      · rw [Store.restored, FS.lookup_enter, FS.lookup_leave, lookup_emptied]
        simp [h.root_ne.symm]
      · simp [Gone, hent]

end Store

/-! ## Removals of one session -/

def sampleRemoval (faults : Nat → FileSystem.Fault) : Except Failure Unit × FS :=
  runCalls (sampleStore.remove sampleDisk.core.session.id).run faults sampleDisk.fs

/-- A result in which no success is to be seen is an error. -/
theorem exists_error {ε α : Type} {r : Except ε α} (h : r.toBool = false) : ∃ e, r = .error e := by
  cases r with
  | ok => cases h
  | error e => exact ⟨e, rfl⟩

theorem load_sampleDisk : quietly (sampleStore.load sampleDisk.core.session.id) sampleDisk.fs =
    .ok sampleDisk.core.session.snapshot :=
  journalRun_sampleDisk.journaled.agrees

/-- The root cannot be synchronised after the first rename. -/
theorem remove_usable_isolated : (sampleRemoval (failAt 10)).1.toBool = false ∧
    sampleStore.Usable sampleDisk.core.session.id sampleDisk.core.session.snapshot sampleDisk.fs
      (sampleRemoval (failAt 10)).2 := by
  have hfails : (sampleRemoval (failAt 10)).1.toBool = false := by decide +kernel
  obtain ⟨e, he⟩ := exists_error hfails
  exact ⟨hfails, (Store.remove_usable load_sampleDisk he).1 (by decide +kernel)⟩

/-- **A directory without its record.** The record is removed and its directory cannot be: it
gets its name back, and neither `Load` nor `ListIDs` succeeds from then on. -/
theorem remove_leaves_unusable :
    quietly (sampleStore.load sampleDisk.core.session.id) sampleDisk.fs =
      .ok sampleDisk.core.session.snapshot ∧
    (quietly (sampleStore.listIDs 20) sampleDisk.fs).toBool = true ∧
    (sampleRemoval (failAt 16)).1.toBool = false ∧
    ((sampleRemoval (failAt 16)).2.lookup sampleStore.ino sampleDisk.core.session.id).isSome =
      true ∧
    (quietly (sampleStore.load sampleDisk.core.session.id) (sampleRemoval (failAt 16)).2).toBool =
      false ∧
    (quietly (sampleStore.listIDs 20) (sampleRemoval (failAt 16)).2).toBool = false :=
  ⟨load_sampleDisk, by decide +kernel, by decide +kernel, by decide +kernel, by decide +kernel,
    by decide +kernel⟩

end PrivateVm.Session
