import PrivateVm.Session.RoundTrip
import PrivateVm.Session.Store

set_option autoImplicit false

/-! # What the store accepts

`Recorded` says that the directory of a session holds a record that decodes to a snapshot and
nothing else but documented directories, and `quietly_load` that `Load` gives the snapshot exactly
then. `quietly_listIDs` does the same for the runtime root.
-/

namespace PrivateVm.Session

open Decimal Checked FileSystem Program

/-! ## Owners and modes -/

@[mk_iff]
structure OwnedDirectory (n : Inode) (uid gid mode : Nat) : Prop where
  kind : n.kind = .directory
  uid : n.uid = uid
  gid : n.gid = gid
  mode : n.mode = mode

@[mk_iff]
structure OwnedRegular (n : Inode) (uid gid mode : Nat) : Prop where
  kind : n.kind = .regular
  nlink : n.nlink = 1
  uid : n.uid = uid
  gid : n.gid = gid
  mode : n.mode = mode

variable {label : String} {fs : FS} {i uid gid mode : Nat}

theorem verifyOwnedDirectory_eq_ok : verifyOwnedDirectory label (fs.stat i) uid gid mode = .ok () ↔
      OwnedDirectory (fs.inode i) uid gid mode := by
  simp only [verifyOwnedDirectory, bind_eq_ok, failIf_eq_ok]
  simp [ownedDirectory_iff, FS.stat, and_assoc]

theorem verifyOwnedRegular_eq_ok : verifyOwnedRegular label (fs.stat i) uid gid mode = .ok () ↔
      OwnedRegular (fs.inode i) uid gid mode := by
  simp only [verifyOwnedRegular, bind_eq_ok, failIf_eq_ok]
  simp [ownedRegular_iff, FS.stat, and_assoc]

theorem checkID_eq_ok {id} : checkID id = .ok () ↔ sessionIDPattern id = true := by
  simp [checkID, mapError_eq_ok, validateID]

/-! ## Opening -/

theorem reads_openAbsoluteDirectory (path : String) : Reads (openAbsoluteDirectory path) :=
  reads_bind (reads_sys rfl _) fun _ => reads_sys rfl _

theorem reads_readDirectoryNames (fd : Nat) : Reads (readDirectoryNames fd) :=
  reads_bind (reads_sys rfl _) fun _ => reads_sys rfl _

namespace Store

variable {st : Store} {fs : FS}

theorem reads_openRoot (st : Store) : Reads st.openRoot :=
  reads_bind (reads_mapError (reads_openAbsoluteDirectory _) _) fun _ =>
    reads_bind (reads_sys rfl _) fun _ => reads_bind (reads_check _) fun _ =>
      reads_bind (reads_check _) fun _ => reads_pure _

theorem reads_verifyRootPathIdentity (st : Store) : Reads st.verifyRootPathIdentity :=
  reads_bind st.reads_openRoot fun _ => reads_sys rfl _

theorem reads_verifySessionFD (st : Store) (fd : Nat) : Reads (st.verifySessionFD fd) :=
  reads_bind (reads_sys rfl _) fun _ => reads_check _

theorem reads_openSession (st : Store) (rootFD : Nat) (id : String) :
    Reads (st.openSession rootFD id) :=
  reads_bind (reads_check _) fun _ => reads_bind (reads_sys rfl _) fun _ =>
    reads_bind (st.reads_verifySessionFD _) fun _ => reads_pure _

theorem reads_verifySessionEntry (st : Store) (fd : Nat) (allowTemp allowRes : Bool)
    (name : String) : Reads (st.verifySessionEntry fd allowTemp allowRes name) := by
  unfold verifySessionEntry
  split
  · exact reads_bind (reads_sys rfl _) fun _ => reads_check _
  · split
    · exact reads_throw _
    · exact reads_bind (reads_sys rfl _) fun _ => reads_check _

theorem reads_verifySessionEntries (st : Store) (fd : Nat) (allowTemp allowRes : Bool) :
    Reads (st.verifySessionEntries fd allowTemp allowRes) :=
  reads_bind (reads_mapError (reads_readDirectoryNames _) _) fun _ =>
    reads_bind (reads_each (st.reads_verifySessionEntry _ _ _) _) fun _ => reads_pure _

theorem reads_openRecord (st : Store) (fd : Nat) : Reads (st.openRecord fd) :=
  reads_bind (reads_sys rfl _) fun _ => reads_bind (reads_sys rfl _) fun _ =>
    reads_bind (reads_check _) fun _ => reads_pure _

theorem reads_loadAt (st : Store) (rootFD : Nat) (id : String) : Reads (st.loadAt rootFD id) :=
  reads_bind (st.reads_openSession _ _) fun _ =>
    reads_bind (st.reads_verifySessionEntries _ _ _) fun _ => reads_bind (reads_check _) fun _ =>
      reads_bind (reads_mapError (st.reads_openRecord _) _) fun _ =>
        reads_bind (reads_sys rfl _) fun _ => reads_bind (reads_check _) fun _ =>
          reads_bind (reads_sys rfl _) fun _ => reads_bind (reads_check _) fun _ => reads_check _

/-! ## When readers succeed -/

/-- The path of the runtime root leads to the pinned directory. -/
structure RootReady (st : Store) (fs : FS) : Prop where
  path : fs.paths st.root = some st.ino
  owned : OwnedDirectory (fs.inode st.ino) st.uid st.gid runtimeRootMode
  dev : fs.dev = st.dev

theorem quietly_openAbsoluteDirectory {path} {i : Nat} :
    quietly (openAbsoluteDirectory path) fs = .ok i ↔
      fs.paths path = some i ∧ (fs.inode i).kind = .directory := by
  rw [openAbsoluteDirectory, quietly_sys_bind rfl, quietly_sys_eq_ok, FS.openPath_eq_ok]
  exact ⟨fun ⟨_, _, h⟩ => h, fun h => ⟨(), rfl, h⟩⟩

theorem quietly_openRoot {fd : Nat} :
    quietly st.openRoot fs = .ok fd ↔ st.RootReady fs ∧ fd = st.ino := by
  rw [openRoot, quietly_bind_eq_ok (reads_mapError (reads_openAbsoluteDirectory _) _)]
  constructor
  · rintro ⟨i, hopen, h⟩
    obtain ⟨hpath, -⟩ := quietly_openAbsoluteDirectory.1 (quietly_mapError_eq_ok.1 hopen)
    obtain ⟨stat, hstat, h⟩ := (quietly_sys_bind rfl).1 h
    cases hstat
    obtain ⟨⟨⟩, hown, h⟩ := quietly_check_bind.1 h
    obtain ⟨⟨⟩, hid, h⟩ := quietly_check_bind.1 h
    rw [failIf_eq_ok] at hid
    push Not at hid
    obtain ⟨hdev, rfl⟩ := hid
    cases h
    exact ⟨⟨hpath, verifyOwnedDirectory_eq_ok.1 hown, hdev⟩, rfl⟩
  · rintro ⟨hready, rfl⟩
    have hopen := quietly_openAbsoluteDirectory.2 ⟨hready.path, hready.owned.kind⟩
    refine ⟨st.ino, quietly_mapError_eq_ok.2 hopen, (quietly_sys_bind rfl).2 ⟨_, rfl, ?_⟩⟩
    refine quietly_check_bind.2 ⟨(), verifyOwnedDirectory_eq_ok.2 hready.owned, ?_⟩
    refine quietly_check_bind.2 ⟨(), failIf_eq_ok.2 ?_, rfl⟩
    simp [FS.stat, hready.dev]

theorem quietly_verifyRootPathIdentity :
    quietly st.verifyRootPathIdentity fs = .ok () ↔ st.RootReady fs := by
  rw [verifyRootPathIdentity, quietly_bind_eq_ok st.reads_openRoot]
  constructor
  · rintro ⟨fd, hopen, -⟩
    exact (quietly_openRoot.1 hopen).1
  · exact fun hready => ⟨st.ino, quietly_openRoot.2 ⟨hready, rfl⟩, rfl⟩

/-- A name of the runtime root stands for the directory of a session. -/
structure SessionDir (st : Store) (fs : FS) (id : String) (d : Nat) : Prop where
  valid : sessionIDPattern id = true
  entry : fs.lookup st.ino id = some d
  owned : OwnedDirectory (fs.inode d) st.uid st.gid sessionDirMode

variable {d : Nat} {id name : String}

theorem quietly_verifySessionFD : quietly (st.verifySessionFD d) fs = .ok () ↔
    OwnedDirectory (fs.inode d) st.uid st.gid sessionDirMode := by
  rw [verifySessionFD, quietly_sys_bind rfl]
  constructor
  · rintro ⟨stat, hstat, h⟩
    cases hstat
    exact verifyOwnedDirectory_eq_ok.1 h
  · exact fun h => ⟨_, rfl, verifyOwnedDirectory_eq_ok.2 h⟩

theorem quietly_openSession :
    quietly (st.openSession st.ino id) fs = .ok d ↔ st.SessionDir fs id d := by
  rw [openSession, quietly_check_bind]
  constructor
  · rintro ⟨⟨⟩, hid, h⟩
    obtain ⟨i, hopen, h⟩ := (quietly_sys_bind rfl).1 h
    obtain ⟨⟨⟩, hown, h⟩ := (quietly_bind_eq_ok (st.reads_verifySessionFD _)).1 h
    cases h
    exact ⟨checkID_eq_ok.1 hid, (FS.openDirectory_eq_ok.1 hopen).1, quietly_verifySessionFD.1 hown⟩
  · rintro ⟨hval, hent, hown⟩
    refine ⟨(), checkID_eq_ok.2 hval, (quietly_sys_bind rfl).2 ⟨d, ?_, ?_⟩⟩
    · exact FS.openDirectory_eq_ok.2 ⟨hent, hown.kind⟩
    · exact (quietly_bind_eq_ok (st.reads_verifySessionFD _)).2
        ⟨(), quietly_verifySessionFD.2 hown, rfl⟩

/-- A name that a session directory may have. -/
def Permitted (st : Store) (fs : FS) (d : Nat) (allowTemp allowRes : Bool) (name : String) :
    Prop :=
  ∃ i, fs.lookup d name = some i ∧
    if documentedSessionDirectories.contains name && allowRes then
      OwnedDirectory (fs.inode i) st.uid st.gid sessionDirMode
    else (name = metadataName ∨ allowTemp = true ∧ name = temporaryName) ∧
      OwnedRegular (fs.inode i) st.uid st.gid metadataMode

variable {allowTemp allowRes : Bool} {snapshot : Snapshot} {controlGID : Nat}

theorem quietly_verifySessionEntry :
    quietly (st.verifySessionEntry d allowTemp allowRes name) fs = .ok () ↔
      st.Permitted fs d allowTemp allowRes name := by
  have hcond : (name != metadataName && !(allowTemp && name == temporaryName)) = true ↔
      ¬ (name = metadataName ∨ allowTemp = true ∧ name = temporaryName) := by
    cases allowTemp <;> simp
  unfold verifySessionEntry Permitted
  split
  · rw [quietly_sys_bind rfl]
    constructor
    · rintro ⟨stat, hstat, h⟩
      obtain ⟨i, hi, rfl⟩ := FS.fstatat_eq_ok.1 hstat
      exact ⟨i, hi, verifyOwnedDirectory_eq_ok.1 h⟩
    · rintro ⟨i, hi, hown⟩
      exact ⟨_, FS.fstatat_eq_ok.2 ⟨i, hi, rfl⟩, verifyOwnedDirectory_eq_ok.2 hown⟩
  · split
    · rename_i hname
      constructor
      · intro h
        cases h
      · rintro ⟨i, -, hall, -⟩
        exact absurd hall (hcond.1 hname)
    · rename_i hname
      have hall := not_not.1 (mt hcond.2 hname)
      rw [quietly_sys_bind rfl]
      constructor
      · rintro ⟨stat, hstat, h⟩
        obtain ⟨i, hi, rfl⟩ := FS.fstatat_eq_ok.1 hstat
        exact ⟨i, hi, hall, verifyOwnedRegular_eq_ok.1 h⟩
      · rintro ⟨i, hi, -, hown⟩
        exact ⟨_, FS.fstatat_eq_ok.2 ⟨i, hi, rfl⟩, verifyOwnedRegular_eq_ok.2 hown⟩

theorem quietly_verifySessionEntries {names} :
    quietly (st.verifySessionEntries d allowTemp allowRes) fs = .ok names ↔
      (∀ name ∈ (fs.inode d).entries.keys, st.Permitted fs d allowTemp allowRes name) ∧
        names = (fs.inode d).entries.keys.insertionSort (· ≤ ·) := by
  have hreads := st.reads_verifySessionEntry d allowTemp allowRes
  simp only [verifySessionEntries, quietly_bind_eq_ok, reads_mapError, reads_readDirectoryNames,
    reads_each, reads_verifySessionEntry, implies_true]
  constructor
  · rintro ⟨entries, ⟨⟩, ⟨⟩, heach, h⟩
    cases h
    refine ⟨fun name hname => ?_, rfl⟩
    exact quietly_verifySessionEntry.1 ((quietly_each_eq_ok hreads).1 heach name hname)
  · rintro ⟨hnames, rfl⟩
    refine ⟨_, rfl, (), ?_, rfl⟩
    exact (quietly_each_eq_ok hreads).2 fun name hname =>
      quietly_verifySessionEntry.2 (hnames name hname)

/-- The directory of a session holds a record that decodes to a snapshot. -/
structure Recorded (st : Store) (fs : FS) (id : String) (d f : Nat) (snapshot : Snapshot) :
    Prop where
  session : st.SessionDir fs id d
  names : ∀ name ∈ (fs.inode d).entries.keys, st.Permitted fs d false true name
  record : fs.lookup d metadataName = some f
  regular : OwnedRegular (fs.inode f) st.uid st.gid metadataMode
  nonempty : 1 ≤ (fs.inode f).data.length
  bounded : (fs.inode f).data.length ≤ maxMetadataSize
  decoded : decodeSnapshot (fs.inode f).data id = .ok snapshot

theorem quietly_openRecord {f : Nat} : quietly (st.openRecord d) fs = .ok f ↔
    fs.lookup d metadataName = some f ∧ OwnedRegular (fs.inode f) st.uid st.gid metadataMode := by
  rw [openRecord, quietly_sys_bind rfl]
  constructor
  · rintro ⟨i, hopen, h⟩
    obtain ⟨stat, hstat, h⟩ := (quietly_sys_bind rfl).1 h
    cases hstat
    obtain ⟨⟨⟩, hown, h⟩ := quietly_check_bind.1 h
    cases h
    exact ⟨(FS.openFile_eq_ok.1 hopen).1, verifyOwnedRegular_eq_ok.1 hown⟩
  · rintro ⟨hlook, hown⟩
    refine ⟨f, FS.openFile_eq_ok.2 ⟨hlook, by simp [hown.kind]⟩, ?_⟩
    refine (quietly_sys_bind rfl).2 ⟨_, rfl, quietly_check_bind.2 ⟨(), ?_, rfl⟩⟩
    exact verifyOwnedRegular_eq_ok.2 hown

theorem mem_keys_iff : name ∈ (fs.inode d).entries.keys ↔ ∃ i, fs.lookup d name = some i := by
  rw [← AList.mem_keys, ← AList.lookup_isSome, Option.isSome_iff_exists]
  rfl

theorem quietly_loadAt :
    quietly (st.loadAt st.ino id) fs = .ok snapshot ↔ ∃ d f, st.Recorded fs id d f snapshot := by
  rw [loadAt, quietly_bind_eq_ok (st.reads_openSession _ _)]
  constructor
  · rintro ⟨d, hopen, h⟩
    obtain ⟨names, hnames, h⟩ := (quietly_bind_eq_ok (st.reads_verifySessionEntries _ _ _)).1 h
    obtain ⟨hperm, rfl⟩ := quietly_verifySessionEntries.1 hnames
    obtain ⟨⟨⟩, -, h⟩ := quietly_check_bind.1 h
    obtain ⟨f, hf, h⟩ := (quietly_bind_eq_ok (reads_mapError (st.reads_openRecord _) _)).1 h
    obtain ⟨hrec, hreg⟩ := quietly_openRecord.1 (quietly_mapError_eq_ok.1 hf)
    obtain ⟨info, hinfo, h⟩ := (quietly_sys_bind rfl).1 h
    cases hinfo
    obtain ⟨⟨⟩, hsize, h⟩ := quietly_check_bind.1 h
    rw [failIf_eq_ok] at hsize
    push Not at hsize
    obtain ⟨data, hdata, h⟩ := (quietly_sys_bind rfl).1 h
    cases hdata
    obtain ⟨⟨⟩, -, h⟩ := quietly_check_bind.1 h
    rw [quietly_check, mapError_eq_ok] at h
    have hbd : (fs.inode f).data.length ≤ maxMetadataSize := hsize.2
    rw [List.take_of_length_le (by omega)] at h
    exact ⟨d, f, quietly_openSession.1 hopen, hperm, hrec, hreg, hsize.1, hbd, h⟩
  · rintro ⟨d, f, h⟩
    have hboun := h.bounded
    have htake : (fs.inode f).data.take (maxMetadataSize + 1) = (fs.inode f).data :=
      List.take_of_length_le (by omega)
    refine ⟨d, quietly_openSession.2 h.session, ?_⟩
    refine (quietly_bind_eq_ok (st.reads_verifySessionEntries _ _ _)).2
      ⟨_, quietly_verifySessionEntries.2 ⟨h.names, rfl⟩, ?_⟩
    refine quietly_check_bind.2 ⟨(), failIf_eq_ok.2 ?_, ?_⟩
    · simpa using mem_keys_iff.2 ⟨f, h.record⟩
    refine (quietly_bind_eq_ok (reads_mapError (st.reads_openRecord _) _)).2
      ⟨f, quietly_mapError_eq_ok.2 (quietly_openRecord.2 ⟨h.record, h.regular⟩), ?_⟩
    refine (quietly_sys_bind rfl).2 ⟨_, rfl, quietly_check_bind.2 ⟨(), failIf_eq_ok.2 ?_, ?_⟩⟩
    · simp only [not_or, Nat.not_lt]
      exact ⟨h.nonempty, hboun⟩
    refine (quietly_sys_bind rfl).2 ⟨_, rfl, quietly_check_bind.2 ⟨(), failIf_eq_ok.2 ?_, ?_⟩⟩
    · rw [htake]
      omega
    · rw [quietly_check, mapError_eq_ok, htake]
      exact h.decoded

/-- **`Load` succeeds** exactly on a recorded session. -/
theorem quietly_load : quietly (st.load id) fs = .ok snapshot ↔
      st.RootReady fs ∧ ∃ d f, st.Recorded fs id d f snapshot := by
  simp only [load, quietly_check_bind, quietly_bind_eq_ok, reads_openRoot, reads_loadAt,
    reads_verifyRootPathIdentity, quietly_openRoot]
  constructor
  · rintro ⟨⟨⟩, -, root, ⟨hready, rfl⟩, sn, hload, ⟨⟩, -, h⟩
    cases h
    exact ⟨hready, quietly_loadAt.1 hload⟩
  · rintro ⟨hready, d, f, h⟩
    exact ⟨(), checkID_eq_ok.2 h.session.valid, st.ino, ⟨hready, rfl⟩, snapshot,
      quietly_loadAt.2 ⟨d, f, h⟩, (), quietly_verifyRootPathIdentity.2 hready, rfl⟩

/-! ## The runtime root -/

theorem reads_verifyRootEntry (st : Store) (rootFD controlGID : Nat) (name : String) :
    Reads (st.verifyRootEntry rootFD controlGID name) := by
  unfold verifyRootEntry
  split
  · exact reads_bind (reads_sys rfl _) fun _ => reads_check _
  · exact reads_bind (reads_check _) fun _ =>
      reads_bind (reads_mapError (st.reads_loadAt _ _) _) fun _ => reads_pure _

structure ControlSocket (st : Store) (controlGID : Nat) (n : Inode) : Prop where
  kind : n.kind = .socket
  uid : n.uid = st.uid
  gid : n.gid = controlGID
  mode : n.mode = controlSockMode

/-- A name that the runtime root may have. -/
def Listed (st : Store) (controlGID : Nat) (fs : FS) (name : String) : Prop :=
  if name = controlName then
    ∃ i, fs.lookup st.ino name = some i ∧ st.ControlSocket controlGID (fs.inode i)
  else ∃ d f snapshot, st.Recorded fs name d f snapshot

theorem quietly_verifyRootEntry : quietly (st.verifyRootEntry st.ino controlGID name) fs = .ok () ↔
      st.Listed controlGID fs name := by
  unfold verifyRootEntry Listed
  split
  · rename_i hname
    rw [verifyControlSocket, quietly_sys_bind rfl, hname]
    constructor
    · rintro ⟨stat, hstat, h⟩
      obtain ⟨i, hi, rfl⟩ := FS.fstatat_eq_ok.1 hstat
      rw [quietly_check, failIf_eq_ok] at h
      push Not at h
      exact ⟨i, hi, h.1, h.2.1, h.2.2.1, h.2.2.2⟩
    · rintro ⟨i, hi, hsock⟩
      refine ⟨_, FS.fstatat_eq_ok.2 ⟨i, hi, rfl⟩, ?_⟩
      rw [quietly_check, failIf_eq_ok]
      push Not
      exact ⟨hsock.kind, hsock.uid, hsock.gid, hsock.mode⟩
  · rw [quietly_check_bind]
    constructor
    · rintro ⟨⟨⟩, -, h⟩
      obtain ⟨sn, hload, -⟩ := (quietly_bind_eq_ok (reads_mapError (st.reads_loadAt _ _) _)).1 h
      obtain ⟨d, f, h⟩ := quietly_loadAt.1 (quietly_mapError_eq_ok.1 hload)
      exact ⟨d, f, sn, h⟩
    · rintro ⟨d, f, sn, h⟩
      refine ⟨(), mapError_eq_ok.2 (checkID_eq_ok.2 h.session.valid), ?_⟩
      exact (quietly_bind_eq_ok (reads_mapError (st.reads_loadAt _ _) _)).2
        ⟨sn, quietly_mapError_eq_ok.2 (quietly_loadAt.2 ⟨d, f, h⟩), rfl⟩

/-- Every name of the runtime root is the control socket or a recorded session. -/
structure Listable (st : Store) (controlGID : Nat) (fs : FS) : Prop where
  ready : st.RootReady fs
  names : ∀ name ∈ (fs.inode st.ino).entries.keys, st.Listed controlGID fs name

/-- **`ListIDs` succeeds** exactly then, and gives the names but the socket in order. -/
theorem quietly_listIDs {ids} :
    quietly (st.listIDs controlGID) fs = .ok ids ↔ st.Listable controlGID fs ∧
      ids = ((fs.inode st.ino).entries.keys.filter fun name => name != controlName).insertionSort
        (· ≤ ·) := by
  have hreads := st.reads_verifyRootEntry st.ino controlGID
  simp only [listIDs, quietly_bind_eq_ok, reads_openRoot, reads_mapError, reads_readDirectoryNames,
    reads_each, reads_verifyRootEntry, reads_verifyRootPathIdentity, quietly_openRoot, implies_true]
  constructor
  · rintro ⟨root, ⟨hready, rfl⟩, names, ⟨⟩, ⟨⟩, heach, ⟨⟩, -, h⟩
    cases h
    exact ⟨⟨hready, fun name hname =>
      quietly_verifyRootEntry.1 ((quietly_each_eq_ok hreads).1 heach name hname)⟩, rfl⟩
  · rintro ⟨⟨hready, hnames⟩, rfl⟩
    have heach := (quietly_each_eq_ok hreads).2 fun name hname =>
      quietly_verifyRootEntry.2 (hnames name hname)
    exact ⟨st.ino, ⟨hready, rfl⟩, _, rfl, (), heach, (), quietly_verifyRootPathIdentity.2 hready,
      rfl⟩

end Store

end PrivateVm.Session
