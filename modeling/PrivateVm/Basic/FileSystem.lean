import Mathlib.Data.List.AList
import PrivateVm.Basic.Checked
import PrivateVm.Basic.Program

set_option autoImplicit false

/-! # A file system behind system calls that may fail

A directory maps names to inode numbers, and a descriptor is the number of its inode, so that an
open directory stays the same when it is renamed. The environment decides which calls fail and how
many bytes a write takes (`Fault`); a call that fails has no effect, but for a write, of which a
part may have been made.
-/

namespace FileSystem

open Program

inductive Errno where
  | noent
  | exist
  | notdir
  | isdir
  | notempty
  | loop
  | other (text : String)
  deriving DecidableEq

def Errno.text : Errno → String
  | .noent => "no such file or directory"
  | .exist => "file exists"
  | .notdir => "not a directory"
  | .isdir => "is a directory"
  | .notempty => "directory not empty"
  | .loop => "too many levels of symbolic links"
  | .other text => text

inductive Kind where
  | directory
  | regular
  | symlink
  | socket
  | other
  deriving DecidableEq

abbrev Entries := AList fun _ : String => Nat

structure Inode where
  kind : Kind
  uid : Nat
  gid : Nat
  mode : Nat
  nlink : Nat
  entries : Entries
  data : List UInt8

/-- An inode without its names. -/
def Inode.attributes (n : Inode) : Inode := { n with entries := ∅ }

theorem Inode.data_of_attributes {n n' : Inode} (h : n'.attributes = n.attributes) :
    n'.data = n.data :=
  (congrArg Inode.data h : n'.attributes.data = n.attributes.data)

structure Stat where
  kind : Kind
  uid : Nat
  gid : Nat
  mode : Nat
  nlink : Nat
  size : Nat
  dev : Nat
  ino : Nat
  deriving DecidableEq

/-- The inodes of one device, what absolute paths without symbolic links lead to, and the owner
of what the process creates. -/
structure FS where
  dev : Nat
  uid : Nat
  gid : Nat
  paths : String → Option Nat
  inode : Nat → Inode
  next : Nat

namespace FS

def stat (fs : FS) (i : Nat) : Stat where
  kind := (fs.inode i).kind
  uid := (fs.inode i).uid
  gid := (fs.inode i).gid
  mode := (fs.inode i).mode
  nlink := (fs.inode i).nlink
  size := (fs.inode i).data.length
  dev := fs.dev
  ino := i

def lookup (fs : FS) (dir : Nat) (name : String) : Option Nat :=
  (fs.inode dir).entries.lookup name

def modify (fs : FS) (i : Nat) (f : Inode → Inode) : FS :=
  { fs with inode := Function.update fs.inode i (f (fs.inode i)) }

/-- A name of a directory is made to stand for an inode. -/
def enter (fs : FS) (dir : Nat) (name : String) (i : Nat) : FS :=
  fs.modify dir fun n => { n with entries := n.entries.insert name i }

def leave (fs : FS) (dir : Nat) (name : String) : FS :=
  fs.modify dir fun n => { n with entries := n.entries.erase name }

/-- A new inode with a name in a directory. -/
def add (fs : FS) (dir : Nat) (name : String) (n : Inode) : FS :=
  { fs with
    inode := Function.update fs.inode fs.next n
    next := fs.next + 1 }.enter dir name fs.next

def dropLink (fs : FS) (i : Nat) : FS := fs.modify i fun n => { n with nlink := n.nlink - 1 }

def chown (fs : FS) (i uid gid : Nat) : FS := fs.modify i fun n => { n with uid := uid, gid := gid }

def chmod (fs : FS) (i mode : Nat) : FS := fs.modify i fun n => { n with mode := mode }

def append (fs : FS) (i : Nat) (data : List UInt8) : FS :=
  fs.modify i fun n => { n with data := n.data ++ data }

end FS

/-! ## System calls -/

inductive Call where
  | openBase
  | openPath (path : String)
  | openDirectory (dir : Nat) (name : String)
  | openFile (dir : Nat) (name : String)
  | create (dir : Nat) (name : String) (mode : Nat)
  | mkdir (dir : Nat) (name : String) (mode : Nat)
  | fstat (fd : Nat)
  | fstatat (dir : Nat) (name : String)
  | fchown (fd : Nat) (uid : Nat) (gid : Nat)
  | fchmod (fd : Nat) (mode : Nat)
  | read (fd : Nat) (limit : Nat)
  | write (fd : Nat) (data : List UInt8)
  | fsync (fd : Nat)
  | close (fd : Nat)
  | dup (fd : Nat)
  | readdir (fd : Nat)
  | unlink (dir : Nat) (name : String)
  | rmdir (dir : Nat) (name : String)
  | rename (dir : Nat) (old : String) (new : String)
  deriving DecidableEq

@[reducible] def Call.Val : Call → Type
  | .openPath _ | .openDirectory _ _ | .openFile _ _ | .create _ _ _ | .dup _ | .write _ _ => Nat
  | .fstat _ | .fstatat _ _ => Stat
  | .read _ _ => List UInt8
  | .readdir _ => List String
  | .openBase | .mkdir _ _ _ | .fchown _ _ _ | .fchmod _ _ | .fsync _ | .close _ | .unlink _ _
  | .rmdir _ _ | .rename _ _ _ => Unit

abbrev Call.Res (c : Call) : Type := Except Errno c.Val

/-- What the environment decides at one call: whether it fails, and how many bytes a write
leaves out. -/
structure Fault where
  errno : Option Errno := none
  short : Nat := 0
  deriving DecidableEq

namespace FS

/-- The open calls with `O_NOFOLLOW`. -/
def resolve (fs : FS) (dir : Nat) (name : String) : Except Errno Nat :=
  match fs.lookup dir name with
  | none => .error .noent
  | some i => if (fs.inode i).kind = .symlink then .error .loop else .ok i

def asDirectory (fs : FS) (i : Nat) : Except Errno Nat :=
  if (fs.inode i).kind = .directory then .ok i else .error .notdir

/-- What stops a rename onto a name that is taken. -/
def renameError (fs : FS) (i j : Nat) : Option Errno :=
  if (fs.inode i).kind = .directory then
    if (fs.inode j).kind ≠ .directory then some .notdir
    else if (fs.inode j).entries.keys ≠ [] then some .notempty
    else none
  else if (fs.inode j).kind = .directory then some .isdir
  else none

/-- A call that does not fail for a reason outside of the file system. -/
def perform (fs : FS) (short : Nat) : (c : Call) → Except Errno c.Val × FS
  | .openBase => (.ok (), fs)
  | .openPath path =>
    match fs.paths path with
    | none => (.error .noent, fs)
    | some i => (fs.asDirectory i, fs)
  | .openDirectory dir name => (fs.resolve dir name >>= fs.asDirectory, fs)
  | .openFile dir name => (fs.resolve dir name, fs)
  | .create dir name mode =>
    match fs.lookup dir name with
    | some _ => (.error .exist, fs)
    | none => (.ok fs.next, fs.add dir name ⟨.regular, fs.uid, fs.gid, mode, 1, ∅, []⟩)
  | .mkdir dir name mode =>
    match fs.lookup dir name with
    | some _ => (.error .exist, fs)
    | none => (.ok (), fs.add dir name ⟨.directory, fs.uid, fs.gid, mode, 2, ∅, []⟩)
  | .fstat fd => (.ok (fs.stat fd), fs)
  | .fstatat dir name =>
    match fs.lookup dir name with
    | none => (.error .noent, fs)
    | some i => (.ok (fs.stat i), fs)
  | .fchown fd uid gid => (.ok (), fs.chown fd uid gid)
  | .fchmod fd mode => (.ok (), fs.chmod fd mode)
  | .read fd limit => (.ok ((fs.inode fd).data.take limit), fs)
  | .write fd data =>
    let written := data.take (data.length - short)
    (.ok written.length, fs.append fd written)
  | .fsync _ => (.ok (), fs)
  | .close _ => (.ok (), fs)
  | .dup fd => (.ok fd, fs)
  | .readdir fd => (.ok (fs.inode fd).entries.keys, fs)
  | .unlink dir name =>
    match fs.lookup dir name with
    | none => (.error .noent, fs)
    | some i =>
      if (fs.inode i).kind = .directory then (.error .isdir, fs)
      else (.ok (), (fs.leave dir name).dropLink i)
  | .rmdir dir name =>
    match fs.lookup dir name with
    | none => (.error .noent, fs)
    | some i =>
      if (fs.inode i).kind ≠ .directory then (.error .notdir, fs)
      else if (fs.inode i).entries.keys ≠ [] then (.error .notempty, fs)
      else (.ok (), fs.leave dir name)
  | .rename dir old new =>
    match fs.lookup dir old, fs.lookup dir new with
    | none, _ => (.error .noent, fs)
    | some i, none => (.ok (), (fs.leave dir old).enter dir new i)
    | some i, some j =>
      if i = j then (.ok (), fs)
      else
        match fs.renameError i j with
        | some e => (.error e, fs)
        | none => (.ok (), ((fs.leave dir old).enter dir new i).dropLink j)

/-- A call that fails: of a write a part may have been made. -/
def interrupted (fs : FS) (short : Nat) : Call → FS
  | .write fd data => fs.append fd (data.take (data.length - short))
  | _ => fs

def exec (c : Call) (x : Fault) (fs : FS) : c.Res × FS :=
  match x.errno with
  | some e => (.error e, fs.interrupted x.short c)
  | none => fs.perform x.short c

end FS

def Call.readOnly : Call → Bool
  | .openBase | .openPath _ | .openDirectory _ _ | .openFile _ _ | .fstat _ | .fstatat _ _
  | .read _ _ | .fsync _ | .close _ | .dup _ | .readdir _ => true
  | _ => false

variable {c : Call}

theorem FS.perform_readOnly (hc : c.readOnly = true) (fs : FS) (short : Nat) :
    (fs.perform short c).2 = fs := by
  cases c with
  | openPath path | fstatat =>
    simp only [FS.perform]
    split <;> rfl
  | _ => first | rfl | cases hc

theorem FS.interrupted_readOnly (hc : c.readOnly = true) (fs : FS) (short : Nat) :
    fs.interrupted short c = fs := by
  cases c with
  | write => cases hc
  | _ => rfl

theorem FS.perform_short (hc : c.readOnly = true) (fs : FS) (short : Nat) :
    fs.perform short c = fs.perform 0 c := by
  cases c with
  | _ => first | rfl | cases hc

/-- A reading call answers as the file system does, or it is made to fail. -/
theorem FS.exec_readOnly (hc : c.readOnly = true) (fs : FS) (x : Fault) : (fs.exec c x).2 = fs ∧
      ((fs.exec c x).1 = (fs.perform 0 c).1 ∨ ∃ e, (fs.exec c x).1 = .error e) := by
  unfold FS.exec
  cases x.errno with
  | some e => exact ⟨FS.interrupted_readOnly hc fs x.short, .inr ⟨e, rfl⟩⟩
  | none =>
    rw [FS.perform_short hc]
    exact ⟨FS.perform_readOnly hc fs 0, .inl rfl⟩

/-! ## When a call succeeds -/

namespace FS

variable {fs : FS} {i j dir short : Nat} {name path : String}

theorem asDirectory_eq_ok : fs.asDirectory i = .ok j ↔ (fs.inode i).kind = .directory ∧ i = j := by
  unfold asDirectory
  split <;> simp [*]

theorem resolve_eq_ok : fs.resolve dir name = .ok i ↔
    fs.lookup dir name = some i ∧ (fs.inode i).kind ≠ .symlink := by
  unfold resolve
  split
  · simp [*]
  rename_i hj
  rw [hj]
  split
  · rename_i hlink
    simp only [reduceCtorEq, Option.some.injEq, false_iff]
    rintro ⟨rfl, hne⟩
    exact hne hlink
  · rename_i hlink
    simp only [Except.ok.injEq, Option.some.injEq]
    constructor
    · rintro rfl
      exact ⟨rfl, hlink⟩
    · exact And.left

theorem openPath_eq_ok : (fs.perform short (.openPath path)).1 = .ok i ↔
    fs.paths path = some i ∧ (fs.inode i).kind = .directory := by
  simp only [perform]
  split
  · simp [*]
  rename_i hj
  rw [asDirectory_eq_ok, hj]
  constructor
  · rintro ⟨hkind, rfl⟩
    exact ⟨rfl, hkind⟩
  · rintro ⟨h, hkind⟩
    cases h
    exact ⟨hkind, rfl⟩

theorem openDirectory_eq_ok : (fs.perform short (.openDirectory dir name)).1 = .ok i ↔
    fs.lookup dir name = some i ∧ (fs.inode i).kind = .directory := by
  simp only [perform, Checked.bind_eq_ok, resolve_eq_ok, asDirectory_eq_ok]
  constructor
  · rintro ⟨j, ⟨hlook, -⟩, hkind, rfl⟩
    exact ⟨hlook, hkind⟩
  · rintro ⟨hlook, hkind⟩
    exact ⟨i, ⟨hlook, by simp [hkind]⟩, hkind, rfl⟩

theorem openFile_eq_ok : (fs.perform short (.openFile dir name)).1 = .ok i ↔
    fs.lookup dir name = some i ∧ (fs.inode i).kind ≠ .symlink := resolve_eq_ok

theorem fstatat_eq_ok {s : Stat} : (fs.perform short (.fstatat dir name)).1 = .ok s ↔
    ∃ i, fs.lookup dir name = some i ∧ s = fs.stat i := by
  simp only [perform]
  split
  · simp [*]
  · simp [*, eq_comm]

theorem perform_rename {old new} (hold : fs.lookup dir old = some i)
    (hnew : fs.lookup dir new = none) :
    fs.perform short (.rename dir old new) = (.ok (), (fs.leave dir old).enter dir new i) := by
  simp only [perform, hold, hnew]

end FS

/-! ## What a change leaves alone -/

namespace FS

variable {fs : FS} {i j dir : Nat} {name name' : String}

@[simp] theorem inode_modify_self (f : Inode → Inode) :
    (fs.modify i f).inode i = f (fs.inode i) := Function.update_self ..

@[simp] theorem inode_modify_ne (f : Inode → Inode) (h : j ≠ i) :
    (fs.modify i f).inode j = fs.inode j := Function.update_of_ne h ..

variable {f : Inode → Inode} {d : Nat} {n : Inode}

/-- A change of an inode that keeps its names keeps all names. -/
theorem lookup_modify (hf : (f (fs.inode i)).entries = (fs.inode i).entries) :
    (fs.modify i f).lookup dir name = fs.lookup dir name := by
  by_cases h : dir = i
  · subst h
    simp [lookup, hf]
  · simp [lookup, h]

theorem lookup_enter : (fs.enter d name' i).lookup dir name =
    if dir = d ∧ name = name' then some i else fs.lookup dir name := by
  by_cases hdir : dir = d
  · subst hdir
    by_cases hname : name = name'
    · subst hname
      simp [lookup, enter]
    · simp [lookup, enter, hname]
  · simp [lookup, enter, hdir]

theorem lookup_leave : (fs.leave d name').lookup dir name =
    if dir = d ∧ name = name' then none else fs.lookup dir name := by
  by_cases hdir : dir = d
  · subst hdir
    by_cases hname : name = name'
    · subst hname
      simp [lookup, leave]
    · simp [lookup, leave, hname]
  · simp [lookup, leave, hdir]

@[simp] theorem lookup_dropLink : (fs.dropLink i).lookup dir name = fs.lookup dir name :=
  lookup_modify rfl

/-- A change of names changes nothing else. -/
theorem attributes_modify (hf : ∀ n, (f n).attributes = n.attributes) :
    ((fs.modify d f).inode i).attributes = (fs.inode i).attributes := by
  by_cases h : i = d
  · subst h
    rw [inode_modify_self, hf]
  · rw [inode_modify_ne f h]

@[simp] theorem attributes_enter :
    ((fs.enter d name j).inode i).attributes = (fs.inode i).attributes :=
  attributes_modify fun _ => rfl

@[simp] theorem attributes_leave :
    ((fs.leave d name).inode i).attributes = (fs.inode i).attributes :=
  attributes_modify fun _ => rfl

theorem attributes_dropLink (h : i ≠ j) :
    ((fs.dropLink j).inode i).attributes = (fs.inode i).attributes := by
  rw [dropLink, inode_modify_ne _ h]

theorem lookup_add (h : dir ≠ fs.next) : (fs.add d name' n).lookup dir name =
      if dir = d ∧ name = name' then some fs.next else fs.lookup dir name := by
  rw [add, lookup_enter]
  simp [lookup, h]

theorem attributes_add (h : i ≠ fs.next) :
    ((fs.add d name n).inode i).attributes = (fs.inode i).attributes := by
  rw [add]
  simp [h]

theorem inode_add_next (h : d ≠ fs.next) : (fs.add d name n).inode fs.next = n := by
  rw [add, enter, inode_modify_ne _ h.symm]
  simp

/-- A change of a new inode is one before it is added. -/
theorem modify_add (h : d ≠ fs.next) (f : Inode → Inode) :
    (fs.add d name n).modify fs.next f = fs.add d name (f n) := by
  simp only [add, enter, modify, FS.mk.injEq, true_and, and_true]
  funext i
  by_cases hi : i = fs.next
  · subst hi
    simp [h.symm]
  · by_cases hd : i = d
    · subst hd
      simp [h]
    · simp [hi, hd]

/-- All numbers in use are below the next one. -/
structure Closed (fs : FS) : Prop where
  paths : ∀ path i, fs.paths path = some i → i < fs.next
  entries : ∀ dir name i, fs.lookup dir name = some i → i < fs.next

namespace Closed

variable (h : fs.Closed)

include h

theorem modify (hf : ∀ name j, (f (fs.inode i)).entries.lookup name = some j → j < fs.next) :
    (fs.modify i f).Closed where
  paths := h.paths
  entries dir name j hj := by
    by_cases hdir : dir = i
    · subst hdir
      simp only [lookup, inode_modify_self] at hj
      exact hf name j hj
    · simp only [lookup, inode_modify_ne f hdir] at hj
      exact h.entries dir name j hj

theorem modify_entries (hf : (f (fs.inode i)).entries = (fs.inode i).entries)
    : (fs.modify i f).Closed :=
  h.modify fun name j hj => h.entries i name j (by rwa [hf] at hj)

theorem dropLink : (fs.dropLink i).Closed := h.modify_entries rfl

theorem chown {uid gid : Nat} : (fs.chown i uid gid).Closed :=
  h.modify_entries rfl

theorem chmod {mode : Nat} : (fs.chmod i mode).Closed :=
  h.modify_entries rfl

theorem append {data} : (fs.append i data).Closed :=
  h.modify_entries rfl

theorem enter (hi : i < fs.next) : (fs.enter dir name i).Closed := by
  refine h.modify fun name' j hj => ?_
  by_cases hname : name' = name
  · subst hname
    rw [AList.lookup_insert] at hj
    exact Option.some.inj hj ▸ hi
  · rw [AList.lookup_insert_ne hname] at hj
    exact h.entries dir name' j hj

theorem leave : (fs.leave dir name).Closed := by
  refine h.modify fun name' j hj => ?_
  by_cases hname : name' = name
  · subst hname
    rw [AList.lookup_erase] at hj
    cases hj
  · rw [AList.lookup_erase_ne hname] at hj
    exact h.entries dir name' j hj

theorem add (hn : n.entries = ∅) : (fs.add dir name n).Closed := by
  have hnew :
      ({ fs with inode := Function.update fs.inode fs.next n, next := fs.next + 1 }).Closed := by
    refine ⟨fun path i hi => Nat.lt_succ_of_lt (h.paths path i hi), fun dir name j hj => ?_⟩
    by_cases hdir : dir = fs.next
    · subst hdir
      simp [lookup, hn] at hj
    · simp only [lookup, Function.update_of_ne hdir] at hj
      exact Nat.lt_succ_of_lt (h.entries dir name j hj)
  exact hnew.enter (Nat.lt_succ_self _)

theorem perform (short : Nat) (c : Call) : (fs.perform short c).2.Closed := by
  cases hc : c.readOnly with
  | true => rwa [perform_readOnly hc]
  | false =>
    cases c with
    | create | mkdir =>
      simp only [FS.perform]
      split
      · exact h
      · exact h.add rfl
    | fchown => exact h.chown
    | fchmod => exact h.chmod
    | write => exact h.append
    | unlink =>
      simp only [FS.perform]
      split
      · exact h
      · split
        · exact h
        · exact h.leave.dropLink
    | rmdir =>
      simp only [FS.perform]
      split
      · exact h
      split
      · exact h
      · split
        · exact h
        · exact h.leave
    | rename =>
      simp only [FS.perform]
      split
      · exact h
      · exact h.leave.enter (h.entries _ _ _ ‹_›)
      rename_i hold hnew
      split
      · exact h
      · split
        · exact h
        · exact (h.leave.enter (h.entries _ _ _ hold)).dropLink
    | _ => cases hc

theorem exec (c : Call) (x : Fault) : (fs.exec c x).2.Closed := by
  unfold FS.exec
  split
  · cases c with
    | write => exact h.append
    | _ => exact h
  · exact h.perform _ c

end Closed

end FS

end FileSystem
