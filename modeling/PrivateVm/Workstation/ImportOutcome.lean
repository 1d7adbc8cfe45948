import PrivateVm.Workstation.Import

set_option autoImplicit false

/-! # An import is all or nothing, if what is staged can be removed

`announced` is what a sequence of frames stands for: a name, and the bytes of its chunks. An import
is `AllOrNothing` if it left the Inbox as it was, or added this one file to it. `ImportFile` ignores
a failure of the removal, so it is so exactly if no removal fails, but for one of the announced file
itself.
-/

namespace PrivateVm.Workstation

open Checked FileSystem Program Program.Method Transfer List

/-! ## What is announced -/

/-- The bytes of chunks that are numbered from `k` on and end with one end frame. -/
def body : Nat → List TransferFrame → Option Bytes
  | _, [.ending _] => some []
  | k, .chunk c :: rest =>
    if c.sequence = k then (body (k + 1) rest).map (c.data ++ ·) else none
  | _, _ => none

def announced (sha256 : Bytes → Digest) : List TransferFrame → Option (String × Bytes)
  | .beginning begin :: rest => do
      let header ← FileDescriptor.header? begin.descriptor
      let data ← body 0 rest
      if data.length = header.size ∧ sha256 data = header.sha256 then some (header.name, data)
      else none
  | _ => none

/-- No file that was there is changed, and the directory has the same names, or the one of the
announced file in addition. -/
def AllOrNothing (sha256 : Bytes → Digest) (frames : List TransferFrame) (d : Nat)
    (fs fs' : FS) : Prop :=
  (∀ i < fs.next, (fs'.inode i).attributes = (fs.inode i).attributes) ∧
    ((∀ name, fs'.lookup d name = fs.lookup d name) ∨
      ∃ name data i, announced sha256 frames = some (name, data) ∧ fs.lookup d name = none ∧
        fs'.lookup d name = some i ∧ (fs'.inode i).kind = .regular ∧ (fs'.inode i).data = data ∧
        ∀ other, other ≠ name → fs'.lookup d other = fs.lookup d other)

/-- The file with this name, if there is one, is the announced one. -/
def spares (sha256 : Bytes → Digest) (frames : List TransferFrame) (dir : Nat) (name : String)
    (fs : FS) : Bool :=
  match fs.lookup dir name with
  | none => true
  | some i => announced sha256 frames == some (name, (fs.inode i).data)

/-- A removal does not fail, unless it is one of the announced file. -/
def removalFine (sha256 : Bytes → Digest) (frames : List TransferFrame) :
    Op → Choice → World → Bool
  | .sys (.unlink dir name), x, w =>
    x.fault.errno.isNone || spares sha256 frames dir name w.fs
  | _, _, _ => true

/-! ## The states of the file system -/

section

variable {fs : FS} {d : Nat} {stage name : String} {data more : Bytes}

/-- The staging file with what has been written to it. -/
def staged (fs : FS) (d : Nat) (stage : String) (data : Bytes) : FS :=
  fs.add d stage ⟨.regular, fs.uid, fs.gid, 0o600, 1, ∅, data⟩

def published (fs : FS) (d : Nat) (stage name : String) (data : Bytes) : FS :=
  ((staged fs d stage data).leave d stage).enter d name fs.next

theorem lookup_staged (hd : d ≠ fs.next) (other : String) :
    (staged fs d stage data).lookup d other =
      if other = stage then some fs.next else fs.lookup d other := by
  rw [staged, FS.lookup_add hd]
  simp

theorem inode_staged (hd : d ≠ fs.next) :
    (staged fs d stage data).inode fs.next = ⟨.regular, fs.uid, fs.gid, 0o600, 1, ∅, data⟩ :=
  FS.inode_add_next hd

theorem append_staged (hd : d ≠ fs.next) :
    (staged fs d stage data).append fs.next more = staged fs d stage (data ++ more) :=
  FS.modify_add hd _

theorem lookup_published (hd : d ≠ fs.next) (hfree : fs.lookup d stage = none) (other : String) :
    (published fs d stage name data).lookup d other =
      if other = name then some fs.next else fs.lookup d other := by
  rw [published, FS.lookup_enter, FS.lookup_leave, lookup_staged hd]
  by_cases hstg : other = stage
  · simp [hstg, hfree]
  · simp [hstg]

theorem content_published (hd : d ≠ fs.next) :
    ((published fs d stage name data).inode fs.next).kind = .regular ∧
      ((published fs d stage name data).inode fs.next).data = data := by
  have h : ((published fs d stage name data).inode fs.next).attributes =
      ⟨.regular, fs.uid, fs.gid, 0o600, 1, ∅, data⟩ := by
    rw [published, FS.attributes_enter, FS.attributes_leave, inode_staged hd]
    rfl
  exact ⟨congrArg Inode.kind h, congrArg Inode.data h⟩

/-- What was there before is changed by none of the states. -/
theorem attributes_staged_old {i : Nat} (hi : i < fs.next) :
    ((staged fs d stage data).inode i).attributes = (fs.inode i).attributes :=
  FS.attributes_add (Nat.ne_of_lt hi)

theorem attributes_published_old {i : Nat} (hi : i < fs.next) :
    ((published fs d stage name data).inode i).attributes = (fs.inode i).attributes := by
  rw [published, FS.attributes_enter, FS.attributes_leave, attributes_staged_old hi]

theorem perform_unlink {fs' : FS} (hlook : fs'.lookup d name = some fs.next)
    (hkind : (fs'.inode fs.next).kind = .regular) (short : Nat) :
    (fs'.perform short (.unlink d name)).2 = (fs'.leave d name).dropLink fs.next := by
  simp [FS.perform, hlook, hkind]

end

/-! ## How the states compare with the one before -/

section

variable {sha256 : Bytes → Digest} {frames : List TransferFrame} {fs fs' : FS} {d : Nat}
  {stage name : String} {data : Bytes}

theorem allOrNothing_refl : AllOrNothing sha256 frames d fs fs :=
  ⟨fun _ _ => rfl, .inl fun _ => rfl⟩

theorem allOrNothing_removed (hfree : fs.lookup d name = none)
    (hattr : ∀ i < fs.next, (fs'.inode i).attributes = (fs.inode i).attributes)
    (hlook : ∀ other, fs'.lookup d other =
      if other = name then some fs.next else fs.lookup d other) :
    AllOrNothing sha256 frames d fs ((fs'.leave d name).dropLink fs.next) := by
  refine ⟨fun i hi => ?_, .inl fun other => ?_⟩
  · rw [FS.attributes_dropLink (Nat.ne_of_lt hi), FS.attributes_leave, hattr i hi]
  · rw [FS.lookup_dropLink, FS.lookup_leave, hlook]
    by_cases hname : other = name
    · simp [hname, hfree]
    · simp [hname]

theorem allOrNothing_published (hd : d ≠ fs.next) (hstg : fs.lookup d stage = none)
    (hname : fs.lookup d name = none) (hann : announced sha256 frames = some (name, data)) :
    AllOrNothing sha256 frames d fs (published fs d stage name data) := by
  refine ⟨fun i => attributes_published_old, .inr ⟨name, data, fs.next, hann, hname, ?_,
    (content_published hd).1, (content_published hd).2, fun other hother => ?_⟩⟩
  · rw [lookup_published hd hstg, if_pos rfl]
  · rw [lookup_published hd hstg, if_neg hother]

/-- What stays of a staging file is the announced one, or too much. -/
theorem allOrNothing_staged_iff (hd : d ≠ fs.next) (hstg : fs.lookup d stage = none) :
    AllOrNothing sha256 frames d fs (staged fs d stage data) ↔
      announced sha256 frames = some (stage, data) := by
  constructor
  · rintro ⟨-, hsame | ⟨name, data', i, hann, hfree, hi, -, hdata, -⟩⟩
    · have hnew := hsame stage
      simp [lookup_staged hd, hstg] at hnew
    -- the only name that was not there before is that of the staging file
    rw [lookup_staged hd] at hi
    split_ifs at hi with hname
    · cases hi
      rw [inode_staged hd] at hdata
      rw [hann, hname, ← hdata]
    · simp [hfree] at hi
  · intro hann
    refine ⟨fun i => attributes_staged_old, .inr ⟨stage, data, fs.next, hann, hstg, ?_,
      ?_, ?_, fun other hother => ?_⟩⟩
    · rw [lookup_staged hd, if_pos rfl]
    · rw [inode_staged hd]
    · rw [inode_staged hd]
    · rw [lookup_staged hd, if_neg hother]

theorem spares_staged (hd : d ≠ fs.next) :
    spares sha256 frames d stage (staged fs d stage data) = true ↔
      announced sha256 frames = some (stage, data) := by
  simp [spares, lookup_staged hd, inode_staged hd]

theorem spares_published (hd : d ≠ fs.next) (hstg : fs.lookup d stage = none)
    (hann : announced sha256 frames = some (name, data)) :
    spares sha256 frames d name (published fs d stage name data) = true := by
  simp [spares, lookup_published hd hstg, content_published hd, hann]

end

/-! ## The steps of the call

Each lemma says for one method how it may end, on the world with the mark that says whether
the removals so far were fine. -/

abbrev marked (sha256 : Bytes → Digest) (frames : List TransferFrame) :=
  marking exec (removalFine sha256 frames)

section

variable {sha256 : Bytes → Digest} {frames : List TransferFrame} {s : Flags} {w : World} {v : Bool}
  {α : Type} {c : Call} {Q : Except ImportError Unit → Flags → World × Bool → Prop}
  {incoming : List TransferFrame}

/-- A system call that only reads: it answers as the file system does, or it fails. -/
theorem does_read_bind {f : c.Res → Import α}
    {Q : Except ImportError α → Flags → World × Bool → Prop} (hc : c.readOnly = true)
    (hans : Does (marked sha256 frames) (f (w.fs.perform 0 c).1) Q s (w, v))
    (hfail : ∀ errno, Does (marked sha256 frames) (f (.error errno)) Q s (w, v)) :
    Does (marked sha256 frames) (invoke (.sys c) >>= f) Q s (w, v) := by
  have hfine : ∀ x, removalFine sha256 frames (.sys c) x w = true := by
    intro x
    cases c with
    | unlink => cases hc
    | _ => rfl
  refine does_fine_bind hfine fun x => ?_
  obtain ⟨hstill, hvalue⟩ := FS.exec_readOnly hc w.fs x.fault
  have hw : (exec (.sys c) x w).2 = w := by
    simp [exec, hstill]
  rw [hw]
  rcases hvalue with hvalue | ⟨errno, hvalue⟩
  · have hr : (exec (.sys c) x w).1 = (w.fs.perform 0 c).1 := hvalue
    rwa [hr]
  · have hr : (exec (.sys c) x w).1 = .error errno := hvalue
    rw [hr]
    exact hfail errno

variable {e : ImportError}

theorem does_sys {Q : Except ImportError c.Val → Flags → World × Bool → Prop}
    (hc : c.readOnly = true) (hok : ∀ a, (w.fs.perform 0 c).1 = .ok a → Q (.ok a) s (w, v))
    (herr : Q (.error e) s (w, v)) : Does (marked sha256 frames) (sys c e) Q s (w, v) := by
  refine does_read_bind hc ?_ fun errno => does_check herr
  cases hvalue : (w.fs.perform 0 c).1 with
  | ok a => exact does_check (hok a hvalue)
  | error => exact does_check herr

theorem does_ignore (hc : c.readOnly = true) (hQ : Q (.ok ()) s (w, v)) :
    Does (marked sha256 frames) (ignore c) Q s (w, v) :=
  does_read_bind hc (does_pure hQ) fun _ => does_pure hQ

theorem does_lease {d : PinnedDirectory} {Q : Except ImportError Nat → Flags → World × Bool → Prop}
    (hok : Q (.ok d.inode) s (w, v)) (herr : ∀ e, Q (.error e) s (w, v)) :
    Does (marked sha256 frames) d.lease Q s (w, v) := by
  refine does_check_bind (fun e _ => herr e) fun _ _ => does_sys rfl (fun a ha => ?_) (herr _)
  cases ha
  exact hok

/-- The path leads to the pinned directory, or the check fails. -/
theorem does_verifyPath {d : PinnedDirectory}
    (hok : w.fs.paths d.path = some d.inode → Q (.ok ()) s (w, v))
    (herr : ∀ e, Q (.error e) s (w, v)) :
    Does (marked sha256 frames) d.verifyPath Q s (w, v) := by
  refine does_bind (does_sys rfl (fun current hcur => ?_) (herr _))
  refine does_read_bind rfl ?_ fun errno => ?_
  · refine does_bind (does_ignore rfl ?_)
    refine does_check_bind (fun e _ => herr e) fun stat hstat => does_check ?_
    cases hstat
    cases hsame : failIf ((w.fs.stat current).dev ≠ d.device ∨ (w.fs.stat current).ino ≠ d.inode)
        inboxChanged with
    | error e => exact herr e
    | ok =>
      have hino : current = d.inode := not_not.1 (not_or.1 (failIf_eq_ok.1 hsame)).2
      exact hok (hino ▸ (FS.openPath_eq_ok.1 hcur).1)
  · refine does_bind (does_ignore rfl ?_)
    refine does_check_bind (fun e _ => herr e) fun stat hstat => ?_
    cases hstat

theorem does_checkContext (hok : Q (.ok ()) s (w, v)) (herr : ∀ e, Q (.error e) s (w, v)) :
    Does (marked sha256 frames) checkContext Q s (w, v) := by
  refine does_fine_bind (fun _ => rfl) fun x => does_check ?_
  obtain ⟨fault, broken, _ | e⟩ := x
  · exact hok
  · exact herr _

theorem does_recvFrame {Q : Except ImportError TransferFrame → Flags → World × Bool → Prop}
    (hok : ∀ frame rest, w.incoming = frame :: rest →
      Q (.ok frame) s ({ w with incoming := rest }, v))
    (herr : ∀ e, Q (.error e) s (w, v)) :
    Does (marked sha256 frames) recvFrame Q s (w, v) := by
  have hfail : ∀ e, Does (marked sha256 frames) (do checkContext; throw e) Q s (w, v) :=
    fun e => does_bind (does_checkContext (does_throw (herr e)) herr)
  refine does_fine_bind (fun _ => rfl) fun x => ?_
  obtain ⟨fs, incoming, receipt⟩ := w
  obtain ⟨fault, broken, context⟩ := x
  cases broken with
  | true => exact hfail _
  | false =>
    cases incoming with
    | nil => exact hfail _
    | cons frame rest => exact does_pure (hok frame rest rfl)

/-- The stream has ended, or a frame more was received, or it is broken. -/
theorem does_recvEnd (hok : w.incoming = [] → Q (.ok ()) s (w, v))
    (herr : ∀ e rest, Q (.error e) s ({ w with incoming := rest }, v)) :
    Does (marked sha256 frames) recvEnd Q s (w, v) := by
  have hfail : ∀ e rest, Does (marked sha256 frames) (do checkContext; throw e) Q s
      ({ w with incoming := rest }, v) := fun e rest =>
    does_bind (does_checkContext (does_throw (herr e rest)) fun e => herr e rest)
  refine does_fine_bind (fun _ => rfl) fun x => ?_
  obtain ⟨fs, incoming, receipt⟩ := w
  obtain ⟨fault, broken, context⟩ := x
  cases broken with
  | true => exact hfail _ incoming
  | false =>
    cases incoming with
    | nil => exact does_pure (hok rfl)
    | cons frame rest => exact hfail _ rest

/-! ### Writing to the staging file -/

variable {fs : FS} {d : Nat} {stage : String} {receipt : Option TransferReceipt}

/-- `Write` writes all of the data, or fails after a part of it. -/
theorem does_writeFile (hd : d ≠ fs.next) (n : Nat) (data acc : Bytes)
    (hok : Q (.ok ()) s (⟨staged fs d stage (acc ++ data), incoming, receipt⟩, v))
    (herr : ∀ more, Q (.error e) s (⟨staged fs d stage more, incoming, receipt⟩, v)) :
    Does (marked sha256 frames) (writeFile fs.next e n data) Q s
      (⟨staged fs d stage acc, incoming, receipt⟩, v) := by
  induction n generalizing data acc with
  | zero =>
    cases data with
    | nil =>
      rw [append_nil] at hok
      exact does_pure hok
    | cons => exact does_throw (herr acc)
  | succ n ih =>
    cases data with
    | nil =>
      rw [append_nil] at hok
      exact does_pure hok
    | cons byte data =>
      refine does_bind (does_fine_bind (fun _ => rfl) fun x => ?_)
      obtain ⟨⟨_ | errno, short⟩, broken, context⟩ := x
      · -- the call takes a part of the data
        refine does_check ?_
        obtain ⟨taken, htaken⟩ : ∃ taken,
            taken = (byte :: data).take ((byte :: data).length - short) := ⟨_, rfl⟩
        have hspl : taken ++ (byte :: data).drop taken.length = byte :: data := by
          rw [htaken, length_take, Nat.min_eq_left (Nat.sub_le _ _), take_append_drop]
        change Does _ (if _ then _ else _) Q s
          (⟨(staged fs d stage acc).append fs.next _, incoming, receipt⟩, v)
        rw [← htaken, append_staged hd]
        split_ifs
        · exact does_throw (herr _)
        · refine ih _ _ ?_
          rwa [append_assoc, hspl]
      · refine does_check ?_
        change Q (.error e) s (⟨(staged fs d stage acc).append fs.next _, incoming, receipt⟩, v)
        rw [append_staged hd]
        exact herr _

/-! ### Receiving the frames -/

/-- The loop ends without an error only after all frames, whose bytes are then staged. -/
theorem does_receiveFrames (hd : d ≠ fs.next) {header}
    (herr : ∀ e more rest, Q (.error e) s (⟨staged fs d stage more, rest, receipt⟩, v)) (n : Nat)
    (incoming : List TransferFrame) (acc : Bytes) (sequence : Nat)
    (hok : ∀ more, body sequence incoming = some more → (acc ++ more).length = header.size →
      sha256 (acc ++ more) = header.sha256 →
      Q (.ok ()) s (⟨staged fs d stage (acc ++ more), [], receipt⟩, v)) :
    Does (marked sha256 frames)
      (receiveFrames sha256 header fs.next n ⟨header, acc.length, acc⟩ sequence acc.length) Q s
      (⟨staged fs d stage acc, incoming, receipt⟩, v) := by
  induction n generalizing incoming acc sequence with
  | zero => exact does_throw (herr _ _ _)
  | succ n ih =>
    have herr' := fun e rest => herr e acc rest
    refine does_bind (does_checkContext ?_ fun e => herr' e _)
    refine does_bind (does_recvFrame (fun frame rest hrest => ?_) fun e => herr' e _)
    cases hrest
    cases frame with
    | beginning begin | unset => exact does_throw (herr _ _ _)
    | chunk chunk =>
      refine does_check_bind (fun e _ => herr' e rest) fun _ hseq => ?_
      refine does_check_bind (fun e _ => herr' e rest) fun _ _ => ?_
      have hnumb : chunk.sequence = sequence := not_not.1 (failIf_eq_ok.1 hseq)
      -- the chunk is staged and counted
      refine does_bind (does_check_bind (fun e _ => herr' e rest) fun _ _ => ?_)
      refine does_bind (does_writeFile hd _ _ _ (does_pure ?_) fun more => herr _ more rest)
      rw [Receiver.wrote_piece, ← List.length_append]
      refine ih rest (acc ++ chunk.data) (sequence + 1) fun more hmore hsize hdig => ?_
      rw [append_assoc] at hsize hdig ⊢
      refine hok _ ?_ hsize hdig
      rw [body, if_pos hnumb, hmore]
      rfl
    | ending =>
      refine does_check_bind (fun e _ => herr' e rest) fun _ _ => ?_
      refine does_bind (does_recvEnd (fun hrest => ?_) herr')
      cases hrest
      refine does_check ?_
      cases hfin : Receiver.finish sha256 ⟨header, acc.length, acc⟩ with
      | error => exact herr' _ _
      | ok =>
        obtain ⟨hsize, hdig⟩ := Receiver.finish_eq_ok.1 hfin
        have hend := hok [] rfl
        rw [append_nil] at hend
        exact hend hsize hdig

theorem does_rename_bind (hd : d ≠ fs.next) (hstg : fs.lookup d stage = none) {name data}
    {f : Except Errno Unit → Import α} {Q : Except ImportError α → Flags → World × Bool → Prop}
    (hok : fs.lookup d name = none → Does (marked sha256 frames) (f (.ok ())) Q s
      (⟨published fs d stage name data, incoming, receipt⟩, v))
    (herr : ∀ errno, Does (marked sha256 frames) (f (.error errno)) Q s
      (⟨staged fs d stage data, incoming, receipt⟩, v)) :
    Does (marked sha256 frames) (invoke (.renameNoReplace d stage name) >>= f) Q s
      (⟨staged fs d stage data, incoming, receipt⟩, v) := by
  refine does_fine_bind (fun _ => rfl) fun x => ?_
  obtain ⟨⟨_ | errno, short⟩, broken, context⟩ := x
  · simp only [exec, renameNoReplace]
    have hold : (staged fs d stage data).lookup d stage = some fs.next := by
      rw [lookup_staged hd, if_pos rfl]
    cases htaken : (staged fs d stage data).lookup d name with
    | some => exact herr _
    | none =>
      simp only [FS.perform, hold, htaken]
      refine hok ?_
      rw [lookup_staged hd] at htaken
      by_cases hname : name = stage
      · rwa [hname]
      · rwa [if_neg hname] at htaken
  · exact herr errno

/-! ### The call -/

variable {server : Server} {begin : TransferBegin} {header : Header} {rest : List TransferFrame}

/-- Until the rename the bytes so far are staged; afterwards the announced file is published. -/
theorem does_receiveFile (hd : d ≠ fs.next) (hstg : fs.lookup d (partialName begin) = none)
    (hhdr : FileDescriptor.header? begin.descriptor = some header) (hearly : ∀ e data inc,
      Q (.error e) {} (⟨staged fs d (partialName begin) data, inc, none⟩, v))
    (hlate : ∀ e data, announced sha256 (.beginning begin :: rest) = some (header.name, data) →
      fs.lookup d header.name = none →
      Q (.error e) ⟨false, true⟩
        (⟨published fs d (partialName begin) header.name data, [], none⟩, v))
    (hok : ∀ r data, announced sha256 (.beginning begin :: rest) = some (header.name, data) →
      fs.lookup d header.name = none →
      Q (.ok ()) ⟨true, true⟩
        (⟨published fs d (partialName begin) header.name data, [], some r⟩, v))
    :
    Does (marked sha256 frames) (receiveFile sha256 server begin header d fs.next) Q {}
      (⟨staged fs d (partialName begin) [], rest, none⟩, v) := by
  refine does_check_bind (fun e _ => hearly e _ _) fun receiver hrec => ?_
  obtain ⟨-, rfl⟩ := newReceiver_eq_ok.1 (mapError_eq_ok.1 hrec)
  refine does_bind (does_receiveFrames hd ?_ _ rest [] 0 ?_)
  · exact fun e more inc => hearly e more inc
  intro data hbody hsize hdig
  have hann : announced sha256 (.beginning begin :: rest) = some (header.name, data) := by
    simp only [announced, hhdr, hbody]
    exact if_pos ⟨hsize, hdig⟩
  refine does_bind (does_sys rfl (fun _ _ => ?_) (hearly _ _ _))
  refine does_bind (does_sys rfl (fun _ _ => ?_) (hearly _ _ _))
  refine does_bind (does_verifyPath (fun _ => ?_) fun e => hearly e _ _)
  refine does_rename_bind hd hstg (fun hfree => ?_) fun errno =>
    does_check_bind (fun e _ => hearly e _ _) fun _ h => by cases h
  refine does_check_bind (fun e h => by cases h) fun _ _ => ?_
  refine does_modify_bind ?_
  -- from here on the file has its name
  have hlate := fun e => hlate e data hann hfree
  refine does_bind (does_sys rfl (fun _ _ => ?_) (hlate _))
  refine does_bind (does_verifyPath (fun _ => ?_) hlate)
  refine does_fine_bind (fun _ => rfl) fun x => ?_
  obtain ⟨fault, broken, context⟩ := x
  cases broken with
  | true => exact does_check_bind (fun e _ => hlate e) fun _ h => by cases h
  | false =>
    refine does_check_bind (fun e h => by cases h) fun _ _ => does_modify ?_
    exact hok _ data hann hfree

/-- The deferred functions: the new file is removed unless the call succeeded. -/
theorem does_discard {inbox fd : Nat}
    (hkeep : s.keep = true → Q (.ok ()) s (⟨fs, incoming, receipt⟩, v))
    (hrem : ∀ name, s.keep = false →
      name = (if s.published then header.name else partialName begin) → ∀ short,
      Q (.ok ()) s (⟨(fs.perform short (.unlink inbox name)).2, incoming, receipt⟩, v))
    (hleft : ∀ name, s.keep = false →
      name = (if s.published then header.name else partialName begin) →
      Q (.ok ()) s (⟨fs, incoming, receipt⟩, v && spares sha256 frames inbox name fs)) :
    Does (marked sha256 frames) (discard begin header inbox fd) Q s
      (⟨fs, incoming, receipt⟩, v) := by
  refine does_bind (does_ignore rfl (does_get_bind ?_))
  cases hs : s.keep with
  | true => exact does_pure (hkeep hs)
  | false =>
    refine does_bind (does_invoke_bind fun x => does_pure ?_)
    obtain ⟨⟨_ | errno, short⟩, broken, context⟩ := x
    · refine does_ignore rfl ?_
      have h := hrem _ hs rfl short
      rwa [← Bool.and_true v] at h
    · exact does_ignore rfl (hleft _ hs rfl)

/-- What is left of the call once the staging file is made: the file system is judged when the
deferred functions have run. -/
theorem does_discard_all (hd : d ≠ fs.next) (hstg : fs.lookup d (partialName begin) = none)
    (hhdr : FileDescriptor.header? begin.descriptor = some header) :
    Does (marked sha256 (.beginning begin :: rest))
      (do
        let result ← settle (receiveFile sha256 server begin header d fs.next)
        discard begin header d fs.next
        ignore (.close d)
        check result)
      (fun _ _ h => AllOrNothing sha256 (.beginning begin :: rest) d fs h.1.fs ↔ h.2 = true) {}
      (⟨staged fs d (partialName begin) [], rest, none⟩, true) := by
  have hlast : ∀ (result : Except ImportError Unit) s w v,
      (AllOrNothing sha256 (.beginning begin :: rest) d fs w.fs ↔ v = true) →
      Does (marked sha256 (.beginning begin :: rest)) (do ignore (.close d); check result)
        (fun _ _ h => AllOrNothing sha256 (.beginning begin :: rest) d fs h.1.fs ↔ h.2 = true)
        s (w, v) := by
    intro result s w v h
    refine does_bind (does_ignore rfl ?_)
    rw [then_ok]
    exact does_check h
  refine does_settle_bind (does_receiveFile hd hstg hhdr ?_ ?_ ?_)
  · -- the call failed before the rename
    intro e data inc
    refine does_bind (does_discard (fun h => by cases h) ?_ ?_)
    · rintro name - rfl short
      refine hlast _ _ _ _ (iff_of_true ?_ rfl)
      have hkind : ((staged fs d (partialName begin) data).inode fs.next).kind = .regular := by
        rw [inode_staged hd]
      change AllOrNothing _ _ d fs (FS.perform _ short (.unlink d (partialName begin))).2
      rw [perform_unlink (by rw [lookup_staged hd, if_pos rfl]) hkind]
      exact allOrNothing_removed hstg (fun i => attributes_staged_old) (lookup_staged hd)
    · rintro name - rfl
      refine hlast _ _ _ _ ?_
      exact (allOrNothing_staged_iff hd hstg).trans (spares_staged hd).symm
  · -- the call failed after it
    intro e data hann hfree
    refine does_bind (does_discard (fun h => by cases h) ?_ ?_)
    · rintro name - rfl short
      refine hlast _ _ _ _ (iff_of_true ?_ rfl)
      change AllOrNothing _ _ d fs (FS.perform _ short (.unlink d header.name)).2
      rw [perform_unlink (by rw [lookup_published hd hstg, if_pos rfl]) (content_published hd).1]
      exact allOrNothing_removed hfree (fun i => attributes_published_old)
        (lookup_published hd hstg)
    · rintro name - rfl
      refine hlast _ _ _ _ (iff_of_true (allOrNothing_published hd hstg hfree hann) ?_)
      exact spares_published hd hstg hann
  · -- it succeeded
    intro r data hann hfree
    refine does_bind (does_discard (fun _ => ?_) (fun _ h => by cases h) fun _ h => by cases h)
    exact hlast _ _ _ _ (iff_of_true (allOrNothing_published hd hstg hfree hann) rfl)

/-- **Every end of an import**, with the mark of its removals. -/
theorem does_importFile (hfs : fs.Closed) :
    Does (marked sha256 frames) (importFile sha256 server)
      (fun _ _ h => AllOrNothing sha256 frames server.inbox.inode fs h.1.fs ↔ h.2 = true) {}
      (⟨fs, frames, none⟩, true) := by
  have hsame : AllOrNothing sha256 frames server.inbox.inode fs fs ↔ true = true :=
    iff_of_true allOrNothing_refl rfl
  refine does_fine_bind (fun _ => rfl) fun x => ?_
  obtain ⟨fault, broken, context⟩ := x
  cases broken with
  | true => exact does_throw hsame
  | false =>
    cases frames with
    | nil => exact does_throw hsame
    | cons frame =>
      cases frame with
      | chunk chunk | ending e | unset => exact does_throw hsame
      | beginning begin =>
        refine does_check_bind (fun e _ => hsame) fun _ _ => ?_
        refine does_check_bind (fun e _ => hsame) fun header hdesc => ?_
        refine does_bind (does_lease ?_ fun e => hsame)
        rw [then_ok]
        refine does_settle_bind (does_verifyPath (fun hpath => ?_) fun e => ?_)
        · -- the pinned directory is older than the staging file
          have hd : server.inbox.inode ≠ fs.next :=
            Nat.ne_of_lt (hfs.paths _ _ hpath)
          have hhdr : FileDescriptor.header? begin.descriptor = some header := by
            obtain ⟨h, hh, hval⟩ := bind_eq_ok.1 hdesc
            obtain ⟨_, -, hret⟩ := bind_eq_ok.1 hval
            cases hret
            exact ofOption_eq_ok.1 hh
          refine does_bind (does_fine_bind (fun _ => rfl) fun x => does_check ?_)
          obtain ⟨⟨_ | errno, short⟩, broken, context⟩ := x
          · cases hstg : fs.lookup server.inbox.inode (partialName begin) with
            | some =>
              simp only [exec, FS.exec, FS.perform, hstg]
              exact hsame
            | none =>
              simp only [exec, FS.exec, FS.perform, hstg]
              exact does_discard_all hd hstg hhdr
          · exact hsame
        · refine does_bind (does_ignore rfl ?_)
          rw [then_ok]
          exact does_throw hsame

end

/-! ## The result -/

/-- **Import is all or nothing**: whatever frames the client sends and whatever fails, the call
leaves the Inbox as it was or adds the announced file, exactly if no removal fails but one of
the announced file. -/
theorem import_all_or_nothing_iff (sha256 : Bytes → Digest) (server : Server)
    (frames : List TransferFrame) (fs : FS) (hfs : fs.Closed) (xs : Nat → Choice) :
    AllOrNothing sha256 frames server.inbox.inode fs
        ((importFile sha256 server).outcome exec xs {} ⟨fs, frames, none⟩).2.fs ↔
      (importFile sha256 server).along exec (removalFine sha256 frames) xs {}
        ⟨fs, frames, none⟩ = true :=
  (does_importFile hfs).along xs

/-! ## A file that stays behind -/

def sampleSha256 : Bytes → Digest := fun _ => Vector.replicate 32 1

def sampleFs : FS where
  dev := 7
  uid := 1000
  gid := 1000
  paths path := if path = "/home/private/Inbox" then some 0 else none
  inode _ := ⟨.directory, 1000, 1000, 0o700, 2, ∅, []⟩
  next := 1

def sampleServer : Server where
  inbox := ⟨"/home/private/Inbox", 7, 0, false⟩
  «export» := ⟨"/home/private/Export", 7, 1, false⟩
  maxFile := defaultMaxFileBytes
  maxTotal := defaultMaxWorkspaceBytes

def sampleBegin : TransferBegin where
  context := none
  transferId := "transfer-1"
  descriptor := some ⟨"a.txt", 2, "", some (protoHash (Vector.replicate 32 1))⟩

def sampleFrames : List TransferFrame :=
  [.beginning sampleBegin, .chunk ⟨0, [104]⟩, .chunk ⟨1, [105]⟩,
    .ending ⟨2, some (protoHash (Vector.replicate 32 1))⟩]

theorem sampleFs_closed : sampleFs.Closed where
  paths path i h := by
    simp only [sampleFs, Option.ite_none_right_eq_some, Option.some.injEq] at h ⊢
    omega
  entries dir name i h := by
    simp [FS.lookup, sampleFs] at h

/-- A file in two chunks is imported, and nothing fails. -/
theorem import_all_or_nothing_sample :
    AllOrNothing sampleSha256 sampleFrames 0 sampleFs
      ((importFile sampleSha256 sampleServer).outcome exec (fun _ => {}) {}
        ⟨sampleFs, sampleFrames, none⟩).2.fs :=
  (import_all_or_nothing_iff sampleSha256 sampleServer sampleFrames sampleFs sampleFs_closed
    fun _ => {}).2 (by decide +kernel)

/-- The client closes the stream after the first chunk, and the removal of the staging file,
the fourteenth operation of the call, fails. -/
def brokenOff : Nat → Choice := fun n =>
  if n = 13 then { fault := { errno := some (.other "input/output error") } } else {}

/-- **The staging file stays** in the Inbox, although the error returned says that partial bytes
were removed. -/
theorem partial_file_left :
    ((importFile sampleSha256 sampleServer).outcome exec brokenOff {}
        ⟨sampleFs, sampleFrames.take 2, none⟩).1.1 = .error transferIncomplete ∧
      ¬ AllOrNothing sampleSha256 (sampleFrames.take 2) 0 sampleFs
        ((importFile sampleSha256 sampleServer).outcome exec brokenOff {}
          ⟨sampleFs, sampleFrames.take 2, none⟩).2.fs := by
  have hjudg : Does (marked sampleSha256 (sampleFrames.take 2)) _ _ _ _ :=
    @does_importFile _ _ _ sampleServer sampleFs_closed
  refine ⟨by decide +kernel, fun h => ?_⟩
  have hfine := (hjudg.along brokenOff).1 h
  cases hfine

end PrivateVm.Workstation
