import PrivateVm.Transfer.Source
import PrivateVm.Workstation.ImportOutcome
import PrivateVm.Workstation.Relay

set_option autoImplicit false

/-! # Which permitted files can be transferred

The relay and the guest both take 8193 frames after the begin frame, while the host command sends
a chunk for every read. A file of at most 8 GiB has at most 8192 chunks if its reads fill the
buffer of one MiB, but one short read can be one too many. When nothing fails, the Inbox is in
place and the file's names are free, the file is transferred just if there are at most 8192.
-/

namespace PrivateVm.Workstation

open Checked FileSystem Program Program.Method Transfer List

/-- The largest file of the host command. -/
def maximumWorkspaceFileBytes : Nat := 8 * 1024 * 1024 * 1024

/-- A name that `OpenSource` admits. -/
def PermittedName (name : String) : Prop :=
  (⟨name, 0, Vector.replicate 32 0, ""⟩ : Header).validate 0 = .ok ()

def fileHeader (sha256 : Bytes → Digest) (name : String) (data : Bytes) : Header :=
  ⟨name, data.length, sha256 data, ""⟩

/-- The frames after the first of a file that is read in these pieces. -/
def fileFrames (header : Header) (sequence : Nat) (reads : List Bytes) : List TransferFrame :=
  (chunksFrom sequence reads).map .chunk ++ [.ending ⟨header.size, some (protoHash header.sha256)⟩]

/-- The rest of a file, after the bytes received so far, is read in these pieces. -/
structure ReadIn (sha256 : Bytes → Digest) (header : Header) (acc : Bytes)
    (reads : List Bytes) : Prop where
  pieces : ∀ piece ∈ reads, piece ≠ [] ∧ piece.length ≤ defaultMaxChunk
  size : (acc ++ reads.flatten).length = header.size
  digest : sha256 (acc ++ reads.flatten) = header.sha256

namespace ReadIn

variable {sha256 : Bytes → Digest} {header : Header} {acc piece : Bytes} {reads : List Bytes}

theorem finish (h : ReadIn sha256 header acc []) :
    Receiver.finish sha256 ⟨header, acc.length, acc⟩ = .ok () := by
  have hsize := h.size
  have hdig := h.digest
  rw [flatten_nil, append_nil] at hsize hdig
  exact Receiver.finish_eq_ok.2 ⟨hsize, hdig⟩

/-- The next piece is admitted, and the others are read after it. -/
theorem cons (h : ReadIn sha256 header acc (piece :: reads)) :
    (∃ byte data, piece = byte :: data) ∧ piece.length ≤ defaultMaxChunk ∧
      Receiver.admits ⟨header, acc.length, acc⟩ acc.length piece = .ok () ∧
      ReadIn sha256 header (acc ++ piece) reads := by
  obtain ⟨hpiec, hsize, hdig⟩ := h
  obtain ⟨hpiece, hrest⟩ := forall_mem_cons.1 hpiec
  rw [flatten_cons, ← append_assoc] at hsize hdig
  exact ⟨exists_cons_of_ne_nil hpiece.1, hpiece.2, Receiver.admits_piece hpiece.2 hsize,
    hrest, hsize, hdig⟩

end ReadIn

/-! ## The source -/

section

variable {sha256 : Bytes → Digest} {name : String} {hashed reads : List Bytes}

/-- A file of at most 8 GiB is read in at most 8192 pieces if each read but the last fills the
buffer. -/
theorem length_nonempty_of_full (hfull : ∀ piece ∈ reads.dropLast, piece.length = defaultMaxChunk)
    (hsize : reads.flatten.length ≤ maximumWorkspaceFileBytes) :
    (nonempty reads).length ≤ 8192 := by
  rcases eq_nil_or_concat' reads with rfl | ⟨init, last, rfl⟩
  · exact Nat.zero_le _
  rw [dropLast_concat] at hfull
  have hmap : init.map length = replicate init.length defaultMaxChunk :=
    eq_replicate_iff.2 ⟨length_map _, by simpa using hfull⟩
  have hinit : init.flatten.length = init.length * (1024 * 1024) := by
    rw [length_flatten, hmap, sum_replicate_nat]
    rfl
  have hle : (nonempty init).length ≤ init.length := length_filter_le _ _
  rw [flatten_concat, length_append, hinit, maximumWorkspaceFileBytes] at hsize
  rw [nonempty, filter_append, length_append, ← nonempty]
  cases last with
  | nil =>
    change (nonempty init).length + 0 ≤ 8192
    omega
  | cons =>
    change (nonempty init).length + 1 ≤ 8192
    rw [length_cons] at hsize
    omega

/-- The host command opens and streams a permitted file. -/
theorem importFrames_stable (hname : PermittedName name)
    (hsize : reads.flatten.length ≤ maximumWorkspaceFileBytes)
    (hsame : hashed.flatten = reads.flatten) (context : Option RequestContext)
    (transferId : String) :
    importFrames sha256 context transferId name maximumWorkspaceFileBytes (stable hashed)
        (stable reads) =
      .ok (.beginning ⟨context, transferId,
          some (fileHeader sha256 name reads.flatten).descriptor⟩ ::
        fileFrames (fileHeader sha256 name reads.flatten) 0 reads) := by
  have hreads : ∀ {bound : Nat} {text : String} {pieces : List Bytes},
      pieces.flatten = reads.flatten → reads.flatten.length ≤ bound →
      collect bound text pieces 0 = .ok reads.flatten.length := by
    intro bound text pieces hpiec hbd
    rw [collect_eq_ok (Nat.zero_le _), hpiec]
    exact ⟨(Nat.zero_add _).symm, hbd⟩
  have hopen : openSource sha256 name maximumWorkspaceFileBytes (stable hashed) =
      .ok (fileHeader sha256 name reads.flatten) := by
    simp only [openSource, hashOpenFile, stable, bind_eq_ok, hreads hsame hsize, hsame]
    refine ⟨(), by simpa using hsize, (), Header.validate_of_size_le hname rfl rfl hsize, ?_⟩
    exact ⟨_, ⟨_, rfl, rfl⟩, (), by simp, rfl⟩
  have hstr : stream sha256 (fileHeader sha256 name reads.flatten) (stable reads) =
      .ok (chunksFrom 0 reads) := by
    simp only [stream, stable, bind_eq_ok, pure_eq_ok]
    exact ⟨_, hreads rfl (Nat.le_refl _), (), by simp [fileHeader], trivial⟩
  simp only [importFrames, bind_eq_ok]
  exact ⟨_, hopen, _, hstr, rfl⟩

/-- The pieces that are sent are those that the receivers take. -/
theorem readIn_nonempty (hpieces : ∀ piece ∈ reads, piece.length ≤ defaultMaxChunk) :
    ReadIn sha256 (fileHeader sha256 name reads.flatten) [] (nonempty reads) := by
  have hdata : (nonempty reads).flatten = reads.flatten := flatten_filter_not_isEmpty
  refine ⟨fun piece h => ?_, by rw [hdata]; rfl, by rw [hdata]; rfl⟩
  obtain ⟨hmem, hne⟩ := mem_filter.1 h
  refine ⟨?_, hpieces piece hmem⟩
  rintro rfl
  cases hne

end

/-! ## The relay -/

section

variable {sha256 : Bytes → Digest} {header : Header}

/-- The operations of the relay when none fails. -/
def calmLink (o : LinkOp) (_ : Unit) (l : Link) : o.Res × Link := Link.exec o false l

theorem sameProtoHash_protoHash (value : Digest) :
    sameProtoHash (some (protoHash value)) value = true := by
  simp [sameProtoHash, protoHash]

variable {Q : Except RelayError Unit → Unit → Link → Prop} {context : RequestContext}
  {guest : List TransferFrame → Option TransferReceipt} {frame : TransferFrame}
  {sent : List TransferFrame}

theorem does_relaySend {l} (hQ : Q (.ok ()) () { l with sent := l.sent ++ [frame] }) :
    Does calmLink (relaySend frame) Q () l :=
  does_invoke_bind fun _ => does_check hQ

theorem does_relayReceive {rest} {Q : Except RelayError TransferFrame → Unit → Link → Prop}
    (hQ : Q (.ok frame) () ⟨context, rest, sent, guest⟩) :
    Does calmLink relayReceive Q () ⟨context, frame :: rest, sent, guest⟩ :=
  does_invoke_bind fun _ => does_check hQ

theorem does_relayReceiveEnd (hQ : Q (.ok ()) () ⟨context, [], sent, guest⟩) :
    Does calmLink relayReceiveEnd Q () ⟨context, [], sent, guest⟩ :=
  does_invoke_bind fun _ => does_check hQ

/-- The loop of the relay forwards the frames of a file that is read in these pieces, just if it
may receive one frame more than there are pieces. -/
theorem does_relayFrames (n : Nat) (reads : List Bytes) (acc : Bytes) (sequence : Nat)
    (sent : List TransferFrame) (hreads : ReadIn sha256 header acc reads)
    (hok : reads.length < n →
      Q (.ok ()) () ⟨context, [], sent ++ fileFrames header sequence reads, guest⟩)
    (herr : n ≤ reads.length → ∀ l, Q (.error .workspaceTransfer) () l) :
    Does calmLink
      (relayFrames sha256 header n ⟨header, acc.length, acc⟩ sequence acc.length) Q ()
      ⟨context, fileFrames header sequence reads, sent, guest⟩ := by
  induction n generalizing reads acc sequence sent with
  | zero => exact does_throw (herr (Nat.zero_le _) _)
  | succ n ih =>
    cases reads with
    | nil =>
      refine does_bind (does_relayReceive ?_)
      refine does_passed_bind (a := ()) (failIf_eq_ok.2 (by simp [sameProtoHash_protoHash])) ?_
      refine does_passed_bind (by rw [hreads.finish]; rfl) ?_
      exact does_bind (does_relayReceiveEnd (does_relaySend (hok (Nat.succ_pos n))))
    | cons piece reads =>
      obtain ⟨⟨byte, data, rfl⟩, -, hadm, hrest⟩ := hreads.cons
      refine does_bind (does_relayReceive ?_)
      refine does_passed_bind (a := ()) (failIf_eq_ok.2 (by simp)) ?_
      refine does_passed_bind (by rw [hadm]; rfl) (does_bind (does_relaySend ?_))
      rw [Receiver.wrote_piece, ← List.length_append]
      refine ih reads _ _ _ hrest (fun hn => ?_) fun hn => herr (Nat.succ_le_succ hn)
      rw [append_assoc]
      exact hok (Nat.succ_lt_succ hn)

theorem relayHeader_descriptor (hval : header.validate maximumRelayBytes = .ok ()) :
    relayHeader (some header.descriptor) = .ok header := by
  simp only [relayHeader, header_descriptor, bind_eq_ok]
  exact ⟨header, rfl, (), by rw [hval]; rfl, rfl⟩

/-- The receipt of a file is the one the relay expects. -/
theorem validReceipt_of_header (hval : header.validate maximumRelayBytes = .ok ()) (id : String) :
    validReceipt (some ⟨id, some header.descriptor, some (protoHash header.sha256)⟩) id header =
      true := by
  simp [validReceipt, sameProtoHash_protoHash, relayHeader_descriptor hval]

/-- The relay accepts a file that is read in at most 8192 pieces, if the guest does, and no
other. -/
theorem does_relayImport {begin reads receipt} (hdesc : begin.descriptor = some header.descriptor)
    (hval : header.validate maximumRelayBytes = .ok ()) (hid : begin.transferId ≠ "")
    (hreads : ReadIn sha256 header [] reads)
    (hguest : reads.length ≤ 8192 → guest (.beginning { begin with context := some context } ::
      fileFrames header 0 reads) = some receipt)
    (hrcpt : validReceipt (some receipt) begin.transferId header = true) :
    Does calmLink (relayImport sha256 begin) (fun r _ l => if reads.length ≤ 8192
        then r = .ok receipt ∧ l.sent =
          .beginning { begin with context := some context } :: fileFrames header 0 reads
        else r = .error .workspaceTransfer) ()
      ⟨context, fileFrames header 0 reads, [], guest⟩ := by
  have hnew : newReceiver header header.size = .ok ⟨header, 0, []⟩ :=
    newReceiver_eq_ok.2
      ⟨Header.validate_of_size_le hval rfl rfl (Nat.le_refl _), rfl⟩
  refine does_passed_bind (by rw [hdesc]; exact relayHeader_descriptor hval) ?_
  refine does_passed_bind (a := ()) (failIf_eq_ok.2 hid) ?_
  refine does_invoke_bind fun _ => does_passed_bind rfl ?_
  refine does_invoke_bind fun _ => does_passed_bind rfl ?_
  refine does_bind (does_relaySend ?_)
  rw [then_ok]
  refine does_passed_bind (by rw [hnew]; rfl) ?_
  refine does_bind (does_relayFrames _ reads [] 0 _ hreads (fun hn => ?_) fun hn l => ?_)
  · have hcnt : reads.length ≤ 8192 := Nat.le_of_lt_succ hn
    rw [then_ok]
    refine does_invoke_bind fun _ => does_check ?_
    rw [if_pos hcnt]
    refine ⟨?_, rfl⟩
    change acceptReceipt begin.transferId header (.ok (guest
      (.beginning { begin with context := some context } :: fileFrames header 0 reads))) = _
    rw [hguest hcnt, acceptReceipt, if_pos hrcpt]
  · change if _ then _ else _
    rw [if_neg (Nat.not_le.2 hn)]

end

/-! ## The guest -/

section

variable {sha256 : Bytes → Digest} {header : Header} {server : Server} {fs : FS} {s : Flags}
  {w : World}

/-- The operations of the guest when none fails. -/
def calm (o : Op) (_ : Unit) (w : World) : o.Res × World := exec o {} w

/-- The Inbox is open and in place. -/
structure InboxReady (server : Server) (fs : FS) : Prop where
  closed : fs.Closed
  unclosed : server.inbox.closed = false
  path : fs.paths server.inbox.path = some server.inbox.inode
  kind : (fs.inode server.inbox.inode).kind = .directory
  device : fs.dev = server.inbox.device

theorem InboxReady.ne_next (h : InboxReady server fs) : server.inbox.inode ≠ fs.next :=
  Nat.ne_of_lt (h.closed.paths _ _ h.path)

variable {e : ImportError} {reads : List Bytes}

theorem calm_sys {c a} {fs' : FS} {Q : Except ImportError c.Val → Flags → World → Prop}
    (hc : w.fs.perform 0 c = (.ok a, fs')) (hQ : Q (.ok a) s { w with fs := fs' }) :
    Does calm (sys c e) Q s w := by
  refine does_invoke_bind fun _ => does_check ?_
  have hexec : exec (.sys c) {} w = (.ok a, { w with fs := fs' }) := by
    simp only [exec, FS.exec, hc]
  change Q (.mapError _ (exec (.sys c) {} w).1) s (exec (.sys c) {} w).2
  rwa [hexec]

variable {Q : Except ImportError Unit → Flags → World → Prop}

theorem calm_verifyPath {d : PinnedDirectory} (hpath : w.fs.paths d.path = some d.inode)
    (hkind : (w.fs.inode d.inode).kind = .directory) (hdev : w.fs.dev = d.device)
    (hQ : Q (.ok ()) s w) : Does calm d.verifyPath Q s w := by
  have hopen : w.fs.perform 0 (.openPath d.path) = (.ok d.inode, w.fs) := by
    simp [FS.perform, hpath, FS.asDirectory, hkind]
  refine does_bind (calm_sys hopen ?_)
  refine does_invoke_bind fun _ => does_bind (does_invoke_bind fun _ => does_pure ?_)
  refine does_passed_bind rfl (does_check ?_)
  have hsame : failIf ((w.fs.stat d.inode).dev ≠ d.device ∨ (w.fs.stat d.inode).ino ≠ d.inode)
      inboxChanged = .ok () := by
    simp [FS.stat, hdev]
  rwa [hsame]

variable {d : Nat} {stage : String} {receipt : Option TransferReceipt}
  {incoming : List TransferFrame}

theorem calm_writeFile (hd : d ≠ fs.next) {byte : UInt8} {data acc : Bytes} {n : Nat}
    (hQ : Q (.ok ()) s ⟨staged fs d stage (acc ++ byte :: data), incoming, receipt⟩) :
    Does calm (writeFile fs.next e (n + 1) (byte :: data)) Q s
      ⟨staged fs d stage acc, incoming, receipt⟩ := by
  have hwr : (staged fs d stage acc).perform 0 (.write fs.next (byte :: data)) =
      (.ok (byte :: data).length, staged fs d stage (acc ++ byte :: data)) := by
    simp [FS.perform, append_staged hd]
  refine does_bind (calm_sys hwr ?_)
  rw [then_ok, drop_length]
  cases n with
  | zero | succ => exact does_pure hQ

/-- The loop of the guest takes the frames of a file that is read in these pieces, if it may
receive one frame more than there are pieces. -/
theorem calm_receiveFrames (hd : d ≠ fs.next) (n : Nat) (reads : List Bytes) (hn : reads.length < n)
    (acc : Bytes) (sequence : Nat) (hreads : ReadIn sha256 header acc reads)
    (hQ : Q (.ok ()) s ⟨staged fs d stage (acc ++ reads.flatten), [], receipt⟩) :
    Does calm (receiveFrames sha256 header fs.next n ⟨header, acc.length, acc⟩ sequence acc.length)
      Q s ⟨staged fs d stage acc, fileFrames header sequence reads, receipt⟩ := by
  induction n generalizing reads acc sequence with
  | zero => omega
  | succ n ih =>
    refine does_bind (does_invoke_bind fun _ => does_check ?_)
    cases reads with
    | nil =>
      rw [flatten_nil, append_nil] at hQ
      refine does_bind (does_invoke_bind fun _ => does_pure ?_)
      refine does_passed_bind (a := ()) (failIf_eq_ok.2 (by simp [validHash_protoHash])) ?_
      refine does_bind (does_invoke_bind fun _ => does_pure ?_)
      rw [hreads.finish]
      exact does_check hQ
    | cons piece reads =>
      obtain ⟨⟨byte, data, rfl⟩, hlen, hadm, hrest⟩ := hreads.cons
      rw [flatten_cons, ← append_assoc] at hQ
      refine does_bind (does_invoke_bind fun _ => does_pure ?_)
      refine does_passed_bind (a := ()) (failIf_eq_ok.2 (not_not.2 rfl)) ?_
      refine does_passed_bind (a := ()) (failIf_eq_ok.2 ?_) (does_bind ?_)
      · exact not_or.2 ⟨Nat.succ_ne_zero _, Nat.not_lt.2 hlen⟩
      refine does_passed_bind (by rw [hadm]; rfl) (does_bind (calm_writeFile hd ?_))
      refine does_pure ?_
      rw [Receiver.wrote_piece, ← List.length_append]
      exact ih reads (Nat.lt_of_succ_lt_succ hn) _ _ hrest hQ

/-- After the frames the staging file is published and the receipt is sent. -/
theorem calm_receiveFile (hready : InboxReady server fs) {begin : TransferBegin}
    (hval : header.validate server.maxFile = .ok ()) (hcnt : reads.length ≤ 8192)
    (hreads : ReadIn sha256 header [] reads)
    (hfree : fs.lookup server.inbox.inode header.name = none)
    (hname : header.name ≠ partialName begin) (hQ : Q (.ok ()) ⟨true, true⟩
      ⟨published fs server.inbox.inode (partialName begin) header.name reads.flatten, [],
        some ⟨begin.transferId, begin.descriptor, some (protoHash header.sha256)⟩⟩) :
    Does calm (receiveFile sha256 server begin header server.inbox.inode fs.next) Q {}
      ⟨staged fs server.inbox.inode (partialName begin) [], fileFrames header 0 reads, none⟩ := by
  have hd := hready.ne_next
  have hold := hready.closed.paths _ _ hready.path
  have hnew : newReceiver header server.maxFile = .ok ⟨header, 0, []⟩ :=
    newReceiver_eq_ok.2 ⟨hval, rfl⟩
  have hkind : ∀ {fs' : FS}, (fs'.inode server.inbox.inode).attributes =
      (fs.inode server.inbox.inode).attributes →
      (fs'.inode server.inbox.inode).kind = .directory :=
    fun h => (congrArg Inode.kind h).trans hready.kind
  have hren : renameNoReplace server.inbox.inode (partialName begin) header.name {}
      (staged fs server.inbox.inode (partialName begin) reads.flatten) =
      (.ok (), published fs server.inbox.inode (partialName begin) header.name reads.flatten) := by
    simp [renameNoReplace, FS.perform, lookup_staged hd, hname, hfree, published]
  refine does_passed_bind (by rw [hnew]; rfl) ?_
  refine does_bind (calm_receiveFrames hd _ reads ?_ [] 0 hreads ?_)
  · have hfram : maxWorkspaceFrames = 8194 := by decide
    omega
  rw [nil_append]
  refine does_bind (calm_sys rfl ?_)
  refine does_bind (calm_sys rfl ?_)
  refine does_bind
    (calm_verifyPath hready.path (hkind (attributes_staged_old hold)) hready.device ?_)
  refine does_invoke_bind fun _ => ?_
  change Does calm (check (.mapError _ (renameNoReplace _ _ _ {} _).1) >>= _) Q {}
    ⟨(renameNoReplace _ _ _ {} _).2, [], none⟩
  rw [hren]
  refine does_passed_bind rfl (does_modify_bind ?_)
  refine does_bind (calm_sys rfl ?_)
  refine does_bind (calm_verifyPath hready.path (hkind (attributes_published_old hold))
    hready.device ?_)
  exact does_invoke_bind fun _ => does_passed_bind rfl (does_modify hQ)

/-- The guest accepts a file that is read in at most 8192 pieces. -/
theorem calm_importFile (hready : InboxReady server fs) (begin : TransferBegin)
    (hdesc : begin.descriptor = some header.descriptor)
    (hval : header.validate server.maxFile = .ok ()) (hid : validOpaqueID begin.transferId = true)
    (hcnt : reads.length ≤ 8192) (hreads : ReadIn sha256 header [] reads)
    (hstg : fs.lookup server.inbox.inode (partialName begin) = none)
    (hfree : fs.lookup server.inbox.inode header.name = none)
    (hname : header.name ≠ partialName begin) :
    Does calm (importFile sha256 server) (fun r _ w => r = .ok () ∧
        w.receipt = some ⟨begin.transferId, begin.descriptor, some (protoHash header.sha256)⟩ ∧
        w.fs = published fs server.inbox.inode (partialName begin) header.name reads.flatten) {}
      ⟨fs, .beginning begin :: fileFrames header 0 reads, none⟩ := by
  have hhdr : descriptorHeader begin.descriptor server.maxFile = .ok header := by
    simp only [descriptorHeader, hdesc, header_descriptor, bind_eq_ok]
    exact ⟨header, rfl, (), by rw [hval]; rfl, rfl⟩
  have hcre : fs.perform 0 (.create server.inbox.inode (partialName begin) 0o600) =
      (.ok fs.next, staged fs server.inbox.inode (partialName begin) []) := by
    simp only [FS.perform, hstg]
    rfl
  refine does_invoke_bind fun _ => ?_
  refine does_passed_bind (a := ()) (failIf_eq_ok.2 (by simp [hid])) ?_
  refine does_passed_bind hhdr ?_
  refine does_bind (does_passed_bind (a := ()) (failIf_eq_ok.2 (by simp [hready.unclosed])) ?_)
  refine calm_sys rfl ?_
  rw [then_ok]
  refine does_settle_bind (calm_verifyPath hready.path hready.kind hready.device ?_)
  refine does_bind (calm_sys hcre ?_)
  rw [then_ok]
  refine does_settle_bind (calm_receiveFile hready hval hcnt hreads hfree hname ?_)
  -- the deferred functions close the descriptors and keep the file
  refine does_bind (does_bind (does_invoke_bind fun _ => does_pure ?_))
  refine does_get_bind (does_pure ?_)
  rw [then_ok]
  refine does_bind (does_invoke_bind fun _ => does_pure ?_)
  rw [then_ok]
  exact does_check ⟨rfl, rfl, rfl⟩

end

/-! ## The result -/

/-- The receipt of the guest for these frames, when nothing fails. -/
def guestAnswer (sha256 : Bytes → Digest) (server : Server) (fs : FS)
    (frames : List TransferFrame) : Option TransferReceipt :=
  let run := (importFile sha256 server).outcome exec (fun _ => {}) {} ⟨fs, frames, none⟩
  match run.1.1 with
  | .ok () => run.2.receipt
  | .error _ => none

/-- The begin frame as the relay forwards it. -/
def forwarded (context : RequestContext) (begin : TransferBegin) : TransferFrame :=
  .beginning { begin with context := some context }

/-- The relay forwards all frames of a file and gets the guest's receipt, and the guest publishes
the file. -/
def Accepted (sha256 : Bytes → Digest) (server : Server) (fs : FS) (context : RequestContext)
    (name : String) (data : Bytes) (begin : TransferBegin) (rest : List TransferFrame) : Prop :=
  let relay := (relayImport sha256 begin).outcome Link.exec (fun _ => false) ()
    ⟨context, rest, [], guestAnswer sha256 server fs⟩
  let guest := (importFile sha256 server).outcome exec (fun _ => {}) {}
    ⟨fs, forwarded context begin :: rest, none⟩
  (∃ receipt, relay.1.1 = .ok receipt) ∧ relay.2.sent = forwarded context begin :: rest ∧
    guest.1.1 = .ok () ∧
    ∃ i, guest.2.fs.lookup server.inbox.inode name = some i ∧ (guest.2.fs.inode i).data = data

/-- The guest has its default limits and its Inbox is in place; the name of the file is permitted,
and it and that of the staging file are free. -/
structure Receptive (server : Server) (fs : FS) (transferId name : String) : Prop where
  limits : workspaceLimits 0 0 = .ok (server.maxFile, server.maxTotal)
  ready : InboxReady server fs
  permitted : PermittedName name
  id : validOpaqueID transferId = true
  stage : fs.lookup server.inbox.inode ("." ++ transferId ++ ".partial") = none
  free : fs.lookup server.inbox.inode name = none
  other : name ≠ "." ++ transferId ++ ".partial"

def fileBegin (sha256 : Bytes → Digest) (hostContext : Option RequestContext)
    (transferId name : String) (data : Bytes) : TransferBegin :=
  ⟨hostContext, transferId, some (fileHeader sha256 name data).descriptor⟩

theorem accepted_iff (sha256 : Bytes → Digest) {server fs transferId name}
    (h : Receptive server fs transferId name)
    (hostContext : Option RequestContext) (context : RequestContext) {reads : List Bytes}
    (hsize : reads.flatten.length ≤ maximumWorkspaceFileBytes)
    (hpieces : ∀ piece ∈ reads, piece.length ≤ defaultMaxChunk) :
    Accepted sha256 server fs context name reads.flatten
        (fileBegin sha256 hostContext transferId name reads.flatten)
        (fileFrames (fileHeader sha256 name reads.flatten) 0 reads) ↔
      (nonempty reads).length ≤ 8192 := by
  rw [fileFrames, ← chunksFrom_nonempty, ← fileFrames]
  have hreads : ReadIn sha256 (fileHeader sha256 name reads.flatten) [] (nonempty reads) :=
    readIn_nonempty hpieces
  have hdata : (nonempty reads).flatten = reads.flatten := flatten_filter_not_isEmpty
  let begin := fileBegin sha256 hostContext transferId name reads.flatten
  have hval : ∀ limit, maximumWorkspaceFileBytes ≤ limit →
      (fileHeader sha256 name reads.flatten).validate limit = .ok () := fun limit hlimit =>
    Header.validate_of_size_le h.permitted rfl rfl (Nat.le_trans hsize hlimit)
  have hmax : maximumWorkspaceFileBytes ≤ server.maxFile := by
    have hlimits := h.limits
    rw [show workspaceLimits 0 0 = .ok (defaultMaxFileBytes, _) from rfl, Except.ok.injEq,
      Prod.mk.injEq] at hlimits
    exact Nat.le_of_eq hlimits.1
  have hne : transferId ≠ "" := by
    rintro rfl
    exact absurd h.id (by decide)
  -- the guest publishes the file, and the relay gets its receipt just then
  have hguest := fun hcnt => (calm_importFile h.ready { begin with context := some context } rfl
    (hval _ hmax) h.id hcnt hreads h.stage h.free h.other).steady
  have hans : (nonempty reads).length ≤ 8192 →
      guestAnswer sha256 server fs (forwarded context begin ::
      fileFrames (fileHeader sha256 name reads.flatten) 0 (nonempty reads)) =
      some ⟨begin.transferId, begin.descriptor, some (protoHash (sha256 reads.flatten))⟩ := by
    intro hcnt
    obtain ⟨hok, hrcpt, -⟩ := hguest hcnt
    unfold guestAnswer forwarded
    simp only [hok, hrcpt]
    rfl
  have hrelay := (does_relayImport rfl (hval _ (Nat.le_refl _)) hne hreads hans
    (validReceipt_of_header (hval _ (Nat.le_refl _)) transferId)).steady
  constructor
  · rintro ⟨⟨receipt, hrcpt⟩, -⟩
    by_contra hcnt
    rw [if_neg hcnt] at hrelay
    cases hrcpt.symm.trans hrelay
  · intro hcnt
    obtain ⟨hok, -, hfs⟩ := hguest hcnt
    rw [if_pos hcnt] at hrelay
    refine ⟨⟨_, hrelay.1⟩, hrelay.2, hok, fs.next, ?_⟩
    have hd := h.ready.ne_next
    unfold forwarded
    rw [hfs]
    exact ⟨(lookup_published hd h.stage name).trans (if_pos rfl),
      (content_published hd).2.trans hdata⟩

/-- **Which permitted files can be transferred**: the host command makes frames of a file of at
most 8 GiB however it is read, and they are accepted just if there are at most 8192 reads that
return something, as when each read but the last fills the buffer. -/
theorem file_transferred_iff (sha256 : Bytes → Digest) (server : Server) (fs : FS)
    (hostContext : Option RequestContext) (context : RequestContext) (transferId name : String)
    (h : Receptive server fs transferId name) (hashed reads : List Bytes)
    (hsame : hashed.flatten = reads.flatten)
    (hsize : reads.flatten.length ≤ maximumWorkspaceFileBytes)
    (hpieces : ∀ piece ∈ reads, piece.length ≤ defaultMaxChunk) :
    ∃ begin rest,
      importFrames sha256 hostContext transferId name maximumWorkspaceFileBytes (stable hashed)
        (stable reads) = .ok (.beginning begin :: rest) ∧
      (Accepted sha256 server fs context name reads.flatten begin rest ↔
        (nonempty reads).length ≤ 8192) ∧
      ((∀ piece ∈ reads.dropLast, piece.length = defaultMaxChunk) →
        Accepted sha256 server fs context name reads.flatten begin rest) := by
  have hiff := accepted_iff sha256 h hostContext context hsize hpieces
  exact ⟨_, _, importFrames_stable h.permitted hsize hsame _ _, hiff,
    fun hfull => hiff.2 (length_nonempty_of_full hfull hsize)⟩

theorem receptive_sample : Receptive sampleServer sampleFs "transfer-1" "a.txt" :=
  ⟨rfl, ⟨sampleFs_closed, rfl, rfl, rfl, rfl⟩, rfl, by decide +kernel, rfl, rfl, by decide⟩

theorem two_reads_transferred : ∃ begin rest,
    importFrames sampleSha256 none "transfer-1" "a.txt" maximumWorkspaceFileBytes
      (stable [[104, 105]]) (stable [[104], [105]]) = .ok (.beginning begin :: rest) ∧
    Accepted sampleSha256 sampleServer sampleFs ⟨"request-1", "session-1"⟩ "a.txt" [104, 105]
      begin rest := by
  obtain ⟨begin, rest, hframes, hiff, -⟩ := file_transferred_iff sampleSha256 sampleServer sampleFs
    none ⟨"request-1", "session-1"⟩ "transfer-1" "a.txt" receptive_sample [[104, 105]]
    [[104], [105]] rfl (by decide) (by decide)
  exact ⟨begin, rest, hframes, hiff.2 (by decide)⟩

/-- A read of one byte, `n` reads that fill the buffer, and the rest: `n + 1` buffers. -/
def shortRead (n rest : Nat) : List Bytes :=
  [0] :: (replicate n (replicate (rest + 1) 0) ++ [replicate rest 0])

theorem length_shortRead (n rest : Nat) :
    (shortRead n rest).flatten.length = (n + 1) * (rest + 1) := by
  simp only [shortRead, length_flatten, map_cons, map_append, map_replicate, length_replicate,
    map_nil, length_cons, length_nil, sum_cons, sum_append, sum_replicate_nat, sum_nil]
  rw [Nat.succ_mul]
  omega

theorem mem_shortRead {n rest piece} (h : piece ∈ shortRead n (rest + 1)) :
    piece ≠ [] ∧ piece.length ≤ rest + 2 := by
  simp only [shortRead, mem_cons, mem_append, mem_replicate, not_mem_nil, or_false] at h
  rcases h with rfl | ⟨-, rfl⟩ | rfl <;> simp [replicate_succ]

/-- **One short read is one too many**: a file of 8 GiB of which only the first read is short. -/
theorem short_read_refused : ∃ reads begin rest,
    reads.flatten.length = maximumWorkspaceFileBytes ∧
    (∀ piece ∈ reads, piece ≠ [] ∧ piece.length ≤ defaultMaxChunk) ∧
    importFrames sampleSha256 none "transfer-1" "a.txt" maximumWorkspaceFileBytes
      (stable reads) (stable reads) = .ok (.beginning begin :: rest) ∧
    ¬ Accepted sampleSha256 sampleServer sampleFs ⟨"request-1", "session-1"⟩ "a.txt" reads.flatten
      begin rest := by
  have hpieces : ∀ piece ∈ shortRead 8191 (1024 * 1024 - 2 + 1), piece ≠ [] ∧
      piece.length ≤ defaultMaxChunk := fun piece => mem_shortRead
  have hsize := length_shortRead 8191 (1024 * 1024 - 2 + 1)
  generalize hreads : shortRead 8191 (1024 * 1024 - 2 + 1) = reads at hpieces hsize
  have hall : nonempty reads = reads :=
    filter_eq_self.2 fun piece hp => by simp [(hpieces piece hp).1]
  have hcnt : reads.length = 8193 := by
    rw [← hreads, shortRead, length_cons, length_append, length_replicate, length_singleton]
  refine ⟨reads, _, _, hsize, hpieces,
    importFrames_stable receptive_sample.permitted (Nat.le_of_eq hsize) rfl _ _, ?_⟩
  rw [← fileBegin, accepted_iff _ receptive_sample _ _ (Nat.le_of_eq hsize)
    fun piece hp => (hpieces piece hp).2, hall, hcnt]
  decide

end PrivateVm.Workstation
