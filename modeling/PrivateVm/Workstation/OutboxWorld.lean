import PrivateVm.Workstation.ExportRelay

set_option autoImplicit false

/-! # The worlds of the guest and of the host

The guest's programs run on a `Shelf`, the files of the Export directory, which may be edited at
any time, and on the tables of the server. The host's programs run on the tables of the
connection, the registry of sources, and the guest, whose programs answer its calls.
-/

namespace PrivateVm.Workstation

open Checked Program Transfer Usb

/-! ## The guest -/

inductive NodeKind where
  | regular
  | directory
  | symlink
  | other
  deriving DecidableEq

structure Node where
  kind : NodeKind
  data : Bytes
  deriving DecidableEq

/-- The Export directory: its names, each with the file it stands for, and the files. -/
structure Shelf where
  names : List (String × Nat)
  node : Nat → Node

def Shelf.entries (s : Shelf) : List DirEntry :=
  s.names.map fun (name, i) =>
    ⟨name, (s.node i).kind = .directory, (s.node i).kind = .symlink⟩

/-- An open call with `O_NOFOLLOW`. -/
def Shelf.openAt (s : Shelf) (name : String) : Except Unit Nat :=
  match s.names.lookup name with
  | none => .error ()
  | some i => if (s.node i).kind = .symlink then .error () else .ok i

structure OutboxWorld where
  shelf : Shelf
  receipts : Receipts
  stream : List TransferFrame := []

/-- What the environment decides at one call: whether it fails, whether the context has ended, and
how many bytes a read takes beyond the first. -/
structure OutboxChoice where
  fails : Bool := false
  context : Option ContextError := none
  more : Nat := defaultMaxChunk
  deriving DecidableEq

/-- A call that may be made to fail. -/
def OutboxChoice.guard {α : Type} (x : OutboxChoice) (r : Except Unit α) : Except Unit α :=
  if x.fails then .error () else r

def OutboxWorld.exec : (o : OutboxOp) → OutboxChoice → OutboxWorld → o.Res × OutboxWorld
  | .step (.send frame), x, w =>
    if x.fails then (.error (), w) else (.ok (), { w with stream := w.stream ++ [frame] })
  | .step .lease, x, w | .step .verifyPath, x, w | .step (.close _), x, w =>
    (x.guard (.ok ()), w)
  | .readDirectoryEntries, x, w => (x.guard (.ok w.shelf.entries), w)
  | .contextErr, x, w => (x.context, w)
  | .openAt name, x, w => (x.guard (w.shelf.openAt name), w)
  | .stat fd, x, w =>
    (x.guard (.ok ⟨(w.shelf.node fd).kind = .regular, (w.shelf.node fd).data.length⟩), w)
  | .read fd offset, x, w =>
    (x.guard (.ok (((w.shelf.node fd).data.drop offset).take
      (min (x.more + 1) defaultMaxChunk))), w)
  | .report files, _, w => (w.receipts.workspaceState files, w)
  | .recordSent selected, _, w => ((), { w with receipts := w.receipts.recordSent selected })
  | .markVerified current, _, w =>
    match w.receipts.markVerified current with
    | some receipts => (true, { w with receipts := receipts })
    | none => (false, w)

/-- A call before which the files may have been edited. -/
def OutboxWorld.execEdited (o : OutboxOp) (x : Option Shelf × OutboxChoice) (w : OutboxWorld) :
    o.Res × OutboxWorld :=
  OutboxWorld.exec o x.2 { w with shelf := x.1.getD w.shelf }

/-! ## The host -/

/-- The connection to a guest: the exports that are complete, the frames of an open stream that
were not received yet, whether the stream ends without an error, the frames that the sink took,
the registry of sources, and the state with which the guest has last accepted a verification, once
its answer has arrived. -/
structure HostWorld where
  exports : String → Option Digest
  registry : Option SourceRegistry
  guest : OutboxWorld
  incoming : List TransferFrame := []
  complete : Bool := false
  delivered : List TransferFrame := []
  accepted : Option WorkspaceState := none

/-- Whether a call of the host fails by itself, what happens to the guest's calls, and how many
frames the guest's stream takes. -/
structure HostChoice where
  fails : Bool := false
  guest : Nat → Option Shelf × OutboxChoice := fun _ => (none, {})
  turns : Nat := maximumWorkspaceFrames

def HostWorld.call {α : Type} (w : HostWorld) (x : HostChoice) (m : Outbox α) :
    Except ImportError α × OutboxWorld :=
  let r := m.outcome OutboxWorld.execEdited x.guest () { w.guest with stream := [] }
  (r.1.1, r.2)

def HostWorld.exec (c : OutboxConfig) : (o : HostOp) → HostChoice → HostWorld → o.Res × HostWorld
  | .guestContext, x, w | .relay _, x, w => (if x.fails then .error () else .ok (), w)
  | .exportFile outputID, x, w =>
    if x.fails then (.error (), w)
    else
      let r := w.call x (exportFile c x.turns outputID)
      (.ok (), { w with guest := r.2, incoming := r.2.stream, complete := r.1.isOk })
  | .recv, x, w =>
    match x.fails, w.incoming with
    | true, _ => (.error (), w)
    | false, [] => (if w.complete then .ok none else .error (), w)
    | false, frame :: rest => (.ok (some frame), { w with incoming := rest })
  | .send frame, x, w =>
    if x.fails then (.error (), w)
    else (.ok (), { w with delivered := w.delivered ++ [frame] })
  | .recordExport outputID digest, _, w =>
    ((), { w with exports := Function.update w.exports outputID (some digest) })
  | .pendingExport outputID, _, w => (w.exports outputID, w)
  | .forgetExport outputID, _, w =>
    ((), { w with exports := Function.update w.exports outputID none })
  | .markExportVerified outputID digest, x, w =>
    let r := w.call x (markExportVerified c outputID digest)
    -- the answer of the guest may be lost on its way
    if x.fails then (.error (.stream .broken), { w with guest := r.2 })
    else (r.1, { w with guest := r.2, accepted := r.1.toOption })
  | .sourcesInstalled, _, w => (w.registry.isSome, w)
  | .replaceSource selection factory, _, w =>
    match (w.registry.getD ∅).replaceSource selection factory with
    | .ok registry => (.ok (), { w with registry := some registry })
    | .error e => (.error e, w)

end PrivateVm.Workstation
