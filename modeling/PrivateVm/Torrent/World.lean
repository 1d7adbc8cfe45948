import PrivateVm.Torrent.Controller
import PrivateVm.Basic.Machine

set_option autoImplicit false

/-! # Runs of the torrent controller and its coordinator

An `Input` is one stretch of one goroutine under the controller's lock, or what a goroutine does
between two such stretches, so that the runs of this machine are all interleavings.
`SealAndDestroy` holds the coordinator's lock throughout, so at most one call of it is on its way.
-/

namespace PrivateVm.Torrent

open Program Method

/-! ## The parts of a world -/

/-- A call of `Monitor`: about to take the lock for the next round; without the lock, with a
status to emit; about to take the lock to pause the client and return an error; or returned. -/
inductive Loop where
  | polling (lastProgress : UInt64) (lastChange : Int)
  | emitting (polled : Polled)
  | failing (error : Error)
  | returned (result : Except Error Unit)

/-- What a loop does without the lock: it emits, looks at the clock and waits. -/
def Polled.proceed (polled : Polled) (config : Config) (emit wait : Option Fault) (now : Int) :
    Loop :=
  match polled.final, emit with
  | true, none => .returned (.ok ())
  | true, some fault => .returned (.error (.cause fault))
  | false, some fault => .failing (.cause fault)
  | false, none =>
    if config.stallTimeout ≤ now - polled.lastChange then .failing downloadStalled
    else
      match wait with
      | some fault => .failing (.cause fault)
      | none => .polling polled.lastProgress polled.lastChange

structure SealedReceipt where
  manifest : Manifest
  ready : Bool
  deriving DecidableEq

/-- Where a call of `SealAndDestroy` stands: none is on its way, it is about to seal, or about
to destroy the downloader. -/
inductive Phase where
  | idle
  | sealing
  | destroying (manifest : Manifest)
  deriving DecidableEq

structure World where
  controller : Controller
  log : List Entry
  loops : List Loop
  phase : Phase
  receipt : Option SealedReceipt
  /-- The receipts returned as ready for the scanner, the last one first. -/
  returned : List SealedReceipt

def World.initial (c : Controller) : World := ⟨c, [], [], .idle, none, []⟩

/-! ## Steps -/

inductive Input where
  | add (polls : Nat)
  | currentMetadata
  | select (indexes : List UInt32) (evidence : CapacityEvidence)
  | start
  | pause
  | currentStatus
  | onVPNLoss
  | sealQuarantine
  | close
  | monitor (now : Int)
  | poll (loop : Nat) (now : Int)
  | emitted (loop : Nat) (emit wait : Option Fault) (now : Int)
  | fail (loop : Nat)
  | sealAndDestroy
  | sealForReceipt
  | destroyForReceipt
  | destroyReceipt

/-- An input, with the answers to the calls made on it. -/
structure Move where
  input : Input
  answers : Nat → Answer

def World.perform {α : Type} (w : World) (answers : Nat → Answer) (m : Action α) :
    Except Error α × World :=
  let o := Method.outcome exec answers m w.controller w.log
  (o.1.1, { w with controller := o.1.2, log := o.2 })

/-- `SealAndDestroy` up to the first call that can fail: an earlier receipt is returned again,
and a quarantine that is sealed is not sealed again. -/
def World.beginReceipt (w : World) (answers : Nat → Answer) : World :=
  match w.phase with
  | .idle =>
    match w.receipt with
    | some ⟨manifest, true⟩ => { w with returned := ⟨manifest, true⟩ :: w.returned }
    | _ =>
      match w.perform answers Controller.sealedManifest with
      | (.ok manifest, w) => { w with phase := .destroying manifest }
      | (.error _, w) => { w with phase := .sealing }
  | _ => w

def World.sealForReceipt (U : Unicode) (w : World) (answers : Nat → Answer) : World :=
  match w.phase with
  | .sealing =>
    match w.perform answers (Controller.seal U) with
    | (.ok manifest, w) => { w with phase := .destroying manifest }
    | (.error _, w) => { w with phase := .idle }
  | _ => w

def destroyDownloader : Action (Except Fault Unit) := call .destroyAndAudit

def World.destroyForReceipt (w : World) (answers : Nat → Answer) : World :=
  match w.phase with
  | .destroying manifest =>
    match w.perform answers destroyDownloader with
    | (.ok (.ok ()), w) =>
      { w with
        phase := .idle
        receipt := some ⟨manifest, true⟩
        returned := ⟨manifest, true⟩ :: w.returned }
    | (_, w) => { w with phase := .idle }
  | _ => w

def World.step (U : Unicode) (move : Move) (w : World) : World :=
  match move.input with
  | .add polls => (w.perform move.answers (Controller.add U polls)).2
  | .currentMetadata => (w.perform move.answers Controller.currentMetadata).2
  | .select indexes evidence => (w.perform move.answers (Controller.select indexes evidence)).2
  | .start => (w.perform move.answers Controller.start).2
  | .pause => (w.perform move.answers Controller.pause).2
  | .currentStatus => (w.perform move.answers Controller.currentStatus).2
  | .onVPNLoss => (w.perform move.answers Controller.onVPNLoss).2
  | .sealQuarantine => (w.perform move.answers (Controller.seal U)).2
  | .close => (w.perform move.answers Controller.close).2
  | .monitor now =>
    match w.perform move.answers Controller.monitorEntry with
    | (.ok (), w) => { w with loops := w.loops ++ [.polling 0 now] }
    | (.error e, w) => { w with loops := w.loops ++ [.returned (.error e)] }
  | .poll i now =>
    match w.loops[i]? with
    | some (.polling lastProgress lastChange) =>
      match w.perform move.answers (Controller.poll lastProgress lastChange now) with
      | (.ok polled, w) => { w with loops := w.loops.set i (.emitting polled) }
      | (.error e, w) => { w with loops := w.loops.set i (.returned (.error e)) }
    | _ => w
  | .emitted i emit wait now =>
    match w.loops[i]? with
    | some (.emitting polled) =>
      { w with loops := w.loops.set i (polled.proceed w.controller.config emit wait now) }
    | _ => w
  | .fail i =>
    match w.loops[i]? with
    | some (.failing e) =>
      let w := (w.perform move.answers Controller.pauseAfterFailure).2
      { w with loops := w.loops.set i (.returned (.error e)) }
    | _ => w
  | .sealAndDestroy => w.beginReceipt move.answers
  | .sealForReceipt => w.sealForReceipt U move.answers
  | .destroyForReceipt => w.destroyForReceipt move.answers
  -- the holder of the receipt that was last returned destroys it
  | .destroyReceipt => { w with receipt := w.receipt.map fun _ => ⟨.none, false⟩ }

/-- All runs of a controller that `newController` makes. -/
def machine (U : Unicode) : Machine World Move where
  init w := ∃ config c, newController config = .ok c ∧ w = .initial c
  step := World.step U

theorem machine_step (U : Unicode) (move : Move) (w : World) :
    (machine U).step move w = w.step U move := rfl

/-! ## A sample run

The inputs of runs that later modules refer to: a torrent of one file is added, selected and
started, and every call succeeds except those said to fail. -/

def sampleHandle : Handle := ⟨List.replicate 40 'a'⟩

def sampleAnswer : Answer where
  fault := none
  handle := sampleHandle
  raw := sampleRaw "a.txt"
  status := ⟨.complete, 3, 3⟩
  files := [⟨"a.txt".toList, 3, Vector.replicate 32 1, 0⟩]
  bytes := 1099511627776
  enabled := ∅
  tookEffect := false

def sampleEvidence : CapacityEvidence :=
  ⟨.workstation, 1099511627776, 1099511627776, 1099511627776, 1, 1, 1, 1, 1099511627776⟩

def Input.answered (i : Input) : Move := ⟨i, fun _ => sampleAnswer⟩

def Input.failing (i : Input) (calls : List Nat) : Move :=
  ⟨i, fun n => if n ∈ calls then { sampleAnswer with fault := some .other } else sampleAnswer⟩

/-- An input on which the client reports that it is still running. -/
def Input.running (i : Input) : Move :=
  ⟨i, fun _ => { sampleAnswer with status := ⟨.running, 1, 3⟩ }⟩

def sampleController : Controller :=
  ⟨⟨true, defaultMetadataTimeout, defaultPollInterval, defaultStallTimeout⟩, .empty, ⟨[]⟩, .zero,
    .zero, ⟨0, 0⟩, .none, false, false⟩

theorem init_sample (U : Unicode) : (machine U).init (.initial sampleController) :=
  ⟨⟨true, 0, 0, 0⟩, sampleController, rfl, rfl⟩

def toSelected : List Move :=
  [(Input.add 1).answered, (Input.select [0] sampleEvidence).answered]

def toDownloading : List Move := toSelected ++ [Input.start.answered]

def toComplete : List Move :=
  toDownloading ++ [(Input.monitor 0).answered, (Input.poll 0 0).answered]

end PrivateVm.Torrent
