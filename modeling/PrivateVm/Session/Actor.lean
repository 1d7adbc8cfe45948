import PrivateVm.Basic.Program
import PrivateVm.Session.Codec

set_option autoImplicit false
set_option linter.dupNamespace false

/-! # The actor of a session (`internal/session/manager.go`)

One goroutine owns a session and handles its commands one at a time. Its code is written here as
programs of atomic operations: an access to the session under its lock, a call of the store or of a
callback, one channel operation. `Core` is what the actor alone writes; `Clients` holds the
channels and what callers and subscribers do with them (`Session/Manager.lean`). What the outside
decides at an operation is a `Choice`.
-/

namespace PrivateVm.Session

open Timestamp Checked Program

/-! ## Data -/

def maxCommandQueue : Nat := 64
def maxSubscribersPerSession : Nat := 32
def maxSubscriberQueue : Nat := 64

/-- A transition of either kind. -/
inductive Move where
  | lifecycle (target : Phase) (cleanupOwned : Bool)
  | workflow (target : String)
  deriving DecidableEq

def Move.cleanupOwned : Move → Bool
  | .lifecycle _ cleanupOwned => cleanupOwned
  | .workflow _ => false

def Session.move (s : Session) (now : Time) : Move → Except Err (Event × Session)
  | .lifecycle target cleanupOwned => s.transitionLifecycle target cleanupOwned now
  | .workflow target => s.transitionWorkflow target now

/-- A cleanup step. The two functions an allocator hands back are known by a handle. -/
structure CleanupStep where
  name : String
  handle : Nat
  done : Bool
  deriving DecidableEq

/-- What an allocator returns: which of the two functions are there, and an error. -/
structure Allocation where
  cleanup : Bool
  audit : Bool
  err : Option Err
  deriving DecidableEq

structure CommandResult where
  snapshot : Snapshot
  subscription : Option Nat
  err : Option Err
  deriving DecidableEq

inductive Command where
  | transition (target : Phase)
  | workflow (target : String)
  | acquire (resource : String)
  | subscribe (after : Nat)
  | cleanup (attempt : Nat)
  deriving DecidableEq

/-- What the actor's operations leave behind, for statements about their order. -/
inductive Effect where
  | handed (handle : Nat)
  | cleaned (handle : Nat) (ok : Bool)
  | audited (handle : Nat) (ok : Bool)
  | recordRemoved
  | recordAside
  | appended (event : Event) (cleanupOwned : Bool)
  | published (event : Event)
  | completed (attempt : Nat) (result : CommandResult)
  deriving DecidableEq

/-- Where the directory of a session is: under its name, under the name that `Remove` gives it
for the removal, or nowhere. -/
inductive Place where
  | kept
  | aside
  | gone
  deriving DecidableEq

/-- The part of an entry that only the actor writes. `committed` are the events of the last
snapshot that was saved, and at the end the terminal event, which is not saved; `reads` counts
the readings of the clock; `trace` has the newest effect first. -/
structure Core where
  session : Session
  accepting : Bool
  steps : List CleanupStep
  handles : Nat
  place : Place
  registered : Bool
  tombstone : Option Snapshot
  done : Bool
  committed : List Event
  reads : Nat
  trace : List Effect
  deriving DecidableEq

/-! ## Operations -/

inductive Op where
  | snapshot
  | now
  | move (m : Move) (now : Time)
  | restore (snapshot : Snapshot)
  | save (snapshot : Snapshot)
  | remove (id : String)
  | accepting
  | stopAccepting
  | steps
  | allocate
  | operationErr
  | cleanup (handle : Nat)
  | audit (handle : Nat)
  | appendStep (step : CleanupStep)
  | markDone (index : Nat)
  | subscriberIDs
  | cancelled (id : Nat)
  | send (id : Nat) (event : Event)
  | removeSubscriber (id : Nat) (reason : Option Sentinel)
  | subscriberCount
  | addSubscriber (after : Nat) (replay : List Event)
  | finish (snapshot : Snapshot)
  | completeCleanup (attempt : Nat) (result : CommandResult)
  | closeDone
  | respond (result : CommandResult)

def Res : Op → Type
  | .snapshot => Snapshot
  | .now => Time
  | .move _ _ => Except Err Event
  | .save _ | .remove _ => Except Err Unit
  | .accepting | .cleanup _ | .audit _ | .cancelled _ | .send _ _ => Bool
  | .steps => List CleanupStep
  | .allocate => Nat × Allocation
  | .operationErr => Option Err
  | .subscriberIDs => List Nat
  | .subscriberCount | .addSubscriber _ _ => Nat
  | .restore _ | .stopAccepting | .appendStep _ | .markDone _ | .removeSubscriber _ _
  | .finish _ | .completeCleanup _ _ | .closeDone | .respond _ => Unit

/-- What the outside decides at one operation: a reading of the clock, success or the text of
a failure, where a failed removal leaves the record, the return of an allocator, the
error of the operation's context, and what the channels answer. -/
structure Choice where
  time : Time := ⟨0, 0⟩
  ok : Bool := true
  fault : String := ""
  left : Place := .kept
  allocation : Allocation := ⟨true, true, none⟩
  operation : Option Err := none
  order : List Nat := []
  flag : Bool := false
  count : Nat := 0
  deriving DecidableEq

def markDone (steps : List CleanupStep) (index : Nat) : List CleanupStep :=
  steps.modify index fun step => { step with done := true }

/-- The core after a transition in memory. There is no save after the terminal one. -/
def Core.appended (c : Core) (m : Move) (event : Event) (s : Session) : Core :=
  { c with
    session := s
    committed := if s.phase = .destroyed then s.events else c.committed
    trace := .appended event m.cleanupOwned :: c.trace }

/-- The core after a removal without an error. A directory that an earlier removal left aside is
not found under its name, which counts as removed, and stays. -/
def Core.removed (c : Core) : Core :=
  { c with
    place := if c.place = .aside then .aside else .gone
    trace := if c.place = .aside then c.trace else .recordRemoved :: c.trace }

/-- The core after a removal that failed. Only a directory with its own name is touched. -/
def Core.removalFailed (c : Core) (left : Place) : Core :=
  { c with
    place := if c.place = .kept then left else c.place
    trace := if c.place = .kept ∧ left = .aside then .recordAside :: c.trace else c.trace }

def Core.exec (o : Op) (x : Choice) (c : Core) : Res o × Core :=
  match o with
  | .snapshot => (c.session.snapshot, c)
  | .now => (x.time.utc, { c with reads := c.reads + 1 })
  | .move m now =>
    match c.session.move now m with
    | .error e => (.error e, c)
    | .ok (event, s) => (.ok event, c.appended m event s)
  | .restore snapshot => ((), { c with session := c.session.restore snapshot })
  | .save snapshot =>
    match encodeSnapshot snapshot with
    | .error e => (.error e, c)
    | .ok _ =>
      if x.ok then (.ok (), { c with committed := snapshot.events })
      else (.error (newError x.fault), c)
  | .remove _ =>
    if x.ok then (.ok (), c.removed)
    else (.error (newError x.fault), c.removalFailed x.left)
  | .accepting => (c.accepting, c)
  | .stopAccepting => ((), { c with accepting := false })
  | .steps => (c.steps, c)
  | .allocate =>
    if x.allocation.cleanup && x.allocation.audit then
      ((c.handles, x.allocation),
        { c with handles := c.handles + 1, trace := .handed c.handles :: c.trace })
    else ((c.handles, x.allocation), c)
  | .operationErr => (x.operation, c)
  | .cleanup handle => (x.ok, { c with trace := .cleaned handle x.ok :: c.trace })
  | .audit handle => (x.ok, { c with trace := .audited handle x.ok :: c.trace })
  | .appendStep step => ((), { c with steps := c.steps ++ [step] })
  | .markDone index => ((), { c with steps := Session.markDone c.steps index })
  | .subscriberIDs => (x.order, c)
  | .cancelled _ => (x.flag, c)
  | .send _ event => (x.flag, { c with trace := .published event :: c.trace })
  | .removeSubscriber _ _ => ((), c)
  | .subscriberCount => (x.count, c)
  | .addSubscriber _ _ => (x.count, c)
  | .finish snapshot =>
    ((), { c with registered := false, tombstone := some { snapshot with events := [] } })
  | .completeCleanup attempt result =>
    ((), { c with trace := .completed attempt result :: c.trace })
  | .closeDone => ((), { c with done := true })
  | .respond _ => ((), c)

/-! ## Programs -/

abbrev Code (α : Type) := Prog Op Res α

def call (o : Op) : Code (Res o) := Prog.call o

/-- `publish`, for the subscribers still to be visited. -/
def publishTo (event : Event) : List Nat → Code Unit
  | [] => return ()
  | id :: ids => do
      let cancelled : Bool ← call (.cancelled id)
      if cancelled then
        call (.removeSubscriber id none)
        publishTo event ids
      else
        let sent : Bool ← call (.send id event)
        if sent then publishTo event ids
        else
          call (.removeSubscriber id (some .subscriberSlow))
          publishTo event ids

def publish (event : Event) : Code Unit := do
  let ids : List Nat ← call .subscriberIDs
  publishTo event ids

/-- What follows a transition in memory: save and publish, or roll back. -/
def commit (before : Snapshot) (event : Event) : Code (Snapshot × Option Err) := do
  let after : Snapshot ← call .snapshot
  let saved : Except Err Unit ← call (.save after)
  match saved with
  | .error e =>
    call (.restore before)
    return (before, some e)
  | .ok () =>
    publish event
    return (after, none)

/-- `transition` and `workflow` differ in the transition alone. -/
def advance (m : Move) : Code (Snapshot × Option Err) := do
  let before : Snapshot ← call .snapshot
  let now : Time ← call .now
  let r : Except Err Event ← call (.move m now)
  match r with
  | .error e => return (before, some e)
  | .ok event => commit before event

def transition (target : Phase) (cleanupOwned : Bool) : Code (Snapshot × Option Err) :=
  advance (.lifecycle target cleanupOwned)

def workflow (target : String) : Code (Snapshot × Option Err) := advance (.workflow target)

/-- The part of `acquire` after an allocator returned both functions and no error. -/
def register (step : CleanupStep) : Code (Option Err) := do
  let cancelled : Option Err ← call .operationErr
  match cancelled with
  | none =>
    call (.appendStep step)
    return none
  | some e =>
    let cleaned : Bool ← call (.cleanup step.handle)
    if cleaned then
      let audited : Bool ← call (.audit step.handle)
      if audited then return some e
      else
        call (.appendStep step)
        return some Sentinel.cleanupIncomplete.err
    else
      call (.appendStep step)
      return some Sentinel.cleanupIncomplete.err

/-- The part of `acquire` that calls the allocator. -/
def allocate (resource : String) : Code (Option Err) := do
  let r : Nat × Allocation ← call .allocate
  let step : CleanupStep := ⟨resource, r.1, false⟩
  match r.2.err with
  | some e =>
    if !r.2.cleanup && !r.2.audit then return some e
    else if !r.2.cleanup || !r.2.audit then
      return some (e.join
        (newError "allocator returned an incomplete partial-resource contract"))
    else
      call (.appendStep step)
      return some (e.join Sentinel.cleanupIncomplete.err)
  | none =>
    if !r.2.cleanup || !r.2.audit then
      return some (newError "allocator returned an incomplete resource contract")
    else register step

def acquire (resource : String) : Code (Option Err) := do
  let accepting : Bool ← call .accepting
  if !accepting then return some Sentinel.resourceRegistrationEnd.err
  else
    let current : Snapshot ← call .snapshot
    if current.phase.inCleanup then return some Sentinel.resourceRegistrationEnd.err
    else
      let steps : List CleanupStep ← call .steps
      if steps.any fun step => step.name == resource then
        return some Sentinel.duplicateResource.err
      else allocate resource

/-- The loop of `cleanupEntry` over the steps below an index, from the last one down; the
answer is whether every step completed. -/
def cleanupSteps (steps : List CleanupStep) : Nat → Code Bool
  | 0 => return true
  | index + 1 =>
    match steps[index]? with
    | none => cleanupSteps steps index
    | some step =>
      if step.done then cleanupSteps steps index
      else do
        let cleaned : Bool ← call (.cleanup step.handle)
        if cleaned then
          let audited : Bool ← call (.audit step.handle)
          if audited then
            call (.markDone index)
            cleanupSteps steps index
          else return false
        else return false

/-- The end of `cleanupEntry`: the steps, the record and the terminal event. -/
def destroy (current : Snapshot) : Code (Snapshot × Option Err) := do
  let steps : List CleanupStep ← call .steps
  let completed ← cleanupSteps steps steps.length
  if !completed then
    let last : Snapshot ← call .snapshot
    return (last, some Sentinel.cleanupIncomplete.err)
  else
    let removed : Except Err Unit ← call (.remove current.id)
    match removed with
    | .error _ =>
      let last : Snapshot ← call .snapshot
      return (last, some Sentinel.cleanupIncomplete.err)
    | .ok () =>
      let now : Time ← call .now
      let r : Except Err Event ← call (.move (.lifecycle .destroyed true) now)
      match r with
      | .error e =>
        let last : Snapshot ← call .snapshot
        return (last, some e)
      | .ok event =>
        publish event
        let last : Snapshot ← call .snapshot
        return (last, none)

/-- A phase of `cleanupEntry`: enter it unless a condition says it is passed. -/
def enter (passed : Bool) (target : Phase) (current : Snapshot) :
    Code (Snapshot × Option Err) :=
  if passed then return (current, none) else transition target true

/-- Go on with the snapshot of a step, unless it failed. -/
def unlessErr (p : Code (Snapshot × Option Err)) (f : Snapshot → Code (Snapshot × Option Err)) :
    Code (Snapshot × Option Err) := do
  let r ← p
  match r.2 with
  | some e => return (r.1, some e)
  | none => f r.1

def cleanupEntry : Code (Snapshot × Option Err) := do
  call .stopAccepting
  let current : Snapshot ← call .snapshot
  unlessErr (enter (current.phase == .stopping || current.phase == .aborting ||
      current.phase == .destroying) .aborting current) fun current =>
    unlessErr (enter (current.phase == .destroying) .destroying current) destroy

def subscribe (after : Nat) : Code (Except Err Nat) := do
  let snapshot : Snapshot ← call .snapshot
  if after > snapshot.sequence then return .error Sentinel.eventCursor.err
  else
    let count : Nat ← call .subscriberCount
    if count ≥ maxSubscribersPerSession then return .error Sentinel.subscriberSlow.err
    else
      let id : Nat ← call (.addSubscriber after
        (snapshot.events.filter fun event => event.sequence > after))
      return .ok id

def closeSubscribersOf (reason : Option Sentinel) : List Nat → Code Unit
  | [] => return ()
  | id :: ids => do
      call (.removeSubscriber id reason)
      closeSubscribersOf reason ids

def closeSubscribers (reason : Option Sentinel) : Code Unit := do
  let ids : List Nat ← call .subscriberIDs
  closeSubscribersOf reason ids

/-- What the loop of `run` does with a command; `true` ends the goroutine. -/
def handle : Command → Code Bool
  | .transition target => do
      let r ← transition target false
      call (.respond ⟨r.1, none, r.2⟩)
      return false
  | .workflow target => do
      let r ← workflow target
      call (.respond ⟨r.1, none, r.2⟩)
      return false
  | .acquire resource => do
      let err ← acquire resource
      let snapshot : Snapshot ← call .snapshot
      call (.respond ⟨snapshot, none, err⟩)
      return false
  | .subscribe after => do
      let r ← subscribe after
      let snapshot : Snapshot ← call .snapshot
      match r with
      | .ok id => call (.respond ⟨snapshot, some id, none⟩)
      | .error e => call (.respond ⟨snapshot, none, some e⟩)
      return false
  | .cleanup attempt => do
      let r ← cleanupEntry
      match r.2 with
      | none =>
        call (.finish r.1)
        call (.completeCleanup attempt ⟨r.1, none, none⟩)
        closeSubscribers none
        call .closeDone
        return true
      | some e =>
        call (.completeCleanup attempt ⟨r.1, none, some e⟩)
        return false

/-! ## Which operations a program uses -/

/-- What an operation acts on. -/
inductive Area where
  | read
  | clock
  | journal
  | rollback
  | resource
  | publish
  | stream
  | reply
  | ending
  deriving DecidableEq

def Op.area : Op → Area
  | .snapshot | .accepting | .steps | .operationErr | .subscriberIDs | .cancelled _
  | .subscriberCount => .read
  | .now => .clock
  | .move _ _ | .save _ | .remove _ => .journal
  | .restore _ => .rollback
  | .stopAccepting | .allocate | .cleanup _ | .audit _ | .appendStep _ | .markDone _ => .resource
  | .send _ _ => .publish
  | .removeSubscriber _ _ | .addSubscriber _ _ => .stream
  | .respond _ => .reply
  | .finish _ | .completeCleanup _ _ | .closeDone => .ending

/-- All operations of a program are of these areas. -/
def Within (areas : List Area) {α : Type} (p : Code α) : Prop := p.Uses fun o => o.area ∈ areas

section

variable {areas : List Area} {α β : Type}

theorem within_pure (a : α) : Within areas (pure a : Code α) := Prog.uses_pure a

theorem within_call {o : Op} {f : Res o → Code β} (ho : areas.contains o.area = true)
    (hf : ∀ r, Within areas (f r)) : Within areas (call o >>= f) :=
  .bind (Prog.uses_call.2 (List.contains_iff_mem.1 ho)) hf

theorem within_own (o : Op) : Within [o.area] (call o) :=
  Prog.uses_call.2 (List.mem_singleton_self _)

theorem Within.bind {p} {f : α → Code β} (hp : Within areas p) (hf : ∀ a, Within areas (f a)) :
    Within areas (p >>= f) := Prog.Uses.bind hp hf

theorem Within.mono {areas' : List Area} {p : Code α} (hp : Within areas p)
    (h : areas ⊆ areas') : Within areas' p := Prog.Uses.mono hp fun _ ho => h ho

end

theorem publish_within (event : Event) : Within [.read, .publish, .stream] (publish event) := by
  refine within_call rfl fun ids => ?_
  induction ids with
  | nil => exact within_pure ()
  | cons id ids ih =>
    refine within_call rfl fun cancelled => ?_
    cases cancelled with
    | true => exact within_call rfl fun _ => ih
    | false =>
      refine within_call rfl fun sent => ?_
      cases sent with
      | true => exact ih
      | false => exact within_call rfl fun _ => ih

theorem advance_within (m : Move) :
    Within [.read, .clock, .journal, .rollback, .publish, .stream] (advance m) := by
  refine within_call rfl fun before => within_call rfl fun now =>
    within_call rfl fun r => ?_
  match r with
  | .error e => exact within_pure _
  | .ok event =>
    refine within_call rfl fun after => within_call rfl fun saved => ?_
    match saved with
    | .error e => exact within_call rfl fun _ => within_pure _
    | .ok () => exact ((publish_within event).mono (by decide)).bind fun _ => within_pure _

theorem register_within (step : CleanupStep) : Within [.read, .resource] (register step) := by
  refine within_call rfl fun cancelled => ?_
  match cancelled with
  | none => exact within_call rfl fun _ => within_pure _
  | some e =>
    refine within_call rfl fun cleaned => ?_
    cases cleaned with
    | false => exact within_call rfl fun _ => within_pure _
    | true =>
      refine within_call rfl fun audited => ?_
      cases audited with
      | false => exact within_call rfl fun _ => within_pure _
      | true => exact within_pure _

theorem allocate_within (resource : String) : Within [.read, .resource] (allocate resource) := by
  refine within_call rfl fun r => ?_
  split
  · split
    · exact within_pure _
    · split
      · exact within_pure _
      · exact within_call rfl fun _ => within_pure _
  · split
    · exact within_pure _
    · exact register_within _

theorem acquire_within (resource : String) : Within [.read, .resource] (acquire resource) := by
  refine within_call rfl fun accepting => ?_
  split
  · exact within_pure _
  refine within_call rfl fun current => ?_
  split
  · exact within_pure _
  · refine within_call rfl fun steps => ?_
    split
    · exact within_pure _
    · exact allocate_within resource

theorem subscribe_within (after : Nat) : Within [.read, .stream] (subscribe after) := by
  refine within_call rfl fun snapshot => ?_
  split
  · exact within_pure _
  · refine within_call rfl fun count => ?_
    split
    · exact within_pure _
    · exact within_call rfl fun _ => within_pure _

theorem closeSubscribers_within (reason : Option Sentinel) :
    Within [.read, .stream] (closeSubscribers reason) := by
  refine within_call rfl fun ids => ?_
  induction ids with
  | nil => exact within_pure ()
  | cons id ids ih => exact within_call rfl fun _ => ih

theorem cleanupSteps_within (steps : List CleanupStep) (index : Nat) :
    Within [.resource] (cleanupSteps steps index) := by
  induction index with
  | zero => exact within_pure _
  | succ index ih =>
    unfold cleanupSteps
    split
    · exact ih
    split
    · exact ih
    refine within_call rfl fun cleaned => ?_
    cases cleaned with
    | false => exact within_pure _
    | true =>
      refine within_call rfl fun audited => ?_
      cases audited with
      | false => exact within_pure _
      | true => exact within_call rfl fun _ => ih

/-- Everything but answering a caller and ending the actor. -/
def workAreas : List Area :=
  [.read, .clock, .journal, .rollback, .resource, .publish, .stream]

theorem destroy_within (current : Snapshot) :
    Within [.read, .clock, .journal, .resource, .publish, .stream] (destroy current) := by
  refine within_call rfl fun steps =>
    ((cleanupSteps_within steps _).mono (by decide)).bind fun completed => ?_
  split
  · exact within_call rfl fun _ => within_pure _
  refine within_call rfl fun removed => ?_
  match removed with
  | .error _ => exact within_call rfl fun _ => within_pure _
  | .ok () =>
    refine within_call rfl fun now => within_call rfl fun r => ?_
    match r with
    | .error e => exact within_call rfl fun _ => within_pure _
    | .ok event =>
      exact ((publish_within event).mono (by decide)).bind fun _ =>
        within_call rfl fun _ => within_pure _

theorem enter_within (passed : Bool) (target : Phase) (current : Snapshot) :
    Within workAreas (enter passed target current) := by
  cases passed with
  | true => exact within_pure _
  | false => exact (advance_within _).mono (by decide)

theorem unlessErr_within {areas p} {f : Snapshot → Code (Snapshot × Option Err)}
    (hp : Within areas p) (hf : ∀ current, Within areas (f current)) :
    Within areas (unlessErr p f) := by
  refine hp.bind fun r => ?_
  split
  · exact within_pure _
  · exact hf _

theorem cleanupEntry_within : Within workAreas cleanupEntry :=
  within_call rfl fun _ => within_call rfl fun _ => unlessErr_within (enter_within _ _ _) fun _ =>
    unlessErr_within (enter_within _ _ _) fun _ => (destroy_within _).mono (by decide)

end PrivateVm.Session
