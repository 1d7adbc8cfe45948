import PrivateVm.Network.Policy
import PrivateVm.Session.Model
import PrivateVm.Vpn.Store

set_option autoImplicit false

/-! # The network manager (`internal/network/manager.go`)

A thread is at a point of `Create` or `Cleanup`; a step of it is a critical section of one of the
manager's locks, a call of the backend, or the wait for a lock. What comes from outside is an
`Answer`. A network state is named by its number among those that were ever registered, so that
the comparison of pointers is one of numbers.
-/

namespace PrivateVm.Network

open Netip Checked

/-! ## The policy of a session -/

def endpointTupleFor (address : Addr) (port : UInt16) : EndpointTuple := ⟨address, port⟩

/-- The next endpoint of a plan. Before each of them the context is asked for its error. -/
def visitEndpoint (contextErr : Nat → Option Fault) (endpoints : List EndpointTuple)
    (visited : Vpn.ResolvedEndpoint × Nat) : Except Error (List EndpointTuple) :=
  match contextErr visited.2 with
  | some fault => .error (.cause fault)
  | none => do
      failIf (maximumEndpointTuples ≤ endpoints.length) invalidRequest
      return endpoints ++ [endpointTupleFor visited.1.address visited.1.port]

/-- The policy that the callback of `Create` makes of the view of a plan. -/
def sessionPolicy (contextErr : Nat → Option Fault) (view : Vpn.View) :
    Except Error EndpointPolicy := do
  let endpoints ← view.endpoints.zipIdx.foldlM (visitEndpoint contextErr) []
  collectPolicy endpoints

/-! ## States -/

structure NetworkState where
  sessionID : String
  key : Vpn.ProfileKey
  plan : Nat
  spec : TopologySpec
  policy : EndpointPolicy
  ready : Bool := false
  namespaceAttempted : Bool := false
  vethAttempted : Bool := false
  tapAttempted : Bool := false
  namespacePolicyAttempted : Bool := false
  hostPolicyAttempted : Bool := false
  /-- The descriptor of the TAP interface is held. -/
  tapFile : Bool := false
  /-- `lifecycleMu` is held. -/
  locked : Bool := true

/-- The calls of the backend that build a topology. -/
inductive ProvisionStep where
  | createNamespace
  | createVeth
  | configureHost
  | configureNamespace
  | createTAP
  | configureTAP
  | applyNamespacePolicy
  | applyHostPolicy
  deriving DecidableEq

def provisionSteps : List ProvisionStep :=
  [.createNamespace, .createVeth, .configureHost, .configureNamespace, .createTAP, .configureTAP,
    .applyNamespacePolicy, .applyHostPolicy]

def ProvisionStep.attempt (step : ProvisionStep) (s : NetworkState) : NetworkState :=
  match step with
  | .createNamespace => { s with namespaceAttempted := true }
  | .createVeth => { s with vethAttempted := true }
  | .createTAP => { s with tapAttempted := true }
  | .applyNamespacePolicy => { s with namespacePolicyAttempted := true }
  | .applyHostPolicy => { s with hostPolicyAttempted := true }
  | .configureHost | .configureNamespace | .configureTAP => s

def ProvisionStep.succeed (step : ProvisionStep) (s : NetworkState) : NetworkState :=
  match step with
  | .createTAP => { s with tapFile := true }
  | _ => s

def ProvisionStep.failed : ProvisionStep → Fault → Error
  | .applyNamespacePolicy | .applyHostPolicy => policyFailed
  | _ => topologyFailed

/-- The calls that take a topology down. -/
inductive CleanupStep where
  | disableEgress
  | deleteVeth
  | deleteHostPolicy
  | deleteNamespacePolicy
  | closeTAP
  | deleteTAP
  | deleteNamespace
  deriving DecidableEq

def NetworkState.cleanupSteps (s : NetworkState) : List CleanupStep :=
  let parts : List (Bool × List CleanupStep) :=
    [(s.vethAttempted, [.disableEgress, .deleteVeth]),
      (s.hostPolicyAttempted, [.deleteHostPolicy]),
      (s.namespacePolicyAttempted, [.deleteNamespacePolicy]),
      (s.tapFile, [.closeTAP]),
      (s.tapAttempted, [.deleteTAP]),
      (s.namespaceAttempted, [.deleteNamespace])]
  parts.flatMap fun part => if part.1 then part.2 else []

def NetworkState.cleaned (s : NetworkState) : NetworkState :=
  { s with
    policy := ⟨[], []⟩
    namespaceAttempted := false
    vethAttempted := false
    tapAttempted := false
    namespacePolicyAttempted := false
    hostPolicyAttempted := false }

/-! ## Errors -/

/-- An error of this package, or one that the profile store has returned. -/
inductive Failure where
  | network (e : Error)
  | profiles (e : Vpn.Error)

def normalizeCreateError : Failure → Failure
  | .network (.cause fault) | .profiles (.cause fault) => .network (topologyFailed fault)
  | .network (.app e) => .network (.app e)
  | .profiles (.app e) => .profiles (.app e)

/-! ## Threads -/

structure CreateRequest where
  sessionID : String
  key : Vpn.ProfileKey
  plan : Nat

/-- Where a thread is. The points from `lock` on are those of `cleanupState`; `outcome` is what
its caller returns if it succeeds, the error of a `Create` that is undone. -/
inductive Point where
  | create (request : CreateRequest)
  | usePlan (request : CreateRequest)
  | allocate (request : CreateRequest) (policy : EndpointPolicy)
  | reserve (request : CreateRequest) (policy : EndpointPolicy) (attempt : Nat)
  | available (request : CreateRequest) (policy : EndpointPolicy) (attempt : Nat)
  | register (request : CreateRequest) (policy : EndpointPolicy) (attempt : Nat)
  | provision (n : Nat) (steps : List ProvisionStep)
  | cleanup (sessionID : String)
  | lock (n : Nat) (outcome : Option Failure)
  | clean (n : Nat) (outcome : Option Failure) (steps : List CleanupStep) (failed : Bool)
  | audit (n : Nat) (outcome : Option Failure) (failed : Bool)
  | release (n : Nat) (outcome : Option Failure)
  | unlock (n : Nat) (outcome : Option Failure)
  | done (outcome : Option Failure)

/-- What `AuditAbsent` reported to a thread of the resources of a state. -/
structure Report where
  thread : Nat
  n : Nat
  absent : Bool
  deriving DecidableEq

structure World where
  states : String → Option Nat
  reservations : UInt16 → Option String
  names : String → Option String
  networks : List NetworkState
  /-- `allocationMu` is held. -/
  allocating : Bool
  threads : List Point
  /-- The last report comes first. -/
  reports : List Report

def newManager : World := ⟨fun _ => none, fun _ => none, fun _ => none, [], false, [], []⟩

/-- What a step is told from outside. -/
structure Answer where
  view : Except Vpn.Error Vpn.View := .error Vpn.profileNotFound
  /-- The error of the context at each endpoint of the view. -/
  visitErr : Nat → Option Fault := fun _ => none
  contextErr : Option Fault := none
  /-- The error of the backend. -/
  fault : Option Fault := none
  /-- What the backend finds: resources available, or absent. -/
  found : Bool := true

/-- An entry is deleted if it has the given value. -/
def deleteIf {α β : Type} [DecidableEq α] [DecidableEq β] (table : α → Option β) (key : α)
    (value : β) : α → Option β :=
  if table key = some value then Function.update table key none else table

namespace World

def goto (w : World) (t : Nat) (point : Point) : World :=
  { w with threads := w.threads.set t point }

def modify (w : World) (n : Nat) (f : NetworkState → NetworkState) : World :=
  { w with networks := w.networks.modify n f }

/-- A reservation ends without a state. -/
def giveUp (w : World) (t : Nat) (e : Error) : World :=
  { w with allocating := false }.goto t (.done (some (normalizeCreateError (.network e))))

/-- A state is registered under its session, its slot and its name. -/
def register (w : World) (s : NetworkState) : World :=
  { w with
    states := Function.update w.states s.sessionID (some w.networks.length)
    reservations := Function.update w.reservations s.spec.slot (some s.sessionID)
    names := Function.update w.names s.spec.namespace (some s.sessionID)
    networks := w.networks ++ [s]
    allocating := false }

/-- The last critical section of `cleanupState`. -/
def release (w : World) (n : Nat) (s : NetworkState) : World :=
  { w with
    states := deleteIf w.states s.sessionID n
    reservations := deleteIf w.reservations s.spec.slot s.sessionID
    names := deleteIf w.names s.spec.namespace s.sessionID }

variable (sha256 : Hash)

/-- One step of a thread from the point where it is. -/
def advance (t : Nat) (x : Answer) (w : World) : Point → World
  | .create request =>
    match Session.validateID request.sessionID, w.states request.sessionID with
    | .error _, _ => w.goto t (.done (some (.network invalidRequest)))
    | .ok (), some _ => w.goto t (.done (some (.network topologyExists)))
    | .ok (), none => w.goto t (.usePlan request)
  | .usePlan request =>
    match x.view with
    | .error e => w.goto t (.done (some (normalizeCreateError (.profiles e))))
    | .ok view =>
      match sessionPolicy x.visitErr view with
      | .error e => w.goto t (.done (some (normalizeCreateError (.network e))))
      | .ok policy => w.goto t (.allocate request policy)
  | .allocate request policy =>
    if w.allocating then w
    else { w with allocating := true }.goto t (.reserve request policy 0)
  | .reserve request policy attempt =>
    if maximumAllocationAttempts ≤ attempt then w.giveUp t collisionExhausted
    else match x.contextErr with
    | some fault => w.giveUp t (.cause fault)
    | none =>
      let spec := candidateFor sha256 request.sessionID (UInt8.ofNat attempt)
      if w.reservations spec.slot ≠ none ∨ w.names spec.namespace ≠ none then
        w.goto t (.reserve request policy (attempt + 1))
      else w.goto t (.available request policy attempt)
  | .available request policy attempt =>
    match x.fault with
    | some fault => w.giveUp t (topologyFailed fault)
    | none =>
      if x.found then w.goto t (.register request policy attempt)
      else w.goto t (.reserve request policy (attempt + 1))
  | .register request policy attempt =>
    let spec := candidateFor sha256 request.sessionID (UInt8.ofNat attempt)
    if w.states request.sessionID ≠ none ∨ (w.reservations spec.slot).getD "" ≠ "" ∨
        (w.names spec.namespace).getD "" ≠ "" then
      w.goto t (.reserve request policy (attempt + 1))
    else
      (w.register ⟨request.sessionID, request.key, request.plan, spec, policy, false, false,
        false, false, false, false, false, true⟩).goto t
          (.provision w.networks.length provisionSteps)
  | .provision n [] =>
    match x.contextErr with
    | some fault =>
      (w.modify n ({ · with locked := false })).goto t
        (.lock n (some (normalizeCreateError (.network (.cause fault)))))
    | none => (w.modify n ({ · with ready := true, locked := false })).goto t (.done none)
  | .provision n (step :: steps) =>
    match x.fault with
    | some fault =>
      (w.modify n fun s => { step.attempt s with locked := false }).goto t
        (.lock n (some (normalizeCreateError (.network (step.failed fault)))))
    | none => (w.modify n (step.succeed ∘ step.attempt)).goto t (.provision n steps)
  | .cleanup sessionID =>
    match Session.validateID sessionID, w.states sessionID with
    | .error _, _ => w.goto t (.done (some (.network invalidRequest)))
    | .ok (), none => w.goto t (.done none)
    | .ok (), some n => w.goto t (.lock n none)
  | .lock n outcome =>
    match w.networks[n]? with
    | none => w
    | some s =>
      if s.locked then w
      else
        (w.modify n ({ · with ready := false, tapFile := false, locked := true })).goto t
          (.clean n outcome s.cleanupSteps false)
  | .clean n outcome [] failed => w.goto t (.audit n outcome failed)
  | .clean n outcome (_ :: steps) failed =>
    w.goto t (.clean n outcome steps (failed || x.fault.isSome))
  | .audit n outcome failed =>
    let absent := x.fault.isNone && x.found
    let audited := { w with reports := ⟨t, n, absent⟩ :: w.reports }
    if failed ∨ ¬ absent ∨ x.contextErr.isSome then
      audited.goto t (.unlock n (some (.network cleanupIncomplete)))
    else (audited.modify n NetworkState.cleaned).goto t (.release n outcome)
  | .release n outcome =>
    match w.networks[n]? with
    | none => w
    | some s => (w.release n s).goto t (.unlock n outcome)
  | .unlock n outcome =>
    (w.modify n ({ · with locked := false })).goto t (.done outcome)
  | .done _ => w

end World

inductive Move where
  | create (request : CreateRequest)
  | cleanup (sessionID : String)
  | advance (t : Nat) (x : Answer)

def World.step (sha256 : Hash) : Move → World → World
  | .create request, w => { w with threads := w.threads ++ [.create request] }
  | .cleanup sessionID, w => { w with threads := w.threads ++ [.cleanup sessionID] }
  | .advance t x, w =>
    match w.threads[t]? with
    | none => w
    | some point => w.advance sha256 t x point

def managerMachine (sha256 : Hash) : Machine World Move where
  init w := w = newManager
  step := World.step sha256

end PrivateVm.Network
