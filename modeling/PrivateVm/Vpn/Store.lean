import PrivateVm.Basic.Machine
import PrivateVm.Vpn.Profile
import Mathlib.Data.List.AList
import Mathlib.Data.List.Sort

set_option autoImplicit false

/-! # The profile store (`internal/vpn/store.go`, `resolver.go`)

`resolveBegin` and `resolveFinish` are the two critical sections of `Resolve`, and any other
operation can come between them. An entry is named by where it stands among all entries that were
ever stored, and so is a plan. The state of a profile is shared by its entry and by the snapshot of
a `Resolve`; once it is destroyed it has no contents left.
-/

namespace PrivateVm.Vpn

open Netip Checked Text

/-! ## The resolver -/

def maximumResolvedIPs : Nat := 16

/-- What a lookup meets: the error of the caller's context at the start and after the lookup,
the addresses found if the lookup succeeds, and whether its own deadline has passed. -/
structure Lookup where
  startErr : Option Fault
  addresses : Option (List Addr)
  contextErr : Option Fault
  timedOut : Bool

def collectAddress (port : UInt16) (resolved : List ResolvedEndpoint) (address : Addr) :
    Except Error (List ResolvedEndpoint) := do
  failIf (address.is4In6 ∨ ¬ publicEndpointAddress address) endpointUnresolved
  if resolved.any (·.address = address) then return resolved
  else return resolved ++ [⟨address, port⟩]

def sortEndpoints (endpoints : List ResolvedEndpoint) : List ResolvedEndpoint :=
  endpoints.insertionSort fun left right => right.address.compare left.address ≠ .lt

/-- `EndpointResolver.resolve`; without a resolver there is no lookup. -/
def resolve (profile : Option Profile) (lookup : Option Lookup) :
    Except Error (List ResolvedEndpoint) := do
  let lookup ← ofOption endpointUnresolved lookup
  match lookup.startErr with
  | some fault => throw (.cause fault)
  | none =>
    let p ← ofOption invalidProfile profile
    if p.endpoint.literal.isValid then return [⟨p.endpoint.literal, p.endpoint.port⟩]
    else match lookup.contextErr with
    | some fault => throw (.cause fault)
    | none =>
      let addresses ← ofOption endpointUnresolved lookup.addresses
      failIf (lookup.timedOut ∨ addresses = [] ∨ maximumResolvedIPs < addresses.length)
        endpointUnresolved
      let resolved ← addresses.foldlM (collectAddress p.endpoint.port) []
      failIf (resolved = []) endpointUnresolved
      return sortEndpoints resolved

/-! ## The state of the store -/

def maximumProfilesPerOwner : Nat := 8
def maximumStoredProfiles : Nat := 64

inductive RotationState where
  | notImported
  | resolutionNeeded
  | current
  | required
  deriving DecidableEq

/-- `profileNamePattern` -/
def validName (name : List Char) : Bool :=
  let isFirst (c : Char) : Bool := c.isAlpha || c.isDigit
  match name with
  | [] => false
  | c :: rest =>
    isFirst c && rest.length ≤ 63 &&
      rest.all fun c => isFirst c || c = '_' || c = '.' || c = '-'

structure ProfileKey where
  owner : UInt32
  name : List Char
  deriving DecidableEq

structure ResolutionPlan where
  key : ProfileKey
  generation : UInt64
  epoch : UInt64
  endpoints : List ResolvedEndpoint
  deriving DecidableEq

def ResolutionPlan.destroyed : ResolutionPlan := ⟨⟨0, []⟩, 0, 0, []⟩

structure StoredProfile where
  profile : Option Profile
  generation : UInt64
  epoch : UInt64
  rotation : RotationState
  plan : Option Nat
  deriving DecidableEq

structure Store where
  entries : List StoredProfile
  plans : List ResolutionPlan
  profiles : AList fun _ : ProfileKey => Nat
  nextByOwner : UInt32 → UInt64
  closed : Bool

def newMemoryStore : Store := ⟨[], [], ∅, fun _ => 0, false⟩

def Store.ownerCount (s : Store) (owner : UInt32) : Nat :=
  s.profiles.keys.countP (·.owner = owner)

def Store.entry (s : Store) (key : ProfileKey) : Option (Nat × StoredProfile) := do
  let i ← s.profiles.lookup key
  let entry ← s.entries[i]?
  return (i, entry)

def Store.modifyEntry (s : Store) (i : Nat) (f : StoredProfile → StoredProfile) : Store :=
  { s with entries := s.entries.modify i f }

def Store.invalidatePlan (s : Store) (i : Nat) : Store :=
  match s.entries[i]? >>= (·.plan) with
  | none => s
  | some plan =>
    { s with plans := s.plans.modify plan fun _ => .destroyed }.modifyEntry i
      ({ · with plan := none })

/-- The plan of an entry is invalidated and its profile is destroyed. -/
def Store.retire (s : Store) (i : Nat) : Store :=
  (s.invalidatePlan i).modifyEntry i ({ · with profile := none })

def Store.closeLocked (s : Store) : Store :=
  if s.closed then s
  else
    { s.profiles.entries.foldl (fun s entry => s.retire entry.2) s with
      profiles := ∅, nextByOwner := fun _ => 0, closed := true }

/-! ## What is reported -/

structure Inspection where
  ipv4Enabled : Bool
  ipv6Enabled : Bool
  interfaceAddressCount : Nat
  dnsServerCount : Nat
  deriving DecidableEq

structure Status where
  present : Bool
  generation : UInt64
  rotation : RotationState
  code : String
  remediation : String
  profile : Option Inspection
  deriving DecidableEq

def missingStatus : Status :=
  ⟨false, 0, .notImported, "VPN_PROFILE_NOT_IMPORTED",
    "Import a current Proton WireGuard profile before starting a networked role.", none⟩

def statusFor (entry : StoredProfile) : Status :=
  match entry.profile with
  | none => missingStatus
  | some p =>
    let inspection : Inspection := ⟨true, p.allowedV6, p.addresses.length, p.dnsServers.length⟩
    match entry.rotation with
    | .current =>
      ⟨true, entry.generation, entry.rotation, "VPN_PROFILE_CURRENT",
        "No profile rotation is currently required.", some inspection⟩
    | .required =>
      ⟨true, entry.generation, entry.rotation, "VPN_PROFILE_ROTATION_REQUIRED",
        "Generate and import a current Proton WireGuard profile before starting a " ++
          "networked role.", some inspection⟩
    | .notImported | .resolutionNeeded =>
      ⟨true, entry.generation, entry.rotation, "VPN_ENDPOINT_CHECK_REQUIRED",
        "Run the bounded trusted-host endpoint check before starting a networked role.",
        some inspection⟩

/-! ## The operations -/

/-- `ParseSecret`; a secret that is missing or destroyed has no bytes. -/
def parseSecret (codec : Codec) (source : Option ByteArray) : Except Error Profile :=
  match source.map (parse codec) with
  | some (.ok profile) => .ok profile
  | some (.error _) | none => .error invalidProfile

def Store.import (codec : Codec) (key : ProfileKey) (source : Option ByteArray) (s : Store) :
    Except Error Status × Store :=
  if ¬ validName key.name then (.error invalidProfile, s)
  else match parseSecret codec source with
  | .error e => (.error e, s)
  | .ok profile =>
    if s.closed then (.error storeClosed, s)
    else if s.profiles.lookup key = none ∧ (maximumStoredProfiles ≤ s.profiles.keys.length ∨
        maximumProfilesPerOwner ≤ s.ownerCount key.owner) then (.error profileLimit, s)
    else
      let next := s.nextByOwner key.owner + 1
      if next = 0 then (.error storeClosed, s.closeLocked)
      else
        let entry : StoredProfile := ⟨some profile, next, 0, .resolutionNeeded, none⟩
        let stored :=
          { s with
            nextByOwner := Function.update s.nextByOwner key.owner next
            entries := s.entries ++ [entry]
            profiles := s.profiles.insert key s.entries.length }
        (.ok (statusFor entry),
          match s.profiles.lookup key with
          | none => stored
          | some old => stored.retire old)

/-- A `Resolve` between its two critical sections. -/
structure Pending where
  key : ProfileKey
  entry : Nat
  generation : UInt64
  epoch : UInt64

/-- The first critical section of `Resolve`. Where it ends the call there is no status, or that
of a missing profile. -/
def Store.resolveBegin (key : ProfileKey) (s : Store) :
    Except (Error × Option Status) Pending × Store :=
  if ¬ validName key.name then (.error (profileNotFound, none), s)
  else if s.closed then (.error (storeClosed, none), s)
  else match s.entry key with
  | none => (.error (profileNotFound, some missingStatus), s)
  | some (i, entry) =>
    let epoch := entry.epoch + 1
    let counted := s.modifyEntry i ({ · with epoch := epoch })
    -- neither the plan of the entry nor the store is touched here
    if epoch = 0 then (.error (storeClosed, none), counted)
    else
      (.ok ⟨key, i, entry.generation, epoch⟩,
        (counted.invalidatePlan i).modifyEntry i ({ · with rotation := .resolutionNeeded }))

/-- The second critical section, with the result of the lookup and the error of the context. -/
def Store.resolveFinish (pending : Pending) (result : Except Error (List ResolvedEndpoint))
    (contextErr : Option Fault) (s : Store) : (Except Error Nat × Status) × Store :=
  if s.closed then ((.error storeClosed, missingStatus), s)
  else match s.entry pending.key with
  | none => ((.error profileNotFound, missingStatus), s)
  | some (i, entry) =>
    if i ≠ pending.entry ∨ entry.generation ≠ pending.generation ∨
        entry.epoch ≠ pending.epoch then
      ((.error profileRotated, statusFor entry), s)
    else
      let fail (e : Error) : (Except Error Nat × Status) × Store :=
        let rotation : RotationState :=
          if contextErr.isSome then .resolutionNeeded else .required
        ((.error e, statusFor { entry with rotation := rotation }),
          s.modifyEntry i ({ · with rotation := rotation }))
      match result, contextErr with
      | .error e, _ => fail e
      | .ok _, some fault => fail (.cause fault)
      | .ok endpoints, none =>
        let plan : ResolutionPlan :=
          ⟨pending.key, pending.generation, pending.epoch, endpoints⟩
        ((.ok s.plans.length, statusFor { entry with rotation := .current }),
          { s with plans := s.plans ++ [plan] }.modifyEntry i
            ({ · with plan := some s.plans.length, rotation := .current }))

/-- What the callback of `UsePlan` is given: the endpoints of the plan, and the profile. -/
structure View where
  endpoints : List ResolvedEndpoint
  profile : Option Profile
  deriving DecidableEq

/-- `WithGuestConfig`: the guest is given the first endpoint of the plan. -/
def View.withGuestConfig (view : View) : Except Error (List Char) :=
  match view.endpoints with
  | [] => .error profileNotReady
  | first :: _ => withResolvedConfig view.profile first

/-- `UsePlan`, which runs its callback with a view and the lock held, or not at all. -/
def Store.usePlan (key : ProfileKey) (plan : Nat) (contextErr : Option Fault) (s : Store) :
    Except Error View :=
  if ¬ validName key.name then .error profileNotFound
  else if s.closed then .error storeClosed
  else match s.entry key with
  | none => .error profileNotFound
  | some (_, entry) =>
    match s.plans[plan]? with
    | none => .error profileRotated
    | some concrete =>
      if entry.plan ≠ some plan ∨ concrete.key ≠ key ∨
          concrete.generation ≠ entry.generation ∨ concrete.epoch ≠ entry.epoch ∨
          entry.rotation ≠ .current then .error profileRotated
      else match contextErr with
      | some fault => .error (.cause fault)
      | none => .ok ⟨concrete.endpoints, entry.profile⟩

def Store.remove (key : ProfileKey) (s : Store) : Store :=
  match s.profiles.lookup key with
  | none => s
  | some i => { s with profiles := s.profiles.erase key }.retire i

end PrivateVm.Vpn
