import PrivateVm.AppError
import PrivateVm.Basic.Netip
import Mathlib.Data.Vector.Defs

set_option autoImplicit false

/-! # The network model (`internal/network/model.go`, `errors.go`)

Endpoint tuples and policies, and the topology of a session: its names and networks, all derived
from a digest of the session's identifier and an attempt. SHA-256 is a parameter.
-/

namespace PrivateVm.Network

open Netip

/-! ## Errors -/

inductive Sentinel where
  | invalidRequest
  | topologyExists
  | collisionExhausted
  | topologyFailed
  | policyFailed
  | cleanupIncomplete
  deriving DecidableEq

abbrev Error := Err Sentinel

def invalidRequest : Error :=
  .app ⟨"NETWORK_REQUEST_INVALID", .network,
    "The requested private network contract is invalid.",
    "Create networking only for an active internal session and a current resolved VPN plan.",
    .invalidRequest⟩

def topologyExists : Error :=
  .app ⟨"NETWORK_TOPOLOGY_EXISTS", .network,
    "A private network already belongs to this session.",
    "Reuse the existing session network or complete its cleanup before retrying.",
    .topologyExists⟩

def collisionExhausted : Error :=
  .app ⟨"NETWORK_COLLISION_EXHAUSTED", .network,
    "No collision-free bounded network allocation is available.",
    "Clean verified orphaned private-vm network resources and retry.",
    .collisionExhausted⟩

/-- The errors that pass on one of a context. -/
def passContext (e : AppError Sentinel) (cause : Fault) : Error :=
  if cause.isContextError then .cause cause else .app e

def topologyFailed : Fault → Error :=
  passContext ⟨"NETWORK_TOPOLOGY_FAILED", .network,
    "The isolated session network could not be created safely.",
    "Run private-vm doctor --strict, clean verified orphaned resources, and retry.",
    .topologyFailed⟩

def policyFailed : Fault → Error :=
  passContext ⟨"HOST_EGRESS_POLICY_FAILED", .network,
    "The exact Proton endpoint allowlist could not be installed atomically.",
    "Do not start QEMU; clean the session network, verify nftables support, and retry with a " ++
      "current VPN plan.", .policyFailed⟩

def cleanupIncomplete : Error :=
  .app ⟨"NETWORK_CLEANUP_INCOMPLETE", .cleanup,
    "One or more owned network resources could not be removed or audited absent.",
    "Keep the session in cleanup state, inspect redacted diagnostics, and retry verified cleanup.",
    .cleanupIncomplete⟩

/-! ## Endpoints -/

structure EndpointTuple where
  address : Addr
  port : UInt16
  deriving DecidableEq

/-- The endpoints a session may reach, by the version of their addresses. -/
structure EndpointPolicy where
  v4 : List EndpointTuple
  v6 : List EndpointTuple
  deriving DecidableEq

def maximumEndpointTuples : Nat := 16

/-! ## Topologies -/

def maximumAllocationAttempts : Nat := 64
def interfaceNameLimit : Nat := 15

structure TopologySpec where
  «namespace» : String
  hostVeth : String
  namespaceVeth : String
  tap : String
  namespaceTable : String
  hostTable : String
  guestNetwork4 : Prefix
  guestGateway4 : Prefix
  guestAddress4 : Prefix
  uplinkNetwork4 : Prefix
  hostUplink4 : Prefix
  namespaceUplink4 : Prefix
  guestNetwork6 : Prefix
  guestGateway6 : Prefix
  guestAddress6 : Prefix
  uplinkNetwork6 : Prefix
  hostUplink6 : Prefix
  namespaceUplink6 : Prefix
  slot : UInt16
  deriving DecidableEq

/-- `hex.EncodeToString`: two digits for a byte. -/
def encodeToString (bytes : List UInt8) : String :=
  String.ofList (bytes.flatMap fun b =>
    [Nat.digitChar (b.toNat / 16), Nat.digitChar (b.toNat % 16)])

/-- The SHA-256 digest of the bytes of a text. -/
abbrev Hash := String → Vector UInt8 32

/-- 10.240.0.0/13, two /30s per slot. -/
def v4Base (slot : UInt16) : BitVec 32 := 0x0af00000 + BitVec.ofNat 32 slot.toNat * 8

/-- The slot is the third group below fd70:766d::/32. -/
def v6Base (slot : UInt16) : BitVec 128 :=
  0xfd70766d000000000000000000000000 + BitVec.ofNat 128 slot.toNat <<< 80

def topologyOf (suffix : String) (slot : UInt16) : TopologySpec :=
  let guestBase4 := Addr.v4 (v4Base slot)
  let uplinkBase4 := Addr.v4 (v4Base slot + 4)
  let guestBase6 := Addr.v6 (v6Base slot) ""
  let uplinkBase6 := Addr.v6 (v6Base slot + 4) ""
  { «namespace» := "pvmn-" ++ suffix
    hostVeth := "pvh" ++ suffix
    namespaceVeth := "pvn" ++ suffix
    tap := "pvt" ++ suffix
    namespaceTable := "pvm_" ++ suffix
    hostTable := "pvmh_" ++ suffix
    guestNetwork4 := prefixFrom guestBase4 30
    guestGateway4 := prefixFrom guestBase4.next 30
    guestAddress4 := prefixFrom guestBase4.next.next 30
    uplinkNetwork4 := prefixFrom uplinkBase4 30
    hostUplink4 := prefixFrom uplinkBase4.next 30
    namespaceUplink4 := prefixFrom uplinkBase4.next.next 30
    guestNetwork6 := prefixFrom guestBase6 126
    guestGateway6 := prefixFrom guestBase6.next 126
    guestAddress6 := prefixFrom guestBase6.next.next 126
    uplinkNetwork6 := prefixFrom uplinkBase6 126
    hostUplink6 := prefixFrom uplinkBase6.next 126
    namespaceUplink6 := prefixFrom uplinkBase6.next.next 126
    slot := slot }

variable (sha256 : Hash)

/-- The first five bytes of a candidate's digest, and the slot of the next two. -/
def suffixFor (sessionID : String) (attempt : UInt8) : String :=
  encodeToString ((sha256 (sessionID ++ ":" ++ toString attempt.toNat)).toList.take 5)

def slotFor (sessionID : String) (attempt : UInt8) : UInt16 :=
  let digest := sha256 (sessionID ++ ":" ++ toString attempt.toNat)
  UInt16.ofNat (digest[5].toNat * 256 + digest[6].toNat)

def candidateFor (sessionID : String) (attempt : UInt8) : TopologySpec :=
  topologyOf (suffixFor sha256 sessionID attempt) (slotFor sha256 sessionID attempt)

end PrivateVm.Network
