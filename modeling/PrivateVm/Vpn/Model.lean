import PrivateVm.AppError
import PrivateVm.Basic.Netip
import PrivateVm.Basic.Text

set_option autoImplicit false

/-! # Errors and addresses of profiles (`internal/vpn/errors.go`, `profile.go`)

The errors of the package, the endpoint of a profile before and after it has been resolved, and
which addresses may be endpoints, interface addresses and servers of names.
-/

namespace PrivateVm.Vpn

open Netip

/-! ## Errors -/

inductive Sentinel where
  | invalidProfile
  | endpointUnresolved
  | profileNotFound
  | profileNotReady
  | profileRotated
  | profileLimit
  | storeClosed
  deriving DecidableEq

abbrev Error := Err Sentinel

def invalidProfile : Error :=
  .app ⟨"VPN_PROFILE_INVALID", .network,
    "The Proton WireGuard profile is invalid.",
    "Generate a new Proton WireGuard profile containing one peer, default routes, literal DNS " ++
      "addresses, and no hooks.", .invalidProfile⟩

def endpointUnresolved : Error :=
  .app ⟨"VPN_ENDPOINT_UNRESOLVED", .network,
    "The Proton endpoint could not be resolved safely.",
    "Generate and import a current Proton WireGuard profile, then retry the bounded endpoint " ++
      "check.", .endpointUnresolved⟩

def profileNotFound : Error :=
  .app ⟨"VPN_PROFILE_NOT_IMPORTED", .network,
    "No volatile Proton WireGuard profile is available.",
    "Import a current Proton WireGuard profile before starting a networked role.",
    .profileNotFound⟩

def profileNotReady : Error :=
  .app ⟨"VPN_ENDPOINT_CHECK_REQUIRED", .network,
    "The Proton endpoint has not been verified for this profile generation.",
    "Run the bounded trusted-host endpoint check before delivering the profile to a guest.",
    .profileNotReady⟩

def profileRotated : Error :=
  .app ⟨"VPN_PROFILE_ROTATED", .network,
    "The volatile Proton profile generation changed before delivery.",
    "Resolve the current profile generation and rebuild the endpoint policy before retrying.",
    .profileRotated⟩

def profileLimit : Error :=
  .app ⟨"VPN_PROFILE_LIMIT", .network,
    "The volatile Proton profile limit was reached.",
    "Remove an unused imported profile before importing another name.", .profileLimit⟩

def storeClosed : Error :=
  .app ⟨"VPN_PROFILE_STORE_CLOSED", .network,
    "The volatile Proton profile store is unavailable.",
    "Restart the daemon and import the Proton WireGuard profile again.", .storeClosed⟩

/-! ## Addresses -/

/-- The networks of which no address is that of an endpoint. -/
def forbiddenPublicEndpointPrefixes : List Prefix :=
  let v4 (bits : BitVec 32) (length : Nat) := prefixFrom (.v4 bits) length
  let v6 (bits : BitVec 128) (length : Nat) := prefixFrom (.v6 bits "") length
  [v4 0x00000000 8, v4 0x0a000000 8, v4 0x64400000 10, v4 0x7f000000 8, v4 0xa9fe0000 16,
    v4 0xac100000 12, v4 0xc0000000 24, v4 0xc0000200 24, v4 0xc01fc400 24, v4 0xc034c100 24,
    v4 0xc0586300 24, v4 0xc0a80000 16, v4 0xc0af3000 24, v4 0xc6120000 15, v4 0xc6336400 24,
    v4 0xcb007100 24, v4 0xe0000000 4, v4 0xf0000000 4, v6 0 128, v6 1 128,
    v6 0x00000000000000000000ffff00000000 96, v6 0x0064ff9b000000000000000000000000 96,
    v6 0x0064ff9b000100000000000000000000 48, v6 0x01000000000000000000000000000000 64,
    v6 0x01000000000000010000000000000000 64, v6 0x20010000000000000000000000000000 23,
    v6 0x20010db8000000000000000000000000 32, v6 0x20020000000000000000000000000000 16,
    v6 0x2620004f800000000000000000000000 48, v6 0x3fff0000000000000000000000000000 20,
    v6 0x5f000000000000000000000000000000 16, v6 0xfc000000000000000000000000000000 7,
    v6 0xfe800000000000000000000000000000 10, v6 0xff000000000000000000000000000000 8]

def allocatedIPv6GlobalUnicast : Prefix :=
  prefixFrom (.v6 0x20000000000000000000000000000000 "") 3

def publicEndpointAddress (address : Addr) : Bool :=
  address.isValid && address.zone = "" && !address.is4In6 && address.isGlobalUnicast &&
    (!address.is6 || allocatedIPv6GlobalUnicast.contains address) &&
    forbiddenPublicEndpointPrefixes.all (!·.contains address)

/-- Addresses within the tunnel may be private. -/
def safeTunnelAddress (address : Addr) : Bool :=
  address.isValid && address.zone = "" && !address.is4In6 && address.isGlobalUnicast &&
    (address.isPrivate || publicEndpointAddress address)

def safeInterfaceAddress (p : Prefix) : Bool :=
  p.isValid && safeTunnelAddress p.addr &&
    if p.addr.is4 then p.length = some 32 else p.addr.is6 && p.length = some 128

def safeDNSAddress (address : Addr) : Bool := safeTunnelAddress address

/-! ## Endpoints -/

/-- The endpoint of a profile: the name of a host, or an address when there is a valid one. -/
structure Endpoint where
  host : List Char
  literal : Addr
  port : UInt16
  deriving DecidableEq

structure ResolvedEndpoint where
  address : Addr
  port : UInt16
  deriving DecidableEq

def ResolvedEndpoint.valid (e : ResolvedEndpoint) : Bool :=
  publicEndpointAddress e.address && e.port != 0

end PrivateVm.Vpn
