import PrivateVm.Basic.Checked
import PrivateVm.Basic.Nft
import PrivateVm.Network.Model

set_option autoImplicit false

/-! # The firewall policy (`internal/network/policy.go`)

From a topology and a policy the package renders two tables, one for the namespace of the session
and one for the host. They are given here as the tables that the text denotes; `Nft.Table.lines`
is the text.
-/

namespace PrivateVm.Network

open Netip Nft Checked List

/-! ## Collecting a policy -/

/-- The order of a policy: by address, then by port. -/
def tupleLess (left right : EndpointTuple) : Bool :=
  match left.address.compare right.address with
  | .lt => true
  | .gt => false
  | .eq => left.port < right.port

/-- What `collectPolicy` asks of an endpoint. -/
def EndpointTuple.admissible (endpoint : EndpointTuple) : Bool :=
  endpoint.address.isValid && endpoint.address.zone = "" && !endpoint.address.is4In6 &&
    endpoint.address.isGlobalUnicast && endpoint.port != 0

/-- One turn of the loop: the endpoints seen so far, and the policy. -/
def collectEndpoint (acc : List EndpointTuple × EndpointPolicy) (endpoint : EndpointTuple) :
    Except Error (List EndpointTuple × EndpointPolicy) := do
  let (seen, policy) := acc
  failIf (¬ endpoint.admissible) invalidRequest
  if endpoint ∈ seen then return acc
  else if endpoint.address.is4 then
    return (endpoint :: seen, { policy with v4 := policy.v4 ++ [endpoint] })
  else return (endpoint :: seen, { policy with v6 := policy.v6 ++ [endpoint] })

def sortTuples (tuples : List EndpointTuple) : List EndpointTuple :=
  tuples.insertionSort fun left right => ¬ tupleLess right left

def collectPolicy (endpoints : List EndpointTuple) : Except Error EndpointPolicy := do
  failIf (endpoints = [] ∨ maximumEndpointTuples < endpoints.length) invalidRequest
  let (_, policy) ← endpoints.foldlM collectEndpoint ([], ⟨[], []⟩)
  return ⟨sortTuples policy.v4, sortTuples policy.v6⟩

def EndpointPolicy.of (endpoints : List EndpointTuple) : EndpointPolicy :=
  ⟨endpoints.filter (·.address.is4), endpoints.filter (!·.address.is4)⟩

theorem EndpointPolicy.of_append (endpoints : List EndpointTuple) (endpoint : EndpointTuple) :
    .of (endpoints ++ [endpoint]) =
      if endpoint.address.is4 then
        { EndpointPolicy.of endpoints with v4 := (EndpointPolicy.of endpoints).v4 ++ [endpoint] }
      else
        { EndpointPolicy.of endpoints with
          v6 := (EndpointPolicy.of endpoints).v6 ++ [endpoint] } := by
  cases h : endpoint.address.is4 <;> simp [EndpointPolicy.of, h]

variable {seen seen' endpoints : List EndpointTuple} {policy' : EndpointPolicy}

theorem collectEndpoint_spec {endpoint}
    (hstep : collectEndpoint (seen, .of seen.reverse) endpoint = .ok (seen', policy')) :
    endpoint.admissible = true ∧ policy' = .of seen'.reverse ∧
      ∀ e, e ∈ seen' ↔ e ∈ endpoint :: seen := by
  obtain ⟨u, hadm, hstep⟩ := bind_eq_ok.1 hstep
  refine ⟨by simpa using hadm, ?_⟩
  by_cases hseen : endpoint ∈ seen
  · rw [if_pos hseen] at hstep
    obtain ⟨rfl, rfl⟩ := Prod.mk.inj (pure_eq_ok.1 hstep)
    refine ⟨rfl, fun e => ⟨mem_cons_of_mem endpoint, fun he => ?_⟩⟩
    rcases mem_cons.1 he with rfl | he
    · exact hseen
    · exact he
  · have hnext : (endpoint :: seen, .of (endpoint :: seen).reverse) =
        (seen', policy') := by
      rw [reverse_cons, EndpointPolicy.of_append]
      rw [if_neg hseen] at hstep
      cases h4 : endpoint.address.is4 with
      | true | false => simpa [h4] using hstep
    obtain ⟨rfl, rfl⟩ := Prod.mk.inj hnext
    exact ⟨rfl, fun e => .rfl⟩

theorem collectEndpoints_spec
    (h : endpoints.foldlM collectEndpoint (seen, .of seen.reverse) = .ok (seen', policy')) :
    (∀ e ∈ endpoints, e.admissible = true) ∧ policy' = .of seen'.reverse ∧
      ∀ e, e ∈ seen' ↔ e ∈ endpoints ∨ e ∈ seen := by
  induction endpoints generalizing seen with
  | nil =>
    obtain ⟨rfl, rfl⟩ := Prod.mk.inj (pure_eq_ok.1 h)
    exact ⟨forall_mem_nil _, rfl, fun e => by simp⟩
  | cons endpoint endpoints ih =>
    obtain ⟨⟨seen₁, policy₁⟩, hstep, hrest⟩ := bind_eq_ok.1 h
    obtain ⟨hadm, rfl, hmem⟩ := collectEndpoint_spec hstep
    obtain ⟨hall, hpol, hmem'⟩ := ih hrest
    refine ⟨forall_mem_cons.2 ⟨hadm, hall⟩, hpol, fun e => ?_⟩
    rw [hmem', hmem, mem_cons, mem_cons]
    exact ⟨fun h => by tauto, fun h => by tauto⟩

/-- **What a collected policy is**: its endpoints are those collected, by the version of their
addresses, and every one is admissible. -/
theorem collectPolicy_spec {policy} (h : collectPolicy endpoints = .ok policy) :
    endpoints ≠ [] ∧ (∀ e ∈ endpoints, e.admissible = true) ∧
      (∀ e, e ∈ policy.v4 ↔ e ∈ endpoints ∧ e.address.is4 = true) ∧
      ∀ e, e ∈ policy.v6 ↔ e ∈ endpoints ∧ e.address.is4 = false := by
  obtain ⟨u, hboun, h⟩ := bind_eq_ok.1 h
  obtain ⟨⟨seen, collected⟩, hloop, h⟩ := bind_eq_ok.1 h
  obtain ⟨hall, rfl, hmem⟩ := collectEndpoints_spec hloop
  obtain rfl := pure_eq_ok.1 h
  refine ⟨fun hnil => (failIf_eq_ok.1 hboun) (.inl hnil), hall, fun e => ?_, fun e => ?_⟩ <;>
    simp [sortTuples, EndpointPolicy.of, hmem]

/-! ## The tables -/

def policyOwnerComment : String := "private-vm:session-network-policy:v1"
def policyAuditChain : String := "egress_audit"
def auditForbiddenIPv4 : String := "private-vm:audit:forbidden-ipv4"
def auditForbiddenIPv6 : String := "private-vm:audit:forbidden-ipv6"
def auditForbiddenDNS : String := "private-vm:audit:forbidden-dns"
def auditForbiddenLANIPv4 : String := "private-vm:audit:forbidden-lan-ipv4"
def auditForbiddenLANIPv6 : String := "private-vm:audit:forbidden-lan-ipv6"
def auditUnrelatedPublic : String := "private-vm:audit:unrelated-public"

def EndpointPolicy.ofFamily (policy : EndpointPolicy) : Family → List EndpointTuple
  | .ipv4 => policy.v4
  | .ipv6 => policy.v6

def EndpointPolicy.families (policy : EndpointPolicy) : List Family :=
  [.ipv4, .ipv6].filter fun family => policy.ofFamily family ≠ []

def setName : Family → String
  | .ipv4 => "proton4"
  | .ipv6 => "proton6"

def writeEndpointSet (name : String) (family : Family) (values : List EndpointTuple) :
    EndpointSet :=
  ⟨name, family, values.map fun value => (value.address, value.port)⟩

def writeEndpointSets (policy : EndpointPolicy) : List EndpointSet :=
  policy.families.map fun family =>
    writeEndpointSet (setName family) family (policy.ofFamily family)

def TopologySpec.guestAddress (spec : TopologySpec) : Family → Addr
  | .ipv4 => spec.guestAddress4.addr
  | .ipv6 => spec.guestAddress6.addr

section

variable (spec : TopologySpec) (policy : EndpointPolicy)

/-- The rule for packets from the guest to an endpoint of a version. -/
def endpointRule (interfaces : List Match) (verdict : Verdict) (family : Family) : Rule where
  conditions := interfaces ++
    [.saddr family (spec.guestAddress family), .daddrUdpDport family (setName family)]
  verdict := some verdict

/-- One rule for each version the policy has endpoints of. -/
def endpointRules (interfaces : List Match) (verdict : Verdict) : List Rule :=
  policy.families.map (endpointRule spec interfaces verdict)

def writeEndpointAcceptRules : List Rule :=
  endpointRules spec policy [.iifname [spec.tap], .oifname [spec.namespaceVeth]] .accept

def writeHostEndpointAcceptRules : List Rule :=
  endpointRules spec policy [.iifname [spec.hostVeth]] .accept

def writeMasqueradeRules : List Rule :=
  endpointRules spec policy [.iifname [spec.hostVeth]] .masquerade

def replyRules (interfaces : List Match) : List Rule :=
  [.ipv4, .ipv6].map fun family =>
    { conditions := interfaces ++
        [.daddr family (spec.guestAddress family), .ctState [.established, .related]]
      verdict := some .accept }

/-- Neighbour discovery over one of two interfaces. -/
def neighborRule (interface : Match) : Rule where
  conditions := [interface, .nexthdr .icmpv6, .icmpv6Type [.ndNeighborSolicit, .ndNeighborAdvert]]
  verdict := some .accept

def forbiddenLANIPv4 : List Prefix :=
  [prefixFrom (.v4 0x00000000) 8, prefixFrom (.v4 0x0a000000) 8, prefixFrom (.v4 0x64400000) 10,
   prefixFrom (.v4 0x7f000000) 8, prefixFrom (.v4 0xa9fe0000) 16, prefixFrom (.v4 0xac100000) 12,
   prefixFrom (.v4 0xc0000000) 24, prefixFrom (.v4 0xc0000200) 24, prefixFrom (.v4 0xc0a80000) 16,
   prefixFrom (.v4 0xc6120000) 15, prefixFrom (.v4 0xc6336400) 24, prefixFrom (.v4 0xcb007100) 24,
   prefixFrom (.v4 0xe0000000) 4, prefixFrom (.v4 0xf0000000) 4]

def forbiddenLANIPv6 : List Prefix :=
  [prefixFrom (.v6 0 "") 128, prefixFrom (.v6 1 "") 128,
   prefixFrom (.v6 0x01000000000000000000000000000000 "") 64,
   prefixFrom (.v6 0x20010db8000000000000000000000000 "") 32,
   prefixFrom (.v6 0xfc000000000000000000000000000000 "") 7,
   prefixFrom (.v6 0xfe800000000000000000000000000000 "") 10,
   prefixFrom (.v6 0xff000000000000000000000000000000 "") 8]

/-- The counters of the audit chain. None of them accepts a packet. -/
def auditRules (inputInterface : String) : List Rule :=
  [{ conditions := [.iifname [inputInterface], .nfproto .ipv4], counter := true
     verdict := none, comment := auditForbiddenIPv4 },
   { conditions := [.iifname [inputInterface], .nfproto .ipv6], counter := true
     verdict := none, comment := auditForbiddenIPv6 },
   { conditions := [.iifname [inputInterface], .l4proto [.tcp, .udp], .thDport 53]
     counter := true, verdict := some .return, comment := auditForbiddenDNS },
   { conditions := [.iifname [inputInterface], .daddrIn .ipv4 forbiddenLANIPv4]
     counter := true, verdict := some .return, comment := auditForbiddenLANIPv4 },
   { conditions := [.iifname [inputInterface], .daddrIn .ipv6 forbiddenLANIPv6]
     counter := true, verdict := some .return, comment := auditForbiddenLANIPv6 },
   { conditions := [.iifname [inputInterface]], counter := true
     verdict := none, comment := auditUnrelatedPublic }]

/-- A second forward hook, after the first one of the table. -/
def writeAuditChain (inputInterface : String) : Chain where
  name := policyAuditChain
  type := .filter
  hook := .forward
  priority := { base := .filter, offset := 1 }
  policy := .drop
  rules := endpointRules spec policy [.iifname [inputInterface]] .accept ++
    auditRules inputInterface

def namespaceForward : Chain where
  name := "forward"
  type := .filter
  hook := .forward
  priority := { base := .filter }
  policy := .drop
  rules := replyRules spec [.iifname [spec.namespaceVeth], .oifname [spec.tap]] ++
    writeEndpointAcceptRules spec policy

def namespaceRules : Table where
  name := spec.namespaceTable
  comment := policyOwnerComment
  sets := writeEndpointSets policy
  chains :=
    [{ name := "input", type := .filter, hook := .input, priority := { base := .filter }
       policy := .drop, rules := [neighborRule (.iifname [spec.tap, spec.namespaceVeth])] },
     { name := "output", type := .filter, hook := .output, priority := { base := .filter }
       policy := .drop, rules := [neighborRule (.oifname [spec.tap, spec.namespaceVeth])] },
     namespaceForward spec policy,
     writeAuditChain spec policy spec.tap]

/-- The forward chain of the host: what neither enters nor leaves through the interface of the
session is accepted. -/
def hostForward : Chain where
  name := "forward"
  type := .filter
  hook := .forward
  priority := { base := .filter }
  policy := .accept
  rules := replyRules spec [.oifname [spec.hostVeth]] ++ writeHostEndpointAcceptRules spec policy ++
    [{ conditions := [.iifname [spec.hostVeth]], verdict := some .drop },
     { conditions := [.oifname [spec.hostVeth]], verdict := some .drop }]

def hostRules : Table where
  name := spec.hostTable
  comment := policyOwnerComment
  sets := writeEndpointSets policy
  chains :=
    [hostForward spec policy,
     { name := "postrouting", type := .nat, hook := .postrouting, priority := { base := .nat }
       policy := .accept, rules := writeMasqueradeRules spec policy },
     writeAuditChain spec policy spec.hostVeth]

end

example : (hostForward (topologyOf "0011223344" 1) ⟨[⟨.v4 0xb99f9d01, 51820⟩], []⟩).lines =
    [" chain forward \x7b",
     "  type filter hook forward priority filter; policy accept;",
     "  oifname \"pvh0011223344\" ip daddr 10.240.0.10 ct state \x7b established, related \x7d " ++
       "accept",
     "  oifname \"pvh0011223344\" ip6 daddr fd70:766d:1::2 ct state \x7b established, related " ++
       "\x7d accept",
     "  iifname \"pvh0011223344\" ip saddr 10.240.0.10 ip daddr . udp dport @proton4 accept",
     "  iifname \"pvh0011223344\" drop",
     "  oifname \"pvh0011223344\" drop",
     " \x7d"] := by
  decide +kernel

end PrivateVm.Network
