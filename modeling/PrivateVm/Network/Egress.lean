import PrivateVm.Network.Policy

set_option autoImplicit false

/-! # What the tables of a session let through

Each table has two forward chains. The first accepts packets from the guest to an endpoint of
the policy and replies to the guest; the host's also what neither enters nor leaves through the
interface of the session. The second accepts only packets from the guest to an endpoint
(`audit_verdict`). So nothing else leaves the guest (`guest_egress`), but replies and unrelated
packets do not pass either (`replies_dropped`, `unrelated_unchanged`).
-/

namespace PrivateVm.Network

open Netip Nft Checked List

/-! ## Packets from the guest to an endpoint -/

/-- A UDP packet from the address of the guest to an endpoint of the policy. -/
def ToEndpoint (spec : TopologySpec) (policy : EndpointPolicy) (p : Packet) : Prop :=
  p.source = spec.guestAddress p.family ∧
    ∃ port, p.udpDport = some port ∧ ⟨p.destination, port⟩ ∈ policy.ofFamily p.family

section

variable {spec : TopologySpec} {policy : EndpointPolicy} {p : Packet}

theorem elements_writeEndpointSets (policy : EndpointPolicy) (family : Family) :
    elements (writeEndpointSets policy) (setName family) =
      (policy.ofFamily family).map fun e => (e.address, e.port) := by
  unfold writeEndpointSets elements EndpointPolicy.families
  by_cases h4 : policy.v4 = [] <;> by_cases h6 : policy.v6 = [] <;> cases family <;>
    simp [h4, h6, writeEndpointSet, setName, EndpointPolicy.ofFamily]

variable {interfaces : List Match} {rules : List Rule} {otherwise : Policy}
  {sets : List EndpointSet} {tables : List Table} {v : Verdict} {inputInterface : String}

/-- The rule of a version applies to the packets of it from the guest to an endpoint that meet
the conditions on the interfaces. -/
theorem applies_endpointRule {family} :
    (endpointRule spec interfaces v family).applies (writeEndpointSets policy) p = true ↔
      (∀ m ∈ interfaces, m.holds (writeEndpointSets policy) p = true) ∧ p.family = family ∧
        ToEndpoint spec policy p := by
  simp only [Rule.applies_iff, endpointRule, forall_mem_append, forall_mem_cons,
    holds_saddr, holds_daddrUdpDport, elements_writeEndpointSets, mem_map]
  constructor
  · rintro ⟨hifs, ⟨rfl, hsrc⟩, ⟨-, port, hport, ⟨address, port'⟩, he, heq⟩, -⟩
    obtain ⟨rfl, rfl⟩ := Prod.mk.inj heq
    exact ⟨hifs, rfl, hsrc, _, hport, he⟩
  · rintro ⟨hifs, rfl, hsrc, port, hport, he⟩
    exact ⟨hifs, ⟨rfl, hsrc⟩, ⟨rfl, port, hport, _, he, rfl⟩, forall_mem_nil _⟩

/-- The version of a packet to an endpoint is one the policy has endpoints of. -/
theorem ToEndpoint.family_mem (h : ToEndpoint spec policy p) : p.family ∈ policy.families := by
  obtain ⟨-, port, -, he⟩ := h
  refine mem_filter.2 ⟨?_, decide_eq_true (ne_nil_of_mem he)⟩
  cases p.family <;> simp

/-- The endpoint rules accept the packets from the guest to an endpoint that meet the
conditions on the interfaces. -/
theorem evaluate_endpointRules_accept
    (hifs : ∀ m ∈ interfaces, m.holds (writeEndpointSets policy) p = true)
    (h : ToEndpoint spec policy p) : evaluate (writeEndpointSets policy) p otherwise
      (endpointRules spec policy interfaces .accept ++ rules) = .accept := by
  refine evaluate_append_accept ?_ ?_
  · intro rule hrule
    obtain ⟨family, -, rfl⟩ := mem_map.1 hrule
    rfl
  · exact ⟨_, mem_map_of_mem h.family_mem, applies_endpointRule.2 ⟨hifs, rfl, h⟩⟩

/-- They leave the other packets to the rules that follow. -/
theorem evaluate_endpointRules_skip
    (h : ¬ ((∀ m ∈ interfaces, m.holds (writeEndpointSets policy) p = true) ∧
      ToEndpoint spec policy p)) : evaluate (writeEndpointSets policy) p otherwise
        (endpointRules spec policy interfaces v ++ rules) =
      evaluate (writeEndpointSets policy) p otherwise rules := by
  refine evaluate_append_skip fun rule hrule => Bool.eq_false_iff.2 fun happ => h ?_
  obtain ⟨family, -, rfl⟩ := mem_map.1 hrule
  obtain ⟨hifs, -, hto⟩ := applies_endpointRule.1 happ
  exact ⟨hifs, hto⟩

/-! ## The audit chain -/

/-- **The audit chain** accepts the packets that enter through its interface from the guest to an
endpoint, and no others. -/
theorem audit_verdict :
    (writeAuditChain spec policy inputInterface).verdict (writeEndpointSets policy) p = .accept ↔
      p.iifname = inputInterface ∧ ToEndpoint spec policy p := by
  have hifs : (∀ m ∈ [Match.iifname [inputInterface]],
      m.holds (writeEndpointSets policy) p = true) ↔ p.iifname = inputInterface := by simp
  unfold Chain.verdict writeAuditChain
  constructor
  · intro h
    by_contra hnot
    rw [← hifs] at hnot
    rw [evaluate_endpointRules_skip hnot] at h
    -- none of the rules that count accepts
    obtain ⟨rule, hrule, -, hverd⟩ := exists_rule_of_accept h
    have hcoun : ∀ r ∈ auditRules inputInterface,
        r.verdict ≠ some .accept ∧ r.verdict ≠ some .masquerade := by simp [auditRules]
    exact hverd.elim (hcoun rule hrule).1 (hcoun rule hrule).2
  · rintro ⟨hiif, hto⟩
    exact evaluate_endpointRules_accept (hifs.2 hiif) hto

/-! ## Replies to the guest -/

/-- A packet of a connection that the guest has opened, to the address of the guest. -/
def ToGuest (spec : TopologySpec) (p : Packet) : Prop :=
  p.destination = spec.guestAddress p.family ∧
    (p.ctState = .established ∨ p.ctState = .related)

theorem applies_replyRules : (∃ rule ∈ replyRules spec interfaces, rule.applies sets p = true) ↔
      (∀ m ∈ interfaces, m.holds sets p = true) ∧ ToGuest spec p := by
  simp only [replyRules, mem_map, exists_exists_and_eq_and, Rule.applies_iff,
    forall_mem_append, forall_mem_cons, holds_daddr]
  constructor
  · rintro ⟨family, -, hifs, ⟨rfl, hdest⟩, hst, -⟩
    exact ⟨hifs, hdest, by simpa using hst⟩
  · rintro ⟨hifs, hdest, hst⟩
    refine ⟨p.family, by cases p.family <;> simp, hifs, ⟨rfl, hdest⟩, ?_, forall_mem_nil _⟩
    simpa using hst

theorem replyRules_accept : ∀ rule ∈ replyRules spec interfaces, rule.verdict = some .accept := by
  simp [replyRules]

/-! ## The first forward chains -/

/-- Where the reply rules come first, they accept the replies to the guest. -/
theorem evaluate_replyRules_accept (hifs : ∀ m ∈ interfaces, m.holds sets p = true)
    (h : ToGuest spec p) :
    evaluate sets p otherwise (replyRules spec interfaces ++ rules) = .accept :=
  evaluate_append_accept replyRules_accept (applies_replyRules.2 ⟨hifs, h⟩)

/-- What follows the reply rules accepts a packet only where the whole does. -/
theorem evaluate_replyRules_append (h : evaluate sets p otherwise rules = .accept) :
    evaluate sets p otherwise (replyRules spec interfaces ++ rules) = .accept := by
  by_cases hreply : ∃ rule ∈ replyRules spec interfaces, rule.applies sets p = true
  · exact evaluate_append_accept replyRules_accept hreply
  · rwa [evaluate_append_skip fun rule hrule => Bool.eq_false_iff.2 fun happ =>
      hreply ⟨rule, hrule, happ⟩]

theorem namespaceForward_reply (hiif : p.iifname = spec.namespaceVeth) (hoif : p.oifname = spec.tap)
    (h : ToGuest spec p) :
    (namespaceForward spec policy).verdict (writeEndpointSets policy) p = .accept :=
  evaluate_replyRules_accept (by simp [hiif, hoif]) h

theorem namespaceForward_endpoint (hiif : p.iifname = spec.tap)
    (hoif : p.oifname = spec.namespaceVeth) (h : ToEndpoint spec policy p) :
    (namespaceForward spec policy).verdict (writeEndpointSets policy) p = .accept := by
  refine evaluate_replyRules_append ?_
  rw [← append_nil (writeEndpointAcceptRules spec policy)]
  exact evaluate_endpointRules_accept (by simp [hiif, hoif]) h

theorem hostForward_reply (hoif : p.oifname = spec.hostVeth) (h : ToGuest spec p) :
    (hostForward spec policy).verdict (writeEndpointSets policy) p = .accept :=
  evaluate_replyRules_accept (by simp [hoif]) h

theorem hostForward_endpoint (hiif : p.iifname = spec.hostVeth) (h : ToEndpoint spec policy p) :
    (hostForward spec policy).verdict (writeEndpointSets policy) p = .accept :=
  evaluate_replyRules_append (evaluate_endpointRules_accept (by simp [hiif]) h)

/-! ## What passes the forward hooks -/

/-- The audit chain of a table decides alone what does not pass. -/
theorem verdict_of_audit {table} (htab : table ∈ tables)
    (hsets : table.sets = writeEndpointSets policy)
    (haudit : writeAuditChain spec policy inputInterface ∈ table.chains)
    (h : verdict tables .forward p = .accept) :
    p.iifname = inputInterface ∧ ToEndpoint spec policy p := by
  have hacc := verdict_eq_accept.1 h table htab _ haudit rfl
  rw [hsets] at hacc
  exact audit_verdict.1 hacc

theorem namespace_accept (htab : namespaceRules spec policy ∈ tables)
    (h : verdict tables .forward p = .accept) : p.iifname = spec.tap ∧ ToEndpoint spec policy p :=
  verdict_of_audit htab rfl (by simp [namespaceRules]) h

theorem host_accept (htab : hostRules spec policy ∈ tables)
    (h : verdict tables .forward p = .accept) :
    p.iifname = spec.hostVeth ∧ ToEndpoint spec policy p :=
  verdict_of_audit htab rfl (by simp [hostRules]) h

end

/-! ## Egress of the guest -/

/-- **What leaves the guest.** A packet that enters a forward hook from the side of the guest and
passes it is UDP, from the address of the guest to an endpoint of the policy, which is one of
those collected. -/
theorem guest_egress {spec : TopologySpec} {endpoints : List EndpointTuple}
    {policy : EndpointPolicy} (hpolicy : collectPolicy endpoints = .ok policy)
    {tables : List Table} {p : Packet}
    (hside : p.iifname = spec.tap ∧ namespaceRules spec policy ∈ tables ∨
      p.iifname = spec.hostVeth ∧ hostRules spec policy ∈ tables)
    (haccept : verdict tables .forward p = .accept) :
    p.source = spec.guestAddress p.family ∧
      ∃ port, p.udpDport = some port ∧ ⟨p.destination, port⟩ ∈ policy.ofFamily p.family ∧
        ⟨p.destination, port⟩ ∈ endpoints := by
  have hto : ToEndpoint spec policy p := by
    rcases hside with ⟨-, htab⟩ | ⟨-, htab⟩
    · exact (namespace_accept htab haccept).2
    · exact (host_accept htab haccept).2
  obtain ⟨hsrc, port, hport, he⟩ := hto
  obtain ⟨-, -, h4, h6⟩ := collectPolicy_spec hpolicy
  refine ⟨hsrc, port, hport, he, ?_⟩
  cases hfam : p.family with
  | ipv4 =>
    rw [hfam] at he
    exact ((h4 _).1 he).1
  | ipv6 =>
    rw [hfam] at he
    exact ((h6 _).1 he).1

def sampleHash : Hash := fun _ => Vector.replicate 32 7
def sampleSpec : TopologySpec := candidateFor sampleHash "session" 0
def sampleEndpoint : EndpointTuple := ⟨.v4 0xb99f9d01, 51820⟩
def samplePolicy : EndpointPolicy := ⟨[sampleEndpoint], []⟩

def samplePacket : Packet where
  iifname := sampleSpec.tap
  oifname := sampleSpec.namespaceVeth
  header := .ipv4 0x0af0383a 0xb99f9d01
  payload := .udp 40000 51820
  ctState := .new

theorem guest_egress_sample :
    verdict [namespaceRules sampleSpec samplePolicy] .forward samplePacket = .accept ∧
      samplePacket.source = sampleSpec.guestAddress samplePacket.family ∧
      ∃ port, samplePacket.udpDport = some port ∧
        ⟨samplePacket.destination, port⟩ ∈ samplePolicy.ofFamily samplePacket.family ∧
        ⟨samplePacket.destination, port⟩ ∈ [sampleEndpoint] := by
  have hacc : verdict [namespaceRules sampleSpec samplePolicy] .forward samplePacket =
      .accept := by decide +kernel
  exact ⟨hacc, guest_egress (by decide +kernel) (.inl ⟨rfl, mem_singleton.2 rfl⟩) hacc⟩

/-! ## Replies to the guest -/

/-- A packet of the other direction of a flow of the guest. -/
def Replies (flow reply : Packet) : Prop :=
  reply.family = flow.family ∧ reply.source = flow.destination ∧
    reply.destination = flow.source ∧
    (reply.ctState = .established ∨ reply.ctState = .related)

theorem tap_ne_namespaceVeth (suffix : String) (slot : UInt16) :
    (topologyOf suffix slot).tap ≠ (topologyOf suffix slot).namespaceVeth := by
  intro h
  have hlist := congrArg String.toList h
  simp [topologyOf] at hlist

section

variable {sha256 : Hash} {sessionID : String} {attempt : UInt8} {policy : EndpointPolicy}
  {flow reply : Packet} {uplink : String}

/-- **Replies do not get through.** For every flow of the guest that both forward hooks admit,
the first forward chains of both tables accept a reply, and both hooks drop it all the same: the
audit chains have no rule for replies. -/
theorem replies_dropped
    (huplink : uplink ≠ (candidateFor sha256 sessionID attempt).hostVeth)
    (hreply : Replies flow reply) :
    let spec := candidateFor sha256 sessionID attempt
    verdict [namespaceRules spec policy] .forward (flow.between spec.tap spec.namespaceVeth) =
      .accept →
    verdict [hostRules spec policy] .forward (flow.between spec.hostVeth uplink) = .accept →
    (namespaceForward spec policy).verdict (writeEndpointSets policy)
        (reply.between spec.namespaceVeth spec.tap) = .accept ∧
      (hostForward spec policy).verdict (writeEndpointSets policy)
        (reply.between uplink spec.hostVeth) = .accept ∧
      verdict [namespaceRules spec policy] .forward (reply.between spec.namespaceVeth spec.tap) =
        .drop ∧
      verdict [hostRules spec policy] .forward (reply.between uplink spec.hostVeth) = .drop := by
  intro spec hflow _
  have hsrc : flow.source = spec.guestAddress flow.family :=
    (namespace_accept (mem_singleton.2 rfl) hflow).2.1
  have hguest (iif oif) : ToGuest spec (reply.between iif oif) := by
    refine ⟨?_, hreply.2.2.2⟩
    calc reply.destination = flow.source := hreply.2.2.1
      _ = spec.guestAddress flow.family := hsrc
      _ = spec.guestAddress reply.family := by rw [hreply.1]
  refine ⟨namespaceForward_reply rfl rfl (hguest _ _), hostForward_reply rfl (hguest _ _), ?_, ?_⟩
  · cases hverd : verdict [namespaceRules spec policy] .forward
      (reply.between spec.namespaceVeth spec.tap) with
    | drop => rfl
    | accept =>
      have hiif := (namespace_accept (mem_singleton.2 rfl) hverd).1
      exact absurd hiif.symm (tap_ne_namespaceVeth _ _)
  · cases hverd : verdict [hostRules spec policy] .forward
      (reply.between uplink spec.hostVeth) with
    | drop => rfl
    | accept => exact absurd (host_accept (mem_singleton.2 rfl) hverd).1 huplink

end

def sampleReply : Packet where
  iifname := "eth0"
  oifname := sampleSpec.hostVeth
  header := .ipv4 0xb99f9d01 0x0af0383a
  payload := .udp 51820 40000
  ctState := .established

theorem replies_dropped_sample :
    verdict [namespaceRules sampleSpec samplePolicy] .forward
        (sampleReply.between sampleSpec.namespaceVeth sampleSpec.tap) = .drop ∧
      verdict [hostRules sampleSpec samplePolicy] .forward
        (sampleReply.between "eth0" sampleSpec.hostVeth) = .drop :=
  (@replies_dropped sampleHash "session" 0 samplePolicy samplePacket sampleReply "eth0"
    (by decide +kernel) ⟨rfl, rfl, rfl, .inl rfl⟩ (by decide +kernel) (by decide +kernel)).2.2

/-- The packet leaves the guest and the reply to it does not get back. -/
theorem reply_lost :
    collectPolicy [sampleEndpoint] = .ok samplePolicy ∧ Replies samplePacket sampleReply ∧
      verdict [namespaceRules sampleSpec samplePolicy] .forward
        (samplePacket.between sampleSpec.tap sampleSpec.namespaceVeth) = .accept ∧
      verdict [hostRules sampleSpec samplePolicy] .forward
        (samplePacket.between sampleSpec.hostVeth "eth0") = .accept ∧
      verdict [hostRules sampleSpec samplePolicy] .forward
        (sampleReply.between "eth0" sampleSpec.hostVeth) = .drop := by
  refine ⟨?_, ⟨rfl, rfl, rfl, .inl rfl⟩, ?_, ?_, ?_⟩ <;> decide +kernel

/-! ## Unrelated packets -/

/-- The audit chain of a session on the host drops what does not enter through its interface. -/
theorem host_drop {spec policy tables p} (htab : hostRules spec policy ∈ tables)
    (hiif : p.iifname ≠ spec.hostVeth) : verdict tables .forward p = .drop :=
  Policy.ne_accept.1 fun h => hiif (host_accept htab h).1

/-- **Unrelated packets of the host.** The table of a session leaves the verdict on a packet that
does not enter through the interface of the session as it was only where a chain of another table
drops the packet anyway. -/
theorem unrelated_unchanged {spec : TopologySpec} {policy : EndpointPolicy}
    {before after : List Table} {p : Packet} (hiif : p.iifname ≠ spec.hostVeth) :
    verdict (before ++ hostRules spec policy :: after) .forward p =
        verdict (before ++ after) .forward p ↔
      ∃ table ∈ before ++ after, ∃ chain ∈ table.chains,
        chain.hook = .forward ∧ chain.verdict table.sets p = .drop := by
  have htab : hostRules spec policy ∈ before ++ hostRules spec policy :: after := by simp
  rw [host_drop htab hiif, ← verdict_eq_drop]
  exact eq_comm

def otherSpec : TopologySpec := candidateFor (fun _ => Vector.replicate 32 8) "other" 0

/-- A packet between two other interfaces, where two sessions are live. -/
theorem unrelated_unchanged_sample :
    verdict ([] ++ hostRules otherSpec samplePolicy :: [hostRules sampleSpec samplePolicy]) .forward
        (samplePacket.between "eth0" "eth1") =
      verdict ([] ++ [hostRules sampleSpec samplePolicy]) .forward
        (samplePacket.between "eth0" "eth1") :=
  (unrelated_unchanged (by decide +kernel)).2 (by decide +kernel)

/-- The table of a second session drops what the first session sends to its endpoint, and what
the host forwards on its own account. -/
theorem unrelated_dropped :
    sampleSpec.hostVeth ≠ otherSpec.hostVeth ∧
      verdict [hostRules sampleSpec samplePolicy] .forward
        (samplePacket.between sampleSpec.hostVeth "eth0") = .accept ∧
      verdict [hostRules otherSpec samplePolicy, hostRules sampleSpec samplePolicy] .forward
        (samplePacket.between sampleSpec.hostVeth "eth0") = .drop ∧
      verdict [] .forward (samplePacket.between "eth0" "eth1") = .accept ∧
      verdict [hostRules otherSpec samplePolicy] .forward
        (samplePacket.between "eth0" "eth1") = .drop := by
  refine ⟨?_, ?_, ?_, ?_, ?_⟩ <;> decide +kernel

end PrivateVm.Network
