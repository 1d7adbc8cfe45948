import PrivateVm.Network.Egress
import PrivateVm.Network.Manager
import PrivateVm.Vpn.CurrentPlan

set_option autoImplicit false

/-! # The endpoint that the guest is given

`Create` collects all endpoints of the plan into the policy of the session, and later the guest is
given the first of them; between the two the store can go through any run. A plan is never changed,
only destroyed, so the endpoint of the guest is one that the tables admit
(`guest_endpoint_admitted`).
-/

namespace PrivateVm.Network

open Netip Nft Checked List

/-! ## What is collected -/

variable {contextErr : Nat → Option Fault} {endpoints : List EndpointTuple}
  {policy : EndpointPolicy} {endpoints' : List EndpointTuple} {view : Vpn.View} {codec : Vpn.Codec}
  {w w' : Vpn.World} {e : EndpointTuple}

theorem visitEndpoint_eq_ok {visited}
    (h : visitEndpoint contextErr endpoints visited = .ok endpoints') :
    endpoints' = endpoints ++ [endpointTupleFor visited.1.address visited.1.port] := by
  unfold visitEndpoint at h
  split at h
  · cases h
  · obtain ⟨u, -, h⟩ := bind_eq_ok.1 h
    exact (pure_eq_ok.1 h).symm

theorem visitEndpoints_eq_ok {visited : List (Vpn.ResolvedEndpoint × Nat)}
    (h : visited.foldlM (visitEndpoint contextErr) endpoints = .ok endpoints') :
    endpoints' = endpoints ++ visited.map fun v => endpointTupleFor v.1.address v.1.port := by
  induction visited generalizing endpoints with
  | nil =>
    rw [← pure_eq_ok.1 h]
    simp
  | cons v visited ih =>
    obtain ⟨endpoints₁, hvisit, hrest⟩ := bind_eq_ok.1 h
    rw [ih hrest, visitEndpoint_eq_ok hvisit, map_cons, append_assoc,
      singleton_append]

/-- **The policy of a session** is collected from the endpoints of the plan. -/
theorem sessionPolicy_eq_ok (h : sessionPolicy contextErr view = .ok policy) :
    collectPolicy (view.endpoints.map fun e => ⟨e.address, e.port⟩) = .ok policy := by
  obtain ⟨endpoints, hvisit, hpol⟩ := bind_eq_ok.1 h
  have hall := visitEndpoints_eq_ok hvisit
  rw [nil_append] at hall
  have hsame : view.endpoints.zipIdx.map (fun v => endpointTupleFor v.1.address v.1.port) =
      view.endpoints.map fun e => ⟨e.address, e.port⟩ := by
    conv_rhs => rw [← zipIdx_map_fst 0 view.endpoints]
    rw [map_map]
    rfl
  rwa [← hsame, ← hall]

/-! ## The plan in between -/

/-- Whatever happens to the store, a plan is kept or destroyed. -/
theorem plansKept_leads (h : (Vpn.storeMachine codec).Leads (Machine.free _ _) w w') :
    Vpn.PlansKept w.store w'.store := by
  have hev : Vpn.Evolves w.store w'.store :=
    h.keeps (P := fun w' => Vpn.Evolves w.store w'.store)
      (fun move w₁ _ hw => hw.trans (w₁.step_evolves codec move)) (.refl _)
  exact hev.plans

/-- Two uses of one plan see the same endpoints. -/
theorem endpoints_of_leads {key} {plan : Nat} {contextErr contextErr' view'}
    (hlead : (Vpn.storeMachine codec).Leads (Machine.free _ _) w w')
    (h : w.store.usePlan key plan contextErr = .ok view)
    (h' : w'.store.usePlan key plan contextErr' = .ok view') :
    view'.endpoints = view.endpoints := by
  obtain ⟨-, -, p, -, -, hp, -, -, rfl⟩ := Vpn.usePlan_eq_ok h
  obtain ⟨-, -, p', -, -, hp', hkey', hname, rfl⟩ := Vpn.usePlan_eq_ok h'
  rcases plansKept_leads hlead plan p hp with hkept | hdest
  · rw [hkept, Option.some.injEq] at hp'
    rw [hp']
  · -- a plan that is destroyed has no name
    rw [hdest, Option.some.injEq] at hp'
    rw [← hkey', ← hp'] at hname
    cases hname

/-! ## What the tables admit -/

def familyOf (address : Addr) : Family := if address.is4 then .ipv4 else .ipv6

theorem mem_ofFamily (h : collectPolicy endpoints = .ok policy) (he : e ∈ endpoints) :
    e ∈ policy.ofFamily (familyOf e.address) := by
  obtain ⟨-, -, h4, h6⟩ := collectPolicy_spec h
  cases h4' : e.address.is4 with
  | true =>
    rw [familyOf, h4']
    exact (h4 e).2 ⟨he, h4'⟩
  | false =>
    rw [familyOf, h4']
    exact (h6 e).2 ⟨he, h4'⟩

theorem family_of_destination {p : Packet} {address : Addr} (h : p.destination = address) :
    p.family = familyOf address := by
  rw [← h]
  unfold Packet.destination Packet.family
  cases p.header <;> rfl

/-- The tables of a session let the packets of the guest to an endpoint through. -/
structure Admits (spec : TopologySpec) (policy : EndpointPolicy) (address : Addr) (port : UInt16) :
    Prop where
  namespaceSet : (address, port) ∈
    elements (namespaceRules spec policy).sets (setName (familyOf address))
  hostSet : (address, port) ∈ elements (hostRules spec policy).sets (setName (familyOf address))
  flows : ∀ flow : Packet, flow.source = spec.guestAddress flow.family →
    flow.destination = address → flow.udpDport = some port →
    verdict [namespaceRules spec policy] .forward (flow.between spec.tap spec.namespaceVeth) =
      .accept ∧
    ∀ uplink, verdict [hostRules spec policy] .forward (flow.between spec.hostVeth uplink) = .accept

theorem admits_of_mem {spec : TopologySpec} (h : e ∈ policy.ofFamily (familyOf e.address)) :
    Admits spec policy e.address e.port := by
  have hset : (e.address, e.port) ∈
      elements (writeEndpointSets policy) (setName (familyOf e.address)) := by
    rw [elements_writeEndpointSets]
    exact mem_map_of_mem h
  refine ⟨hset, hset, fun flow hsrc hdest hport => ?_⟩
  have hto (iif oif) : ToEndpoint spec policy (flow.between iif oif) := by
    refine ⟨hsrc, e.port, hport, ?_⟩
    change ⟨flow.destination, e.port⟩ ∈ policy.ofFamily flow.family
    rwa [family_of_destination hdest, hdest]
  constructor
  · refine verdict_eq_accept.2 fun table htab chain hchn hhook => ?_
    rw [mem_singleton.1 htab] at hchn ⊢
    simp only [namespaceRules, mem_cons, not_mem_nil, or_false] at hchn
    rcases hchn with rfl | rfl | rfl | rfl
    · cases hhook
    · cases hhook
    · exact namespaceForward_endpoint rfl rfl (hto _ _)
    · exact audit_verdict.2 ⟨rfl, hto _ _⟩
  · intro uplink
    refine verdict_eq_accept.2 fun table htab chain hchn hhook => ?_
    rw [mem_singleton.1 htab] at hchn ⊢
    simp only [hostRules, mem_cons, not_mem_nil, or_false] at hchn
    rcases hchn with rfl | rfl | rfl
    · exact hostForward_endpoint rfl (hto _ _)
    · cases hhook
    · exact audit_verdict.2 ⟨rfl, hto _ _⟩

/-- **The endpoint of the guest is admitted.** A session has the policy made from a plan, and
later, after any run of the store, its guest is given a configuration from the same plan. The
configuration names the first endpoint of the plan, which is one that the tables of the session
admit. -/
theorem guest_endpoint_admitted {codec : Vpn.Codec} {w w' : Vpn.World} {key : Vpn.ProfileKey}
    {plan : Nat} {contextErr contextErr' : Option Fault} {view view' : Vpn.View}
    {visitErr : Nat → Option Fault} {policy : EndpointPolicy} {text : List Char}
    (hview : w.store.usePlan key plan contextErr = .ok view)
    (hpolicy : sessionPolicy visitErr view = .ok policy)
    (hlead : (Vpn.storeMachine codec).Leads (Machine.free _ _) w w')
    (hview' : w'.store.usePlan key plan contextErr' = .ok view')
    (htext : view'.withGuestConfig = .ok text) (spec : TopologySpec) :
    ∃ p e, view'.profile = some p ∧
      text = (p.configLines e).flatMap (· ++ ['\n']) ∧
      Vpn.writeField .endpoint (Vpn.writeEndpoint e) ∈ p.configLines e ∧
      Admits spec policy e.address e.port := by
  have hsame := endpoints_of_leads hlead hview hview'
  unfold Vpn.View.withGuestConfig at htext
  split at htext
  · cases htext
  rename_i e rest hendp
  simp only [Vpn.withResolvedConfig, bind_eq_ok, ofOption_eq_ok, pure_eq_ok] at htext
  obtain ⟨-, -, p, hp, -, -, -, -, rfl⟩ := htext
  refine ⟨p, e, hp, rfl, by simp [Vpn.Profile.configLines], ?_⟩
  have hmem : (⟨e.address, e.port⟩ : EndpointTuple) ∈
      view.endpoints.map fun e => ⟨e.address, e.port⟩ := by
    rw [← hsame, hendp]
    exact mem_map_of_mem mem_cons_self
  exact admits_of_mem (mem_ofFamily (sessionPolicy_eq_ok hpolicy) hmem)

def samplePlanned : Vpn.World :=
  (Vpn.storeMachine Vpn.sampleCodec).play
    [.resolveBegin Vpn.sampleKey, .lookUp 0 (some Vpn.sampleLookup), .resolveFinish 0 none]
    Vpn.sampleImported

def sampleConfig : List Char :=
  (Vpn.sampleProfile.configLines Vpn.sampleResolved).flatMap (· ++ ['\n'])

/-- In between another owner imports a profile. -/
theorem guest_endpoint_admitted_sample :
    let w := (Vpn.storeMachine Vpn.sampleCodec).step
      (.import ⟨1001, "home".toList⟩ (some Vpn.sampleText.utf8Encode)) samplePlanned
    w.store.usePlan Vpn.sampleKey 0 none =
      .ok ⟨[Vpn.sampleResolved], some Vpn.sampleProfile⟩ ∧
    ∃ p e, some Vpn.sampleProfile = some p ∧
      sampleConfig = (p.configLines e).flatMap (· ++ ['\n']) ∧
      Vpn.writeField .endpoint (Vpn.writeEndpoint e) ∈ p.configLines e ∧
      Admits sampleSpec samplePolicy e.address e.port := by
  intro w
  have huse : samplePlanned.store.usePlan Vpn.sampleKey 0 none =
      .ok ⟨[Vpn.sampleResolved], some Vpn.sampleProfile⟩ := by decide +kernel
  have hlater : w.store.usePlan Vpn.sampleKey 0 none =
      .ok ⟨[Vpn.sampleResolved], some Vpn.sampleProfile⟩ := by
    simp only [w, Vpn.storeMachine, Vpn.World.step, Vpn.Store.import,
      Vpn.parseSecret_eq_ok Vpn.parse_sampleText]
    decide +kernel
  have hpol : sessionPolicy (fun _ => none)
      ⟨[Vpn.sampleResolved], some Vpn.sampleProfile⟩ = .ok samplePolicy := by decide +kernel
  have htext : Vpn.View.withGuestConfig ⟨[Vpn.sampleResolved], some Vpn.sampleProfile⟩ =
      .ok sampleConfig := by decide +kernel
  exact ⟨hlater, guest_endpoint_admitted huse hpol (.single ⟨_, trivial, rfl⟩) hlater htext
    sampleSpec⟩

/-- **A plan belongs to one profile.** After any run of the store nobody but the owner and name it
was used with can use a plan, and a later use sees the same endpoints. -/
theorem plan_bound_to_key {codec : Vpn.Codec} {w w' : Vpn.World} {key key' : Vpn.ProfileKey}
    {plan : Nat} {contextErr contextErr' : Option Fault} {view view' : Vpn.View}
    (hlead : (Vpn.storeMachine codec).Leads (Machine.free _ _) w w')
    (h : w.store.usePlan key plan contextErr = .ok view)
    (h' : w'.store.usePlan key' plan contextErr' = .ok view') :
    key' = key ∧ view'.endpoints = view.endpoints := by
  obtain ⟨-, -, p, -, -, hp, hown, -, -⟩ := Vpn.usePlan_eq_ok h
  obtain ⟨-, -, p', -, -, hp', hown', hname, -⟩ := Vpn.usePlan_eq_ok h'
  obtain rfl : key' = key := by
    rcases plansKept_leads hlead plan p hp with hkept | hdest
    · rw [hkept, Option.some.injEq] at hp'
      rw [← hown, hp', hown']
    · rw [hdest, Option.some.injEq] at hp'
      rw [← hown', ← hp'] at hname
      cases hname
  exact ⟨rfl, endpoints_of_leads hlead h h'⟩

/-- A profile that is not there is removed in between. -/
theorem plan_bound_to_key_later : ∃ view,
    ((Vpn.storeMachine Vpn.sampleCodec).play [.remove ⟨0, []⟩] samplePlanned).store.usePlan
      Vpn.sampleKey 0 none = .ok view ∧ view.endpoints = [Vpn.sampleResolved] := by
  have huse : samplePlanned.store.usePlan Vpn.sampleKey 0 none =
      .ok ⟨[Vpn.sampleResolved], some Vpn.sampleProfile⟩ := by decide +kernel
  exact ⟨_, huse, (plan_bound_to_key (Machine.leads_play_free _ _) huse huse).2⟩

end PrivateVm.Network
