import PrivateVm.Basic.Netip
import Mathlib.Data.List.Sort

set_option autoImplicit false

/-! # Packet filters

Tables of base chains as `nft` reads and prints them, and what they do with a packet. The first
rule of a chain whose conditions all hold and that has a verdict decides. A packet passes a hook
only if every chain accepts it (`verdict_eq_accept`). Loading a table adds to what a table of that
name holds already (`load`).
-/

namespace Nft

open Netip

/-! ## Packets -/

inductive Family where
  | ipv4
  | ipv6
  deriving DecidableEq

inductive Header where
  | ipv4 (saddr daddr : BitVec 32)
  | ipv6 (saddr daddr : BitVec 128)
  deriving DecidableEq

inductive Payload where
  | tcp (sport dport : UInt16)
  | udp (sport dport : UInt16)
  | icmpv6 (type : UInt8)
  | other
  deriving DecidableEq

/-- What connection tracking makes of a packet. -/
inductive CtState where
  | invalid
  | new
  | established
  | related
  | untracked
  deriving DecidableEq

structure Packet where
  iifname : String
  oifname : String
  header : Header
  payload : Payload
  ctState : CtState
  deriving DecidableEq

namespace Packet

def family (p : Packet) : Family :=
  match p.header with
  | .ipv4 _ _ => .ipv4
  | .ipv6 _ _ => .ipv6

def source (p : Packet) : Addr :=
  match p.header with
  | .ipv4 saddr _ => .v4 saddr
  | .ipv6 saddr _ => .v6 saddr ""

def destination (p : Packet) : Addr :=
  match p.header with
  | .ipv4 _ daddr => .v4 daddr
  | .ipv6 _ daddr => .v6 daddr ""

def udpDport (p : Packet) : Option UInt16 :=
  match p.payload with
  | .udp _ dport => some dport
  | _ => none

/-- The destination port of either protocol that has one. -/
def thDport (p : Packet) : Option UInt16 :=
  match p.payload with
  | .tcp _ dport | .udp _ dport => some dport
  | _ => none

/-- The packet on its way from one interface to another. -/
def between (p : Packet) (iifname oifname : String) : Packet :=
  { p with iifname := iifname, oifname := oifname }

end Packet

/-! ## Rules -/

inductive L4Proto where
  | tcp
  | udp
  | icmpv6
  deriving DecidableEq

def Packet.l4proto (p : Packet) : Option L4Proto :=
  match p.payload with
  | .tcp _ _ => some .tcp
  | .udp _ _ => some .udp
  | .icmpv6 _ => some .icmpv6
  | .other => none

inductive Icmpv6Type where
  | ndNeighborSolicit
  | ndNeighborAdvert
  deriving DecidableEq

def Icmpv6Type.number : Icmpv6Type → UInt8
  | .ndNeighborSolicit => 135
  | .ndNeighborAdvert => 136

/-- What a rule asks of a packet. `daddrUdpDport` looks an address and a port up in a set. -/
inductive Match where
  | iifname (names : List String)
  | oifname (names : List String)
  | nfproto (family : Family)
  | saddr (family : Family) (address : Addr)
  | daddr (family : Family) (address : Addr)
  | daddrIn (family : Family) (networks : List Prefix)
  | daddrUdpDport (family : Family) (set : String)
  | udpDport (port : UInt16)
  | thDport (port : UInt16)
  | l4proto (protocols : List L4Proto)
  | nexthdr (protocol : L4Proto)
  | icmpv6Type (types : List Icmpv6Type)
  | ctState (states : List CtState)

inductive Verdict where
  | accept
  | drop
  | «return»
  | masquerade
  deriving DecidableEq

structure Rule where
  conditions : List Match
  counter : Bool := false
  verdict : Option Verdict
  comment : Option String := none

structure EndpointSet where
  name : String
  family : Family
  elements : List (Addr × UInt16)

inductive Policy where
  | accept
  | drop
  deriving DecidableEq

inductive ChainType where
  | filter
  | nat
  deriving DecidableEq

inductive Hook where
  | input
  | forward
  | output
  | postrouting
  deriving DecidableEq

/-- A standard priority and what is added to it. -/
structure Priority where
  base : ChainType
  offset : Nat := 0
  deriving DecidableEq

/-- The standard priorities are called `filter` and `srcnat`. -/
def Priority.value (priority : Priority) : Nat :=
  (match priority.base with
    | .filter => 0
    | .nat => 100) + priority.offset

structure Chain where
  name : String
  type : ChainType
  hook : Hook
  priority : Priority
  policy : Policy
  rules : List Rule

structure Table where
  name : String
  comment : Option String := none
  sets : List EndpointSet := []
  chains : List Chain

/-! ## The text of a table -/

def quoted (s : String) : String := "\"" ++ s ++ "\""

def oneOrMore : List String → String
  | [value] => value
  | values => "\x7b " ++ ", ".intercalate values ++ " \x7d"

def Family.header : Family → String
  | .ipv4 => "ip"
  | .ipv6 => "ip6"

def Family.name : Family → String
  | .ipv4 => "ipv4"
  | .ipv6 => "ipv6"

def L4Proto.name : L4Proto → String
  | .tcp => "tcp"
  | .udp => "udp"
  | .icmpv6 => "ipv6-icmp"

def Icmpv6Type.name : Icmpv6Type → String
  | .ndNeighborSolicit => "nd-neighbor-solicit"
  | .ndNeighborAdvert => "nd-neighbor-advert"

def CtState.name : CtState → String
  | .invalid => "invalid"
  | .new => "new"
  | .established => "established"
  | .related => "related"
  | .untracked => "untracked"

def Match.text : Match → String
  | .iifname names => "iifname " ++ oneOrMore (names.map quoted)
  | .oifname names => "oifname " ++ oneOrMore (names.map quoted)
  | .nfproto family => "meta nfproto " ++ family.name
  | .saddr family address => family.header ++ " saddr " ++ String.ofList address.text
  | .daddr family address => family.header ++ " daddr " ++ String.ofList address.text
  | .daddrIn family networks =>
    family.header ++ " daddr " ++ oneOrMore (networks.map fun n => String.ofList n.text)
  | .daddrUdpDport family set => family.header ++ " daddr . udp dport @" ++ set
  | .udpDport port => "udp dport " ++ toString port.toNat
  | .thDport port => "th dport " ++ toString port.toNat
  | .l4proto protocols => "meta l4proto " ++ oneOrMore (protocols.map L4Proto.name)
  | .nexthdr .icmpv6 => "ip6 nexthdr icmpv6"
  | .nexthdr protocol => "ip6 nexthdr " ++ protocol.name
  | .icmpv6Type types => "icmpv6 type " ++ oneOrMore (types.map Icmpv6Type.name)
  | .ctState states => "ct state " ++ oneOrMore (states.map CtState.name)

def Verdict.name : Verdict → String
  | .accept => "accept"
  | .drop => "drop"
  | .return => "return"
  | .masquerade => "masquerade"

def commentText (comment : Option String) : List String :=
  (comment.map fun c => "comment " ++ quoted c).toList

def Rule.text (rule : Rule) : String :=
  " ".intercalate (rule.conditions.map Match.text ++ (if rule.counter then ["counter"] else []) ++
    (rule.verdict.map Verdict.name).toList ++ commentText rule.comment)

def EndpointSet.text (set : EndpointSet) : String :=
  "set " ++ set.name ++ " \x7b type " ++ set.family.name ++ "_addr . inet_service; elements = " ++
    "\x7b " ++ ", ".intercalate (set.elements.map fun element =>
      String.ofList element.1.text ++ " . " ++ toString element.2.toNat) ++ " \x7d \x7d"

def Policy.name : Policy → String
  | .accept => "accept"
  | .drop => "drop"

def ChainType.name : ChainType → String
  | .filter => "filter"
  | .nat => "nat"

def Hook.name : Hook → String
  | .input => "input"
  | .forward => "forward"
  | .output => "output"
  | .postrouting => "postrouting"

def Priority.text (priority : Priority) : String :=
  (match priority.base with
    | .filter => "filter"
    | .nat => "srcnat") ++
    if priority.offset = 0 then "" else " + " ++ toString priority.offset

def Chain.heading (chain : Chain) : String :=
  "type " ++ chain.type.name ++ " hook " ++ chain.hook.name ++ " priority " ++
    chain.priority.text ++ "; policy " ++ chain.policy.name ++ ";"

/-- A chain without rules stands on one line. -/
def Chain.lines (chain : Chain) : List String :=
  if chain.rules.isEmpty then
    [" chain " ++ chain.name ++ " \x7b " ++ chain.heading ++ " \x7d"]
  else
    [" chain " ++ chain.name ++ " \x7b", "  " ++ chain.heading] ++
      chain.rules.map (fun rule => "  " ++ rule.text) ++ [" \x7d"]

def Table.lines (table : Table) : List String :=
  ["table inet " ++ table.name ++ " \x7b"] ++ (commentText table.comment).map (" " ++ ·) ++
    table.sets.map (fun set => " " ++ set.text) ++ table.chains.flatMap Chain.lines ++ ["\x7d"]

/-! ## The verdict on a packet -/

def elements (sets : List EndpointSet) (name : String) : List (Addr × UInt16) :=
  (sets.filter (·.name = name)).flatMap EndpointSet.elements

def Match.holds (sets : List EndpointSet) (p : Packet) : Match → Bool
  | .iifname names => p.iifname ∈ names
  | .oifname names => p.oifname ∈ names
  | .nfproto family => p.family = family
  | .saddr family address => p.family = family && p.source = address
  | .daddr family address => p.family = family && p.destination = address
  | .daddrIn family networks => p.family = family && networks.any (·.contains p.destination)
  | .daddrUdpDport family set =>
    p.family = family && p.udpDport.any fun port => (p.destination, port) ∈ elements sets set
  | .udpDport port => p.udpDport = some port
  | .thDport port => p.thDport = some port
  | .l4proto protocols => p.l4proto.any (· ∈ protocols)
  | .nexthdr protocol => p.family = .ipv6 && p.l4proto = some protocol
  | .icmpv6Type types =>
    p.family = .ipv6 && match p.payload with
      | .icmpv6 type => types.any (·.number = type)
      | _ => false
  | .ctState states => p.ctState ∈ states

def Rule.applies (sets : List EndpointSet) (p : Packet) (rule : Rule) : Bool :=
  rule.conditions.all (·.holds sets p)

/-- What the rules of a base chain decide. -/
def evaluate (sets : List EndpointSet) (p : Packet) (policy : Policy) : List Rule → Policy
  | [] => policy
  | rule :: rules =>
    if rule.applies sets p then
      match rule.verdict with
      | some .accept | some .masquerade => .accept
      | some .drop => .drop
      | some .return => policy
      | none => evaluate sets p policy rules
    else evaluate sets p policy rules

def Chain.verdict (sets : List EndpointSet) (p : Packet) (chain : Chain) : Policy :=
  evaluate sets p chain.policy chain.rules

/-- The base chains of a hook, each with the sets of its table, in the order they run. -/
def baseChains (tables : List Table) (hook : Hook) : List (List EndpointSet × Chain) :=
  (tables.flatMap fun table =>
    (table.chains.filter (·.hook = hook)).map fun chain => (table.sets, chain)).insertionSort
      fun a b => a.2.priority.value ≤ b.2.priority.value

/-- One chain after the other, until one drops the packet. -/
def traverse (p : Packet) : List (List EndpointSet × Chain) → Policy
  | [] => .accept
  | (sets, chain) :: rest =>
    match chain.verdict sets p with
    | .drop => .drop
    | .accept => traverse p rest

def verdict (tables : List Table) (hook : Hook) (p : Packet) : Policy :=
  traverse p (baseChains tables hook)

/-! ## When a rule applies -/

section

variable {sets : List EndpointSet} {p : Packet}

theorem Rule.applies_iff {rule : Rule} :
    rule.applies sets p = true ↔ ∀ m ∈ rule.conditions, m.holds sets p = true :=
  List.all_eq_true

variable {names : List String} {address : Addr}

@[simp] theorem holds_iifname : (Match.iifname names).holds sets p = true ↔ p.iifname ∈ names :=
  decide_eq_true_iff

@[simp] theorem holds_oifname : (Match.oifname names).holds sets p = true ↔ p.oifname ∈ names :=
  decide_eq_true_iff

variable {family : Family}

@[simp] theorem holds_saddr : (Match.saddr family address).holds sets p = true ↔
      p.family = family ∧ p.source = address := by
  simp [Match.holds]

@[simp] theorem holds_daddr : (Match.daddr family address).holds sets p = true ↔
      p.family = family ∧ p.destination = address := by
  simp [Match.holds]

@[simp] theorem holds_daddrUdpDport {set} :
    (Match.daddrUdpDport family set).holds sets p = true ↔
      p.family = family ∧
        ∃ port, p.udpDport = some port ∧ (p.destination, port) ∈ elements sets set := by
  simp [Match.holds, Option.any_eq_true]

@[simp] theorem holds_udpDport {port} :
    (Match.udpDport port).holds sets p = true ↔ p.udpDport = some port :=
  decide_eq_true_iff

theorem holds_icmpv6Type {types : List Icmpv6Type} :
    (Match.icmpv6Type types).holds sets p = true ↔
      p.family = .ipv6 ∧ ∃ type ∈ types, p.payload = .icmpv6 type.number := by
  cases hpay : p.payload with
  | icmpv6 type => simp [Match.holds, hpay, @eq_comm _ type]
  | _ => simp [Match.holds, hpay]

@[simp] theorem holds_ctState {states} :
    (Match.ctState states).holds sets p = true ↔ p.ctState ∈ states :=
  decide_eq_true_iff

end

/-! ## What a chain decides -/

section

variable {sets : List EndpointSet} {p : Packet} {policy : Policy} {rule : Rule} {rules : List Rule}

theorem evaluate_skip (h : rule.applies sets p = false) :
    evaluate sets p policy (rule :: rules) = evaluate sets p policy rules := by
  rw [evaluate, h]
  rfl

theorem evaluate_accept (h : rule.applies sets p = true) (hverd : rule.verdict = some .accept) :
    evaluate sets p policy (rule :: rules) = .accept := by
  rw [evaluate, h, hverd]
  rfl

variable {before : List Rule}

/-- Rules that do not apply are passed over. -/
theorem evaluate_append_skip (h : ∀ r ∈ before, r.applies sets p = false) :
    evaluate sets p policy (before ++ rules) = evaluate sets p policy rules := by
  induction before with
  | nil => rfl
  | cons r before ih =>
    rw [List.cons_append, evaluate_skip (h r List.mem_cons_self)]
    exact ih fun r' hr' => h r' (List.mem_cons_of_mem r hr')

/-- Of rules that all accept, one that applies is enough. -/
theorem evaluate_append_accept (hall : ∀ r ∈ before, r.verdict = some .accept)
    (h : ∃ r ∈ before, r.applies sets p = true) :
    evaluate sets p policy (before ++ rules) = .accept := by
  induction before with
  | nil =>
    obtain ⟨r, hr, -⟩ := h
    cases hr
  | cons r before ih =>
    obtain ⟨hacc, hall⟩ := List.forall_mem_cons.1 hall
    rw [List.cons_append]
    by_cases happ : r.applies sets p = true
    · exact evaluate_accept happ hacc
    rw [evaluate_skip (Bool.eq_false_iff.2 happ)]
    apply ih hall
    obtain ⟨r', hr', happ'⟩ := h
    rcases List.mem_cons.1 hr' with rfl | hr'
    · exact absurd happ' happ
    · exact ⟨r', hr', happ'⟩

/-- Where an accepted packet is not left to the policy, a rule has accepted it. -/
theorem exists_rule_of_accept (h : evaluate sets p .drop rules = .accept) :
    ∃ r ∈ rules, r.applies sets p = true ∧
      (r.verdict = some .accept ∨ r.verdict = some .masquerade) := by
  induction rules with
  | nil => cases h
  | cons r rules ih =>
    have hlater (hrest : evaluate sets p .drop rules = .accept) :
        ∃ r' ∈ r :: rules, r'.applies sets p = true ∧
          (r'.verdict = some .accept ∨ r'.verdict = some .masquerade) := by
      obtain ⟨r', hr', happ⟩ := ih hrest
      exact ⟨r', List.mem_cons_of_mem r hr', happ⟩
    by_cases happ : r.applies sets p = true
    · rw [evaluate, if_pos happ] at h
      split at h
      · rename_i hverd
        exact ⟨r, List.mem_cons_self, happ, .inl hverd⟩
      · rename_i hverd
        exact ⟨r, List.mem_cons_self, happ, .inr hverd⟩
      · cases h
      · cases h
      · exact hlater h
    · rw [evaluate_skip (Bool.eq_false_iff.2 happ)] at h
      exact hlater h

end

/-! ## What a hook decides -/

variable {p : Packet} {tables : List Table} {hook : Hook}

theorem traverse_eq_accept {chains} :
    traverse p chains = .accept ↔ ∀ c ∈ chains, c.2.verdict c.1 p = .accept := by
  induction chains with
  | nil => simp [traverse]
  | cons c chains ih =>
    rw [traverse, List.forall_mem_cons]
    cases hverd : c.2.verdict c.1 p with
    | accept => simp [ih]
    | drop => simp

theorem mem_baseChains {c} : c ∈ baseChains tables hook ↔
      ∃ table ∈ tables, ∃ chain ∈ table.chains, chain.hook = hook ∧ c = (table.sets, chain) := by
  rw [baseChains]
  simp
  constructor
  · rintro ⟨table, htab, chain, ⟨hchn, hhook⟩, rfl⟩
    exact ⟨table, htab, chain, hchn, hhook, rfl⟩
  · rintro ⟨table, htab, chain, hchn, hhook, rfl⟩
    exact ⟨table, htab, chain, ⟨hchn, hhook⟩, rfl⟩

/-- **A packet passes a hook** if every base chain of it accepts the packet. -/
theorem verdict_eq_accept : verdict tables hook p = .accept ↔
      ∀ table ∈ tables, ∀ chain ∈ table.chains, chain.hook = hook →
        chain.verdict table.sets p = .accept := by
  rw [verdict, traverse_eq_accept]
  constructor
  · intro h table htab chain hchn hhook
    exact h (table.sets, chain) (mem_baseChains.2 ⟨table, htab, chain, hchn, hhook, rfl⟩)
  · intro h c hc
    obtain ⟨table, htab, chain, hchn, hhook, rfl⟩ := mem_baseChains.1 hc
    exact h table htab chain hchn hhook

theorem Policy.ne_accept {policy : Policy} : policy ≠ .accept ↔ policy = .drop := by
  cases policy <;> simp

/-- A packet is dropped if one base chain drops it. -/
theorem verdict_eq_drop : verdict tables hook p = .drop ↔
      ∃ table ∈ tables, ∃ chain ∈ table.chains, chain.hook = hook ∧
        chain.verdict table.sets p = .drop := by
  rw [← Policy.ne_accept, ne_eq, verdict_eq_accept]
  push Not
  simp [Policy.ne_accept]

/-! ## Loading a table -/

/-- The rules are added to those of the chain of that name, if there is one. -/
def addChain (chains : List Chain) (chain : Chain) : List Chain :=
  if chains.any (·.name = chain.name) then
    chains.map fun c =>
      if c.name = chain.name then
        { c with policy := chain.policy, rules := c.rules ++ chain.rules }
      else c
  else chains ++ [chain]

/-- The elements are added to those of the set of that name, if there is one. -/
def addSet (sets : List EndpointSet) (set : EndpointSet) : List EndpointSet :=
  if sets.any (·.name = set.name) then
    sets.map fun s =>
      if s.name = set.name then { s with elements := s.elements ++ set.elements } else s
  else sets ++ [set]

/-- What a table of the same name holds, with the sets and the chains that are added to it. -/
def Table.add (old table : Table) : Table :=
  { old with
    sets := table.sets.foldl addSet old.sets
    chains := table.chains.foldl addChain old.chains }

/-- The table after `nft -f`, when it was there before or not. -/
def load (table : Table) : Option Table → Table
  | none => table
  | some old => old.add table

end Nft
