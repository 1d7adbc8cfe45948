import PrivateVm.Basic.Text
import PrivateVm.Network.Model

set_option autoImplicit false

/-! # Topologies that do not collide

Topologies of different slots have no address in common (`networks_apart`), and those of different
suffixes no name (`names_differ`). The names of interfaces are short enough for the kernel.
-/

namespace PrivateVm.Network

open Netip Text List

/-- The networks of the guest and of the uplink, of both versions. -/
def TopologySpec.networks (spec : TopologySpec) : List Prefix :=
  [spec.guestNetwork4, spec.uplinkNetwork4, spec.guestNetwork6, spec.uplinkNetwork6]

def TopologySpec.interfaces (spec : TopologySpec) : List String :=
  [spec.hostVeth, spec.namespaceVeth, spec.tap]

def TopologySpec.tables (spec : TopologySpec) : List String :=
  [spec.namespaceTable, spec.hostTable]

/-! ## Addresses -/

theorem toNat_v4Base (slot : UInt16) : (v4Base slot).toNat = 0x0af00000 + 8 * slot.toNat := by
  have hslot := slot.toNat_lt
  have hbase : (0x0af00000 : BitVec 32).toNat = 0x0af00000 := rfl
  have height : (8 : BitVec 32).toNat = 8 := rfl
  simp only [v4Base, BitVec.toNat_add, BitVec.toNat_mul, BitVec.toNat_ofNat, height]
  omega

theorem toNat_v4Uplink (slot : UInt16) :
    (v4Base slot + 4).toNat = 0x0af00000 + 8 * slot.toNat + 4 := by
  have hslot := slot.toNat_lt
  have hfour : (4 : BitVec 32).toNat = 4 := rfl
  rw [BitVec.toNat_add, toNat_v4Base]
  omega

theorem toNat_v6Base (slot : UInt16) :
    (v6Base slot).toNat = 0xfd70766d000000000000000000000000 + 2 ^ 80 * slot.toNat := by
  have hslot := slot.toNat_lt
  have hbase : ((0xfd70766d000000000000000000000000 : Nat) : BitVec 128).toNat =
      0xfd70766d000000000000000000000000 := rfl
  rw [v6Base, BitVec.toNat_add, BitVec.toNat_shiftLeft, BitVec.toNat_ofNat]
  omega

theorem toNat_v6Uplink (slot : UInt16) :
    (v6Base slot + 4).toNat = 0xfd70766d000000000000000000000000 + 2 ^ 80 * slot.toNat + 4 := by
  have hslot := slot.toNat_lt
  have hfour : (4 : BitVec 128).toNat = 4 := rfl
  rw [BitVec.toNat_add, toNat_v6Base]
  omega

variable {suffix suffix' : String} {slot slot' : UInt16}

/-- **Networks of different slots** have no address in common. -/
theorem networks_apart (h : slot ≠ slot') :
    ∀ p ∈ (topologyOf suffix slot).networks, ∀ q ∈ (topologyOf suffix' slot').networks,
      p.Apart q := by
  have hne : slot.toNat ≠ slot'.toNat := fun heq => h (UInt16.toNat.inj heq)
  simp only [TopologySpec.networks, forall_mem_cons, not_mem_nil,
    false_imp_iff, implies_true, and_true]
  refine ⟨⟨?_, ?_, Prefix.apart_versions, Prefix.apart_versions⟩,
    ⟨?_, ?_, Prefix.apart_versions, Prefix.apart_versions⟩,
    ⟨Prefix.apart_versions.symm, Prefix.apart_versions.symm, ?_, ?_⟩,
    ⟨Prefix.apart_versions.symm, Prefix.apart_versions.symm, ?_, ?_⟩⟩
  all_goals
    first | apply Prefix.apart_v4 | apply Prefix.apart_v6
    simp only [toNat_v4Base, toNat_v4Uplink, toNat_v6Base, toNat_v6Uplink]
    omega

/-- The networks of one topology have no address in common either. -/
theorem networks_pairwise (suffix : String) (slot : UInt16) :
    (topologyOf suffix slot).networks.Pairwise Prefix.Apart := by
  simp only [TopologySpec.networks, pairwise_cons, forall_mem_cons,
    not_mem_nil, false_imp_iff, implies_true, and_true, List.Pairwise.nil]
  refine ⟨⟨?_, Prefix.apart_versions, Prefix.apart_versions⟩,
    ⟨Prefix.apart_versions, Prefix.apart_versions⟩, ?_⟩
  all_goals
    first | apply Prefix.apart_v4 | apply Prefix.apart_v6
    simp
    omega

/-! ## Names -/

/-- **Names of different suffixes** are different. -/
theorem names_differ (h : suffix ≠ suffix') :
    (topologyOf suffix slot).namespace ≠ (topologyOf suffix' slot').namespace ∧
      List.Disjoint (topologyOf suffix slot).interfaces (topologyOf suffix' slot').interfaces ∧
      List.Disjoint (topologyOf suffix slot).tables (topologyOf suffix' slot').tables := by
  have hne : suffix.toList ≠ suffix'.toList := fun heq => h (String.toList_inj.1 heq)
  have happ start : start ++ suffix ≠ start ++ suffix' :=
    fun heq => h ((String.append_right_inj start).1 heq)
  refine ⟨happ "pvmn-", ?_, ?_⟩
  · simp only [TopologySpec.interfaces, topologyOf, disjoint_cons_left, mem_cons,
      ← String.toList_inj]
    simp [hne]
  · simp only [TopologySpec.tables, topologyOf, disjoint_cons_left, mem_cons,
      ← String.toList_inj]
    simp [hne]

theorem namespace_inj
    (h : (topologyOf suffix slot).namespace ≠ (topologyOf suffix' slot').namespace) :
    suffix ≠ suffix' := by
  rintro rfl
  exact h rfl

/-- A byte has two digits. -/
theorem byteSize_encodeToString (bytes : List UInt8) :
    (encodeToString bytes).utf8ByteSize = 2 * bytes.length := by
  have hsize : (encodeToString bytes).utf8ByteSize = byteLength (bytes.flatMap fun b =>
      [Nat.digitChar (b.toNat / 16), Nat.digitChar (b.toNat % 16)]) :=
    size_utf8Encode _
  have hdgt : ∀ n < 16, (Nat.digitChar n).utf8Size = 1 := by decide
  rw [hsize]
  clear hsize
  induction bytes with
  | nil => rfl
  | cons b bytes ih =>
    have hb := b.toNat_lt
    have hhigh := hdgt (b.toNat / 16) (by omega)
    have hlow := hdgt (b.toNat % 16) (by omega)
    simp only [byteLength, flatMap_cons, map_append, map_cons, map_nil,
      sum_append, sum_cons, sum_nil, length_cons] at ih ⊢
    omega

theorem byteSize_suffixFor (sha256 : Hash) (sessionID : String) (attempt : UInt8) :
    (suffixFor sha256 sessionID attempt).utf8ByteSize = 10 := by
  rw [suffixFor, byteSize_encodeToString, length_take, Vector.length_toList]
  rfl

/-- **Names of interfaces** have at most fifteen bytes. -/
theorem interface_short (sha256 : Hash) (sessionID : String) (attempt : UInt8) :
    ∀ name ∈ (candidateFor sha256 sessionID attempt).interfaces,
      name.utf8ByteSize ≤ interfaceNameLimit := by
  simp only [TopologySpec.interfaces, candidateFor, topologyOf, forall_mem_cons,
    String.utf8ByteSize_append, byteSize_suffixFor]
  decide

end PrivateVm.Network
