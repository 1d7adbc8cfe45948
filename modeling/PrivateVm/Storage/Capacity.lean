import PrivateVm.Basic.Machine
import PrivateVm.Session.Model

set_option autoImplicit false

/-! # Reservations of capacity (`planner.go`)

The pool holds its mutex during `Reserve`, and `Destroy` of a reservation holds that of the
reservation and then that of the pool, so that every call is one step. The counters are 64-bit
words; `capacity_never_overcommitted` says that they are the sums of the live reservations, as
numbers.
-/

namespace PrivateVm.Storage

open Checked
open Session (sessionIDPattern)

/-! ## The planner -/

inductive ScratchMode where
  | ram
  | luks
  deriving DecidableEq

structure HostCapacity where
  totalRAMBytes : UInt64
  availableRAMBytes : UInt64
  runtimeFreeBytes : UInt64
  scratchFreeBytes : UInt64
  runtimeIsTmpfs : Bool
  diskBackedSwap : Bool

structure CapacityRequest where
  guestRAMBytes : UInt64
  expectedWritesBytes : UInt64
  smallScratchMax : UInt64

structure CapacityPlan where
  mode : ScratchMode
  hostReserveBytes : UInt64
  reservedBytes : UInt64

def addCapacity (left right : UInt64) : UInt64 × Bool := (left + right, left ≤ left + right)

def subtractCapacity (total used : UInt64) : UInt64 × Bool :=
  if total < used then (0, false) else (total - used, true)

/-- The sum, and whether it has wrapped around. -/
def add3 (a b c : UInt64) : UInt64 × Bool :=
  if a + b < a then (0, true) else (a + b + c, a + b + c < a + b)

def hostReserve (host : HostCapacity) : UInt64 :=
  let least := (4 : UInt64) <<< 30
  if host.totalRAMBytes / 5 < least then least else host.totalRAMBytes / 5

def planCapacity (host : HostCapacity) (request : CapacityRequest) :
    Except String CapacityPlan := do
  failIf host.diskBackedSwap "disk-backed swap blocks volatile session planning"
  failIf (!host.runtimeIsTmpfs) "runtime directory is not on volatile tmpfs"
  failIf (host.totalRAMBytes = 0 ∨ host.availableRAMBytes = 0 ∨
    host.totalRAMBytes < host.availableRAMBytes ∨ request.guestRAMBytes = 0 ∨
    request.expectedWritesBytes = 0 ∨ request.smallScratchMax = 0)
    "capacity inputs must be non-zero"
  let reserve := hostReserve host
  let ramRequired := add3 request.guestRAMBytes request.expectedWritesBytes reserve
  let guestRequired := addCapacity request.guestRAMBytes reserve
  if !ramRequired.2 ∧ request.expectedWritesBytes ≤ request.smallScratchMax ∧
      ramRequired.1 ≤ host.availableRAMBytes ∧
      request.expectedWritesBytes ≤ host.runtimeFreeBytes then
    return ⟨.ram, reserve, request.expectedWritesBytes⟩
  else if guestRequired.2 ∧ guestRequired.1 ≤ host.availableRAMBytes ∧
      request.expectedWritesBytes ≤ host.scratchFreeBytes then
    return ⟨.luks, reserve, request.expectedWritesBytes⟩
  else throw "neither volatile RAM nor encrypted disk scratch has sufficient capacity"

/-- A request fits in memory, with the reserve of the host; the sum is one of numbers. -/
structure FitsRAM (host : HostCapacity) (request : CapacityRequest) : Prop where
  small : request.expectedWritesBytes ≤ request.smallScratchMax
  memory : request.guestRAMBytes.toNat + request.expectedWritesBytes.toNat +
    (hostReserve host).toNat ≤ host.availableRAMBytes.toNat
  runtime : request.expectedWritesBytes ≤ host.runtimeFreeBytes

structure FitsLUKS (host : HostCapacity) (request : CapacityRequest) : Prop where
  memory : request.guestRAMBytes.toNat + (hostReserve host).toNat ≤ host.availableRAMBytes.toNat
  scratch : request.expectedWritesBytes ≤ host.scratchFreeBytes

variable {host : HostCapacity} {request : CapacityRequest} {plan : CapacityPlan}
  {a b c limit : UInt64}

theorem toNat_sub_add (h : b ≤ a) : a.toNat = (a - b).toNat + b.toNat := by
  have hle := UInt64.le_iff_toNat_le.1 h
  rw [UInt64.toNat_sub_of_le _ _ h]
  omega

/-- A sum that is accepted has not wrapped around. -/
theorem addCapacity_le : (addCapacity a b).2 = true ∧ (addCapacity a b).1 ≤ limit ↔
    a.toNat + b.toNat ≤ limit.toNat := by
  have hb := b.toNat_lt
  have hlimit := limit.toNat_lt
  simp only [addCapacity, decide_eq_true_eq, UInt64.le_iff_toNat_le, UInt64.toNat_add]
  omega

theorem addCapacity_exact (h : (addCapacity a b).2 = true) :
    (addCapacity a b).1.toNat = a.toNat + b.toNat :=
  Nat.le_antisymm (by simpa [addCapacity] using Nat.mod_le _ _)
    (addCapacity_le.1 ⟨h, UInt64.le_refl _⟩)

theorem add3_le : (!(add3 a b c).2) = true ∧ (add3 a b c).1 ≤ limit ↔
    a.toNat + b.toNat + c.toNat ≤ limit.toNat := by
  have hb := b.toNat_lt
  have hc := c.toNat_lt
  have hlimit := limit.toNat_lt
  unfold add3
  split <;> rename_i h <;>
    simp [UInt64.lt_iff_toNat_lt, UInt64.le_iff_toNat_le] at h ⊢ <;> omega

/-- **What the planner decides.** -/
theorem planCapacity_spec (h : planCapacity host request = .ok plan) :
    plan.reservedBytes = request.expectedWritesBytes ∧
      (plan.mode = .ram ∧ FitsRAM host request ∨
        plan.mode = .luks ∧ ¬ FitsRAM host request ∧ FitsLUKS host request) := by
  simp only [planCapacity, bind_eq_ok] at h
  obtain ⟨-, -, -, -, -, -, h⟩ := h
  split at h
  · rename_i hram
    obtain ⟨hsum, hsmall, hle, hrun⟩ := hram
    cases h
    exact ⟨rfl, .inl ⟨rfl, hsmall, add3_le.1 ⟨hsum, hle⟩, hrun⟩⟩
  · rename_i hram
    have hnot : ¬ FitsRAM host request := by
      rintro ⟨hsmall, hmem, hrun⟩
      obtain ⟨hsum, hle⟩ := add3_le.2 hmem
      exact hram ⟨hsum, hsmall, hle, hrun⟩
    split at h
    · rename_i hluks
      obtain ⟨hsum, hle, hscr⟩ := hluks
      cases h
      exact ⟨rfl, .inr ⟨rfl, hnot, addCapacity_le.1 ⟨hsum, hle⟩, hscr⟩⟩
    · cases h

/-! ## The pool -/

/-- What is counted: `ramBytes`, `runtimeBytes` and `scratchBytes`. -/
inductive Counter where
  | ram
  | runtime
  | scratch

def HostCapacity.free (host : HostCapacity) : Counter → UInt64
  | .ram => host.availableRAMBytes
  | .runtime => host.runtimeFreeBytes
  | .scratch => host.scratchFreeBytes

/-- `released` is set by the `Destroy` that returns the capacity. -/
structure CapacityReservation where
  sessionID : String
  plan : CapacityPlan
  bytes : Counter → UInt64
  released : Bool

/-- The reservations of the map are numbers in the list of all that were made. -/
structure CapacityPool where
  host : HostCapacity
  reservations : String → Option Nat
  bytes : Counter → UInt64

def newCapacityPool (host : HostCapacity) : Except String CapacityPool := do
  failIf (host.diskBackedSwap ∨ !host.runtimeIsTmpfs ∨ host.totalRAMBytes = 0 ∨
    host.availableRAMBytes = 0 ∨ host.totalRAMBytes < host.availableRAMBytes ∨
    host.runtimeFreeBytes = 0 ∧ host.scratchFreeBytes = 0)
    "capacity pool requires valid fail-closed host evidence"
  return ⟨host, fun _ => none, fun _ => 0⟩

def CapacityPool.effective (p : CapacityPool) : Except String HostCapacity := do
  let left := fun k => subtractCapacity (p.host.free k) (p.bytes k)
  failIf (!(left .ram).2) "reserved memory exceeds the capacity snapshot"
  failIf (!(left .runtime).2) "reserved runtime space exceeds the capacity snapshot"
  failIf (!(left .scratch).2) "reserved scratch space exceeds the capacity snapshot"
  return { p.host with
    availableRAMBytes := (left .ram).1
    runtimeFreeBytes := (left .runtime).1
    scratchFreeBytes := (left .scratch).1 }

/-- `Reserve` until it adds to the counters. -/
def CapacityPool.admission (p : CapacityPool) (sessionID : String) (request : CapacityRequest) :
    Except String CapacityReservation := do
  failIf (!sessionIDPattern sessionID) "capacity reservation requires an internal session ID"
  failIf (p.reservations sessionID).isSome "capacity is already reserved for this session"
  let plan ← planCapacity (← p.effective) request
  let writes := request.expectedWritesBytes
  match plan.mode with
  | .ram =>
    let sum := addCapacity request.guestRAMBytes writes
    failIf (!sum.2) "capacity reservation overflow"
    let bytes := fun | .ram => sum.1 | .runtime => writes | .scratch => 0
    return ⟨sessionID, plan, bytes, false⟩
  | .luks =>
    let bytes := fun | .ram => request.guestRAMBytes | .runtime => 0 | .scratch => writes
    return ⟨sessionID, plan, bytes, false⟩

structure World where
  pool : CapacityPool
  made : List CapacityReservation

/-- `Reserve`. A sum that wraps around stays in its counter; those before it are restored. -/
def World.reserve (w : World) (sessionID : String) (request : CapacityRequest) :
    Except String Nat × World :=
  let p := w.pool
  match p.admission sessionID request with
  | .error e => (.error e, w)
  | .ok r =>
    let sum := fun k => addCapacity (p.bytes k) (r.bytes k)
    let undone := fun k => (sum k).1 - r.bytes k
    let left := fun bytes => { w with pool := { p with bytes := bytes } }
    if !(sum .ram).2 then
      (.error "memory reservation overflow",
        left fun | .ram => (sum .ram).1 | k => p.bytes k)
    else if !(sum .runtime).2 then
      (.error "runtime reservation overflow",
        left fun | .ram => undone .ram | .runtime => (sum .runtime).1 | k => p.bytes k)
    else if !(sum .scratch).2 then
      (.error "scratch reservation overflow",
        left fun | .scratch => (sum .scratch).1 | k => undone k)
    else
      let reservations := Function.update p.reservations sessionID (some w.made.length)
      (.ok w.made.length, ⟨⟨p.host, reservations, fun k => (sum k).1⟩, w.made ++ [r]⟩)

/-- `Destroy` of a reservation. -/
def World.destroy (w : World) (n : Nat) : Except String Unit × World :=
  let p := w.pool
  match w.made[n]? with
  | none => (.error "capacity reservation is invalid", w)
  | some r =>
    if r.released then (.ok (), w)
    else if p.reservations r.sessionID ≠ some n ∨ p.bytes .ram < r.bytes .ram ∨
        p.bytes .runtime < r.bytes .runtime ∨ p.bytes .scratch < r.bytes .scratch then
      (.error "capacity reservation ownership is inconsistent", w)
    else
      let reservations := Function.update p.reservations r.sessionID none
      (.ok (), ⟨⟨p.host, reservations, fun k => p.bytes k - r.bytes k⟩,
        w.made.set n { r with released := true }⟩)

inductive Call where
  | reserve (sessionID : String) (request : CapacityRequest)
  | destroy (reservation : Nat)

/-- Calls of any sessions, in any order. -/
def capacityMachine : Machine World Call where
  init w := ∃ host, newCapacityPool host = .ok w.pool ∧ w.made = []
  step
    | .reserve sessionID request, w => (w.reserve sessionID request).2
    | .destroy n, w => (w.destroy n).2

/-! ## One call -/

variable {p : CapacityPool} {r : CapacityReservation} {sessionID : String} {w : World} {n : Nat}

theorem subtractCapacity_exact (h : (subtractCapacity a b).2 = true) :
    a.toNat = (subtractCapacity a b).1.toNat + b.toNat := by
  unfold subtractCapacity at h ⊢
  split at h
  · cases h
  · rename_i hle
    rw [if_neg hle]
    exact toNat_sub_add (UInt64.not_lt.1 hle)

/-- The counters `x` are those of `y` and `r` together, as numbers. -/
def Adds (y r x : Counter → UInt64) : Prop := ∀ k, (x k).toNat = (y k).toNat + (r k).toNat

theorem CapacityPool.effective_spec (h : p.effective = .ok host) :
    host.totalRAMBytes = p.host.totalRAMBytes ∧ Adds host.free p.bytes p.host.free := by
  simp only [effective, bind_eq_ok, failIf_eq_ok, pure_eq_ok, Bool.not_eq_true',
    Bool.not_eq_false] at h
  obtain ⟨-, hram, -, hrun, -, hscr, rfl⟩ := h
  refine ⟨rfl, fun k => ?_⟩
  cases k with
  | ram => exact subtractCapacity_exact hram
  | runtime => exact subtractCapacity_exact hrun
  | scratch => exact subtractCapacity_exact hscr

/-- The reservation is for what was requested, as numbers. -/
structure Counted (request : CapacityRequest) (r : CapacityReservation) : Prop where
  ram : (r.bytes .ram).toNat = request.guestRAMBytes.toNat +
    if r.plan.mode = .ram then request.expectedWritesBytes.toNat else 0
  runtime : r.bytes .runtime = if r.plan.mode = .ram then request.expectedWritesBytes else 0
  scratch : r.bytes .scratch = if r.plan.mode = .luks then request.expectedWritesBytes else 0

/-- So much has to stay free. -/
def HostCapacity.kept (host : HostCapacity) : Counter → Nat
  | .ram => (hostReserve host).toNat
  | _ => 0

theorem CapacityPool.admission_spec (h : p.admission sessionID request = .ok r) :
    p.reservations sessionID = none ∧ r.sessionID = sessionID ∧ r.released = false ∧
      Counted request r ∧
      (∃ host, p.effective = .ok host ∧ planCapacity host request = .ok r.plan) ∧
      ∀ k, (p.bytes k).toNat + (r.bytes k).toNat + p.host.kept k ≤ (p.host.free k).toNat := by
  simp only [admission, bind_eq_ok, failIf_eq_ok, Bool.not_eq_true, Option.isSome_eq_false_iff,
    Option.isNone_iff_eq_none] at h
  obtain ⟨-, -, -, hnone, host, heff, plan, hplan, h⟩ := h
  obtain ⟨htotal, hadds⟩ := effective_spec heff
  have hres : hostReserve host = hostReserve p.host := by rw [hostReserve, htotal, hostReserve]
  obtain ⟨-, ⟨hmode, hfits⟩ | ⟨hmode, -, hfits⟩⟩ := planCapacity_spec hplan
  · simp only [hmode, bind_eq_ok, failIf_eq_ok, pure_eq_ok, Bool.not_eq_true',
      Bool.not_eq_false] at h
    obtain ⟨-, hsum, rfl⟩ := h
    have hexact := addCapacity_exact hsum
    have hmem := hres ▸ hfits.memory
    have hrun := UInt64.le_iff_toNat_le.1 hfits.runtime
    refine ⟨hnone, rfl, rfl, ⟨by simp [hmode, hexact], by simp [hmode], by simp [hmode]⟩,
      ⟨host, heff, hplan⟩, ?_⟩
    rintro (_ | _ | _) <;> rw [hadds] <;>
      simp only [HostCapacity.free, HostCapacity.kept, UInt64.toNat_zero] <;> omega
  · simp only [hmode, pure_eq_ok] at h
    subst h
    have hmem := hres ▸ hfits.memory
    have hscr := UInt64.le_iff_toNat_le.1 hfits.scratch
    refine ⟨hnone, rfl, rfl, ⟨by simp [hmode], by simp [hmode], by simp [hmode]⟩,
      ⟨host, heff, hplan⟩, ?_⟩
    rintro (_ | _ | _) <;> rw [hadds] <;>
      simp only [HostCapacity.free, HostCapacity.kept, UInt64.toNat_zero] <;> omega

/-- What a `Reserve` can do: it refuses and changes nothing, or counts a new reservation. -/
inductive Reserves (sessionID : String) (request : CapacityRequest) (w : World) :
    Except String Nat × World → Prop
  | refused (e : String) : Reserves sessionID request w (.error e, w)
  | counted {r : CapacityReservation} {bytes : Counter → UInt64}
      (hnew : w.pool.reservations sessionID = none) (hid : r.sessionID = sessionID)
      (hlive : r.released = false) (hcounted : Counted request r)
      (hplan : ∃ host, w.pool.effective = .ok host ∧ planCapacity host request = .ok r.plan)
      (hroom : ∀ k, (bytes k).toNat + w.pool.host.kept k ≤ (w.pool.host.free k).toNat)
      (hadds : Adds w.pool.bytes r.bytes bytes) :
      Reserves sessionID request w (.ok w.made.length, ⟨⟨w.pool.host,
        Function.update w.pool.reservations sessionID (some w.made.length), bytes⟩, w.made ++ [r]⟩)

theorem World.reserves (w : World) (sessionID : String) (request : CapacityRequest) :
    Reserves sessionID request w (w.reserve sessionID request) := by
  simp only [reserve]
  cases hadm : w.pool.admission sessionID request with
  | error e => exact .refused e
  | ok r =>
    obtain ⟨hnew, hid, hlive, hcnt, hplan, hroom⟩ := CapacityPool.admission_spec hadm
    have hsum k : (addCapacity (w.pool.bytes k) (r.bytes k)).2 = true :=
      (addCapacity_le.2 (Nat.le_of_add_right_le (hroom k))).1
    have hadds : Adds w.pool.bytes r.bytes fun k => (addCapacity (w.pool.bytes k) (r.bytes k)).1 :=
      fun k => addCapacity_exact (hsum k)
    simp only [hsum]
    exact .counted hnew hid hlive hcnt hplan (fun k => by rw [hadds]; exact hroom k) hadds

/-- What a `Destroy` can do: nothing, or it returns a reservation that is live. -/
inductive Destroys (n : Nat) (w : World) : Except String Unit × World → Prop
  | kept (result : Except String Unit) : Destroys n w (result, w)
  | returned {r : CapacityReservation} {bytes : Counter → UInt64} (hmade : w.made[n]? = some r)
      (hlive : r.released = false) (hadds : Adds bytes r.bytes w.pool.bytes) :
      Destroys n w (.ok (), ⟨⟨w.pool.host, Function.update w.pool.reservations r.sessionID none,
        bytes⟩, w.made.set n { r with released := true }⟩)

theorem World.destroys (w : World) (n : Nat) : Destroys n w (w.destroy n) := by
  simp only [destroy]
  cases hmade : w.made[n]? with
  | none => exact .kept _
  | some =>
    dsimp only
    split
    · exact .kept _
    rename_i hrel
    split
    · exact .kept _
    rename_i hcons
    simp only [not_or, UInt64.not_lt] at hcons
    obtain ⟨-, hram, hrun, hscr⟩ := hcons
    refine .returned hmade (by simpa using hrel) fun k => toNat_sub_add ?_
    cases k with
    | ram => exact hram
    | runtime => exact hrun
    | scratch => exact hscr

/-! ## Every run -/

def total (made : List CapacityReservation) (k : Counter) : Nat :=
  ((made.filter (!·.released)).map fun r => (r.bytes k).toNat).sum

theorem total_set {made} (hn : made[n]? = some r) (hr : r.released = false) (k : Counter) :
    total made k = total (made.set n { r with released := true }) k + (r.bytes k).toNat := by
  induction made generalizing n with
  | nil => cases hn
  | cons first made ih =>
    cases n with
    | zero =>
      cases hn
      simp [total, hr, Nat.add_comm]
    | succ =>
      have ih := ih hn
      simp only [total, List.set_cons_succ, List.filter_cons] at ih ⊢
      split
      · simp only [List.map_cons, List.sum_cons]
        omega
      · exact ih

structure World.Accounted (w : World) : Prop where
  sums : ∀ k, (w.pool.bytes k).toNat = total w.made k
  within : ∀ k, w.pool.bytes k ≤ w.pool.host.free k
  reserve : (∃ r ∈ w.made, r.released = false) → (w.pool.bytes .ram).toNat +
    (hostReserve w.pool.host).toNat ≤ w.pool.host.availableRAMBytes.toNat
  registered : ∀ sessionID n, w.pool.reservations sessionID = some n ↔
    ∃ r, w.made[n]? = some r ∧ r.sessionID = sessionID ∧ r.released = false

theorem Reserves.accounted {result} (hres : Reserves sessionID request w result) (h : w.Accounted) :
    result.2.Accounted := by
  cases hres with
  | refused => exact h
  | @counted r bytes hnew hid hlive _ _ hroom hadds =>
    refine ⟨fun k => ?_, fun k => ?_, fun _ => hroom .ram, fun id n => ?_⟩
    · simp [hadds k, h.sums k, total, hlive]
    · exact UInt64.le_iff_toNat_le.2 (Nat.le_of_add_right_le (hroom k))
    · have hold := h.registered id n
      simp only [List.getElem?_append]
      grind

theorem Destroys.accounted {result} (hdest : Destroys n w result) (h : w.Accounted) :
    result.2.Accounted := by
  cases hdest with
  | kept => exact h
  | @returned r bytes hmade hlive hadds =>
    refine ⟨fun k => ?_, fun k => ?_, fun _ => ?_, fun id m => ?_⟩
    · have hsum := total_set hmade hlive k
      have hold := (hadds k).symm.trans (h.sums k)
      simp only
      omega
    · have hwith := UInt64.le_iff_toNat_le.1 (h.within k)
      rw [hadds] at hwith
      exact UInt64.le_iff_toNat_le.2 (Nat.le_of_add_right_le hwith)
    · have hres := h.reserve ⟨r, List.mem_of_getElem? hmade, hlive⟩
      rw [hadds] at hres
      simp only
      omega
    · have hold := h.registered id m
      have hthis := h.registered r.sessionID n
      grind

theorem reachable_accounted (h : capacityMachine.Reachable (Machine.free _ _) w) :
    w.Accounted := by
  refine h.inv ?_ fun call w _ hw => ?_
  · rintro ⟨p, _⟩ ⟨host, hnew, rfl⟩
    simp only [newCapacityPool, bind_eq_ok, pure_eq_ok] at hnew
    obtain ⟨-, -, rfl⟩ := hnew
    exact ⟨fun _ => rfl, fun _ => UInt64.zero_le, by simp, by simp⟩
  · cases call with
    | reserve sessionID request => exact (w.reserves sessionID request).accounted hw
    | destroy n => exact (w.destroys n).accounted hw

/-- **Capacity is never over-committed**, in any sequence of calls. The counters are the sums of the
live reservations, as numbers; they stay within what the host has, and leave its reserve free while
there is a reservation. A `Reserve` counts one new reservation for what was requested and a
`Destroy` returns one that was live, or they change nothing. -/
theorem capacity_never_overcommitted (h : capacityMachine.Reachable (Machine.free _ _) w) :
    w.Accounted ∧
      (∀ sessionID request, Reserves sessionID request w (w.reserve sessionID request)) ∧
      ∀ n, Destroys n w (w.destroy n) :=
  ⟨reachable_accounted h, w.reserves, w.destroys⟩

/-! ## A sample host -/

def gib (n : UInt64) : UInt64 := n <<< 30

def sampleHost : HostCapacity := ⟨gib 32, gib 24, gib 16, gib 100, true, false⟩

def sampleSession (digit : Char) : String := "pvm-" ++ String.ofList (List.replicate 32 digit)

/-- One session writes to memory and one to the disk, and the first one ends twice. -/
theorem capacity_two_sessions :
    let w := capacityMachine.play
      [.reserve (sampleSession 'a') ⟨gib 4, gib 8, gib 16⟩,
        .reserve (sampleSession 'b') ⟨gib 4, gib 40, gib 16⟩, .destroy 0, .destroy 0]
      ⟨⟨sampleHost, fun _ => none, fun _ => 0⟩, []⟩
    w.made.map (·.plan.mode) = [.ram, .luks] ∧ w.pool.bytes .ram = gib 4 ∧ w.Accounted := by
  intro w
  have hreach : capacityMachine.Reachable (Machine.free _ _) w :=
    Machine.reachable_play_free _ ⟨sampleHost, by rfl, rfl⟩
  exact ⟨by decide +kernel, by decide +kernel, (capacity_never_overcommitted hreach).1⟩

end PrivateVm.Storage
