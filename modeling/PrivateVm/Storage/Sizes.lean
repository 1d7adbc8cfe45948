import PrivateVm.Storage.Capacity

set_option autoImplicit false

/-! # The sizes of a session's storage

The daemon checks the sizes that are requested (`service.go`), the capacity pool plans from them,
and the manager of the scratch space that is chosen checks the size again (`tmpfs.go`, `luks.go`).
The ranges differ (`admitted_buildable_iff`).
-/

namespace PrivateVm.Storage

/-! ## The request -/

structure ResourceRequest where
  vcpus : UInt32
  memoryBytes : UInt64
  rootBytes : UInt64
  scratchBytes : UInt64
  deriving DecidableEq

/-- An error of the daemon with the code `InvalidArgument`. -/
structure InvalidArgument where
  code : String
  message : String
  remediation : String
  deriving DecidableEq

def validateResources (value : Option ResourceRequest) (defaults : ResourceRequest) :
    Except InvalidArgument ResourceRequest :=
  match value with
  | none => .ok defaults
  | some value =>
    let copy : ResourceRequest :=
      { vcpus := if value.vcpus = 0 then defaults.vcpus else value.vcpus
        memoryBytes := if value.memoryBytes = 0 then defaults.memoryBytes else value.memoryBytes
        rootBytes := if value.rootBytes = 0 then defaults.rootBytes else value.rootBytes
        scratchBytes := value.scratchBytes }
    if 64 < copy.vcpus ∨ copy.memoryBytes < (512 : UInt64) <<< 20 ∨
        (256 : UInt64) <<< 30 < copy.memoryBytes ∨ (2 : UInt64) <<< 40 < copy.rootBytes ∨
        (16 : UInt64) <<< 40 < copy.scratchBytes then
      .error ⟨"RESOURCE_REQUEST_INVALID", "Requested resources are outside supported bounds.",
        "Use at most 64 vCPUs, 256 GiB RAM, 2 TiB root and 16 TiB scratch."⟩
    else .ok copy

/-- `desktop` are the processors and the memory of the configuration. -/
def resourceDefaults (role : Session.Role) (desktop : UInt32 × UInt64) : ResourceRequest :=
  match role with
  | .workstation => ⟨desktop.1, desktop.2, gib 32, 0⟩
  | .exporter => ⟨2, gib 1, gib 32, 0⟩
  | _ => ⟨4, gib 4, gib 32, 0⟩

/-! ## The storage -/

/-- `StorageStack.Allocate` until it calls a manager, with the size that it passes to it. -/
def allocate (smallScratchMax : UInt64) (sessionID : String) (role : Session.Role)
    (plan : Session.Role × ResourceRequest) (imagePath : String) (w : World) :
    Except String (ScratchMode × UInt64) × World :=
  let expectedWrites := addCapacity plan.2.rootBytes plan.2.scratchBytes
  if (Session.validateID sessionID).isOk = false ∨ role ≠ plan.1 ∨ imagePath = "" then
    (.error "host role storage unavailable", w)
  else if !expectedWrites.2 ∨ expectedWrites.1 = 0 then (.error "host role storage unavailable", w)
  else
    match w.reserve sessionID ⟨plan.2.memoryBytes, expectedWrites.1, smallScratchMax⟩ with
    | (.error e, w) => (.error e, w)
    | (.ok n, w) =>
      match w.made[n]? with
      | some r => (.ok (r.plan.mode, r.plan.reservedBytes), w)
      | none => (.error "host role storage unavailable", w)

/-- The sizes that `TmpfsManager.Create` and `LUKSManager.Create` accept. -/
def createAccepts : ScratchMode → UInt64 → Bool
  | .ram, size => !(size < (256 : UInt64) <<< 20 || (1 : UInt64) <<< 40 < size)
  | .luks, size => !(size < (1 : UInt64) <<< 30 || (16 : UInt64) <<< 40 < size)

/-- What is written goes to memory and is between 256 MiB and 1 TiB, or to the disk and is between
1 GiB and 16 TiB. -/
structure Buildable (host : HostCapacity) (request : CapacityRequest) : Prop where
  memory : FitsRAM host request → 256 * 2 ^ 20 ≤ request.expectedWritesBytes.toNat ∧
    request.expectedWritesBytes.toNat ≤ 2 ^ 40
  disk : ¬ FitsRAM host request → 2 ^ 30 ≤ request.expectedWritesBytes.toNat ∧
    request.expectedWritesBytes.toNat ≤ 16 * 2 ^ 40

theorem planCapacity_buildable {host request plan} (h : planCapacity host request = .ok plan) :
    createAccepts plan.mode plan.reservedBytes = true ↔ Buildable host request := by
  obtain ⟨hbytes, hmode⟩ := planCapacity_spec h
  rw [hbytes]
  rcases hmode with ⟨hmode, hfits⟩ | ⟨hmode, hfits, -⟩ <;> rw [hmode] <;>
    simp [createAccepts]
  · exact ⟨fun h => ⟨fun _ => h, fun hnot => absurd hfits hnot⟩, fun h => h.memory hfits⟩
  · exact ⟨fun h => ⟨fun hfit => absurd hfit hfits, fun _ => h⟩, fun h => h.disk hfits⟩

/-- **Admitted plans can be built** just when the bytes to be written are in the range of the
manager that is chosen, and it is chosen by whether they fit in the memory that is left. -/
theorem admitted_buildable_iff (value : Option ResourceRequest) (desktop : UInt32 × UInt64)
    (smallScratchMax : UInt64) (sessionID imagePath : String) (role : Session.Role) (w w' : World)
    (plan : ResourceRequest) (mode : ScratchMode) (size : UInt64) :
    validateResources value (resourceDefaults role desktop) = .ok plan →
    allocate smallScratchMax sessionID role (role, plan) imagePath w = (.ok (mode, size), w') →
    ∃ host, w.pool.effective = .ok host ∧ (createAccepts mode size = true ↔ Buildable host
      ⟨plan.memoryBytes, plan.rootBytes + plan.scratchBytes, smallScratchMax⟩) := by
  rintro - h
  simp only [allocate] at h
  split at h
  · cases h
  split at h
  · cases h
  have hres := w.reserves sessionID
    ⟨plan.memoryBytes, (addCapacity plan.rootBytes plan.scratchBytes).1, smallScratchMax⟩
  generalize w.reserve _ _ = result at h hres
  cases hres with
  | refused => cases h
  | counted hnew hid hlive hcnt hplan =>
    obtain ⟨host, heff, hplan⟩ := hplan
    simp only [List.getElem?_concat_length] at h
    cases h
    exact ⟨host, heff, planCapacity_buildable hplan⟩

def sampleWorld : World := ⟨⟨sampleHost, fun _ => none, fun _ => 0⟩, []⟩

/-- 8 GiB of root and 2 GiB of scratch space fit in memory and can be built. -/
theorem admitted_buildable_sample :
    ∃ host, sampleWorld.pool.effective = .ok host ∧
      Buildable host ⟨gib 4, gib 8 + gib 2, gib 16⟩ := by
  obtain ⟨host, heff, hiff⟩ := admitted_buildable_iff (some ⟨4, gib 4, gib 8, gib 2⟩)
    (4, gib 4) (gib 16) (sampleSession 'a') "/image" .workstation sampleWorld _
    ⟨4, gib 4, gib 8, gib 2⟩ .ram (gib 10) (by decide +kernel) (Prod.ext (by decide +kernel) rfl)
  exact ⟨host, heff, hiff.1 (by decide +kernel)⟩

/-- The largest root and scratch space that are valid are given capacity on a host with 20 TiB, and
`LUKSManager.Create` refuses them; so does `TmpfsManager.Create` with a root of 1 MiB. -/
theorem valid_sizes_admitted_and_refused :
    let largest : ResourceRequest := ⟨4, gib 4, gib 2048, gib 16384⟩
    let smallest : ResourceRequest := ⟨4, gib 4, 1048576, 0⟩
    let passed (plan : ResourceRequest) (w : World) :=
      (allocate (gib 16) (sampleSession 'a') .workstation (.workstation, plan) "/image" w).1
    (∀ plan ∈ [largest, smallest],
      validateResources (some plan) (resourceDefaults .workstation (4, gib 4)) = .ok plan) ∧
    passed largest ⟨⟨⟨gib 32, gib 24, gib 16, gib 20480, true, false⟩, fun _ => none, fun _ => 0⟩,
      []⟩ = .ok (.luks, gib 18432) ∧ createAccepts .luks (gib 18432) = false ∧
    passed smallest sampleWorld = .ok (.ram, 1048576) ∧ createAccepts .ram 1048576 = false := by
  decide +kernel

end PrivateVm.Storage
