import PrivateVm.Usb.Enrollment

set_option autoImplicit false

/-! # Observed USB devices (`enumerator.go`)

A snapshot of the kernel's devices is checked as a whole; an enrollment resolves to the one device
of the snapshot that has its identity and can be selected.
-/

namespace PrivateVm.Usb

open Checked Transfer

/-! ## Errors -/

inductive ErrorCode where
  | notEnrolled
  | identityMismatch
  | ambiguous
  | composite
  | hostFilesystem
  | mounted
  | tooSmall
  | writeFailed
  | hashMismatch
  | readOnly
  | confirmation
  | claimConflict
  | discoveryFailed
  | cleanupIncomplete
  deriving DecidableEq

/-- `Error`, without its cause, which is not rendered. -/
structure UsbError where
  code : ErrorCode
  message : String
  remediation : String
  deriving DecidableEq

/-! ## Devices -/

structure Device where
  deviceID : String
  identity : Identity
  sysfsPath : String
  blockPath : String
  bus : UInt8
  address : UInt8
  mounted : Bool
  readOnly : Bool
  hostFilesystem : Bool
  deriving DecidableEq

def deviceIDPattern (text : String) : Bool :=
  "usbdev-".toList.isPrefixOf text.toList && isHexText 16 (text.toList.drop 7)

def validateObservedDevice (device : Device) : Except String Unit := do
  failIf (!deviceIDPattern device.deviceID) "invalid USB snapshot identifier"
  failIf (device.sysfsPath = "" ∨ device.blockPath = "" ∨ device.bus = 0 ∨ device.address = 0)
    "incomplete USB kernel observation"
  let identity := device.identity.normalized
  failIf (!hexIDPattern identity.vendorID ∨ !hexIDPattern identity.productID ∨
      !portPattern identity.portPath ∨ !usbGuardHashPattern identity.usbGuardHash ∨
      identity.capacity = 0 ∨ identity.interfaces = [] ∨ identity.interfaces.length > 32)
    "invalid USB identity observation"
  failIf (!identity.interfaces.all interfacePattern) "invalid USB interface observation"

def validateSelectable (device : Device) : Except UsbError Unit := do
  (validateObservedDevice device).mapError fun _ =>
    ⟨.identityMismatch, "The selected USB identity is incomplete.",
      "Reconnect the dedicated device and inspect it again."⟩
  failIf device.hostFilesystem
    ⟨.hostFilesystem, "A host root or boot device cannot be selected.",
      "Use a separate dedicated USB mass-storage device."⟩
  failIf device.mounted
    ⟨.mounted, "The selected USB device is mounted on the host.",
      "Unmount it through the operating system and disable automount before retrying."⟩
  failIf device.readOnly
    ⟨.readOnly, "The selected USB device is read-only.", "Use a writable dedicated USB device."⟩
  -- the check above has rewritten the interfaces in place
  failIf (!device.identity.normalized.interfaces.all fun iface =>
      (massStorageClass ++ ":").toList.isPrefixOf (toLower iface).toList)
    ⟨.composite, "The selected USB exposes a non-storage interface.",
      "Use a device whose complete interface set is mass-storage only."⟩

/-- `List` on what the source returned; `none` is an error of the source. -/
def listDevices (snapshot : Option (List Device)) : Except UsbError (List Device) := do
  let devices ← ofOption ⟨.discoveryFailed, "USB discovery failed.",
    "Reconnect the dedicated device and retry USB inspection."⟩ snapshot
  checkObserved [] devices
  return Keyed.sort (·.deviceID) devices
where
  checkObserved : List String → List Device → Except UsbError Unit
    | _, [] => .ok ()
    | seen, device :: rest => do
        (validateObservedDevice device).mapError fun _ =>
          ⟨.discoveryFailed, "USB discovery returned invalid device evidence.",
            "Reconnect the dedicated device and retry USB inspection."⟩
        failIf (device.deviceID ∈ seen)
          ⟨.ambiguous, "USB discovery returned an ambiguous device identity.",
            "Disconnect duplicate devices and retry."⟩
        checkObserved (device.deviceID :: seen) rest

def resolveEnrollment (sha256 : Bytes → Digest) (enrollment : Enrollment)
    (snapshot : Option (List Device)) : Except UsbError Device := do
  (enrollment.validate sha256).mapError fun _ =>
    ⟨.notEnrolled, "The USB enrollment record is invalid.",
      "Forget and re-enroll the dedicated device."⟩
  let devices ← listDevices snapshot
  match devices.filter fun device =>
    enrollment.identity.matchesIdentity
      { device.identity with portBound := enrollment.identity.portBound } with
  | [] => .error ⟨.identityMismatch, "No connected USB matches the enrolled identity.",
      "Reconnect the enrolled device at its enrolled physical port and retry."⟩
  | [device] => do
      validateSelectable device
      return device
  | _ => .error ⟨.ambiguous, "More than one connected USB matches the enrolled identity.",
      "Disconnect duplicate devices and retry."⟩

def sameKernelObservation (a b : Device) : Bool :=
  a.deviceID == b.deviceID && a.sysfsPath == b.sysfsPath && a.blockPath == b.blockPath &&
    a.bus == b.bus && a.address == b.address && a.identity.matchesIdentity b.identity &&
    a.mounted == b.mounted && a.readOnly == b.readOnly && a.hostFilesystem == b.hostFilesystem

/-! ## A device -/

/-- A stick, with its enrollment under a hash that is zero everywhere. -/
def stick : Identity where
  vendorID := "0781"
  productID := "5581"
  serial := "1"
  usbGuardHash := "AAAAAAAAAAAAAAAA"
  interfaces := ["08:06:50"]
  capacity := 1
  portPath := "1-2"
  portBound := false
  model := "stick"

def stickDevice : Device :=
  ⟨"usbdev-0000000000000000", stick, "/sys/1-2", "/dev/sda", 1, 2, false, false, false⟩

def stickEnrollment : Enrollment :=
  ⟨1, "usb-0000000000000000", "STICK", stick, defaultFilesystem⟩

example : resolveEnrollment (fun _ => .replicate 32 0) stickEnrollment (some [stickDevice]) =
    .ok stickDevice := by decide +kernel

end PrivateVm.Usb
