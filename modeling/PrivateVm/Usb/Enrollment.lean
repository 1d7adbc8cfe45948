import PrivateVm.Basic.Hex
import PrivateVm.Basic.Keyed
import PrivateVm.Basic.Text
import PrivateVm.Transfer.Frame

set_option autoImplicit false

/-! # Enrolled USB devices (`identity.go`, `enrollment.go`)

The identity of a device that was enrolled, its normal form, its fingerprint and the validation of
an enrollment. Texts are valid UTF-8. An identifier is lowered as ASCII, which is all that the
patterns of identifiers let pass.
-/

namespace PrivateVm.Usb

open BytePath (containsAny)
open Checked Transfer

/-! ## Texts -/

variable (text : String)

def trimSpace : String := String.ofList (Text.trimSpace text.toList)

def toLower : String := String.ofList (text.toList.map Char.toLower)

/-- A number of lower-case hexadecimal digits. -/
def isHexText (digits : Nat) (text : List Char) : Bool :=
  text.length == digits && text.all Hex.isDigit

def hexIDPattern : Bool := isHexText 4 text.toList

def interfacePattern : Bool :=
  match text.toList.splitOn ':' with
  | [a, b, c] => isHexText 2 a && isHexText 2 b && isHexText 2 c
  | _ => false

def isNumber (text : List Char) : Bool := text != [] && text.all Char.isDigit

def portPattern : Bool :=
  match text.toList.splitOn '-' with
  | [bus, ports] => isNumber bus && (ports.splitOn '.').all isNumber
  | _ => false

def usbGuardHashPattern : Bool :=
  16 ≤ text.length && text.length ≤ 256 &&
    text.toList.all fun c => c.isAlphanum || ['+', '/', '=', '_', '-'].contains c

/-! ## Identities -/

def massStorageClass : String := "08"

structure Identity where
  vendorID : String
  productID : String
  serial : String
  usbGuardHash : String
  interfaces : List String
  capacity : Nat
  portPath : String
  portBound : Bool
  model : String
  deriving DecidableEq

def Identity.normalized (i : Identity) : Identity where
  vendorID := toLower (trimSpace i.vendorID)
  productID := toLower (trimSpace i.productID)
  serial := trimSpace i.serial
  usbGuardHash := trimSpace i.usbGuardHash
  interfaces := Keyed.sort id (i.interfaces.map fun iface => toLower (trimSpace iface))
  capacity := i.capacity
  portPath := trimSpace i.portPath
  portBound := i.portBound
  model := trimSpace i.model

/-- The interfaces are checked one after the other, each against the one before it. -/
def checkInterfaces : Option String → List String → Except String Unit
  | _, [] => .ok ()
  | previous, iface :: rest => do
      failIf (!interfacePattern iface) "USB interface descriptor is invalid"
      failIf (!(massStorageClass ++ ":").toList.isPrefixOf iface.toList)
        ("non-storage USB interface \"" ++ iface ++ "\" is forbidden")
      failIf (previous = some iface) "duplicate USB interface descriptor is forbidden"
      checkInterfaces (some iface) rest

def Identity.validateForEnrollment (identity : Identity) : Except String Unit := do
  let i := identity.normalized
  failIf (!hexIDPattern i.vendorID ∨ !hexIDPattern i.productID)
    "USB vendor and product IDs must each be four hexadecimal digits"
  failIf (!portPattern i.portPath) "a bounded physical USB port path is required"
  failIf (i.serial = "" ∧ !i.portBound)
    "a device without a serial requires explicit physical-port binding"
  failIf (i.serial.utf8ByteSize > 256 ∨ containsAny i.serial.toList ['\x00', '\r', '\n'])
    "USB serial is invalid"
  failIf (!usbGuardHashPattern i.usbGuardHash) "a valid USBGuard identity hash is required"
  failIf (i.capacity = 0) "capacity must be nonzero"
  failIf (i.interfaces = [] ∨ i.interfaces.length > 32) "a bounded USB interface list is required"
  checkInterfaces none i.interfaces
  failIf (i.model.utf8ByteSize > 256 ∨ containsAny i.model.toList ['\x00', '\r', '\n'])
    "USB model is invalid"

/-- Every field of the two identities agrees. -/
def Identity.matchesIdentity (i current : Identity) : Bool := i.normalized == current.normalized

def Identity.canonical (i : Identity) : String :=
  "\x00".intercalate [i.vendorID, i.productID, i.serial, i.usbGuardHash, i.portPath,
    toString i.portBound, toString i.capacity, i.model, ",".intercalate i.interfaces]

/-- `fingerprint`; SHA-256 is a parameter. -/
def Identity.fingerprintSum (sha256 : Bytes → Digest) (i : Identity) : Except String Digest := do
  i.normalized.validateForEnrollment
  return sha256 i.normalized.canonical.toUTF8.data.toList

def Identity.fingerprint (sha256 : Bytes → Digest) (i : Identity) : Except String String := do
  let sum ← i.fingerprintSum sha256
  return Hex.text sum.toList

/-! ## Enrollments -/

def enrollmentSchemaVersion : Int := 1
def defaultFilesystem : String := "luks2-ext4"

structure Enrollment where
  schemaVersion : Int
  enrollmentID : String
  label : String
  identity : Identity
  filesystem : String
  deriving DecidableEq

def enrollmentIDPattern : Bool :=
  "usb-".toList.isPrefixOf text.toList && isHexText 16 (text.toList.drop 4)

def isLabelChar (c : Char) : Bool := c.isUpper || c.isDigit

def labelPattern : Bool :=
  match text.toList with
  | [] => false
  | c :: rest =>
    isLabelChar c && rest.length ≤ 31 &&
      rest.all fun c => isLabelChar c || c == '_' || c == '-'

def Enrollment.validate (sha256 : Bytes → Digest) (e : Enrollment) : Except String Unit := do
  failIf (e.schemaVersion ≠ enrollmentSchemaVersion) "unsupported USB enrollment schema version"
  failIf (!enrollmentIDPattern e.enrollmentID) "USB enrollment ID is invalid"
  failIf (!labelPattern e.label) "USB enrollment label is invalid"
  failIf (e.filesystem ≠ defaultFilesystem) "USB enrollment filesystem is unsupported"
  e.identity.validateForEnrollment
  let sum ← e.identity.fingerprintSum sha256
  failIf (e.enrollmentID ≠ "usb-" ++ Hex.text (sum.toList.take 8))
    "USB enrollment ID does not match its identity"

end PrivateVm.Usb
