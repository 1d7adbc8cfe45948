import PrivateVm.Transfer.Frame

set_option autoImplicit false

/-! # Approved outputs

`ApprovedOutput` describes the one file that is exported to a USB device, with the evidence that
its source has approved it. -/

namespace PrivateVm.Usb

open BytePath (containsAny)
open Checked Transfer

/-- `SourceRole`; any other text is `unknown`. -/
inductive SourceRole where
  | scanner
  | workstation
  | unknown (text : String)
  deriving DecidableEq

structure ApprovedOutput where
  sourceRole : SourceRole
  outputID : String
  logicalName : String
  mediaType : String
  size : Nat
  sourceDigest : Digest
  reportAuthenticated : Bool
  reportComplete : Bool
  policyApproved : Bool
  reconstructed : Bool
  exportStateAuthenticated : Bool
  exportStateReady : Bool
  workspaceDestinationAuthorized : Bool
  deriving DecidableEq

def isZero (d : Digest) : Bool := d == Vector.replicate 32 0

/-- The evidence that the role of the source asks for. -/
def ApprovedOutput.checkEvidence (o : ApprovedOutput) : Except String Unit :=
  match o.sourceRole with
  | .scanner =>
    failIf (!o.reportAuthenticated ∨ !o.reportComplete ∨ !o.policyApproved ∨ !o.reconstructed)
      "approved scanner output lacks complete safe-policy evidence"
  | .workstation =>
    failIf (!o.exportStateAuthenticated ∨ o.exportStateReady = o.workspaceDestinationAuthorized)
      "workstation output lacks one authenticated export authorization"
  | .unknown _ => .error "approved output source role is invalid"

/-- `Validate`; texts are valid UTF-8 here. -/
def ApprovedOutput.validate (o : ApprovedOutput) (maxBytes : Nat) : Except String Unit := do
  failIf (o.outputID.utf8ByteSize < 8 ∨ o.outputID.utf8ByteSize > 128 ∨
      containsAny o.outputID.toList ['\x00', '\r', '\n', '/', '\\'])
    "approved output identifier is invalid"
  failIf (o.logicalName = "" ∨ o.logicalName.utf8ByteSize > 255 ∨
      containsAny o.logicalName.toList ['\x00', '\r', '\n', '/', '\\'] ∨ o.logicalName = "." ∨
      o.logicalName = "..")
    "approved output logical name is invalid"
  failIf (o.mediaType = "" ∨ o.mediaType.utf8ByteSize > 255 ∨
      containsAny o.mediaType.toList ['\x00', '\r', '\n'])
    "approved output media type is invalid"
  failIf (o.size = 0 ∨ o.size > maxBytes ∨ isZero o.sourceDigest)
    "approved output size or digest is invalid"
  o.checkEvidence

end PrivateVm.Usb
