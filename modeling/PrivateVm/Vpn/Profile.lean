import PrivateVm.Basic.Checked
import PrivateVm.Basic.Hostname
import PrivateVm.Vpn.Model

set_option autoImplicit false

/-! # Profiles (`internal/vpn/profile.go`)

The parser of a profile and the text that is rendered for a guest. The parsers of addresses and of
base 64, and `unicode.ToLower`, are those of Go's library: they are parameters, in a `Codec`. What
an address is printed as is that of `Netip`.
-/

namespace PrivateVm.Vpn

open Netip Checked Text

/-- The functions of Go's library that read a field. -/
structure Codec where
  parseAddr : List Char → Option Addr
  parsePrefix : List Char → Option Prefix
  /-- `base64.StdEncoding.Strict().Decode` -/
  decode : List Char → Option (List UInt8)
  /-- `unicode.ToLower` -/
  lower : Char → Char

def maximumProfileBytes : Nat := 64 * 1024
def maximumProfileLines : Nat := 256
def maximumAddresses : Nat := 8
def maximumDNSServers : Nat := 8

/-! ## Sections and fields -/

inductive Section where
  | interface
  | peer
  deriving DecidableEq

inductive Field where
  | privateKey
  | address
  | dns
  | publicKey
  | allowedIPs
  | endpoint
  deriving DecidableEq

def Field.name : Field → List Char
  | .privateKey => "PrivateKey".toList
  | .address => "Address".toList
  | .dns => "DNS".toList
  | .publicKey => "PublicKey".toList
  | .allowedIPs => "AllowedIPs".toList
  | .endpoint => "Endpoint".toList

def Section.fields : Section → List Field
  | .interface => [.privateKey, .address, .dns]
  | .peer => [.publicKey, .allowedIPs, .endpoint]

/-- `allowedField`: the field of a section with a name. -/
def Section.field (current : Section) (name : List Char) : Option Field :=
  current.fields.find? (·.name = name)

/-- Where the reader of lines stands: the current section, the sections seen, and the fields with
their values. A field belongs to one section only. -/
structure Scan where
  current : Option Section
  seenInterface : Bool
  seenPeer : Bool
  fields : List (Field × List Char)

def Scan.start : Scan := ⟨none, false, false, []⟩

def hasUnsafeControl (text : List Char) : Bool :=
  text.any fun c => (c.toNat < 0x20 && c != '\t') || c.toNat = 0x7f

/-- A line that is neither empty nor a comment. -/
def Scan.content (scan : Scan) (line : List Char) : Except Error Scan := do
  failIf (hasUnsafeControl line) invalidProfile
  if line.head? = some '[' then
    if line = "[Interface]".toList then
      failIf (scan.seenInterface ∨ scan.seenPeer) invalidProfile
      return { scan with seenInterface := true, current := some .interface }
    else if line = "[Peer]".toList then
      failIf (¬ scan.seenInterface ∨ scan.seenPeer) invalidProfile
      return { scan with seenPeer := true, current := some .peer }
    else throw invalidProfile
  else match scan.current with
  | none => throw invalidProfile
  | some current =>
    -- there is a sign, and not at the start
    failIf ('=' ∉ line ∨ line.head? = some '=') invalidProfile
    let name := trimSpace (line.takeWhile (· ≠ '='))
    let value := trimSpace ((line.dropWhile (· ≠ '=')).drop 1)
    match current.field name with
    | none => throw invalidProfile
    | some field =>
      failIf (value = [] ∨ (scan.fields.lookup field).isSome) invalidProfile
      return { scan with fields := (field, value) :: scan.fields }

def Scan.line (scan : Scan) (line : List Char) : Except Error Scan :=
  let line := trimSpace line
  if line = [] ∨ line.head? = some '#' then .ok scan else scan.content line

/-- The value of a field; `hasExactFields` asks for all of them. -/
def Scan.value (scan : Scan) (field : Field) : Except Error (List Char) :=
  ofOption invalidProfile (scan.fields.lookup field)

/-! ## The parsers of the fields -/

section

variable (codec : Codec) (value : List Char)

/-- The text must be 44 bytes long, and encode 32 bytes, not all of them zero. A text of 33 bytes
is refused here; Go's decoder writes the last of them past the end of the array, and panics. -/
def decodeKey : Option (List UInt8) := do
  guard (byteLength value = 44)
  let decoded ← codec.decode value
  guard (decoded.length = 32 ∧ decoded.any (· ≠ 0))
  return decoded

def splitCSV (maximum : Nat) : Option (List (List Char)) := do
  let parts := value.splitOn ','
  guard (parts.length ≠ 0 ∧ parts.length ≤ maximum)
  let parts := parts.map trimSpace
  guard (∀ part ∈ parts, part ≠ [])
  return parts

/-- The values of the parts of a list, each of them safe and none of them twice. -/
def collectDistinct {α : Type} [DecidableEq α] (parse : List Char → Option α) (safe : α → Bool) :
    List (List Char) → List α → Option (List α)
  | [], values => some values
  | part :: parts, values => do
      let value ← parse part
      guard (safe value ∧ value ∉ values)
      collectDistinct parse safe parts (values ++ [value])

/-- There must be an address of version 4. -/
def parseAddresses : Option (List Prefix) := do
  let parts ← splitCSV value maximumAddresses
  let addresses ← collectDistinct codec.parsePrefix safeInterfaceAddress parts []
  guard (addresses.any (·.addr.is4))
  return addresses

def parseDNS : Option (List Addr) := do
  let parts ← splitCSV value maximumDNSServers
  collectDistinct codec.parseAddr (fun a => !a.is4In6 && safeDNSAddress a) parts []

/-- Whether the default route of version 6 is there; that of version 4 must be. -/
def parseAllowedIPs : Option Bool := do
  match ← splitCSV value 2 with
  | [first] =>
    guard (codec.parsePrefix first = some (prefixFrom (.v4 0) 0))
    return false
  | [first, second] =>
    guard (codec.parsePrefix first = some (prefixFrom (.v4 0) 0))
    guard (codec.parsePrefix second = some (prefixFrom (.v6 0 "") 0))
    return true
  | _ => none

/-- Names that are not public are refused. -/
def safeEndpointHostname (host : List Char) : Bool :=
  host.length != 0 && host.length ≤ 253 && host != "localhost".toList &&
    !".localhost".toList.isSuffixOf host && !".local".toList.isSuffixOf host &&
    !".internal".toList.isSuffixOf host && Hostname.isName host

/-- `strconv.ParseUint` for a port: decimal digits, in 16 bits and not zero. -/
def parsePort (text : List Char) : Option UInt16 := do
  guard (text ≠ [] ∧ text.all Char.isDigit)
  let port := Nat.ofDigitChars 10 text 0
  guard (port < 65536 ∧ port ≠ 0)
  return UInt16.ofNat port

def parseEndpoint : Option Endpoint := do
  guard (byteLength value ≤ 512)
  let (host, portText) ← splitHostPort value
  guard (host ≠ [])
  let port ← parsePort portText
  match codec.parseAddr host with
  | some literal =>
    guard (¬ literal.is4In6 ∧ publicEndpointAddress literal)
    return ⟨[], literal, port⟩
  | none =>
    let host := (Hostname.trimSuffix '.' host).map codec.lower
    guard (safeEndpointHostname host)
    return ⟨host ++ ['.'], .zero, port⟩

/-! ## The parser -/

structure Profile where
  privateKey : List UInt8
  addresses : List Prefix
  dnsServers : List Addr
  publicKey : List UInt8
  allowedV6 : Bool
  endpoint : Endpoint
  deriving DecidableEq

def usesV6 (addresses : List Prefix) (dnsServers : List Addr) : Bool :=
  addresses.any (!·.addr.is4) || dnsServers.any (·.is6)

def parseText (text : List Char) : Except Error Profile := do
  failIf ('\x00' ∈ text) invalidProfile
  failIf (maximumProfileLines < (lines text).length) invalidProfile
  let scan ← (lines text).foldlM Scan.line .start
  failIf (¬ scan.seenInterface ∨ ¬ scan.seenPeer) invalidProfile
  let privateKey ← ofOption invalidProfile (decodeKey codec (← scan.value .privateKey))
  let addresses ← ofOption invalidProfile (parseAddresses codec (← scan.value .address))
  let dnsServers ← ofOption invalidProfile (parseDNS codec (← scan.value .dns))
  let publicKey ← ofOption invalidProfile (decodeKey codec (← scan.value .publicKey))
  let allowedV6 ← ofOption invalidProfile (parseAllowedIPs codec (← scan.value .allowedIPs))
  failIf (usesV6 addresses dnsServers ∧ ¬ allowedV6) invalidProfile
  let endpoint ← ofOption invalidProfile (parseEndpoint codec (← scan.value .endpoint))
  return ⟨privateKey, addresses, dnsServers, publicKey, allowedV6, endpoint⟩

/-- `Parse`, for a reader that delivers these bytes. -/
def parse (raw : ByteArray) : Except Error Profile := do
  failIf (raw.size = 0 ∨ maximumProfileBytes < raw.size) invalidProfile
  let text ← ofOption invalidProfile raw.utf8Decode?
  parseText codec text.toList

end

/-! ## The text for a guest -/

def writeEndpoint (e : ResolvedEndpoint) : List Char :=
  (if e.address.is6 then '[' :: e.address.text ++ [']'] else e.address.text) ++
    ':' :: Nat.toDigits 10 e.port.toNat

def writeAllowedIPs (allowedV6 : Bool) : List Char :=
  "0.0.0.0/0".toList ++ if allowedV6 then ", ::/0".toList else []

def writeField (field : Field) (value : List Char) : List Char :=
  field.name ++ " = ".toList ++ value

/-- The lines of the text, each of which ends with a line feed. -/
def Profile.configLines (p : Profile) (resolved : ResolvedEndpoint) : List (List Char) :=
  ["[Interface]".toList,
    writeField .privateKey (base64 p.privateKey),
    writeField .address (commaSeparated (p.addresses.map Prefix.text)),
    writeField .dns (commaSeparated (p.dnsServers.map Addr.text)),
    [],
    "[Peer]".toList,
    writeField .publicKey (base64 p.publicKey),
    writeField .allowedIPs (writeAllowedIPs p.allowedV6),
    writeField .endpoint (writeEndpoint resolved)]

/-- The configuration of a guest. A profile that has been destroyed has no contents left. -/
def withResolvedConfig (profile : Option Profile) (resolved : ResolvedEndpoint) :
    Except Error (List Char) := do
  failIf (¬ resolved.valid) invalidProfile
  let p ← ofOption invalidProfile profile
  failIf (p.endpoint.port ≠ resolved.port) invalidProfile
  let text := (p.configLines resolved).flatMap (· ++ ['\n'])
  failIf (maximumProfileBytes < byteLength text) invalidProfile
  return text

end PrivateVm.Vpn
