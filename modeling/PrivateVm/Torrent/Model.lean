import PrivateVm.AppError
import PrivateVm.Basic.Checked
import Mathlib.Algebra.Ring.Nat
import Mathlib.Data.Vector.Defs

set_option autoImplicit false

/-! # The torrent model (`internal/torrent/model.go`, `internal/torrent/errors.go`)

A path is the list of its characters. The two Unicode operations the source takes from libraries,
normalisation to NFC and the lower case of a character, are a parameter (`Unicode`). Lengths count
bytes. Formatting and serialisation of redacted values are left out.
-/

namespace PrivateVm.Torrent

open Checked

/-! ## Errors -/

inductive Sentinel where
  | invalidRequest
  | invalidInput
  | inputTooLarge
  | metadataUnavailable
  | unsafeMetadata
  | invalidSelection
  | capacityEvidence
  | capacity
  | notApproved
  | downloadStalled
  | downloadFailed
  | vpnLost
  | sealFailed
  | cleanupIncomplete
  deriving DecidableEq

abbrev Error := Err Sentinel

def invalidRequest : Error :=
  .app ⟨"TORRENT_REQUEST_INVALID", .torrent, "The torrent workflow request is invalid.",
    "Inspect the volatile downloader state and retry the permitted next transition.",
    .invalidRequest⟩

def invalidInput : Error :=
  .app ⟨"TORRENT_INPUT_INVALID", .torrent, "The bounded torrent input is malformed.",
    "Supply one valid magnet URI through hidden terminal input or standard input, or one " ++
      "regular .torrent file.", .invalidInput⟩

/-- A cancelled context is passed on. -/
def metadataUnavailable : Fault → Error
  | .canceled => .cause .canceled
  | _ => .app ⟨"TORRENT_METADATA_TIMEOUT", .torrent,
      "Torrent metadata was not obtained within the bounded planning window.",
      "Keep payload paused, verify VPN health, and retry with a valid source.",
      .metadataUnavailable⟩

def unsafeMetadata : Error :=
  .app ⟨"TORRENT_METADATA_UNSAFE", .torrent,
    "Torrent metadata violates the path or file-count policy.",
    "Reject this torrent; do not download payload bytes from unsafe metadata.", .unsafeMetadata⟩

def invalidSelection : Error :=
  .app ⟨"TORRENT_SELECTION_INVALID", .torrent,
    "The requested torrent file selection is invalid.",
    "Select each displayed file index at most once and exclude every blocked file.",
    .invalidSelection⟩

def blockedType : Error :=
  .app ⟨"TORRENT_EXECUTABLE_BLOCKED", .torrent,
    "The safe policy blocks an executable, script, package, or disk image selection.",
    "Deselect blocked content; safe mode never promotes these file types.", .invalidSelection⟩

def insufficientCapacity : Error :=
  .app ⟨"TORRENT_CAPACITY_INSUFFICIENT", .storage,
    "The selected torrent cannot fit every required encrypted workflow stage.",
    "Reduce the selection or provide more encrypted quarantine, scan, reconstruction, and " ++
      "destination capacity.", .capacity⟩

def capacityEvidenceUnavailable : Error :=
  .app ⟨"TORRENT_CAPACITY_EVIDENCE_UNAVAILABLE", .storage,
    "Independent capacity evidence is unavailable for the complete torrent workflow.",
    "Select a supported downstream destination and retry after its scanner, reconstruction, " ++
      "and destination capacity can be verified.", .capacityEvidence⟩

def notApproved : Error :=
  .app ⟨"TORRENT_PAYLOAD_NOT_APPROVED", .torrent,
    "Torrent payload transfer is not approved for the current state.",
    "Complete metadata review, explicit selection, and capacity verification before starting " ++
      "payload transfer.", .notApproved⟩

def downloadStalled : Error :=
  .app ⟨"TORRENT_DOWNLOAD_STALLED", .torrent,
    "The torrent made no progress within the bounded stall window.",
    "Leave the payload paused, inspect VPN health, and explicitly retry or abort.",
    .downloadStalled⟩

def downloadFailed : Error :=
  .app ⟨"TORRENT_DOWNLOAD_FAILED", .torrent,
    "The torrent client reported a bounded download failure.",
    "Keep quarantine sealed from later roles, destroy the downloader, and retry with a fresh " ++
      "session.", .downloadFailed⟩

def vpnLost : Error :=
  .app ⟨"TORRENT_VPN_LOST", .network,
    "The verified VPN was lost and torrent transfer was paused.",
    "Keep the kill switch armed; re-verify the tunnel before an explicit resume.", .vpnLost⟩

def sealFailed : Error :=
  .app ⟨"QUARANTINE_SEAL_FAILED", .torrent,
    "The completed quarantine could not be verified and sealed.",
    "Do not attach quarantine to the scanner; retry bounded sealing or abort and clean the " ++
      "session.", .sealFailed⟩

def cleanupIncomplete : Error :=
  .app ⟨"DOWNLOADER_CLEANUP_INCOMPLETE", .cleanup,
    "The downloader was not proven destroyed after quarantine sealing.",
    "Keep scanner attachment blocked and retry the single cleanup owner until its absence " ++
      "audit passes.", .cleanupIncomplete⟩

/-! ## States and handles -/

inductive State where
  | empty
  | metadataFetching
  | selectionRequired
  | capacityVerified
  | downloading
  | paused
  | downloadComplete
  | sealing
  | sealed
  deriving DecidableEq

def maximumFiles : Nat := 100000
def maximumPathBytes : Nat := 1024
def maximumDisplayName : Nat := 255

def byteLength (s : List Char) : Nat := (s.map Char.utf8Size).sum

/-- The content identifier of a torrent at the client; empty when there is none. -/
structure Handle where
  value : List Char
  deriving DecidableEq

def isHexDigit (c : Char) : Bool :=
  ('0' ≤ c && c ≤ '9') || ('a' ≤ c && c ≤ 'f')

def newHandle (value : List Char) : Except Error Handle := do
  failIf (byteLength value ≠ 40 ∧ byteLength value ≠ 64) invalidRequest
  failIf (¬ value.all isHexDigit) invalidRequest
  return ⟨value⟩

def Handle.valid (handle : Handle) : Bool := (newHandle handle.value).isOk

/-! ## Metadata -/

/-- A string received from the client: a text, or bytes that are not valid UTF-8. -/
inductive RawText where
  | text (value : List Char)
  | malformed (bytes : List UInt8)
  deriving DecidableEq

structure RawFile where
  index : UInt32
  path : RawText
  size : UInt64
  deriving DecidableEq

structure RawMetadata where
  available : Bool
  payloadRead : UInt64
  displayName : RawText
  files : List RawFile
  deriving DecidableEq

inductive FileType where
  | executable
  | script
  | package
  | diskImage
  | archive
  | document
  | image
  | media
  | text
  | unknown
  deriving DecidableEq

inductive Hazard where
  | executable
  | script
  | package
  | diskImage
  | archive
  | unknown
  deriving DecidableEq

structure File where
  index : UInt32
  displayPath : List Char
  sizeBytes : UInt64
  selected : Bool
  suspectedType : FileType
  hazardCodes : List Hazard
  deriving DecidableEq

structure Metadata where
  displayName : List Char
  files : List File
  totalSizeBytes : UInt64
  selectedSizeBytes : UInt64
  payloadPaused : Bool
  deriving DecidableEq

def Metadata.zero : Metadata := ⟨[], [], 0, 0, false⟩

/-! ## Capacity -/

inductive Destination where
  | workstation
  | usb
  /-- Any other string. -/
  | other
  deriving DecidableEq

/-- Limits of the stages after the download, attested by the daemon. -/
structure CapacityEvidence where
  destination : Destination
  scanAvailableBytes : UInt64
  reconstructionAvailable : UInt64
  destinationAvailable : UInt64
  rootOverlayBudgetBytes : UInt64
  archiveExpansionBytes : UInt64
  reconstructionBytes : UInt64
  maximumOutputBytes : UInt64
  maximumSelectedBytes : UInt64
  deriving DecidableEq

structure CapacityBudget where
  quarantineAvailableBytes : UInt64
  scanAvailableBytes : UInt64
  reconstructionAvailable : UInt64
  destinationAvailable : UInt64
  rootOverlayBudgetBytes : UInt64
  archiveExpansionBytes : UInt64
  reconstructionBytes : UInt64
  maximumOutputBytes : UInt64
  maximumSelectedBytes : UInt64
  deriving DecidableEq

def CapacityEvidence.budget (evidence : CapacityEvidence) (quarantineAvailable : UInt64) :
    Except Error CapacityBudget := do
  failIf (evidence.destination ≠ .workstation ∧ evidence.destination ≠ .usb ∨
    quarantineAvailable = 0 ∨ evidence.scanAvailableBytes = 0 ∨
    evidence.reconstructionAvailable = 0 ∨ evidence.destinationAvailable = 0 ∨
    evidence.rootOverlayBudgetBytes = 0 ∨ evidence.reconstructionBytes = 0 ∨
    evidence.maximumOutputBytes = 0 ∨ evidence.maximumSelectedBytes = 0)
    capacityEvidenceUnavailable
  return {
    quarantineAvailableBytes := quarantineAvailable
    scanAvailableBytes := evidence.scanAvailableBytes
    reconstructionAvailable := evidence.reconstructionAvailable
    destinationAvailable := evidence.destinationAvailable
    rootOverlayBudgetBytes := evidence.rootOverlayBudgetBytes
    archiveExpansionBytes := evidence.archiveExpansionBytes
    reconstructionBytes := evidence.reconstructionBytes
    maximumOutputBytes := evidence.maximumOutputBytes
    maximumSelectedBytes := evidence.maximumSelectedBytes }

structure CapacityPlan where
  selectedBytes : UInt64
  quarantineRequired : UInt64
  scanRequired : UInt64
  reconstructionNeed : UInt64
  destinationRequired : UInt64
  sessionRequired : UInt64
  safetyMargin : UInt64
  quarantineMargin : UInt64
  scanMargin : UInt64
  reconstructionMargin : UInt64
  destinationMargin : UInt64
  deriving DecidableEq

def CapacityPlan.zero : CapacityPlan := ⟨0, 0, 0, 0, 0, 0, 0, 0, 0, 0, 0⟩

structure Progress where
  completedBytes : UInt64
  totalBytes : UInt64
  deriving DecidableEq

structure Status where
  schemaVersion : Nat
  state : State
  progress : Progress
  code : String
  remediation : String
  deriving DecidableEq

def checkedAdd (left right : UInt64) : UInt64 × Bool :=
  (left + right, left + right < left)

/-! ## Paths -/

/-- What the source takes from Unicode libraries. -/
structure Unicode where
  lower : Char → Char
  nfc : List Char → List Char
  nfc_nfc : ∀ s, nfc (nfc s) = nfc s

/-- Unicode restricted to ASCII, where every text is in normal form. -/
def Unicode.ascii : Unicode where
  lower := Char.toLower
  nfc := id
  nfc_nfc _ := rfl

/-- The pieces between occurrences of a character (`strings.Split`). -/
def split (sep : Char) : List Char → List (List Char)
  | [] => [[]]
  | c :: cs =>
    if c = sep then [] :: split sep cs
    else
      match split sep cs with
      | [] => [[c]]
      | piece :: pieces => (c :: piece) :: pieces

/-- One element of a path on the elements kept so far, the last of them first. -/
def cleanElement (rooted : Bool) (kept : List (List Char)) (element : List Char) :
    List (List Char) :=
  if element = [] ∨ element = ['.'] then kept
  else if element = ['.', '.'] then
    match kept with
    | [] => if rooted then [] else [element]
    | last :: rest => if last = ['.', '.'] then element :: kept else rest
  else element :: kept

/-- The shortest path that is lexically equivalent (`path.Clean`). -/
def clean (value : List Char) : List Char :=
  let rooted := value.head? = some '/'
  let elements := ((split '/' value).foldl (cleanElement rooted) []).reverse
  let joined := ['/'].intercalate elements
  if rooted then '/' :: joined
  else if joined = [] then ['.']
  else joined

/-- The suffix from the last dot of the last element on (`path.Ext`). -/
def ext (value : List Char) : List Char :=
  let last := (value.reverse.takeWhile (· ≠ '/')).reverse
  if '.' ∈ last then '.' :: (last.reverse.takeWhile (· ≠ '.')).reverse else []

/-- Without a suffix, where there is one (`strings.TrimSuffix`). -/
def trimSuffix (value suffix : List Char) : List Char :=
  if suffix <:+ value then value.take (value.length - suffix.length) else value

def reservedNames : List (List Char) :=
  ["con".toList, "prn".toList, "aux".toList, "nul".toList, "clock$".toList]

def windowsReservedName (U : Unicode) (value : List Char) : Bool :=
  let base := trimSuffix (value.map U.lower) (ext value)
  base ∈ reservedNames ||
    match base with
    | [a, b, c, d] =>
      byteLength base = 4 && ([a, b, c] = "com".toList || [a, b, c] = "lpt".toList) &&
        '1' ≤ d && d ≤ '9'
    | _ => false

def forbiddenInPath : List Char := ['\x00', '\r', '\n', '\\']

def validateRelativePath (U : Unicode) (value : RawText) : Except Error (List Char) :=
  match value with
  | .malformed _ => .error unsafeMetadata
  | .text value => do
      failIf (value = [] ∨ byteLength value > maximumPathBytes ∨
        value.any (· ∈ forbiddenInPath) ∨ value.head? = some '/' ∨ clean value ≠ value)
        unsafeMetadata
      failIf ((split '/' value).any fun element =>
        element = [] || element = ['.'] || element = ['.', '.'] ||
          byteLength element > 255 || windowsReservedName U element)
        unsafeMetadata
      return value

def executableSuffixes : List String :=
  [".exe", ".com", ".scr", ".dll", ".msi", ".appimage", ".apk"]
def scriptSuffixes : List String := [".bat", ".cmd", ".ps1", ".sh", ".js", ".vbs", ".py", ".pl"]
def packageSuffixes : List String := [".deb", ".rpm", ".pkg", ".jar"]
def diskImageSuffixes : List String :=
  [".iso", ".img", ".vhd", ".vhdx", ".vmdk", ".qcow", ".qcow2"]
def archiveSuffixes : List String := [".zip", ".tar", ".gz", ".bz2", ".xz", ".7z", ".rar"]
def documentSuffixes : List String :=
  [".pdf", ".doc", ".docx", ".xls", ".xlsx", ".ppt", ".pptx", ".odt", ".ods", ".odp"]
def imageSuffixes : List String :=
  [".jpg", ".jpeg", ".png", ".gif", ".webp", ".tif", ".tiff", ".bmp"]
def mediaSuffixes : List String :=
  [".mp3", ".wav", ".flac", ".ogg", ".mp4", ".mkv", ".webm", ".mov"]
def textSuffixes : List String := [".txt", ".md", ".csv"]

/-- The type a file's suffix suggests, and the hazards that go with it. -/
def classifyPath (U : Unicode) (value : List Char) : FileType × List Hazard :=
  let extension := (ext value).map U.lower
  let among (suffixes : List String) : Bool := suffixes.any (·.toList = extension)
  if among executableSuffixes then (.executable, [.executable])
  else if among scriptSuffixes then (.script, [.script])
  else if among packageSuffixes then (.package, [.package])
  else if among diskImageSuffixes then (.diskImage, [.diskImage])
  else if among archiveSuffixes then (.archive, [.archive])
  else if among documentSuffixes then (.document, [])
  else if among imageSuffixes then (.image, [])
  else if among mediaSuffixes then (.media, [])
  else if among textSuffixes then (.text, [])
  else (.unknown, [.unknown])

def hasBlockedType (file : File) : Bool :=
  file.hazardCodes.contains .executable || file.hazardCodes.contains .script ||
    file.hazardCodes.contains .package || file.hazardCodes.contains .diskImage

def hasArchive (file : File) : Bool := file.hazardCodes.contains .archive

/-! ## Validation of metadata -/

def forbiddenInName : List Char := ['\x00', '\r', '\n']

def validateDisplayName : RawText → Except Error (List Char)
  | .malformed _ => .error unsafeMetadata
  | .text name => do
      failIf (byteLength name = 0 ∨ byteLength name > maximumDisplayName ∨
        name.any (· ∈ forbiddenInName)) unsafeMetadata
      return name

/-- What the loop over the files carries: the files so far, their total size, and the paths and
lower-case paths seen. -/
structure Admitted where
  files : List File
  total : UInt64
  seen : List (List Char)
  seenFolded : List (List Char)

/-- One file, which must have the index `expectedIndex`. -/
def admitFile (U : Unicode) (expectedIndex : Nat) (acc : Admitted) (rawFile : RawFile) :
    Except Error Admitted := do
  failIf (rawFile.index ≠ UInt32.ofNat expectedIndex ∨ rawFile.size = 0) unsafeMetadata
  let path ← validateRelativePath U rawFile.path
  let normalized := U.nfc path
  let folded := normalized.map U.lower
  failIf (normalized ∈ acc.seen) unsafeMetadata
  failIf (folded ∈ acc.seenFolded) unsafeMetadata
  let (fileType, hazards) := classifyPath U normalized
  let (total, overflow) := checkedAdd acc.total rawFile.size
  failIf (overflow = true) unsafeMetadata
  return {
    files := acc.files ++ [⟨rawFile.index, normalized, rawFile.size, false, fileType, hazards⟩]
    total := total
    seen := normalized :: acc.seen
    seenFolded := folded :: acc.seenFolded }

def admitFiles (U : Unicode) : Nat → Admitted → List RawFile → Except Error Admitted
  | _, acc, [] => .ok acc
  | expectedIndex, acc, rawFile :: rest => do
      let acc ← admitFile U expectedIndex acc rawFile
      admitFiles U (expectedIndex + 1) acc rest

def validateMetadata (U : Unicode) (raw : RawMetadata) : Except Error Metadata := do
  failIf (raw.available = false ∨ raw.payloadRead ≠ 0) unsafeMetadata
  let displayName ← validateDisplayName raw.displayName
  failIf (raw.files.length = 0 ∨ raw.files.length > maximumFiles) unsafeMetadata
  let acc ← admitFiles U 0 ⟨[], 0, [], []⟩ raw.files
  return ⟨displayName, acc.files, acc.total, 0, true⟩

/-! ## Manifests -/

abbrev Digest := Vector UInt8 32

structure FileDigest where
  path : List Char
  sizeBytes : UInt64
  sha256 : Digest
  sourceIndex : UInt32
  deriving DecidableEq

structure Manifest where
  files : List FileDigest
  deriving DecidableEq

/-- The manifest after `Destroy`, and the one a controller starts with. -/
def Manifest.none : Manifest := ⟨[]⟩

def allZero (digest : Digest) : Bool := digest.toList.all (· = 0)

def newManifest (U : Unicode) (files : List FileDigest) : Except Error Manifest := do
  failIf (files.length = 0 ∨ files.length > maximumFiles) sealFailed
  failIf (files.any fun file => file.sizeBytes = 0 ||
    !(validateRelativePath U (.text file.path)).isOk || allZero file.sha256) sealFailed
  return ⟨files⟩

/-! ## A sample torrent -/

def sampleRaw (path : String) : RawMetadata :=
  ⟨true, 0, .text "sample".toList, [⟨0, .text path.toList, 3⟩]⟩

end PrivateVm.Torrent
