import PrivateVm.Session.JsonWalk
import PrivateVm.Session.Validate

set_option autoImplicit false

/-! # The record of a session as bytes (`encodeSnapshot`, `decodeSnapshot`)

The record is a JSON document. Writing validates the snapshot, renders it and bounds its
size. Reading walks the document (`Session/JsonWalk.lean`), decodes it into a snapshot,
validates the snapshot and compares its identifier with the expected one.
-/

namespace PrivateVm.Session

open Timestamp Checked Decimal Json

def maxMetadataSize : Nat := 1048576

/-! ## Writing -/

def member (name : String) (v : Value) : Bytes × Value := (quote name, v)

def textValue (s : String) : Value := .str (quote s)

def natValue (n : Nat) : Value := .num (decimal n)

def intValue (i : Int) : Value :=
  .num (if i < 0 then 45 :: decimal i.natAbs else decimal i.natAbs)

def timeValue (t : Time) : Option Value := (format t).map .str

/-- A member that is left out when it is empty. -/
def omitEmpty (name s : String) : List (Bytes × Value) :=
  if s = "" then [] else [member name (textValue s)]

def eventMembers (e : Event) (time : Value) : List (Bytes × Value) :=
  [member "sequence" (natValue e.sequence), member "code" (textValue e.code),
    member "phase" (textValue e.phase.text)] ++
  (omitEmpty "workflow_state" e.workflowState ++
    [member "message" (textValue e.message), member "time" time])

def eventValue (e : Event) : Option Value :=
  (timeValue e.time).map fun time => .obj (eventMembers e time)

def snapshotMembers (sn : Snapshot) (createdAt updatedAt : Value) (events : List Value) :
    List (Bytes × Value) :=
  [member "schema_version" (intValue sn.schemaVersion), member "id" (textValue sn.id),
    member "owner_uid" (natValue sn.ownerUID.toNat), member "role" (textValue sn.role.text),
    member "phase" (textValue sn.phase.text)] ++
  (omitEmpty "workflow_state" sn.workflowState ++
    [member "sequence" (natValue sn.sequence), member "created_at" createdAt,
      member "updated_at" updatedAt, member "events" (.arr events)])

def snapshotValue (sn : Snapshot) : Option Value := do
  let createdAt ← timeValue sn.createdAt
  let updatedAt ← timeValue sn.updatedAt
  let events ← sn.events.mapM eventValue
  some (.obj (snapshotMembers sn createdAt updatedAt events))

def encodeSnapshot (sn : Snapshot) : Except Err Bytes := do
  validateSnapshot sn
  let v ← ofOption (newError "encode volatile session record: json") (snapshotValue sn)
  let data := render v.toks
  failIf (data.length > maxMetadataSize) (newError "volatile session record exceeds 1 MiB")
  return data

/-! ## Reading scalars -/

def parseInt : Bytes → Option Int
  | 45 :: digits => do
      let n ← digitsValue? digits
      if n ≤ 2 ^ 63 then some (-n) else none
  | digits => do
      let n ← digitsValue? digits
      if n < 2 ^ 63 then some n else none

def parseUint (bits : Nat) (digits : Bytes) : Option Nat := do
  let n ← digitsValue? digits
  if n < 2 ^ bits then some n else none

def readInt : Value → Option Int
  | .num raw => parseInt raw
  | _ => none

def readUint (bits : Nat) : Value → Option Nat
  | .num raw => parseUint bits raw
  | _ => none

def readText : Value → Option String
  | .str raw => some (unquote raw)
  | _ => none

def readTime : Value → Option Time
  | .str raw => Timestamp.parse raw
  | _ => none

/-- Reading into a variable: `null` leaves it as it is. -/
def readInto {α : Type} (read : Value → Option α) (v : Value) (old : α) : Option α :=
  match v with
  | .null => some old
  | v => read v

/-! ## Reading records -/

inductive EventField where
  | sequence
  | code
  | phase
  | workflowState
  | message
  | time
  deriving DecidableEq

def eventTags : Tags EventField where
  tags := [("sequence", .sequence), ("code", .code), ("phase", .phase),
    ("workflow_state", .workflowState), ("message", .message), ("time", .time)]
  names_nodup := by decide
  fields_nodup := by decide
  safe := by decide

def assignEvent (f : EventField) (v : Value) (e : Event) : Option Event :=
  match f with
  | .sequence => (readInto (readUint 64) v e.sequence).map fun x => { e with sequence := x }
  | .code => (readInto readText v e.code).map fun x => { e with code := x }
  | .phase => (readInto readText v e.phase.text).map fun x => { e with phase := .ofText x }
  | .workflowState => (readInto readText v e.workflowState).map fun x =>
    { e with workflowState := x }
  | .message => (readInto readText v e.message).map fun x => { e with message := x }
  | .time => (readInto readTime v e.time).map fun x => { e with time := x }

def zeroTime : Time := ⟨0, 0⟩

def zeroEvent : Event := ⟨0, "", .ofText "", "", "", zeroTime⟩

def decodeEvent (v : Value) (e : Event) : Option Event :=
  match v with
  | .null => some e
  | .obj fields => fillStruct eventTags assignEvent fields e
  | _ => none

/-- Read the items of an array into the elements that a slice's array already holds; returns
the elements read and those left over. -/
def decodeEvents : List Value → List Event → Option (List Event × List Event)
  | [], old => some ([], old)
  | v :: vs, old => do
      let e ← decodeEvent v (old.headD zeroEvent)
      let (es, spare) ← decodeEvents vs old.tail
      return (e :: es, spare)

inductive SnapshotField where
  | schemaVersion
  | id
  | ownerUID
  | role
  | phase
  | workflowState
  | sequence
  | createdAt
  | updatedAt
  | events
  deriving DecidableEq

def snapshotTags : Tags SnapshotField where
  tags := [("schema_version", .schemaVersion), ("id", .id), ("owner_uid", .ownerUID),
    ("role", .role), ("phase", .phase), ("workflow_state", .workflowState),
    ("sequence", .sequence), ("created_at", .createdAt), ("updated_at", .updatedAt),
    ("events", .events)]
  names_nodup := by decide
  fields_nodup := by decide
  safe := by decide

/-- A snapshot being read. A slice keeps the array behind it: elements beyond its length come
back when a later array is longer. -/
structure Draft where
  value : Snapshot
  spare : List Event

def assignEvents (v : Value) (d : Draft) : Option Draft :=
  match v with
  | .null | .arr [] => some ⟨{ d.value with events := [] }, []⟩
  | .arr items => (decodeEvents items (d.value.events ++ d.spare)).map fun r =>
    ⟨{ d.value with events := r.1 }, r.2⟩
  | _ => none

def assignSnapshot (f : SnapshotField) (v : Value) (d : Draft) : Option Draft :=
  let sn := d.value
  match f with
  | .schemaVersion => (readInto readInt v sn.schemaVersion).map fun x =>
    { d with value := { sn with schemaVersion := x } }
  | .id => (readInto readText v sn.id).map fun x => { d with value := { sn with id := x } }
  | .ownerUID => (readInto (readUint 32) v sn.ownerUID.toNat).map fun x =>
    { d with value := { sn with ownerUID := UInt32.ofNat x } }
  | .role => (readInto readText v sn.role.text).map fun x =>
    { d with value := { sn with role := .ofText x } }
  | .phase => (readInto readText v sn.phase.text).map fun x =>
    { d with value := { sn with phase := .ofText x } }
  | .workflowState => (readInto readText v sn.workflowState).map fun x =>
    { d with value := { sn with workflowState := x } }
  | .sequence => (readInto (readUint 64) v sn.sequence).map fun x =>
    { d with value := { sn with sequence := x } }
  | .createdAt => (readInto readTime v sn.createdAt).map fun x =>
    { d with value := { sn with createdAt := x } }
  | .updatedAt => (readInto readTime v sn.updatedAt).map fun x =>
    { d with value := { sn with updatedAt := x } }
  | .events => assignEvents v d

def zeroSnapshot : Snapshot :=
  ⟨0, "", 0, .ofText "", .ofText "", "", 0, zeroTime, zeroTime, []⟩

/-- `Decode(&snapshot)` with unknown fields disallowed. -/
def decodeSnapshotValue : Value → Option Snapshot
  | .null => some zeroSnapshot
  | .obj fields =>
    (fillStruct snapshotTags assignSnapshot fields ⟨zeroSnapshot, []⟩).map Draft.value
  | _ => none

def decodeSnapshot (data : Bytes) (expectedID : String) : Except Err Snapshot := do
  let toks ← ofOption jsonError (lex data)
  rejectDuplicateJSONFields toks
  let sn ← ofOption jsonError ((Json.parse toks).bind decodeSnapshotValue)
  validateSnapshot sn
  failIf (sn.id != expectedID)
    (newError "volatile session record identity does not match its directory")
  return sn

end PrivateVm.Session
