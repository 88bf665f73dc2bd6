/-
Module: ForestLink.Cloud.MetaJson
Purpose: `json.Unmarshal` of the payload of a file meta into `FileMeta`, as `onMessage` calls it
  (`internal/mqtt/client.go`, `internal/mqtt/messages.go`).
Trusted boundary: none
Main exports: MetaField, metaField, MetaFields, MetaFields.store, unmarshalMeta
-/
import ForestLink.Lib.Json

namespace ForestLink.Cloud

open ForestLink.Lib

/-!
Strings are given as their bytes.  An error of `Unmarshal` drops the message, whatever it
has stored by then, so that a reading with an error is no reading.
-/

/-! ## Fields -/

/-- The fields of `FileMeta` with a JSON name. -/
inductive MetaField where
  | sessionId | sourceNode | filename | totalSize | chunkCount | crc32 | fragmentSize
deriving Repr, DecidableEq

namespace MetaField

/-- The JSON name in the tag of a field. -/
def name : MetaField → List UInt8
  | sessionId => ascii "session_id"
  | sourceNode => ascii "src_node"
  | filename => ascii "filename"
  | totalSize => ascii "total_size"
  | chunkCount => ascii "chunk_count"
  | crc32 => ascii "crc32"
  | fragmentSize => ascii "fragment_size"

def all : List MetaField :=
  [sessionId, sourceNode, filename, totalSize, chunkCount, crc32, fragmentSize]

end MetaField

/-- `foldName`: letters become capitals, as do the two letters outside ASCII whose capitals are
in it (the long s and the Kelvin sign). -/
def foldName : List UInt8 → List UInt8
  | 0xC5 :: 0xBF :: rest => 0x53 :: foldName rest
  | 0xE2 :: 0x84 :: 0xAA :: rest => 0x4B :: foldName rest
  | byte :: rest => (if 0x61 ≤ byte ∧ byte ≤ 0x7A then byte - 0x20 else byte) :: foldName rest
  | [] => []

/-- The field of a key: the one of that name, else the one of that name but for case. -/
def metaField (key : List UInt8) : Option MetaField :=
  match MetaField.all.find? fun field => field.name = key with
  | some field => some field
  | none => MetaField.all.find? fun field => foldName field.name = foldName key

/-! ## Values -/

/-- What `FileMeta` holds in these fields; `SessionID` is a `json.Number`, which is text. -/
structure MetaFields where
  sessionId : List UInt8 := []
  sourceNode : List UInt8 := []
  filename : List UInt8 := []
  totalSize : Int := 0
  chunkCount : Int := 0
  crc32 : Nat := 0
  fragmentSize : Int := 0
deriving Repr, DecidableEq

/-- `isValidNumber` -/
def isValidNumber (text : List UInt8) : Bool :=
  match readNumber text with
  | some (_, []) => true
  | _ => false

/-- `strconv.ParseInt(text, 10, 64)` -/
def parseInt (text : List UInt8) : Option Int :=
  let (negative, digits) := cSign text
  if digits = [] ∨ digits.any (fun byte => !isDigit byte) then none
  else
    let value : Int := if negative then -digitsValue digits else digitsValue digits
    if -2 ^ 63 ≤ value ∧ value < 2 ^ 63 then some value else none

/-- `strconv.ParseUint(text, 10, 64)` of a value that a `uint32` holds. -/
def parseUint32 (text : List UInt8) : Option Nat :=
  if text = [] ∨ text.any (fun byte => !isDigit byte) then none
  else if digitsValue text < 2 ^ 32 then some (digitsValue text) else none

/-- `literalStore` of a value into a field. -/
def MetaFields.store (fields : MetaFields) (field : MetaField) (value : JsonValue) :
    Option MetaFields :=
  match field, value with
  | _, .null => some fields
  | .sessionId, .number text => some { fields with sessionId := text }
  | .sessionId, .string text =>
      if isValidNumber text then some { fields with sessionId := text } else none
  | .sourceNode, .string text => some { fields with sourceNode := text }
  | .filename, .string text => some { fields with filename := text }
  | .totalSize, .number text =>
      (parseInt text).map fun value => { fields with totalSize := value }
  | .chunkCount, .number text =>
      (parseInt text).map fun value => { fields with chunkCount := value }
  | .crc32, .number text => (parseUint32 text).map fun value => { fields with crc32 := value }
  | .fragmentSize, .number text =>
      (parseInt text).map fun value => { fields with fragmentSize := value }
  | _, _ => none

/-- A member goes to the field of its key, if there is one. -/
def MetaFields.storeMember (fields : MetaFields) (member : List UInt8 × JsonValue) :
    Option MetaFields :=
  match metaField member.1 with
  | some field => fields.store field member.2
  | none => some fields

/-- `json.Unmarshal(msg.Payload(), &fm)`: an object, or `null`, and nothing behind it. -/
def unmarshalMeta (payload : List UInt8) : Option MetaFields :=
  match skipSpace payload with
  | 0x7B :: text => do
      let (members, rest) ← readObject (jsonFuel text) text
      if skipSpace rest = [] then members.foldlM MetaFields.storeMember {} else none
  | text =>
      match readScalar text with
      | some (.null, rest) => if skipSpace rest = [] then some {} else none
      | _ => none

end ForestLink.Cloud
