/-
Module: ForestLink.Cloud.Server
Purpose: The topic message request of the admin server: what `POST /api/topic_msg` accepts
  and the command it publishes for it (`internal/server/server.go`).
Trusted boundary: none
Main exports: TopicBody, TopicBody.dataBytes, topicMsg
-/
import ForestLink.Protocol.Packet
import ForestLink.Cloud.Ingress

namespace ForestLink.Cloud

/-!
Strings of a request are given as their bytes.  The answer to an accepted request repeats
the request and is left out.
-/

/-- The JSON body of the request. -/
structure TopicBody where
  topic : List UInt8 := []
  data : List UInt8 := []
  message : List UInt8 := []
deriving Repr, DecidableEq

/-- `strings.TrimPrefix` -/
def trimPrefix (start text : List UInt8) : List UInt8 :=
  if start.isPrefixOf text then text.drop start.length else text

/-- `hex.DecodeString` for a text of even length. -/
def decodeHexString : List UInt8 → Option (List UInt8)
  | high :: low :: rest => do
      let high ← hexDigit? (Char.ofNat high.toNat)
      let low ← hexDigit? (Char.ofNat low.toNat)
      let rest ← decodeHexString rest
      pure (UInt8.ofNat (16 * high + low) :: rest)
  | [] => some []
  | [_] => none

/-- The hex mode of the request: both prefixes are cut, an odd text gets a zero in front. -/
def hexData (data : List UInt8) : Option (List UInt8) :=
  -- the bytes of `0x`, `0X` and `0`
  let text := trimPrefix [0x30, 0x58] (trimPrefix [0x30, 0x78] data)
  decodeHexString (if text.length % 2 ≠ 0 then 0x30 :: text else text)

/-- `dataBytes`: the message as it stands, else the decoded hex text. -/
def TopicBody.dataBytes (body : TopicBody) : Option (List UInt8) :=
  if body.message ≠ [] then some body.message
  else if body.data ≠ [] then hexData body.data
  else some []

/-- The length check of the node id and `strconv.ParseUint(nodeID, 16, 16)`. -/
def targetAddress (nodeId : List UInt8) : Except String Nat :=
  if nodeId = [] then .error "node_id required"
  else if nodeId.length < 1 ∨ nodeId.length > 4 then
    .error "node_id must be 1-4 hex characters"
  else
    match parseUint16 (nodeId.map fun byte => Char.ofNat byte.toNat) with
    | none => .error "node_id must be valid hex"
    | some target => .ok target

/-- `PutUint16` of the target, the command, and the topic with its length before the data. -/
def topicCommand (target : Nat) (topic data : List UInt8) : List UInt8 :=
  Protocol.writeLe target 2 ++ 0x10 :: UInt8.ofNat topic.length :: topic ++ data

/-- `POST /api/topic_msg/<node_id>`: the bytes published to `flp/admin/cmd`, or the text of
the refusal. -/
def topicMsg (nodeId : List UInt8) (body : TopicBody) : Except String (List UInt8) := do
  let target ← targetAddress nodeId
  if body.topic = [] then throw "topic required"
  if body.topic.length > 31 then throw "topic length must be <= 31"
  match body.dataBytes with
  | none => throw "data must be valid hex"
  | some data =>
      if body.topic.length + data.length > 64 then
        throw "topic+data exceeds 64-byte firmware limit"
      pure (topicCommand target body.topic data)

end ForestLink.Cloud
