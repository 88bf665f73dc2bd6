/-
Module: ForestLink.Cloud.Publish
Purpose: The messages of the cloud to an exit about chunks: topics and JSON payloads of
  `PublishACK` and `PublishTransferNACK` (`internal/mqtt/client.go`).
Trusted boundary: none
Main exports: ackTopic, ackPayload, transferNackTopic, transferNackPayload
-/
import ForestLink.Lib.CText

namespace ForestLink.Cloud

open ForestLink.Lib

/-!
`json.Marshal` writes the keys of a map in order.  The texts here are the type of an answer
and a session number, in which nothing is escaped.
-/

/-- A text that needs no escape. -/
def jsonText (text : List UInt8) : List UInt8 := ascii "\"" ++ text ++ ascii "\""

/-- The numbers of an array with commas between them. -/
def jsonNumbers : List Nat → List UInt8
  | [] => []
  | [n] => decimal n
  | n :: rest => decimal n ++ ascii "," ++ jsonNumbers rest

/-- The topic of `PublishACK`. -/
def ackTopic (sessionId : Nat) : List UInt8 := ascii "flp/admin/ack/" ++ decimal sessionId

/-- The payload of `PublishACK`. -/
def ackPayload (msgType : List UInt8) (seq : Nat) : List UInt8 :=
  ascii "\x7b\"seq\":" ++ decimal seq ++ ascii ",\"type\":" ++ jsonText msgType ++ ascii "\x7d"

/-- The topic of `PublishTransferNACK`. -/
def transferNackTopic (sessionId : Nat) : List UInt8 :=
  ascii "flp/admin/transfer_nack/" ++ decimal sessionId

/-- The payload of `PublishTransferNACK`. -/
def transferNackPayload (sessionId : Nat) (seqs : List Nat) : List UInt8 :=
  ascii "\x7b\"seqs\":[" ++ jsonNumbers seqs ++ ascii "],\"session_id\":" ++
    jsonText (decimal sessionId) ++ ascii "\x7d"

end ForestLink.Cloud
