/-
Module: ForestLink.Mqtt.FileMessages
Purpose: The messages of an exit to the cloud about files: the meta and the chunks of a mesh
  transfer, and those of a file that is published at once (`mqtt_client.cpp`).
Trusted boundary: none
Main exports: TransferMeta, transferMetaJson, MqttClient.publishTransferMeta, fragmentMessage,
  FilePublishRequest, FilePublishRequest.metaJson, FilePublishRequest.chunkMessages
-/
import ForestLink.Lib.CText
import ForestLink.Lib.Crc32
import ForestLink.Protocol.Packet
import ForestLink.Mqtt.Client

namespace ForestLink.Mqtt

open ForestLink.Lib
open ForestLink.Protocol

/-! ## Text -/

/-- A digit of `%X`. -/
def upperHexDigit (digit : Nat) : UInt8 :=
  if digit < 10 then UInt8.ofNat (0x30 + digit) else UInt8.ofNat (0x41 + (digit - 10))

/-- `%04X` of 16 bits. -/
def upperHex4 (value : Nat) : List UInt8 :=
  [value / 4096, value / 256, value / 16, value].map fun digit => upperHexDigit (digit % 16)

/-- `sizeof(meta_json)` -/
def metaJsonSize : Nat := 256

/-- `snprintf` into `meta_json` counts when everything was written, NUL included. -/
def metaMessage (text : List UInt8) : Option (List UInt8) :=
  if text.length ≥ metaJsonSize then none else some text

/-! ## Mesh transfers -/

/-- The arguments of `publish_transfer_meta`. -/
structure TransferMeta where
  sessionId : Nat
  filename : List UInt8
  srcNode : Nat
  exitNode : Nat
  totalSize : Nat
  chunkCount : Nat
  fragmentSize : Nat
  crc32 : Nat
deriving Repr, DecidableEq

/-- The format of `publish_transfer_meta`.  The name is written as it is. -/
def transferMetaJson (t : TransferMeta) : List UInt8 :=
  ascii "\x7b\"session_id\":" ++ decimal t.sessionId ++
    ascii ",\"filename\":\"" ++ cString t.filename ++
    ascii "\",\"src_node\":\"0x" ++ upperHex4 t.srcNode ++
    ascii "\",\"exit_node\":\"0x" ++ upperHex4 t.exitNode ++
    ascii "\",\"total_size\":" ++ decimal t.totalSize ++
    ascii ",\"chunk_count\":" ++ decimal t.chunkCount ++
    ascii ",\"fragment_size\":" ++ decimal t.fragmentSize ++
    ascii ",\"crc32\":" ++ decimal t.crc32 ++ ascii "\x7d"

/-- `MQTT_OUTBOX_HIGH_WATER_BYTES` -/
def outboxHighWaterBytes : Nat := 48 * 1024

/-- `publish_transfer_meta`: the message it publishes, if any. -/
def MqttClient.publishTransferMeta (m : MqttClient) (t : TransferMeta) (outboxSize : Nat)
    (connected : Bool) : Option (List UInt8) × MqttClient :=
  let m := m.activateTransferSession t.sessionId
  if outboxSize ≥ outboxHighWaterBytes then (none, m)
  else if connected then (metaMessage (transferMetaJson t), m)
  else (none, m)

/-- The message of a fragment in `process_fragment_publish`. -/
def fragmentMessage (req : FragmentPublishRequest) : List UInt8 :=
  writeLe req.sessionId 2 ++ writeLe req.seq 2 ++ req.data

/-! ## Whole files -/

structure FilePublishRequest where
  filename : List UInt8
  data : List UInt8
  srcNode : Nat
deriving Repr, DecidableEq

/-- `publish_file`: the request it queues, unless there is nothing to publish. -/
def publishFile (filename data : List UInt8) (srcNode : Nat) : Option FilePublishRequest :=
  if data = [] then none
  else
    some
      { filename := (cString filename).take 32
        data := data.take maxMtu
        srcNode := srcNode }

/-- `MQTT_CHUNK_PAYLOAD` -/
def chunkPayload : Nat := 500

namespace FilePublishRequest

def chunkCount (req : FilePublishRequest) : Nat :=
  (req.data.length + chunkPayload - 1) / chunkPayload

/-- The part of the file in chunk `seq`. -/
def chunkData (req : FilePublishRequest) (seq : Nat) : List UInt8 :=
  (req.data.drop (seq * chunkPayload)).take chunkPayload

/-- The message of chunk `seq` in `process_file_publish`: a sequence number and data, but no
session. -/
def chunkMessage (req : FilePublishRequest) (seq : Nat) : List UInt8 :=
  writeLe seq 2 ++ req.chunkData seq

/-- All chunks that `process_file_publish` sends. -/
def chunkMessages (req : FilePublishRequest) : List (List UInt8) :=
  (List.range req.chunkCount).map req.chunkMessage

/-- The format of `process_file_publish`; the session is the clock in milliseconds. -/
def metaJson (req : FilePublishRequest) (sessionId : Nat) : List UInt8 :=
  ascii "\x7b\"session_id\":" ++ decimal sessionId ++
    ascii ",\"filename\":\"" ++ cString req.filename ++
    ascii "\",\"total_size\":" ++ decimal req.data.length ++
    ascii ",\"chunk_count\":" ++ decimal req.chunkCount ++
    ascii ",\"src_node\":\"0x" ++ upperHex4 req.srcNode ++
    ascii "\",\"crc32\":" ++
    decimal (crc32Le 0 req.data).toNat ++ ascii "\x7d"

end FilePublishRequest

end ForestLink.Mqtt
