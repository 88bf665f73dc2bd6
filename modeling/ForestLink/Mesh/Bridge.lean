/-
Module: ForestLink.Mesh.Bridge
Purpose: Telemetry and commands between the mesh and the cloud: relayed publishes, mesh
  commands with their duplicate filter, topic messages (`mesh_manager_bridge.cpp`).
Trusted boundary: none
Main exports: MeshManager.relayPublish, publishAllTelemetry, handleMeshPub, ignoresMeshCmd,
  handleMeshCmd, handleTopicMsg, handleCloudCmd
-/
import ForestLink.Mesh.Manager

namespace ForestLink.Mesh

open ForestLink.Protocol

/-! ## Names on the wire -/

namespace RelayTopic

def heap : Nat := 0x01

def metrics : Nat := 0x02

def topology : Nat := 0x03

def status : Nat := 0x04

/-- `relay_topic_suffix` -/
def suffix : Nat → String
  | 0x01 => "heap"
  | 0x02 => "metrics"
  | 0x03 => "topology"
  | 0x04 => "status"
  | _ => "unknown"

def hexDigit (n : Nat) : Char := "0123456789ABCDEF".toList.getD n '0'

/-- `flp/%04X/%s` -/
def topic (addr relayTopic : Nat) : String :=
  "flp/" ++ String.ofList ((List.range 4).map fun i => hexDigit (addr / 16 ^ (3 - i) % 16)) ++
    "/" ++ suffix relayTopic

end RelayTopic

namespace MeshCmd

def requestTelemetry : Nat := 0x01

def reboot : Nat := 0x03

def ledControl : Nat := 0x04

def topicMsg : Nat := 0x10

end MeshCmd

namespace MeshManager

/-! ## Relayed publishes -/

/-- `RELAY_BUF_SIZE` -/
def relayBufSize : Nat := 256

/-- `relay_publish`: an exit publishes itself, any other node wraps the data for the
nearest exit. -/
def relayPublish (m : MeshManager) (relayTopic : Nat) (data : List UInt8) : MeshManager :=
  if m.router.hasInternet then m.emit (.publish (RelayTopic.topic m.myAddr relayTopic) data)
  else
    (m.sendPacket exitAnyAddr .meshPub
      (UInt8.ofNat relayTopic :: data.take (relayBufSize - 1)) 0).2

/-- Publish what a serializer wrote, unless it wrote nothing. -/
def publishTelemetry (m : MeshManager) (relayTopic : Nat) (data : List UInt8) : MeshManager :=
  if data = [] then m else m.relayPublish relayTopic data

/-- `publish_all_telemetry`; the table is serialized before the first packet goes out. -/
def publishAllTelemetry (m : MeshManager) : MeshManager :=
  ((m.publishTelemetry RelayTopic.topology m.router.table.serialize).publishTelemetry
    RelayTopic.metrics m.env.metrics).publishTelemetry RelayTopic.heap m.env.heap

/-- `handle_mesh_pub` -/
def handleMeshPub (m : MeshManager) (srcAddr : Nat) (payload : List UInt8) : MeshManager :=
  match payload with
  | relayTopic :: byte :: data =>
      m.emit (.publish (RelayTopic.topic srcAddr relayTopic.toNat) (byte :: data))
  | _ => m

/-! ## Topic messages -/

/-- `kTopicBufLen` -/
def topicBufLen : Nat := 32

/-- The downlink event of a topic message, cut to its 64 bytes. -/
def downlinkEvent (topic payload : List UInt8) : List UInt8 :=
  UInt8.ofNat topic.length :: topic ++ payload.take (63 - topic.length)

/-- `handle_topic_msg`.  Topics are compared as C strings. -/
def handleTopicMsg (m : MeshManager) : List UInt8 → MeshManager
  | [] => m
  | topicLen :: rest =>
      if topicLen = 0 ∨ topicLen.toNat > topicBufLen - 1 ∨ topicLen.toNat > rest.length then m
      else
        let topic := rest.take topicLen.toNat
        if m.subscribedTopics.contains (topic.takeWhile (· ≠ 0)) then
          m.emit (.downlink (downlinkEvent topic (rest.drop topicLen.toNat)))
        else m

/-! ## Commands -/

/-- `esp_restart`: the node boots again with its configuration. -/
def restart (m : MeshManager) : MeshManager :=
  { boot m.myAddr m.router.blockedPeers m.subscribedTopics m.ledEnabled with
    env := m.env
    outputs := .restart :: m.outputs }

/-- The filter of `handle_mesh_cmd` at the clock reading `now`. -/
def ignoresMeshCmd (m : MeshManager) (cmdId now : Nat) : Bool :=
  cmdId == m.lastMeshCmdId && decide (sub32 now m.lastMeshCmdMs < 2000)

/-- What a command does once it passed the filter. -/
def executeMeshCmd (m : MeshManager) (cmdId : Nat) (data : List UInt8) : MeshManager :=
  if cmdId = MeshCmd.requestTelemetry then m.publishAllTelemetry
  else if cmdId = MeshCmd.reboot then m.restart
  else if cmdId = MeshCmd.ledControl then
    match m.ledEnabled, data with
    | true, state :: _ => m.emit (.led (state != 0))
    | _, _ => m
  else if cmdId = MeshCmd.topicMsg then m.handleTopicMsg data
  else m

/-- The filter remembers the command that passed. -/
def noteMeshCmd (m : MeshManager) (cmdId now : Nat) : MeshManager :=
  { m with lastMeshCmdId := cmdId, lastMeshCmdMs := now }

/-- `handle_mesh_cmd` -/
def handleMeshCmd (m : MeshManager) : List UInt8 → MeshManager
  | [] => m
  | cmdId :: data =>
      let now := m.env.commandMs % 2 ^ 32
      if m.ignoresMeshCmd cmdId.toNat now then m
      else (m.noteMeshCmd cmdId.toNat now).executeMeshCmd cmdId.toNat data

/-- `MeshCmdItem` -/
structure CloudCmd where
  targetAddr : Nat
  cmdId : UInt8
  data : List UInt8
deriving Repr, DecidableEq

/-- `kMeshCmdMaxDataLen` -/
def meshCmdMaxDataLen : Nat := 64

/-- One command of `drain_cmd_queue`: for this node itself, or into the mesh. -/
def handleCloudCmd (m : MeshManager) (cmd : CloudCmd) : MeshManager :=
  if cmd.targetAddr = m.myAddr then
    m.handleMeshCmd (cmd.cmdId :: cmd.data.take meshCmdMaxDataLen)
  else
    (m.sendPacket cmd.targetAddr .meshCmd
      (cmd.cmdId :: if cmd.data.length ≤ meshCmdMaxDataLen then cmd.data else []) 0).2

end MeshManager

end ForestLink.Mesh
