/-
Module: ForestLink.Mesh.Packets
Purpose: What a mesh node does with a received packet: duplicate suppression, forwarding
  and dispatch (`mesh_manager_packets.cpp`, `MeshManager::already_seen`), the node as a
  state machine, and a network of nodes with every copy of a packet on the air.
Trusted boundary: none
Main exports: MeshManager.alreadySeen, forwardPacket, processSlab, MeshManager.step, run,
  AirCopy, MeshNetwork, MeshNetwork.step, MeshNetwork.run
-/
import ForestLink.Mesh.Bridge

namespace ForestLink.Mesh

open ForestLink.Protocol

namespace MeshManager

/-! ## Duplicate suppression -/

/-- The record of a packet. -/
def seenEntry (packet : MeshPacket) (now : Nat) : SeenEntry where
  src := packet.header.srcAddr
  dst := packet.header.dstAddr
  type := packet.header.typeCode
  seq := packet.header.seqNum
  timeMs := now

/-- A record that stands for the packet and is younger than `window`. -/
def SeenEntry.matches (entry : SeenEntry) (packet : MeshPacket) (now window : Nat) : Bool :=
  entry.src == packet.header.srcAddr && entry.dst == packet.header.dstAddr &&
    entry.type == packet.header.typeCode && entry.seq == packet.header.seqNum &&
    decide (sub32 now entry.timeMs < window)

/-- The cell that the next record overwrites: the first expired one, else the next in
turn. -/
def seenSlot (m : MeshManager) (now : Nat) : Nat :=
  (m.seenCache.findIdx? fun entry => decide (sub32 now entry.timeMs > 10000)).getD m.seenIdx

/-- Record a packet in the cache. -/
def recordSeen (m : MeshManager) (packet : MeshPacket) (now : Nat) : MeshManager :=
  let slot := m.seenSlot now
  { m with
    seenCache := m.seenCache.set slot (seenEntry packet now)
    seenIdx := if slot = m.seenIdx then (m.seenIdx + 1) % seenCacheSize else m.seenIdx }

/-- The clock reading of `already_seen`. -/
def seenNow (m : MeshManager) : Nat := m.env.seenMs % 2 ^ 32

/-- `already_seen` -/
def alreadySeen (m : MeshManager) (packet : MeshPacket) (window : Nat) : Bool × MeshManager :=
  if m.seenCache.any fun entry => SeenEntry.matches entry packet m.seenNow window then (true, m)
  else (false, m.recordSeen packet m.seenNow)

/-- `kArqDedupWindowMs` and `kControlDedupWindowMs` -/
def dedupWindow : MeshPacketType → Nat
  | .data | .parity | .ack | .nack => 200
  | _ => 10000

/-! ## Forwarding -/

/-- Less than half a queue is free in both receive queues together. -/
def congested (m : MeshManager) : Bool := decide (m.env.hiSpaces + m.env.loSpaces < queueDepth / 2)

/-- Types that a congested relay still forwards. -/
def highPriority : MeshPacketType → Bool
  | .ack | .nack | .routeError | .transferAck | .transferAd | .exitOffline => true
  | _ => false

/-- Types that are forwarded to everybody in range. -/
def rebroadcast : MeshPacketType → Bool
  | .transferAd | .exitOffline => true
  | _ => false

/-- The header one hop further. -/
def nextHeader (header : PacketHeader) : PacketHeader :=
  header.setTtlHops ((header.ttl + 255) % 2 ^ 8) ((header.hopCount + 1) % 2 ^ 8)

/-- The piggybacked congestion signal. -/
def markCongestion (header : PacketHeader) (congested : Bool) : PacketHeader :=
  match header.type, congested with
  | .ack, true | .nack, true => { header with seqNum := header.seqNum ||| congestionFlag }
  | _, _ => header

/-- Drop a packet for congestion; a lost fragment is reported to its source. -/
def dropCongested (m : MeshManager) (packet : MeshPacket) : MeshManager :=
  match packet.header.type with
  | .data | .parity =>
      (m.sendPacket packet.header.srcAddr .nack []
        (seqWithCongestion packet.header.seqNum true)).2
  | _ => m

/-- `forward_packet` -/
def forwardPacket (m : MeshManager) (packet : MeshPacket) : MeshManager :=
  let type := packet.header.type
  if m.congested && !highPriority type then m.dropCongested packet
  else
    let header := nextHeader packet.header
    if rebroadcast type then m.sendBoth { packet with header := header } true
    else
      let next := m.nextHop packet.header.dstAddr
      if next = broadcastAddr then m
      else (m.sendVia { packet with header := markCongestion header m.congested } next true).2

/-! ## Reception -/

/-- Direct packets from the blacklist are dropped. -/
def blocks (m : MeshManager) (packet : MeshPacket) : Bool :=
  packet.header.hopCount == 0 && m.router.blockedPeers.contains packet.header.srcAddr

/-- What the routing side measures for a received packet. -/
def reception (m : MeshManager) : Reception where
  nowMs := m.env.nowMs
  rssi := m.env.rssi
  espnow := m.env.source == .espnow
  mqttConnected := m.env.mqttConnected
  queueLoad := m.saturatedQueueLoad

/-- The neighbour update: only a direct packet names a neighbour. -/
def hear (m : MeshManager) (packet : MeshPacket) : MeshManager :=
  { m with router := m.router.hear m.reception (routeFrame packet) }

/-- `is_exit` -/
def isExit (m : MeshManager) : Bool := m.router.hasInternet && m.env.mqttConnected

/-- `for_us`; what is not for this node it forwards. -/
def forUs (m : MeshManager) (packet : MeshPacket) : Bool :=
  m.router.forUs m.reception (routeFrame packet)

/-- Answer a discovery request over the transport it came by. -/
def answerDiscovery (m : MeshManager) (frame : RouteFrame) : MeshManager :=
  match frame.payload with
  | .discovery disc =>
      match m.env.source with
      | .lora =>
          (m.sendRaw .lora
            (freshPacket m.myAddr frame.dstAddr .discovery (m.discoveryBytes disc) 0)
            frame.dstAddr false).2
      | .espnow => (m.sendPacket frame.dstAddr .discovery (m.discoveryBytes disc) 0).2
  | _ => m

/-- `handle_discovery` -/
def handleDiscovery (m : MeshManager) (packet : MeshPacket) (disc : Discovery) : MeshManager :=
  let handled := m.router.handleDiscovery (routeFrame packet) disc m.saturatedQueueLoad
  handled.2.foldl answerDiscovery { m with router := handled.1 }

/-- `handle_route_error` -/
def handleRouteError (m : MeshManager) (rerr : RouteError) : MeshManager :=
  let handled := m.router.handleRouteError rerr
  handled.2.foldl (fun m _ => m.sendRouteError rerr) { m with router := handled.1 }

/-- A packet for this node goes to the handler of its type. -/
def dispatch (m : MeshManager) (packet : MeshPacket) : MeshManager :=
  match packet.header.type with
  | .discovery | .routeError =>
      match routePayload packet with
      | .discovery disc => m.handleDiscovery packet disc
      | .routeError rerr => m.handleRouteError rerr
      | .other => m
  | .transferAd | .transferAck | .data | .parity | .ack | .nack | .transferDone =>
      m.emit (.toEngine packet m.isExit)
  | .meshPub => m.handleMeshPub packet.header.srcAddr packet.payload
  | .meshCmd => m.handleMeshCmd packet.payload
  | _ => m

/-- Every node hears of an exit that goes offline, whatever the hops left. -/
def hearOffline (m : MeshManager) (packet : MeshPacket) : MeshManager :=
  if packet.header.type = .exitOffline ∧ packet.payload.length ≥ 4 then
    m.emit (.exitOffline (readLe packet.payload 2 2) (readLe packet.payload 0 2))
  else m

/-- Forward a packet that is not for this node, unless it was seen before. -/
def relay (m : MeshManager) (packet : MeshPacket) : MeshManager :=
  let seen := m.alreadySeen packet (dedupWindow packet.header.type)
  if seen.1 then seen.2 else seen.2.forwardPacket packet

/-- Packets that `process_slab` drops at once: own ones, direct ones from the blacklist,
and those of another version. -/
def refuses (m : MeshManager) (packet : MeshPacket) : Bool :=
  packet.header.srcAddr == m.myAddr || m.blocks packet ||
    packet.header.version != protocolVersion

/-- `process_slab` -/
def processSlab (m : MeshManager) (packet : MeshPacket) : MeshManager :=
  if m.refuses packet then m
  else
    let informed := m.hearOffline packet
    if packet.header.ttl = 0 then informed
    else
      let heard := informed.hear packet
      if heard.forUs packet then heard.dispatch packet else heard.relay packet

/-! ## The node as a state machine -/

inductive Event where
  | receive (packet : MeshPacket)
  | send (dst : Nat) (type : MeshPacketType) (payload : List UInt8) (seq : Nat)
  | discover
  | age (staleNow pruneNow : Nat)
  | exitOffline (sessionId : Nat)
  | telemetry
  | cloudCmd (cmd : CloudCmd)
  | setInternet (value : Bool)
deriving Repr, DecidableEq

structure Call where
  env : MeshEnv := {}
  event : Event
deriving Repr, DecidableEq

def handle (m : MeshManager) : Event → MeshManager
  | .receive packet => m.processSlab packet
  | .send dst type payload seq => (m.sendPacket dst type payload seq).2
  | .discover => m.sendDiscovery
  | .age staleNow pruneNow => m.age staleNow pruneNow
  | .exitOffline sessionId => m.broadcastExitOffline sessionId
  | .telemetry => m.publishAllTelemetry
  | .cloudCmd cmd => m.handleCloudCmd cmd
  | .setInternet value => { m with router := (m.router.step (.setInternet value)).1 }

def step (m : MeshManager) (call : Call) : MeshManager := (m.setEnv call.env).handle call.event

/-- Any sequence of calls of the mesh task. -/
def run (m : MeshManager) (calls : List Call) : MeshManager := calls.foldl step m

/-- What a call added to the outputs, newest first. -/
def recentOutputs (before after : MeshManager) : List MeshOutput :=
  after.outputs.take (after.outputs.length - before.outputs.length)

end MeshManager

/-! ## A network -/

/-- A copy of a packet on the air, with a record that no node reads: the node that built
the packet, the node that sent this copy, and how often it was forwarded. -/
structure AirCopy (ι : Type) where
  packet : MeshPacket
  originator : ι
  transmitter : ι
  forwards : Nat
deriving Repr, DecidableEq

/-- Nodes, and every copy that was ever sent.  A copy may reach any node at any time, any
number of times, or never. -/
structure MeshNetwork (ι : Type) where
  nodes : ι → MeshManager
  air : List (AirCopy ι) := []

namespace MeshNetwork

variable {ι : Type} [DecidableEq ι]

inductive Action (ι : Type) where
  | receive (node : ι) (env : MeshEnv) (copy : AirCopy ι)
  | call (node : ι) (call : MeshManager.Call)

/-- The copies of one call: forwarded ones continue the received copy. -/
def copies (node : ι) (received : Option (AirCopy ι)) : MeshOutput → Option (AirCopy ι)
  | .sent _ _ packet _ forwarded =>
      match forwarded, received with
      | true, some copy =>
          some
            { packet := packet
              originator := copy.originator
              transmitter := node
              forwards := copy.forwards + 1 }
      | _, _ =>
          some { packet := packet, originator := node, transmitter := node, forwards := 0 }
  | _ => none

/-- One call of a node, after which its transmissions are on the air. -/
def callNode (net : MeshNetwork ι) (node : ι) (received : Option (AirCopy ι))
    (call : MeshManager.Call) : MeshNetwork ι :=
  let before := net.nodes node
  let after := before.step call
  { nodes := Function.update net.nodes node after
    air := (before.recentOutputs after).filterMap (copies node received) ++ net.air }

/-- Packets reach a node only over the air. -/
def step (net : MeshNetwork ι) : Action ι → MeshNetwork ι
  | .receive node env copy =>
      if copy ∈ net.air then net.callNode node (some copy) ⟨env, .receive copy.packet⟩ else net
  | .call node call =>
      match call.event with
      | .receive _ => net
      | _ => net.callNode node none call

def run (net : MeshNetwork ι) (actions : List (Action ι)) : MeshNetwork ι :=
  actions.foldl step net

end MeshNetwork

end ForestLink.Mesh
