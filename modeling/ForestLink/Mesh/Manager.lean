/-
Module: ForestLink.Mesh.Manager
Purpose: State and send path of a mesh node: packets as the radios carry them, discovery
  with route hysteresis, ageing and the offline notice (`mesh_manager.hpp`,
  `mesh_manager.cpp`, `MeshManager::send_packet`, `send_raw`, `send_discovery`,
  `RouteTable::check_better_route`).
Trusted boundary: none
Main exports: MeshEnv, MeshOutput, MeshManager, MeshManager.sendRaw, sendPacket,
  sendDiscovery, broadcastExitOffline, RouteTable.checkBetterRoute
-/
import ForestLink.Mesh.Routing
import ForestLink.Protocol.Header

namespace ForestLink.Mesh

open ForestLink.Protocol

/-!
The routing side of a node is its `Router`; here it meets the packets that the radios
carry, byte for byte.  The transfer engine is a user of this layer: the packets it sends
are `send_packet` calls that may come at any time, and the packets for it are handed over.

Display fields, log lines and the metrics of the protocol selector are left out; the
selector's choices are answers of the environment.
-/

/-! ## Surroundings of one call -/

inductive Transport where
  | espnow
  | lora
deriving Repr, DecidableEq

/-- `kQueueDepth` -/
def queueDepth : Nat := 256

/-- What a call of the mesh task reads from the rest of the node: clock readings, the
received slab, queue spaces, radio settings, serialized metrics, and the answers of the
selector and the radios in call order.  An exhausted list answers ESP-NOW and success. -/
structure MeshEnv where
  nowMs : Nat := 0
  seenMs : Nat := 0
  commandMs : Nat := 0
  rssi : Int := 0
  source : Transport := .espnow
  mqttConnected : Bool := false
  hiSpaces : Nat := queueDepth
  loSpaces : Nat := queueDepth
  loraInitialized : Bool := true
  wifiChannel : Nat := 0
  spreadingFactor : Nat := 7
  metrics : List UInt8 := []
  heap : List UInt8 := []
  selections : List Transport := []
  sendResults : List Int := []
deriving Repr, DecidableEq

/-- What a call hands to the rest of the node.  The mark `forwarded` of a transmission
records that `forward_packet` sent it; nothing reads it. -/
inductive MeshOutput where
  | sent (transport : Transport) (peer : Nat) (packet : MeshPacket) (result : Int)
      (forwarded : Bool)
  | toEngine (packet : MeshPacket) (isExit : Bool)
  | exitOffline (exitAddr sessionId : Nat)
  | publish (topic : String) (data : List UInt8)
  | led (on : Bool)
  | downlink (event : List UInt8)
  | restart
deriving Repr, DecidableEq

/-! ## Payloads -/

/-- `DiscoveryPayload`, with channel and spreading factor in the flags. -/
def Discovery.toBytes (disc : Discovery) (wifiChannel spreadingFactor : Nat) : List UInt8 :=
  writeLe ((if disc.internet then 1 else 0) ||| (wifiChannel &&& 0x0F) <<< 1 |||
      ((spreadingFactor - 5) &&& 0x07) <<< 5) 1 ++
    writeLe disc.hopsToInternet 1 ++ writeLe 0 1 ++ writeLe disc.inetSeq 2 ++
    writeLe disc.inetOrigin 2 ++ writeLe disc.queueLoad 1

def Discovery.ofBytes (bytes : List UInt8) : Discovery where
  internet := readLe bytes 0 1 &&& 1 != 0
  hopsToInternet := readLe bytes 1 1
  inetSeq := readLe bytes 3 2
  inetOrigin := readLe bytes 5 2
  queueLoad := readLe bytes 7 1

/-- `sizeof(DiscoveryPayload)` -/
def discoveryLen : Nat := 8

def RouteError.toBytes (rerr : RouteError) : List UInt8 :=
  writeLe rerr.deadAddr 2 ++ writeLe rerr.inetOrigin 2 ++ writeLe rerr.lastKnownSeq 2

def RouteError.ofBytes (bytes : List UInt8) : RouteError where
  deadAddr := readLe bytes 0 2
  inetOrigin := readLe bytes 2 2
  lastKnownSeq := readLe bytes 4 2

/-- `sizeof(RouteErrorPayload)` -/
def routeErrorLen : Nat := 6

/-- The routing content of a packet. -/
def routePayload (packet : MeshPacket) : RoutePayload :=
  match packet.header.type with
  | .discovery =>
      if packet.payload.length < discoveryLen then .other
      else .discovery (.ofBytes packet.payload)
  | .routeError =>
      if packet.payload.length < routeErrorLen then .other
      else .routeError (.ofBytes packet.payload)
  | _ => .other

/-- What the routing side sees of a packet. -/
def routeFrame (packet : MeshPacket) : RouteFrame where
  srcAddr := packet.header.srcAddr
  dstAddr := packet.header.dstAddr
  ttl := packet.header.ttl
  hopCount := packet.header.hopCount
  payload := routePayload packet

/-- A packet as its author builds it. -/
def freshPacket (src dst : Nat) (type : MeshPacketType) (payload : List UInt8) (seq : Nat) :
    MeshPacket where
  header :=
    { (({} : PacketHeader).setVerType protocolVersion type).setTtlHops defaultTtl 0 with
      srcAddr := src
      dstAddr := dst
      seqNum := seq % 2 ^ 16 }
  payload := payload

section FreshPacket

variable (src dst : Nat) (type : MeshPacketType) (payload : List UInt8) (seq : Nat)

@[simp] theorem ttl_freshPacket : (freshPacket src dst type payload seq).header.ttl = defaultTtl :=
  PacketHeader.ttl_setTtlHops (({} : PacketHeader).setVerType protocolVersion type)
    (by decide) (by decide)

@[simp] theorem hopCount_freshPacket :
    (freshPacket src dst type payload seq).header.hopCount = 0 :=
  PacketHeader.hopCount_setTtlHops (({} : PacketHeader).setVerType protocolVersion type)
    (by decide) (by decide)

@[simp] theorem srcAddr_freshPacket :
    (freshPacket src dst type payload seq).header.srcAddr = src := rfl

@[simp] theorem dstAddr_freshPacket :
    (freshPacket src dst type payload seq).header.dstAddr = dst := rfl

/-- A type with a name survives the six bits of the header. -/
theorem type_freshPacket (named : ∀ code, type ≠ .unnamed code) :
    (freshPacket src dst type payload seq).header.type = type := by
  change (({} : PacketHeader).setVerType protocolVersion type).type = type
  cases type with
  | unnamed code => exact absurd rfl (named code)
  | _ => decide

end FreshPacket

/-! ## Route hysteresis -/

/-- `BetterRouteCandidate` -/
structure BetterRoute where
  candidateAddr : Nat := 0
  currentBestAddr : Nat := 0
  consecutiveCycles : Nat := 0
deriving Repr, DecidableEq

namespace RouteTable

/-- `kRouteHysteresisCycles` -/
def routeHysteresisCycles : Nat := 3

/-- `kMinRouteCostImprovement` -/
def minRouteCostImprovement : Nat := 50

/-- Cost of the current best hop, `UINT32_MAX` without a usable entry. -/
def currentCost (table : RouteTable) (currentBest : Nat) : Nat :=
  match table.neighbors.find? fun entry =>
      entry.addr == currentBest && decide (entry.hopsToInternet < routeHopsUnknown) with
  | some entry => routeCost entry
  | none => 2 ^ 32 - 1

/-- The cheapest hop other than the current best, with its cost. -/
def cheapestAlternative (table : RouteTable) (currentBest myAddr : Nat) : Nat × Nat :=
  cheapest (0, 2 ^ 32 - 1) (table.neighbors.filter fun entry =>
    entry.addr != currentBest && decide (entry.hopsToInternet < routeHopsUnknown) &&
      !(myAddr != 0 && entry.inetOrigin == myAddr))

/-- The alternative that improves enough on the current best hop. -/
def improvement (table : RouteTable) (currentBest myAddr : Nat) : Option Nat :=
  let alternative := table.cheapestAlternative currentBest myAddr
  let cost := table.currentCost currentBest
  if alternative.1 ≠ 0 ∧ cost > alternative.2 ∧ cost - alternative.2 ≥ minRouteCostImprovement then
    some alternative.1
  else none

/-- `check_better_route`: the address to switch to, if any. -/
def checkBetterRoute (table : RouteTable) (tracked : BetterRoute) (currentBest myAddr : Nat) :
    Option Nat × BetterRoute :=
  match table.improvement currentBest myAddr with
  | some alternative =>
      let counted :=
        if tracked.candidateAddr = alternative then
          { tracked with consecutiveCycles := tracked.consecutiveCycles + 1 }
        else
          { candidateAddr := alternative
            currentBestAddr := currentBest
            consecutiveCycles := 1 }
      if counted.consecutiveCycles ≥ routeHysteresisCycles then
        (some counted.candidateAddr, {})
      else (none, counted)
  | none => (none, {})

/-- `get_espnow_neighbor_count` -/
def espnowNeighborCount (table : RouteTable) : Nat :=
  table.neighbors.countP NeighborEntry.espnowReachable

/-- `oldest_contact_age_ms` -/
def oldestContactAgeMs (table : RouteTable) (now : Nat) : Nat :=
  if table.neighbors = [] then 2 ^ 32 - 1
  else sub32 now (table.neighbors.foldl (fun newest entry => max newest entry.lastSeenMs) 0)

/-- `serialize`: the count, then seven bytes for each neighbour. -/
def serialize (table : RouteTable) : List UInt8 :=
  writeLe table.neighbors.length 1 ++
    table.neighbors.flatMap fun entry =>
      writeLe entry.addr 2 ++ writeLe (entry.rssi % 256).toNat 1 ++ writeLe entry.hopCount 1 ++
        writeLe entry.hopsToInternet 1 ++
        writeLe ((if entry.espnowReachable then 1 else 0) |||
          (if entry.loraReachable then 2 else 0) ||| (if entry.hasInternet then 4 else 0)) 1 ++
        writeLe entry.queueLoad 1

end RouteTable

/-! ## State -/

/-- `SeenEntry` -/
structure SeenEntry where
  src : Nat := 0
  dst : Nat := 0
  type : Nat := 0
  seq : Nat := 0
  timeMs : Nat := 0
deriving Repr, DecidableEq

/-- `SEEN_CACHE_SIZE` -/
def seenCacheSize : Nat := 64

/-- `MeshManager`.  Topic names are the bytes before the NUL; `ledEnabled` says that
`CONFIG_FLP_LED_GPIO` names a pin.  The outputs are newest first. -/
structure MeshManager where
  router : Router
  preferredParent : Nat := broadcastAddr
  betterRoute : BetterRoute := {}
  seenCache : List SeenEntry := List.replicate seenCacheSize {}
  seenIdx : Nat := 0
  lastMeshCmdId : Nat := 0xFF
  lastMeshCmdMs : Nat := 0
  subscribedTopics : List (List UInt8) := []
  ledEnabled : Bool := false
  env : MeshEnv := {}
  outputs : List MeshOutput := []
deriving Repr, DecidableEq

namespace MeshManager

/-- A node after `init`, with its configuration. -/
def boot (myAddr : Nat) (blockedPeers : List Nat) (subscribedTopics : List (List UInt8))
    (ledEnabled : Bool) : MeshManager where
  router := { myAddr := myAddr, blockedPeers := blockedPeers }
  subscribedTopics := subscribedTopics
  ledEnabled := ledEnabled

def setEnv (m : MeshManager) (env : MeshEnv) : MeshManager := { m with env := env }

def emit (m : MeshManager) (output : MeshOutput) : MeshManager :=
  { m with outputs := output :: m.outputs }

def myAddr (m : MeshManager) : Nat := m.router.myAddr

/-- `saturated_queue_load` -/
def saturatedQueueLoad (m : MeshManager) : Nat :=
  min ((queueDepth - m.env.hiSpaces) + (queueDepth - m.env.loSpaces)) 255

/-! ## The send path -/

/-- `send_raw`.  A unicast reports its result to the route table unless the radio had no
room for it. -/
def sendRaw (m : MeshManager) (transport : Transport) (packet : MeshPacket) (peer : Nat)
    (forwarded : Bool) : Int × MeshManager :=
  if transport = .lora ∧ m.env.loraInitialized = false then (-1, m)
  else
    let result := m.env.sendResults.headD 0
    let sent :=
      (m.setEnv { m.env with sendResults := m.env.sendResults.tail }).emit
        (.sent transport peer packet result forwarded)
    (result,
      if peer ≠ broadcastAddr ∧ result ≠ sendBackpressure then
        { sent with router := (sent.router.step (.linkTx peer (result == 0))).1 }
      else sent)

/-- Both transports, to everybody in range. -/
def sendBoth (m : MeshManager) (packet : MeshPacket) (forwarded : Bool) : MeshManager :=
  ((m.sendRaw .espnow packet broadcastAddr forwarded).2.sendRaw .lora packet broadcastAddr
    forwarded).2

/-- `requires_espnow_data_path` -/
def requiresEspnowDataPath (type : MeshPacketType) : Bool := type == .data || type == .parity

/-- The transport of a unicast: fixed for fragments, else the selector's choice. -/
def transportFor (env : MeshEnv) (type : MeshPacketType) : Transport :=
  if requiresEspnowDataPath type then .espnow else env.selections.headD .espnow

def selectTransport (m : MeshManager) (type : MeshPacketType) : Transport × MeshManager :=
  (transportFor m.env type,
    if requiresEspnowDataPath type then m
    else m.setEnv { m.env with selections := m.env.selections.tail })

/-- `next_hop` for a packet of this node. -/
def nextHop (m : MeshManager) (dst : Nat) : Nat := m.router.table.nextHop dst m.router.myAddr

/-- A unicast to the next hop over the selected transport. -/
def sendVia (m : MeshManager) (packet : MeshPacket) (peer : Nat) (forwarded : Bool) :
    Int × MeshManager :=
  let selected := m.selectTransport packet.header.type
  selected.2.sendRaw selected.1 packet peer forwarded

/-- `send_packet` -/
def sendPacket (m : MeshManager) (dst : Nat) (type : MeshPacketType) (payload : List UInt8)
    (seq : Nat) : Int × MeshManager :=
  if packetHeaderSize + payload.length > maxMtu then (-1, m)
  else
    let packet := freshPacket m.myAddr dst type payload seq
    if dst = broadcastAddr then (0, m.sendBoth packet false)
    else
      let radioDst := m.nextHop dst
      if radioDst = broadcastAddr then
        if dst = exitAnyAddr then (0, m.sendBoth packet false) else (-1, m)
      else m.sendVia packet radioDst false

/-- `send_route_error` -/
def sendRouteError (m : MeshManager) (rerr : RouteError) : MeshManager :=
  (m.sendPacket broadcastAddr .routeError rerr.toBytes 0).2

/-- `broadcast_exit_offline`, for the session the engine serves. -/
def broadcastExitOffline (m : MeshManager) (sessionId : Nat) : MeshManager :=
  m.sendBoth
    (freshPacket m.myAddr exitAnyAddr .exitOffline (writeLe sessionId 2 ++ writeLe m.myAddr 2) 0)
    false

/-! ## Discovery and ageing -/

/-- The bytes of a discovery of this node. -/
def discoveryBytes (m : MeshManager) (disc : Discovery) : List UInt8 :=
  disc.toBytes m.env.wifiChannel m.env.spreadingFactor

/-- The hop that `send_discovery` compares the alternatives with. -/
def currentParent (m : MeshManager) : Nat :=
  if m.preferredParent ≠ broadcastAddr then m.preferredParent else m.nextHop exitAnyAddr

/-- The hysteresis of `send_discovery`. -/
def updatePreferredParent (m : MeshManager) : MeshManager :=
  if m.router.hasInternet then m
  else
    let checked := m.router.table.checkBetterRoute m.betterRoute m.currentParent m.myAddr
    let tracked := { m with betterRoute := checked.2 }
    match checked.1 with
    | some newAddr => { tracked with preferredParent := newAddr }
    | none =>
        if m.preferredParent = broadcastAddr ∧ m.currentParent ≠ broadcastAddr then
          { tracked with preferredParent := m.currentParent }
        else tracked

/-- The broadcast of `send_discovery`: always over ESP-NOW, over LoRa for a node that hears
little or knows no route. -/
def broadcastDiscovery (m : MeshManager) (disc : Discovery) : MeshManager :=
  let packet := freshPacket m.myAddr broadcastAddr .discovery (m.discoveryBytes disc) 0
  let sent := (m.sendRaw .espnow packet broadcastAddr false).2
  let table := sent.router.table
  if table.espnowNeighborCount = 0 ∨ table.oldestContactAgeMs m.env.nowMs > 20000 ∨
      disc.hopsToInternet ≥ routeHopsUnknown then
    (sent.sendRaw .lora packet broadcastAddr false).2
  else sent

/-- `send_discovery` -/
def sendDiscovery (m : MeshManager) : MeshManager :=
  let load := m.saturatedQueueLoad
  let counted := { m with router := (m.router.step (.discover load)).1 }
  (counted.broadcastDiscovery (counted.router.advertisement load)).updatePreferredParent

/-- The ageing of `run`: a route error for each silent neighbour, then the older ones
are forgotten. -/
def age (m : MeshManager) (staleNow pruneNow : Nat) : MeshManager :=
  let stale := (m.router.table.detectEarlyStale staleNow Router.earlyStaleTimeoutMs).1
  stale.foldl
    (fun m entry =>
      m.sendRouteError
        { deadAddr := entry.1, inetOrigin := entry.2.1, lastKnownSeq := entry.2.2 })
    { m with router := (m.router.step (.age staleNow pruneNow)).1 }

end MeshManager

end ForestLink.Mesh
