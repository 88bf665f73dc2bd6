/-
Module: ForestLink.Mesh.Routing
Purpose: The routing side of a mesh node: discovery, route errors and ageing
  (`mesh_manager_packets.cpp`, `MeshManager::run`), and a network of such nodes whose
  frames may be lost, delayed, duplicated and reordered.
Trusted boundary: none
Main exports: Router, Router.processSlab, Router.sendDiscovery, Router.step, Network,
  Network.step, Network.run, Network.Feasible
-/
import ForestLink.Mesh.RouteTable

namespace ForestLink.Mesh

open ForestLink.Protocol

/-! ## Frames -/

/-- `DiscoveryPayload`: the internet flag and the advertised route. The channel and
spreading factor bits of the flags do not reach the route table. -/
structure Discovery where
  internet : Bool
  hopsToInternet : Nat
  inetSeq : Nat
  inetOrigin : Nat
  queueLoad : Nat
deriving Repr, DecidableEq

/-- `RouteErrorPayload` -/
structure RouteError where
  deadAddr : Nat
  inetOrigin : Nat
  lastKnownSeq : Nat
deriving Repr, DecidableEq

/-- What a frame carries; `other` is every payload that the routing side ignores,
such as those of other packet types and payloads that are too short. -/
inductive RoutePayload where
  | discovery (disc : Discovery)
  | routeError (rerr : RouteError)
  | other
deriving Repr, DecidableEq

structure RouteFrame where
  srcAddr : Nat
  dstAddr : Nat
  ttl : Nat
  hopCount : Nat
  payload : RoutePayload
deriving Repr, DecidableEq

/-- `DEFAULT_TTL` -/
def defaultTtl : Nat := 8

/-- A frame as its author sends it. -/
def RouteFrame.fresh (src dst : Nat) (payload : RoutePayload) : RouteFrame :=
  { srcAddr := src, dstAddr := dst, ttl := defaultTtl, hopCount := 0, payload := payload }

/-- What the receiving side measures for one frame. -/
structure Reception where
  nowMs : Nat
  rssi : Int
  espnow : Bool
  mqttConnected : Bool
  queueLoad : Nat
deriving Repr, DecidableEq

/-! ## One node -/

/-- The routing state of a `MeshManager`. -/
structure Router where
  myAddr : Nat
  hasInternet : Bool := false
  myInetSeq : Nat := 0
  blockedPeers : List Nat := []
  table : RouteTable := {}
deriving Repr, DecidableEq

namespace Router

/-- `compute_hops_to_internet` -/
def computeHopsToInternet (router : Router) : Nat :=
  if router.hasInternet then 0
  else
    let minHops := router.table.minControlHopsToInternet
    if minHops < 0xFE then minHops + 1 else 0xFF

/-- The payload both discovery requests and their answers carry. -/
def advertisement (router : Router) (queueLoad : Nat) : Discovery :=
  let best := router.table.bestInetRoute
  { internet := router.hasInternet
    hopsToInternet := router.computeHopsToInternet
    inetSeq := if router.hasInternet then router.myInetSeq else best.seq
    inetOrigin := if router.hasInternet then router.myAddr else best.origin
    queueLoad := queueLoad }

/-- `send_discovery`: an exit takes the next number of its own route first. -/
def sendDiscovery (router : Router) (queueLoad : Nat) : Router × List RouteFrame :=
  let counted :=
    if router.hasInternet then
      { router with myInetSeq := (router.myInetSeq + 1) % 2 ^ 16 }
    else router
  (counted,
    [.fresh router.myAddr broadcastAddr (.discovery (counted.advertisement queueLoad))])

/-- `handle_discovery`: the table takes the advertisement, and a request is answered. -/
def handleDiscovery (router : Router) (frame : RouteFrame) (disc : Discovery)
    (queueLoad : Nat) : Router × List RouteFrame :=
  let flagged :=
    if disc.internet then router.table.setHasInternet frame.srcAddr true else router.table
  let routed :=
    (flagged.updateInetRoute frame.srcAddr disc.hopsToInternet disc.inetSeq
      disc.inetOrigin).2
  let heard := { router with table := routed.setQueueLoad frame.srcAddr disc.queueLoad }
  (heard,
    if frame.dstAddr = broadcastAddr then
      [.fresh router.myAddr frame.srcAddr (.discovery (heard.advertisement queueLoad))]
    else [])

/-- `send_route_error` -/
def sendRouteError (router : Router) (rerr : RouteError) : RouteFrame :=
  .fresh router.myAddr broadcastAddr (.routeError rerr)

/-- `handle_route_error`: rebroadcast only if a finite route was dropped. -/
def handleRouteError (router : Router) (rerr : RouteError) : Router × List RouteFrame :=
  let dropped := router.table.invalidateRouteVia rerr.deadAddr
  ({ router with table := dropped.2 },
    if dropped.1 then [router.sendRouteError rerr] else [])

/-- Frames that `process_slab` drops before it looks at the route table: own frames,
direct frames of blocked peers, and frames that have no hop left. -/
def ignores (router : Router) (frame : RouteFrame) : Bool :=
  frame.srcAddr == router.myAddr ||
    (frame.hopCount == 0 && router.blockedPeers.contains frame.srcAddr) ||
    frame.ttl == 0

/-- The table after a frame was heard, before its payload is handled: only direct
frames name a neighbour. -/
def hear (router : Router) (rx : Reception) (frame : RouteFrame) : Router :=
  if frame.hopCount = 0 then
    { router with
      table := router.table.updateNeighbor rx.nowMs frame.srcAddr
        { rssi := rx.rssi, hops := frame.hopCount, espnow := rx.espnow, lora := !rx.espnow } }
  else router

/-- The frame is consumed here: unicast, broadcast, or to any exit while this node
is one. -/
def forUs (router : Router) (rx : Reception) (frame : RouteFrame) : Bool :=
  frame.dstAddr == router.myAddr || frame.dstAddr == broadcastAddr ||
    (frame.dstAddr == exitAnyAddr && router.hasInternet && rx.mqttConnected)

/-- `process_slab`, as far as it touches the route table. -/
def processSlab (router : Router) (rx : Reception) (frame : RouteFrame) :
    Router × List RouteFrame :=
  if router.ignores frame then (router, [])
  else
    let heard := router.hear rx frame
    if heard.forUs rx frame then
      match frame.payload with
      | .discovery disc => heard.handleDiscovery frame disc rx.queueLoad
      | .routeError rerr => heard.handleRouteError rerr
      | .other => (heard, [])
    else (heard, [])

/-- `kEarlyStaleTimeoutMs` -/
def earlyStaleTimeoutMs : Nat := 15000

/-- `kNeighborStaleTimeoutMs` -/
def neighborStaleTimeoutMs : Nat := 30000

/-- The ageing of `MeshManager::run`: report silent neighbours, then forget the
older ones. The two scans read the clock for themselves. -/
def age (router : Router) (staleNow pruneNow : Nat) : Router × List RouteFrame :=
  let reported := router.table.detectEarlyStale staleNow earlyStaleTimeoutMs
  ({ router with table := reported.2.pruneStale pruneNow neighborStaleTimeoutMs },
    reported.1.map fun stale =>
      router.sendRouteError
        { deadAddr := stale.1, inetOrigin := stale.2.1, lastKnownSeq := stale.2.2 })

/-- Everything that touches the routing state of a node. -/
inductive Event where
  | receive (rx : Reception) (frame : RouteFrame)
  | discover (queueLoad : Nat)
  | age (staleNow pruneNow : Nat)
  | linkTx (addr : Nat) (success : Bool)
  | setInternet (value : Bool)
  | transmit (dst : Nat)
deriving Repr, DecidableEq

/-- The next routing state and the frames sent. A `transmit` is any traffic without
routing content; `linkTx` is the report `send_raw` makes for a unicast. -/
def step (router : Router) : Event → Router × List RouteFrame
  | .receive rx frame => router.processSlab rx frame
  | .discover queueLoad => router.sendDiscovery queueLoad
  | .age staleNow pruneNow => router.age staleNow pruneNow
  | .linkTx addr success =>
      ({ router with table := router.table.reportLinkTx addr success }, [])
  | .setInternet value => ({ router with hasInternet := value }, [])
  | .transmit dst => (router, [.fresh router.myAddr dst .other])

def run (router : Router) (events : List Event) : Router :=
  events.foldl (fun current event => (current.step event).1) router

end Router

/-! ## A network -/

/-- Nodes, and every frame that was ever sent. -/
structure Network (ι : Type) where
  nodes : ι → Router
  air : List RouteFrame := []

namespace Network

variable {ι : Type} [DecidableEq ι]

/-- One event at one node. -/
def step (net : Network ι) (action : ι × Router.Event) : Network ι :=
  let moved := (net.nodes action.1).step action.2
  { nodes := Function.update net.nodes action.1 moved.1
    air := net.air ++ moved.2 }

/-- A frame can arrive at any node and any time after it was sent, any number of
times; relays on the way change its hop fields only. -/
def Deliverable (net : Network ι) : Router.Event → Prop
  | .receive _ frame =>
      ∃ sent ∈ net.air,
        sent.srcAddr = frame.srcAddr ∧ sent.dstAddr = frame.dstAddr ∧
          sent.payload = frame.payload
  | _ => True

def run (net : Network ι) (actions : List (ι × Router.Event)) : Network ι :=
  actions.foldl step net

/-- Every frame received in the run was sent before. -/
def Feasible (net : Network ι) : List (ι × Router.Event) → Prop
  | [] => True
  | action :: rest => net.Deliverable action.2 ∧ (net.step action).Feasible rest

end Network

end ForestLink.Mesh
