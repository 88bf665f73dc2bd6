/-
Module: ForestLink.Mesh.RouteTable
Purpose: The neighbour table of a mesh node: direct neighbours, their advertised
  internet routes and the choice of the next hop (`route_table.hpp`).
Trusted boundary: none
Main exports: NeighborEntry, RouteTable, updateNeighbor, updateInetRoute, nextHop,
  bestInetRoute, invalidateRouteVia, pruneStale
-/
import ForestLink.Lib.Serial
import ForestLink.Protocol.Packet

namespace ForestLink.Mesh

open ForestLink.Lib
open ForestLink.Protocol

/-- `seq_newer`: RFC 1982 order of 16-bit sequence numbers. -/
def seqNewer (a b : Nat) : Bool := Serial.newer (2 ^ 15) a b

/-- `ROUTE_HOPS_UNKNOWN` -/
def routeHopsUnknown : Nat := 0xFF

/-- `MAX_NEIGHBORS` -/
def maxNeighbors : Nat := 16

structure NeighborEntry where
  addr : Nat
  rssi : Int := 0
  hopCount : Nat := 0
  hopsToInternet : Nat := routeHopsUnknown
  lastSeenMs : Nat := 0
  espnowReachable : Bool := false
  loraReachable : Bool := false
  hasInternet : Bool := false
  inetSeq : Nat := 0
  inetOrigin : Nat := 0
  txCount : Nat := 0
  txSuccess : Nat := 0
  etxX100 : Nat := 100
  queueLoad : Nat := 0
  earlyStaleSent : Bool := false
deriving Repr, DecidableEq

/-- `RouteTable`: the entries in use, in table order. -/
structure RouteTable where
  neighbors : List NeighborEntry := []
deriving Repr, DecidableEq

namespace RouteTable

/-! ## Entries -/

/-- `get_neighbor` -/
def getNeighbor (table : RouteTable) (addr : Nat) : Option NeighborEntry :=
  table.neighbors.find? fun entry => entry.addr == addr

/-- Change the first entry of `addr`. -/
def adjustFirst (addr : Nat) (change : NeighborEntry → NeighborEntry) :
    List NeighborEntry → List NeighborEntry
  | [] => []
  | entry :: rest =>
      if entry.addr == addr then change entry :: rest
      else entry :: adjustFirst addr change rest

def adjust (table : RouteTable) (addr : Nat) (change : NeighborEntry → NeighborEntry) :
    RouteTable :=
  { table with neighbors := adjustFirst addr change table.neighbors }

/-- Index of the entry that was heard least recently; the first of several. -/
def oldestIndex (now : Nat) (entries : List NeighborEntry) : Nat :=
  (entries.zipIdx.foldl
    (fun (oldest : Nat × Nat) entry =>
      if sub32 now entry.1.lastSeenMs > oldest.2 then
        (entry.2, sub32 now entry.1.lastSeenMs)
      else oldest) (0, 0)).1

/-- What a packet tells about its sender. -/
structure Heard where
  rssi : Int := 0
  hops : Nat := 0
  espnow : Bool := true
  lora : Bool := false
  hopsToInet : Nat := routeHopsUnknown

/-- A known neighbour was heard again. -/
def refresh (now : Nat) (heard : Heard) (entry : NeighborEntry) : NeighborEntry :=
  { entry with
    rssi := heard.rssi
    hopCount := heard.hops
    lastSeenMs := now % 2 ^ 32
    espnowReachable := entry.espnowReachable || heard.espnow
    loraReachable := entry.loraReachable || heard.lora
    earlyStaleSent := false
    hopsToInternet :=
      if heard.hopsToInet ≠ routeHopsUnknown then heard.hopsToInet
      else entry.hopsToInternet }

/-- The entry of a new neighbour. -/
def newEntry (now addr : Nat) (heard : Heard) : NeighborEntry :=
  { addr := addr
    rssi := heard.rssi
    hopCount := heard.hops
    hopsToInternet := heard.hopsToInet
    lastSeenMs := now % 2 ^ 32
    espnowReachable := heard.espnow
    loraReachable := heard.lora }

/-- `update_neighbor` -/
def updateNeighbor (table : RouteTable) (now addr : Nat) (heard : Heard) : RouteTable :=
  if table.neighbors.any fun entry => entry.addr == addr then
    table.adjust addr (refresh now heard)
  else if table.neighbors.length < maxNeighbors then
    { table with neighbors := table.neighbors ++ [newEntry now addr heard] }
  else
    { table with
      neighbors :=
        table.neighbors.set (oldestIndex now table.neighbors) (newEntry now addr heard) }

/-! ## Internet routes -/

/-- The entry after an advertisement, or `none` where `update_inet_route` rejects. -/
def acceptInetRoute (entry : NeighborEntry) (hopsInet seq origin : Nat) :
    Option NeighborEntry :=
  if origin = entry.inetOrigin ∧ seqNewer seq entry.inetSeq then
    some { entry with hopsToInternet := hopsInet, inetSeq := seq, inetOrigin := origin }
  else if origin = entry.inetOrigin ∧ seq = entry.inetSeq then
    if hopsInet < entry.hopsToInternet then some { entry with hopsToInternet := hopsInet }
    else none
  else if origin ≠ entry.inetOrigin then
    if seqNewer seq entry.inetSeq ∨ hopsInet < entry.hopsToInternet then
      some { entry with hopsToInternet := hopsInet, inetSeq := seq, inetOrigin := origin }
    else none
  else none

/-- `update_inet_route` -/
def updateInetRoute (table : RouteTable) (neighborAddr hopsInet seq origin : Nat) :
    Bool × RouteTable :=
  match table.getNeighbor neighborAddr with
  | none => (false, table)
  | some entry =>
      match acceptInetRoute entry hopsInet seq origin with
      | none => (false, table)
      | some accepted => (true, table.adjust neighborAddr fun _ => accepted)

/-- `set_has_internet` -/
def setHasInternet (table : RouteTable) (addr : Nat) (value : Bool) : RouteTable :=
  table.adjust addr fun entry =>
    { entry with
      hasInternet := value
      hopsToInternet := if value then 0 else entry.hopsToInternet }

/-- `set_queue_load` -/
def setQueueLoad (table : RouteTable) (addr load : Nat) : RouteTable :=
  table.adjust addr fun entry => { entry with queueLoad := load }

/-- `InetRouteInfo` -/
structure InetRouteInfo where
  hops : Nat := routeHopsUnknown
  seq : Nat := 0
  origin : Nat := 0
deriving Repr, DecidableEq

/-- `best_inet_route` -/
def bestInetRoute (table : RouteTable) : InetRouteInfo :=
  table.neighbors.foldl
    (fun best entry =>
      if entry.hopsToInternet < best.hops then
        { hops := entry.hopsToInternet, seq := entry.inetSeq, origin := entry.inetOrigin }
      else best) {}

/-- `min_control_hops_to_internet` -/
def minControlHopsToInternet (table : RouteTable) : Nat :=
  table.neighbors.foldl
    (fun best entry =>
      if (entry.hasInternet ∨ entry.hopsToInternet < routeHopsUnknown) ∧
          entry.hopsToInternet < best then entry.hopsToInternet
      else best) routeHopsUnknown

/-- `invalidate_route_via`; the flag says whether a finite route was dropped. -/
def invalidateRouteVia (table : RouteTable) (deadAddr : Nat) : Bool × RouteTable :=
  let affected := fun entry : NeighborEntry =>
    entry.addr == deadAddr && decide (entry.hopsToInternet < routeHopsUnknown)
  (table.neighbors.any affected,
    { table with
      neighbors := table.neighbors.map fun entry =>
        if affected entry then { entry with hopsToInternet := routeHopsUnknown } else entry })

/-! ## Next hop -/

/-- `LORA_ONLY_PENALTY` -/
def loraOnlyPenalty : Nat := 500

/-- `route_cost` -/
def routeCost (entry : NeighborEntry) : Nat :=
  entry.hopsToInternet * 100 + entry.etxX100 + entry.queueLoad +
    if entry.loraReachable && !entry.espnowReachable then loraOnlyPenalty else 0

/-- Continue the search for the cheapest entry; the first of several wins. -/
def cheapest (start : Nat × Nat) (entries : List NeighborEntry) : Nat × Nat :=
  entries.foldl
    (fun best entry =>
      if routeCost entry < best.2 then (entry.addr, routeCost entry) else best) start

/-- Entries that a packet to `dstAddr` may use; own address 0 disables the loop
check. -/
def candidates (table : RouteTable) (dstAddr myAddr : Nat) : List NeighborEntry :=
  table.neighbors.filter fun entry =>
    decide (entry.hopsToInternet < routeHopsUnknown) &&
      (dstAddr == exitAnyAddr || entry.hopsToInternet != 0) &&
      !(dstAddr == exitAnyAddr && myAddr != 0 && entry.inetOrigin == myAddr)

/-- `next_hop` -/
def nextHop (table : RouteTable) (dstAddr myAddr : Nat) : Nat :=
  if table.neighbors.any fun entry => entry.addr == dstAddr then dstAddr
  else
    let best := cheapest (broadcastAddr, 2 ^ 32 - 1) (table.candidates dstAddr myAddr)
    if best.1 = broadcastAddr ∧ dstAddr ≠ exitAnyAddr then
      -- All candidates were exits: allow them.
      (cheapest best (table.neighbors.filter fun entry =>
        decide (entry.hopsToInternet < routeHopsUnknown))).1
    else best.1

/-! ## Link reports and age -/

/-- `report_link_tx`, with 16-bit counters. -/
def reportLinkTx (table : RouteTable) (addr : Nat) (success : Bool) : RouteTable :=
  table.adjust addr fun entry =>
    let txCount := (entry.txCount + 1) % 2 ^ 16
    let txSuccess := if success then (entry.txSuccess + 1) % 2 ^ 16 else entry.txSuccess
    let etx := txCount * 100 / (if txSuccess > 0 then txSuccess else 1) % 2 ^ 16
    { entry with
      txCount := txCount
      txSuccess := txSuccess
      etxX100 := if etx > 1000 then 1000 else etx }

/-- `detect_early_stale`: the callbacks' arguments, and the table with the entries
marked. -/
def detectEarlyStale (table : RouteTable) (now earlyMs : Nat) :
    List (Nat × Nat × Nat) × RouteTable :=
  let stale := fun entry : NeighborEntry =>
    !entry.earlyStaleSent && decide (sub32 now entry.lastSeenMs > earlyMs)
  ((table.neighbors.filter stale).map fun entry =>
      (entry.addr, entry.inetOrigin, entry.inetSeq),
    { table with
      neighbors := table.neighbors.map fun entry =>
        if stale entry then { entry with earlyStaleSent := true } else entry })

/-- `prune_stale` -/
def pruneStale (table : RouteTable) (now maxAgeMs : Nat) : RouteTable :=
  { table with
    neighbors := table.neighbors.filter fun entry =>
      decide (sub32 now entry.lastSeenMs ≤ maxAgeMs) }

end RouteTable

end ForestLink.Mesh
