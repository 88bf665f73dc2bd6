/-
Module: ForestLink.Cloud.TopologyGraph
Purpose: The graph that the dashboard draws, `ToJSON` of
  `cloud-admin/internal/topology/topology.go`.
Trusted boundary: none
Main exports: GraphNode, GraphEdge, edgeKey, GraphBuilder, Aggregator.toJson
-/
import Mathlib.Data.String.Basic
import ForestLink.Cloud.Topology

namespace ForestLink.Cloud

/-!
Go visits the entries of a map in an order of its own, a new one for each loop.  Each of the two
loops of `ToJSON` is given the list of the entries that it visits.
-/

/-- `"online"`, `"offline"` or `"inferred"`. -/
inductive NodeStatus where
  | online | offline | inferred
deriving Repr, DecidableEq

/-- `"unknown"`, `"ESP-NOW"` or `"LoRa"`. -/
inductive LinkTransport where
  | unknown | espnow | lora
deriving Repr, DecidableEq

/-- A member of `nodes`. -/
structure GraphNode where
  id : String
  status : NodeStatus
  hopsToInternet : Nat
  heap : Option HeapInfo := none
deriving Repr, DecidableEq

/-- A member of `edges`. -/
structure GraphEdge where
  source : String
  target : String
  rssi : Int
  transport : LinkTransport
deriving Repr, DecidableEq

/-- What `ToJSON` returns. -/
structure TopologyGraph where
  nodes : List GraphNode
  edges : List GraphEdge
deriving Repr, DecidableEq

/-- `edgeKey`: the two ends in order. -/
def edgeKey (a b : String) : String × String := if b < a then (b, a) else (a, b)

/-- The variables of `ToJSON`. -/
structure GraphBuilder where
  nodes : List GraphNode := []
  edges : List GraphEdge := []
  seenEdges : List (String × String) := []
  seenNodes : List String := []

/-- The vertex of a node that has sent a report, a minute old or newer. -/
def reportedNode (nowMs : Nat) (nid : String) (info : NodeState) : GraphNode where
  id := nid
  status := if 60000 ≤ nowMs - info.lastSeenMs then .offline else .online
  hopsToInternet := info.neighbors.foldl (fun minHops n =>
    if n.hopsToInternet < minHops then n.hopsToInternet else minHops) 255
  heap := info.heap

/-- The edge from a node to one of its neighbours. -/
def edgeOf (nid : String) (n : Neighbor) : GraphEdge where
  source := nid
  target := n.addr
  rssi := n.rssi
  transport := if n.espnow then .espnow else if n.lora then .lora else .unknown

/-- The vertex of a neighbour that has not sent a report of its own. -/
def inferredNode (n : Neighbor) : GraphNode where
  id := n.addr
  status := .inferred
  hopsToInternet := n.hopsToInternet

namespace GraphBuilder

/-- The inner loop of the first pass. -/
def addEdge (nid : String) (g : GraphBuilder) (n : Neighbor) : GraphBuilder :=
  if g.seenEdges.contains (edgeKey nid n.addr) then g
  else { g with
    seenEdges := edgeKey nid n.addr :: g.seenEdges
    edges := g.edges ++ [edgeOf nid n] }

/-- First pass: the nodes that have reported, and their links. -/
def addReport (nowMs : Nat) (g : GraphBuilder) (entry : String × NodeState) : GraphBuilder :=
  entry.2.neighbors.foldl (addEdge entry.1) { g with
    seenNodes := entry.1 :: g.seenNodes
    nodes := g.nodes ++ [reportedNode nowMs entry.1 entry.2] }

/-- The inner loop of the second pass. -/
def addInferred (g : GraphBuilder) (n : Neighbor) : GraphBuilder :=
  if n.addr ∈ g.seenNodes then g
  else { g with
    seenNodes := n.addr :: g.seenNodes
    nodes := g.nodes ++ [inferredNode n] }

end GraphBuilder

/-- `ToJSON`, with the entries that its two loops visit. -/
def toJson (nowMs : Nat) (first second : List (String × NodeState)) : TopologyGraph :=
  let reported := first.foldl (GraphBuilder.addReport nowMs) {}
  let inferred := second.foldl (fun g entry =>
    entry.2.neighbors.foldl GraphBuilder.addInferred g) reported
  { nodes := inferred.nodes, edges := inferred.edges }

/-- The entries of the map, each once, as a loop over it visits them. -/
structure Aggregator.Visits (a : Aggregator) (order : List (String × NodeState)) : Prop where
  distinct : (order.map Prod.fst).Nodup
  entries : ∀ id state, (id, state) ∈ order ↔ a.nodes id = some state

/-! ## Calls -/

/-- What the nodes' messages call. -/
inductive TopologyCall where
  | update (nodeId : String) (payload : List UInt8) (nowMs : Nat)
  | updateHeap (nodeId : String) (payload : List UInt8) (nowMs : Nat)

namespace Aggregator

def call (a : Aggregator) : TopologyCall → Option Aggregator
  | .update nodeId payload nowMs => a.update nodeId payload nowMs
  | .updateHeap nodeId payload nowMs => some (a.updateHeap nodeId payload nowMs)

def calls (a : Aggregator) (made : List TopologyCall) : Option Aggregator := made.foldlM call a

end Aggregator

end ForestLink.Cloud
