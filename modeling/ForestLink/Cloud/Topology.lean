/-
Module: ForestLink.Cloud.Topology
Purpose: The live mesh graph of the cloud, as far as reports of the nodes change it
  (`cloud-admin/internal/topology/topology.go`).
Trusted boundary: none
Main exports: Neighbor, NodeState, Aggregator, readNeighbor, readNeighbors,
  Aggregator.update, Aggregator.updateHeap
-/
import Mathlib.Logic.Function.Basic
import ForestLink.Protocol.Packet

namespace ForestLink.Cloud

open ForestLink.Protocol

/-!
A read outside a slice panics in Go; here it has no result.  Times are milliseconds; the
conversion to seconds is left out.
-/

/-- `fmt.Sprintf("%04X", addr)` of a 16-bit value. -/
def formatUpperHex4 (value : Nat) : String :=
  String.ofList ([value / 4096, value / 256, value / 16, value].map fun digit =>
    (Nat.digitChar (digit % 16)).toUpper)

structure Neighbor where
  addr : String
  rssi : Int
  hops : Nat
  hopsToInternet : Nat
  espnow : Bool
  lora : Bool
  hasInternet : Bool
  queueLoad : Nat
deriving Repr, DecidableEq

structure HeapInfo where
  freeInternal : Nat
  freePsram : Nat
  minInternal : Nat
  minPsram : Nat
  largestBlock : Nat
deriving Repr, DecidableEq

structure NodeState where
  lastSeenMs : Nat
  neighbors : List Neighbor := []
  heap : Option HeapInfo := none
deriving Repr, DecidableEq

/-- The nodes by id. -/
structure Aggregator where
  nodes : String → Option NodeState := fun _ => none

/-- One record of a report: address, signal, two hop counts, flags and queue load. -/
def readNeighbor (payload : List UInt8) (off : Nat) : Option Neighbor :=
  match payload.drop off with
  | addrLow :: addrHigh :: rssi :: hops :: hopsInet :: flags :: queueLoad :: _ =>
      some
        { addr := formatUpperHex4 (addrLow.toNat + 256 * addrHigh.toNat)
          rssi := toInt8 rssi.toNat
          hops := hops.toNat
          hopsToInternet := hopsInet.toNat
          espnow := flags.toNat &&& 0x01 != 0
          lora := flags.toNat &&& 0x02 != 0
          hasInternet := flags.toNat &&& 0x04 != 0
          queueLoad := queueLoad.toNat }
  | _ => none

/-- The loop of `Update` from record `i` on, which stops at the first record that is cut
off. -/
def readNeighbors (payload : List UInt8) : (remaining i : Nat) → Option (List Neighbor)
  | 0, _ => some []
  | remaining + 1, i =>
      let off := 1 + i * 7
      if off + 7 > payload.length then some []
      else do
        let neighbor ← readNeighbor payload off
        let rest ← readNeighbors payload remaining (i + 1)
        some (neighbor :: rest)

namespace Aggregator

/-- `Update`; the heap of a known node is kept. -/
def update (a : Aggregator) (nodeId : String) (payload : List UInt8) (nowMs : Nat) :
    Option Aggregator :=
  match payload with
  | [] => some a
  | count :: _ => do
      let neighbors ← readNeighbors payload count.toNat 0
      let state : NodeState :=
        { lastSeenMs := nowMs
          neighbors := neighbors
          heap := (a.nodes nodeId).bind NodeState.heap }
      some { nodes := Function.update a.nodes nodeId (some state) }

/-- `UpdateHeap` -/
def updateHeap (a : Aggregator) (nodeId : String) (payload : List UInt8) (nowMs : Nat) :
    Aggregator :=
  if payload.length < 20 then a
  else
    let heap : HeapInfo :=
      { freeInternal := readLe payload 0 4
        freePsram := readLe payload 4 4
        minInternal := readLe payload 8 4
        minPsram := readLe payload 12 4
        largestBlock := readLe payload 16 4 }
    let state : NodeState :=
      match a.nodes nodeId with
      | some known => { known with heap := some heap }
      | none => { lastSeenMs := nowMs, heap := some heap }
    { nodes := Function.update a.nodes nodeId (some state) }

end Aggregator

end ForestLink.Cloud
