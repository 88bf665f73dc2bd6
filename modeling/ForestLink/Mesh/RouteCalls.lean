/-
Module: ForestLink.Mesh.RouteCalls
Purpose: The neighbour table as `route_table.hpp` stores it, an array that is changed in place,
  under any sequence of calls, with the real time at which each neighbour was last heard.
Trusted boundary: none
Main exports: RouteArray, RouteArray.table, RouteCall, RouteArray.apply, RouteHistory,
  RouteHistory.step
-/
import ForestLink.Lib.Slice
import ForestLink.Mesh.Manager
import Mathlib.Logic.Function.Basic

namespace ForestLink.Mesh

open ForestLink.Lib
open ForestLink.Protocol

/-! ## The array -/

/-- `neighbors_` and `count_`: sixteen places, the first ones in use. -/
structure RouteArray where
  slots : Slice NeighborEntry
  size : slots.cells.length = maxNeighbors

namespace RouteArray

/-- The entries in use. -/
def table (a : RouteArray) : RouteTable := { neighbors := a.slots.view }

/-- `RouteTable()` -/
def empty : RouteArray where
  slots :=
    { cells := List.replicate maxNeighbors { addr := 0, hopsToInternet := 0, etxX100 := 0 }
      len := 0
      inside := Nat.zero_le _ }
  size := List.length_replicate

/-- `neighbors_[i] = entry` -/
def write (a : RouteArray) (i : Nat) (entry : NeighborEntry) : RouteArray where
  slots := a.slots.store i entry
  size := (List.length_set ..).trans a.size

/-- The place of the first entry of `addr`. -/
def find (a : RouteArray) (addr : Nat) : Option Nat :=
  a.slots.view.findIdx? fun entry => entry.addr == addr

/-- Change the first entry of `addr` in place. -/
def adjust (a : RouteArray) (addr : Nat) (change : NeighborEntry → NeighborEntry) : RouteArray :=
  match a.find addr with
  | some i =>
      match a.slots.view[i]? with
      | some entry => a.write i (change entry)
      | none => a
  | none => a

/-- Put an entry behind the last one. -/
def push (a : RouteArray) (entry : NeighborEntry) (room : a.slots.len < maxNeighbors) :
    RouteArray where
  slots :=
    { cells := a.slots.cells.set a.slots.len entry
      len := a.slots.len + 1
      inside := by
        rw [List.length_set, a.size]
        exact room }
  size := (List.length_set ..).trans a.size

open RouteTable in
/-- `update_neighbor` -/
def updateNeighbor (a : RouteArray) (now addr : Nat) (heard : Heard) : RouteArray :=
  if (a.find addr).isSome then a.adjust addr (refresh now heard)
  else if room : a.slots.len < maxNeighbors then a.push (newEntry now addr heard) room
  else a.write (oldestIndex now a.slots.view) (newEntry now addr heard)

/-- `update_inet_route` -/
def updateInetRoute (a : RouteArray) (neighborAddr hopsInet seq origin : Nat) : RouteArray :=
  a.adjust neighborAddr fun entry =>
    (RouteTable.acceptInetRoute entry hopsInet seq origin).getD entry

/-- Rewrite every entry in use. -/
def rewrite (a : RouteArray) (change : NeighborEntry → NeighborEntry) : RouteArray where
  slots := a.slots.mapInPlace change
  size := (Slice.length_cells_mapInPlace ..).trans a.size

/-- `prune_stale` -/
def pruneStale (a : RouteArray) (now maxAgeMs : Nat) : RouteArray where
  slots := a.slots.filterInPlace fun entry => decide (sub32 now entry.lastSeenMs ≤ maxAgeMs)
  size := (Slice.length_cells_filterInPlace ..).trans a.size

end RouteArray

/-! ## Calls -/

inductive RouteCall where
  | updateNeighbor (addr : Nat) (heard : RouteTable.Heard)
  | updateInetRoute (neighborAddr hopsInet seq origin : Nat)
  | setHasInternet (addr : Nat) (value : Bool)
  | setQueueLoad (addr load : Nat)
  | reportLinkTx (addr : Nat) (success : Bool)
  | invalidateRouteVia (deadAddr : Nat)
  | detectEarlyStale (earlyMs : Nat)
  | checkBetterRoute (currentBest myAddr : Nat)
  | pruneStale (maxAgeMs : Nat)

/-- The table after a call, as the list of its entries. -/
def RouteTable.apply (table : RouteTable) (now : Nat) : RouteCall → RouteTable
  | .updateNeighbor addr heard => table.updateNeighbor now addr heard
  | .updateInetRoute neighborAddr hopsInet seq origin =>
      (table.updateInetRoute neighborAddr hopsInet seq origin).2
  | .setHasInternet addr value => table.setHasInternet addr value
  | .setQueueLoad addr load => table.setQueueLoad addr load
  | .reportLinkTx addr success => table.reportLinkTx addr success
  | .invalidateRouteVia deadAddr => (table.invalidateRouteVia deadAddr).2
  | .detectEarlyStale earlyMs => (table.detectEarlyStale now earlyMs).2
  | .checkBetterRoute _ _ => table
  | .pruneStale maxAgeMs => table.pruneStale now maxAgeMs

namespace RouteArray

/-- `set_has_internet` -/
def setHasInternet (a : RouteArray) (addr : Nat) (value : Bool) : RouteArray :=
  a.adjust addr fun entry =>
    { entry with
      hasInternet := value
      hopsToInternet := if value then 0 else entry.hopsToInternet }

/-- `set_queue_load` -/
def setQueueLoad (a : RouteArray) (addr load : Nat) : RouteArray :=
  a.adjust addr fun entry => { entry with queueLoad := load }

/-- `report_link_tx` -/
def reportLinkTx (a : RouteArray) (addr : Nat) (success : Bool) : RouteArray :=
  a.adjust addr fun entry =>
    let txCount := (entry.txCount + 1) % 2 ^ 16
    let txSuccess := if success then (entry.txSuccess + 1) % 2 ^ 16 else entry.txSuccess
    let etx := txCount * 100 / (if txSuccess > 0 then txSuccess else 1) % 2 ^ 16
    { entry with
      txCount := txCount
      txSuccess := txSuccess
      etxX100 := if etx > 1000 then 1000 else etx }

/-- `invalidate_route_via` -/
def invalidateRouteVia (a : RouteArray) (deadAddr : Nat) : RouteArray :=
  a.rewrite fun entry =>
    if entry.addr == deadAddr && decide (entry.hopsToInternet < routeHopsUnknown) then
      { entry with hopsToInternet := routeHopsUnknown }
    else entry

/-- `detect_early_stale` -/
def detectEarlyStale (a : RouteArray) (now earlyMs : Nat) : RouteArray :=
  a.rewrite fun entry =>
    if !entry.earlyStaleSent && decide (sub32 now entry.lastSeenMs > earlyMs) then
      { entry with earlyStaleSent := true }
    else entry

/-- The array after a call that finds the clock at `now`; `check_better_route` only reads. -/
def apply (a : RouteArray) (now : Nat) : RouteCall → RouteArray
  | .updateNeighbor addr heard => a.updateNeighbor now addr heard
  | .updateInetRoute neighborAddr hopsInet seq origin =>
      a.updateInetRoute neighborAddr hopsInet seq origin
  | .setHasInternet addr value => a.setHasInternet addr value
  | .setQueueLoad addr load => a.setQueueLoad addr load
  | .reportLinkTx addr success => a.reportLinkTx addr success
  | .invalidateRouteVia deadAddr => a.invalidateRouteVia deadAddr
  | .detectEarlyStale earlyMs => a.detectEarlyStale now earlyMs
  | .checkBetterRoute _ _ => a
  | .pruneStale maxAgeMs => a.pruneStale now maxAgeMs

end RouteArray

/-! ## Histories -/

/-- An array after some calls, the real time of the last call, and when each address was last
heard. -/
structure RouteHistory where
  array : RouteArray := .empty
  nowMs : Nat := 0
  heardAt : Nat → Nat := fun _ => 0

/-- A call at a real time; the 32-bit clock shows it modulo 2^32. -/
structure TimedCall where
  nowMs : Nat
  call : RouteCall

namespace RouteHistory

def step (h : RouteHistory) (timed : TimedCall) : RouteHistory where
  array := h.array.apply (timed.nowMs % 2 ^ 32) timed.call
  nowMs := timed.nowMs
  heardAt :=
    match timed.call with
    | .updateNeighbor addr _ => Function.update h.heardAt addr timed.nowMs
    | _ => h.heardAt

def run (h : RouteHistory) (calls : List TimedCall) : RouteHistory := calls.foldl step h

/-- The age of an entry at a real time. -/
def age (h : RouteHistory) (nowMs : Nat) (entry : NeighborEntry) : Nat :=
  nowMs - h.heardAt entry.addr

end RouteHistory

end ForestLink.Mesh
