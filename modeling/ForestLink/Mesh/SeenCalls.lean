/-
Module: ForestLink.Mesh.SeenCalls
Purpose: The duplicate cache of a node under any sequence of `already_seen` calls, with the order
  in which its slots were filled.
Trusted boundary: none
Main exports: SeenCall, SeenHistory, SeenHistory.boot, SeenHistory.seen,
  SeenHistory.step, SeenHistory.run
-/
import ForestLink.Lib.Recency
import ForestLink.Mesh.Packets

namespace ForestLink.Mesh

open ForestLink.Lib
open ForestLink.Protocol

/-- A call of `already_seen` at a real time; the 32-bit clock shows it modulo 2^32. -/
structure SeenCall where
  nowMs : Nat
  packet : MeshPacket
  window : Nat

namespace SeenCall

/-- What the cache compares: source, destination, type and sequence number. -/
def key (call : SeenCall) : Nat × Nat × Nat × Nat :=
  (call.packet.header.srcAddr, call.packet.header.dstAddr, call.packet.header.typeCode,
    call.packet.header.seqNum)

/-- The reading of the clock. -/
def reading (call : SeenCall) : Nat := call.nowMs % 2 ^ 32

end SeenCall

/-- A node after some calls, the records in its slots with the order in which they were made, and
the real time of the last call. -/
structure SeenHistory where
  node : MeshManager
  records : Recency SeenCall := .blank seenCacheSize
  nowMs : Nat := 0

namespace SeenHistory

/-- A node after `init`. -/
def boot (myAddr : Nat) (blockedPeers : List Nat) (subscribedTopics : List (List UInt8))
    (ledEnabled : Bool) : SeenHistory where
  node := .boot myAddr blockedPeers subscribedTopics ledEnabled

/-- The node when the clock shows the time of the call. -/
def atCall (h : SeenHistory) (call : SeenCall) : MeshManager :=
  { h.node with env := { h.node.env with seenMs := call.nowMs } }

/-- What `already_seen` returns. -/
def seen (h : SeenHistory) (call : SeenCall) : Bool :=
  ((h.atCall call).alreadySeen call.packet call.window).1

def step (h : SeenHistory) (call : SeenCall) : SeenHistory where
  node := ((h.atCall call).alreadySeen call.packet call.window).2
  records :=
    if h.seen call then h.records
    else h.records.write ((h.atCall call).seenSlot call.reading) call
  nowMs := call.nowMs

def run (h : SeenHistory) (calls : List SeenCall) : SeenHistory := calls.foldl step h

end SeenHistory

end ForestLink.Mesh
