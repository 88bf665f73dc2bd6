/-
Module: ForestLink.Mesh.OowQueue
Purpose: The out-of-window retransmit queue as `transfer_engine.hpp` stores it, two arrays of
  which the first places are in use, under any sequence of `handle_nack` and `tick_mesh_arq`.
Trusted boundary: none
Main exports: TransferEngine.visitOow, OowArrays, OowArrays.enqueue, OowArrays.drain,
  TransferEngine.queuesNack, OowAction, OowHistory, OowHistory.step
-/
import ForestLink.Lib.Compaction
import ForestLink.Mesh.Handlers
import Mathlib.Logic.Function.Basic

namespace ForestLink.Mesh

open ForestLink.Lib
open ForestLink.Protocol
open TransferEngine (oowRetxQueueSize)

variable {F : Type}

/-- One round of the drain loop, after `s.1` sends: what becomes of the entry. -/
def TransferEngine.visitOow (now budget : Nat) (allowed : Bool)
    (s : Nat × TransferEngine F) (entry : Nat × Nat) :
    Verdict (Nat × Nat) × (Nat × TransferEngine F) :=
  if !allowed || decide (s.1 ≥ budget) then (.keep entry, s)
  else
    match s.2.oowPayload entry.1 with
    | (none, after) => (.drop, (s.1, after))
    | (some payload, after) =>
        if payload = [] then (.keep entry, (s.1, after))
        else
          let target := after.oowTarget entry.2
          let result := after.sendPacket target .data payload entry.1
          if result.1 < 0 then (.stop (entry.1, target), (s.1, result.2))
          else
            (.drop, (s.1 + 1,
              { result.2 with
                oowRecent :=
                  Function.update result.2.oowRecent result.2.oowRecentWrite (entry.1, now)
                oowRecentWrite := (result.2.oowRecentWrite + 1) % oowRecentRingSize
                lastOowRetxMs := now }))

/-! ## The arrays -/

/-- `oow_retx_queue_`, `oow_retx_dst_` and `oow_retx_count_`. -/
structure OowArrays where
  seqs : List Nat := List.replicate oowRetxQueueSize 0
  dsts : List Nat := List.replicate oowRetxQueueSize 0
  count : Nat := 0
deriving Repr, DecidableEq

namespace OowArrays

/-- The entries in use. -/
def view (a : OowArrays) : List (Nat × Nat) := (a.seqs.zip a.dsts).take a.count

/-- `oow_retx_queue_[i] = seq; oow_retx_dst_[i] = dst` -/
def put (a : OowArrays) (i : Nat) (entry : Nat × Nat) : OowArrays :=
  { a with seqs := a.seqs.set i entry.1, dsts := a.dsts.set i entry.2 }

/-- The enqueue of `handle_nack`, behind its other checks. -/
def enqueue (a : OowArrays) (seq fromAddr : Nat) : OowArrays :=
  match (a.seqs.take a.count).findIdx? fun pending => pending == seq with
  | some i => { a with dsts := a.dsts.set i fromAddr }
  | none =>
      if a.count < oowRetxQueueSize then
        { a.put a.count (seq, fromAddr) with count := a.count + 1 }
      else a

/-- The loop that copies the tail after a failed send. -/
def copyTail : (count source target : Nat) → OowArrays → OowArrays
  | 0, _, _, a => a
  | count + 1, source, target, a =>
      match a.seqs[source]?, a.dsts[source]? with
      | some seq, some dst => copyTail count (source + 1) (target + 1) (a.put target (seq, dst))
      | _, _ => a

/-- The drain loop from place `i` on, with `count` entries ahead and `kept` entries kept: how many
are kept, the arrays, and the sends and the engine. -/
def drainFrom (now budget : Nat) (allowed : Bool) :
    (count i kept : Nat) → OowArrays → Nat × TransferEngine F →
      Nat × OowArrays × (Nat × TransferEngine F)
  | 0, _, kept, a, s => (kept, a, s)
  | count + 1, i, kept, a, s =>
      match a.seqs[i]?, a.dsts[i]? with
      | some seq, some dst =>
          match TransferEngine.visitOow now budget allowed s (seq, dst) with
          | (.keep entry, after) =>
              drainFrom now budget allowed count (i + 1) (kept + 1) (a.put kept entry) after
          | (.drop, after) => drainFrom now budget allowed count (i + 1) kept a after
          | (.stop entry, after) =>
              (kept + 1 + count, copyTail count (i + 1) (kept + 1) (a.put kept entry), after)
      | _, _ => (kept, a, s)

/-- The drain of `tick_mesh_arq`. -/
def drain (a : OowArrays) (now : Nat) (e : TransferEngine F) : OowArrays :=
  if a.count = 0 ∨ e.transfer.readChunk.isNone then a
  else
    let drained := drainFrom now e.oowPolicy.1
      (decide (sub32 now e.lastOowRetxMs ≥ e.oowPolicy.2)) a.count 0 0 a (0, e)
    { drained.2.1 with count := drained.1 }

end OowArrays

/-! ## Histories -/

/-- `handle_nack` puts the fragment into the queue, or updates its entry. -/
def TransferEngine.queuesNack (e : TransferEngine F) (seq fromAddr : Nat) : Bool :=
  (match e.arqIndexForPeer fromAddr with
    | none => false
    | some index =>
        !(e.arq index).containsSequence seq && !(e.arqIndexForSequence seq).isSome) &&
    e.transfer.active && decide (seq < e.transfer.fragmentCount) &&
    ((e.oowRetxQueue.any fun entry => entry.1 == seq) ||
      !e.nowMs.2.recentlyResent seq e.nowMs.1 &&
        decide (e.oowRetxQueue.length < oowRetxQueueSize))

/-- A call with its surroundings. -/
inductive OowAction where
  | nack (env : Env) (seq fromAddr : Nat)
  | tick (env : Env)

/-- An engine after some calls, its arrays, and for which exit each fragment was last queued. -/
structure OowHistory (F : Type) where
  engine : TransferEngine F
  arrays : OowArrays := {}
  queuedFor : Nat → Nat := fun _ => 0

namespace OowHistory

variable [PathArith F]

def step (h : OowHistory F) : OowAction → OowHistory F
  | .nack env seq fromAddr =>
      let e := h.engine.setEnv env
      if e.queuesNack seq fromAddr then
        { engine := e.handleNack seq fromAddr
          arrays := h.arrays.enqueue seq fromAddr
          queuedFor := Function.update h.queuedFor seq fromAddr }
      else { h with engine := e.handleNack seq fromAddr }
  | .tick env =>
      let e := h.engine.setEnv env
      { h with
        engine := e.tickMeshArq
        arrays :=
          if e.transfer.exitNodeCount = 0 then h.arrays
          -- The transfer is aborted.
          else if e.aliveCount = 0 then { h.arrays with count := 0 }
          else h.arrays.drain e.nowMs.1 e.nowMs.2 }

def run (h : OowHistory F) (actions : List OowAction) : OowHistory F := actions.foldl step h

end OowHistory

end ForestLink.Mesh
