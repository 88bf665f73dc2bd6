/-
Module: ForestLink.Protocol.FecDecoder
Purpose: The erasure decoder of the firmware, which keeps two groups (`fec_codec.hpp`).
Trusted boundary: none
Main exports: GroupState, FecDecoder, FecDecoder.reset, FecDecoder.ingest,
  FecDecoder.recoveredSeq, FecDecoder.recoveredData
-/
import Mathlib.Algebra.Group.Int.Defs
import Mathlib.Logic.Function.Basic
import ForestLink.Protocol.Fec

namespace ForestLink.Protocol

open ForestLink.Lib

/-- `FecDecoder::Slot`: the bytes in use, none of the rest of its buffer. -/
structure FecSlot where
  data : List UInt8 := []
  received : Bool := false
  isParity : Bool := false
deriving Repr, DecidableEq

/-- `FecDecoder::GroupState` -/
structure GroupState where
  slots : List FecSlot := List.replicate (fecGroupSize + 1) {}
  slotCount : Nat := 0
  currentGroup : Nat := 0
  active : Bool := false
deriving Repr, DecidableEq

namespace GroupState

def slot (g : GroupState) (i : Nat) : FecSlot := g.slots.getD i {}

def store (g : GroupState) (i : Nat) (slot : FecSlot) : GroupState :=
  { g with slots := g.slots.set i slot, slotCount := g.slotCount + 1 }

/-- The positions that the scan of `try_recover` finds open, in order. -/
def missing (g : GroupState) : List Nat :=
  (List.range (fecGroupSize + 1)).filter fun i => !(g.slot i).received

/-- `has_parity_check` -/
def hasParityCheck (g : GroupState) : Bool :=
  (List.range (fecGroupSize + 1)).any fun i => (g.slot i).received && (g.slot i).isParity

/-- The strings that `try_recover` XORs, in the order of their slots. -/
def others (g : GroupState) (missing : Nat) : List (List UInt8) :=
  ((List.range (fecGroupSize + 1)).filter fun i => i ≠ missing).map fun i => (g.slot i).data

end GroupState

/-- `FecDecoder` of the firmware; `allocated` is `heap_mem_`. -/
structure FecDecoder where
  allocated : Bool := false
  groups : Fin 2 → GroupState := fun _ => {}
  recoveredBuf : List UInt8 := List.replicate maxMtu 0
  lastUsed : Fin 2 := 0
  missingIdx : Int := -1
  recovered : Bool := false
  recoveredLen : Nat := 0
  recoveredGroup : Nat := 0

namespace FecDecoder

/-- `reset`, with what the allocation returned if it was tried. -/
def reset (d : FecDecoder) (allocation : Bool) : FecDecoder :=
  if d.allocated || allocation then
    { d with
      allocated := true
      groups := fun _ => {}
      missingIdx := -1
      recovered := false
      recoveredLen := 0
      lastUsed := 0 }
  else d

/-- The resident group with this number. -/
def resident (d : FecDecoder) (group : Nat) : Option (Fin 2) :=
  (List.finRange 2).find? fun gi =>
    (d.groups gi).active && (d.groups gi).currentGroup == group

/-- The place of a group; one that is not resident takes the place not used last. -/
def place (d : FecDecoder) (group : Nat) : Fin 2 × FecDecoder :=
  match d.resident group with
  | some gi => (gi, d)
  | none =>
      let gi := if d.lastUsed = 0 then 1 else 0
      let fresh : GroupState := { currentGroup := group, active := true }
      (gi, { d with groups := Function.update d.groups gi fresh })

/-- `try_recover` -/
def tryRecover (d : FecDecoder) (g : GroupState) : Bool × FecDecoder :=
  match g.missing with
  | [missing] =>
      if missing = fecGroupSize ∧ g.hasParityCheck = false then (false, d)
      else
        (true,
          { d with
            missingIdx := missing
            recoveredGroup := g.currentGroup
            recoveredBuf := (g.others missing).foldl xorInto (List.replicate maxMtu 0)
            recoveredLen := (g.others missing).foldl (fun len data => max len data.length) 0
            recovered := true })
  | _ => (false, d)

/-- The chunk goes into its slot unless that is taken. -/
def fill (g : GroupState) (idx : Nat) (data : List UInt8) (isParity : Bool) : GroupState :=
  if (g.slot idx).received then g
  else g.store idx { data := data, received := true, isParity := isParity }

/-- `ingest`: whether a fragment was recovered. -/
def ingest (d : FecDecoder) (seq : Nat) (data : List UInt8) (isParity : Bool) :
    Bool × FecDecoder :=
  if !d.allocated || data.length > maxMtu then (false, d)
  else
    let (gi, placed) := d.place (seq / (fecGroupSize + 1))
    let g := fill (placed.groups gi) (seq % (fecGroupSize + 1)) data isParity
    let stored := { placed with lastUsed := gi, groups := Function.update placed.groups gi g }
    if g.slotCount = fecGroupSize then stored.tryRecover g else (false, stored)

/-- `recovered_seq` -/
def recoveredSeq (d : FecDecoder) : Nat :=
  (d.recoveredGroup * (fecGroupSize + 1) + (d.missingIdx % 2 ^ 16).toNat) % 2 ^ 16

/-- `recovered_data`, as far as `recovered_len` says. -/
def recoveredData (d : FecDecoder) : List UInt8 := d.recoveredBuf.take d.recoveredLen

end FecDecoder

end ForestLink.Protocol
