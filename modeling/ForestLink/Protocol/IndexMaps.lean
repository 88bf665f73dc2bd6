/-
Module: ForestLink.Protocol.IndexMaps
Purpose: The places that compute the data fragment of a sequence number, each in its own types:
  `transfer_engine.cpp`, `transfer_engine_arq.cpp`, `selective_repeat.cpp` and the table of
  `docs/tools/fec_layout.py`.
Trusted boundary: none
Main exports: narrowDataIdx, dataFragmentsBeforeSeq, bytesFromSeqProgress, feedDataIdx,
  redistDataIdx, oowParityDataIdx, receivedDataIdx, recoveredDataIdx, layoutRows
-/
import ForestLink.Protocol.Fec

namespace ForestLink.Protocol

/-! ## Firmware -/

/-- `data_idx`, with `group` and `idx_in_group`: three variables of type `uint16_t`, each given an
`int`. -/
def narrowDataIdx (seq : Nat) : Nat :=
  let group := toU16 (seq / (fecGroupSize + 1))
  let idxInGroup := toU16 (seq % (fecGroupSize + 1))
  toU16 (group * fecGroupSize + idxInGroup)

/-- The same behind a test for the parity slot. -/
def guardedDataIdx (seq : Nat) : Option Nat :=
  if isParitySlot seq then none else some (narrowDataIdx seq)

/-- `tick_mesh_arq`, new fragments. -/
def feedDataIdx (seq : Nat) : Option Nat := guardedDataIdx seq

/-- `tick_mesh_arq`, out-of-window queue. -/
def oowDataIdx (seq : Nat) : Option Nat := guardedDataIdx seq

/-- `tick_mesh_arq`, out-of-window queue: fragment `d` of the group whose parity is regenerated. -/
def oowParityDataIdx (seq d : Nat) : Nat :=
  let group := toU16 (seq / (fecGroupSize + 1))
  toU16 (group * fecGroupSize + d)

/-- `redistribute_dead_exit` -/
def deadExitDataIdx (seq : Nat) : Option Nat := guardedDataIdx seq

/-- `tick_mesh_arq`, redistribution queue, which no parity slot is put into. -/
def redistDataIdx (seq : Nat) : Nat := narrowDataIdx seq

/-- `receive_fragment`, the fragment that has arrived. -/
def receivedDataIdx (seq : Nat) : Option Nat := guardedDataIdx seq

/-- `receive_fragment`, the fragment that the decoder has recovered, never a parity. -/
def recoveredDataIdx (seq : Nat) : Nat := narrowDataIdx seq

/-- `data_fragments_before_seq` -/
def dataFragmentsBeforeSeq (localExit : Bool) (seq : Nat) : Nat :=
  if localExit then seq
  else
    let stride := toU16 (fecGroupSize + 1)
    let groups := seq / stride
    let rem := if seq % stride > fecGroupSize then fecGroupSize else seq % stride
    (groups * fecGroupSize + rem) % 2 ^ 32

/-- `bytes_from_seq_progress` -/
def bytesFromSeqProgress (localExit : Bool) (fragmentSize size seq : Nat) : Nat :=
  let bytes := dataFragmentsBeforeSeq localExit seq * fragmentSize % 2 ^ 32
  if bytes > size then size else bytes

/-! ## The table of the tool

The columns for the contents of a fragment are left out: its checksum and its first bytes. -/

/-- `frag_type` -/
inductive FragType where
  | parity | data | skip
deriving Repr, DecidableEq

/-- A line of the table; `-` is `none`. -/
structure LayoutRow where
  seq : Nat
  group : Nat
  idxInGroup : Nat
  fragType : FragType
  dataIdx : Option Nat
  offset : Option Nat
  fragLen : Nat
deriving Repr, DecidableEq

/-- `len(read_fragment(data, data_idx))` -/
def readFragmentLen (fileSize dataIdx : Nat) : Nat :=
  let offset := dataIdx * defaultTransferFragmentSize
  if offset ≥ fileSize then 0 else min (offset + defaultTransferFragmentSize) fileSize - offset

/-- `total_seqs` -/
def totalSeqs (fileSize : Nat) : Nat :=
  let dataFrags := (fileSize + defaultTransferFragmentSize - 1) / defaultTransferFragmentSize
  let fullGroups := dataFrags / fecGroupSize
  let remaining := dataFrags % fecGroupSize
  fullGroups * (fecGroupSize + 1) + remaining

/-- One round of the loop: the line, and `parity_len` behind it. -/
def layoutRow (fileSize parityLen seq : Nat) : LayoutRow × Nat :=
  let group := seq / (fecGroupSize + 1)
  let idxInGroup := seq % (fecGroupSize + 1)
  if idxInGroup = fecGroupSize then
    ({ seq := seq, group := group, idxInGroup := idxInGroup, fragType := .parity,
       dataIdx := none, offset := none, fragLen := parityLen }, 0)
  else
    let dataIdx := group * fecGroupSize + idxInGroup
    let fragLen := readFragmentLen fileSize dataIdx
    ({ seq := seq, group := group, idxInGroup := idxInGroup,
       fragType := if fragLen = 0 then .skip else .data,
       dataIdx := some dataIdx, offset := some (dataIdx * defaultTransferFragmentSize),
       fragLen := fragLen }, max parityLen fragLen)

/-- The loop over the next `left` sequence numbers. -/
def layoutRowsFrom (fileSize : Nat) : (left seq parityLen : Nat) → List LayoutRow
  | 0, _, _ => []
  | left + 1, seq, parityLen =>
      let row := layoutRow fileSize parityLen seq
      row.1 :: layoutRowsFrom fileSize left (seq + 1) row.2

/-- The lines of the table. -/
def layoutRows (fileSize : Nat) : List LayoutRow := layoutRowsFrom fileSize (totalSeqs fileSize) 0 0

end ForestLink.Protocol
