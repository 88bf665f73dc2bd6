/-
Module: ForestLink.Protocol.Fec
Purpose: Wire constants, the XOR parity encoder of the sender, and the fragment
  layouts a sender can choose.
Trusted boundary: none
Main exports: fecGroupSize, defaultTransferFragmentSize, FecEncoder,
  Layout, Layout.chunkCount, Layout.dataIndex?, fragmentPayload
-/
import Mathlib.Algebra.GroupWithZero.Nat
import ForestLink.Lib.Bytes

namespace ForestLink.Protocol

open ForestLink.Lib

/-! ## Wire constants (`packet.hpp`) -/

def maxMtu : Nat := 1470
def packetHeaderSize : Nat := 8
def arqWindow : Nat := 64
def maxRetries : Nat := 12
def maxExitNodes : Nat := 4
def fecGroupSize : Nat := 7
def exitAnyAddr : Nat := 0xFFFE
def espnowMaxPayload : Nat := maxMtu - packetHeaderSize
def transferFragmentAlign : Nat := 8

/-- The mesh payload budget rounded down to the `d8` wire encoding. -/
def defaultTransferFragmentSize : Nat :=
  espnowMaxPayload / transferFragmentAlign * transferFragmentAlign

example : defaultTransferFragmentSize = 1456 := rfl

/-- For the numerals of `Fin 2`: the decoder of the firmware keeps two groups. -/
instance neZeroTwo : NeZero 2 := ⟨by decide⟩

/-! ## The parity encoder (`fec_codec.hpp`) -/

/-- Running XOR of the fragments of one group.  `parity` is the fixed scratch
buffer; only its first `parityLen` bytes are ever sent. -/
structure FecEncoder where
  parity : List UInt8 := List.replicate maxMtu 0
  parityLen : Nat := 0
  count : Nat := 0
deriving Repr, DecidableEq

namespace FecEncoder

/-- `FecEncoder::reset` -/
def reset : FecEncoder := {}

/-- `FecEncoder::ingest` -/
def ingest (encoder : FecEncoder) (fragment : List UInt8) : FecEncoder where
  parity := xorInto encoder.parity fragment
  parityLen := max encoder.parityLen fragment.length
  count := encoder.count + 1

/-- The bytes handed to the radio: `parity_data()` cut at `parity_len()`. -/
def parityData (encoder : FecEncoder) : List UInt8 :=
  encoder.parity.take encoder.parityLen

end FecEncoder

/-! ## Fragment layouts -/

/-- How a sender numbers the fragments of one file: over the mesh every full
group of seven data fragments is followed by its parity, on the local exit the
data fragments are numbered directly. -/
inductive Layout where
  | mesh
  | localExit
deriving Repr, DecidableEq

/-- Number of data fragments of a file, `ceil (size / 1456)`. -/
def dataFragments (size : Nat) : Nat :=
  (size + defaultTransferFragmentSize - 1) / defaultTransferFragmentSize

/-- `static_cast<uint16_t>` -/
def toU16 (n : Nat) : Nat := n % 2 ^ 16

/-- The advertised fragment count, with the 16-bit truncations of
`start_file_transfer`. -/
def Layout.chunkCount (layout : Layout) (size : Nat) : Nat :=
  let dataFrags := toU16 (dataFragments size)
  match layout with
  | .localExit => dataFrags
  | .mesh =>
      let fullGroups := toU16 (dataFrags / fecGroupSize)
      let remaining := toU16 (dataFrags % fecGroupSize)
      toU16 (fullGroups * (fecGroupSize + 1) + remaining)

/-- The position of a sequence number inside its group is the parity slot. -/
def isParitySlot (seq : Nat) : Bool := seq % (fecGroupSize + 1) == fecGroupSize

/-- Skip the parity slots below `seq`. -/
def dataIdx (seq : Nat) : Nat :=
  seq / (fecGroupSize + 1) * fecGroupSize + seq % (fecGroupSize + 1)

/-- The data fragment a sequence number carries; `none` for parity. -/
def Layout.dataIndex? : Layout → Nat → Option Nat
  | .localExit, seq => some seq
  | .mesh, seq => if isParitySlot seq then none else some (dataIdx seq)

/-- Data fragment `index` of a file: `read_chunk` at its offset, cut at the end
of the file. -/
def dataFragment (file : List UInt8) (index : Nat) : List UInt8 :=
  (file.drop (index * defaultTransferFragmentSize)).take defaultTransferFragmentSize

/-- The seven data fragments of one parity group. -/
def groupFragments (file : List UInt8) (group : Nat) : List (List UInt8) :=
  (List.range fecGroupSize).map fun position =>
    dataFragment file (group * fecGroupSize + position)

/-- What the feed loop hands to the window for `seq`: the data fragment itself,
or the encoder's parity after the seven fragments of the group. -/
def fragmentPayload (layout : Layout) (file : List UInt8) (seq : Nat) : List UInt8 :=
  match layout.dataIndex? seq with
  | some index => dataFragment file index
  | none =>
      ((groupFragments file (seq / (fecGroupSize + 1))).foldl
        FecEncoder.ingest FecEncoder.reset).parityData

/-! ## Facts about the encoder -/

namespace FecEncoder

theorem foldl_ingest_parity (fragments : List (List UInt8)) (encoder : FecEncoder) :
    (fragments.foldl ingest encoder).parity = fragments.foldl xorInto encoder.parity := by
  induction fragments generalizing encoder with
  | nil => rfl
  | cons head rest inductionHypothesis =>
      rw [List.foldl_cons, inductionHypothesis, List.foldl_cons]
      rfl

theorem foldl_ingest_parityLen (fragments : List (List UInt8)) (encoder : FecEncoder) :
    (fragments.foldl ingest encoder).parityLen =
      fragments.foldl (fun bound fragment => max bound fragment.length) encoder.parityLen := by
  induction fragments generalizing encoder with
  | nil => rfl
  | cons head rest inductionHypothesis =>
      rw [List.foldl_cons, inductionHypothesis, List.foldl_cons]
      rfl

end FecEncoder

/-! ## Facts about the layouts -/

theorem dataFragments_eq (size : Nat) : dataFragments size = (size + 1455) / 1456 := by
  have fragmentSize : defaultTransferFragmentSize = 1456 := rfl
  rw [dataFragments, fragmentSize, Nat.add_sub_assoc (by decide)]

/-- Without a 16-bit wrap the mesh layout adds one parity per full group. -/
theorem Layout.chunkCount_mesh {size : Nat}
    (noWrap : dataFragments size + dataFragments size / 7 < 2 ^ 16) :
    Layout.mesh.chunkCount size = dataFragments size + dataFragments size / 7 := by
  simp only [Layout.chunkCount, toU16, fecGroupSize]
  generalize dataFragments size = d at noWrap ⊢
  have small : d % 2 ^ 16 = d := Nat.mod_eq_of_lt (by omega)
  rw [small]
  omega

theorem Layout.chunkCount_localExit {size : Nat} (noWrap : dataFragments size < 2 ^ 16) :
    Layout.localExit.chunkCount size = dataFragments size :=
  Nat.mod_eq_of_lt noWrap

theorem isParitySlot_iff (seq : Nat) : isParitySlot seq = true ↔ seq % 8 = 7 := by
  simp [isParitySlot, fecGroupSize]

theorem dataIdx_eq (seq : Nat) : dataIdx seq = seq / 8 * 7 + seq % 8 := rfl

end ForestLink.Protocol
