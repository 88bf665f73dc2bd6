/-
Module: ForestLink.Proofs.FragmentLayout
Purpose: The numbering of data fragments below an advertised fragment count is a
  bijection onto the data fragments of the file, and the parity of a full group
  determines any one of its seven fragments.
Trusted boundary: none
Main exports: dataSeqs, card_dataSeqs, dataIndex?_lt, Layout.dataIndex?_seqOf,
  getD_parity
-/
import Mathlib.Data.Finset.Card
import Mathlib.Data.Finset.Image
import Mathlib.Data.Finset.Range
import Mathlib.Order.Interval.Finset.Nat
import ForestLink.Protocol.Fec

namespace ForestLink.Protocol

open ForestLink.Lib

/-- The exact number of fragments, over the integers. -/
def Layout.exactCount : Layout → Nat → Nat
  | .localExit, size => dataFragments size
  | .mesh, size => dataFragments size + dataFragments size / 7

/-- The counts of a sender do not wrap in sixteen bits. -/
def NoWrap (layout : Layout) (size : Nat) : Prop := layout.exactCount size < 2 ^ 16

instance (layout : Layout) (size : Nat) : Decidable (NoWrap layout size) :=
  inferInstanceAs (Decidable (_ < _))

theorem Layout.chunkCount_eq {layout : Layout} {size : Nat} (noWrap : NoWrap layout size) :
    layout.chunkCount size = layout.exactCount size := by
  cases layout with
  | localExit => exact Layout.chunkCount_localExit noWrap
  | mesh => exact Layout.chunkCount_mesh noWrap

theorem size_lt_of_noWrap {layout : Layout} {size : Nat} (noWrap : NoWrap layout size) :
    size < 2 ^ 27 := by
  have few : dataFragments size < 2 ^ 16 := by
    cases layout with
    | localExit => exact noWrap
    | mesh => exact Nat.lt_of_le_of_lt (Nat.le_add_right _ _) noWrap
  rw [dataFragments_eq] at few
  omega

/-- The sequence numbers below the advertised count that carry data. -/
def dataSeqs (layout : Layout) (size : Nat) : Finset Nat :=
  (Finset.range (layout.chunkCount size)).filter fun seq => (layout.dataIndex? seq).isSome

/-- The sequence number that carries data fragment `index`. -/
def Layout.seqOf : Layout → Nat → Nat
  | .localExit, index => index
  | .mesh, index => index / 7 * 8 + index % 7

theorem Layout.dataIndex?_seqOf (layout : Layout) (index : Nat) :
    layout.dataIndex? (layout.seqOf index) = some index := by
  cases layout with
  | localExit => rfl
  | mesh =>
      have notParity : ¬ isParitySlot (index / 7 * 8 + index % 7) = true := by
        rw [isParitySlot_iff]
        omega
      rw [Layout.seqOf, Layout.dataIndex?, if_neg notParity, dataIdx_eq]
      congr 1
      omega

theorem Layout.seqOf_dataIndex? {layout : Layout} {seq index : Nat}
    (carries : layout.dataIndex? seq = some index) : layout.seqOf index = seq := by
  cases layout with
  | localExit => exact (Option.some.inj carries).symm
  | mesh =>
      by_cases parity : isParitySlot seq = true
      · simp [Layout.dataIndex?, parity] at carries
      · rw [Layout.dataIndex?, if_neg parity, Option.some.injEq, dataIdx_eq] at carries
        rw [isParitySlot_iff] at parity
        simp only [Layout.seqOf]
        omega

theorem Layout.seqOf_lt_chunkCount (layout : Layout) {size : Nat} (noWrap : NoWrap layout size)
    (index : Nat) :
    layout.seqOf index < layout.chunkCount size ↔ index < dataFragments size := by
  rw [Layout.chunkCount_eq noWrap]
  cases layout with
  | localExit => rfl
  | mesh =>
      simp only [Layout.seqOf, Layout.exactCount]
      omega

/-- A data sequence number below the advertised count names a fragment of the
file. -/
theorem dataIndex?_lt {layout : Layout} {size seq index : Nat} (noWrap : NoWrap layout size)
    (inRange : seq < layout.chunkCount size)
    (carries : layout.dataIndex? seq = some index) : index < dataFragments size := by
  rw [← Layout.seqOf_dataIndex? carries] at inRange
  exact (layout.seqOf_lt_chunkCount noWrap index).mp inRange

theorem dataSeqs_eq_image (layout : Layout) {size : Nat} (noWrap : NoWrap layout size) :
    dataSeqs layout size = (Finset.range (dataFragments size)).image layout.seqOf := by
  ext seq
  simp only [dataSeqs, Finset.mem_filter, Finset.mem_range, Finset.mem_image,
    Option.isSome_iff_exists]
  constructor
  · rintro ⟨inRange, index, carries⟩
    exact ⟨index, dataIndex?_lt noWrap inRange carries, Layout.seqOf_dataIndex? carries⟩
  · rintro ⟨index, small, rfl⟩
    exact ⟨(layout.seqOf_lt_chunkCount noWrap index).mpr small, index,
      layout.dataIndex?_seqOf index⟩

/-- Exactly as many sequence numbers carry data as the file has fragments. -/
theorem card_dataSeqs (layout : Layout) {size : Nat} (noWrap : NoWrap layout size) :
    (dataSeqs layout size).card = dataFragments size := by
  rw [dataSeqs_eq_image layout noWrap, Finset.card_image_of_injective, Finset.card_range]
  intro left right same
  have leftCarries := layout.dataIndex?_seqOf left
  rw [same, layout.dataIndex?_seqOf right] at leftCarries
  exact (Option.some.inj leftCarries).symm

/-! ## Data fragments as ranges of the file -/

theorem length_dataFragment_le (file : List UInt8) (index : Nat) :
    (dataFragment file index).length ≤ 1456 := by
  have size : defaultTransferFragmentSize = 1456 := rfl
  simp [dataFragment, size]

/-- Byte `p` of the file is byte `p - index * 1456` of the fragment it lies in. -/
theorem getElem?_dataFragment {file : List UInt8} {index p : Nat}
    (lies : p / 1456 = index) :
    (dataFragment file index)[p - index * 1456]? = file[p]? := by
  have size : defaultTransferFragmentSize = 1456 := rfl
  have near : p - index * 1456 < 1456 := by omega
  rw [dataFragment, size, List.getElem?_take_of_lt near, List.getElem?_drop]
  congr 1
  omega

theorem lt_dataFragments_of_lt {size p : Nat} (inside : p < size) :
    p / 1456 < dataFragments size := by
  rw [dataFragments_eq]
  omega

theorem offset_lt_of_lt_dataFragments {size index : Nat}
    (small : index < dataFragments size) : index * 1456 < size := by
  rw [dataFragments_eq] at small
  omega

/-! ## Parity of a full group -/

theorem length_groupFragments (file : List UInt8) (group : Nat) :
    (groupFragments file group).length = 7 := by
  simp [groupFragments, fecGroupSize]

theorem mem_groupFragments_length {file : List UInt8} {group : Nat}
    {fragment : List UInt8} (member : fragment ∈ groupFragments file group) :
    fragment.length ≤ 1456 := by
  rw [groupFragments, List.mem_map] at member
  obtain ⟨position, _, rfl⟩ := member
  exact length_dataFragment_le file _

private theorem foldl_max_le {fragments : List (List UInt8)} {bound start : Nat}
    (startLe : start ≤ bound) (allLe : ∀ fragment ∈ fragments, fragment.length ≤ bound) :
    fragments.foldl (fun best fragment => max best fragment.length) start ≤ bound := by
  induction fragments generalizing start with
  | nil => exact startLe
  | cons head rest inductionHypothesis =>
      rw [List.foldl_cons]
      have headLe := allLe head (by simp)
      exact inductionHypothesis (by omega) fun fragment member =>
        allLe fragment (List.mem_cons_of_mem head member)

private theorem le_foldl_max (fragments : List (List UInt8)) (start : Nat) :
    start ≤ fragments.foldl (fun best fragment => max best fragment.length) start ∧
      ∀ fragment ∈ fragments,
        fragment.length ≤
          fragments.foldl (fun best fragment => max best fragment.length) start := by
  induction fragments generalizing start with
  | nil => simp
  | cons head rest inductionHypothesis =>
      obtain ⟨startLe, restLe⟩ := inductionHypothesis (max start head.length)
      rw [List.foldl_cons]
      refine ⟨by omega, ?_⟩
      intro fragment member
      rcases List.mem_cons.mp member with rfl | inRest
      · omega
      · exact restLe fragment inRest

/-- The parity is no longer than a fragment and at least as long as each fragment
of its group. -/
theorem length_parity_bounds (file : List UInt8) (group : Nat) :
    (fragmentPayload .mesh file (group * 8 + 7)).length ≤ 1456 ∧
      ∀ fragment ∈ groupFragments file group,
        fragment.length ≤ (fragmentPayload .mesh file (group * 8 + 7)).length := by
  have isParity : isParitySlot (group * 8 + 7) = true := by
    rw [isParitySlot_iff]
    omega
  have groupEq : (group * 8 + 7) / (fecGroupSize + 1) = group := by
    simp only [fecGroupSize]
    omega
  have upper := foldl_max_le (Nat.zero_le 1456)
    fun fragment (member : fragment ∈ groupFragments file group) =>
      mem_groupFragments_length member
  have lower := (le_foldl_max (groupFragments file group) 0).2
  have mtu : FecEncoder.reset.parity.length = 1470 := List.length_replicate
  have length :
      (fragmentPayload .mesh file (group * 8 + 7)).length =
        (groupFragments file group).foldl
          (fun best fragment => max best fragment.length) 0 := by
    simp only [fragmentPayload, Layout.dataIndex?, if_pos isParity, groupEq,
      FecEncoder.parityData, FecEncoder.foldl_ingest_parity,
      FecEncoder.foldl_ingest_parityLen, List.length_take, length_foldl_xorInto, mtu]
    exact Nat.min_eq_left (Nat.le_trans upper (by decide))
  rw [length]
  exact ⟨upper, lower⟩

/-- Inside its length the parity is the XOR of the padded fragments. -/
theorem getD_parity (file : List UInt8) (group i : Nat)
    (inside : i < (fragmentPayload .mesh file (group * 8 + 7)).length) :
    (fragmentPayload .mesh file (group * 8 + 7)).getD i 0 =
      xorAll ((groupFragments file group).map fun fragment => fragment.getD i 0) := by
  have short := (length_parity_bounds file group).1
  have isParity : isParitySlot (group * 8 + 7) = true := by
    rw [isParitySlot_iff]
    omega
  have groupEq : (group * 8 + 7) / (fecGroupSize + 1) = group := by
    simp only [fecGroupSize]
    omega
  have mtu : FecEncoder.reset.parity.length = 1470 := List.length_replicate
  have insideBuffer : i < FecEncoder.reset.parity.length := by omega
  simp only [fragmentPayload, Layout.dataIndex?, if_pos isParity, groupEq,
    FecEncoder.parityData, List.length_take] at inside ⊢
  rw [List.getD_eq_getElem?_getD, List.getElem?_take_of_lt (by omega),
    ← List.getD_eq_getElem?_getD, FecEncoder.foldl_ingest_parity,
    getD_foldl_xorInto _ _ _ insideBuffer]
  have zero : FecEncoder.reset.parity.getD i 0 = 0 := by
    rw [List.getD_eq_getElem _ _ insideBuffer]
    exact List.getElem_replicate _
  rw [zero, UInt8.zero_xor]

end ForestLink.Protocol
