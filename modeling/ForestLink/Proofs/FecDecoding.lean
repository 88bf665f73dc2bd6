/-
Module: ForestLink.Proofs.FecDecoding
Purpose: What one arrival does to the cloud's erasure decoder: which slots it
  fills, and exactly when it reconstructs a second one.
Trusted boundary: none
Main exports: FecGroup.Wf, FecDecoder.Present, FecDecoder.Wf,
  FecDecoder.completes, FecDecoder.ingest_spec
-/
import Mathlib.Data.List.Nodup
import Mathlib.Tactic.IntervalCases
import ForestLink.Cloud.Reassembler

namespace ForestLink.Cloud

open ForestLink.Lib
open ForestLink.Protocol

/-- The other slots of a data fragment: the other data, and the parity. -/
theorem range_filter_ne {k : Nat} (isData : k < 7) :
    ((List.range 8).filter fun i => i ≠ k) = (List.range 7).eraseIdx k ++ [7] := by
  interval_cases k <;> rfl

namespace FecGroup

/-- Eight slots, and a counter that agrees with them. -/
structure Wf (group : FecGroup) : Prop where
  slots : group.slots.length = 8
  count : group.count + group.missing.length = 8

theorem wf_empty : Wf {} := ⟨rfl, rfl⟩

theorem slot_empty (i : Nat) : (slot {} i).present = false := by
  rw [slot, List.getD_eq_getElem?_getD, List.getElem?_replicate]
  split <;> rfl

theorem mem_missing {group : FecGroup} {i : Nat} :
    i ∈ group.missing ↔ i < 8 ∧ (group.slot i).present = false := by
  simp [missing, fecGroupSize]

theorem present_of_single {group : FecGroup} {k i : Nat} (single : group.missing = [k])
    (inside : i < 8) (other : i ≠ k) : (group.slot i).present = true := by
  by_contra absent
  have isOpen : i ∈ group.missing := mem_missing.mpr ⟨inside, by simpa using absent⟩
  rw [single, List.mem_singleton] at isOpen
  exact other isOpen

theorem slot_put {group : FecGroup} (eight : group.slots.length = 8) {i : Nat}
    (inside : i < 8) (slot : FecSlot) (j : Nat) :
    (group.put i slot).slot j = if j = i then slot else group.slot j := by
  unfold FecGroup.slot put
  by_cases same : j = i
  · subst same
    simp [List.getD_eq_getElem?_getD, eight, inside]
  · simp [List.getD_eq_getElem?_getD, List.getElem?_set_ne (Ne.symm same), same]

theorem missing_put {group : FecGroup} (eight : group.slots.length = 8) {i : Nat}
    (inside : i < 8) {slot : FecSlot} (filled : slot.present = true) :
    (group.put i slot).missing = group.missing.filter fun j => j ≠ i := by
  unfold missing
  rw [List.filter_filter]
  apply List.filter_congr
  intro j _
  by_cases same : j = i
  · simp [slot_put eight inside, same, filled]
  · simp [slot_put eight inside, same]

/-- The longest fragment bounds every fragment held, and nothing longer than a
common bound of them is chosen. -/
theorem maxLen_spec (group : FecGroup) :
    (∀ i < 8, (group.slot i).present = true → (group.slot i).data.length ≤ group.maxLen) ∧
      ∀ bound, (∀ i < 8, (group.slot i).present = true →
        (group.slot i).data.length ≤ bound) → group.maxLen ≤ bound := by
  have scan : ∀ (positions : List Nat) (start : Nat),
      let longest := positions.foldl
        (fun longest i =>
          if (group.slot i).present ∧ longest < (group.slot i).data.length
          then (group.slot i).data.length else longest) start
      start ≤ longest ∧
        (∀ i ∈ positions, (group.slot i).present = true →
          (group.slot i).data.length ≤ longest) ∧
        ∀ bound, start ≤ bound → (∀ i ∈ positions, (group.slot i).present = true →
          (group.slot i).data.length ≤ bound) → longest ≤ bound := by
    intro positions
    induction positions with
    | nil => simp
    | cons head rest inductionHypothesis =>
        intro start
        rw [List.foldl_cons]
        by_cases taken :
            (group.slot head).present = true ∧ start < (group.slot head).data.length
        · rw [if_pos taken]
          obtain ⟨grows, covers, least⟩ :=
            inductionHypothesis (group.slot head).data.length
          refine ⟨by omega, ?_, ?_⟩
          · intro i member present
            rcases List.mem_cons.mp member with rfl | inRest
            · exact grows
            · exact covers i inRest present
          · intro bound _ allLe
            exact least bound (allLe head (by simp) taken.1) fun i inRest =>
              allLe i (List.mem_cons_of_mem head inRest)
        · rw [if_neg taken]
          obtain ⟨grows, covers, least⟩ := inductionHypothesis start
          refine ⟨grows, ?_, ?_⟩
          · intro i member present
            rcases List.mem_cons.mp member with rfl | inRest
            · have short : (group.slot i).data.length ≤ start := by
                by_contra long
                exact taken ⟨present, by omega⟩
              exact Nat.le_trans short grows
            · exact covers i inRest present
          · intro bound startLe allLe
            exact least bound startLe fun i inRest =>
              allLe i (List.mem_cons_of_mem head inRest)
  obtain ⟨_, covers, least⟩ := scan (List.range 8) 0
  constructor
  · intro i inside present
    exact covers i (List.mem_range.mpr inside) present
  · intro bound allLe
    exact least bound (Nat.zero_le _) fun i member present =>
      allLe i (List.mem_range.mp member) present

theorem length_recovered (group : FecGroup) (position : Nat) :
    (group.recovered position).length = group.maxLen := by
  rw [recovered, ← List.foldl_map, length_foldl_xorInto, List.length_replicate]

/-- Byte by byte the reconstruction is the XOR of the other slots. -/
theorem getD_recovered (group : FecGroup) (position i : Nat) (inside : i < group.maxLen) :
    (group.recovered position).getD i 0 =
      xorAll (((List.range 8).filter fun j => j ≠ position).map fun j =>
        (group.slot j).data.getD i 0) := by
  have insideBuffer : i < (List.replicate group.maxLen (0 : UInt8)).length := by
    simpa using inside
  have zero : (List.replicate group.maxLen (0 : UInt8)).getD i 0 = 0 := by
    rw [List.getD_eq_getElem _ _ insideBuffer, List.getElem_replicate]
  have folded : group.recovered position =
      (((List.range 8).filter fun j => j ≠ position).map fun j =>
        (group.slot j).data).foldl xorInto (List.replicate group.maxLen 0) := by
    rw [List.foldl_map]
    rfl
  rw [folded, getD_foldl_xorInto _ _ _ insideBuffer, zero, UInt8.zero_xor, List.map_map]
  rfl

theorem nodup_missing (group : FecGroup) : group.missing.Nodup :=
  List.nodup_range.filter _

/-- Filling an absent slot keeps counter and slots in agreement. -/
theorem Wf.put {group : FecGroup} (wf : group.Wf) {i : Nat} (inside : i < 8)
    (absent : (group.slot i).present = false) {slot : FecSlot}
    (filled : slot.present = true) : (group.put i slot).Wf := by
  have member : i ∈ group.missing := mem_missing.mpr ⟨inside, absent⟩
  constructor
  · simp [FecGroup.put, wf.slots]
  · have erased : (group.put i slot).missing = group.missing.erase i := by
      rw [missing_put wf.slots inside filled, (nodup_missing group).erase_eq_filter]
      apply List.filter_congr
      intro j _
      by_cases same : j = i <;> simp [same]
    have positive : 0 < group.missing.length := List.length_pos_of_mem member
    have count := wf.count
    have counter : (group.put i slot).count = group.count + 1 := rfl
    rw [erased, List.length_erase_of_mem member, counter]
    omega

end FecGroup

namespace FecDecoder

/-- The group a sequence number belongs to, empty before its first arrival. -/
def group (decoder : FecDecoder) (groupId : Nat) : FecGroup :=
  (decoder.groups groupId).getD {}

/-- The slot of `seq` is filled. -/
def Present (decoder : FecDecoder) (seq : Nat) : Prop :=
  ((decoder.group (seq / 8)).slot (seq % 8)).present = true

/-- Every group is well formed. -/
def Wf (decoder : FecDecoder) : Prop := ∀ groupId, (decoder.group groupId).Wf

theorem wf_new : Wf new := fun _ => FecGroup.wf_empty

theorem not_present_new (seq : Nat) : ¬ Present new seq :=
  Bool.eq_false_iff.mp (FecGroup.slot_empty (seq % 8))

/-- The positions still absent in the group of `seq` once `seq` has arrived. -/
def openAfter (decoder : FecDecoder) (seq : Nat) : List Nat :=
  (decoder.group (seq / 8)).missing.filter fun i => i ≠ seq % 8

/-- The data position that the arrival of `seq` lets the decoder reconstruct: the
only one still open, unless that is the parity position. -/
def completes (decoder : FecDecoder) (seq : Nat) : Option Nat :=
  match decoder.openAfter seq with
  | [position] => if position = 7 then none else some position
  | _ => none

theorem completes_eq_some {decoder : FecDecoder} {seq position : Nat} :
    decoder.completes seq = some position ↔
      decoder.openAfter seq = [position] ∧ position ≠ 7 := by
  unfold completes
  split
  · rename_i only onlyEq
    by_cases parity : only = 7
    · simp only [parity, if_true, reduceCtorEq, false_iff, onlyEq, List.cons.injEq,
        and_true, not_and, not_not]
      exact fun same => same.symm
    · simp only [parity, if_false, Option.some.injEq, onlyEq, List.cons.injEq, and_true]
      constructor
      · intro same
        exact ⟨same, same ▸ parity⟩
      · exact fun same => same.1
  · rename_i notSingle
    constructor
    · intro impossible
      cases impossible
    · rintro ⟨single, _⟩
      exact absurd single (notSingle position)

theorem mem_openAfter {decoder : FecDecoder} {seq i : Nat} :
    i ∈ decoder.openAfter seq ↔
      i < 8 ∧ ¬ decoder.Present (seq / 8 * 8 + i) ∧ seq / 8 * 8 + i ≠ seq := by
  rw [openAfter, List.mem_filter, FecGroup.mem_missing]
  constructor
  · rintro ⟨⟨inside, absent⟩, other⟩
    have groupEq : (seq / 8 * 8 + i) / 8 = seq / 8 := by omega
    have idxEq : (seq / 8 * 8 + i) % 8 = i := by omega
    have other : i ≠ seq % 8 := by simpa using other
    refine ⟨inside, ?_, by omega⟩
    rw [Present, groupEq, idxEq, absent]
    exact Bool.false_ne_true
  · rintro ⟨inside, absent, other⟩
    have groupEq : (seq / 8 * 8 + i) / 8 = seq / 8 := by omega
    have idxEq : (seq / 8 * 8 + i) % 8 = i := by omega
    rw [Present, groupEq, idxEq, Bool.not_eq_true] at absent
    refine ⟨⟨inside, absent⟩, ?_⟩
    have otherIdx : i ≠ seq % 8 := by omega
    simpa using otherIdx

/-- The arrival of `seq` completes its group at `position` exactly when every
other chunk of the group is there. -/
theorem completes_iff {decoder : FecDecoder} {seq position : Nat} :
    decoder.completes seq = some position ↔
      position < 7 ∧ ¬ decoder.Present (seq / 8 * 8 + position) ∧
        seq / 8 * 8 + position ≠ seq ∧
        ∀ i < 8, i ≠ position →
          seq / 8 * 8 + i = seq ∨ decoder.Present (seq / 8 * 8 + i) := by
  rw [completes_eq_some]
  constructor
  · rintro ⟨single, notParity⟩
    have member : position ∈ decoder.openAfter seq := by simp [single]
    obtain ⟨inside, absent, other⟩ := mem_openAfter.mp member
    refine ⟨by omega, absent, other, ?_⟩
    intro i iInside differs
    by_contra neither
    have alsoOpen : i ∈ decoder.openAfter seq :=
      mem_openAfter.mpr ⟨iInside, fun present => neither (.inr present),
        fun same => neither (.inl same)⟩
    rw [single, List.mem_singleton] at alsoOpen
    exact differs alsoOpen
  · rintro ⟨isData, absent, other, rest⟩
    refine ⟨?_, by omega⟩
    have member : position ∈ decoder.openAfter seq :=
      mem_openAfter.mpr ⟨by omega, absent, other⟩
    have only : ∀ i ∈ decoder.openAfter seq, i = position := by
      intro i isOpen
      obtain ⟨iInside, iAbsent, iOther⟩ := mem_openAfter.mp isOpen
      by_contra differs
      rcases rest i iInside differs with same | present
      · exact iOther same
      · exact iAbsent present
    have nodup : (decoder.openAfter seq).Nodup := (FecGroup.nodup_missing _).filter _
    exact List.perm_singleton.mp
      ((List.perm_ext_iff_of_nodup nodup (List.nodup_singleton position)).mpr fun i =>
        ⟨fun isOpen => List.mem_singleton.mpr (only i isOpen),
          fun same => List.mem_singleton.mp same ▸ member⟩)

/-- The fragment that `Ingest` stores for an arrival. -/
def arrived (data : List UInt8) (isParity : Bool) : FecSlot :=
  { data := data, present := true, isParity := isParity }

theorem group_update (decoder : FecDecoder) (groupId other : Nat)
    (after : FecGroup) :
    group { groups := Function.update decoder.groups groupId (some after) } other =
      if other = groupId then after else decoder.group other := by
  unfold group
  by_cases same : other = groupId
  · subst same
    simp
  · simp [same]

/-- `Ingest` of a chunk whose slot is free, read as one replacement of its group:
the chunk is stored, and the group is completed exactly when one data position
is left open. -/
theorem ingest_eq {decoder : FecDecoder} (wf : decoder.Wf) {seq : Nat}
    (absent : ¬ decoder.Present seq) (data : List UInt8) (isParity : Bool) :
    let filled := (decoder.group (seq / 8)).put (seq % 8) (arrived data isParity)
    decoder.ingest seq data isParity =
      match decoder.completes seq with
      | none =>
          ({ groups := Function.update decoder.groups (seq / 8) (some filled) }, none)
      | some position =>
          ({ groups := Function.update decoder.groups (seq / 8)
              (some (filled.put position
                { data := filled.recovered position, present := true })) },
            some { seq := seq / 8 * 8 + position, data := filled.recovered position }) := by
  intro filled
  have inside : seq % 8 < 8 := Nat.mod_lt _ (by decide)
  have free : ((decoder.group (seq / 8)).slot (seq % 8)).present = false := by
    simpa [Present] using absent
  have filledWf : filled.Wf := (wf (seq / 8)).put inside free rfl
  have openEq : filled.missing = decoder.openAfter seq :=
    FecGroup.missing_put (wf (seq / 8)).slots inside rfl
  have unfolded : decoder.ingest seq data isParity =
      (let tried := if filled.count = 7 then tryRecover filled (seq / 8) else (filled, none)
      ({ groups := Function.update decoder.groups (seq / 8) (some tried.1) }, tried.2)) := by
    have notPresent : ¬ (((decoder.groups (seq / (fecGroupSize + 1))).getD {}).slot
        (seq % (fecGroupSize + 1))).present = true := absent
    simp only [ingest, if_neg notPresent]
    rfl
  rw [unfolded]
  have count := filledWf.count
  rw [openEq] at count
  -- The counter reaches seven exactly when one position is left open.
  by_cases seven : filled.count = 7
  · have single : (decoder.openAfter seq).length = 1 := by omega
    obtain ⟨position, only⟩ := List.length_eq_one_iff.mp single
    have completesEq : decoder.completes seq =
        if position = 7 then none else some position := by
      simp [completes, only]
    rw [if_pos seven, completesEq]
    simp only [tryRecover, openEq, only, fecGroupSize]
    by_cases parity : position = 7
    · simp [parity]
    · simp [parity]
  · have notSingle : decoder.completes seq = none := by
      cases completed : decoder.completes seq with
      | none => rfl
      | some position =>
          obtain ⟨only, _⟩ := completes_eq_some.mp completed
          rw [only] at count
          simp only [List.length_singleton] at count
          omega
    rw [if_neg seven, notSingle]

theorem wf_update {decoder : FecDecoder} (wf : decoder.Wf) (groupId : Nat) {after : FecGroup}
    (afterWf : after.Wf) : Wf { groups := Function.update decoder.groups groupId (some after) } := by
  intro other
  rw [group_update]
  split
  · exact afterWf
  · exact wf other

/-- A group written back changes nothing. -/
theorem present_update_self (decoder : FecDecoder) (groupId other : Nat) :
    Present { groups := Function.update decoder.groups groupId (some (decoder.group groupId)) }
      other ↔ decoder.Present other := by
  unfold Present
  rw [group_update]
  split
  · rename_i same
    rw [same]
  · exact Iff.rfl

/-- A slot filled in a group is one more chunk that is there. -/
theorem present_update_put (decoder : FecDecoder) {group : FecGroup} (wf : group.Wf)
    {groupId i : Nat} (inside : i < 8) {slot : FecSlot} (filled : slot.present = true)
    (other : Nat) :
    Present { groups := Function.update decoder.groups groupId (some (group.put i slot)) } other ↔
      other = groupId * 8 + i ∨
        Present { groups := Function.update decoder.groups groupId (some group) } other := by
  unfold Present
  rw [group_update, group_update]
  by_cases same : other / 8 = groupId
  · rw [if_pos same, if_pos same, FecGroup.slot_put wf.slots inside]
    by_cases here : other % 8 = i
    · rw [if_pos here]
      exact iff_of_true filled (.inl (by omega))
    · have different : other ≠ groupId * 8 + i := by omega
      simp [here, different]
  · have different : other ≠ groupId * 8 + i := by omega
    simp [same, different]

/-- One arrival keeps the decoder well formed, fills its own slot and, if it
completes its group, the one data slot that was still open. -/
theorem ingest_spec {decoder : FecDecoder} (wf : decoder.Wf) {seq : Nat}
    (absent : ¬ decoder.Present seq) (data : List UInt8) (isParity : Bool) :
    let result := decoder.ingest seq data isParity
    result.1.Wf ∧
      result.2.map (fun recovery => recovery.seq) =
        (decoder.completes seq).map (fun position => seq / 8 * 8 + position) ∧
      ∀ other, result.1.Present other ↔
        other = seq ∨ decoder.Present other ∨
          ∃ position, decoder.completes seq = some position ∧
            other = seq / 8 * 8 + position := by
  intro result
  have inside : seq % 8 < 8 := Nat.mod_lt _ (by decide)
  have place : seq / 8 * 8 + seq % 8 = seq := by omega
  have free : ((decoder.group (seq / 8)).slot (seq % 8)).present = false := by
    simpa [Present] using absent
  have filledWf : ((decoder.group (seq / 8)).put (seq % 8) (arrived data isParity)).Wf :=
    (wf (seq / 8)).put inside free rfl
  have filledPresent : ∀ other, Present
      { groups := Function.update decoder.groups (seq / 8)
          (some ((decoder.group (seq / 8)).put (seq % 8) (arrived data isParity))) } other ↔
        other = seq ∨ decoder.Present other := by
    intro other
    rw [present_update_put decoder (wf _) inside rfl, present_update_self, place]
  have resultEq := ingest_eq wf absent data isParity
  simp only at resultEq
  cases completed : decoder.completes seq with
  | none =>
      rw [completed] at resultEq
      have same : result = _ := resultEq
      rw [same]
      refine ⟨wf_update wf _ filledWf, rfl, fun other => ?_⟩
      rw [filledPresent]
      simp
  | some position =>
      rw [completed] at resultEq
      have same : result = _ := resultEq
      obtain ⟨isData, positionAbsent, notSeq, _⟩ := completes_iff.mp completed
      have stillFree : (((decoder.group (seq / 8)).put (seq % 8) (arrived data isParity)).slot
          position).present = false := by
        have number : (seq / 8 * 8 + position) / 8 = seq / 8 := by omega
        have index : (seq / 8 * 8 + position) % 8 = position := by omega
        rw [FecGroup.slot_put (wf _).slots inside, if_neg (by omega)]
        rw [Present, number, index] at positionAbsent
        simpa using positionAbsent
      rw [same]
      refine ⟨wf_update wf _ (filledWf.put (by omega) stillFree rfl), rfl, fun other => ?_⟩
      rw [present_update_put decoder filledWf (by omega) rfl, filledPresent]
      simp only [Option.some.injEq, exists_eq_left']
      tauto

end FecDecoder

end ForestLink.Cloud
