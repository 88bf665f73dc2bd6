/-
Module: ForestLink.Proofs.FecAgreement
Purpose: The erasure decoders of firmware and cloud, fed the same arrivals: what either
  reconstructs is true, and the cloud has what the firmware reconstructs.
Trusted boundary: none
Main exports: WellFormedGroups, Reconstructs, Decoders, Decoders.run, fec_decoders_agree
-/
import Mathlib.Tactic.IntervalCases
import ForestLink.Lib.Erasure
import ForestLink.Protocol.FecDecoder
import ForestLink.Proofs.FecDecoding

namespace ForestLink.Protocol

open ForestLink.Lib

/-! ## What was sent -/

/-- The data fragments of a group. -/
def groupData (truth : Nat → List UInt8) (group : Nat) : List (List UInt8) :=
  (List.range fecGroupSize).map fun i => truth (group * 8 + i)

/-- The payload of every sequence number; those of parity slots are the XOR of the padded
data fragments of their group. -/
def WellFormedGroups (truth : Nat → List UInt8) : Prop :=
  ∀ group, truth (group * 8 + 7) = xorPad (groupData truth group)

/-- The fragment of `seq` padded to the longest of its group. -/
def paddedFragment (truth : Nat → List UInt8) (seq : Nat) : List UInt8 :=
  padTo (maxLength (groupData truth (seq / 8))) (truth seq)

/-- A true reconstruction: the fragment of a data slot, when all else of its group has
arrived. -/
structure Reconstructs (truth : Nat → List UInt8) (arrived : List Nat) (seq : Nat)
    (data : List UInt8) : Prop where
  isData : isParitySlot seq = false
  data : data = paddedFragment truth seq
  others : ∀ other, other / 8 = seq / 8 → other ≠ seq → other ∈ arrived

/-- Any data fragments with the parity of each group. -/
def withParity (data : Nat → List UInt8) (seq : Nat) : List UInt8 :=
  if isParitySlot seq then xorPad (groupData data (seq / 8)) else data seq

theorem wellFormed_withParity (data : Nat → List UInt8) : WellFormedGroups (withParity data) := by
  intro group
  have parity : isParitySlot (group * 8 + 7) = true := by
    rw [isParitySlot_iff]
    omega
  have fragments : groupData (withParity data) group = groupData data group := by
    apply List.map_congr_left
    intro i member
    have isData : i < 7 := List.mem_range.mp member
    apply if_neg
    rw [isParitySlot_iff]
    omega
  rw [fragments, withParity, if_pos parity, show (group * 8 + 7) / 8 = group by omega]

variable {truth : Nat → List UInt8} {arrived : List Nat}

theorem Reconstructs.mono {seq : Nat} {data : List UInt8}
    (reconstructs : Reconstructs truth arrived seq data) (next : Nat) :
    Reconstructs truth (next :: arrived) seq data where
  isData := reconstructs.isData
  data := reconstructs.data
  others other same different := List.mem_cons_of_mem _ (reconstructs.others other same different)

/-- The code at work: all payloads of a group but one give that one. -/
theorem xorPad_others (wellFormed : WellFormedGroups truth) {group k : Nat} (isData : k < 7) :
    xorPad (((List.range 8).filter fun i => i ≠ k).map fun i => truth (group * 8 + i)) =
      paddedFragment truth (group * 8 + k) := by
  have inside : k < (groupData truth group).length := by
    simpa [groupData, fecGroupSize] using isData
  have number : (group * 8 + k) / 8 = group := by omega
  have fragment : (groupData truth group).getD k [] = truth (group * 8 + k) := by
    simp [groupData, fecGroupSize, List.getD_eq_getElem?_getD, isData]
  have code := xorPad_eraseIdx inside
  rw [← wellFormed group, fragment] at code
  rw [Cloud.range_filter_ne isData, List.map_append, ← List.eraseIdx_map, paddedFragment, number]
  exact code

/-! ## The decoder of the firmware -/

namespace GroupState

/-- A resident group holds payloads that have arrived, and its counter agrees with it. -/
structure Holds (truth : Nat → List UInt8) (arrived : List Nat) (g : GroupState) : Prop where
  slots : g.slots.length = 8
  count : g.slotCount + g.missing.length = 8
  genuine : ∀ i < 8, (g.slot i).received = true →
    g.currentGroup * 8 + i ∈ arrived ∧ (g.slot i).data = truth (g.currentGroup * 8 + i) ∧
      (g.slot i).isParity = (i == 7) ∧ (g.slot i).data.length ≤ maxMtu

variable {g : GroupState}

theorem mem_missing {i : Nat} : i ∈ g.missing ↔ i < 8 ∧ (g.slot i).received = false := by
  simp [missing, fecGroupSize]

theorem holds_fresh (group : Nat) :
    Holds truth arrived { currentGroup := group, active := true } where
  slots := rfl
  count := rfl
  genuine i inside received := by
    interval_cases i <;> cases received

theorem Holds.mono (holds : g.Holds truth arrived) (next : Nat) :
    g.Holds truth (next :: arrived) where
  slots := holds.slots
  count := holds.count
  genuine i inside received := by
    obtain ⟨member, rest⟩ := holds.genuine i inside received
    exact ⟨List.mem_cons_of_mem _ member, rest⟩

theorem slot_store (eight : g.slots.length = 8) {i : Nat} (inside : i < 8) (slot : FecSlot)
    (j : Nat) : (g.store i slot).slot j = if j = i then slot else g.slot j := by
  unfold GroupState.slot store
  by_cases same : j = i
  · simp [List.getD_eq_getElem?_getD, eight, inside, same]
  · simp [List.getD_eq_getElem?_getD, List.getElem?_set_ne (Ne.symm same), same]

theorem length_missing_store (eight : g.slots.length = 8) {i : Nat} (inside : i < 8)
    (absent : (g.slot i).received = false) {slot : FecSlot} (filled : slot.received = true) :
    (g.store i slot).missing.length + 1 = g.missing.length := by
  have member : i ∈ g.missing := mem_missing.mpr ⟨inside, absent⟩
  have nodup : g.missing.Nodup := List.nodup_range.filter _
  have erased : (g.store i slot).missing = g.missing.erase i := by
    rw [nodup.erase_eq_filter]
    unfold missing
    rw [List.filter_filter]
    apply List.filter_congr
    intro j _
    by_cases same : j = i <;> simp [slot_store eight inside, same, filled]
  rw [erased, List.length_erase_of_mem member]
  exact Nat.sub_add_cancel (List.length_pos_of_mem member)

/-- An arrival of the group keeps it. -/
theorem Holds.fill (holds : g.Holds truth arrived) {seq : Nat} (mine : g.currentGroup = seq / 8)
    (short : (truth seq).length ≤ maxMtu) :
    (FecDecoder.fill g (seq % 8) (truth seq) (isParitySlot seq)).Holds truth
      (seq :: arrived) := by
  unfold FecDecoder.fill
  split
  · exact holds.mono seq
  · rename_i absent
    have inside : seq % 8 < 8 := Nat.mod_lt _ (by decide)
    have free : (g.slot (seq % 8)).received = false := by simpa using absent
    constructor
    · simp [store, holds.slots]
    · have count := holds.count
      have fewer := @length_missing_store g holds.slots _ inside free
        { data := truth seq, received := true, isParity := isParitySlot seq } rfl
      simp only [store] at fewer ⊢
      omega
    · intro i small received
      have number : (g.store (seq % 8)
          { data := truth seq, received := true, isParity := isParitySlot seq }).currentGroup =
            seq / 8 := mine
      rw [slot_store holds.slots inside] at received ⊢
      rw [number]
      by_cases same : i = seq % 8
      · have here : seq / 8 * 8 + i = seq := by omega
        simp only [same, ↓reduceIte]
        rw [← same, here]
        exact ⟨List.mem_cons_self, rfl, by simp [isParitySlot, fecGroupSize, same], short⟩
      · rw [if_neg same] at received ⊢
        rw [← mine]
        exact (holds.mono seq).genuine i small received

/-- Seven slots are filled. -/
theorem received_of_single {k i : Nat} (single : g.missing = [k]) (inside : i < 8)
    (other : i ≠ k) : (g.slot i).received = true := by
  by_contra absent
  have isOpen : i ∈ g.missing := mem_missing.mpr ⟨inside, by simpa using absent⟩
  rw [single, List.mem_singleton] at isOpen
  exact other isOpen

/-- With seven slots filled the open one, if it is a data slot, is reconstructed. -/
theorem Holds.others (holds : g.Holds truth arrived) {k : Nat} (single : g.missing = [k]) :
    g.others k =
      ((List.range 8).filter fun i => i ≠ k).map fun i => truth (g.currentGroup * 8 + i) := by
  apply List.map_congr_left
  intro i member
  simp only [ne_eq, decide_not, List.mem_filter, List.mem_range, fecGroupSize, Bool.not_eq_true',
    decide_eq_false_iff_not] at member
  exact (holds.genuine i member.1 (received_of_single single member.1 member.2)).2.1

theorem Holds.received (holds : g.Holds truth arrived) {k : Nat} (single : g.missing = [k])
    {i : Nat} (inside : i < 8) (other : i ≠ k) :
    g.currentGroup * 8 + i ∈ arrived ∧ (g.slot i).received = true ∧
      (g.slot i).data.length ≤ maxMtu := by
  have received := received_of_single single inside other
  obtain ⟨member, -, -, short⟩ := holds.genuine i inside received
  exact ⟨member, received, short⟩

/-- Without the parity itself nothing in the group passes for one. -/
theorem Holds.hasParityCheck (holds : g.Holds truth arrived) (single : g.missing = [7]) :
    g.hasParityCheck = false := by
  unfold GroupState.hasParityCheck
  rw [List.any_eq_false]
  intro i member flagged
  rw [Bool.and_eq_true] at flagged
  have inside : i < 8 := List.mem_range.mp member
  obtain ⟨-, -, parity, -⟩ := holds.genuine i inside flagged.1
  rw [flagged.2] at parity
  obtain rfl : i = 7 := by simpa using parity.symm
  have absent := mem_missing.mp (single ▸ List.mem_singleton_self 7)
  rw [absent.2] at flagged
  exact absurd flagged.1 (by decide)

end GroupState

namespace FecDecoder

variable {d : FecDecoder}

/-- The resident groups hold what has arrived. -/
def Holds (truth : Nat → List UInt8) (arrived : List Nat) (d : FecDecoder) : Prop :=
  ∀ gi, (d.groups gi).active = true → (d.groups gi).Holds truth arrived

theorem holds_reset (allocation : Bool) : (reset {} allocation).Holds truth [] := by
  unfold reset
  split <;> exact fun _ active => Bool.noConfusion active

theorem foldl_max (strings : List (List UInt8)) (start : Nat) :
    strings.foldl (fun len data => max len data.length) start = max start (maxLength strings) := by
  induction strings generalizing start with
  | nil => simp [maxLength]
  | cons head rest inductionHypothesis =>
      rw [List.foldl_cons, inductionHypothesis, maxLength]
      omega

/-- The place of a group is one where it is resident, with what it held before. -/
theorem place_spec (holds : d.Holds truth arrived) (group : Nat) :
    (d.place group).2.Holds truth arrived ∧
      ((d.place group).2.groups (d.place group).1).currentGroup = group ∧
      ((d.place group).2.groups (d.place group).1).active = true := by
  unfold place
  cases found : d.resident group with
  | some gi =>
      have here := List.find?_some found
      simp only [Bool.and_eq_true, beq_iff_eq] at here
      exact ⟨holds, here.2, here.1⟩
  | none =>
      dsimp only
      generalize (if d.lastUsed = 0 then 1 else 0 : Fin 2) = free
      refine ⟨?_, by simp, by simp⟩
      intro gi active
      dsimp only at active ⊢
      rw [Function.update_apply] at active ⊢
      split
      · exact GroupState.holds_fresh group
      · rename_i other
        rw [if_neg other] at active
        exact holds gi active

/-- A full group but one slot: the report is a true reconstruction. -/
theorem tryRecover_spec (wellFormed : WellFormedGroups truth) {g : GroupState}
    (holds : g.Holds truth arrived) (small : g.currentGroup * 8 + 7 < 2 ^ 16) :
    (d.tryRecover g).2.groups = d.groups ∧ (d.tryRecover g).2.allocated = d.allocated ∧
      ((d.tryRecover g).1 = true →
        Reconstructs truth arrived (d.tryRecover g).2.recoveredSeq
          (d.tryRecover g).2.recoveredData) := by
  unfold tryRecover
  split
  · rename_i missing single
    split
    · exact ⟨rfl, rfl, fun reported => nomatch reported⟩
    · rename_i notParity
      refine ⟨rfl, rfl, fun _ => ?_⟩
      have isOpen := GroupState.mem_missing.mp (single ▸ List.mem_singleton_self missing)
      have isData : missing < 7 := by
        by_contra large
        obtain rfl : missing = 7 := by omega
        exact notParity ⟨rfl, holds.hasParityCheck single⟩
      have fits : maxLength (g.others missing) ≤ maxMtu := by
        apply maxLength_le
        intro string member
        obtain ⟨i, kept, rfl⟩ := List.mem_map.mp member
        simp only [ne_eq, decide_not, List.mem_filter, List.mem_range, fecGroupSize,
          Bool.not_eq_true', decide_eq_false_iff_not] at kept
        exact (holds.received single kept.1 kept.2).2.2
      have number : recoveredSeq
          { d with
            missingIdx := missing
            recoveredGroup := g.currentGroup
            recoveredBuf := (g.others missing).foldl xorInto (List.replicate maxMtu 0)
            recoveredLen := (g.others missing).foldl (fun len data => max len data.length) 0
            recovered := true } = g.currentGroup * 8 + missing := by
        simp only [recoveredSeq, fecGroupSize]
        omega
      rw [number]
      constructor
      · simp [isParitySlot, fecGroupSize]
        omega
      · rw [recoveredData, foldl_max, Nat.zero_max, take_foldl_xorInto fits,
          holds.others single, xorPad_others wellFormed isData]
      · intro other same different
        have there := holds.received single (i := other % 8) (by omega) (by omega)
        have whole : g.currentGroup * 8 + other % 8 = other := by omega
        rw [whole] at there
        exact there.1
  · exact ⟨rfl, rfl, fun reported => nomatch reported⟩

/-- One arrival at the decoder of the firmware. -/
theorem ingest_spec (wellFormed : WellFormedGroups truth) (holds : d.Holds truth arrived)
    {seq : Nat} (fits : seq < 2 ^ 16) :
    let result := d.ingest seq (truth seq) (isParitySlot seq)
    result.2.Holds truth (seq :: arrived) ∧
      (result.1 = true →
        Reconstructs truth (seq :: arrived) result.2.recoveredSeq result.2.recoveredData) := by
  dsimp only
  have older : d.Holds truth (seq :: arrived) := fun gi active => (holds gi active).mono seq
  unfold ingest
  split
  · exact ⟨older, fun reported => nomatch reported⟩
  · rename_i usable
    simp only [Bool.or_eq_true, Bool.not_eq_true', decide_eq_true_eq, not_or, not_lt] at usable
    obtain ⟨placedHolds, mine, active⟩ := place_spec holds (seq / (fecGroupSize + 1))
    generalize d.place (seq / (fecGroupSize + 1)) = placement at placedHolds mine active ⊢
    obtain ⟨gi, placed⟩ := placement
    have filled : (fill (placed.groups gi) (seq % (fecGroupSize + 1)) (truth seq)
        (isParitySlot seq)).Holds truth (seq :: arrived) :=
      (placedHolds gi active).fill mine usable.2
    have group : (fill (placed.groups gi) (seq % (fecGroupSize + 1)) (truth seq)
        (isParitySlot seq)).currentGroup = seq / 8 := by
      unfold fill
      split <;> exact mine
    dsimp only at filled group ⊢
    generalize fill (placed.groups gi) (seq % (fecGroupSize + 1)) (truth seq)
      (isParitySlot seq) = g at filled group ⊢
    have stored : Holds truth (seq :: arrived)
        { placed with lastUsed := gi, groups := Function.update placed.groups gi g } := by
      intro other live
      dsimp only at live ⊢
      rw [Function.update_apply] at live ⊢
      split
      · exact filled
      · rename_i elsewhere
        rw [if_neg elsewhere] at live
        exact (placedHolds other live).mono seq
    by_cases full : g.slotCount = fecGroupSize
    · obtain ⟨groups, -, reports⟩ := tryRecover_spec
        (d := { placed with lastUsed := gi, groups := Function.update placed.groups gi g })
        wellFormed filled (by omega)
      rw [if_pos full]
      refine ⟨?_, reports⟩
      unfold Holds
      rw [groups]
      exact stored
    · rw [if_neg full]
      exact ⟨stored, fun reported => nomatch reported⟩

end FecDecoder

end ForestLink.Protocol

namespace ForestLink.Cloud

open ForestLink.Lib
open ForestLink.Protocol

variable {truth : Nat → List UInt8} {arrived : List Nat}

/-! ## The decoder of the cloud -/

/-- A group with one open position is reconstructed from all other slots. -/
theorem FecGroup.recovered_eq {group : FecGroup} {k : Nat} (single : group.missing = [k]) :
    group.recovered k =
      xorPad (((List.range 8).filter fun i => i ≠ k).map fun i => (group.slot i).data) := by
  obtain ⟨bounds, least⟩ := group.maxLen_spec
  have absent := (FecGroup.mem_missing.mp (single ▸ List.mem_singleton_self k)).2
  have length : group.maxLen =
      maxLength (((List.range 8).filter fun i => i ≠ k).map fun i => (group.slot i).data) := by
    apply Nat.le_antisymm
    · apply least
      intro i inside here
      apply length_le_maxLength
      rw [List.mem_map]
      refine ⟨i, ?_, rfl⟩
      have other : i ≠ k := by
        rintro rfl
        rw [absent] at here
        cases here
      simp [inside, other]
    · apply maxLength_le
      intro string member
      obtain ⟨i, kept, rfl⟩ := List.mem_map.mp member
      simp only [ne_eq, decide_not, List.mem_filter, List.mem_range, Bool.not_eq_true',
        decide_eq_false_iff_not] at kept
      exact bounds i kept.1 (present_of_single single kept.1 kept.2)
  rw [xorPad, List.foldl_map, ← length]
  rfl

namespace FecDecoder

variable {decoder : FecDecoder} {reports : List FecRecovery}

/-- The bytes in the slot of `seq`. -/
def held (decoder : FecDecoder) (seq : Nat) : List UInt8 :=
  ((decoder.group (seq / 8)).slot (seq % 8)).data

/-- The decoder after these arrivals, with all that it has reported. -/
structure Agrees (truth : Nat → List UInt8) (arrived : List Nat) (decoder : FecDecoder)
    (reports : List FecRecovery) : Prop where
  wf : decoder.Wf
  stored : ∀ seq ∈ arrived, decoder.Present seq
  present : ∀ seq, decoder.Present seq → seq ∈ arrived ∨
    { seq := seq, data := paddedFragment truth seq } ∈ reports
  genuine : ∀ seq, decoder.Present seq → decoder.held seq = truth seq ∨
    ∀ other, other / 8 = seq / 8 → decoder.Present other
  closed : ∀ seq, isParitySlot seq = false →
    (∀ other, other / 8 = seq / 8 → other ≠ seq → decoder.Present other) → decoder.Present seq
  faithful : ∀ report ∈ reports, Reconstructs truth arrived report.seq report.data

theorem agrees_new : Agrees truth [] new [] where
  wf := wf_new
  stored seq member := by cases member
  present seq present := absurd present (not_present_new seq)
  genuine seq present := absurd present (not_present_new seq)
  closed seq _ others := by
    have other := others (seq / 8 * 8 + (seq + 1) % 8) (by omega) (by omega)
    exact absurd other (not_present_new _)
  faithful report member := by cases member

/-- A chunk whose slot is taken changes nothing. -/
theorem ingest_present {seq : Nat} (present : decoder.Present seq) (data : List UInt8)
    (isParity : Bool) :
    (decoder.ingest seq data isParity).2 = none ∧
      (decoder.ingest seq data isParity).1.group = decoder.group := by
  have taken : (((decoder.groups (seq / (fecGroupSize + 1))).getD {}).slot
      (seq % (fecGroupSize + 1))).present = true := present
  unfold ingest
  dsimp only
  rw [if_pos taken]
  refine ⟨rfl, ?_⟩
  funext other
  rw [group_update]
  split
  · rename_i same
    rw [same]
    rfl
  · rfl

theorem Agrees.congr (agrees : Agrees truth arrived decoder reports) {after : FecDecoder}
    (same : after.group = decoder.group) : Agrees truth arrived after reports := by
  have present : after.Present = decoder.Present := by
    funext seq
    rw [Present, Present, same]
  have held : after.held = decoder.held := by
    funext seq
    rw [FecDecoder.held, FecDecoder.held, same]
  constructor
  · intro groupId
    rw [same]
    exact agrees.wf groupId
  · rw [present]
    exact agrees.stored
  · rw [present]
    exact agrees.present
  · rw [present, held]
    exact agrees.genuine
  · rw [present]
    exact agrees.closed
  · exact agrees.faithful

theorem Agrees.duplicate (agrees : Agrees truth arrived decoder reports) {seq : Nat}
    (present : decoder.Present seq) : Agrees truth (seq :: arrived) decoder reports where
  wf := agrees.wf
  stored other member := by
    rcases List.mem_cons.mp member with rfl | earlier
    · exact present
    · exact agrees.stored other earlier
  present other here := by
    rcases agrees.present other here with earlier | reported
    · exact .inl (List.mem_cons_of_mem _ earlier)
    · exact .inr reported
  genuine := agrees.genuine
  closed := agrees.closed
  faithful report member := (agrees.faithful report member).mono seq

/-- What an arrival leaves in the slots of its group. -/
def filled (decoder : FecDecoder) (truth : Nat → List UInt8) (seq : Nat) : FecGroup :=
  (decoder.group (seq / 8)).put (seq % 8) (FecDecoder.arrived (truth seq) (isParitySlot seq))

theorem slot_filled (wf : decoder.Wf) (seq i : Nat) :
    (decoder.filled truth seq).slot i =
      if i = seq % 8 then FecDecoder.arrived (truth seq) (isParitySlot seq)
      else (decoder.group (seq / 8)).slot i :=
  FecGroup.slot_put (wf _).slots (Nat.mod_lt _ (by decide)) _ _

/-- The last chunk of a group but one: the reconstruction is true. -/
theorem Agrees.reconstructs (wellFormed : WellFormedGroups truth)
    (agrees : Agrees truth arrived decoder reports) {seq position : Nat}
    (completed : decoder.completes seq = some position) :
    Reconstructs truth (seq :: arrived) (seq / 8 * 8 + position)
      ((decoder.filled truth seq).recovered position) := by
  obtain ⟨isData, absent, different, rest⟩ := completes_iff.mp completed
  have number : (seq / 8 * 8 + position) / 8 = seq / 8 := by omega
  have single : (decoder.filled truth seq).missing = [position] := by
    have opens := (completes_eq_some.mp completed).1
    rw [← opens]
    exact FecGroup.missing_put (agrees.wf _).slots (Nat.mod_lt _ (by decide)) rfl
  constructor
  · simp [isParitySlot, fecGroupSize]
    omega
  · rw [FecGroup.recovered_eq single, ← xorPad_others wellFormed isData]
    congr 1
    apply List.map_congr_left
    intro i member
    simp only [ne_eq, decide_not, List.mem_filter, List.mem_range, Bool.not_eq_true',
      decide_eq_false_iff_not] at member
    rw [slot_filled agrees.wf]
    by_cases mine : i = seq % 8
    · have here : seq / 8 * 8 + i = seq := by omega
      rw [if_pos mine, here]
      rfl
    · rw [if_neg mine]
      have present := (rest i member.1 member.2).resolve_left (by omega)
      have group : (seq / 8 * 8 + i) / 8 = seq / 8 := by omega
      have index : (seq / 8 * 8 + i) % 8 = i := by omega
      rcases agrees.genuine _ present with genuine | full
      · unfold held at genuine
        rwa [group, index] at genuine
      · exact absurd (full _ (by omega)) absent
  · intro other same notIt
    rw [number] at same
    have place : seq / 8 * 8 + other % 8 = other := by omega
    have there := rest (other % 8) (Nat.mod_lt _ (by decide)) (by omega)
    rw [place] at there
    rcases there with rfl | present
    · exact List.mem_cons_self
    · rcases agrees.present other present with earlier | reported
      · exact List.mem_cons_of_mem _ earlier
      · -- A reported chunk has all others of its group, this one too.
        have others := (agrees.faithful _ reported).others (seq / 8 * 8 + position)
        exact absurd (agrees.stored _ (others (by dsimp only; omega) (by dsimp only; omega))) absent

/-- A chunk whose slot was free: what is reported, and which slots are filled behind it. -/
structure Arrives (truth : Nat → List UInt8) (decoder : FecDecoder) (seq : Nat)
    (after : FecDecoder) (report : Option FecRecovery) : Prop where
  wf : after.Wf
  present : ∀ other, after.Present other ↔ other = seq ∨ decoder.Present other ∨
    ∃ position, decoder.completes seq = some position ∧ other = seq / 8 * 8 + position
  reported : report = (decoder.completes seq).map fun position =>
    { seq := seq / 8 * 8 + position, data := (decoder.filled truth seq).recovered position }
  elsewhere : ∀ groupId, groupId ≠ seq / 8 → after.group groupId = decoder.group groupId
  here : decoder.completes seq = none → after.group (seq / 8) = decoder.filled truth seq

theorem arrives_ingest (wf : decoder.Wf) {seq : Nat} (absent : ¬ decoder.Present seq) :
    Arrives truth decoder seq (decoder.ingest seq (truth seq) (isParitySlot seq)).1
      (decoder.ingest seq (truth seq) (isParitySlot seq)).2 := by
  obtain ⟨wfAfter, -, present⟩ := ingest_spec wf absent (truth seq) (isParitySlot seq)
  have shape := ingest_eq wf absent (truth seq) (isParitySlot seq)
  dsimp only at shape
  refine ⟨wfAfter, present, ?_, ?_, ?_⟩ <;> rw [shape] <;> cases decoder.completes seq <;>
    simp +contextual [group_update, filled]

namespace Arrives

variable {after : FecDecoder} {report : Option FecRecovery} {seq other : Nat}

theorem grows (arrives : Arrives truth decoder seq after report) (before : decoder.Present other) :
    after.Present other :=
  (arrives.present other).mpr (.inr (.inl before))

/-- Only slots of the group are filled. -/
theorem outside (arrives : Arrives truth decoder seq after report)
    (different : other / 8 ≠ seq / 8) (present : after.Present other) : decoder.Present other := by
  rcases (arrives.present other).mp present with rfl | before | ⟨position, completed, rfl⟩
  · exact absurd rfl different
  · exact before
  · have isData := (completes_iff.mp completed).1
    omega

/-- A reconstruction leaves no slot of the group free. -/
theorem full (arrives : Arrives truth decoder seq after report) {position : Nat}
    (completed : decoder.completes seq = some position) (same : other / 8 = seq / 8) :
    after.Present other := by
  obtain ⟨-, -, -, rest⟩ := completes_iff.mp completed
  have place : seq / 8 * 8 + other % 8 = other := by omega
  by_cases last : other % 8 = position
  · exact (arrives.present other).mpr (.inr (.inr ⟨position, completed, by omega⟩))
  · have there := rest (other % 8) (Nat.mod_lt _ (by decide)) last
    rw [place] at there
    rcases there with rfl | before
    · exact (arrives.present other).mpr (.inl rfl)
    · exact arrives.grows before

/-- With one data slot alone open the arrival completes the group. -/
theorem completes (arrives : Arrives truth decoder seq after report)
    (isData : isParitySlot other = false) (same : other / 8 = seq / 8) (notSeq : other ≠ seq)
    (absent : ¬ decoder.Present other)
    (others : ∀ x, x / 8 = other / 8 → x ≠ other → after.Present x) :
    decoder.completes seq = some (other % 8) := by
  have position : other % 8 < 7 := by
    have bound : other % 8 < 8 := Nat.mod_lt _ (by decide)
    have notParity : other % 8 ≠ 7 := by simpa [isParitySlot, fecGroupSize] using isData
    omega
  have place : seq / 8 * 8 + other % 8 = other := by omega
  rw [completes_iff, place]
  refine ⟨position, absent, notSeq, fun i inside differs => ?_⟩
  rcases (arrives.present _).mp (others (seq / 8 * 8 + i) (by omega) (by omega)) with
    mine | before | ⟨last, completed, there⟩
  · exact .inl mine
  · exact .inr before
  · obtain ⟨-, -, -, rest⟩ := completes_iff.mp completed
    have known := rest (other % 8) (Nat.mod_lt _ (by decide)) (by omega)
    rw [place] at known
    exact absurd known (by simp [notSeq, absent])

/-- The slots hold what was sent, or their group is full. -/
theorem genuine (arrives : Arrives truth decoder seq after report)
    (agrees : Agrees truth arrived decoder reports) (present : after.Present other) :
    after.held other = truth other ∨ ∀ x, x / 8 = other / 8 → after.Present x := by
  have older : decoder.Present other → decoder.held other = truth other ∨
      ∀ x, x / 8 = other / 8 → after.Present x := fun before =>
    (agrees.genuine other before).imp_right fun full x group => arrives.grows (full x group)
  by_cases same : other / 8 = seq / 8
  · cases completed : decoder.completes seq with
    | none =>
        unfold held
        rw [same, arrives.here completed, slot_filled agrees.wf]
        by_cases mine : other % 8 = seq % 8
        · rw [if_pos mine, show other = seq by omega]
          exact .inl rfl
        · rw [if_neg mine]
          rcases (arrives.present other).mp present with rfl | before | ⟨_, impossible, _⟩
          · exact absurd rfl mine
          · have known := older before
            unfold held at known
            rwa [same] at known
          · rw [completed] at impossible
            cases impossible
    | some position => exact .inr fun x group => arrives.full completed (group.trans same)
  · have known := older (arrives.outside same present)
    unfold held at known ⊢
    rwa [arrives.elsewhere _ same]

/-- No group is left with one data slot open. -/
theorem closed (arrives : Arrives truth decoder seq after report)
    (agrees : Agrees truth arrived decoder reports) (isData : isParitySlot other = false)
    (others : ∀ x, x / 8 = other / 8 → x ≠ other → after.Present x) : after.Present other := by
  by_contra absentAfter
  have absent : ¬ decoder.Present other := fun before => absentAfter (arrives.grows before)
  by_cases same : other / 8 = seq / 8
  · have notSeq : other ≠ seq := fun mine => absentAfter ((arrives.present other).mpr (.inl mine))
    exact absentAfter (arrives.full (arrives.completes isData same notSeq absent others) same)
  · apply absent
    apply agrees.closed other isData
    intro x group differs
    exact arrives.outside (group ▸ same) (others x group differs)

end Arrives

/-- Every arrival keeps the decoder in agreement with what was sent. -/
theorem Agrees.ingest (wellFormed : WellFormedGroups truth)
    (agrees : Agrees truth arrived decoder reports) (seq : Nat) :
    let result := decoder.ingest seq (truth seq) (isParitySlot seq)
    Agrees truth (seq :: arrived) result.1 (result.2.toList ++ reports) := by
  dsimp only
  by_cases present : decoder.Present seq
  · obtain ⟨nothing, same⟩ := ingest_present present (truth seq) (isParitySlot seq)
    rw [nothing]
    exact (agrees.duplicate present).congr same
  have arrives := @arrives_ingest truth decoder agrees.wf seq present
  generalize decoder.ingest seq (truth seq) (isParitySlot seq) = result at arrives ⊢
  have reports_of_completes : ∀ {position}, decoder.completes seq = some position →
      result.2 = some { seq := seq / 8 * 8 + position
                        data := (decoder.filled truth seq).recovered position } := by
    intro position completed
    rw [arrives.reported, completed]
    rfl
  refine ⟨arrives.wf, ?_, ?_, fun other here => arrives.genuine agrees here,
    fun other isData others => arrives.closed agrees isData others, ?_⟩
  · intro other member
    rcases List.mem_cons.mp member with rfl | earlier
    · exact (arrives.present other).mpr (.inl rfl)
    · exact arrives.grows (agrees.stored other earlier)
  · intro other here
    rcases (arrives.present other).mp here with rfl | before | ⟨position, completed, rfl⟩
    · exact .inl List.mem_cons_self
    · rcases agrees.present other before with earlier | known
      · exact .inl (List.mem_cons_of_mem _ earlier)
      · exact .inr (List.mem_append_right _ known)
    · right
      rw [reports_of_completes completed, ← (agrees.reconstructs wellFormed completed).data]
      exact List.mem_append_left _ (List.mem_singleton_self _)
  · intro report member
    rcases List.mem_append.mp member with now | known
    · cases completed : decoder.completes seq with
      | none =>
          rw [arrives.reported, completed] at now
          cases now
      | some position =>
          rw [reports_of_completes completed] at now
          obtain rfl := List.mem_singleton.mp now
          exact agrees.reconstructs wellFormed completed
    · exact (agrees.faithful report known).mono seq

end FecDecoder

/-! ## Both decoders -/

/-- The two decoders, and as a record the sequence numbers that have arrived and all that
the cloud has reported, newest first. -/
structure Decoders where
  firmware : Protocol.FecDecoder
  cloud : FecDecoder := .new
  arrived : List Nat := []
  reports : List FecRecovery := []

namespace Decoders

/-- New decoders; `allocation` says whether the firmware's got its memory. -/
def start (allocation : Bool) : Decoders where
  firmware := Protocol.FecDecoder.reset {} allocation

/-- One chunk for both. -/
def ingest (d : Decoders) (chunk : Nat × List UInt8) : Decoders :=
  let result := d.cloud.ingest chunk.1 chunk.2 (isParitySlot chunk.1)
  { firmware := (d.firmware.ingest chunk.1 chunk.2 (isParitySlot chunk.1)).2
    cloud := result.1
    arrived := chunk.1 :: d.arrived
    reports := result.2.toList ++ d.reports }

def run (d : Decoders) (chunks : List (Nat × List UInt8)) : Decoders := chunks.foldl ingest d

/-- The chunk is one that was sent. -/
def Genuine (truth : Nat → List UInt8) (chunk : Nat × List UInt8) : Prop :=
  chunk.1 < 2 ^ 16 ∧ chunk.2 = truth chunk.1

/-- Both decoders hold what was sent. -/
structure Agrees (truth : Nat → List UInt8) (d : Decoders) : Prop where
  firmware : d.firmware.Holds truth d.arrived
  cloud : d.cloud.Agrees truth d.arrived d.reports

theorem agrees_start (allocation : Bool) : Agrees truth (start allocation) where
  firmware := Protocol.FecDecoder.holds_reset allocation
  cloud := FecDecoder.agrees_new

theorem Agrees.ingest (wellFormed : WellFormedGroups truth) {d : Decoders}
    (agrees : d.Agrees truth) {chunk : Nat × List UInt8} (genuine : Genuine truth chunk) :
    (d.ingest chunk).Agrees truth := by
  obtain ⟨seq, data⟩ := chunk
  obtain ⟨fits, payload⟩ := genuine
  dsimp only at fits payload
  subst payload
  exact ⟨(Protocol.FecDecoder.ingest_spec wellFormed agrees.firmware fits).1,
    agrees.cloud.ingest wellFormed seq⟩

theorem Agrees.run (wellFormed : WellFormedGroups truth) {d : Decoders}
    (agrees : d.Agrees truth) {chunks : List (Nat × List UInt8)}
    (genuine : ∀ chunk ∈ chunks, Genuine truth chunk) : (d.run chunks).Agrees truth := by
  induction chunks generalizing d with
  | nil => exact agrees
  | cons chunk rest inductionHypothesis =>
      exact inductionHypothesis
        (agrees.ingest wellFormed (genuine chunk List.mem_cons_self))
        fun other member => genuine other (List.mem_cons_of_mem _ member)

end Decoders

/-- After any arrivals of well-formed groups, in any order and with any repetitions: when the
firmware reports a recovery on the next arrival, it is the fragment of a data slot, padded,
all else of whose group has arrived, and the cloud has received that fragment or has
reported the same bytes for it; and whatever the cloud has reported is such a fragment. -/
theorem fec_decoders_agree (wellFormed : WellFormedGroups truth) (allocation : Bool)
    (before : List (Nat × List UInt8)) (chunk : Nat × List UInt8)
    (genuine : ∀ other ∈ chunk :: before, Decoders.Genuine truth other) :
    let earlier := (Decoders.start allocation).run before
    let after := earlier.ingest chunk
    ((earlier.firmware.ingest chunk.1 chunk.2 (isParitySlot chunk.1)).1 = true →
      Reconstructs truth after.arrived after.firmware.recoveredSeq
          after.firmware.recoveredData ∧
        (after.firmware.recoveredSeq ∈ after.arrived ∨
          { seq := after.firmware.recoveredSeq, data := after.firmware.recoveredData } ∈
            after.reports)) ∧
      ∀ report ∈ after.reports, Reconstructs truth after.arrived report.seq report.data := by
  have past := (Decoders.agrees_start allocation).run wellFormed fun other member =>
    genuine other (List.mem_cons_of_mem _ member)
  have now := past.ingest wellFormed (genuine chunk List.mem_cons_self)
  obtain ⟨fits, payload⟩ := genuine chunk List.mem_cons_self
  refine ⟨fun reported => ?_, now.cloud.faithful⟩
  have spec := Protocol.FecDecoder.ingest_spec wellFormed past.firmware fits
  dsimp only at spec
  rw [← payload] at spec
  have reconstructs := spec.2 reported
  refine ⟨reconstructs, ?_⟩
  have present := now.cloud.closed _ reconstructs.isData fun other same differs =>
    now.cloud.stored other (reconstructs.others other same differs)
  have known := now.cloud.present _ present
  rw [← reconstructs.data] at known
  exact known

/-- Fragments of one byte. -/
def smallTruth : Nat → List UInt8 := withParity fun seq => [UInt8.ofNat seq]

/-- Fragment 5 is reconstructed when the last of the others comes. -/
theorem small_group_agrees :
    let earlier := (Decoders.start true).run ([7, 0, 1, 1, 6, 2, 3].map fun i => (i, smallTruth i))
    let after := earlier.ingest (4, smallTruth 4)
    (earlier.firmware.ingest 4 (smallTruth 4) (isParitySlot 4)).1 = true ∧
      (Reconstructs smallTruth after.arrived after.firmware.recoveredSeq
          after.firmware.recoveredData ∧
        (after.firmware.recoveredSeq ∈ after.arrived ∨
          { seq := after.firmware.recoveredSeq, data := after.firmware.recoveredData } ∈
            after.reports)) ∧
      ∀ report ∈ after.reports, Reconstructs smallTruth after.arrived report.seq report.data := by
  have wellFormed : WellFormedGroups smallTruth := wellFormed_withParity _
  have agree := fec_decoders_agree wellFormed true
    ([7, 0, 1, 1, 6, 2, 3].map fun i => (i, smallTruth i)) (4, smallTruth 4)
    (by simp [Decoders.Genuine])
  have reported : (((Decoders.start true).run
      ([7, 0, 1, 1, 6, 2, 3].map fun i => (i, smallTruth i))).firmware.ingest 4 (smallTruth 4)
        (isParitySlot 4)).1 = true := by
    decide +kernel
  exact ⟨reported, agree.1 reported, agree.2⟩

end ForestLink.Cloud
