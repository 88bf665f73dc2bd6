/-
Module: ForestLink.Proofs.RouteRepresentation
Purpose: The array of the neighbour table shows the list of entries, under any sequence of calls:
  at most sixteen entries with different addresses, and their ages.
Trusted boundary: none
Main exports: RouteArray.table_apply, oldestIndex_spec, RouteHistory.Timely, RouteHistory.Sound,
  route_table_representation
-/
import ForestLink.Lib.Trace
import ForestLink.Mesh.RouteCalls
import ForestLink.Proofs.RouteEntries

namespace ForestLink.Mesh

open ForestLink.Lib
open ForestLink.Protocol

/-! ## The array shows the list -/

namespace RouteTable

variable {addr : Nat} {change : NeighborEntry → NeighborEntry}

/-- Changing the first entry of an address is a write to its place. -/
theorem adjustFirst_eq (entries : List NeighborEntry) :
    adjustFirst addr change entries =
      match entries.findIdx? fun entry => entry.addr == addr with
      | some i =>
          match entries[i]? with
          | some entry => entries.set i (change entry)
          | none => entries
      | none => entries := by
  induction entries with
  | nil => rfl
  | cons head rest inductionHypothesis =>
      unfold adjustFirst
      rw [inductionHypothesis, List.findIdx?_cons]
      cases here : head.addr == addr with
      | true => rfl
      | false =>
          simp only [Bool.false_eq_true, if_false]
          cases rest.findIdx? fun entry => entry.addr == addr with
          | none => rfl
          | some i =>
              simp only [Option.map_some, List.getElem?_cons_succ]
              cases rest[i]? with
              | none => rfl
              | some entry => rfl

end RouteTable

namespace RouteArray

variable {a : RouteArray}

theorem table_write (a : RouteArray) (i : Nat) (entry : NeighborEntry) :
    (a.write i entry).table = { neighbors := a.table.neighbors.set i entry } :=
  congrArg RouteTable.mk (Slice.view_store ..)

theorem table_adjust (a : RouteArray) (addr : Nat) (change : NeighborEntry → NeighborEntry) :
    (a.adjust addr change).table = a.table.adjust addr change := by
  unfold adjust find RouteTable.adjust
  rw [RouteTable.adjustFirst_eq]
  change _ = RouteTable.mk (match a.slots.view.findIdx? _ with | some i => _ | none => _)
  cases a.slots.view.findIdx? fun entry => entry.addr == addr with
  | none => rfl
  | some i =>
      dsimp only
      cases here : a.slots.view[i]? with
      | none =>
          have same : a.table.neighbors[i]? = none := here
          rw [same]
      | some entry =>
          have same : a.table.neighbors[i]? = some entry := here
          rw [same]
          exact a.table_write i (change entry)

theorem table_push (a : RouteArray) (entry : NeighborEntry) (room : a.slots.len < maxNeighbors) :
    (a.push entry room).table = { neighbors := a.table.neighbors ++ [entry] } := by
  have inside : a.slots.len < a.slots.cells.length := by
    rw [a.size]
    exact room
  have pushed : (a.push entry room).slots = a.slots.append entry := by
    unfold push Slice.append
    rw [dif_pos inside]
  unfold table
  rw [pushed, Slice.view_append]

theorem table_rewrite (a : RouteArray) (change : NeighborEntry → NeighborEntry) :
    (a.rewrite change).table = { neighbors := a.table.neighbors.map change } :=
  congrArg RouteTable.mk (Slice.view_mapInPlace ..)

theorem find_isSome (a : RouteArray) (addr : Nat) :
    (a.find addr).isSome = a.table.neighbors.any fun entry => entry.addr == addr :=
  List.findIdx?_isSome

theorem length_table (a : RouteArray) : a.table.neighbors.length = a.slots.len :=
  Slice.length_view a.slots

theorem table_updateNeighbor (a : RouteArray) (now addr : Nat) (heard : RouteTable.Heard) :
    (a.updateNeighbor now addr heard).table = a.table.updateNeighbor now addr heard := by
  unfold updateNeighbor RouteTable.updateNeighbor
  rw [find_isSome, length_table]
  split
  · exact a.table_adjust addr (RouteTable.refresh now heard)
  split
  · exact a.table_push ..
  · exact a.table_write ..

/-- Every call changes the array as it changes the list. -/
theorem table_apply (a : RouteArray) (now : Nat) (call : RouteCall) :
    (a.apply now call).table = a.table.apply now call := by
  cases call with
  | updateNeighbor addr heard => exact a.table_updateNeighbor now addr heard
  | updateInetRoute neighborAddr hopsInet seq origin =>
      exact (a.table_adjust ..).trans (RouteTable.updateInetRoute_table ..).symm
  | setHasInternet addr value => exact a.table_adjust ..
  | setQueueLoad addr load => exact a.table_adjust ..
  | reportLinkTx addr success => exact a.table_adjust ..
  | invalidateRouteVia deadAddr => exact a.table_rewrite ..
  | detectEarlyStale earlyMs => exact a.table_rewrite ..
  | checkBetterRoute currentBest myAddr => rfl
  | pruneStale maxAgeMs => exact congrArg RouteTable.mk (Slice.view_filterInPlace ..)

end RouteArray

/-! ## What a call does to the entries -/

namespace RouteTable

variable {table : RouteTable} {now addr : Nat}

/-- The oldest entry: a prefix in front of it, and nobody is older. -/
theorem oldestIndex_spec (now : Nat) {entries : List NeighborEntry} (some : entries ≠ []) :
    ∃ before oldest after, entries = before ++ oldest :: after ∧
      oldestIndex now entries = before.length ∧
      ∀ entry ∈ entries, sub32 now entry.lastSeenMs ≤ sub32 now oldest.lastSeenMs := by
  -- The search behind `passed` entries, the oldest of which is at `best`.
  have search : ∀ (rest passed : List NeighborEntry) (best : Nat × Nat),
      (∃ before oldest after, passed ++ rest = before ++ oldest :: after ∧
        best = (before.length, sub32 now oldest.lastSeenMs)) →
      (∀ entry ∈ passed, sub32 now entry.lastSeenMs ≤ best.2) →
      ∃ before oldest after, passed ++ rest = before ++ oldest :: after ∧
        ((rest.zipIdx passed.length).foldl
          (fun (oldest : Nat × Nat) entry =>
            if sub32 now entry.1.lastSeenMs > oldest.2 then
              (entry.2, sub32 now entry.1.lastSeenMs)
            else oldest) best).1 = before.length ∧
        ∀ entry ∈ passed ++ rest, sub32 now entry.lastSeenMs ≤ sub32 now oldest.lastSeenMs := by
    intro rest
    induction rest with
    | nil =>
        rintro passed _ ⟨before, oldest, after, split, rfl⟩ below
        refine ⟨before, oldest, after, split, rfl, fun entry member => below entry ?_⟩
        simpa using member
    | cons head rest inductionHypothesis =>
        intro passed best here below
        have moved : passed ++ head :: rest = (passed ++ [head]) ++ rest := by simp
        have longer : (passed ++ [head]).length = passed.length + 1 := by simp
        rw [List.zipIdx_cons, List.foldl_cons, moved, ← longer]
        split
        · rename_i older
          apply inductionHypothesis
          · exact ⟨passed, head, rest, moved.symm, rfl⟩
          · intro entry member
            rcases List.mem_append.mp member with earlier | last
            · exact (below entry earlier).trans (Nat.le_of_lt older)
            · rw [List.mem_singleton.mp last]
        · rename_i younger
          apply inductionHypothesis
          · exact moved ▸ here
          · intro entry member
            rcases List.mem_append.mp member with earlier | last
            · exact below entry earlier
            · rw [List.mem_singleton.mp last]
              exact Nat.le_of_not_lt younger
  cases entries with
  | nil => exact absurd rfl some
  | cons head rest =>
      have first : (if sub32 now head.lastSeenMs > 0 then (0, sub32 now head.lastSeenMs)
          else ((0, 0) : Nat × Nat)) = (0, sub32 now head.lastSeenMs) := by
        split
        · rfl
        · rename_i fresh
          rw [Nat.eq_zero_of_not_pos fresh]
      unfold oldestIndex
      rw [List.zipIdx_cons, List.foldl_cons]
      dsimp only
      rw [first]
      refine search rest [head] _ ⟨[], head, rest, rfl, rfl⟩ fun entry member => ?_
      rw [List.mem_singleton.mp member]

/-- After hearing a neighbour its entry is the new one, and the others are old ones. -/
theorem Keyed.mem_updateNeighbor (keyed : table.Keyed) {heard : Heard} {entry : NeighborEntry}
    (member : entry ∈ (table.updateNeighbor now addr heard).neighbors) :
    entry.addr = addr ∧ entry.lastSeenMs = now % 2 ^ 32 ∨
      entry.addr ≠ addr ∧ entry ∈ table.neighbors := by
  by_cases here : entry.addr = addr
  · refine .inl ⟨here, ?_⟩
    have found := (keyed.updateNeighbor now addr heard).getNeighbor member
    by_cases known : (table.neighbors.any fun entry => entry.addr == addr) = true
    · have adjusted : table.updateNeighbor now addr heard =
          table.adjust addr (refresh now heard) := if_pos known
      have keeps : KeepsAddr addr (refresh now heard) := fun _ same => same
      rw [here, adjusted, getNeighbor_adjust keeps] at found
      obtain ⟨old, _, rfl⟩ := Option.map_eq_some_iff.mp found
      rfl
    · rcases RouteTable.mem_updateNeighbor member with kept | ⟨old, _, _, rfl⟩ | rfl
      · exact absurd (List.any_eq_true.mpr ⟨entry, kept, by rw [here]; exact beq_self_eq_true _⟩)
          known
      · rfl
      · rfl
  · refine .inr ⟨here, ?_⟩
    rcases RouteTable.mem_updateNeighbor member with kept | ⟨old, _, same, rfl⟩ | rfl
    · exact kept
    · exact absurd same here
    · exact absurd rfl here

/-- A call that hears nobody changes neither addresses nor times, and adds no entry. -/
theorem mem_apply_other {call : RouteCall} (deaf : ∀ addr heard, call ≠ .updateNeighbor addr heard)
    {entry : NeighborEntry} (member : entry ∈ (table.apply now call).neighbors) :
    ∃ old ∈ table.neighbors, old.addr = entry.addr ∧ old.lastSeenMs = entry.lastSeenMs := by
  have adjusted : ∀ {addr : Nat} {change : NeighborEntry → NeighborEntry},
      entry ∈ (table.adjust addr change).neighbors →
      (∀ old, (change old).addr = old.addr ∧ (change old).lastSeenMs = old.lastSeenMs) →
      ∃ old ∈ table.neighbors, old.addr = entry.addr ∧ old.lastSeenMs = entry.lastSeenMs := by
    intro addr change changed keeps
    rcases mem_adjust changed with kept | ⟨old, known, _, rfl⟩
    · exact ⟨entry, kept, rfl, rfl⟩
    · exact ⟨old, known, (keeps old).1.symm, (keeps old).2.symm⟩
  have mapped : ∀ {change : NeighborEntry → NeighborEntry},
      entry ∈ table.neighbors.map change →
      (∀ old, (change old).addr = old.addr ∧ (change old).lastSeenMs = old.lastSeenMs) →
      ∃ old ∈ table.neighbors, old.addr = entry.addr ∧ old.lastSeenMs = entry.lastSeenMs := by
    intro change changed keeps
    obtain ⟨old, known, rfl⟩ := List.mem_map.mp changed
    exact ⟨old, known, (keeps old).1.symm, (keeps old).2.symm⟩
  cases call with
  | updateNeighbor addr heard => exact absurd rfl (deaf addr heard)
  | updateInetRoute neighborAddr hopsInet seq origin =>
      have changed : entry ∈ (table.updateInetRoute neighborAddr hopsInet seq origin).2.neighbors :=
        member
      rw [updateInetRoute_table] at changed
      refine adjusted changed fun old => ?_
      rcases takeRoute_cases hopsInet seq origin old with same | taken
      · rw [same]
        exact ⟨rfl, rfl⟩
      · rw [taken]
        exact ⟨rfl, rfl⟩
  | setHasInternet addr value => exact adjusted member fun _ => ⟨rfl, rfl⟩
  | setQueueLoad addr load => exact adjusted member fun _ => ⟨rfl, rfl⟩
  | reportLinkTx addr success => exact adjusted member fun _ => ⟨rfl, rfl⟩
  | invalidateRouteVia deadAddr =>
      refine mapped member fun old => ?_
      split <;> exact ⟨rfl, rfl⟩
  | detectEarlyStale earlyMs =>
      refine mapped member fun old => ?_
      split <;> exact ⟨rfl, rfl⟩
  | checkBetterRoute currentBest myAddr => exact ⟨entry, member, rfl, rfl⟩
  | pruneStale maxAgeMs => exact ⟨entry, List.mem_of_mem_filter member, rfl, rfl⟩

theorem Keyed.apply (keyed : table.Keyed) (now : Nat) (call : RouteCall) :
    (table.apply now call).Keyed := by
  cases call with
  | updateNeighbor addr heard => exact keyed.updateNeighbor now addr heard
  | updateInetRoute neighborAddr hopsInet seq origin =>
      change (table.updateInetRoute neighborAddr hopsInet seq origin).2.Keyed
      rw [updateInetRoute_table]
      exact keyed.adjust fun _ here => (takeRoute_addr ..).trans here
  | setHasInternet addr value => exact keyed.adjust fun _ here => here
  | setQueueLoad addr load => exact keyed.adjust fun _ here => here
  | reportLinkTx addr success => exact keyed.adjust fun _ here => here
  | invalidateRouteVia deadAddr =>
      refine keyed.mapEntries fun entry => ?_
      split <;> rfl
  | detectEarlyStale earlyMs =>
      refine keyed.mapEntries fun entry => ?_
      split <;> rfl
  | checkBetterRoute currentBest myAddr => exact keyed
  | pruneStale maxAgeMs => exact keyed.of_sublist (List.filter_sublist.map _)

end RouteTable

/-! ## Histories -/

namespace RouteHistory

variable {h : RouteHistory} {timed : TimedCall}

/-- The call is not made before the last one, and finds entries younger than 2^31 ms. -/
def Timely (h : RouteHistory) (timed : TimedCall) : Prop :=
  h.nowMs ≤ timed.nowMs ∧
    ∀ entry ∈ h.array.table.neighbors, h.age timed.nowMs entry < 2 ^ 31

instance (h : RouteHistory) (timed : TimedCall) : Decidable (h.Timely timed) :=
  inferInstanceAs (Decidable (h.nowMs ≤ timed.nowMs ∧ ∀ entry ∈ h.array.table.neighbors, _))

/-- Addresses are different, and every entry shows when its neighbour was last heard. -/
structure Sound (h : RouteHistory) : Prop where
  keyed : h.array.table.Keyed
  stamped : ∀ entry ∈ h.array.table.neighbors,
    entry.lastSeenMs = h.heardAt entry.addr % 2 ^ 32 ∧ h.heardAt entry.addr ≤ h.nowMs

theorem sound_start : Sound {} where
  keyed := List.nodup_nil
  stamped _ none := absurd none List.not_mem_nil

theorem Sound.step (sound : h.Sound) (timely : h.Timely timed) : (h.step timed).Sound := by
  have table : (h.step timed).array.table =
      h.array.table.apply (timed.nowMs % 2 ^ 32) timed.call := h.array.table_apply ..
  refine ⟨table ▸ sound.keyed.apply _ _, fun entry member => ?_⟩
  rw [table] at member
  obtain ⟨nowMs, call⟩ := timed
  have old : ∀ earlier ∈ h.array.table.neighbors, earlier.addr = entry.addr →
      earlier.lastSeenMs = entry.lastSeenMs →
      entry.lastSeenMs = h.heardAt entry.addr % 2 ^ 32 ∧ h.heardAt entry.addr ≤ nowMs := by
    intro earlier known sameAddr sameTime
    obtain ⟨stamp, before⟩ := sound.stamped earlier known
    rw [← sameAddr, ← sameTime]
    exact ⟨stamp, before.trans timely.1⟩
  by_cases hears : ∃ addr heard, call = .updateNeighbor addr heard
  · obtain ⟨addr, heard, rfl⟩ := hears
    change entry.lastSeenMs = Function.update h.heardAt addr nowMs entry.addr % 2 ^ 32 ∧
      Function.update h.heardAt addr nowMs entry.addr ≤ nowMs
    rcases sound.keyed.mem_updateNeighbor member with ⟨here, stamp⟩ | ⟨other, known⟩
    · rw [here, Function.update_self, stamp, Nat.mod_mod]
      exact ⟨rfl, Nat.le_refl nowMs⟩
    · rw [Function.update_of_ne other]
      exact old entry known rfl rfl
  · have deaf : ∀ addr heard, call ≠ .updateNeighbor addr heard :=
      fun addr heard same => hears ⟨addr, heard, same⟩
    obtain ⟨earlier, known, sameAddr, sameTime⟩ := RouteTable.mem_apply_other deaf member
    have unheard : (h.step ⟨nowMs, call⟩).heardAt = h.heardAt := by
      cases call with
      | updateNeighbor addr heard => exact absurd rfl (deaf addr heard)
      | _ => rfl
    rw [unheard]
    exact old earlier known sameAddr sameTime

theorem sound_run {calls : List TimedCall} (timely : Along step Timely h calls)
    (sound : h.Sound) : (h.run calls).Sound :=
  timely.keeps Sound (fun _ _ allowed sound => sound.step allowed) sound

/-- The difference of the clock readings is the age. -/
theorem Sound.sub32_eq_age (sound : h.Sound) (timely : h.Timely timed) {entry : NeighborEntry}
    (member : entry ∈ h.array.table.neighbors) :
    sub32 (timed.nowMs % 2 ^ 32) entry.lastSeenMs = h.age timed.nowMs entry := by
  obtain ⟨stamp, before⟩ := sound.stamped entry member
  have young := timely.2 entry member
  have later := timely.1
  unfold age at young ⊢
  unfold sub32
  rw [stamp]
  omega

end RouteHistory

/-- For every sequence of calls at times that do not decrease, with entries younger than 2^31 ms:
at most sixteen entries are in use, with different addresses; a new neighbour that finds the
table full takes the place of an entry of greatest age and leaves the others as they are; and
`prune_stale` keeps exactly the entries up to the age, in their order. -/
theorem route_table_representation {calls : List TimedCall}
    (timely : Along RouteHistory.step RouteHistory.Timely {} calls) :
    let h := RouteHistory.run {} calls
    h.array.slots.len ≤ maxNeighbors ∧
    (h.array.table.neighbors.map NeighborEntry.addr).Nodup ∧
    (∀ nowMs addr heard, h.Timely ⟨nowMs, .updateNeighbor addr heard⟩ →
      h.array.slots.len = maxNeighbors →
      addr ∉ h.array.table.neighbors.map NeighborEntry.addr →
      ∃ before oldest after, h.array.table.neighbors = before ++ oldest :: after ∧
        (h.step ⟨nowMs, .updateNeighbor addr heard⟩).array.table.neighbors =
          before ++ RouteTable.newEntry (nowMs % 2 ^ 32) addr heard :: after ∧
        ∀ entry ∈ h.array.table.neighbors, h.age nowMs entry ≤ h.age nowMs oldest) ∧
    ∀ nowMs maxAgeMs, h.Timely ⟨nowMs, .pruneStale maxAgeMs⟩ →
      (h.step ⟨nowMs, .pruneStale maxAgeMs⟩).array.table.neighbors =
        h.array.table.neighbors.filter fun entry => decide (h.age nowMs entry ≤ maxAgeMs) := by
  intro h
  have sound : h.Sound := RouteHistory.sound_run timely RouteHistory.sound_start
  have inside : h.array.slots.len ≤ maxNeighbors := h.array.size ▸ h.array.slots.inside
  refine ⟨inside, sound.keyed, fun nowMs addr heard now full unknown => ?_,
    fun nowMs maxAgeMs now => ?_⟩
  · have length : h.array.table.neighbors.length = maxNeighbors :=
      h.array.length_table.trans full
    have some : h.array.table.neighbors ≠ [] := by
      intro none
      rw [none] at length
      cases length
    obtain ⟨before, oldest, after, split, index, greatest⟩ :=
      RouteTable.oldestIndex_spec (nowMs % 2 ^ 32) some
    refine ⟨before, oldest, after, split, ?_, fun entry member => ?_⟩
    · have table : (h.step ⟨nowMs, .updateNeighbor addr heard⟩).array.table =
          h.array.table.updateNeighbor (nowMs % 2 ^ 32) addr heard := h.array.table_apply ..
      have replaced : h.array.table.updateNeighbor (nowMs % 2 ^ 32) addr heard =
          { neighbors := h.array.table.neighbors.set before.length
              (RouteTable.newEntry (nowMs % 2 ^ 32) addr heard) } := by
        unfold RouteTable.updateNeighbor
        rw [if_neg, if_neg (by rw [length]; exact Nat.lt_irrefl _), index]
        intro known
        obtain ⟨entry, member, here⟩ := List.any_eq_true.mp known
        exact unknown (List.mem_map.mpr ⟨entry, member, beq_iff_eq.mp here⟩)
      rw [table, replaced, split]
      simp
    · have older := greatest entry member
      have known : oldest ∈ h.array.table.neighbors :=
        split ▸ List.mem_append_right before List.mem_cons_self
      rw [sound.sub32_eq_age now member, sound.sub32_eq_age now known] at older
      exact older
  · have table : (h.step ⟨nowMs, .pruneStale maxAgeMs⟩).array.table =
        h.array.table.pruneStale (nowMs % 2 ^ 32) maxAgeMs := h.array.table_apply ..
    rw [table]
    refine List.filter_congr fun entry member => ?_
    rw [sound.sub32_eq_age now member]

/-- Seventeen neighbours around the wrap of the clock. -/
theorem route_table_representation_seventeen :
    let calls := (List.range 17).map fun i =>
      TimedCall.mk (2 ^ 32 - 8 + i) (.updateNeighbor (i + 1) {})
    ((RouteHistory.run {} calls).array.table.neighbors.map NeighborEntry.addr).Nodup ∧
      (RouteHistory.run {} calls).array.slots.len = 16 := by
  intro calls
  exact ⟨(route_table_representation (by decide +kernel)).2.1, by decide +kernel⟩

end ForestLink.Mesh
