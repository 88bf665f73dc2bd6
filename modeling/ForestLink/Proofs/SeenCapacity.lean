/-
Module: ForestLink.Proofs.SeenCapacity
Purpose: How long the duplicate cache remembers a key: while fewer than 64 newer keys were
  recorded, if no call overwrites a live record out of turn.
Trusted boundary: none
Main exports: SeenHistory.Fair, SeenHistory.Sound, seen_within_capacity,
  recent_key_forgotten
-/
import ForestLink.Lib.Trace
import ForestLink.Mesh.SeenCalls

namespace ForestLink.Mesh

open ForestLink.Lib
open ForestLink.Protocol

namespace SeenHistory

open MeshManager

variable {h : SeenHistory} {call : SeenCall}

/-! ## What a call does -/

theorem step_of_seen (seen : h.seen call = true) :
    h.step call = { h with node := h.atCall call, nowMs := call.nowMs } := by
  unfold step
  rw [if_pos seen]
  unfold SeenHistory.seen alreadySeen at seen
  unfold alreadySeen
  split at seen
  · rename_i hit
    rw [if_pos hit]
  · cases seen

theorem step_of_unseen (unseen : h.seen call = false) :
    h.step call =
      { node := (h.atCall call).recordSeen call.packet call.reading
        records := h.records.write ((h.atCall call).seenSlot call.reading) call
        nowMs := call.nowMs } := by
  unfold step
  rw [if_neg (by rw [unseen]; exact Bool.false_ne_true)]
  unfold SeenHistory.seen alreadySeen at unseen
  unfold alreadySeen
  split at unseen
  · cases unseen
  · rename_i miss
    rw [if_neg miss]
    rfl

/-- The slot that a record is written to: the first expired one, or the one in turn. -/
theorem seenSlot_cases (m : MeshManager) (now : Nat) :
    (∃ entry, m.seenCache[m.seenSlot now]? = some entry ∧ 10000 < sub32 now entry.timeMs) ∨
      (∀ entry ∈ m.seenCache, sub32 now entry.timeMs ≤ 10000) ∧ m.seenSlot now = m.seenIdx := by
  unfold seenSlot
  cases found : m.seenCache.findIdx? fun entry => decide (sub32 now entry.timeMs > 10000) with
  | none =>
      refine .inr ⟨fun entry member => ?_, rfl⟩
      have young := List.findIdx?_eq_none_iff.mp found entry member
      exact Nat.le_of_not_lt (of_decide_eq_false young)
  | some slot =>
      obtain ⟨inside, expired, _⟩ := List.findIdx?_eq_some_iff_getElem.mp found
      exact .inl ⟨m.seenCache[slot], List.getElem?_eq_getElem inside, of_decide_eq_true expired⟩

/-! ## Conditions and invariant -/

/-- The call is not made before the last one. -/
def Timely (h : SeenHistory) (call : SeenCall) : Prop := h.nowMs ≤ call.nowMs

/-- If the call records its key and no slot has expired, the slot in turn is blank, or its record
is 10 s old, the least recent of all, or not the last one of its key. -/
def Fair (h : SeenHistory) (call : SeenCall) : Prop :=
  h.seen call = false →
    (∀ entry ∈ h.node.seenCache, sub32 call.reading entry.timeMs ≤ 10000) →
    ∀ record ∈ h.records.get? h.node.seenIdx,
      10000 ≤ call.nowMs - record.value.nowMs ∨ h.records.LeastRecent record ∨
        ∃ cell ∈ h.records.cells, ∃ other ∈ cell,
          other.value.key = record.value.key ∧ record.number < other.number

instance (h : SeenHistory) (call : SeenCall) : Decidable (h.Timely call) :=
  inferInstanceAs (Decidable (_ ≤ _))

instance (h : SeenHistory) (call : SeenCall) : Decidable (h.Fair call) :=
  inferInstanceAs (Decidable (_ = false → _))

/-- The cache shows the records, and later ones have later times. -/
structure Sound (h : SeenHistory) : Prop where
  distinct : h.records.Distinct
  size : h.records.cells.length = seenCacheSize
  cacheSize : h.node.seenCache.length = seenCacheSize
  inTurn : h.node.seenIdx < seenCacheSize
  shows : ∀ i, ∀ record ∈ h.records.get? i,
    h.node.seenCache[i]? = some (seenEntry record.value.packet record.value.reading)
  ordered : ∀ i, ∀ record ∈ h.records.get? i, ∀ j, ∀ other ∈ h.records.get? j,
    record.number ≤ other.number → record.value.nowMs ≤ other.value.nowMs
  past : ∀ i, ∀ record ∈ h.records.get? i, record.value.nowMs ≤ h.nowMs

theorem sound_boot (myAddr : Nat) (blockedPeers : List Nat)
    (subscribedTopics : List (List UInt8)) (ledEnabled : Bool) :
    (boot myAddr blockedPeers subscribedTopics ledEnabled).Sound := by
  have blank : ∀ i record,
      record ∉ (boot myAddr blockedPeers subscribedTopics ledEnabled).records.get? i := by
    intro i record here
    have none : (boot myAddr blockedPeers subscribedTopics ledEnabled).records.get? i = none :=
      Recency.get?_blank seenCacheSize i
    rw [none] at here
    exact Option.not_mem_none record here
  exact
    { distinct := Recency.distinct_blank seenCacheSize
      size := List.length_replicate
      cacheSize := List.length_replicate
      inTurn := (by decide : 0 < seenCacheSize)
      shows := fun i record here => absurd here (blank i record)
      ordered := fun i record here => absurd here (blank i record)
      past := fun i record here => absurd here (blank i record) }

theorem Sound.seenSlot_lt (sound : h.Sound) (now : Nat) :
    h.node.seenSlot now < seenCacheSize := by
  rcases seenSlot_cases h.node now with ⟨entry, found, _⟩ | ⟨_, turn⟩
  · rw [← sound.cacheSize]
    exact (List.getElem?_eq_some_iff.mp found).1
  · rw [turn]
    exact sound.inTurn

theorem Sound.step (sound : h.Sound) (timely : h.Timely call) : (h.step call).Sound := by
  cases seen : h.seen call with
  | true =>
      rw [step_of_seen seen]
      exact
        { distinct := sound.distinct
          size := sound.size
          cacheSize := sound.cacheSize
          inTurn := sound.inTurn
          shows := sound.shows
          ordered := sound.ordered
          past := fun i record here => (sound.past i record here).trans timely }
  | false =>
      rw [step_of_unseen seen]
      have inside := sound.seenSlot_lt call.reading
      constructor
      · exact sound.distinct.write _ _
      · exact (List.length_set ..).trans sound.size
      · exact (List.length_set ..).trans sound.cacheSize
      · change (if _ then (h.node.seenIdx + 1) % seenCacheSize else h.node.seenIdx) < seenCacheSize
        split
        · exact Nat.mod_lt _ (by decide)
        · exact sound.inTurn
      · intro i record here
        rcases Recency.get?_write here with ⟨rfl, rfl⟩ | ⟨other, old⟩
        · exact List.getElem?_set_self (sound.cacheSize.symm ▸ inside)
        · exact (List.getElem?_set_ne (Ne.symm other)).trans (sound.shows i record old)
      · intro i record here j other there order
        rcases Recency.get?_write here with ⟨_, rfl⟩ | ⟨_, old⟩
        · rcases Recency.get?_write there with ⟨_, rfl⟩ | ⟨_, otherOld⟩
          · exact Nat.le_refl _
          · exact absurd order (Nat.not_le_of_lt
              (Nat.lt_succ_of_le (sound.distinct.made j other otherOld)))
        · rcases Recency.get?_write there with ⟨_, rfl⟩ | ⟨_, otherOld⟩
          · exact (sound.past i record old).trans timely
          · exact sound.ordered i record old j other otherOld order
      · intro i record here
        rcases Recency.get?_write here with ⟨_, rfl⟩ | ⟨_, old⟩
        · exact Nat.le_refl _
        · exact (sound.past i record old).trans timely

/-! ## What is remembered -/

/-- A record of the key that is no older than the one with this number and time. -/
structure Covers (key : Nat × Nat × Nat × Nat) (first time : Nat) (record : Stamped SeenCall) :
    Prop where
  key : record.value.key = key
  number : first ≤ record.number
  time : time ≤ record.value.nowMs

/-- Such a record is in the cache. -/
def Remembers (h : SeenHistory) (key : Nat × Nat × Nat × Nat) (first time : Nat) : Prop :=
  ∃ i, ∃ record ∈ h.records.get? i, Covers key first time record

variable {key : Nat × Nat × Nat × Nat} {first time : Nat}

/-- A fair call forgets a record only when 10 s have passed, or 64 records were made. -/
theorem Sound.remembers_step (sound : h.Sound) (timely : h.Timely call) (fair : h.Fair call)
    (here : h.Remembers key first time) :
    (h.step call).Remembers key first time ∨
      first + seenCacheSize ≤ (h.step call).records.count ∨ time + 10000 ≤ call.nowMs := by
  cases seen : h.seen call with
  | true =>
      rw [step_of_seen seen]
      exact .inl here
  | false =>
      rw [step_of_unseen seen]
      by_cases old : time + 10000 ≤ call.nowMs
      · exact .inr (.inr old)
      have young : ∀ record : Stamped SeenCall, Covers key first time record →
          call.nowMs - record.value.nowMs < 10000 := by
        intro record covers
        have := covers.time
        omega
      rw [← sound.size]
      refine (sound.distinct.survives ((h.atCall call).seenSlot call.reading) call here
        (fun _ covers => covers.number) ?_).imp id .inl
      intro record found covers
      rcases seenSlot_cases h.node call.reading with ⟨entry, shown, expired⟩ | ⟨live, turn⟩
      · -- An expired slot: its record is older than 10 s.
        have same := Option.some.inj (shown.symm.trans (sound.shows _ record found))
        have past := (sound.past _ record found).trans timely
        have late := young record covers
        rw [same] at expired
        change 10000 < sub32 (call.nowMs % 2 ^ 32) (record.value.nowMs % 2 ^ 32) at expired
        unfold sub32 at expired
        omega
      · have inTurn : record ∈ h.records.get? h.node.seenIdx := turn ▸ found
        rcases fair seen live record inTurn with
          late | least | ⟨_, member, other, rfl, same, later⟩
        · exact absurd (young record covers) (Nat.not_lt_of_le late)
        · exact .inl least
        · obtain ⟨j, cell⟩ := List.mem_iff_getElem?.mp member
          have there : other ∈ h.records.get? j := Recency.get?_eq_some.mpr cell
          refine .inr ⟨j, ?_, other, there, ?_⟩
          · rintro rfl
            have one : record = other := Option.some.inj (found.symm.trans there)
            exact absurd later (one ▸ Nat.lt_irrefl _)
          · exact
              { key := same.trans covers.key
                number := covers.number.trans (Nat.le_of_lt later)
                time := covers.time.trans
                  (sound.ordered _ record found j other there (Nat.le_of_lt later)) }

theorem count_le_step (h : SeenHistory) (call : SeenCall) :
    h.records.count ≤ (h.step call).records.count := by
  unfold step
  dsimp only
  split
  · exact Nat.le_refl _
  · exact Nat.le_succ _

/-- Over a run of fair calls. -/
theorem Sound.remembers_run (sound : h.Sound) {calls : List SeenCall}
    (allowed : Along SeenHistory.step (fun h call => h.Timely call ∧ h.Fair call) h calls)
    (here : h.Remembers key first time) :
    (h.run calls).Sound ∧ ((h.run calls).Remembers key first time ∨
      first + seenCacheSize ≤ (h.run calls).records.count ∨
      time + 10000 ≤ (h.run calls).nowMs) := by
  apply allowed.keeps (fun h => h.Sound ∧ (h.Remembers key first time ∨
    first + seenCacheSize ≤ h.records.count ∨ time + 10000 ≤ h.nowMs))
  · rintro h call ⟨timely, fair⟩ ⟨sound, known | full | late⟩
    · exact ⟨sound.step timely, sound.remembers_step timely fair known⟩
    · exact ⟨sound.step timely, .inr (.inl (full.trans (count_le_step h call)))⟩
    · exact ⟨sound.step timely, .inr (.inr (late.trans timely))⟩
  · exact ⟨sound, .inl here⟩

/-- What is remembered and young enough is reported as seen. -/
theorem Sound.seen_of_remembers (sound : h.Sound) (timely : h.Timely call)
    (here : h.Remembers call.key first time) (young : call.nowMs - time < call.window)
    (window : call.window ≤ 10000) : h.seen call = true := by
  obtain ⟨i, record, found, covers⟩ := here
  have shown := sound.shows i record found
  have past := (sound.past i record found).trans timely
  have since := covers.time
  have hit : (h.node.seenCache.any fun entry =>
      SeenEntry.matches entry call.packet call.reading call.window) = true := by
    refine List.any_eq_true.mpr ⟨_, List.mem_of_getElem? shown, ?_⟩
    have fresh : sub32 call.reading record.value.reading < call.window := by
      unfold sub32 SeenCall.reading
      omega
    have same := covers.key
    unfold SeenCall.key at same
    obtain ⟨src, dst, type, seq⟩ := by simpa only [Prod.mk.injEq] using same
    unfold SeenEntry.matches seenEntry
    dsimp only
    rw [src, dst, type, seq]
    simpa using fresh
  unfold seen alreadySeen
  exact congrArg Prod.fst (if_pos hit)

/-- The record of a call that was not seen before. -/
theorem Sound.remembers_new (sound : h.Sound) (unseen : h.seen call = false) :
    (h.step call).Remembers call.key (h.step call).records.count call.nowMs := by
  rw [step_of_unseen unseen]
  have inside : h.node.seenSlot call.reading < h.records.cells.length :=
    sound.size.symm ▸ sound.seenSlot_lt call.reading
  exact ⟨h.node.seenSlot call.reading, _, Recency.get?_write_self inside,
    rfl, Nat.le_refl _, Nat.le_refl _⟩

end SeenHistory

open SeenHistory in
/-- For every sequence of calls at times that do not decrease, in which no call overwrites a live
record out of turn: a key that was recorded at some time is reported as seen by every later call
within its window, of at most 10 s, if fewer than 64 keys were recorded in between. -/
theorem seen_within_capacity (myAddr : Nat) (blockedPeers : List Nat)
    (subscribedTopics : List (List UInt8)) (ledEnabled : Bool) (before between : List SeenCall)
    (call later : SeenCall) :
    let h := boot myAddr blockedPeers subscribedTopics ledEnabled
    Along step (fun h call => h.Timely call ∧ h.Fair call) h (before ++ call :: between) →
    (h.run before).seen call = false →
    (h.run (before ++ call :: between)).Timely later →
    later.key = call.key → later.nowMs - call.nowMs < later.window → later.window ≤ 10000 →
    (h.run (before ++ call :: between)).records.count <
      (h.run (before ++ [call])).records.count + seenCacheSize →
    (h.run (before ++ call :: between)).seen later = true := by
  intro h allowed unseen timely same young window fewer
  obtain ⟨first, now, rest⟩ := Along.append.mp allowed
  have start : (h.run before).Sound :=
    first.keeps Sound (fun _ _ both sound => sound.step both.1) (sound_boot ..)
  have through : h.run (before ++ call :: between) = ((h.run before).step call).run between :=
    List.foldl_append
  have recorded : h.run (before ++ [call]) = (h.run before).step call := List.foldl_append
  rw [through] at timely fewer ⊢
  rw [recorded] at fewer
  obtain ⟨sound, known | full | late⟩ :=
    (start.step now.1).remembers_run rest (start.remembers_new unseen)
  · exact sound.seen_of_remembers timely (same ▸ known) young window
  · exact absurd fewer (Nat.not_lt_of_le full)
  · have reached := late.trans timely
    omega

/-- A call with a sequence number of its own. -/
def probe (nowMs seqNum : Nat) : SeenCall where
  nowMs := nowMs
  packet := { header := { srcAddr := 1, dstAddr := 2, seqNum := seqNum } }
  window := 10000

/-- Two keys recorded and asked for again after another node's key. -/
theorem seen_within_capacity_three_calls :
    let h := SeenHistory.boot 1 [] [] false
    (h.run ([probe 20000 7] ++ probe 20001 8 :: [probe 20002 9])).seen (probe 30000 8) = true :=
  seen_within_capacity 1 [] [] false [probe 20000 7] [probe 20002 9] (probe 20001 8)
    (probe 30000 8) (by decide +kernel) (by decide +kernel) (by decide +kernel) rfl (by decide)
    (by decide) (by decide +kernel)

/-- Slots 0 to 2 and the two last ones expire together.  They are filled from slot 0 on, with
slot 62 in turn, and the record after that takes the slot of a key that is 5 ms old. -/
theorem recent_key_forgotten :
    let h := SeenHistory.boot 1 [] [] false
    let before := (List.range 3).map (probe 5) ++ (List.range' 3 59).map (probe 100)
    let between := (List.range' 101 4).map (probe 10050) ++ [probe 10055 105]
    let after := h.run (before ++ probe 10050 100 :: between)
    Along SeenHistory.step SeenHistory.Timely h
        (before ++ probe 10050 100 :: between ++ [probe 10056 100]) ∧
      (h.run before).seen (probe 10050 100) = false ∧
      after.records.count = (h.run (before ++ [probe 10050 100])).records.count + 5 ∧
      after.seen (probe 10056 100) = false := by
  decide +kernel

end ForestLink.Mesh
