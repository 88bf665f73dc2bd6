/-
Module: ForestLink.Cloud.SelectiveRepeat
Purpose: The cloud's receiver-side selective repeat bookkeeping
  (`cloud-admin/internal/transfer/protocol.go`).
Trusted boundary: none
Main exports: SelectiveRepeat, SelectiveRepeat.onChunkReceived,
  SelectiveRepeat.checkTimeouts, SelectiveRepeat.checkStall,
  SelectiveRepeat.buildFilteredStallNacks
-/
import Mathlib.Logic.Function.Basic
import ForestLink.Lib.Bitmap

namespace ForestLink.Cloud

open ForestLink.Lib

/-!
Clock readings are `UnixMilli() / 1000.0` in the source; the model keeps them as
exact milliseconds, so the cooldowns `4.0` and `8.0` seconds are `4000` and
`8000`.
-/

/-- `SelectiveRepeat`; `bitmap` is `none` before `StartSession`. -/
structure SelectiveRepeat where
  windowSize : Nat
  timeoutSec : Nat
  expectedBase : Nat := 0
  bitmap : Option Bitmap := none
  totalChunks : Nat := 0
  lastNackTime : Nat → Option Int := fun _ => none
  nackCount : Nat := 0

/-- `NewSelectiveRepeat` -/
def newSelectiveRepeat (windowSize timeoutSec : Nat) : SelectiveRepeat where
  windowSize := windowSize
  timeoutSec := timeoutSec

namespace SelectiveRepeat

/-- `StartSession` -/
def startSession (sr : SelectiveRepeat) (totalChunks : Nat) : SelectiveRepeat :=
  { sr with
    totalChunks := totalChunks
    bitmap := some (Bitmap.zeros totalChunks)
    expectedBase := 0
    lastNackTime := fun _ => none
    nackCount := 0 }

/-- `isReceived`; `StartSession` sizes the bitmap for every index below
`totalChunks`. -/
def isReceived (sr : SelectiveRepeat) (seq : Nat) : Bool :=
  seq < sr.totalChunks && (((sr.bitmap.getD []).test? seq).getD false)

/-- `markReceived` -/
def markReceived (sr : SelectiveRepeat) (seq : Nat) : SelectiveRepeat :=
  if seq < sr.totalChunks then
    { sr with bitmap := sr.bitmap.map fun bits => (bits.set? seq).getD bits }
  else sr

/-- The loop `for expectedBase < totalChunks && isReceived(expectedBase)`, with
the number of chunks above the base as its bound. -/
def advanceBase (sr : SelectiveRepeat) : Nat → SelectiveRepeat
  | 0 => sr
  | fuel + 1 =>
      if sr.expectedBase < sr.totalChunks ∧ sr.isReceived sr.expectedBase = true then
        advanceBase { sr with expectedBase := sr.expectedBase + 1 } fuel
      else sr

/-- `OnChunkReceived`: the state after the call and the sequence number passed to
`AckCallback("ACK", seq)`. -/
def onChunkReceived (sr : SelectiveRepeat) (seq : Nat) : SelectiveRepeat × Option Nat :=
  if sr.totalChunks ≤ seq then (sr, none)
  else
    let marked := sr.markReceived seq
    (marked.advanceBase (marked.totalChunks - marked.expectedBase), some seq)

/-- `sr.lastNACKTime[seq] = now` -/
def stampNack (sr : SelectiveRepeat) (seq : Nat) (now : Int) : SelectiveRepeat :=
  { sr with lastNackTime := Function.update sr.lastNackTime seq (some now) }

/-- The cooldown test shared by both NACK loops. -/
def coolingDown (sr : SelectiveRepeat) (seq : Nat) (now cooldown : Int) : Bool :=
  match sr.lastNackTime seq with
  | some last => now - last < cooldown
  | none => false

/-- The scan of `CheckTimeouts` over the remaining sequence numbers; `left` is
how many NACKs the tick may still send. -/
def scanTimeouts (sr : SelectiveRepeat) (now : Int) (left : Nat) :
    List Nat → SelectiveRepeat × List Nat
  | [] => (sr, [])
  | seq :: rest =>
      if sr.isReceived seq then sr.scanTimeouts now left rest
      else if sr.coolingDown seq now 4000 then sr.scanTimeouts now left rest
      else
        let sent := { sr.stampNack seq now with nackCount := sr.nackCount + 1 }
        if left ≤ 1 then (sent, [seq])
        else
          let (after, nacks) := sent.scanTimeouts now (left - 1) rest
          (after, seq :: nacks)

/-- `CheckTimeouts`: the state after the call and the sequence numbers passed to
`AckCallback("NACK", seq)`, in order. -/
def checkTimeouts (sr : SelectiveRepeat) (maxPerTick : Int) (now : Int) :
    SelectiveRepeat × List Nat :=
  if sr.bitmap.isNone then (sr, [])
  else
    let limit := if maxPerTick ≤ 0 then 8 else maxPerTick.toNat
    let stop := min (min (sr.expectedBase + sr.windowSize) sr.totalChunks)
      (sr.expectedBase + 64)
    sr.scanTimeouts now limit
      ((List.range (stop - sr.expectedBase)).map (sr.expectedBase + ·))

/-- `CheckStall` -/
def checkStall (sr : SelectiveRepeat) (lastChunkTime stallMs now : Int) : List Nat :=
  if sr.bitmap.isNone then []
  else if now - lastChunkTime < stallMs then []
  else
    (((List.range (sr.totalChunks - sr.expectedBase)).map (sr.expectedBase + ·)).filter
      fun seq => !sr.isReceived seq).take 32

/-- The scan of `BuildFilteredStallNACKs`; `left` is the room in `missing`. -/
def scanStalled (sr : SelectiveRepeat) (now cooldown : Int) :
    Nat → List Nat → SelectiveRepeat × List Nat
  | 0, _ => (sr, [])
  | _, [] => (sr, [])
  | left + 1, seq :: rest =>
      if sr.isReceived seq then sr.scanStalled now cooldown (left + 1) rest
      else if sr.coolingDown seq now cooldown then sr.scanStalled now cooldown (left + 1) rest
      else
        let (after, missing) := (sr.stampNack seq now).scanStalled now cooldown left rest
        (after, seq :: missing)

/-- `BuildFilteredStallNACKs`: the state after the call and the list returned. -/
def buildFilteredStallNacks (sr : SelectiveRepeat) (maxGaps maxProbeAhead cooldown : Int)
    (now : Int) : SelectiveRepeat × List Nat :=
  if sr.bitmap.isNone ∨ sr.totalChunks = 0 then (sr, [])
  else
    let gaps := if maxGaps ≤ 0 then 8 else maxGaps.toNat
    let ahead := if maxProbeAhead ≤ 0 then 64 else maxProbeAhead.toNat
    let perSeq := if cooldown ≤ 0 then 8000 else cooldown
    let stop := min (sr.expectedBase + ahead) sr.totalChunks
    sr.scanStalled now perSeq gaps
      ((List.range (stop - sr.expectedBase)).map (sr.expectedBase + ·))

/-- `IsComplete` -/
def isComplete (sr : SelectiveRepeat) : Bool := sr.totalChunks ≤ sr.expectedBase

/-! ## Facts -/

/-- The chunks marked received. -/
def Received (sr : SelectiveRepeat) (seq : Nat) : Prop := sr.isReceived seq = true

/-- A started session: the bitmap has room for every chunk, everything below the
base is received, and the base itself is not. -/
structure Started (sr : SelectiveRepeat) : Prop where
  sized : ∃ bits, sr.bitmap = some bits ∧ bits.length = (sr.totalChunks + 7) / 8
  belowBase : ∀ seq < sr.expectedBase, sr.Received seq
  atBase : ¬ sr.Received sr.expectedBase

theorem not_received_of_le {sr : SelectiveRepeat} {seq : Nat} (beyond : sr.totalChunks ≤ seq) :
    ¬ sr.Received seq := by
  simp only [Received, isReceived, Bool.and_eq_true, decide_eq_true_eq, not_and]
  intro inside
  omega

theorem not_received_startSession (sr : SelectiveRepeat) (totalChunks seq : Nat) :
    ¬ (sr.startSession totalChunks).Received seq := by
  intro received
  simp only [Received, isReceived, startSession, Option.getD_some, Bool.and_eq_true] at received
  have marked : (Bitmap.zeros totalChunks).Marked seq := by
    cases read : (Bitmap.zeros totalChunks).test? seq with
    | none => simp [read] at received
    | some flag =>
        rw [read] at received
        rw [Bitmap.Marked, read]
        exact congrArg some received.2
  exact Bitmap.not_marked_zeros totalChunks seq marked

theorem started_startSession (sr : SelectiveRepeat) (totalChunks : Nat) :
    (sr.startSession totalChunks).Started where
  sized := ⟨_, rfl, Bitmap.length_zeros totalChunks⟩
  belowBase := fun seq below => absurd below (Nat.not_lt_zero seq)
  atBase := not_received_startSession sr totalChunks 0

/-- On a sized bitmap being received is being marked. -/
theorem received_iff {sr : SelectiveRepeat} {bits : Bitmap} (isBitmap : sr.bitmap = some bits)
    (seq : Nat) : sr.Received seq ↔ seq < sr.totalChunks ∧ bits.Marked seq := by
  simp only [Received, isReceived, isBitmap, Option.getD_some, Bool.and_eq_true,
    decide_eq_true_eq, Bitmap.Marked]
  cases bits.test? seq <;> simp

private theorem advanceBase_spec (fuel : Nat) (sr : SelectiveRepeat)
    (enough : sr.totalChunks ≤ sr.expectedBase + fuel)
    (belowBase : ∀ seq < sr.expectedBase, sr.Received seq) :
    let after := sr.advanceBase fuel
    after.bitmap = sr.bitmap ∧ after.totalChunks = sr.totalChunks ∧
      after.lastNackTime = sr.lastNackTime ∧ after.nackCount = sr.nackCount ∧
      after.windowSize = sr.windowSize ∧
      (∀ seq < after.expectedBase, sr.Received seq) ∧ ¬ sr.Received after.expectedBase := by
  induction fuel generalizing sr with
  | zero =>
      exact ⟨rfl, rfl, rfl, rfl, rfl, belowBase, not_received_of_le enough⟩
  | succ fuel inductionHypothesis =>
      rw [advanceBase]
      split
      · rename_i more
        have next := inductionHypothesis { sr with expectedBase := sr.expectedBase + 1 }
          (by
            show sr.totalChunks ≤ sr.expectedBase + 1 + fuel
            omega)
          (by
            intro seq below
            have below : seq < sr.expectedBase + 1 := below
            rcases Nat.lt_succ_iff_lt_or_eq.mp below with earlier | atBase
            · exact belowBase seq earlier
            · rw [atBase]
              exact more.2)
        exact next
      · rename_i stopped
        refine ⟨rfl, rfl, rfl, rfl, rfl, belowBase, ?_⟩
        by_cases inside : sr.expectedBase < sr.totalChunks
        · intro received
          exact stopped ⟨inside, received⟩
        · exact not_received_of_le (by omega)

/-- Receiving a chunk of the session marks exactly that chunk and moves the base
to the least chunk still missing. -/
theorem onChunkReceived_spec {sr : SelectiveRepeat} (started : sr.Started) {seq : Nat}
    (inside : seq < sr.totalChunks) :
    (sr.onChunkReceived seq).1.Started ∧
      (sr.onChunkReceived seq).1.totalChunks = sr.totalChunks ∧
      ∀ other, (sr.onChunkReceived seq).1.Received other ↔
        other = seq ∨ sr.Received other := by
  obtain ⟨bits, isBitmap, sized⟩ := started.sized
  obtain ⟨after, written, afterSized, marks⟩ :=
    Bitmap.set?_spec (Bitmap.div_lt_length sized inside)
  have markedEq : sr.markReceived seq = { sr with bitmap := some after } := by
    simp [markReceived, inside, isBitmap, written]
  have markedReceived : ∀ other, Received { sr with bitmap := some after } other ↔
      other = seq ∨ sr.Received other := by
    intro other
    have afterIff : Received { sr with bitmap := some after } other ↔
        other < sr.totalChunks ∧ after.Marked other := received_iff rfl other
    rw [afterIff, received_iff isBitmap, marks]
    constructor
    · rintro ⟨small, isSeq | before⟩
      · exact .inl isSeq
      · exact .inr ⟨small, before⟩
    · rintro (rfl | ⟨small, before⟩)
      · exact ⟨inside, .inl rfl⟩
      · exact ⟨small, .inr before⟩
  obtain ⟨bitmapEq, totalEq, _, _, _, belowBase, atBase⟩ :=
    advanceBase_spec (sr.totalChunks - sr.expectedBase) { sr with bitmap := some after }
      (by
        show sr.totalChunks ≤ sr.expectedBase + (sr.totalChunks - sr.expectedBase)
        omega)
      (fun other below => (markedReceived other).mpr (.inr (started.belowBase other below)))
  have resultEq : (sr.onChunkReceived seq).1 =
      advanceBase { sr with bitmap := some after } (sr.totalChunks - sr.expectedBase) := by
    simp [onChunkReceived, Nat.not_le.mpr inside, markedEq]
  rw [resultEq]
  have receivedEq : ∀ other,
      (advanceBase { sr with bitmap := some after }
        (sr.totalChunks - sr.expectedBase)).Received other ↔
      Received { sr with bitmap := some after } other := by
    intro other
    simp only [Received, isReceived, bitmapEq, totalEq]
  refine ⟨⟨⟨after, bitmapEq, ?_⟩, ?_, ?_⟩, totalEq, ?_⟩
  · rw [totalEq]
    exact afterSized.trans sized
  · intro other below
    exact (receivedEq other).mpr (belowBase other below)
  · rw [receivedEq]
    exact atBase
  · intro other
    rw [receivedEq, markedReceived]

/-- NACK bookkeeping touches neither the bitmap nor the base. -/
structure SameMarks (before after : SelectiveRepeat) : Prop where
  bitmap : after.bitmap = before.bitmap
  totalChunks : after.totalChunks = before.totalChunks
  expectedBase : after.expectedBase = before.expectedBase

namespace SameMarks

theorem received {before after : SelectiveRepeat} (same : SameMarks before after) (seq : Nat) :
    after.Received seq ↔ before.Received seq := by
  simp only [Received, isReceived, same.bitmap, same.totalChunks]

theorem started {before after : SelectiveRepeat} (same : SameMarks before after)
    (started : before.Started) : after.Started where
  sized := by
    rw [same.bitmap, same.totalChunks]
    exact started.sized
  belowBase := by
    intro seq below
    rw [same.received]
    exact started.belowBase seq (same.expectedBase ▸ below)
  atBase := by
    rw [same.received, same.expectedBase]
    exact started.atBase

end SameMarks

theorem scanTimeouts_spec (sr : SelectiveRepeat) (now : Int) (left : Nat) (seqs : List Nat) :
    SameMarks sr (sr.scanTimeouts now left seqs).1 ∧
      ∀ seq ∈ (sr.scanTimeouts now left seqs).2, ¬ sr.Received seq := by
  induction seqs generalizing sr left with
  | nil => exact ⟨⟨rfl, rfl, rfl⟩, by simp [scanTimeouts]⟩
  | cons seq rest inductionHypothesis =>
      rw [scanTimeouts]
      split
      · exact inductionHypothesis sr left
      · rename_i missing
        split
        · exact inductionHypothesis sr left
        · split
          · refine ⟨⟨rfl, rfl, rfl⟩, ?_⟩
            intro other member
            rw [List.mem_singleton.mp member]
            exact missing
          · obtain ⟨same, sound⟩ := inductionHypothesis
              { sr.stampNack seq now with nackCount := sr.nackCount + 1 } (left - 1)
            refine ⟨⟨same.bitmap, same.totalChunks, same.expectedBase⟩, ?_⟩
            intro other member
            rcases List.mem_cons.mp member with rfl | later
            · exact missing
            · exact sound other later

theorem scanStalled_spec (sr : SelectiveRepeat) (now cooldown : Int) (left : Nat)
    (seqs : List Nat) :
    SameMarks sr (sr.scanStalled now cooldown left seqs).1 ∧
      ∀ seq ∈ (sr.scanStalled now cooldown left seqs).2, ¬ sr.Received seq := by
  induction seqs generalizing sr left with
  | nil => cases left <;> exact ⟨⟨rfl, rfl, rfl⟩, by simp [scanStalled]⟩
  | cons seq rest inductionHypothesis =>
      cases left with
      | zero => exact ⟨⟨rfl, rfl, rfl⟩, by simp [scanStalled]⟩
      | succ left =>
          rw [scanStalled]
          split
          · exact inductionHypothesis sr (left + 1)
          · rename_i missing
            split
            · exact inductionHypothesis sr (left + 1)
            · obtain ⟨same, sound⟩ := inductionHypothesis (sr.stampNack seq now) left
              refine ⟨⟨same.bitmap, same.totalChunks, same.expectedBase⟩, ?_⟩
              intro other member
              rcases List.mem_cons.mp member with rfl | later
              · exact missing
              · exact sound other later

/-- `CheckTimeouts` NACKs only chunks that are not marked received. -/
theorem checkTimeouts_spec (sr : SelectiveRepeat) (maxPerTick now : Int) :
    SameMarks sr (sr.checkTimeouts maxPerTick now).1 ∧
      ∀ seq ∈ (sr.checkTimeouts maxPerTick now).2, ¬ sr.Received seq := by
  rw [checkTimeouts]
  split
  · exact ⟨⟨rfl, rfl, rfl⟩, by simp⟩
  · exact scanTimeouts_spec sr now _ _

/-- `BuildFilteredStallNACKs` selects only chunks that are not marked received. -/
theorem buildFilteredStallNacks_spec (sr : SelectiveRepeat)
    (maxGaps maxProbeAhead cooldown now : Int) :
    SameMarks sr (sr.buildFilteredStallNacks maxGaps maxProbeAhead cooldown now).1 ∧
      ∀ seq ∈ (sr.buildFilteredStallNacks maxGaps maxProbeAhead cooldown now).2,
        ¬ sr.Received seq := by
  rw [buildFilteredStallNacks]
  split
  · exact ⟨⟨rfl, rfl, rfl⟩, by simp⟩
  · exact scanStalled_spec sr now _ _ _

end SelectiveRepeat

end ForestLink.Cloud
