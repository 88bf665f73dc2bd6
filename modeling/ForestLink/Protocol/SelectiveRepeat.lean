/-
Module: ForestLink.Protocol.SelectiveRepeat
Purpose: The sender half of the firmware's selective-repeat ARQ: a window of
  slots indexed by sequence number modulo the window size, timeout and NACK
  retransmission, and the adaptive retransmit timeout (`selective_repeat.cpp`).
Trusted boundary: none
Main exports: FragmentSlot, SelectiveRepeat, Radio, sendFragment, handleAck,
  handleNack, tick, canSendSequence, snapshotPendingSequences, resetSender
-/
import Mathlib.Data.List.Sort
import Mathlib.Logic.Function.Basic
import ForestLink.Protocol.Packet

namespace ForestLink.Protocol

/-! ## Constants -/

def rtoMinMs : Nat := 200

def rtoMaxMs : Nat := 5000

/-- `UINT16_MAX`, the tag of a slot that holds nothing. -/
def noSeqTag : Nat := 65535

/-! ## State -/

/-- One window slot.  `data` holds the first `len` bytes of the slot's buffer, so
`len == 0` is `data = []`. -/
structure FragmentSlot where
  data : List UInt8 := []
  sendTimeMs : Nat := 0
  seqTag : Nat := noSeqTag
  acked : Bool := false
  sent : Bool := false
  retries : Nat := 0
deriving Repr, DecidableEq

/-- A slot that retransmission and the window bounds take into account. -/
def FragmentSlot.holdsFragment (slot : FragmentSlot) : Bool :=
  slot.sent && !slot.data.isEmpty && slot.seqTag != noSeqTag

/-- Sender state of one `SelectiveRepeat` with an allocated window. -/
structure SelectiveRepeat where
  window : Nat → FragmentSlot := fun _ => {}
  windowSize : Nat := arqWindow
  timeoutMs : Nat := 3000
  baseSeq : Nat := 0
  nextSeq : Nat := 0
  senderFailed : Bool := false
  inFlight : Nat := 0
  srttMs : Nat := 0
  rttvarMs : Nat := 0
  rtoMs : Nat := 0
  rttInitialized : Bool := false
  minRtoFloorMs : Nat := rtoMinMs
  peerAddr : Nat := broadcastAddr

/-- What the sender reaches outside itself: the millisecond clock and the send
callback.  Both act on a state `σ` of the surroundings, so that every call may
answer differently. -/
structure Radio (σ : Type) where
  nowMs : σ → Nat × σ
  send : σ → (dst : Nat) → PacketType → (seq : Nat) → List UInt8 → Int × σ

namespace SelectiveRepeat

variable {σ : Type} (radio : Radio σ)

/-! ## Window bookkeeping -/

/-- `seq % window_size_` -/
def slotIndex (sr : SelectiveRepeat) (seq : Nat) : Nat := seq % sr.windowSize

def slotOf (sr : SelectiveRepeat) (seq : Nat) : FragmentSlot := sr.window (sr.slotIndex seq)

def setSlot (sr : SelectiveRepeat) (index : Nat) (slot : FragmentSlot) : SelectiveRepeat :=
  { sr with window := Function.update sr.window index slot }

/-- Tags of the occupied slots in slot order. -/
def occupiedTags (sr : SelectiveRepeat) : List Nat :=
  (((List.range sr.windowSize).map sr.window).filter FragmentSlot.holdsFragment).map
    FragmentSlot.seqTag

/-- `recompute_sender_bounds` -/
def recomputeSenderBounds (sr : SelectiveRepeat) : SelectiveRepeat :=
  { sr with baseSeq := sr.occupiedTags.min?.getD sr.nextSeq }

/-- `sender_window_full` -/
def senderWindowFull (sr : SelectiveRepeat) : Bool := sr.inFlight ≥ sr.windowSize

/-- `sender_window_used` -/
def senderWindowUsed (sr : SelectiveRepeat) : Nat := sr.inFlight

/-- `has_pending` -/
def hasPending (sr : SelectiveRepeat) : Bool := sr.inFlight > 0

/-- `can_send_sequence` -/
def canSendSequence (sr : SelectiveRepeat) (seq : Nat) : Bool :=
  if sr.windowSize = 0 then false
  else if (sr.slotOf seq).sent then (sr.slotOf seq).seqTag == seq
  else sr.inFlight < sr.windowSize

/-- `contains_sequence` -/
def containsSequence (sr : SelectiveRepeat) (seq : Nat) : Bool :=
  if sr.windowSize = 0 then false
  else (sr.slotOf seq).sent && (sr.slotOf seq).seqTag == seq && !(sr.slotOf seq).data.isEmpty

/-- `get_send_time` -/
def getSendTime (sr : SelectiveRepeat) (seq : Nat) : Nat :=
  if (sr.slotOf seq).sent && (sr.slotOf seq).seqTag == seq then (sr.slotOf seq).sendTimeMs
  else 0

/-- `snapshot_pending_sequences`: at most `max` occupied tags, in ascending order. -/
def snapshotPendingSequences (sr : SelectiveRepeat) (max : Nat) : List Nat :=
  (sr.occupiedTags.take max).insertionSort (· ≤ ·)

/-- `reset_sender`; the peer, the timeouts and the window size stay. -/
def resetSender (sr : SelectiveRepeat) : SelectiveRepeat :=
  { windowSize := sr.windowSize
    timeoutMs := sr.timeoutMs
    minRtoFloorMs := sr.minRtoFloorMs
    peerAddr := sr.peerAddr }

/-! ## Sending -/

/-- `send_fragment`: places the fragment in its slot and transmits it; a refused
transmission takes the slot back. -/
def sendFragment (io : σ) (sr : SelectiveRepeat) (seq : Nat) (data : List UInt8) :
    Int × SelectiveRepeat × σ :=
  if data = [] then (-1, sr, io)
  else if data.length > espnowMaxPayload then (-1, sr, io)
  else if (sr.slotOf seq).sent && (sr.slotOf seq).seqTag == seq then (0, sr, io)
  else if (sr.slotOf seq).sent then (-1, sr, io)
  else if sr.senderWindowFull then (-1, sr, io)
  else
    let clock := radio.nowMs io
    let placed :=
      { sr.setSlot (sr.slotIndex seq)
          { data := data, sendTimeMs := clock.1, seqTag := seq, sent := true } with
        inFlight := sr.inFlight + 1
        nextSeq := if seq ≥ sr.nextSeq then (seq + 1) % 2 ^ 16 else sr.nextSeq }
    let result := radio.send clock.2 sr.peerAddr .data seq data
    if result.1 < 0 then
      let undone :=
        { placed.setSlot (sr.slotIndex seq) {} with
          nextSeq := sr.nextSeq
          inFlight := placed.inFlight - 1 }
      (-1, undone.recomputeSenderBounds, result.2)
    else (0, placed.recomputeSenderBounds, result.2)

/-! ## Acknowledgements -/

/-- `static_cast<int32_t>` -/
def toInt32 (value : Nat) : Int :=
  if value % 2 ^ 32 < 2 ^ 31 then (value % 2 ^ 32 : Nat) else (value % 2 ^ 32 : Nat) - 2 ^ 32

/-- The round-trip estimate of RFC 6298 as `handle_ack` computes it, in 32-bit
arithmetic. -/
def updateRto (sr : SelectiveRepeat) (rtt : Nat) : SelectiveRepeat :=
  let absDelta := (toInt32 (sub32 rtt sr.srttMs)).natAbs
  let srtt := if sr.rttInitialized then (7 * sr.srttMs + rtt) % 2 ^ 32 / 8 else rtt
  let rttvar :=
    if sr.rttInitialized then (3 * sr.rttvarMs + absDelta) % 2 ^ 32 / 4 else rtt / 2
  let raw := (srtt + 4 * rttvar) % 2 ^ 32
  { sr with
    srttMs := srtt
    rttvarMs := rttvar
    rttInitialized := true
    rtoMs := min (max (max raw rtoMinMs) sr.minRtoFloorMs) rtoMaxMs }

/-- `handle_ack`: an ACK of a slot that is not active is ignored; retransmitted
fragments give no round-trip sample. -/
def handleAck (io : σ) (sr : SelectiveRepeat) (seq : Nat) : SelectiveRepeat × σ :=
  let slot := sr.slotOf seq
  if !slot.sent || slot.seqTag != seq || slot.data.isEmpty then (sr, io)
  else
    let sampled :=
      if slot.sent && !slot.acked && slot.retries == 0 then
        let clock := radio.nowMs io
        (sr.updateRto (sub32 clock.1 slot.sendTimeMs), clock.2)
      else (sr, io)
    let cleared :=
      { sampled.1.setSlot (sr.slotIndex seq) {} with
        inFlight := if slot.sent && !slot.acked then sr.inFlight - 1 else sr.inFlight }
    (cleared.recomputeSenderBounds, sampled.2)

/-- `handle_nack`: retransmit an active slot at once. -/
def handleNack (io : σ) (sr : SelectiveRepeat) (seq : Nat) : SelectiveRepeat × σ :=
  let slot := sr.slotOf seq
  if !slot.sent || slot.seqTag != seq || slot.data.isEmpty then (sr, io)
  else if slot.acked then (sr, io)
  else
    let clock := radio.nowMs io
    let result := radio.send clock.2 sr.peerAddr .data seq slot.data
    if result.1 = sendBackpressure then
      (sr.setSlot (sr.slotIndex seq) { slot with sendTimeMs := clock.1 }, result.2)
    else if result.1 < 0 then (sr, result.2)
    else
      let retries := (slot.retries + 1) % 2 ^ 8
      if retries ≥ maxRetries then
        ({ sr.setSlot (sr.slotIndex seq) { slot with retries := retries } with
            senderFailed := true }, result.2)
      else
        (sr.setSlot (sr.slotIndex seq)
          { slot with retries := retries, sendTimeMs := clock.1 }, result.2)

/-! ## Timeouts -/

/-- Backoff of a slot: the base timeout doubled once per retry, in 32-bit
arithmetic, capped. -/
def backoffMs (sr : SelectiveRepeat) (retries : Nat) : Nat :=
  let base := max (if sr.rttInitialized then sr.rtoMs else sr.timeoutMs) sr.minRtoFloorMs
  min (base * 2 ^ retries % 2 ^ 32) rtoMaxMs

/-- The slot loop of `tick` over the remaining slot indices. -/
def tickSlots (now maxSends : Nat) :
    List Nat → σ → SelectiveRepeat → (sentCount : Nat) → Nat × SelectiveRepeat × σ
  | [], io, sr, sentCount => (sentCount, sr, io)
  | index :: rest, io, sr, sentCount =>
      let slot := sr.window index
      if !slot.holdsFragment || slot.acked then tickSlots now maxSends rest io sr sentCount
      else if sub32 now slot.sendTimeMs < sr.backoffMs slot.retries then
        tickSlots now maxSends rest io sr sentCount
      else if slot.retries ≥ maxRetries then tickSlots now maxSends rest io sr sentCount
      else if sentCount ≥ maxSends then (sentCount, sr, io)
      else
        let result := radio.send io sr.peerAddr .data slot.seqTag slot.data
        if result.1 = sendBackpressure then
          (sentCount, sr.setSlot index { slot with sendTimeMs := now }, result.2)
        else if result.1 < 0 then (sentCount, sr, result.2)
        else
          tickSlots now maxSends rest result.2
            (sr.setSlot index
              { slot with retries := (slot.retries + 1) % 2 ^ 8, sendTimeMs := now })
            (sentCount + 1)

/-- `tick`: retransmit timed-out slots, at most `maxSends` of them. -/
def tick (io : σ) (sr : SelectiveRepeat) (maxSends : Nat) : Nat × SelectiveRepeat × σ :=
  let clock := radio.nowMs io
  tickSlots radio clock.1 maxSends (List.range sr.windowSize) clock.2 sr 0

end SelectiveRepeat

end ForestLink.Protocol
