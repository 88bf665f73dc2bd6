/-
Module: ForestLink.Proofs.UartFraming
Purpose: The parser of the serial port inverts the encoder, stays inside its buffer on every
  stream, and finds a frame behind noise exactly when its search for the sync pair is in step.
Trusted boundary: none
Main exports: FrameParser.Cleared, FrameParser.Sound, FrameParser.feed_frame,
  framing_faithful, resync_iff
-/
import Mathlib.Data.List.DropRight
import ForestLink.Uart.Frames

namespace ForestLink.Uart

open ForestLink.Lib
open ForestLink.Protocol

namespace FrameParser

variable {p : FrameParser}

/-! ## What the parser keeps -/

/-- In SYNC1, with nothing left of a frame. -/
structure Cleared (p : FrameParser) : Prop where
  state : p.state = .sync1
  cmd : p.frameCmd = 0
  len : p.frameLen = 0
  idx : p.payloadIdx = 0

/-- What holds of the parser behind any bytes. -/
structure Sound (p : FrameParser) : Prop where
  searching : p.state = .sync1 ∨ p.state = .sync2 → p.frameCmd = 0 ∧ p.frameLen = 0
  lowByte : p.state = .lenHi → p.frameLen < 2 ^ 8
  idle : p.state ≠ .payload → p.payloadIdx = 0
  filling : p.state = .payload → p.payloadIdx < p.frameLen ∧ p.frameLen ≤ payloadBufSize

theorem cleared_resetParser (p : FrameParser) : p.resetParser.Cleared := ⟨rfl, rfl, rfl, rfl⟩

theorem cleared_new : Cleared {} := ⟨rfl, rfl, rfl, rfl⟩

theorem Cleared.sound (cleared : p.Cleared) : p.Sound where
  searching _ := ⟨cleared.cmd, cleared.len⟩
  lowByte there := by simp [cleared.state] at there
  idle _ := cleared.idx
  filling there := by simp [cleared.state] at there

theorem Sound.cleared (sound : p.Sound) (searching : p.state = .sync1) : p.Cleared where
  state := searching
  cmd := (sound.searching (.inl searching)).1
  len := (sound.searching (.inl searching)).2
  idx := sound.idle (by simp [searching])

/-- The two length bytes as a number. -/
theorem announced_eq {low : Nat} (small : low < 2 ^ 8) (high : UInt8) :
    low ||| high.toNat <<< 8 = low + 256 * high.toNat := by
  rw [Nat.or_comm, ← Nat.shiftLeft_add_eq_or_of_lt small, Nat.shiftLeft_eq, Nat.mul_comm,
    Nat.add_comm]

theorem Sound.receive (sound : p.Sound) (byte : UInt8) : (p.receive byte).1.Sound := by
  unfold FrameParser.receive
  split
  case h_1 searching =>
    have cleared := sound.cleared searching
    dsimp only
    split
    · exact ⟨fun _ => ⟨cleared.cmd, cleared.len⟩, nofun, fun _ => cleared.idx, nofun⟩
    · exact sound
  case h_2 searching =>
    have fields := sound.searching (.inr searching)
    have idle : p.payloadIdx = 0 := sound.idle (by simp [searching])
    dsimp only
    split
    · exact ⟨by simp, nofun, fun _ => idle, nofun⟩
    · exact ⟨fun _ => fields, nofun, fun _ => idle, nofun⟩
  case h_3 here =>
    exact ⟨by simp, nofun, fun _ => sound.idle (by simp [here]), nofun⟩
  case h_4 here =>
    exact ⟨by simp, fun _ => byte.toNat_lt, fun _ => sound.idle (by simp [here]), nofun⟩
  case h_5 here =>
    dsimp only
    split
    · exact (cleared_resetParser _).sound
    split
    · exact (cleared_resetParser _).sound
    · rename_i nonzero fits
      exact ⟨by simp, nofun, fun elsewhere => absurd rfl elsewhere,
        fun _ => ⟨Nat.pos_of_ne_zero nonzero, Nat.le_of_not_lt fits⟩⟩
  case h_6 here =>
    obtain ⟨-, fits⟩ := sound.filling here
    dsimp only
    split
    · exact (cleared_resetParser _).sound
    · rename_i more
      exact ⟨by simp [here], by simp [here], fun elsewhere => absurd here elsewhere,
        fun _ => ⟨Nat.lt_of_not_le more, fits⟩⟩

theorem Sound.feed (sound : p.Sound) (bytes : List UInt8) : (p.feed bytes).1.Sound :=
  Mealy.feed_keeps (fun _ byte holds => holds.receive byte) sound bytes

/-! ## One frame -/

/-- Behind a header the payload is next, if it is not empty and fits. -/
theorem Cleared.feed_header (cleared : p.Cleared) (cmd low high : UInt8) :
    let announced := low.toNat + 256 * high.toNat
    let header := p.feed [uartSync1, uartSync2, cmd, low, high]
    (announced = 0 → header.1.Cleared ∧ header.2 = [{ cmd := cmd, payload := [] }]) ∧
      (payloadBufSize < announced → header.1.Cleared ∧ header.2 = []) ∧
      (0 < announced → announced ≤ payloadBufSize → header.2 = [] ∧
        header.1.state = .payload ∧ header.1.frameCmd = cmd ∧ header.1.frameLen = announced ∧
        header.1.payloadIdx = 0) := by
  have small : low.toNat < 2 ^ 8 := low.toNat_lt
  dsimp only
  rw [← announced_eq small]
  simp only [FrameParser.feed, Mealy.feed, FrameParser.receive, cleared.state, ↓reduceIte]
  generalize low.toNat ||| high.toNat <<< 8 = announced
  refine ⟨?_, ?_, ?_⟩
  · rintro rfl
    exact ⟨⟨rfl, rfl, rfl, rfl⟩, rfl⟩
  · intro tooLong
    have nonzero : announced ≠ 0 := by
      rintro rfl
      exact absurd tooLong (by decide)
    simp only [nonzero, tooLong, ↓reduceIte]
    exact ⟨⟨rfl, rfl, rfl, rfl⟩, rfl⟩
  · intro positive fits
    simp [Nat.pos_iff_ne_zero.mp positive, Nat.not_lt.mpr fits]

theorem take_succ_set {bytes : List UInt8} {i : Nat} (inside : i < bytes.length) (byte : UInt8) :
    (bytes.set i byte).take (i + 1) = bytes.take i ++ [byte] := by
  rw [List.take_succ_eq_append_getElem (by simpa using inside), List.take_set_of_le (Nat.le_refl i)]
  simp

/-- The payload bytes complete the frame. -/
theorem feed_payload {bytes : List UInt8} (filling : p.state = .payload) (some : bytes ≠ [])
    (rest : p.frameLen = p.payloadIdx + bytes.length) (fits : p.frameLen ≤ payloadBufSize) :
    (p.feed bytes).1.Cleared ∧
      (p.feed bytes).2 =
        [{ cmd := p.frameCmd, payload := p.payloadBuf.toList.take p.payloadIdx ++ bytes }] := by
  induction bytes generalizing p with
  | nil => exact absurd rfl some
  | cons byte later inductionHypothesis =>
      rw [List.length_cons] at rest
      have inside : p.payloadIdx < p.payloadBuf.toList.length := by
        rw [Vector.length_toList]
        omega
      have written := take_succ_set inside byte
      by_cases last : later = []
      · subst last
        have complete : p.frameLen ≤ p.payloadIdx + 1 := by simp [rest]
        have whole : p.frameLen = p.payloadIdx + 1 := by simpa using rest
        simp only [FrameParser.feed, Mealy.feed, FrameParser.receive, filling, complete,
          ↓reduceIte]
        refine ⟨cleared_resetParser _, ?_⟩
        simp [frame, whole, written]
      · have more : ¬ p.frameLen ≤ p.payloadIdx + 1 := by
          have positive := List.length_pos_iff.mpr last
          omega
        have next := inductionHypothesis
          (p := { p with
            payloadBuf := p.payloadBuf.setIfInBounds p.payloadIdx byte
            payloadIdx := p.payloadIdx + 1 }) filling last (by dsimp only; omega) fits
        simp only [FrameParser.feed, Mealy.feed, FrameParser.receive, filling, more,
          ↓reduceIte] at next ⊢
        refine ⟨next.1, ?_⟩
        simp [next.2, written]

/-- From SYNC1 the encoding of a frame is that frame, and the parser is in SYNC1 again. -/
theorem Cleared.feed_frame (cleared : p.Cleared) {frame : UartFrame}
    (fits : frame.payload.length ≤ payloadBufSize) :
    (p.feed (sendFrame frame)).1.Cleared ∧ (p.feed (sendFrame frame)).2 = [frame] := by
  obtain ⟨cmd, payload⟩ := frame
  dsimp only at fits
  have size : payloadBufSize = 1028 := rfl
  have header := cleared.feed_header cmd (UInt8.ofNat (payload.length % 256))
    (UInt8.ofNat (payload.length / 256 % 256))
  have number : (UInt8.ofNat (payload.length % 256)).toNat +
      256 * (UInt8.ofNat (payload.length / 256 % 256)).toNat = payload.length := by
    rw [UInt8.toNat_ofNat', UInt8.toNat_ofNat']
    omega
  rw [number] at header
  obtain ⟨whenEmpty, -, whenFilled⟩ := header
  have shape : sendFrame { cmd := cmd, payload := payload } =
      [uartSync1, uartSync2, cmd, UInt8.ofNat (payload.length % 256),
        UInt8.ofNat (payload.length / 256 % 256)] ++ payload := rfl
  rw [shape, FrameParser.feed, Mealy.feed_append]
  by_cases empty : payload = []
  · subst empty
    obtain ⟨after, frames⟩ := whenEmpty rfl
    exact ⟨after, congrArg (· ++ []) frames⟩
  · obtain ⟨none, filling, cmdEq, lenEq, idxEq⟩ :=
      whenFilled (List.length_pos_iff.mpr empty) fits
    obtain ⟨after, frames⟩ := feed_payload filling empty (by rw [lenEq, idxEq, Nat.zero_add])
      (by rwa [lenEq])
    refine ⟨after, ?_⟩
    rw [idxEq, cmdEq] at frames
    exact (congrArg₂ (· ++ ·) none frames).trans rfl

end FrameParser

/-- The parser inverts `send_frame` frame by frame and ends where it began; behind any bytes
its index is inside the payload buffer, and a header that announces more than the buffer
holds is dropped. -/
theorem framing_faithful :
    (∀ p : FrameParser, p.Cleared → ∀ frames : List UartFrame,
      (∀ frame ∈ frames, frame.payload.length ≤ payloadBufSize) →
        (p.feed (frames.flatMap sendFrame)).2 = frames ∧
          (p.feed (frames.flatMap sendFrame)).1.Cleared) ∧
    ∀ bytes : List UInt8,
      let p := (FrameParser.feed {} bytes).1
      p.payloadIdx ≤ payloadBufSize ∧
        (p.state = .payload → p.payloadIdx < payloadBufSize) ∧
        (p.state = .sync1 → p.Cleared ∧ ∀ cmd low high : UInt8,
          payloadBufSize < low.toNat + 256 * high.toNat →
            (p.feed [uartSync1, uartSync2, cmd, low, high]).1.Cleared ∧
              (p.feed [uartSync1, uartSync2, cmd, low, high]).2 = []) := by
  constructor
  · intro p cleared frames fit
    have blocks := Mealy.feed_blocks sendFrame id
      (fun frame member q (rest : FrameParser.Cleared q) => rest.feed_frame (fit frame member))
      cleared
    rw [List.map_id] at blocks
    exact ⟨blocks.2, blocks.1⟩
  · intro bytes
    have sound := FrameParser.cleared_new.sound.feed bytes
    dsimp only
    generalize (FrameParser.feed {} bytes).1 = p at sound ⊢
    have inside : p.state = .payload → p.payloadIdx < payloadBufSize := fun filling =>
      Nat.lt_of_lt_of_le (sound.filling filling).1 (sound.filling filling).2
    refine ⟨?_, inside, fun searching => ?_⟩
    · by_cases filling : p.state = .payload
      · exact Nat.le_of_lt (inside filling)
      · rw [sound.idle filling]
        exact Nat.zero_le _
    · have cleared := sound.cleared searching
      exact ⟨cleared, fun cmd low high tooLong =>
        (cleared.feed_header cmd low high).2.1 tooLong⟩

/-- Two frames, the second with sync bytes in its payload. -/
theorem framing_faithful_two_frames :
    let frames : List UartFrame :=
      [{ cmd := cmdFileEnd, payload := [] }, { cmd := cmdFileData, payload := [0xAA, 0x55, 1] }]
    let p : FrameParser := {}
    (p.feed (frames.flatMap sendFrame)).2 = frames ∧ p.state = .sync1 ∧
      (p.feed [uartSync1, uartSync2, cmdFileData, 5, 4]).2 = [] :=
  ⟨(framing_faithful.1 {} FrameParser.cleared_new _ (by simp [payloadBufSize])).1, rfl,
    (((framing_faithful.2 []).2.2 rfl).2 cmdFileData 5 4 (by decide)).2⟩

/-! ## Noise in front of a frame -/

/-- The sync bytes `AA` at the end of the noise. -/
def trailingSyncs (noise : List UInt8) : Nat := (noise.rtakeWhile (· = uartSync1)).length

theorem trailingSyncs_concat (noise : List UInt8) (byte : UInt8) :
    trailingSyncs (noise ++ [byte]) =
      if byte = uartSync1 then trailingSyncs noise + 1 else 0 := by
  unfold trailingSyncs
  rw [List.rtakeWhile_concat]
  by_cases sync : byte = uartSync1 <;> simp [sync]

/-- No byte `AA` is followed by `55`. -/
def Unpaired (noise : List UInt8) : Prop := ¬ [uartSync1, uartSync2] <:+: noise

namespace FrameParser

variable {p : FrameParser}

/-- Noise without a sync pair moves the parser between SYNC1 and SYNC2; it waits for `55`
behind an odd number of `AA`. -/
theorem Cleared.feed_noise (cleared : p.Cleared) {noise : List UInt8}
    (unpaired : Unpaired noise) :
    p.feed noise =
      ({ p with state := if trailingSyncs noise % 2 = 0 then .sync1 else .sync2 }, []) := by
  obtain ⟨state, cmd, len, idx, buf⟩ := p
  obtain rfl : state = .sync1 := cleared.state
  induction noise using List.reverseRecOn with
  | nil => rfl
  | append_singleton front byte inductionHypothesis =>
      have earlier := inductionHypothesis fun pair =>
        unpaired (pair.trans (List.infix_append' [] front [byte]))
      have step : ∀ q : FrameParser, q.feed (front ++ [byte]) =
          (((q.feed front).1.receive byte).1,
            (q.feed front).2 ++ ((q.feed front).1.receive byte).2.toList) := by
        intro q
        rw [FrameParser.feed, Mealy.feed_append]
        simp [Mealy.feed, FrameParser.feed]
      rw [step, earlier, trailingSyncs_concat]
      by_cases sync : byte = uartSync1
      · subst sync
        rcases Nat.mod_two_eq_zero_or_one (trailingSyncs front) with even | odd
        · simp [even, receive, Nat.add_mod]
        · simp [odd, receive, Nat.add_mod, uartSync1, uartSync2]
      · by_cases even : trailingSyncs front % 2 = 0
        · simp [even, receive, sync]
        · -- The noise before ends in `AA`, so the byte is not `55`.
          have notPair : byte ≠ uartSync2 := by
            rintro rfl
            rcases List.eq_nil_or_concat front with rfl | ⟨init, last, rfl⟩
            · exact absurd rfl even
            · rw [List.concat_eq_append] at even unpaired
              rw [trailingSyncs_concat] at even
              by_cases there : last = uartSync1
              · subst there
                exact unpaired ⟨init, [], by simp⟩
              · simp [there] at even
          simp [even, receive, sync, notPair]

/-- How many bytes of the current frame the parser has taken. -/
def taken (p : FrameParser) : Nat :=
  match p.state with
  | .sync1 => 0
  | .sync2 => 1
  | .cmd => 2
  | .lenLo => 3
  | .lenHi => 4
  | .payload => 5 + p.payloadIdx

/-- A delivered frame has been taken byte by byte. -/
theorem Sound.receive_taken (sound : p.Sound) (byte : UInt8) :
    ((p.receive byte).2.toList.map fun frame => 5 + frame.payload.length).sum +
      (p.receive byte).1.taken ≤ p.taken + 1 := by
  unfold FrameParser.receive
  split
  case h_1 searching =>
    by_cases sync : byte = uartSync1 <;> simp [sync, taken, searching]
  case h_2 searching =>
    by_cases sync : byte = uartSync2 <;> simp [sync, taken, searching]
  case h_3 here => simp [taken, here]
  case h_4 here => simp [taken, here]
  case h_5 here =>
    dsimp only
    split
    · rename_i empty
      simp [taken, here, frame, resetParser, empty]
    split
    · simp [taken, here, resetParser]
    · simp [taken, here]
  case h_6 here =>
    obtain ⟨inside, fits⟩ := sound.filling here
    dsimp only
    split
    · rename_i complete
      simp only [taken, here, frame, resetParser, Option.toList_some, List.map_cons, List.map_nil,
        List.sum_cons, List.sum_nil, List.length_take]
      omega
    · simp [taken, here]
      omega

end FrameParser

/-- Behind noise without a sync pair a frame is delivered exactly when the noise ends in an
even number of `AA` bytes. -/
theorem resync_iff {p : FrameParser} (cleared : p.Cleared) {noise : List UInt8}
    (unpaired : Unpaired noise) {frame : UartFrame}
    (fits : frame.payload.length ≤ payloadBufSize) :
    (p.feed (noise ++ sendFrame frame)).2 = [frame] ↔ trailingSyncs noise % 2 = 0 := by
  have split : (p.feed (noise ++ sendFrame frame)).2 =
      (FrameParser.feed { p with state := if trailingSyncs noise % 2 = 0 then .sync1 else .sync2 }
        (sendFrame frame)).2 := by
    have behind := cleared.feed_noise unpaired
    unfold FrameParser.feed at behind ⊢
    rw [Mealy.feed_append, behind]
    rfl
  have restart : FrameParser.Cleared { p with state := .sync1 } :=
    ⟨rfl, cleared.cmd, cleared.len, cleared.idx⟩
  rw [split]
  by_cases even : trailingSyncs noise % 2 = 0
  · simp only [even, ↓reduceIte, iff_true]
    exact (restart.feed_frame fits).2
  · simp only [even, ↓reduceIte, iff_false]
    intro delivered
    -- The pair is lost, and what follows is too short to be the frame.
    let body := frame.cmd :: writeLe frame.payload.length 2 ++ frame.payload
    have shape : sendFrame frame = [uartSync1, uartSync2] ++ body := rfl
    have lost : FrameParser.feed { p with state := .sync2 } [uartSync1, uartSync2] =
        ({ p with state := .sync1 }, []) := rfl
    have short : body.length = 3 + frame.payload.length := by
      simp [body, writeLe]
      omega
    have bound := Mealy.feed_potential FrameParser.taken
      (fun frame : UartFrame => 5 + frame.payload.length)
      (fun _ byte (holds : FrameParser.Sound _) => holds.receive byte)
      (fun _ byte holds => holds.receive_taken byte) restart.sound body
    unfold FrameParser.feed at delivered lost
    rw [shape, Mealy.feed_append, lost] at delivered
    dsimp only at delivered
    rw [List.nil_append] at delivered
    rw [delivered, short] at bound
    simp only [List.map_cons, List.map_nil, List.sum_cons, List.sum_nil, FrameParser.taken] at bound
    omega

/-- A status request behind two stray `AA` bytes. -/
theorem resync_behind_two_syncs :
    (FrameParser.feed {} ([0x10, 0xAA, 0xAA] ++ sendFrame { cmd := cmdStatus, payload := [] })).2 =
      [{ cmd := cmdStatus, payload := [] }] :=
  (resync_iff FrameParser.cleared_new (by unfold Unpaired; decide) (by decide)).mpr (by decide)

/-- One stray `AA` hides the request that follows. -/
theorem stray_sync_hides_frame :
    Unpaired [uartSync1] ∧
      (FrameParser.feed {} ([uartSync1] ++ sendFrame { cmd := cmdStatus, payload := [] })).2 ≠
        [{ cmd := cmdStatus, payload := [] }] := by
  refine ⟨by unfold Unpaired; decide, ?_⟩
  have hidden : (FrameParser.feed {}
      ([uartSync1] ++ sendFrame { cmd := cmdStatus, payload := [] })).2 = [] := rfl
  rw [hidden]
  nofun

end ForestLink.Uart
