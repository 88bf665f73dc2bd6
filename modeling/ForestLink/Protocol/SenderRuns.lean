/-
Module: ForestLink.Protocol.SenderRuns
Purpose: A sender window called in any order, with a record of the bytes behind each pending
  fragment and of the times at which they were put on the air.
Trusted boundary: none
Main exports: RadioEvent, Radio.recorded, airTimes, SenderCall, Sender, Sender.step, Sender.run
-/
import ForestLink.Protocol.SelectiveRepeat

namespace ForestLink.Protocol

/-! ## What a call asks of the radio -/

inductive RadioEvent where
  | clock (ms : Nat)
  | sent (seq : Nat) (result : Int)
deriving Repr, DecidableEq

/-- The radio with a list of its answers, newest first. -/
def Radio.recorded {σ : Type} (radio : Radio σ) : Radio (σ × List RadioEvent) where
  nowMs io :=
    let clock := radio.nowMs io.1
    (clock.1, clock.2, .clock clock.1 :: io.2)
  send io dst type seq data :=
    let result := radio.send io.1 dst type seq data
    (result.1, result.2, .sent seq result.1 :: io.2)

/-- A radio whose answers are fixed in advance; with none left the clock shows 0 and packets
go out. -/
def Radio.scripted : Radio (List Nat × List Int) where
  nowMs io := (io.1.headD 0, io.1.tail, io.2)
  send io _ _ _ _ := (io.2.headD 0, io.1, io.2.tail)

/-- The latest clock reading. -/
def lastClock : List RadioEvent → Nat
  | [] => 0
  | .clock ms :: _ => ms
  | .sent _ _ :: earlier => lastClock earlier

/-- The readings at which a fragment was transmitted; a negative result is no transmission. -/
def airTimes (seq : Nat) : List RadioEvent → List Nat
  | [] => []
  | .clock _ :: earlier => airTimes seq earlier
  | .sent other result :: earlier =>
      if other = seq ∧ 0 ≤ result then lastClock earlier :: airTimes seq earlier
      else airTimes seq earlier

/-! ## The calls -/

inductive SenderCall where
  | sendFragment (seq : Nat) (data : List UInt8)
  | handleAck (seq : Nat)
  | handleNack (seq : Nat)
  | tick (maxSends : Nat)
  | resetSender
deriving Repr, DecidableEq

/-- A sender and its surroundings.  `made` and `onAir` only record: the bytes of the call that
made a fragment pending, and its transmissions since then, newest first. -/
structure Sender (σ : Type) where
  sr : SelectiveRepeat
  io : σ
  made : Nat → List UInt8 := fun _ => []
  onAir : Nat → List Nat := fun _ => []

namespace Sender

variable {σ : Type} (radio : Radio σ)

/-- `init`, `set_min_rto_floor` and `set_peer_addr`. -/
def init (io : σ) (windowSize timeoutMs minRtoFloorMs peerAddr : Nat) : Sender σ where
  sr :=
    { windowSize := min windowSize arqWindow
      timeoutMs := timeoutMs
      minRtoFloorMs := minRtoFloorMs
      peerAddr := peerAddr }
  io := io

/-- The window after a call, and what the call asked of the radio. -/
def call (s : Sender σ) : SenderCall → SelectiveRepeat × σ × List RadioEvent
  | .sendFragment seq data =>
      (SelectiveRepeat.sendFragment radio.recorded (s.io, []) s.sr seq data).2
  | .handleAck seq => SelectiveRepeat.handleAck radio.recorded (s.io, []) s.sr seq
  | .handleNack seq => SelectiveRepeat.handleNack radio.recorded (s.io, []) s.sr seq
  | .tick maxSends => (SelectiveRepeat.tick radio.recorded (s.io, []) s.sr maxSends).2
  | .resetSender => (s.sr.resetSender, s.io, [])

/-- The call starts a record anew: the fragment has not been pending, or the window is
emptied. -/
def restarts (s : Sender σ) (seq : Nat) : SenderCall → Bool
  | .sendFragment other _ => other == seq && !s.sr.containsSequence seq
  | .resetSender => true
  | _ => false

/-- The bytes that a call hands over for a fragment it makes pending. -/
def madeBy (s : Sender σ) (seq : Nat) : SenderCall → List UInt8
  | .sendFragment _ data => data
  | _ => s.made seq

def step (s : Sender σ) (c : SenderCall) : Sender σ :=
  let result := s.call radio c
  { sr := result.1
    io := result.2.1
    made := fun seq => if s.restarts seq c then s.madeBy seq c else s.made seq
    onAir := fun seq =>
      airTimes seq result.2.2 ++ if s.restarts seq c then [] else s.onAir seq }

def run (s : Sender σ) (calls : List SenderCall) : Sender σ := calls.foldl (step radio) s

/-- Every call meets the condition in the state it is made in. -/
def Each (P : Sender σ → SenderCall → Prop) : Sender σ → List SenderCall → Prop
  | _, [] => True
  | s, c :: rest => P s c ∧ Each P (s.step radio c) rest

variable {radio}

theorem Each.keeps {P : Sender σ → SenderCall → Prop} {Inv : Sender σ → Prop}
    (step : ∀ s c, P s c → Inv s → Inv (s.step radio c)) {s : Sender σ}
    {calls : List SenderCall} (each : Each radio P s calls) (holds : Inv s) :
    Inv (s.run radio calls) := by
  induction calls generalizing s with
  | nil => exact holds
  | cons c rest inductionHypothesis =>
      exact inductionHypothesis each.2 (step s c each.1 holds)

end Sender

end ForestLink.Protocol
