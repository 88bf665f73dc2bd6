/-
Module: ForestLink.Protocol.ArqLink
Purpose: Both halves of the selective-repeat ARQ with the air between them: every packet that
  was ever handed to a radio may be heard at any time, again and again, or never.
Trusted boundary: none
Main exports: DataPacket, Radio.aired, ArqLink, ArqLink.Move, ArqLink.step, ArqLink.run
-/
import ForestLink.Protocol.Receiver
import ForestLink.Protocol.SenderRuns

namespace ForestLink.Protocol

/-- A fragment on the air. -/
structure DataPacket where
  seq : Nat
  data : List UInt8
deriving Repr, DecidableEq

/-- The radio with a list of the packets it was given, newest first.  A refused packet is
listed too: it may have been heard before the radio gave up. -/
def Radio.aired {σ : Type} (radio : Radio σ) : Radio (σ × List DataPacket) where
  nowMs io :=
    let clock := radio.nowMs io.1
    (clock.1, clock.2, io.2)
  send io dst type seq data :=
    let result := radio.send io.1 dst type seq data
    (result.1, result.2, ⟨seq, data⟩ :: io.2)

/-- A sender, a receiver, and what either has put on the air.  `accepted` only records: the
sequence numbers for which `send_fragment` has returned 0. -/
structure ArqLink (σ : Type) where
  sender : SelectiveRepeat
  receiver : Receiver
  io : σ
  packets : List DataPacket := []
  replies : List Reply := []
  accepted : List Nat := []

namespace ArqLink

/-- What may happen next.  The sender is called, or the receiver hears a packet, or the sender
hears a reply; the last two say which of those on the air. -/
inductive Move where
  | sendFragment (seq : Nat)
  | tick (maxSends : Nat)
  | deliver (index now : Nat)
  | answer (index : Nat)
deriving Repr, DecidableEq

variable {σ : Type} (radio : Radio σ) (payload : Nat → List UInt8)

/-- `receive_fragment`, its replies going on the air. -/
def deliver (link : ArqLink σ) (packet : DataPacket) (now : Nat) : Option (ArqLink σ) :=
  (link.receiver.receiveFragment now packet.seq packet.data).map fun result =>
    { link with receiver := result.2.1, replies := result.2.2 ++ link.replies }

/-- The link after a call of the sender. -/
def said (link : ArqLink σ) (result : SelectiveRepeat × σ × List DataPacket) : ArqLink σ :=
  { link with sender := result.1, io := result.2.1, packets := result.2.2 }

/-- `handle_ack` or `handle_nack`, by the type of the packet. -/
def answer (link : ArqLink σ) (reply : Reply) : ArqLink σ :=
  match reply.type with
  | .ack => link.said
      (SelectiveRepeat.handleAck radio.aired (link.io, link.packets) link.sender reply.seq)
  | .nack => link.said
      (SelectiveRepeat.handleNack radio.aired (link.io, link.packets) link.sender reply.seq)
  | _ => link

/-- `payload` is what the sender is given for each sequence number.  A packet or a reply that
was never sent is not heard. -/
def step (link : ArqLink σ) : Move → Option (ArqLink σ)
  | .sendFragment seq =>
      let result := SelectiveRepeat.sendFragment radio.aired (link.io, link.packets) link.sender seq
        (payload seq)
      let accepted := if result.1 = 0 then seq :: link.accepted else link.accepted
      some { link.said result.2 with accepted := accepted }
  | .tick maxSends =>
      some (link.said
        (SelectiveRepeat.tick radio.aired (link.io, link.packets) link.sender maxSends).2)
  | .deliver index now =>
      match link.packets[index]? with
      | none => some link
      | some packet => link.deliver packet now
  | .answer index =>
      match link.replies[index]? with
      | none => some link
      | some reply => some (link.answer radio reply)

def run (link : ArqLink σ) : List Move → Option (ArqLink σ)
  | [] => some link
  | move :: rest => do
      let link ← link.step radio payload move
      link.run rest

theorem run_append (link : ArqLink σ) (first second : List Move) :
    link.run radio payload (first ++ second) =
      (link.run radio payload first).bind fun link => link.run radio payload second := by
  induction first generalizing link with
  | nil => rfl
  | cons move rest inductionHypothesis =>
      rw [List.cons_append, run, run, Option.bind_eq_bind, Option.bind_assoc]
      congr 1
      funext next
      exact inductionHypothesis next

/-- A sender set up by `init`, `set_min_rto_floor` and `set_peer_addr`, and a receiver set up by
`init_receiver`. -/
def start (io : σ) (windowSize timeoutMs minRtoFloorMs peerAddr : Nat) (receiver : Receiver) :
    ArqLink σ where
  sender := (Sender.init io windowSize timeoutMs minRtoFloorMs peerAddr).sr
  receiver := receiver
  io := io

end ArqLink

end ForestLink.Protocol
