/-
Module: ForestLink.Proofs.ArqDelivery
Purpose: Between the two halves of the ARQ, over an air that delays, repeats, reorders and loses
  packets: no fragment is given up before the receiver has it, and no such air can wedge a
  transfer.
Trusted boundary: none
Main exports: Receiver.Heard, ArqLink.Linked, Linked.step, Linked.settle, Linked.finish,
  arq_link_delivers, arq_link_recovers
-/
import ForestLink.Lib.Trace
import ForestLink.Proofs.ReceiverIntegrity
import ForestLink.Proofs.SentPayloads
import ForestLink.Protocol.ArqLink

namespace ForestLink.Protocol

open ForestLink.Lib

/-! ## What the receiver answers -/

namespace Receiver

/-- A fragment of the session has been heard: marks stay, only marked fragments are
acknowledged, and this one is. -/
structure Heard (r after : Receiver) (seq : Nat) (replies : List Reply) : Prop where
  kept : ∀ other, r.recvBitmap.Marked other → after.recvBitmap.Marked other
  acked : ∀ reply ∈ replies, reply.type = .ack → after.recvBitmap.Marked reply.seq
  answered : { type := .ack, seq := seq } ∈ replies

variable {r after : Receiver} {seq : Nat} {data : List UInt8}

/-- Nothing but the fragment itself is acknowledged behind a recovery. -/
theorem AcceptOutcome.heard {accepted : Bool} {replies : List Reply}
    (outcome : AcceptOutcome r seq data (accepted, after, replies)) :
    Heard r after seq replies := by
  cases outcome with
  | duplicate known =>
      refine ⟨fun _ isMarked => isMarked, ?_, List.mem_singleton_self _⟩
      intro reply member _
      rw [List.mem_singleton.mp member]
      exact known
  | dropped wf stored _ _ =>
      refine ⟨fun other isMarked => (stored.marks other).mpr (.inr isMarked), ?_,
        List.mem_singleton_self _⟩
      intro reply member _
      rw [List.mem_singleton.mp member]
      exact (stored.marks seq).mpr (.inl rfl)
  | accepted wf stored spared finished =>
      have marks : ∀ other, other = seq ∨ r.recvBitmap.Marked other →
          after.recvBitmap.Marked other := by
        intro other reason
        rw [finished.bitmap]
        exact (stored.marks other).mpr reason
      refine ⟨fun other isMarked => marks other (.inr isMarked), ?_, List.mem_cons_self⟩
      intro reply member isAck
      rcases List.mem_cons.mp member with rfl | nack
      · exact marks _ (.inl rfl)
      · rw [(finished.nacked reply nack).1] at isAck
        contradiction

theorem heard (wf : r.Wf) (now : Nat) (small : seq < r.totalFragments) (data : List UInt8) :
    ∃ accepted after replies,
      r.receiveFragment now seq data = some (accepted, after, replies) ∧
      Heard r after seq replies := by
  obtain ⟨recovered, acks, accepted, after, replies, ran, recovery, outcome⟩ :=
    receiveFragment_outcome wf now small data
  have heard := outcome.heard
  have first : (∀ other, r.recvBitmap.Marked other → recovered.recvBitmap.Marked other) ∧
      ∀ reply ∈ acks, recovered.recvBitmap.Marked reply.seq := by
    rcases recovery with ⟨rfl, rfl⟩ | ⟨-, recovery⟩
    · exact ⟨fun _ isMarked => isMarked, fun _ none => absurd none List.not_mem_nil⟩
    cases recovery with
    | nothing => exact ⟨fun _ isMarked => isMarked, fun _ none => absurd none List.not_mem_nil⟩
    | stored _ _ stored =>
        refine ⟨fun other isMarked => (stored.marks other).mpr (.inr isMarked), ?_⟩
        intro reply member
        rw [List.mem_singleton.mp member]
        exact (stored.marks _).mpr (.inl rfl)
  refine ⟨accepted, after, acks ++ replies, ran,
    fun other isMarked => heard.kept other (first.1 other isMarked), ?_,
    List.mem_append_right acks heard.answered⟩
  intro reply member isAck
  rcases List.mem_append.mp member with early | late
  · exact heard.kept _ (first.2 reply early)
  · exact heard.acked reply late isAck

/-- Every fragment marked: the receiver is complete. -/
theorem Wf.complete (wf : r.Wf) (all : ∀ seq < r.totalFragments, r.recvBitmap.Marked seq) :
    r.isComplete = true := by
  have full : r.marked = Finset.range r.totalFragments :=
    Finset.filter_true_of_mem fun seq member => all seq (Finset.mem_range.mp member)
  rw [isComplete, wf.active, wf.counted, full, Finset.card_range, beq_self_eq_true]
  rfl

end Receiver

/-! ## What the sender puts on the air -/

/-- A packet with the bytes recorded for its fragment. -/
def DataPacket.Truthful (made : Nat → List UInt8) (packet : DataPacket) : Prop :=
  packet.data = made packet.seq

theorem fragmentOf_ne_nil {size index : Nat} {file : List UInt8} (positive : 1 ≤ size)
    (known : index < dataCount size file.length) : fragmentOf size file index ≠ [] := by
  have whole := (Nat.le_div_iff_mul_le positive).mp (Nat.succ_le_of_lt known)
  have starts : index * size < file.length := by
    rw [Nat.succ_mul] at whole
    omega
  rw [← List.length_pos_iff, fragmentOf, List.length_take, List.length_drop]
  omega

/-- The payloads of a session are neither empty nor longer than a fragment. -/
theorem meshPayload_length {size seq : Nat} {file : List UInt8} (positive : 1 ≤ size)
    (atMost : size ≤ maxMtu) (known : seq < meshTotal size file.length) :
    meshPayload size file seq ≠ [] ∧ (meshPayload size file seq).length ≤ size := by
  rw [meshPayload_eq atMost]
  unfold withParity
  split
  · rw [← List.length_pos_iff, length_xorPad]
    constructor
    · have first : fragmentOf size file (dataIdx (seq / 8 * 8 + 0)) ∈
          groupData (fun seq => fragmentOf size file (dataIdx seq)) (seq / 8) :=
        List.mem_map_of_mem (List.mem_range.mpr (by decide))
      have isData : isParitySlot (seq / 8 * 8 + 0) = false := by
        rw [← Bool.not_eq_true, isParitySlot_iff]
        omega
      have inside : dataIdx (seq / 8 * 8 + 0) < dataCount size file.length :=
        dataIdx_lt (by unfold meshTotal at known; omega) isData
      have filled := List.length_pos_iff.mpr (fragmentOf_ne_nil positive inside)
      exact filled.trans_le (length_le_maxLength first)
    · apply maxLength_le
      intro string member
      obtain ⟨i, -, rfl⟩ := List.mem_map.mp member
      exact length_fragmentOf_le _ _ _
  · rename_i isData
    rw [Bool.not_eq_true] at isData
    exact ⟨fragmentOf_ne_nil positive (dataIdx_lt known isData), length_fragmentOf_le _ _ _⟩

namespace SelectiveRepeat

variable {σ : Type} {made : Nat → List UInt8} {sr : SelectiveRepeat}

theorem speaks_aired (radio : Radio σ) (made : Nat → List UInt8) :
    Speaks radio.aired made fun before after =>
      Extends (DataPacket.Truthful made) before.2 after.2 where
  refl io := .refl _ io.2
  trans first second := first.trans second
  nowMs io := .refl _ io.2
  send io _ seq := by
    have truthful : DataPacket.Truthful made ⟨seq, made seq⟩ := rfl
    exact .cons truthful io.2

/-- A fragment that `send_fragment` takes is on the air, unless it was pending before. -/
theorem sendFragment_aired (radio : Radio σ) (wf : sr.Wf) (io : σ × List DataPacket) (seq : Nat)
    (data : List UInt8) (taken : (sendFragment radio.aired io sr seq data).1 = 0) :
    seq ∈ sr.pending ∨ ⟨seq, data⟩ ∈ (sendFragment radio.aired io sr seq data).2.2.2 := by
  have outcome := sendFragment_outcome radio.aired io sr seq data
  generalize sendFragment radio.aired io sr seq data = result at outcome taken ⊢
  cases outcome with
  | duplicate sent tag => exact .inl (wf.mem_pending.mpr ⟨sent, tag⟩)
  | refused => exact absurd taken (show (-1 : Int) ≠ 0 by decide)
  | failed free negative => exact absurd taken (show (-1 : Int) ≠ 0 by decide)
  | placed free nonempty accepted => exact .inr List.mem_cons_self

end SelectiveRepeat

/-! ## The link -/

namespace ArqLink

open SelectiveRepeat

variable {σ : Type} {radio : Radio σ} {size : Nat} {file : List UInt8} {link after : ArqLink σ}

/-- What every move keeps.  `custody` is the safety of the protocol: a fragment that the sender
has taken is pending or at the receiver. -/
structure Linked (size : Nat) (file : List UInt8) (link : ArqLink σ) : Prop where
  wf : link.sender.Wf
  genuine : link.sender.Genuine (meshPayload size file)
  receiver : ∃ arrived, link.receiver.Assembles size file arrived
  inRange : ∀ seq ∈ link.sender.pending, seq < meshTotal size file.length
  packets : ∀ packet ∈ link.packets, packet.Truthful (meshPayload size file)
  onAir : ∀ seq ∈ link.sender.pending, ⟨seq, meshPayload size file seq⟩ ∈ link.packets
  acked : ∀ reply ∈ link.replies, reply.type = .ack →
    link.receiver.recvBitmap.Marked reply.seq
  custody : ∀ seq ∈ link.accepted,
    seq ∈ link.sender.pending ∨ link.receiver.recvBitmap.Marked seq

theorem Linked.total (linked : link.Linked size file) :
    link.receiver.totalFragments = meshTotal size file.length := by
  obtain ⟨_, assembles⟩ := linked.receiver
  exact assembles.session.totalFragments

theorem Linked.receiverWf (linked : link.Linked size file) : link.receiver.Wf := by
  obtain ⟨_, assembles⟩ := linked.receiver
  exact assembles.tracks.wf

/-- A call of the sender: what it sends is truthful, and what it takes or gives up is accounted
for. -/
theorem Linked.speak (linked : link.Linked size file) (accepted : List Nat)
    {result : SelectiveRepeat × σ × List DataPacket} (wf : result.1.Wf)
    (genuine : result.1.Genuine (meshPayload size file))
    (said : Extends (DataPacket.Truthful (meshPayload size file)) link.packets result.2.2)
    (taken : ∀ seq ∈ result.1.pending, seq ∈ link.sender.pending ∨
      seq < meshTotal size file.length ∧ ⟨seq, meshPayload size file seq⟩ ∈ result.2.2)
    (custody : ∀ seq ∈ accepted,
      seq ∈ result.1.pending ∨ link.receiver.recvBitmap.Marked seq) :
    Linked size file { link.said result with accepted := accepted } := by
  obtain ⟨sender, io, packets⟩ := result
  dsimp only at wf genuine said taken custody
  obtain ⟨recent, rfl, truthful⟩ := said
  refine ⟨wf, genuine, linked.receiver, ?_, ?_, ?_, linked.acked, custody⟩
  · intro seq isPending
    rcases taken seq isPending with before | new
    · exact linked.inRange seq before
    · exact new.1
  · intro packet member
    rcases List.mem_append.mp member with new | before
    · exact truthful packet new
    · exact linked.packets packet before
  · intro seq isPending
    rcases taken seq isPending with before | new
    · exact List.mem_append_right recent (linked.onAir seq before)
    · exact new.2

theorem Linked.sendFragment (linked : link.Linked size file)
    (fits : meshTotal size file.length < 2 ^ 16) {seq : Nat}
    (known : seq < meshTotal size file.length)
    (stepped : link.step radio (meshPayload size file) (.sendFragment seq) = some after) :
    after.Linked size file := by
  have small : seq < noSeqTag := by
    unfold noSeqTag
    omega
  have spec := sendFragment_spec radio.aired linked.wf (link.io, link.packets) small
    (meshPayload size file seq)
  have genuine := linked.genuine.sendFragment radio.aired (link.io, link.packets) seq
  have said := (speaks_aired radio (meshPayload size file)).sendFragment (link.io, link.packets)
    link.sender seq
  have aired := sendFragment_aired radio linked.wf (link.io, link.packets) seq
    (meshPayload size file seq)
  cases stepped
  dsimp only at spec
  generalize SelectiveRepeat.sendFragment radio.aired (link.io, link.packets) link.sender seq
    (meshPayload size file seq) = result at spec genuine said aired ⊢
  obtain ⟨wf, -, ⟨taken, pendingEq⟩ | ⟨refused, pendingEq⟩⟩ := spec
  · rw [if_pos taken]
    refine linked.speak _ wf genuine said ?_ ?_
    · intro other isPending
      rw [pendingEq, Finset.mem_insert] at isPending
      rcases isPending with rfl | before
      · exact (aired taken).imp id fun new => ⟨known, new⟩
      · exact .inl before
    · intro other member
      rw [pendingEq, Finset.mem_insert]
      rcases List.mem_cons.mp member with rfl | before
      · exact .inl (.inl rfl)
      · exact (linked.custody other before).imp .inr id
  · rw [if_neg (by rw [refused]; decide)]
    refine linked.speak _ wf genuine said ?_ ?_
    · intro other isPending
      exact .inl (pendingEq ▸ isPending)
    · intro other member
      rw [pendingEq]
      exact linked.custody other member

/-- A call that leaves every fragment where it is. -/
theorem Linked.sameFragments (linked : link.Linked size file)
    {result : SelectiveRepeat × σ × List DataPacket} (same : SameFragments link.sender result.1)
    (said : Extends (DataPacket.Truthful (meshPayload size file)) link.packets result.2.2) :
    (link.said result).Linked size file := by
  refine linked.speak link.accepted (same.wf linked.wf) (linked.genuine.sameFragments same) said
    ?_ ?_
  · intro seq isPending
    exact .inl (same.pending ▸ isPending)
  · intro seq member
    rw [same.pending]
    exact linked.custody seq member

/-- A NACK releases nothing; an ACK releases a fragment that the receiver has. -/
theorem Linked.answer (linked : link.Linked size file) (radio : Radio σ) {reply : Reply}
    (heard : reply ∈ link.replies) :
    (link.answer radio reply).Linked size file ∧
      (reply.type = .ack →
        (link.answer radio reply).sender.pending = link.sender.pending.erase reply.seq) := by
  have speaks := speaks_aired radio (meshPayload size file)
  unfold ArqLink.answer
  split
  · rename_i isAck
    obtain ⟨wf, -, pendingEq⟩ :=
      handleAck_spec radio.aired linked.wf (link.io, link.packets) reply.seq
    refine ⟨linked.speak link.accepted wf
      (linked.genuine.handleAck radio.aired (link.io, link.packets) reply.seq)
      (speaks.handleAck (link.io, link.packets) link.sender reply.seq) ?_ ?_,
      fun _ => pendingEq⟩
    · intro seq isPending
      rw [pendingEq] at isPending
      exact .inl (Finset.mem_of_mem_erase isPending)
    · intro seq member
      rw [pendingEq, Finset.mem_erase]
      by_cases this : seq = reply.seq
      · rw [this]
        exact .inr (linked.acked reply heard isAck)
      · exact (linked.custody seq member).imp (fun isPending => ⟨this, isPending⟩) id
  · rename_i isNack
    exact ⟨linked.sameFragments (handleNack_sameFragments radio.aired _ _ reply.seq)
      (speaks.handleNack linked.genuine linked.wf.sized (link.io, link.packets) reply.seq),
      fun isAck => absurd (isAck.symm.trans isNack) (by decide)⟩
  · rename_i notAck _
    exact ⟨linked, fun isAck => absurd isAck notAck⟩

/-- The receiver hears a packet, and if it is of the session, acknowledges it. -/
theorem Linked.deliver (linked : link.Linked size file) (positive : 1 ≤ size)
    (atMost : size ≤ maxMtu) {packet : DataPacket} (onAir : packet ∈ link.packets) (now : Nat) :
    ∃ after, link.deliver packet now = some after ∧ after.Linked size file ∧
      after.sender = link.sender ∧ after.accepted = link.accepted ∧
      (packet.seq < meshTotal size file.length →
        { type := .ack, seq := packet.seq } ∈ after.replies) := by
  obtain ⟨_, assembles⟩ := linked.receiver
  obtain ⟨accepted, receiver, replies, ran, assembled⟩ :=
    assembles.receive positive atMost now packet.seq
  rw [← linked.packets packet onAir] at ran
  have delivered : link.deliver packet now =
      some { link with receiver := receiver, replies := replies ++ link.replies } := by
    rw [ArqLink.deliver, ran]
    rfl
  have heard : (∀ other, link.receiver.recvBitmap.Marked other →
        receiver.recvBitmap.Marked other) ∧
      (∀ reply ∈ replies, reply.type = .ack → receiver.recvBitmap.Marked reply.seq) ∧
      (packet.seq < meshTotal size file.length →
        { type := .ack, seq := packet.seq } ∈ replies) := by
    by_cases small : packet.seq < link.receiver.totalFragments
    · obtain ⟨_, _, _, same, heard⟩ := Receiver.heard linked.receiverWf now small packet.data
      cases ran.symm.trans same
      exact ⟨heard.kept, heard.acked, fun _ => heard.answered⟩
    · have ignored : link.receiver.receiveFragment now packet.seq packet.data =
          some (false, link.receiver, []) := by
        simp [Receiver.receiveFragment, Nat.le_of_not_lt small]
      cases ran.symm.trans ignored
      exact ⟨fun _ isMarked => isMarked, fun _ none => absurd none List.not_mem_nil,
        fun inside => absurd (linked.total ▸ inside) small⟩
  obtain ⟨kept, acked, answered⟩ := heard
  refine ⟨_, delivered, ⟨linked.wf, linked.genuine, assembled, linked.inRange, linked.packets,
    linked.onAir, ?_, fun seq member => (linked.custody seq member).imp id (kept seq)⟩, rfl, rfl,
    fun inside => List.mem_append_left _ (answered inside)⟩
  intro reply member isAck
  rcases List.mem_append.mp member with new | before
  · exact acked reply new isAck
  · exact kept _ (linked.acked reply before isAck)

/-! ## Runs -/

/-- The sender is given fragments of the session only. -/
def Move.Within (total : Nat) : Move → Prop
  | .sendFragment seq => seq < total
  | _ => True

theorem Linked.step (linked : link.Linked size file) (positive : 1 ≤ size)
    (atMost : size ≤ maxMtu) (fits : meshTotal size file.length < 2 ^ 16) (radio : Radio σ)
    {move : Move} (within : move.Within (meshTotal size file.length)) :
    ∃ after, link.step radio (meshPayload size file) move = some after ∧
      after.Linked size file := by
  cases move with
  | sendFragment seq => exact ⟨_, rfl, linked.sendFragment fits within rfl⟩
  | tick maxSends =>
      exact ⟨_, rfl, linked.sameFragments (tick_sameFragments radio.aired _ _ maxSends)
        ((speaks_aired radio (meshPayload size file)).tick linked.genuine (link.io, link.packets)
          maxSends)⟩
  | deliver index now =>
      unfold ArqLink.step
      dsimp only
      split
      · exact ⟨link, rfl, linked⟩
      · rename_i packet there
        obtain ⟨after, ran, isLinked, _⟩ :=
          linked.deliver positive atMost (List.mem_of_getElem? there) now
        exact ⟨after, ran, isLinked⟩
  | answer index =>
      unfold ArqLink.step
      dsimp only
      split
      · exact ⟨link, rfl, linked⟩
      · rename_i reply there
        exact ⟨_, rfl, (linked.answer radio (List.mem_of_getElem? there)).1⟩

theorem Linked.run (linked : link.Linked size file) (positive : 1 ≤ size)
    (atMost : size ≤ maxMtu) (fits : meshTotal size file.length < 2 ^ 16) (radio : Radio σ)
    {moves : List Move} (within : ∀ move ∈ moves, move.Within (meshTotal size file.length)) :
    ∃ after, link.run radio (meshPayload size file) moves = some after ∧
      after.Linked size file := by
  induction moves generalizing link with
  | nil => exact ⟨link, rfl, linked⟩
  | cons move rest inductionHypothesis =>
      obtain ⟨next, stepped, isNext⟩ :=
        linked.step positive atMost fits radio (within move List.mem_cons_self)
      obtain ⟨after, ran, isLinked⟩ := inductionHypothesis isNext fun other member =>
        within other (List.mem_cons_of_mem move member)
      refine ⟨after, ?_, isLinked⟩
      rw [ArqLink.run, stepped]
      exact ran

/-- Everything has been taken and nothing is pending: the receiver has the file. -/
theorem Linked.delivered (linked : link.Linked size file) (positive : 1 ≤ size)
    (all : ∀ seq < meshTotal size file.length, seq ∈ link.accepted)
    (idle : link.sender.hasPending = false) :
    link.receiver.isComplete = true ∧ link.receiver.reassemblyBuf = file := by
  have none : link.sender.pending = ∅ := by
    by_contra some
    rw [(hasPending_iff linked.wf).mpr some] at idle
    contradiction
  have complete : link.receiver.isComplete = true := by
    apply linked.receiverWf.complete
    intro seq small
    rw [linked.total] at small
    rcases linked.custody seq (all seq small) with isPending | isMarked
    · rw [none] at isPending
      exact absurd isPending (Finset.notMem_empty seq)
    · exact isMarked
  obtain ⟨_, assembles⟩ := linked.receiver
  exact ⟨complete, assembles.complete positive complete⟩

theorem linked_start (io : σ) {windowSize : Nat} (window : 1 ≤ windowSize)
    (timeoutMs minRtoFloorMs peerAddr : Nat) (file : List UInt8) {size : Nat}
    (fits : meshTotal size file.length < 2 ^ 16) (r : Receiver) (heap : Allocations)
    (granted : (r.initReceiver (meshTotal size file.length) size file.length heap).1 = true) :
    (start io windowSize timeoutMs minRtoFloorMs peerAddr
      (r.initReceiver (meshTotal size file.length) size file.length heap).2).Linked size file := by
  have sound := Sender.sound_init io window timeoutMs minRtoFloorMs peerAddr
  have idle : (Sender.init io windowSize timeoutMs minRtoFloorMs peerAddr).sr.pending = ∅ := by
    simp [Sender.init, pending, occupied]
  have started := (Receiver.initReceiver_outcome (r := r) fits size file.length heap).2 granted
  refine ⟨sound.wf, fun index inUse => ?_, ⟨[], ?_⟩, ?_, fun _ none => absurd none List.not_mem_nil,
    ?_, fun _ none => absurd none List.not_mem_nil, fun _ none => absurd none List.not_mem_nil⟩
  · simp [start, Sender.init, occupied] at inUse
  · exact
      { tracks := Receiver.tracks_started _ started
        session := ⟨started.fragmentSize, started.fileSize, started.totalFragments⟩
        filled := fun seq isMarked => absurd isMarked (started.empty seq) }
  all_goals
    intro seq isPending
    rw [start, idle] at isPending
    exact absurd isPending (Finset.notMem_empty seq)

/-! ## What can still be done -/

/-- One delivery and one answer release a pending fragment. -/
theorem Linked.settle (linked : link.Linked size file) (positive : 1 ≤ size)
    (atMost : size ≤ maxMtu) (radio : Radio σ) {seq : Nat} (isPending : seq ∈ link.sender.pending) :
    ∃ moves after, link.run radio (meshPayload size file) moves = some after ∧
      after.Linked size file ∧ (∀ move ∈ moves, move.Within (meshTotal size file.length)) ∧
      after.sender.pending = link.sender.pending.erase seq ∧ after.accepted = link.accepted := by
  have onAir := linked.onAir seq isPending
  obtain ⟨heard, delivered, heardLinked, sameSender, sameAccepted, answered⟩ :=
    linked.deliver positive atMost onAir 0
  have isAnswer := answered (linked.inRange seq isPending)
  obtain ⟨isLinked, released⟩ := heardLinked.answer radio isAnswer
  obtain ⟨packetIndex, packetAt⟩ := List.mem_iff_getElem?.mp onAir
  obtain ⟨replyIndex, replyAt⟩ := List.mem_iff_getElem?.mp isAnswer
  refine ⟨[.deliver packetIndex 0, .answer replyIndex], _, ?_, isLinked, ?_, ?_, ?_⟩
  · simp only [ArqLink.run, ArqLink.step, packetAt, delivered, replyAt, Option.bind_eq_bind,
      Option.bind_some]
  · intro move member
    rcases List.mem_cons.mp member with rfl | last
    · trivial
    · rw [List.mem_singleton.mp last]
      trivial
  · rw [released rfl, sameSender]
  · exact sameAccepted

/-- So the whole window can be released. -/
theorem Linked.drain (linked : link.Linked size file) (positive : 1 ≤ size)
    (atMost : size ≤ maxMtu) (radio : Radio σ) :
    ∃ moves after, link.run radio (meshPayload size file) moves = some after ∧
      after.Linked size file ∧ (∀ move ∈ moves, move.Within (meshTotal size file.length)) ∧
      after.sender.pending = ∅ ∧ after.accepted = link.accepted := by
  induction count : link.sender.pending.card generalizing link with
  | zero =>
      exact ⟨[], link, rfl, linked, fun _ none => absurd none List.not_mem_nil,
        Finset.card_eq_zero.mp count, rfl⟩
  | succ n inductionHypothesis =>
      obtain ⟨seq, isPending⟩ := Finset.card_pos.mp (by omega : 0 < link.sender.pending.card)
      obtain ⟨early, next, ran, isNext, withinEarly, erased, sameEarly⟩ :=
        linked.settle positive atMost radio isPending
      have fewer : next.sender.pending.card = n := by
        rw [erased, Finset.card_erase_of_mem isPending, count]
        rfl
      obtain ⟨late, after, ranLate, isLinked, withinLate, none, sameLate⟩ :=
        inductionHypothesis isNext fewer
      refine ⟨early ++ late, after, ?_, isLinked, ?_, none, sameLate.trans sameEarly⟩
      · rw [run_append, ran]
        exact ranLate
      · intro move member
        rcases List.mem_append.mp member with first | second
        · exact withinEarly move first
        · exact withinLate move second

/-- A fragment can be sent from an idle window, if the radio takes packets. -/
theorem Linked.sendNext (linked : link.Linked size file) (positive : 1 ≤ size)
    (atMost : size ≤ espnowMaxPayload) (fits : meshTotal size file.length < 2 ^ 16)
    (takes : ∀ io dst seq data, 0 ≤ (radio.send io dst .data seq data).1)
    (idle : link.sender.pending = ∅) {seq : Nat} (known : seq < meshTotal size file.length) :
    ∃ after, link.step radio (meshPayload size file) (.sendFragment seq) = some after ∧
      after.Linked size file ∧ after.accepted = seq :: link.accepted := by
  refine ⟨_, rfl, linked.sendFragment fits known rfl, ?_⟩
  have small : seq < noSeqTag := by
    unfold noSeqTag
    omega
  have spec := sendFragment_spec radio.aired linked.wf (link.io, link.packets) small
    (meshPayload size file seq)
  have fromIdle := sendFragment_idle radio.aired linked.wf
    (linked.wf.pending_eq_empty_iff.mp idle) (link.io, link.packets) seq
    (meshPayload size file seq)
  have sendable : ¬ (meshPayload size file seq = [] ∨
      espnowMaxPayload < (meshPayload size file seq).length) := by
    obtain ⟨filled, short⟩ := meshPayload_length positive (atMost.trans (by decide)) known
    rintro (none | long)
    · exact filled none
    · omega
  have refusedIff := (fromIdle.2 sendable).1
  have transmitted := takes (radio.aired.nowMs (link.io, link.packets)).2.1 link.sender.peerAddr seq
    (meshPayload size file seq)
  rcases spec.2.2 with ⟨taken, -⟩ | ⟨refused, -⟩
  · exact if_pos taken
  · exact absurd (refusedIff.mp (by rw [refused]; decide)) (not_lt.mpr transmitted)

/-- So the first `n` fragments can be brought to the receiver. -/
theorem Linked.finish (linked : link.Linked size file) (positive : 1 ≤ size)
    (atMost : size ≤ espnowMaxPayload) (fits : meshTotal size file.length < 2 ^ 16)
    (takes : ∀ io dst seq data, 0 ≤ (radio.send io dst .data seq data).1) {n : Nat}
    (inside : n ≤ meshTotal size file.length) :
    ∃ moves after, link.run radio (meshPayload size file) moves = some after ∧
      after.Linked size file ∧ (∀ move ∈ moves, move.Within (meshTotal size file.length)) ∧
      after.sender.pending = ∅ ∧ ∀ seq < n, seq ∈ after.accepted := by
  have atMostMtu : size ≤ maxMtu := atMost.trans (by decide)
  induction n with
  | zero =>
      obtain ⟨moves, after, ran, isLinked, within, idle, -⟩ :=
        linked.drain positive atMostMtu radio
      exact ⟨moves, after, ran, isLinked, within, idle,
        fun _ none => absurd none (Nat.not_lt_zero _)⟩
  | succ n inductionHypothesis =>
      obtain ⟨early, settled, ran, isSettled, withinEarly, idle, taken⟩ :=
        inductionHypothesis (by omega)
      obtain ⟨sent, stepped, isSent, grown⟩ :=
        isSettled.sendNext positive atMost fits takes idle (Nat.lt_of_succ_le inside)
      obtain ⟨late, after, ranLate, isLinked, withinLate, idleAgain, same⟩ :=
        isSent.drain positive atMostMtu radio
      refine ⟨early ++ .sendFragment n :: late, after, ?_, isLinked, ?_, idleAgain, ?_⟩
      · rw [run_append, ran, Option.bind_some, ArqLink.run, stepped]
        exact ranLate
      · intro move member
        rcases List.mem_append.mp member with first | rest
        · exact withinEarly move first
        rcases List.mem_cons.mp rest with rfl | second
        · exact inside
        · exact withinLate move second
      · intro seq small
        rw [same, grown]
        rcases Nat.lt_succ_iff_lt_or_eq.mp small with before | rfl
        · exact List.mem_cons_of_mem n (taken seq before)
        · exact List.mem_cons_self

end ArqLink

/-- Whatever the air does to packets and replies and however often the sender is called: no
access of the receiver leaves an array, a fragment that `send_fragment` has taken is pending
until the receiver has it, and once all of the session have been taken and none is pending, the
receiver holds the file. -/
theorem arq_link_delivers {σ : Type} (radio : Radio σ) (io : σ) (file : List UInt8) {size : Nat}
    (positive : 1 ≤ size) (atMost : size ≤ maxMtu) (fits : meshTotal size file.length < 2 ^ 16)
    {windowSize : Nat} (window : 1 ≤ windowSize) (timeoutMs minRtoFloorMs peerAddr : Nat)
    (r : Receiver) (heap : Allocations)
    (granted : (r.initReceiver (meshTotal size file.length) size file.length heap).1 = true)
    (moves : List ArqLink.Move)
    (within : ∀ move ∈ moves, move.Within (meshTotal size file.length)) :
    ∃ link, (ArqLink.start io windowSize timeoutMs minRtoFloorMs peerAddr
        (r.initReceiver (meshTotal size file.length) size file.length heap).2).run radio
          (meshPayload size file) moves = some link ∧
      (∀ seq ∈ link.accepted,
        seq ∈ link.sender.pending ∨ link.receiver.recvBitmap.Marked seq) ∧
      ((∀ seq < meshTotal size file.length, seq ∈ link.accepted) →
        link.sender.hasPending = false →
          link.receiver.isComplete = true ∧ link.receiver.reassemblyBuf = file) := by
  have start := ArqLink.linked_start io window timeoutMs minRtoFloorMs peerAddr file fits r heap
    granted
  obtain ⟨link, ran, linked⟩ := start.run positive atMost fits radio within
  exact ⟨link, ran, linked.custody, linked.delivered positive⟩

/-- The second of two bytes is heard twice, and a NACK brings the first one out again. -/
def reorderedMoves : List ArqLink.Move :=
  [.sendFragment 0, .sendFragment 1, .deliver 0 5, .deliver 0 6, .answer 2, .answer 1,
    .deliver 0 9, .answer 0, .tick 4]

theorem arq_link_delivers_reordered : ∃ link,
    (ArqLink.start ([], []) 64 3000 200 7
      ((Receiver.init 64 0).initReceiver (meshTotal 1 2) 1 2 .plenty).2).run Radio.scripted
        (meshPayload 1 [1, 2]) reorderedMoves = some link ∧
      link.receiver.isComplete = true ∧ link.receiver.reassemblyBuf = [1, 2] := by
  have granted := initReceiver_plenty (.init 64 0) (meshTotal 1 2) 1 (by decide : 2 ≤ 4000000)
  obtain ⟨link, ran, -, delivered⟩ := arq_link_delivers Radio.scripted ([], []) [1, 2]
    (by decide : 1 ≤ 1) (by decide) (by decide) (by decide : 1 ≤ 64) 3000 200 7 _ .plenty granted
    reorderedMoves (by
      intro move member
      simp only [reorderedMoves, List.mem_cons, List.not_mem_nil, or_false] at member
      rcases member with rfl | rfl | rfl | rfl | rfl | rfl | rfl | rfl | rfl
      · exact (by decide : 0 < 2)
      · exact (by decide : 1 < 2)
      all_goals exact trivial)
  have settled : ((ArqLink.start ([], []) 64 3000 200 7
      ((Receiver.init 64 0).initReceiver (meshTotal 1 2) 1 2 .plenty).2).run Radio.scripted
        (meshPayload 1 [1, 2]) reorderedMoves).any
          (fun link => link.accepted == [1, 0] && !link.sender.hasPending) = true := by
    decide +kernel
  have reached : (link.accepted == [1, 0] && !link.sender.hasPending) = true :=
    (congrArg (Option.any _) ran).symm.trans settled
  rw [Bool.and_eq_true, beq_iff_eq, Bool.not_eq_true'] at reached
  refine ⟨link, ran, delivered ?_ reached.2⟩
  intro seq small
  have known : seq < 2 := small
  rw [reached.1, List.mem_cons, List.mem_singleton]
  omega

/-- No such run ends in a state from which the transfer cannot be finished, provided that the
radio takes what it is given: some further moves bring the whole file over. -/
theorem arq_link_recovers {σ : Type} (radio : Radio σ) (io : σ) (file : List UInt8) {size : Nat}
    (positive : 1 ≤ size) (atMost : size ≤ espnowMaxPayload)
    (fits : meshTotal size file.length < 2 ^ 16)
    (takes : ∀ io dst seq data, 0 ≤ (radio.send io dst .data seq data).1)
    {windowSize : Nat} (window : 1 ≤ windowSize) (timeoutMs minRtoFloorMs peerAddr : Nat)
    (r : Receiver) (heap : Allocations)
    (granted : (r.initReceiver (meshTotal size file.length) size file.length heap).1 = true)
    (moves : List ArqLink.Move)
    (within : ∀ move ∈ moves, move.Within (meshTotal size file.length)) :
    ∃ more, (∀ move ∈ more, move.Within (meshTotal size file.length)) ∧
      ∃ link, (ArqLink.start io windowSize timeoutMs minRtoFloorMs peerAddr
          (r.initReceiver (meshTotal size file.length) size file.length heap).2).run radio
            (meshPayload size file) (moves ++ more) = some link ∧
        link.sender.hasPending = false ∧ link.receiver.isComplete = true ∧
          link.receiver.reassemblyBuf = file := by
  have start := ArqLink.linked_start io window timeoutMs minRtoFloorMs peerAddr file fits r heap
    granted
  obtain ⟨link, ran, linked⟩ := start.run positive (atMost.trans (by decide)) fits radio within
  obtain ⟨more, after, ranMore, isLinked, withinMore, idle, all⟩ :=
    linked.finish positive atMost fits takes le_rfl
  have quiet : after.sender.hasPending = false := by
    rw [← Bool.not_eq_true, SelectiveRepeat.hasPending_iff isLinked.wf, not_not]
    exact idle
  refine ⟨more, withinMore, after, ?_, quiet, isLinked.delivered positive all quiet⟩
  rw [ArqLink.run_append, ran]
  exact ranMore

/-- A radio that takes everything, with a clock that moves at each reading. -/
def Radio.willing : Radio Nat where
  nowMs io := (io, io + 1)
  send io _ _ _ _ := (0, io)

/-- The first byte is on its way; nothing has been heard of it. -/
theorem arq_link_recovers_unheard : ∃ more link,
    (ArqLink.start 0 64 3000 200 7
      (Receiver.initReceiver {} (meshTotal 1 2) 1 2 .plenty).2).run Radio.willing
        (meshPayload 1 [1, 2]) ([.sendFragment 0, .tick 4] ++ more) = some link ∧
      link.receiver.reassemblyBuf = [1, 2] := by
  have granted := initReceiver_plenty {} (meshTotal 1 2) 1 (by decide : 2 ≤ 4000000)
  obtain ⟨more, -, link, ran, -, -, whole⟩ := arq_link_recovers Radio.willing 0 [1, 2]
    (by decide : 1 ≤ 1) (by decide) (by decide) (fun _ _ _ _ => le_rfl) (by decide : 1 ≤ 64)
    3000 200 7 {} .plenty granted [.sendFragment 0, .tick 4] (by
      intro move member
      rcases List.mem_cons.mp member with rfl | last
      · exact (by decide : 0 < 2)
      · rw [List.mem_singleton.mp last]
        trivial)
  exact ⟨more, link, ran, whole⟩

end ForestLink.Protocol
