/-
Module: ForestLink.Proofs.CongestionBit
Purpose: When the congestion bit of an ACK or NACK is transparent: the sequence number in
  the high bit is free, for every path from the answering node to the source.
Trusted boundary: none
Main exports: FragmentAnswer.Travels.header, FragmentAnswer.Transparent, transparent_iff,
  congestion_bit_transparent_iff
-/
import ForestLink.Mesh.Answers
import ForestLink.Proofs.RelayDedup
import ForestLink.Proofs.TransferStart

namespace ForestLink.Mesh

open ForestLink.Lib
open ForestLink.Protocol

namespace MeshManager

variable {P : MeshOutput → Prop} {packet : MeshPacket} {forwarded : Bool}

/-! ## What the send path adds to the outputs -/

theorem extends_sendRaw
    (sound : ∀ transport peer result, P (.sent transport peer packet result forwarded))
    (m : MeshManager) (transport : Transport) (peer : Nat) :
    Extends P m.outputs (m.sendRaw transport packet peer forwarded).2.outputs := by
  unfold sendRaw
  split
  · exact .refl _ _
  · dsimp only
    split <;> exact .cons (sound ..) _

theorem extends_sendBoth
    (sound : ∀ transport peer result, P (.sent transport peer packet result forwarded))
    (m : MeshManager) : Extends P m.outputs (m.sendBoth packet forwarded).outputs :=
  (extends_sendRaw sound m _ _).trans (extends_sendRaw sound _ _ _)

theorem outputs_selectTransport (m : MeshManager) (type : MeshPacketType) :
    (m.selectTransport type).2.outputs = m.outputs := by
  unfold selectTransport
  dsimp only
  split <;> rfl

theorem extends_sendVia
    (sound : ∀ transport peer result, P (.sent transport peer packet result forwarded))
    (m : MeshManager) (peer : Nat) :
    Extends P m.outputs (m.sendVia packet peer forwarded).2.outputs := by
  have sent := extends_sendRaw sound (m.selectTransport packet.header.type).2
    (m.selectTransport packet.header.type).1 peer
  rw [outputs_selectTransport] at sent
  exact sent

theorem extends_sendPacket (m : MeshManager) (dst : Nat) (type : MeshPacketType)
    (payload : List UInt8) (seq : Nat)
    (sound : ∀ transport peer result,
      P (.sent transport peer (freshPacket m.myAddr dst type payload seq) result false)) :
    Extends P m.outputs (m.sendPacket dst type payload seq).2.outputs := by
  unfold sendPacket
  split
  · exact .refl _ _
  dsimp only
  split
  · exact extends_sendBoth sound m
  split
  · split
    · exact extends_sendBoth sound m
    · exact .refl _ _
  · exact extends_sendVia sound m _

/-! ## What a node makes of a fragment or an answer -/

/-- The packets of the transfer itself: fragments and answers. -/
def isArqType : MeshPacketType → Bool
  | .data | .parity | .ack | .nack => true
  | _ => false

/-- The outputs that such a packet can cause at a node: the packet one hop further, the
echo of a fragment that congestion drops, and the packet for the engine. -/
def Answering (m : MeshManager) (packet : MeshPacket) : MeshOutput → Prop
  | .sent _ _ next _ true =>
      next.header = markCongestion (nextHeader packet.header) m.congested
  | .sent _ _ echo _ false =>
      echo = freshPacket m.myAddr packet.header.srcAddr .nack []
        (seqWithCongestion packet.header.seqNum true)
  | .toEngine delivered _ => delivered = packet
  | _ => True

theorem rebroadcast_of_isArqType {type : MeshPacketType} (arq : isArqType type = true) :
    rebroadcast type = false := by
  cases type <;> first | rfl | cases arq

theorem extends_forwardPacket (m : MeshManager) (packet : MeshPacket)
    (arq : isArqType packet.header.type = true) :
    Extends (m.Answering packet) m.outputs (m.forwardPacket packet).outputs := by
  unfold forwardPacket
  dsimp only
  split
  · unfold dropCongested
    split
    · exact extends_sendPacket m _ _ _ _ fun _ _ _ => rfl
    · exact extends_sendPacket m _ _ _ _ fun _ _ _ => rfl
    · exact .refl _ _
  · rw [rebroadcast_of_isArqType arq]
    split
    · contradiction
    split
    · exact .refl _ _
    · exact extends_sendVia (fun _ _ _ => rfl) m _

theorem dispatch_of_isArqType (m : MeshManager) (arq : isArqType packet.header.type = true) :
    m.dispatch packet = m.emit (.toEngine packet m.isExit) := by
  unfold dispatch
  cases type : packet.header.type <;> first | rfl | (rw [type] at arq; cases arq)

theorem hearOffline_of_isArqType (m : MeshManager)
    (arq : isArqType packet.header.type = true) : m.hearOffline packet = m := by
  unfold hearOffline
  apply if_neg
  rintro ⟨type, _⟩
  rw [type] at arq
  cases arq

theorem answering_hear (m : MeshManager) (packet : MeshPacket) :
    (m.hear packet).Answering packet = m.Answering packet := by
  have same : (m.hear packet).myAddr = m.myAddr := myAddr_apply m (.hear packet)
  funext output
  unfold Answering
  rw [same]
  rfl

theorem extends_relay (m : MeshManager) (packet : MeshPacket)
    (arq : isArqType packet.header.type = true) :
    Extends (m.Answering packet) m.outputs (m.relay packet).outputs := by
  unfold relay alreadySeen
  split
  · exact .refl _ _
  · exact extends_forwardPacket (m.recordSeen packet m.seenNow) packet arq

/-- All that a fragment or an answer causes at a node. -/
theorem extends_processSlab (m : MeshManager) (packet : MeshPacket)
    (arq : isArqType packet.header.type = true) :
    Extends (m.Answering packet) m.outputs (m.processSlab packet).outputs := by
  unfold processSlab
  split
  · exact .refl _ _
  · dsimp only
    rw [hearOffline_of_isArqType m arq]
    split
    · exact .refl _ _
    split
    · rw [dispatch_of_isArqType _ arq]
      exact .cons (show m.Answering packet (.toEngine packet _) from rfl) _
    · have relayed := extends_relay (m.hear packet) packet arq
      rw [answering_hear] at relayed
      exact relayed

theorem answering_receive {m : MeshManager} {env : MeshEnv} {packet : MeshPacket}
    (arq : isArqType packet.header.type = true) {output : MeshOutput}
    (new : output ∈ m.recentOutputs (m.step ⟨env, .receive packet⟩)) :
    (m.setEnv env).Answering packet output :=
  (extends_processSlab (m.setEnv env) packet arq).recent output new

/-- A node sends to a neighbour that it can name as the next hop. -/
theorem transmits_send (m : MeshManager) (env : MeshEnv) (dst : Nat) (type : MeshPacketType)
    (payload : List UInt8) (seq : Nat) (fits : packetHeaderSize + payload.length ≤ maxMtu)
    (unicast : dst ≠ broadcastAddr) (routed : m.nextHop dst ≠ broadcastAddr)
    (lit : env.loraInitialized = true) :
    m.Transmits ⟨env, .send dst type payload seq⟩ (freshPacket m.myAddr dst type payload seq)
      false := by
  have outputs : ∃ transport peer result,
      (m.step ⟨env, .send dst type payload seq⟩).outputs =
        ([.sent transport peer (freshPacket m.myAddr dst type payload seq) result false] :
          List MeshOutput) ++ m.outputs := by
    change ∃ transport peer result, ((m.setEnv env).sendPacket dst type payload seq).2.outputs = _
    unfold sendPacket
    rw [if_neg (not_lt.mpr fits)]
    dsimp only
    rw [if_neg unicast, if_neg (show (m.setEnv env).nextHop dst ≠ broadcastAddr from routed)]
    have selected : ∀ type, ((m.setEnv env).selectTransport type).2.env.loraInitialized = true := by
      intro type
      unfold selectTransport
      dsimp only
      split <;> exact lit
    have sent := fun transport => outputs_sendRaw _ transport
      (freshPacket m.myAddr dst type payload seq) ((m.setEnv env).nextHop dst) false
      (.inr (selected (freshPacket m.myAddr dst type payload seq).header.type))
    exact ⟨_, _, _, (sent _).trans (congrArg _ (outputs_selectTransport ..))⟩
  obtain ⟨transport, peer, result, outputs⟩ := outputs
  refine ⟨transport, peer, result, ?_⟩
  rw [recentOutputs, outputs, Extends.recent_append]
  exact List.mem_singleton_self _

/-- A packet of the transfer that reaches its destination is handed over. -/
theorem delivers_to_me {m : MeshManager} {env : MeshEnv} {packet : MeshPacket}
    (arq : isArqType packet.header.type = true)
    (accepted : (m.setEnv env).refuses packet = false) (alive : packet.header.ttl ≠ 0)
    (mine : packet.header.dstAddr = m.myAddr) :
    ∃ isExit, m.Delivers ⟨env, .receive packet⟩ packet isExit := by
  have forUs : ((m.setEnv env).hear packet).forUs packet = true := by
    have same : ((m.setEnv env).hear packet).router.myAddr = m.myAddr :=
      myAddr_apply (m.setEnv env) (.hear packet)
    have direct : (packet.header.dstAddr == m.myAddr) = true := beq_iff_eq.mpr mine
    unfold MeshManager.forUs Router.forUs
    rw [same]
    simp [routeFrame, direct]
  have outputs : (m.step ⟨env, .receive packet⟩).outputs =
      ([.toEngine packet ((m.setEnv env).hear packet).isExit] : List MeshOutput) ++
        m.outputs := by
    change ((m.setEnv env).processSlab packet).outputs = _
    unfold processSlab
    rw [accepted]
    dsimp only
    rw [hearOffline_of_isArqType _ arq, if_neg alive, if_pos forUs, dispatch_of_isArqType _ arq]
    rfl
  refine ⟨((m.setEnv env).hear packet).isExit, ?_⟩
  unfold Delivers
  rw [recentOutputs, outputs, Extends.recent_append]
  exact List.mem_singleton_self _

end MeshManager

namespace FragmentAnswer

variable {answer : FragmentAnswer} {seq : Nat} {flagged : Bool} {packet : MeshPacket}

/-! ## The sequence number on the way -/

theorem isArqType_meshType (answer : FragmentAnswer) :
    MeshManager.isArqType answer.meshType = true := by
  cases answer <;> rfl

theorem meshType_named (answer : FragmentAnswer) (code : Nat) :
    answer.meshType ≠ .unnamed code := by
  cases answer <;> exact fun same => nomatch same

theorem airSeq_packetType (answer : FragmentAnswer) (io : Io) (number : Nat) :
    io.airSeq answer.packetType number =
      seqWithCongestion number (io.env.congestion.headD false) := by
  cases answer <;> rfl

theorem seqWithCongestion_lt (fits : seq < 2 ^ 16) (congested : Bool) :
    seqWithCongestion seq congested < 2 ^ 16 := by
  cases congested with
  | false => exact fits
  | true => exact Nat.or_lt_two_pow fits (by decide)

/-- Setting the flag a second time changes nothing. -/
theorem seqWithCongestion_or (seq : Nat) (first second : Bool) :
    seqWithCongestion (seqWithCongestion seq first) second =
      seqWithCongestion seq (first || second) := by
  cases first <;> cases second <;> simp [seqWithCongestion]

theorem markCongestion_of_meshType {header : PacketHeader}
    (type : header.type = answer.meshType) (congested : Bool) :
    (MeshManager.markCongestion header congested).seqNum =
      seqWithCongestion header.seqNum congested := by
  unfold MeshManager.markCongestion
  rw [type]
  cases answer <;> cases congested <;> rfl

/-- A packet of the node's own is the one that it built. -/
def BuiltAs (built : MeshPacket) : MeshOutput → Prop
  | .sent _ _ packet _ false => packet = built
  | _ => True

/-- What every packet on the way carries: its type, and the fragment number with the flag
that any node set. -/
theorem Travels.header (travels : answer.Travels seq flagged packet) (fits : seq < 2 ^ 16) :
    packet.header.type = answer.meshType ∧
      packet.header.seqNum = seqWithCongestion seq flagged := by
  induction travels with
  | @answered m env io dst packet sent =>
      obtain ⟨transport, peer, result, new⟩ := sent
      rw [airSeq_packetType] at new
      have built : packet = freshPacket m.myAddr dst answer.meshType []
          (seqWithCongestion seq (io.env.congestion.headD false)) :=
        (MeshManager.extends_sendPacket (P := BuiltAs _) (m.setEnv env) dst answer.meshType [] _
          fun _ _ _ => rfl).recent _ new
      rw [built]
      exact ⟨type_freshPacket _ _ _ _ _ answer.meshType_named,
        Nat.mod_eq_of_lt (seqWithCongestion_lt fits _)⟩
  | @echoed m env fragment packet type number nack sent =>
      obtain ⟨transport, peer, result, new⟩ := sent
      have arq : MeshManager.isArqType fragment.header.type = true := by
        rcases type with type | type <;> rw [type] <;> rfl
      have built : packet = _ := MeshManager.answering_receive arq new
      rw [built, nack, number]
      exact ⟨type_freshPacket _ _ _ _ _ (meshType_named .nack),
        Nat.mod_eq_of_lt (seqWithCongestion_lt fits _)⟩
  | @forwarded m env flagged packet next before sent inductionHypothesis =>
      obtain ⟨type, number⟩ := inductionHypothesis
      obtain ⟨transport, peer, result, new⟩ := sent
      have arq : MeshManager.isArqType packet.header.type = true := by
        rw [type]
        exact isArqType_meshType answer
      have marked : next.header = _ := MeshManager.answering_receive arq new
      have kept : (MeshManager.nextHeader packet.header).type = answer.meshType := type
      rw [marked]
      constructor
      · rw [MeshManager.type_markCongestion, kept]
      · rw [markCongestion_of_meshType kept]
        change seqWithCongestion packet.header.seqNum _ = _
        rw [number, seqWithCongestion_or]

/-! ## The bit at the source -/

theorem seqHasCongestion_eq (raw : Nat) : seqHasCongestion raw = raw.testBit 15 := by
  have flag : congestionFlag = 2 ^ 15 := rfl
  unfold seqHasCongestion
  rw [flag, Nat.and_two_pow]
  cases raw.testBit 15 <;> rfl

/-- With a free high bit the source reads the flag and nothing else. -/
theorem seqHasCongestion_withCongestion (small : seq < 2 ^ 15) (congested : Bool) :
    seqHasCongestion (seqWithCongestion seq congested) = congested := by
  rw [seqHasCongestion_eq]
  cases congested with
  | false => exact Nat.testBit_lt_two_pow small
  | true =>
      change (seq ||| 2 ^ 15).testBit 15 = true
      rw [Nat.testBit_or, Nat.testBit_two_pow_self, Bool.or_true]

/-- However an answer for `seq` reaches the engine of a node, it names `seq`, and the
congestion signal follows it exactly when a node on the way set the flag. -/
def Transparent (answer : FragmentAnswer) (seq : Nat) : Prop :=
  ∀ {flagged packet}, answer.Travels seq flagged packet →
    ∀ {m : MeshManager} {env delivered isExit},
      m.Delivers ⟨env, .receive packet⟩ delivered isExit →
        engineEvents delivered isExit =
          answer.event seq packet.header.srcAddr :: if flagged then [.congestion] else []

theorem engineEvents_of_meshType (isExit : Bool) (type : packet.header.type = answer.meshType) :
    engineEvents packet isExit =
      answer.event (seqStripCongestion packet.header.seqNum) packet.header.srcAddr ::
        if seqHasCongestion packet.header.seqNum then [.congestion] else [] := by
  unfold engineEvents
  dsimp only
  rw [type]
  cases answer <;> rfl

theorem transparent_of_small (answer : FragmentAnswer) (small : seq < 2 ^ 15) :
    answer.Transparent seq := by
  intro flagged packet travels m env delivered isExit handed
  obtain ⟨type, number⟩ := travels.header (small.trans (by decide))
  have arq : MeshManager.isArqType packet.header.type = true := by
    rw [type]
    exact isArqType_meshType answer
  have same : delivered = packet := MeshManager.answering_receive arq handed
  rw [same, engineEvents_of_meshType isExit type, number,
    seqStripCongestion_withCongestion small, seqHasCongestion_withCongestion small]

/-! ## A number in the high bit -/

/-- Node 2 has heard node 1 and answers it directly. -/
def neighborOfSource : MeshManager :=
  (MeshManager.boot 2 [] [] false).run
    [⟨{ nowMs := 10 }, .receive (freshPacket 1 broadcastAddr .discovery
      [0, 1, 0, 0, 0, 0, 0, 0] 0)⟩]

/-- The answer that node 2 sends for a fragment while nothing is congested. -/
def directAnswer (answer : FragmentAnswer) (seq : Nat) : MeshPacket :=
  freshPacket 2 1 answer.meshType [] seq

theorem travels_directAnswer (answer : FragmentAnswer) (seq : Nat) :
    answer.Travels seq false (answer.directAnswer seq) := by
  have number : ({} : Io).airSeq answer.packetType seq = seq := airSeq_packetType answer {} seq
  have sent := MeshManager.transmits_send neighborOfSource {} 1 answer.meshType []
    (({} : Io).airSeq answer.packetType seq) (by decide) (by decide) (by decide) rfl
  have travels : answer.Travels seq false
      (freshPacket 2 1 answer.meshType [] (({} : Io).airSeq answer.packetType seq)) :=
    .answered sent
  rw [number] at travels
  exact travels

theorem delivers_directAnswer (answer : FragmentAnswer) (seq : Nat) :
    ∃ isExit, (MeshManager.boot 1 [] [] false).Delivers
      ⟨{}, .receive (answer.directAnswer seq)⟩ (answer.directAnswer seq) isExit := by
  have arq : MeshManager.isArqType (answer.directAnswer seq).header.type = true := by
    rw [directAnswer, type_freshPacket _ _ _ _ _ answer.meshType_named]
    exact isArqType_meshType answer
  have version : (answer.directAnswer seq).header.version = protocolVersion := by
    change (({} : PacketHeader).setVerType protocolVersion answer.meshType).version = _
    cases answer <;> decide
  apply MeshManager.delivers_to_me arq
  · have unblocked : ((MeshManager.boot 1 [] [] false).setEnv {}).blocks
        (answer.directAnswer seq) = false := Bool.and_false _
    rw [MeshManager.refuses, version, unblocked]
    rfl
  · rw [directAnswer, ttl_freshPacket]
    decide
  · rfl

/-- A number in the high bit loses it, and its answer reads as a congestion signal. -/
theorem not_transparent_of_large (answer : FragmentAnswer) (fits : seq < 2 ^ 16)
    (large : 2 ^ 15 ≤ seq) : ¬ answer.Transparent seq := by
  intro transparent
  obtain ⟨isExit, handed⟩ := delivers_directAnswer answer seq
  have events := transparent (travels_directAnswer answer seq) handed
  have type : (answer.directAnswer seq).header.type = answer.meshType :=
    type_freshPacket _ _ _ _ _ answer.meshType_named
  have number : (answer.directAnswer seq).header.seqNum = seq := Nat.mod_eq_of_lt fits
  have flagged : seqHasCongestion seq = true := by
    rw [seqHasCongestion_eq]
    exact Nat.testBit_of_two_pow_le_and_two_pow_add_one_gt large fits
  rw [engineEvents_of_meshType isExit type, number, flagged] at events
  cases (List.cons.inj events).2

theorem transparent_iff (answer : FragmentAnswer) (fits : seq < 2 ^ 16) :
    answer.Transparent seq ↔ seq < 2 ^ 15 := by
  constructor
  · intro transparent
    by_contra large
    exact not_transparent_of_large answer fits (not_lt.mp large) transparent
  · exact transparent_of_small answer

end FragmentAnswer

/-! ## Accepted mesh transfers -/

section AcceptedTransfers

variable {F : Type}

theorem announcedCount_lt (args : TransferEngine.StartArgs) :
    args.announcedCount < 2 ^ 16 := by
  unfold TransferEngine.StartArgs.announcedCount
  split
  · exact Nat.mod_lt _ (by decide)
  · exact Nat.mod_lt _ (by decide)

/-- The congestion bit is transparent for all fragments of an accepted mesh transfer exactly
when their announced number leaves the high bit free. -/
theorem congestion_bit_transparent_iff (e : TransferEngine F) (args : TransferEngine.StartArgs)
    (mesh : args.onLocalExit = false) (accepted : (e.startFileTransfer args).1 = true) :
    (∀ answer : FragmentAnswer,
      ∀ seq < (e.startFileTransfer args).2.transfer.fragmentCount, answer.Transparent seq) ↔
      TransferEngine.meshFragmentCount (TransferEngine.dataFragCount args.size) ≤ 2 ^ 15 := by
  have count : TransferEngine.meshFragmentCount (TransferEngine.dataFragCount args.size) =
      args.announcedCount := by
    unfold TransferEngine.StartArgs.announcedCount
    rw [mesh]
    rfl
  have bounded := announcedCount_lt args
  rw [TransferEngine.fragmentCount_of_accepted e args accepted, count]
  constructor
  · intro transparent
    by_contra large
    rw [not_le] at large
    have flagless : 2 ^ 15 < 2 ^ 15 :=
      (FragmentAnswer.transparent_iff .ack (by decide)).mp (transparent .ack (2 ^ 15) large)
    exact absurd flagless (Nat.lt_irrefl _)
  · intro small answer seq below
    have flagless := below.trans_le small
    rw [FragmentAnswer.transparent_iff answer (flagless.trans (by decide))]
    exact flagless

theorem congestion_bit_transparent_three_bytes :
    FragmentAnswer.Transparent .ack 0 :=
  (congestion_bit_transparent_iff (.boot 1 4 : TransferEngine ℚ)
    (TransferEngine.zeroFileArgs 3 false) rfl (by decide +kernel)).mpr (by decide) .ack 0
      (by decide +kernel)

/-- A mesh transfer of 40000 fragments is accepted.  The answer to fragment 32768, which no
node flags, arrives as the answer to fragment 0 with a congestion signal. -/
theorem high_fragment_misread :
    let started := (.boot 1 4 : TransferEngine ℚ).startFileTransfer
      (TransferEngine.zeroFileArgs (35000 * 1456) false)
    started.1 = true ∧ started.2.transfer.fragmentCount = 40000 ∧
      FragmentAnswer.Travels .ack 32768 false (FragmentAnswer.directAnswer .ack 32768) ∧
      seqStripCongestion (FragmentAnswer.directAnswer .ack 32768).header.seqNum = 0 ∧
      seqHasCongestion (FragmentAnswer.directAnswer .ack 32768).header.seqNum = true ∧
      ¬ FragmentAnswer.Transparent .ack 32768 := by
  have accepted : ((.boot 1 4 : TransferEngine ℚ).startFileTransfer
      (TransferEngine.zeroFileArgs (35000 * 1456) false)).1 = true := by
    rw [← Bool.not_eq_false, TransferEngine.startFileTransfer_refuses_iff]
    decide
  refine ⟨accepted, ?_, FragmentAnswer.travels_directAnswer .ack 32768, by decide, by decide,
    FragmentAnswer.not_transparent_of_large .ack (by decide) (by decide)⟩
  rw [TransferEngine.fragmentCount_of_accepted _ _ accepted]
  decide

end AcceptedTransfers

end ForestLink.Mesh
