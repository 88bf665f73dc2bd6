/-
Module: ForestLink.Proofs.MeshFrames
Purpose: What the bookkeeping stages of the transfer engine leave alone, and how
  the other stages change the role of the node.
Trusted boundary: none
Main exports: Io.Later, Role, KeepsFragments, Keeps, Serves, keeps_tickArqs,
  keeps_drainOow, serves_drainExitNacks, keeps_handleNack, role_electExits,
  role_resetSenderTransferState, role_clearExitNodeState
-/
import ForestLink.Proofs.SenderWindow
import ForestLink.Proofs.StageRules

namespace ForestLink.Mesh

open ForestLink.Lib
open ForestLink.Protocol

/-! ## Surroundings -/

/-- The output publishes the description of a file. -/
def Output.isMeta : Output → Bool
  | .transferMeta .. => true
  | _ => false

namespace Io

/-- The surroundings later in the same call: the clock went on, and nothing
published a description. -/
structure Later (io after : Io) : Prop where
  clock : ∃ readings, ∀ n, after.env.clock n = io.env.clock (n + readings)
  outputs : ∃ fresh, after.outputs = fresh ++ io.outputs ∧
    ∀ output ∈ fresh, output.isMeta = false

theorem Later.refl (io : Io) : Later io io :=
  ⟨⟨0, fun _ => rfl⟩, ⟨[], rfl, fun _ impossible => absurd impossible List.not_mem_nil⟩⟩

theorem Later.trans {first second third : Io} (left : Later first second)
    (right : Later second third) : Later first third := by
  obtain ⟨⟨early, earlyEq⟩, ⟨earlyOutputs, earlyAppend, earlyPlain⟩⟩ := left
  obtain ⟨⟨late, lateEq⟩, ⟨lateOutputs, lateAppend, latePlain⟩⟩ := right
  refine ⟨⟨late + early, fun n => ?_⟩, ⟨lateOutputs ++ earlyOutputs, ?_, ?_⟩⟩
  · rw [lateEq, earlyEq, Nat.add_assoc]
  · rw [lateAppend, earlyAppend, List.append_assoc]
  · intro output member
    rcases List.mem_append.mp member with inLate | inEarly
    · exact latePlain output inLate
    · exact earlyPlain output inEarly

/-- Same clock, one more output. -/
theorem later_output {io after : Io} {output : Output} (clock : after.env.clock = io.env.clock)
    (outputs : after.outputs = output :: io.outputs) (plain : output.isMeta = false) :
    Later io after := by
  refine ⟨⟨0, fun n => congrFun clock n⟩, ⟨[output], outputs, ?_⟩⟩
  intro other member
  rw [List.mem_singleton.mp member]
  exact plain

/-- Same clock, same outputs. -/
theorem later_same {io after : Io} (clock : after.env.clock = io.env.clock)
    (outputs : after.outputs = io.outputs) : Later io after :=
  ⟨⟨0, fun n => congrFun clock n⟩,
    ⟨[], outputs, fun _ impossible => absurd impossible List.not_mem_nil⟩⟩

theorem later_nowMs (io : Io) : Later io io.nowMs.2 :=
  ⟨⟨1, fun _ => rfl⟩, ⟨[], rfl, fun _ impossible => absurd impossible List.not_mem_nil⟩⟩

theorem later_sendPacket (io : Io) (dst : Nat) (type : PacketType) (payload : List UInt8)
    (seq : Nat) : Later io (io.sendPacket dst type payload seq).2 := by
  unfold sendPacket
  dsimp only
  split <;> exact later_output rfl rfl rfl

theorem later_forwardToMqtt (io : Io) (session seq srcNode : Nat) (data filename : List UInt8) :
    Later io (io.forwardToMqtt session seq srcNode data filename).2 :=
  later_output rfl rfl rfl

theorem later_readChunk (io : Io) (file : Option (Nat → Nat → List UInt8)) (offset len : Nat) :
    Later io (io.readChunk file offset len).2 := by
  unfold readChunk
  dsimp only
  split
  · exact .refl io
  · exact later_same rfl rfl

theorem later_radio : SelectiveRepeat.Respects radio Later where
  refl := .refl
  trans := .trans
  nowMs := later_nowMs
  send io dst seq data := later_sendPacket io dst .data data seq

end Io

end ForestLink.Mesh

namespace ForestLink.Mesh.TransferEngine

open ForestLink.Lib
open ForestLink.Protocol
open ForestLink.Protocol.SelectiveRepeat (SameFragments)

variable {F : Type}

/-! ## Frames -/

/-- The part of the state that says which role the node plays and for which file. -/
structure Role where
  myAddr : Nat
  active : Bool
  localExit : Bool
  electionActive : Bool
  meshUploadDone : Bool
  isExitNode : Bool
  exitPending : Bool
  activeSessionId : Nat
  sourceAddr : Nat
  sessionId : Nat
  size : Nat
  crc32 : Nat
  fragmentCount : Nat
  fragmentSize : Nat
  filename : List UInt8
  exitNodeCount : Nat
  exitNodes : Nat → Nat
  lastAckMs : Nat → Nat
  meshWindowCap : Nat
  exitNodeTimeoutMs : Nat

def role (e : TransferEngine F) : Role where
  myAddr := e.myAddr
  active := e.transfer.active
  localExit := e.localExit
  electionActive := e.electionActive
  meshUploadDone := e.meshUploadDone
  isExitNode := e.isExitNode
  exitPending := e.exitPending
  activeSessionId := e.activeSessionId
  sourceAddr := e.sourceAddr
  sessionId := e.transfer.sessionId
  size := e.transfer.size
  crc32 := e.transfer.crc32
  fragmentCount := e.transfer.fragmentCount
  fragmentSize := e.transfer.fragmentSize
  filename := e.transfer.filename
  exitNodeCount := e.transfer.exitNodeCount
  exitNodes := e.transfer.exitNodes
  lastAckMs := e.transfer.lastAckMs
  meshWindowCap := e.meshWindowCap
  exitNodeTimeoutMs := e.exitNodeTimeoutMs

/-- The stage left the transfer record, the role, the placement log and the
fragments of every window as they were. -/
structure KeepsFragments (e after : TransferEngine F) : Prop where
  role : after.role = e.role
  transfer : after.transfer = e.transfer
  arq : ∀ index, SameFragments (e.arq index) (after.arq index)
  redistPending : after.redistPending = e.redistPending
  log : after.log = e.log
  io : Io.Later e.io after.io

/-- The stage left the cloud activity timestamp alone as well. -/
structure Keeps (e after : TransferEngine F) : Prop extends KeepsFragments e after where
  cloud : after.lastCloudActivityMs = e.lastCloudActivityMs

/-- The stage may have stamped cloud activity, with the time `now` of the caller or
with a reading of its own. -/
structure Serves (now : Nat) (e after : TransferEngine F) : Prop
    extends KeepsFragments e after where
  stamp : after.lastCloudActivityMs = e.lastCloudActivityMs ∨
    after.lastCloudActivityMs = now % 2 ^ 32 ∨
    ∃ n, after.lastCloudActivityMs = e.io.env.clock n % 2 ^ 32

theorem KeepsFragments.refl (e : TransferEngine F) : KeepsFragments e e :=
  ⟨rfl, rfl, fun _ => .refl _, rfl, rfl, .refl _⟩

theorem KeepsFragments.trans {first second third : TransferEngine F}
    (left : KeepsFragments first second) (right : KeepsFragments second third) :
    KeepsFragments first third where
  role := right.role.trans left.role
  transfer := right.transfer.trans left.transfer
  arq index := (left.arq index).trans (right.arq index)
  redistPending := right.redistPending.trans left.redistPending
  log := right.log.trans left.log
  io := left.io.trans right.io

theorem Keeps.refl (e : TransferEngine F) : Keeps e e := ⟨.refl e, rfl⟩

theorem Keeps.trans {first second third : TransferEngine F} (left : Keeps first second)
    (right : Keeps second third) : Keeps first third :=
  ⟨left.toKeepsFragments.trans right.toKeepsFragments, right.cloud.trans left.cloud⟩

theorem Keeps.serves {e after : TransferEngine F} (keeps : Keeps e after) (now : Nat) :
    Serves now e after :=
  ⟨keeps.toKeepsFragments, .inl keeps.cloud⟩

theorem Serves.trans {now : Nat} {first second third : TransferEngine F}
    (left : Serves now first second) (right : Serves now second third) :
    Serves now first third := by
  refine ⟨left.toKeepsFragments.trans right.toKeepsFragments, ?_⟩
  rcases right.stamp with same | caller | ⟨n, own⟩
  · rw [same]
    exact left.stamp
  · exact .inr (.inl caller)
  · obtain ⟨readings, shift⟩ := left.io.clock
    exact .inr (.inr ⟨n + readings, own.trans (by rw [shift])⟩)

/-- Only fields outside the frame and the surroundings changed. -/
theorem keeps_of_fields {e after : TransferEngine F} (role : after.role = e.role)
    (transfer : after.transfer = e.transfer) (arq : after.arq = e.arq)
    (redistPending : after.redistPending = e.redistPending) (log : after.log = e.log)
    (cloud : after.lastCloudActivityMs = e.lastCloudActivityMs) (io : Io.Later e.io after.io) :
    Keeps e after :=
  ⟨⟨role, transfer, fun index => by rw [arq]; exact .refl _, redistPending, log, io⟩, cloud⟩

/-! ## Calls to the surroundings -/

theorem keeps_io {e : TransferEngine F} {io : Io} (later : Io.Later e.io io) :
    Keeps e { e with io := io } :=
  keeps_of_fields rfl rfl rfl rfl rfl rfl later

theorem keeps_nowMs (e : TransferEngine F) : Keeps e e.nowMs.2 := keeps_io (Io.later_nowMs e.io)

theorem keeps_setEnv (e : TransferEngine F) (env : Env) (clock : env.clock = e.io.env.clock) :
    Keeps e (e.setEnv env) :=
  keeps_io (Io.later_same clock rfl)

theorem keeps_emit (e : TransferEngine F) (output : Output) (plain : output.isMeta = false) :
    Keeps e (e.emit output) :=
  keeps_io (Io.later_output rfl rfl plain)

theorem keeps_sendPacket (e : TransferEngine F) (dst : Nat) (type : PacketType)
    (payload : List UInt8) (seq : Nat) : Keeps e (e.sendPacket dst type payload seq).2 :=
  keeps_io (Io.later_sendPacket e.io dst type payload seq)

theorem keeps_signalCongestion (e : TransferEngine F) : Keeps e e.signalCongestion :=
  keeps_io (Io.later_same rfl rfl)

theorem keeps_readFragment (e : TransferEngine F) (seq : Nat) :
    Keeps e (e.readFragment seq).2 :=
  keeps_io (Io.later_readChunk _ _ _ _)

/-- Exchanging one window for one with the same fragments. -/
theorem keeps_setArq (e : TransferEngine F) {index : Nat} {sr : SelectiveRepeat}
    (same : SameFragments (e.arq index) sr) {io : Io} (later : Io.Later e.io io) :
    Keeps e { e.setArq index sr with io := io } := by
  refine ⟨⟨rfl, rfl, ?_, rfl, rfl, later⟩, rfl⟩
  intro other
  by_cases here : other = index
  · subst here
    simpa [setArq] using same
  · simpa [setArq, here] using SameFragments.refl (e.arq other)

theorem keeps_tickArq (e : TransferEngine F) (index budget : Nat) :
    Keeps e (e.tickArq index budget).2 :=
  keeps_setArq e (SelectiveRepeat.tick_sameFragments Io.radio e.io (e.arq index) budget)
    (Io.later_radio.tick e.io (e.arq index) budget)

theorem keeps_nackWindow (e : TransferEngine F) (index seq : Nat) :
    Keeps e (e.nackWindow index seq) := by
  have kept := keeps_setArq e
    (SelectiveRepeat.handleNack_sameFragments Io.radio e.io (e.arq index) seq)
    (Io.later_radio.handleNack e.io (e.arq index) seq)
  exact ⟨⟨kept.role, kept.transfer, kept.arq, kept.redistPending, kept.log, kept.io⟩, rfl⟩

/-! ## Routine stages -/

theorem isMeta_of_isNotice {output : Output} (notice : output.isNotice = true) :
    output.isMeta = false := by
  cases output with
  | transferMeta => exact absurd notice Bool.false_ne_true
  | _ => rfl

theorem routine_keeps : Routine (Keeps : TransferEngine F → TransferEngine F → Prop) where
  refl := .refl
  trans := .trans
  nowMs := keeps_nowMs
  setEnv e env clock _ _ := keeps_setEnv e env clock
  notice e output notice := keeps_emit e output (isMeta_of_isNotice notice)
  sendPacket e dst type payload seq _ _ := keeps_sendPacket e dst type payload seq
  readChunk e _ _ _ := keeps_io (Io.later_readChunk e.io _ _ _)
  retry e _ _ := keeps_of_fields rfl rfl rfl rfl rfl rfl (.refl e.io)
  oowQueue e _ := keeps_of_fields rfl rfl rfl rfl rfl rfl (.refl e.io)
  oowRing e _ _ _ := keeps_of_fields rfl rfl rfl rfl rfl rfl (.refl e.io)
  tickArq := keeps_tickArq
  nackWindow := keeps_nackWindow

theorem stamped_serves (now : Nat) :
    Stamped now (Serves now : TransferEngine F → TransferEngine F → Prop) where
  refl e := (routine_keeps.refl e).serves now
  trans := .trans
  nowMs e := (routine_keeps.nowMs e).serves now
  setEnv e env clock acks limits := (routine_keeps.setEnv e env clock acks limits).serves now
  notice e output notice := (routine_keeps.notice e output notice).serves now
  sendPacket e dst type payload seq _ _ := (keeps_sendPacket e dst type payload seq).serves now
  readChunk e file offset len := (routine_keeps.readChunk e file offset len).serves now
  retry e retry same := (routine_keeps.retry e retry same).serves now
  oowQueue e queue := (routine_keeps.oowQueue e queue).serves now
  oowRing e recent write time := (routine_keeps.oowRing e recent write time).serves now
  tickArq e index budget := (keeps_tickArq e index budget).serves now
  nackWindow e index seq := (keeps_nackWindow e index seq).serves now
  stamp e := ⟨⟨rfl, rfl, fun _ => .refl _, rfl, rfl, .refl e.io⟩, .inr (.inl rfl)⟩

theorem keeps_tickArqs (e : TransferEngine F) : Keeps e e.tickArqs := routine_keeps.tickArqs e

theorem keeps_handleNack (e : TransferEngine F) (seq fromAddr : Nat) :
    Keeps e (e.handleNack seq fromAddr) :=
  routine_keeps.handleNack e seq fromAddr

theorem keeps_drainOow (e : TransferEngine F) (now : Nat) : Keeps e (e.drainOow now) :=
  routine_keeps.drainOow (fun e dst payload seq _ _ => (routine_keeps.oowPayload e seq).trans
    (keeps_sendPacket _ dst .data payload seq)) e now

theorem keeps_relayFragmentAcks (seqs : List Nat) (e : TransferEngine F) :
    Keeps e (relayFragmentAcks seqs e) :=
  routine_keeps.relayFragmentAcks seqs e

theorem keeps_drainFragmentAcks (e : TransferEngine F) : Keeps e e.drainFragmentAcks :=
  routine_keeps.drainFragmentAcks e

theorem keeps_broadcastRetryTick (e : TransferEngine F) (now : Nat) :
    Keeps e (e.broadcastRetryTick now) :=
  routine_keeps.broadcastRetryTick e now (keeps_sendPacket e _ _ _ _)

theorem serves_drainExitNacks (e : TransferEngine F) (now : Nat) :
    Serves now e (e.drainExitNacks now) :=
  (stamped_serves now).drainExitNacks e

/-! ## The local-exit window -/

theorem serves_markCloudAck (now : Nat) (e : TransferEngine F) (seq : Nat) :
    Serves now e (e.markCloudAck seq) := by
  unfold markCloudAck
  dsimp only
  split
  · exact ⟨⟨rfl, rfl, fun _ => .refl _, rfl, rfl, Io.later_nowMs e.io⟩, .inr (.inr ⟨0, rfl⟩)⟩
  · exact (Keeps.refl e).serves now

theorem keeps_advanceCloudBase (fuel : Nat) (e : TransferEngine F) :
    Keeps e (advanceCloudBase fuel e) := by
  induction fuel generalizing e with
  | zero => exact .refl e
  | succ fuel inductionHypothesis =>
      unfold advanceCloudBase
      split
      · refine Keeps.trans ?_ (inductionHypothesis _)
        exact keeps_of_fields rfl rfl rfl rfl rfl rfl (.refl _)
      · exact .refl e

theorem keeps_queueCloudNack (e : TransferEngine F) (seq : Nat) :
    Keeps e (e.queueCloudNack seq) := by
  have observed := keeps_emit e (.nackObserved e.transfer.sessionId seq) rfl
  unfold queueCloudNack
  dsimp only
  split
  · exact .refl e
  split
  · exact .refl e
  split
  · exact keeps_of_fields rfl rfl rfl rfl rfl rfl observed.io
  · exact observed

theorem keeps_publishLocal (e : TransferEngine F) (seq : Nat) :
    Keeps e (e.publishLocal seq).2 :=
  keeps_io ((Io.later_readChunk _ _ _ _).trans (Io.later_forwardToMqtt _ _ _ _ _ _))

theorem keeps_sendRetransmissions (seqs : List Nat) (sent : Nat) (e : TransferEngine F) :
    Keeps e (sendRetransmissions seqs sent e).2 := by
  induction seqs generalizing sent e with
  | nil => exact .refl e
  | cons seq rest inductionHypothesis =>
      unfold sendRetransmissions
      dsimp only
      split
      · exact .refl e
      split
      · exact inductionHypothesis _ _
      split
      · exact (keeps_publishLocal e seq).trans (inductionHypothesis _ _)
      · exact keeps_publishLocal e seq

theorem keeps_compactRetxQueue (e : TransferEngine F) (sent : Nat) :
    Keeps e (e.compactRetxQueue sent) :=
  keeps_of_fields rfl rfl rfl rfl rfl rfl (.refl _)

theorem keeps_sendNewLocal (windowEnd fuel sent : Nat) (e : TransferEngine F) :
    Keeps e (sendNewLocal windowEnd fuel sent e) := by
  induction fuel generalizing sent e with
  | zero => exact .refl e
  | succ fuel inductionHypothesis =>
      have published := keeps_publishLocal e e.cloudNextSend
      unfold sendNewLocal
      dsimp only
      split
      · split
        · refine (published.trans ?_).trans (inductionHypothesis _ _)
          exact keeps_of_fields rfl rfl rfl rfl rfl rfl (.refl _)
        · exact published
      · exact .refl e

theorem serves_markCloudAcks (now : Nat) (seqs : List Nat) (e : TransferEngine F) :
    Serves now e (seqs.foldl markCloudAck e) := by
  induction seqs generalizing e with
  | nil => exact (Keeps.refl e).serves now
  | cons seq rest inductionHypothesis =>
      exact (serves_markCloudAck now e seq).trans (inductionHypothesis _)

theorem serves_serveLocalExit (now : Nat) (e : TransferEngine F) :
    Serves now e e.serveLocalExit := by
  have drained : Keeps e (e.setEnv { e.io.env with cloudAcks := [] }) := keeps_setEnv e _ rfl
  refine (drained.serves now).trans ((serves_markCloudAcks now e.io.env.cloudAcks _).trans ?_)
  unfold serveLocalExit
  dsimp only
  refine Keeps.serves ?_ now
  refine Keeps.trans ?_ (keeps_sendNewLocal _ _ _ _)
  refine Keeps.trans ?_ (keeps_compactRetxQueue _ _)
  refine Keeps.trans ?_ (keeps_sendRetransmissions _ _ _)
  refine Keeps.trans ?_ (routine_keeps.foldl keeps_queueCloudNack _ _)
  refine (keeps_advanceCloudBase _ _).trans (keeps_setEnv _ _ ?_)
  rfl

/-! ## Stages of the tick -/

theorem keeps_refreshWeights [PathArith F] (e : TransferEngine F) : Keeps e e.refreshWeights := by
  unfold refreshWeights
  split
  · exact keeps_of_fields rfl rfl rfl rfl rfl rfl (.refl _)
  · exact .refl e

/-! ## Handlers -/

theorem keeps_handleTransferAck (e : TransferEngine F) (payload : List UInt8) :
    Keeps e (e.handleTransferAck payload) := by
  unfold handleTransferAck
  dsimp only
  split
  · exact .refl e
  split
  · exact .refl e
  split
  · exact .refl e
  split
  · exact keeps_of_fields rfl rfl rfl rfl rfl rfl (.refl _)
  · exact .refl e

theorem keeps_sendTransferAck (e : TransferEngine F) (dst sessionId activeTransfers : Nat) :
    Keeps e (e.sendTransferAck dst sessionId activeTransfers) :=
  keeps_sendPacket e _ _ _ _

theorem serves_forwardFragment (now : Nat) (e : TransferEngine F) (seq : Nat)
    (payload : List UInt8) : Serves now e (e.forwardFragment seq payload) := by
  have handed := Io.later_forwardToMqtt e.io e.activeSessionId seq e.sourceAddr payload
    e.transfer.filename
  unfold forwardFragment
  dsimp only
  split
  · exact ⟨⟨rfl, rfl, fun _ => .refl _, rfl, rfl, handed.trans (Io.later_nowMs _)⟩,
      .inr (.inr ⟨0, rfl⟩)⟩
  · exact ⟨⟨rfl, rfl, fun _ => .refl _, rfl, rfl, handed.trans (Io.later_same rfl rfl)⟩,
      .inl rfl⟩

/-- Setting the peer of the first window. -/
theorem keeps_setPeer (e : TransferEngine F) (addr : Nat) :
    Keeps e (e.setArq 0 { e.arq 0 with peerAddr := addr }) := by
  have same : SameFragments (e.arq 0) { e.arq 0 with peerAddr := addr } :=
    ⟨rfl, rfl, fun _ => rfl, fun _ => rfl, fun _ => rfl, fun _ => rfl⟩
  exact keeps_setArq e same (.refl e.io)

/-! ## Changes of the role -/

/-- Installing exits changes only their addresses and ACK times in the role, and
every installed exit counts as heard. -/
theorem role_installExits [PathArith F] (now : Nat) (elected : List (ExitCandidate × Nat))
    (e : TransferEngine F) :
    ∃ exitNodes lastAckMs, (elected.foldl (installExit now) e).role =
        { e.role with exitNodes := exitNodes, lastAckMs := lastAckMs } ∧
      ∀ index, index ∈ elected.map Prod.snd ∨ e.transfer.lastAckMs index = now →
        lastAckMs index = now := by
  induction elected generalizing e with
  | nil =>
      refine ⟨e.transfer.exitNodes, e.transfer.lastAckMs, rfl, ?_⟩
      intro index heard
      simpa using heard
  | cons exit rest inductionHypothesis =>
      obtain ⟨exitNodes, lastAckMs, role, heard⟩ := inductionHypothesis (installExit now e exit)
      refine ⟨exitNodes, lastAckMs, role, ?_⟩
      intro index either
      apply heard
      by_cases here : index = exit.2
      · subst here
        exact .inr (Function.update_self ..)
      · rcases either with listed | before
        · refine .inl ?_
          rcases List.mem_cons.mp listed with same | later
          · exact absurd same here
          · exact later
        · exact .inr ((Function.update_of_ne here ..).trans before)

theorem io_installExits [PathArith F] (now : Nat) (elected : List (ExitCandidate × Nat))
    (e : TransferEngine F) :
    (elected.foldl (installExit now) e).io = e.io ∧
      (elected.foldl (installExit now) e).lastCloudActivityMs = e.lastCloudActivityMs := by
  induction elected generalizing e with
  | nil => exact ⟨rfl, rfl⟩
  | cons exit rest inductionHypothesis => exact inductionHypothesis (installExit now e exit)

theorem keeps_electionClock (e : TransferEngine F) : Keeps e e.electionClock := by
  unfold electionClock
  split
  · exact keeps_nowMs e
  · exact .refl e

theorem role_electExits [PathArith F] (e : TransferEngine F) :
    ∃ exitNodes lastAckMs, e.electExits.role =
        { e.role with
          electionActive := false
          exitNodeCount := (electedExits e.candidates e.maxElectedExits).length
          exitNodes := exitNodes
          lastAckMs := lastAckMs } ∧
      ∀ index < (electedExits e.candidates e.maxElectedExits).length,
        lastAckMs index = e.electionClock.nowMs.1 := by
  have clock : e.electionClock.nowMs.2.role = e.role :=
    ((keeps_electionClock e).trans (keeps_nowMs _)).role
  obtain ⟨exitNodes, lastAckMs, role, heard⟩ := role_installExits e.electionClock.nowMs.1
    (electedExits e.candidates e.maxElectedExits).zipIdx e.electionClock.nowMs.2
  rw [clock] at role
  refine ⟨exitNodes, lastAckMs, ?_, ?_⟩
  · have field := congrArg (fun role : Role =>
      { role with
        electionActive := false
        exitNodeCount := (electedExits e.candidates e.maxElectedExits).length }) role
    exact field
  · intro index inRange
    refine heard index (.inl ?_)
    rw [List.zipIdx_map_snd, List.mem_range']
    exact ⟨index, inRange, by omega⟩

/-- What `reset_sender_transfer_state` leaves of the role. -/
def Role.resetSender (role : Role) : Role :=
  { role with
    active := false
    localExit := false
    electionActive := false
    meshUploadDone := false
    exitPending := false
    sessionId := 0
    size := 0
    crc32 := 0
    fragmentCount := 0
    fragmentSize := 0
    filename := []
    exitNodeCount := 0
    exitNodes := fun _ => 0
    lastAckMs := fun _ => 0
    exitNodeTimeoutMs := 30000 }

theorem role_resetSenderTransferState [PathArith F] (e : TransferEngine F)
    (signalComplete : Bool) :
    (e.resetSenderTransferState signalComplete).role = e.role.resetSender := by
  unfold resetSenderTransferState
  dsimp only
  split <;> split <;> rfl

theorem active_resetSenderTransferState [PathArith F] (e : TransferEngine F)
    (signalComplete : Bool) :
    (e.resetSenderTransferState signalComplete).transfer.active = false :=
  congrArg Role.active (role_resetSenderTransferState e signalComplete)

/-- What `clear_exit_node_state` leaves of the role. -/
def Role.clearExit (role : Role) : Role :=
  { role with
    isExitNode := false
    exitPending := false
    activeSessionId := 0
    sourceAddr := 0
    size := 0
    crc32 := 0
    fragmentCount := 0
    fragmentSize := 0
    filename := [] }

theorem role_clearExitNodeState (e : TransferEngine F) :
    e.clearExitNodeState.role = e.role.clearExit := by
  unfold clearExitNodeState
  dsimp only
  split <;> rfl

end ForestLink.Mesh.TransferEngine
