/-
Module: ForestLink.Proofs.EngineTurns
Purpose: What the calls of a transfer engine do to its session, its election, its local-exit
  window and the end of its transfer, and which answers and reports they send.
Trusted boundary: none
Main exports: Standing, Steady, EndCause, Turn, Turns, turns_tick, step_turns
-/
import ForestLink.Lib.Trace
import ForestLink.Mesh.Occasion
import ForestLink.Proofs.MeshStages

namespace ForestLink.Mesh

open ForestLink.Lib
open ForestLink.Protocol

/-! ## Plain outputs -/

/-- The output neither answers an advertisement nor speaks of a session as a whole. -/
def Output.isPlain : Output → Bool
  | .sent _ .transferAck _ _ _ => false
  | .transferMeta .. | .sessionEnd _ | .transferComplete => false
  | _ => true

theorem extends_plain {output : Output} (plain : output.isPlain = true) (outputs : List Output) :
    Extends (fun output => output.isPlain = true) outputs (output :: outputs) :=
  .cons (P := fun output => output.isPlain = true) plain outputs

namespace Io

/-- The surroundings later in the same call: plain outputs were added, and cloud ACKs only
taken out. -/
structure Plain (io after : Io) : Prop where
  outputs : Extends (fun output => output.isPlain = true) io.outputs after.outputs
  acks : ∀ seq ∈ after.env.cloudAcks, seq ∈ io.env.cloudAcks

theorem Plain.refl (io : Io) : Plain io io := ⟨.refl .., fun _ => id⟩

theorem Plain.trans {first second third : Io} (left : Plain first second)
    (right : Plain second third) : Plain first third :=
  ⟨left.outputs.trans right.outputs, fun seq member => left.acks seq (right.acks seq member)⟩

theorem plain_sendPacket (io : Io) (dst : Nat) {type : PacketType} (payload : List UInt8)
    (seq : Nat) (noAnswer : type ≠ .transferAck) :
    Plain io (io.sendPacket dst type payload seq).2 := by
  have plain : ∀ result, (Output.sent dst type (io.airSeq type seq) payload result).isPlain :=
    fun result => by cases type <;> first | rfl | exact absurd rfl noAnswer
  unfold sendPacket
  dsimp only
  split <;> exact ⟨extends_plain (plain _) _, fun _ => id⟩

theorem plain_readChunk (io : Io) (file : Option (Nat → Nat → List UInt8)) (offset len : Nat) :
    Plain io (io.readChunk file offset len).2 := by
  unfold readChunk
  dsimp only
  split
  · exact .refl io
  · exact ⟨.refl .., fun _ => id⟩

theorem plain_radio : SelectiveRepeat.Respects radio Plain where
  refl := .refl
  trans := .trans
  nowMs _ := ⟨.refl .., fun _ => id⟩
  send io dst seq data := plain_sendPacket io dst data seq (by decide)

end Io

namespace TransferEngine

variable {F : Type}

/-! ## Calls without a turn -/

/-- The part of the state that says what the node transfers, whom it elected and what the
cloud has acknowledged. -/
structure Standing where
  myAddr : Nat
  maxElectedExits : Nat
  active : Bool
  localExit : Bool
  sessionId : Nat
  fragmentCount : Nat
  exitNodeCount : Nat
  exitNodes : Nat → Nat
  electionActive : Bool
  candidates : List ExitCandidate
  retryType : PacketType
  isExitNode : Bool
  exitPending : Bool
  activeSessionId : Nat
  sourceAddr : Nat
  cloudAckBitmap : Nat → Bool
  cloudBaseSeq : Nat

/-- After `reset_sender_transfer_state`. -/
def Standing.ended (s : Standing) : Standing where
  myAddr := s.myAddr
  maxElectedExits := s.maxElectedExits
  active := false
  localExit := false
  sessionId := 0
  fragmentCount := 0
  exitNodeCount := 0
  exitNodes := fun _ => 0
  electionActive := false
  candidates := []
  retryType := s.retryType
  isExitNode := s.isExitNode
  exitPending := false
  activeSessionId := s.activeSessionId
  sourceAddr := s.sourceAddr
  cloudAckBitmap := fun _ => false
  cloudBaseSeq := 0

/-- After `clear_exit_node_state`. -/
def Standing.cleared (s : Standing) : Standing :=
  { s with
    isExitNode := false
    exitPending := false
    activeSessionId := 0
    sourceAddr := 0
    fragmentCount := 0 }

def standing (e : TransferEngine F) : Standing where
  myAddr := e.myAddr
  maxElectedExits := e.maxElectedExits
  active := e.transfer.active
  localExit := e.localExit
  sessionId := e.transfer.sessionId
  fragmentCount := e.transfer.fragmentCount
  exitNodeCount := e.transfer.exitNodeCount
  exitNodes := e.transfer.exitNodes
  electionActive := e.electionActive
  candidates := e.candidates
  retryType := e.broadcastRetry.type
  isExitNode := e.isExitNode
  exitPending := e.exitPending
  activeSessionId := e.activeSessionId
  sourceAddr := e.sourceAddr
  cloudAckBitmap := e.cloudAckBitmap
  cloudBaseSeq := e.cloudBaseSeq

/-- The standing is the same, and only plain outputs were added. -/
structure Steady (e after : TransferEngine F) : Prop where
  standing : after.standing = e.standing
  io : Io.Plain e.io after.io

theorem Steady.refl (e : TransferEngine F) : Steady e e := ⟨rfl, .refl _⟩

theorem Steady.trans {first second third : TransferEngine F} (left : Steady first second)
    (right : Steady second third) : Steady first third :=
  ⟨right.standing.trans left.standing, left.io.trans right.io⟩

/-- Only fields outside the standing changed. -/
theorem steady_fields {e after : TransferEngine F} (standing : after.standing = e.standing)
    (io : after.io = e.io) : Steady e after :=
  ⟨standing, io ▸ .refl _⟩

theorem steady_nowMs (e : TransferEngine F) : Steady e e.nowMs.2 := ⟨rfl, .refl .., fun _ => id⟩

theorem steady_setEnv (e : TransferEngine F) (env : Env)
    (acks : ∀ seq ∈ env.cloudAcks, seq ∈ e.io.env.cloudAcks) : Steady e (e.setEnv env) :=
  ⟨rfl, .refl .., acks⟩

theorem steady_emit (e : TransferEngine F) (output : Output) (plain : output.isPlain = true) :
    Steady e (e.emit output) :=
  ⟨rfl, extends_plain plain _, fun _ => id⟩

theorem steady_sendPacket (e : TransferEngine F) (dst : Nat) (type : PacketType)
    (payload : List UInt8) (seq : Nat) (noAnswer : type ≠ .transferAck) :
    Steady e (e.sendPacket dst type payload seq).2 :=
  ⟨rfl, Io.plain_sendPacket e.io dst payload seq noAnswer⟩

theorem steady_signalCongestion (e : TransferEngine F) : Steady e e.signalCongestion :=
  ⟨rfl, .refl .., fun _ => id⟩

theorem steady_readFragment (e : TransferEngine F) (seq : Nat) : Steady e (e.readFragment seq).2 :=
  ⟨rfl, Io.plain_readChunk ..⟩

theorem steady_sendFragment (e : TransferEngine F) (index seq : Nat) (data : List UInt8) :
    Steady e (e.sendFragment index seq data).2 :=
  ⟨rfl, Io.plain_radio.sendFragment ..⟩

/-! ## Retransmission -/

theorem steady_tickArq (e : TransferEngine F) (index budget : Nat) :
    Steady e (e.tickArq index budget).2 :=
  ⟨rfl, Io.plain_radio.tick ..⟩

theorem steady_nackWindow (e : TransferEngine F) (index seq : Nat) :
    Steady e (e.nackWindow index seq) :=
  ⟨rfl, Io.plain_radio.handleNack ..⟩

theorem steady_handleAck [PathArith F] (e : TransferEngine F) (seq fromAddr : Nat) :
    Steady e (e.handleAck seq fromAddr) := by
  unfold handleAck
  split
  · exact .refl e
  · rename_i index _
    have released := (steady_nowMs e).io.trans
      (Io.plain_radio.handleAck e.nowMs.2.io (e.arq index) seq)
    dsimp only
    split
    · exact ⟨rfl, released⟩
    · exact ⟨rfl, released⟩

/-! ## Routine stages -/

theorem isPlain_of_isNotice {output : Output} (notice : output.isNotice = true) :
    output.isPlain = true := by
  cases output with
  | sent | transferMeta | sessionEnd | transferComplete => exact absurd notice Bool.false_ne_true
  | _ => rfl

theorem stamped_steady (now : Nat) :
    Stamped now (Steady : TransferEngine F → TransferEngine F → Prop) where
  refl := .refl
  trans := .trans
  nowMs := steady_nowMs
  setEnv e env _ acks _ := steady_setEnv e env fun _ member => acks ▸ member
  notice e output notice := steady_emit e output (isPlain_of_isNotice notice)
  sendPacket e dst type payload seq _ noAnswer :=
    steady_sendPacket e dst type payload seq noAnswer
  readChunk e _ _ _ := ⟨rfl, Io.plain_readChunk ..⟩
  retry e retry same := by
    refine ⟨?_, .refl e.io⟩
    change { e.standing with retryType := retry.type } = e.standing
    rw [same]
    rfl
  oowQueue _ _ := steady_fields rfl rfl
  oowRing _ _ _ _ := steady_fields rfl rfl
  tickArq := steady_tickArq
  nackWindow := steady_nackWindow
  stamp _ := steady_fields rfl rfl

theorem routine_steady : Routine (Steady : TransferEngine F → TransferEngine F → Prop) :=
  (stamped_steady 0).toRoutine

theorem steady_drainOow (e : TransferEngine F) (now : Nat) : Steady e (e.drainOow now) :=
  routine_steady.drainOow (fun e dst payload seq _ _ => (routine_steady.oowPayload e seq).trans
    (steady_sendPacket _ dst .data payload seq (by decide))) e now

/-! ## The multi-exit feed -/

theorem steady_drainRedistEntry [PathArith F] (e : TransferEngine F) (seq : Nat) :
    Steady e (e.drainRedistEntry seq) := by
  unfold drainRedistEntry
  split
  · exact steady_fields rfl rfl
  · rename_i target _
    split
    · have sent := (steady_readFragment e seq).trans
        (steady_sendFragment (e.readFragment seq).2 target seq (e.readFragment seq).1)
      dsimp only
      split
      · exact sent.trans (steady_fields rfl rfl)
      · exact sent.trans (steady_fields rfl rfl)
    · exact steady_fields rfl rfl

theorem steady_drainRedist [PathArith F] (e : TransferEngine F) : Steady e e.drainRedist := by
  unfold drainRedist
  apply Steady.trans _ (routine_steady.foldl steady_drainRedistEntry _ _)
  exact steady_fields rfl rfl

theorem steady_feed [PathArith F] (now fuel newSent : Nat) (e : TransferEngine F) :
    Steady e (feed now fuel newSent e) := by
  induction fuel generalizing newSent e with
  | zero => exact .refl e
  | succ fuel inductionHypothesis =>
      unfold feed
      dsimp only
      split
      · split
        · exact .refl e
        · rename_i index _
          split
          · have sent := steady_sendFragment e index e.transfer.nextFragment e.fecEncoder.parityData
            split
            · exact sent
            · apply Steady.trans _ (inductionHypothesis _ _)
              exact sent.trans (steady_fields rfl rfl)
          split
          · apply Steady.trans _ (inductionHypothesis _ _)
            exact steady_fields rfl rfl
          · have sent := (steady_readFragment e e.transfer.nextFragment).trans
              (steady_sendFragment (e.readFragment e.transfer.nextFragment).2 index
                e.transfer.nextFragment (e.readFragment e.transfer.nextFragment).1)
            split
            · exact sent
            · apply Steady.trans _ (inductionHypothesis _ _)
              exact sent.trans (steady_fields rfl rfl)
      · exact .refl e

theorem steady_feedNew [PathArith F] (e : TransferEngine F) (now : Nat) :
    Steady e (e.feedNew now) := by
  unfold feedNew
  apply Steady.trans _ (steady_feed _ _ _ _)
  unfold refreshWeights
  split
  · exact steady_fields rfl rfl
  · exact .refl e

/-! ## Exits that fail -/

theorem steady_enqueueRedist (e : TransferEngine F) (seq : Nat) : Steady e (e.enqueueRedist seq) := by
  unfold enqueueRedist
  split <;> exact steady_fields rfl rfl

theorem steady_redistributeFragment [PathArith F] (firstAlive : Nat) (e : TransferEngine F)
    (seq : Nat) : Steady e (redistributeFragment firstAlive e seq) := by
  unfold redistributeFragment
  dsimp only
  split
  · exact .refl e
  split
  · have sent := (steady_readFragment e seq).trans (steady_sendFragment (e.readFragment seq).2
      ((e.selectMeshTargetForSeq seq).getD firstAlive) seq (e.readFragment seq).1)
    split
    · exact sent.trans (steady_fields rfl rfl)
    · exact sent.trans (steady_enqueueRedist _ seq)
  · exact steady_enqueueRedist e seq

theorem steady_redistributeDeadExit [PathArith F] (e : TransferEngine F) (dead : Nat) :
    Steady e (e.redistributeDeadExit dead) := by
  have buried : Steady e (e.buryExit dead) := steady_fields rfl rfl
  unfold redistributeDeadExit
  dsimp only
  split
  · exact buried
  · exact buried.trans (routine_steady.foldl (steady_redistributeFragment _) _ _)

theorem steady_exitNodeHealthTick [PathArith F] (e : TransferEngine F) (now : Nat) :
    Steady e (e.exitNodeHealthTick now) := by
  have checked : ∀ (e : TransferEngine F) (index : Nat), Steady e (checkExitHealth now e index) := by
    intro e index
    unfold checkExitHealth
    split
    · apply Steady.trans _ (steady_redistributeDeadExit _ index)
      exact steady_fields rfl rfl
    · exact .refl e
  unfold exitNodeHealthTick
  split
  · exact .refl e
  · exact routine_steady.foldl checked _ e

theorem steady_handleExitOffline [PathArith F] (e : TransferEngine F) (exitAddr sessionId : Nat) :
    Steady e (e.handleExitOffline exitAddr sessionId) := by
  unfold handleExitOffline
  split
  · exact .refl e
  split
  · exact .refl e
  split
  · exact .refl e
  · exact steady_redistributeDeadExit e _

/-! ## The duties of an exit -/

theorem steady_forwardFragment (e : TransferEngine F) (seq : Nat) (payload : List UInt8) :
    Steady e (e.forwardFragment seq payload) := by
  have queued : Steady e { e with
      io := (e.io.forwardToMqtt e.activeSessionId seq e.sourceAddr payload e.transfer.filename).2 } :=
    ⟨rfl, extends_plain rfl _, fun _ => id⟩
  unfold forwardFragment
  dsimp only
  split
  · exact queued.trans ⟨rfl, .refl .., fun _ => id⟩
  · exact queued.trans (steady_signalCongestion _)

theorem steady_broadcastRetryTick (e : TransferEngine F) (now : Nat)
    (advert : e.broadcastRetry.type = .transferAd) : Steady e (e.broadcastRetryTick now) :=
  routine_steady.broadcastRetryTick e now
    (steady_sendPacket e _ _ _ _ (by rw [advert]; decide))

/-! ## Turns -/

/-- Why a transfer ends, with what `reset_sender_transfer_state` is told. -/
inductive EndCause (o : Occasion) (e : TransferEngine F) : Bool → Prop
  | acked (onLocalExit : e.localExit = true) (all : e.transfer.fragmentCount ≤ e.cloudBaseSeq)
      (regular : ∀ abort, o.aborts abort = false) : EndCause o e true
  | done (sender : Nat) (payload : List UInt8) (delivered : o.done = some (sender, payload))
      (session : (TransferDone.ofBytes payload).sessionId = e.transfer.sessionId)
      (exit : ∃ i < e.transfer.exitNodeCount, e.transfer.exitNodes i = sender)
      (regular : ∀ abort, o.aborts abort = false) : EndCause o e true
  | aborted (abort : Abort) (taken : o.aborts abort = true) (signal : Bool)
      (localStall : signal = true → abort = .stalled ∧ e.localExit = true) : EndCause o e signal

/-- A description of session `session` was published, nothing else. -/
def Announces (e after : TransferEngine F) (session : Nat) : Prop :=
  after.io.env.cloudAcks = e.io.env.cloudAcks ∧
    ∃ filename srcNode totalSize chunkCount fragmentSize crc32, after.io.outputs =
      .transferMeta session filename srcNode totalSize chunkCount fragmentSize crc32 ::
        e.io.outputs

/-- The changes of which every call consists that neither starts a transfer nor handles an
answer or an advertisement. -/
inductive Turn [PathArith F] (o : Occasion) (e after : TransferEngine F) : Prop
  | steady (kept : Steady e after)
  | mark (seq : Nat) (listed : seq ∈ o.acks) (onLocalExit : e.localExit = true)
      (inRange : seq < e.transfer.fragmentCount)
      (standing : after.standing =
        { e.standing with cloudAckBitmap := Function.update e.cloudAckBitmap seq true })
      (io : Io.Plain e.io after.io)
  | advance (inRange : e.cloudBaseSeq < e.transfer.fragmentCount)
      (acked : e.cloudAckBitmap e.cloudBaseSeq = true)
      (standing : after.standing = { e.standing with cloudBaseSeq := e.cloudBaseSeq + 1 })
      (io : Io.Plain e.io after.io)
  | reset (signal : Bool) (active : e.transfer.active = true) (cause : EndCause o e signal)
      (ended : after = e.resetSenderTransferState signal)
  | clear (exit : e.hasExitRole = true) (cleared : after = e.clearExitNodeState)
      (isOver : (e.localExit && e.transfer.active) = true → o.servesOver = true)
  | publish (serving : (e.localExit && e.transfer.active || e.isExitNode) = true)
      (standing : after.standing = e.standing)
      (announces : Announces e after
        (if e.localExit then e.transfer.sessionId else e.activeSessionId))
  | activate (pending : e.exitPending = true)
      (standing : after.standing = { e.standing with isExitNode := true, exitPending := false })
      (announces : Announces e after e.activeSessionId)
  | elect (electing : e.electionActive = true) (some : e.candidates ≠ [])
      (elected : after = e.electExits)

/-- What a turn can do to the standing. -/
inductive StandingChange (acks : List Nat) (s : Standing) : Standing → Prop
  | same : StandingChange acks s s
  | mark (seq : Nat) (listed : seq ∈ acks) (onLocalExit : s.localExit = true)
      (inRange : seq < s.fragmentCount) :
      StandingChange acks s { s with cloudAckBitmap := Function.update s.cloudAckBitmap seq true }
  | advance (inRange : s.cloudBaseSeq < s.fragmentCount)
      (acked : s.cloudAckBitmap s.cloudBaseSeq = true) :
      StandingChange acks s { s with cloudBaseSeq := s.cloudBaseSeq + 1 }
  | ended (active : s.active = true) : StandingChange acks s s.ended
  | cleared (exit : (s.isExitNode || s.exitPending) = true) : StandingChange acks s s.cleared
  | activated (pending : s.exitPending = true) :
      StandingChange acks s { s with isExitNode := true, exitPending := false }
  | elected (count : Nat) (exitNodes : Nat → Nat) (electing : s.electionActive = true)
      (chosen : ∀ i < count, ∃ candidate ∈ s.candidates, exitNodes i = candidate.addr) :
      StandingChange acks s
        { s with electionActive := false, exitNodeCount := count, exitNodes := exitNodes }

abbrev Turns [PathArith F] (o : Occasion) : TransferEngine F → TransferEngine F → Prop :=
  Relation.ReflTransGen (Turn o)

section Turns

variable [PathArith F] {o : Occasion} {e after : TransferEngine F}

theorem Steady.turns (kept : Steady e after) : Turns o e after := .single (.steady kept)

theorem standing_resetSenderTransferState (e : TransferEngine F) (signal : Bool) :
    (e.resetSenderTransferState signal).standing = e.standing.ended := by
  unfold resetSenderTransferState
  dsimp only
  split <;> split <;> rfl

theorem env_resetSenderTransferState (e : TransferEngine F) (signal : Bool) :
    (e.resetSenderTransferState signal).io.env = e.io.env := by
  unfold resetSenderTransferState
  dsimp only
  split <;> split <;> rfl

theorem outputs_resetSenderTransferState (e : TransferEngine F) (signal : Bool) :
    (e.resetSenderTransferState signal).io.outputs =
      (if signal then [.transferComplete] else []) ++
        (if e.transfer.sessionId ≠ 0 then [.sessionEnd e.transfer.sessionId] else []) ++
          e.io.outputs := by
  unfold resetSenderTransferState
  dsimp only
  by_cases session : e.transfer.sessionId ≠ 0
  · rw [if_pos session, if_pos session]
    cases signal <;> rfl
  · rw [if_neg session, if_neg session]
    cases signal <;> rfl

omit [PathArith F] in
theorem standing_clearExitNodeState (e : TransferEngine F) :
    e.clearExitNodeState.standing = e.standing.cleared := by
  unfold clearExitNodeState
  dsimp only
  split <;> rfl

omit [PathArith F] in
theorem env_clearExitNodeState (e : TransferEngine F) : e.clearExitNodeState.io.env = e.io.env := by
  unfold clearExitNodeState
  dsimp only
  split <;> rfl

omit [PathArith F] in
theorem outputs_clearExitNodeState (e : TransferEngine F) :
    e.clearExitNodeState.io.outputs =
      (if e.activeSessionId ≠ 0 then [.sessionEnd e.activeSessionId] else []) ++
        e.io.outputs := by
  unfold clearExitNodeState
  dsimp only
  split <;> rfl

/-- What installing the elected exits changes. -/
theorem installExits_fields (now : Nat) (elected : List (ExitCandidate × Nat))
    (e : TransferEngine F) :
    (elected.foldl (installExit now) e).io = e.io ∧
      (elected.foldl (installExit now) e).standing =
        { e.standing with
          exitNodes := (elected.foldl (installExit now) e).transfer.exitNodes } := by
  induction elected generalizing e with
  | nil => exact ⟨rfl, rfl⟩
  | cons head rest inductionHypothesis =>
      obtain ⟨io, standing⟩ := inductionHypothesis (installExit now e head)
      exact ⟨io, standing⟩

omit [PathArith F] in
theorem steady_electionClock (e : TransferEngine F) : Steady e e.electionClock := by
  unfold electionClock
  split
  · exact steady_nowMs e
  · exact .refl e

/-- The elected exits are the new exits, in order. -/
theorem electExits_fields (e : TransferEngine F) :
    Io.Plain e.io e.electExits.io ∧
      e.electExits.standing =
        { e.standing with
          electionActive := false
          exitNodeCount := (electedExits e.candidates e.maxElectedExits).length
          exitNodes := e.electExits.transfer.exitNodes } := by
  have clocked := (steady_electionClock e).trans (steady_nowMs e.electionClock)
  have installed := installExits_fields e.electionClock.nowMs.1
    (electedExits e.candidates e.maxElectedExits).zipIdx e.electionClock.nowMs.2
  constructor
  · have announced := steady_emit ((electedExits e.candidates e.maxElectedExits).zipIdx.foldl
      (installExit e.electionClock.nowMs.1) e.electionClock.nowMs.2) .exitNodeElected rfl
    have io := announced.io
    rw [installed.1] at io
    exact clocked.io.trans io
  · have standing := installed.2
    rw [clocked.standing] at standing
    change { ((electedExits e.candidates e.maxElectedExits).zipIdx.foldl
        (installExit e.electionClock.nowMs.1) e.electionClock.nowMs.2).standing with
      electionActive := false
      exitNodeCount := (electedExits e.candidates e.maxElectedExits).length } = _
    rw [standing]
    rfl

theorem exitNodes_installExits (now start : Nat) (exits : List ExitCandidate)
    (e : TransferEngine F) (i : Nat) :
    ((exits.zipIdx start).foldl (installExit now) e).transfer.exitNodes i =
      if i < start then e.transfer.exitNodes i
      else ((exits[i - start]?).map ExitCandidate.addr).getD (e.transfer.exitNodes i) := by
  induction exits generalizing start e with
  | nil => simp
  | cons exit rest inductionHypothesis =>
      rw [List.zipIdx_cons, List.foldl_cons, inductionHypothesis]
      unfold installExit
      dsimp only
      rcases Nat.lt_trichotomy i start with before | rfl | behind
      · rw [if_pos before, if_pos (Nat.lt_succ_of_lt before),
          Function.update_of_ne (Nat.ne_of_lt before)]
      · rw [if_pos (Nat.lt_succ_self i), if_neg (Nat.lt_irrefl i), Function.update_self,
          Nat.sub_self]
        rfl
      · obtain ⟨offset, rfl⟩ := Nat.exists_eq_add_of_lt behind
        rw [if_neg (by omega), if_neg (by omega), Function.update_of_ne (by omega)]
        have shift : start + offset + 1 - start = (start + offset + 1 - (start + 1)) + 1 := by
          omega
        rw [shift, List.getElem?_cons_succ]

/-- Every exit after the election is one of the elected candidates. -/
theorem exitNodes_electExits (e : TransferEngine F) {i : Nat}
    (inRange : i < (electedExits e.candidates e.maxElectedExits).length) :
    ∃ candidate ∈ electedExits e.candidates e.maxElectedExits,
      e.electExits.transfer.exitNodes i = candidate.addr := by
  refine ⟨_, List.getElem_mem inRange, ?_⟩
  change ((electedExits e.candidates e.maxElectedExits).zipIdx.foldl
    (installExit e.electionClock.nowMs.1) e.electionClock.nowMs.2).transfer.exitNodes i = _
  rw [exitNodes_installExits, if_neg (Nat.not_lt_zero i), Nat.sub_zero,
    List.getElem?_eq_getElem inRange]
  rfl

theorem mem_electedExits {candidates : List ExitCandidate} {maxElectedExits : Nat}
    {candidate : ExitCandidate} (member : candidate ∈ electedExits candidates maxElectedExits) :
    candidate ∈ candidates := by
  have sorted : ∀ {candidate}, candidate ∈ sortedCandidates candidates →
      candidate ∈ candidates := fun here => (List.perm_insertionSort _ candidates).mem_iff.mp here
  unfold electedExits at member
  dsimp only at member
  split at member
  · exact sorted (List.mem_of_mem_take member)
  · exact sorted (List.mem_of_mem_filter (List.mem_of_mem_take member))

/-! ## The local-exit window -/

theorem turns_marks (seqs : List Nat) (listed : ∀ seq ∈ seqs, seq ∈ o.acks)
    (e : TransferEngine F) (onLocalExit : e.localExit = true) :
    Turns o e (seqs.foldl markCloudAck e) := by
  induction seqs generalizing e with
  | nil => exact .refl
  | cons seq rest inductionHypothesis =>
      have later := fun seq member => listed seq (List.mem_cons_of_mem _ member)
      rw [List.foldl_cons]
      by_cases inRange : seq < e.transfer.fragmentCount
      · have marked : e.markCloudAck seq =
            { e.nowMs.2 with
              cloudAckBitmap := Function.update e.cloudAckBitmap seq true
              lastCloudActivityMs := e.nowMs.1 } := by
          unfold markCloudAck
          rw [if_pos inRange]
        have kept : (e.markCloudAck seq).localExit = true := by
          rw [marked]
          exact onLocalExit
        apply Relation.ReflTransGen.head _ (inductionHypothesis later _ kept)
        rw [marked]
        exact .mark seq (listed seq List.mem_cons_self) onLocalExit inRange rfl (steady_nowMs e).io
      · have unmarked : e.markCloudAck seq = e := by
          unfold markCloudAck
          rw [if_neg inRange]
        rw [unmarked]
        exact inductionHypothesis later e onLocalExit

theorem turns_advanceCloudBase (fuel : Nat) (e : TransferEngine F) :
    Turns o e (advanceCloudBase fuel e) := by
  induction fuel generalizing e with
  | zero => exact .refl
  | succ fuel inductionHypothesis =>
      unfold advanceCloudBase
      split
      · rename_i more
        rw [Bool.and_eq_true, decide_eq_true_eq] at more
        apply Relation.ReflTransGen.head _ (inductionHypothesis _)
        exact .advance more.1 more.2 rfl (.refl _)
      · exact .refl

omit [PathArith F] in
theorem steady_queueCloudNack (e : TransferEngine F) (seq : Nat) :
    Steady e (e.queueCloudNack seq) := by
  have observed := steady_emit e (.nackObserved e.transfer.sessionId seq) rfl
  unfold queueCloudNack
  dsimp only
  split
  · exact .refl e
  split
  · exact .refl e
  split
  · exact observed.trans (steady_fields rfl rfl)
  · exact observed

omit [PathArith F] in
theorem steady_publishLocal (e : TransferEngine F) (seq : Nat) : Steady e (e.publishLocal seq).2 := by
  have read := Io.plain_readChunk e.io e.transfer.readChunk (seq * e.transfer.fragmentSize)
    (min (sub32 e.transfer.size (seq * e.transfer.fragmentSize)) e.transfer.fragmentSize)
  exact ⟨rfl, read.trans ⟨extends_plain rfl _, fun _ => id⟩⟩

omit [PathArith F] in
theorem steady_sendRetransmissions (seqs : List Nat) (sent : Nat) (e : TransferEngine F) :
    Steady e (sendRetransmissions seqs sent e).2 := by
  induction seqs generalizing sent e with
  | nil => exact .refl e
  | cons seq rest inductionHypothesis =>
      have published := steady_publishLocal e seq
      unfold sendRetransmissions
      dsimp only
      split
      · exact .refl e
      split
      · exact inductionHypothesis sent e
      split
      · exact published.trans (inductionHypothesis _ _)
      · exact published

omit [PathArith F] in
theorem steady_compactRetxQueue (e : TransferEngine F) (sent : Nat) :
    Steady e (e.compactRetxQueue sent) :=
  steady_fields rfl rfl

omit [PathArith F] in
theorem steady_sendNewLocal (windowEnd fuel sent : Nat) (e : TransferEngine F) :
    Steady e (sendNewLocal windowEnd fuel sent e) := by
  induction fuel generalizing sent e with
  | zero => exact .refl e
  | succ fuel inductionHypothesis =>
      have published := steady_publishLocal e e.cloudNextSend
      unfold sendNewLocal
      dsimp only
      split
      · split
        · apply Steady.trans _ (inductionHypothesis _ _)
          exact published.trans (steady_fields rfl rfl)
        · exact published
      · exact .refl e

omit [PathArith F] in
/-- A tick behind its acknowledgements: the NACKs, the retransmissions, the new fragments. -/
theorem steady_answerLocalExit (e : TransferEngine F) :
    let nacked := e.io.env.cloudNacks.foldl queueCloudNack
      (e.setEnv { e.io.env with cloudNacks := [] })
    let resent := sendRetransmissions nacked.cloudRetxQueue 0 nacked
    let compacted := resent.2.compactRetxQueue resent.1
    Steady e (sendNewLocal (compacted.cloudBaseSeq + cloudWindowSize) cloudWindowSize resent.1
      compacted) := by
  dsimp only
  refine Steady.trans ?_ (steady_sendNewLocal _ _ _ _)
  refine Steady.trans ?_ (steady_compactRetxQueue _ _)
  refine Steady.trans ?_ (steady_sendRetransmissions _ _ _)
  refine Steady.trans ?_ (routine_steady.foldl steady_queueCloudNack _ _)
  exact steady_setEnv _ _ fun _ => id

theorem turns_serveLocalExit (e : TransferEngine F) (onLocalExit : e.localExit = true)
    (listed : ∀ seq ∈ e.io.env.cloudAcks, seq ∈ o.acks) : Turns o e e.serveLocalExit := by
  have taken : Turns o e (e.setEnv { e.io.env with cloudAcks := [] }) :=
    (steady_setEnv e { e.io.env with cloudAcks := [] } fun _ none =>
      absurd none List.not_mem_nil).turns
  have marked := taken.trans (turns_marks e.io.env.cloudAcks listed _ onLocalExit)
  exact (marked.trans (turns_advanceCloudBase _ _)).trans (steady_answerLocalExit _).turns

theorem turns_tickLocalExitArq (e : TransferEngine F) (active : e.transfer.active = true)
    (onLocalExit : e.localExit = true) (listed : ∀ seq ∈ e.io.env.cloudAcks, seq ∈ o.acks)
    (regular : ∀ abort, o.aborts abort = false) : Turns o e e.tickLocalExitArq := by
  have served := turns_serveLocalExit e onLocalExit listed
  have role := (serves_serveLocalExit 0 e).role
  unfold tickLocalExitArq
  dsimp only
  split
  · rename_i all
    apply served.tail
    exact .reset true ((congrArg Role.active role).trans active)
      (.acked ((congrArg Role.localExit role).trans onLocalExit) all regular) rfl
  · exact served

/-! ## The periodic tick -/

theorem turns_scheduleFragments (e : TransferEngine F) (active : e.transfer.active = true)
    (lost : e.transfer.exitNodeCount ≠ 0 → e.aliveCount = 0 → o.aborts .noExits = true) :
    Turns o e e.scheduleFragments.2 := by
  have drained := (steady_nowMs e).trans (steady_drainOow e.nowMs.2 e.nowMs.1)
  unfold scheduleFragments
  dsimp only
  split
  · exact .refl
  rename_i some
  split
  · rename_i dead
    have cause := EndCause.aborted (e := e) .noExits (lost some dead) false
      fun impossible => absurd impossible Bool.false_ne_true
    exact .single (.reset false active cause rfl)
  split
  · exact (drained.trans (steady_signalCongestion _)).turns
  split
  · exact drained.turns
  split
  · exact (drained.trans (steady_drainRedist _)).turns
  · exact ((drained.trans (steady_drainRedist _)).trans (steady_feedNew _ _)).turns

theorem turns_tickMeshArq (e : TransferEngine F) (active : e.transfer.active = true)
    (lost : e.transfer.exitNodeCount ≠ 0 → e.aliveCount = 0 → o.aborts .noExits = true) :
    Turns o e e.tickMeshArq := by
  have scheduled : Turns o e e.scheduleFragments.2 := turns_scheduleFragments e active lost
  unfold tickMeshArq checkUploadDrained
  split
  · split
    · exact scheduled.tail (.steady (steady_fields rfl rfl))
    · exact scheduled
  · exact scheduled

theorem turns_transferTick (e : TransferEngine F)
    (listed : ∀ seq ∈ e.io.env.cloudAcks, seq ∈ o.acks)
    (regular : e.transfer.active = true → e.localExit = true → ∀ abort, o.aborts abort = false)
    (lost : e.losesExits = true → o.aborts .noExits = true) : Turns o e e.transferTick := by
  unfold transferTick
  split
  · exact .refl
  rename_i running
  simp only [Bool.or_eq_true, not_or, Bool.not_eq_true, Bool.not_eq_false'] at running
  obtain ⟨active, settled⟩ := running
  split
  · exact Steady.turns ⟨rfl, .refl .., fun _ => id⟩
  rename_i calm
  split
  · rename_i onLocalExit
    exact turns_tickLocalExitArq e active onLocalExit listed (regular active onLocalExit)
  · rename_i onMesh
    refine turns_tickMeshArq e active fun some dead => lost ?_
    unfold losesExits
    simp [active, settled, onMesh, some, dead, Nat.eq_zero_of_not_pos calm]

theorem turns_republishMeta (e : TransferEngine F) (now : Nat) :
    Turns o e (e.republishMeta now) := by
  unfold republishMeta
  split
  · rename_i due
    rw [Bool.and_eq_true] at due
    exact .single (.publish due.2 rfl ⟨rfl, _, _, _, _, _, _, rfl⟩)
  · exact .refl

theorem turns_electionTimeoutTick (e : TransferEngine F) (now : Nat)
    (active : e.electionActive = true → e.transfer.active = true)
    (none : e.electsNone now = true → o.aborts .noCandidates = true) :
    Turns o e (e.electionTimeoutTick now) := by
  unfold electionTimeoutTick
  split
  · exact .refl
  rename_i due
  simp only [Bool.or_eq_true, not_or, Bool.not_eq_true, Bool.not_eq_false', decide_eq_true_eq,
    not_le] at due
  obtain ⟨electing, late⟩ := due
  split
  · rename_i empty
    have taken : e.electsNone now = true := by
      unfold electsNone
      simp [electing, late, empty]
    have cause := EndCause.aborted (e := e) .noCandidates (none taken) false
      fun impossible => absurd impossible Bool.false_ne_true
    exact .single (.reset false (active electing) cause rfl)
  · rename_i some
    exact .single (.elect electing some rfl)

theorem turns_tickExitRole (e : TransferEngine F) (now : Nat)
    (isOver : (e.drainExitNacks now).drainFragmentAcks.completesOver = true →
      o.servesOver = true) : Turns o e (e.tickExitRole now) := by
  have drained : Steady e (e.drainExitNacks now).drainFragmentAcks :=
    ((stamped_steady now).drainExitNacks e).trans (routine_steady.drainFragmentAcks _)
  obtain ⟨duties, eq⟩ : ∃ duties, duties = (e.drainExitNacks now).drainFragmentAcks := ⟨_, rfl⟩
  rw [← eq] at drained
  unfold tickExitRole
  rw [← eq]
  unfold pollTransferComplete
  split
  · rename_i exit
    have inRole : duties.hasExitRole = true := by
      rw [Bool.and_eq_true] at exit
      unfold hasExitRole
      rw [exit.1, Bool.true_or]
    have sent := drained.trans (steady_sendPacket duties duties.sourceAddr .transferDone
      ({ sessionId := duties.activeSessionId, exitNodeAddr := duties.myAddr } :
        TransferDone).toBytes 0 (by decide))
    refine sent.turns.tail (.clear inRole rfl fun mine => isOver ?_)
    unfold completesOver
    rw [← eq, exit]
    exact mine
  · exact drained.turns

/-- Turns take cloud ACKs out of the queue only. -/
theorem Turn.ack_mem (turn : Turn o e after) :
    ∀ seq ∈ after.io.env.cloudAcks, seq ∈ e.io.env.cloudAcks := by
  cases turn with
  | steady kept => exact kept.io.acks
  | mark seq listed onLocalExit inRange standing io => exact io.acks
  | advance inRange acked standing io => exact io.acks
  | reset signal active cause ended =>
      rw [ended, env_resetSenderTransferState]
      exact fun _ => id
  | clear exit cleared isOver =>
      rw [cleared, env_clearExitNodeState]
      exact fun _ => id
  | publish serving standing announces =>
      rw [announces.1]
      exact fun _ => id
  | activate pending standing announces =>
      rw [announces.1]
      exact fun _ => id
  | elect electing some elected =>
      rw [elected]
      exact (electExits_fields e).1.acks

theorem Turn.change (turn : Turn o e after) :
    StandingChange o.acks e.standing after.standing := by
  cases turn with
  | steady kept => exact kept.standing ▸ .same
  | mark seq listed onLocalExit inRange standing io =>
      exact standing ▸ .mark seq listed onLocalExit inRange
  | advance inRange acked standing io => exact standing ▸ .advance inRange acked
  | reset signal active cause ended =>
      rw [ended, standing_resetSenderTransferState]
      exact .ended active
  | clear exit cleared isOver =>
      rw [cleared, standing_clearExitNodeState]
      exact .cleared exit
  | publish serving standing announces => exact standing ▸ .same
  | activate pending standing announces => exact standing ▸ .activated pending
  | elect electing some elected =>
      rw [elected, (electExits_fields e).2]
      refine .elected _ _ electing fun i inRange => ?_
      obtain ⟨candidate, member, addr⟩ := exitNodes_electExits e inRange
      exact ⟨candidate, mem_electedExits member, addr⟩

/-- What every change of the standing keeps, a chain of turns keeps. -/
theorem Turns.keeps (turns : Turns o e after) {Inv : Standing → Prop}
    (each : ∀ s s', StandingChange o.acks s s' → Inv s → Inv s') (holds : Inv e.standing) :
    Inv after.standing := by
  induction turns with
  | refl => exact holds
  | tail _ turn inductionHypothesis => exact each _ _ turn.change inductionHypothesis

theorem Turns.ack_mem (turns : Turns o e after) :
    ∀ seq ∈ after.io.env.cloudAcks, seq ∈ e.io.env.cloudAcks := by
  induction turns with
  | refl => exact fun _ => id
  | tail _ turn inductionHypothesis =>
      exact fun seq member => inductionHypothesis seq (turn.ack_mem seq member)

/-- What holds of the standing between calls: an election belongs to an active transfer, and
the repeated broadcast is an advertisement. -/
structure Standing.Orderly (s : Standing) : Prop where
  electing : s.electionActive = true → s.active = true
  retry : s.retryType = .transferAd

theorem StandingChange.orderly {s s' : Standing} (change : StandingChange acks s s')
    (orderly : s.Orderly) : s'.Orderly := by
  cases change with
  | ended active => exact ⟨fun impossible => absurd impossible Bool.false_ne_true, orderly.retry⟩
  | elected count exitNodes electing chosen =>
      exact ⟨fun impossible => absurd impossible Bool.false_ne_true, orderly.retry⟩
  | same | mark | advance | cleared | activated => exact ⟨orderly.electing, orderly.retry⟩

theorem Turns.orderly (turns : Turns o e after) (orderly : e.standing.Orderly) :
    after.standing.Orderly :=
  turns.keeps (fun _ _ change => change.orderly) orderly

theorem turns_tickStages (e : TransferEngine F) (now : Nat) (orderly : e.standing.Orderly)
    (none : ((e.tickExitRole now).broadcastRetryTick now).electsNone now = true →
      o.aborts .noCandidates = true)
    (isOver : (e.drainExitNacks now).drainFragmentAcks.completesOver = true →
      o.servesOver = true) : Turns o e (e.tickStages now) := by
  have duties : Turns o e (e.tickExitRole now) := turns_tickExitRole e now isOver
  have retried : Turns o e ((e.tickExitRole now).broadcastRetryTick now) :=
    duties.tail (.steady (steady_broadcastRetryTick _ now (duties.orderly orderly).retry))
  have elected := retried.trans
    (turns_electionTimeoutTick _ now (retried.orderly orderly).electing none)
  exact elected.tail (.steady (steady_exitNodeHealthTick _ now))

/-- A tick that does not return early goes through its stages from `stageEntry`. -/
theorem tickBeforeTransfer_through {e : TransferEngine F} {now : Nat}
    (through : (e.tickBeforeTransfer now).1 = true) :
    e.tickArqs.arqFailed = false ∧ (e.tickArqs.republishMeta now).abortsStalled now = false ∧
      (e.tickBeforeTransfer now).2 = (e.stageEntry now).tickStages now := by
  unfold tickBeforeTransfer at through ⊢
  unfold stageEntry abortsStalled
  dsimp only at through ⊢
  split at through
  · exact absurd through Bool.false_ne_true
  rename_i going
  rw [if_neg going]
  refine ⟨eq_false_of_ne_true going, ?_⟩
  split at through
  · rename_i stalled
    split at through
    · exact absurd through Bool.false_ne_true
    rename_i notMine
    split at through
    · exact absurd through Bool.false_ne_true
    rename_i notWaiting
    rw [if_pos stalled, if_neg notMine, if_neg notWaiting, stalled, Bool.true_and]
    refine ⟨?_, ?_⟩
    · cases active : (e.tickArqs.republishMeta now).transfer.active <;>
        cases onLocalExit : (e.tickArqs.republishMeta now).localExit <;>
          simp_all
    · rw [Bool.true_and]
      split <;> rfl
  · rename_i alive
    rw [if_neg alive, eq_false_of_ne_true alive]
    exact ⟨rfl, rfl⟩

theorem turns_tickBeforeTransfer (e : TransferEngine F) (now : Nat)
    (orderly : e.standing.Orderly)
    (aborts : ∀ abort, e.tickAborts now abort = true → o.aborts abort = true)
    (isOver : e.servesOver now = true → o.servesOver = true) :
    Turns o e (e.tickBeforeTransfer now).2 := by
  have ticked : Turns o e e.tickArqs := (routine_steady.tickArqs e).turns
  have republished : Turns o e (e.tickArqs.republishMeta now) :=
    ticked.trans (turns_republishMeta e.tickArqs now)
  cases through : (e.tickBeforeTransfer now).1 with
  | true =>
      obtain ⟨_, quiet, stages⟩ := tickBeforeTransfer_through through
      have entered : Turns o e (e.stageEntry now) := by
        unfold stageEntry
        dsimp only
        split
        · rename_i cleared
          rw [Bool.and_eq_true] at cleared
          refine republished.tail (.clear cleared.2 rfl fun mine => ?_)
          unfold abortsStalled at quiet
          rw [Bool.and_eq_true] at mine
          simp [cleared.1, mine.1, mine.2] at quiet
        · exact republished
      rw [stages]
      refine entered.trans (turns_tickStages _ now (entered.orderly orderly) ?_ ?_)
      · intro none
        apply aborts .noCandidates
        unfold tickAborts
        rw [through, none]
        rfl
      · intro served
        apply isOver
        unfold servesOver
        rw [through, served]
        rfl
  | false =>
      have stopped : ∀ abort, ∀ signal : Bool, e.tickAborts now abort = true →
          ∀ {before : TransferEngine F}, Turns o e before → before.transfer.active = true →
            (signal = true → abort = .stalled ∧ before.localExit = true) →
              Turns o e (before.resetSenderTransferState signal) := by
        intro abort signal taken before turns active localStall
        exact turns.tail (.reset signal active
          (.aborted abort (aborts abort taken) signal localStall) rfl)
      unfold tickBeforeTransfer at through ⊢
      dsimp only at through ⊢
      split
      · rename_i failed
        have active : e.tickArqs.transfer.active = true := by
          unfold arqFailed at failed
          simp only [Bool.and_eq_true] at failed
          exact failed.1.1
        exact stopped .arqFailed false failed ticked active
          fun impossible => absurd impossible Bool.false_ne_true
      rename_i going
      rw [if_neg going] at through
      split
      · rename_i stalled
        have taken : ((e.tickArqs.republishMeta now).transfer.active &&
            ((e.tickArqs.republishMeta now).localExit ||
              (e.tickArqs.republishMeta now).meshUploadDone)) = true →
            e.tickAborts now .stalled = true := by
          intro mine
          unfold tickAborts abortsStalled
          rw [eq_false_of_ne_true going, stalled, Bool.not_false, Bool.true_and, Bool.true_and]
          exact mine
        rw [if_pos stalled] at through
        split
        · rename_i mine
          rw [Bool.and_eq_true] at mine
          exact stopped .stalled true (taken (by simp [mine.1, mine.2])) republished mine.2
            fun _ => ⟨rfl, mine.1⟩
        rename_i notMine
        rw [if_neg notMine] at through
        split
        · rename_i waiting
          simp only [Bool.and_eq_true, Bool.not_eq_true'] at waiting
          exact stopped .stalled false (taken (by simp [waiting.1.1, waiting.1.2])) republished
            waiting.1.2 fun impossible => absurd impossible Bool.false_ne_true
        rename_i notWaiting
        rw [if_neg notWaiting] at through
        split at through <;> exact absurd through.symm Bool.false_ne_true
      · rename_i alive
        rw [if_neg alive] at through
        exact absurd through.symm Bool.false_ne_true

/-- While a transfer is active behind the stages of a tick, the tick has taken no abort. -/
theorem regular_of_active {e : TransferEngine F} {now : Nat}
    (through : (e.tickBeforeTransfer now).1 = true)
    (active : (e.tickBeforeTransfer now).2.transfer.active = true)
    (onLocalExit : (e.tickBeforeTransfer now).2.localExit = true) (abort : Abort) :
    e.tickAborts now abort = false := by
  obtain ⟨going, quiet, stages⟩ := tickBeforeTransfer_through through
  cases abort with
  | arqFailed => exact going
  | stalled =>
      unfold tickAborts
      rw [going, quiet]
      rfl
  | noCandidates =>
      unfold tickAborts
      rw [through, Bool.true_and, ← Bool.not_eq_true]
      intro none
      unfold electsNone at none
      simp only [Bool.and_eq_true, decide_eq_true_eq] at none
      obtain ⟨⟨electing, late⟩, empty⟩ := none
      have health := (steady_exitNodeHealthTick ((((e.stageEntry now).tickExitRole
        now).broadcastRetryTick now).electionTimeoutTick now) now).standing
      rw [stages] at active
      have still := (congrArg Standing.active health).symm.trans active
      unfold electionTimeoutTick at still
      rw [if_neg (by simp [electing, late]), if_pos empty] at still
      have ended := congrArg Standing.active (standing_resetSenderTransferState
        { ((e.stageEntry now).tickExitRole now).broadcastRetryTick now with
          electionActive := false } false)
      have impossible : true = false := still.symm.trans ended
      exact Bool.noConfusion impossible
  | noExits =>
      unfold tickAborts losesExits
      rw [onLocalExit]
      simp

theorem turns_tick (e : TransferEngine F) (now : Nat) (orderly : e.standing.Orderly)
    (listed : ∀ seq ∈ e.io.env.cloudAcks, seq ∈ o.acks)
    (aborts : ∀ abort, o.aborts abort = e.tickAborts now abort)
    (isOver : o.servesOver = e.servesOver now) : Turns o e (e.tick now) := by
  have before : Turns o e (e.tickBeforeTransfer now).2 :=
    turns_tickBeforeTransfer e now orderly (fun abort taken => (aborts abort).trans taken)
      fun served => isOver.trans served
  unfold tick
  dsimp only
  split
  · rename_i through
    refine before.trans (turns_transferTick _ (fun seq member => ?_) ?_ ?_)
    · exact listed seq (before.ack_mem seq member)
    · exact fun active onLocalExit abort =>
        (aborts abort).trans (regular_of_active through active onLocalExit abort)
    · intro lost
      rw [aborts]
      unfold tickAborts
      rw [through, lost]
      rfl
  · exact before

/-! ## Handlers -/

theorem turns_handleData (e : TransferEngine F) (srcAddr seq : Nat) (payload : List UInt8) :
    Turns o e (e.handleData srcAddr seq payload) := by
  have activated : Turns o e e.activateExit := by
    unfold activateExit
    split
    · rename_i first
      simp only [Bool.and_eq_true] at first
      exact .single (.activate first.1.1 rfl ⟨rfl, _, _, _, _, _, _, rfl⟩)
    · exact .refl
  unfold handleData
  split
  · exact activated.tail (.steady (steady_forwardFragment _ seq payload))
  · have peer : Steady e (e.setArq 0 { e.arq 0 with peerAddr := srcAddr }) := steady_fields rfl rfl
    exact peer.turns

theorem turns_handleTransferDone (e : TransferEngine F) (sender : Nat) (payload : List UInt8)
    (delivered : o.done = some (sender, payload)) (regular : ∀ abort, o.aborts abort = false) :
    Turns o e (e.handleTransferDone sender payload) := by
  unfold handleTransferDone
  dsimp only
  split
  · exact .refl
  rename_i running
  split
  · exact .refl
  split
  · exact .refl
  rename_i session
  split
  · exact .refl
  rename_i accepted
  rw [not_or, not_not] at accepted
  obtain ⟨named, known⟩ := accepted
  obtain ⟨index, found⟩ := Option.ne_none_iff_exists'.mp (by simpa using known)
  have exit : ∃ i < e.transfer.exitNodeCount, e.transfer.exitNodes i = sender := by
    refine ⟨index, List.mem_range.mp (List.mem_of_find?_eq_some found), ?_⟩
    rw [named]
    simpa using List.find?_some found
  exact .single (.reset true (by simpa using running)
    (.done sender payload delivered (not_not.mp session) exit regular) rfl)

/-- What `handle_transfer_ack` can do. -/
inductive Hears (e : TransferEngine F) (ack : TransferAck) (after : TransferEngine F) : Prop
  | ignored (same : after = e)
  | candidate (candidate : ExitCandidate) (addr : candidate.addr = ack.exitNodeAddr)
      (electing : e.electionActive = true)
      (standing : after.standing = { e.standing with candidates := e.candidates ++ [candidate] })
      (io : after.io = e.io)

omit [PathArith F] in
theorem hears_handleTransferAck (e : TransferEngine F) (payload : List UInt8) :
    Hears e (TransferAck.ofBytes payload) (e.handleTransferAck payload) := by
  unfold handleTransferAck
  dsimp only
  split
  · exact .ignored rfl
  split
  · exact .ignored rfl
  rename_i electing
  split
  · exact .ignored rfl
  split
  · exact .candidate _ rfl (by simpa using electing) rfl rfl
  · exact .ignored rfl

/-- The offer of the node's exit service was sent for a session. -/
def Offers (e after : TransferEngine F) (sessionId : Nat) : Prop :=
  after.io.env.cloudAcks = e.io.env.cloudAcks ∧
    ∃ dst seq result, ∃ ack : TransferAck,
      after.io.outputs = .sent dst .transferAck seq ack.toBytes result :: e.io.outputs ∧
        ack.exitNodeAddr = e.myAddr ∧ ack.sessionId = sessionId

/-- What `handle_transfer_ad` can do. -/
inductive Answers (e : TransferEngine F) (srcAddr : Nat) (ad : TransferAd)
    (after : TransferEngine F) : Prop
  | ignored (same : after = e)
  | again (exit : e.hasExitRole = true) (session : e.activeSessionId = ad.sessionId)
      (standing : after.standing = e.standing) (offers : Offers e after ad.sessionId)
  | pending (inactive : e.transfer.active = false) (free : e.hasExitRole = false)
      (standing : after.standing =
        { e.standing with
          exitPending := true
          activeSessionId := ad.sessionId
          sourceAddr := srcAddr
          fragmentCount := ad.fragmentCount })
      (offers : Offers e after ad.sessionId)

omit [PathArith F] in
theorem offers_sendTransferAck (e : TransferEngine F) (dst sessionId activeTransfers : Nat) :
    Offers e (e.sendTransferAck dst sessionId activeTransfers) sessionId := by
  unfold sendTransferAck TransferEngine.sendPacket Io.sendPacket
  dsimp only
  split <;> exact ⟨rfl, _, _, _, _, rfl, rfl, rfl⟩

omit [PathArith F] in
theorem answers_handleTransferAd (e : TransferEngine F) (srcAddr : Nat) (payload : List UInt8)
    (hasInternet : Bool) : Answers e srcAddr (TransferAd.ofBytes payload)
      (e.handleTransferAd srcAddr payload hasInternet) := by
  unfold handleTransferAd
  dsimp only
  split
  · exact .ignored rfl
  split
  · exact .ignored rfl
  split
  · exact .ignored rfl
  rename_i inactive
  split
  · exact .ignored rfl
  rename_i sameSession
  split
  · rename_i exit
    refine .again exit ?_ rfl (offers_sendTransferAck ..)
    simpa [exit] using sameSession
  · rename_i free
    have offers := offers_sendTransferAck e srcAddr (TransferAd.ofBytes payload).sessionId 0
    exact .pending (by simpa using inactive) (by simpa using free) rfl offers

/-- What `start_file_transfer` can do. -/
inductive Begins (e : TransferEngine F) (args : StartArgs) (after : TransferEngine F) : Prop
  | refused (busy : e.transfer.active = true ∨ e.isExitNode = true) (same : after = e)
  | rejected (inactive : e.transfer.active = false) (count : Nat)
      (standing : after.standing =
        { e.standing with
          active := false
          localExit := args.hasInternet && args.hasMqtt
          sessionId := e.drawnSession
          fragmentCount := count })
      (io : Io.Plain e.io after.io)
  | onLocalExit (inactive : e.transfer.active = false) (free : e.isExitNode = false) (io : Io)
      (later : Io.Plain e.io io)
      (standing : after.standing =
        { e.standing with
          active := true
          localExit := true
          sessionId := e.drawnSession
          fragmentCount := dataFragCount args.size
          cloudAckBitmap := fun _ => false
          cloudBaseSeq := 0 })
      (announces : Announces { e with io := io } after e.drawnSession)
  | onMesh (inactive : e.transfer.active = false) (free : e.isExitNode = false)
      (standing : after.standing =
        { e.standing with
          active := true
          localExit := false
          sessionId := e.drawnSession
          fragmentCount := meshFragmentCount (dataFragCount args.size)
          candidates := []
          electionActive := true })
      (io : Io.Plain e.io after.io)

omit [PathArith F] in
theorem plain_prepareTransfer (e : TransferEngine F) (args : StartArgs) :
    Io.Plain e.io (e.prepareTransfer args).io :=
  io_prepareTransfer .refl .trans Io.plain_radio.nowMs Io.plain_readChunk e args

omit [PathArith F] in
theorem begins_startFileTransfer (e : TransferEngine F) (args : StartArgs)
    (orderly : e.standing.Orderly) : Begins e args (e.startFileTransfer args).2 := by
  have prepared := plain_prepareTransfer e args
  unfold startFileTransfer
  split
  · rename_i active
    exact .refused (.inl active) rfl
  rename_i inactive
  split
  · rename_i exit
    exact .refused (.inr exit) rfl
  rename_i free
  have inactive : e.transfer.active = false := by simpa using inactive
  have free : e.isExitNode = false := by simpa using free
  have refreshed : (e.prepareTransfer args).localExit = (args.hasInternet && args.hasMqtt) := rfl
  dsimp only
  split
  · rename_i chosen
    have chosen := refreshed.symm.trans chosen
    unfold startLocalExit
    dsimp only
    split
    · exact .rejected inactive _ rfl prepared
    split
    · exact .rejected inactive _ rfl prepared
    · refine .onLocalExit inactive free
        ((e.prepareTransfer args).setFragmentCount (dataFragCount args.size)).nowMs.2.io
        (prepared.trans ⟨.refl .., fun _ => id⟩) ?_ ⟨rfl, _, _, _, _, _, _, rfl⟩
      change { e.standing with
        active := true
        localExit := args.hasInternet && args.hasMqtt
        sessionId := e.drawnSession
        fragmentCount := dataFragCount args.size
        cloudAckBitmap := fun _ => false
        cloudBaseSeq := 0 } = _
      rw [chosen]
  · rename_i chosen
    have chosen := refreshed.symm.trans (eq_false_of_ne_true chosen)
    unfold startMesh sendBroadcastWithRetry
    dsimp only
    split
    · exact .rejected inactive _ rfl prepared
    · have clocked : Io.Plain e.io
          ((e.prepareTransfer args).setFragmentCount
            (meshFragmentCount (dataFragCount args.size))).nowMs.2.io :=
        prepared.trans ⟨.refl .., fun _ => id⟩
      have begun : ∀ retry : PacketType, retry = .transferAd →
          { e.standing with
            active := true
            localExit := args.hasInternet && args.hasMqtt
            sessionId := e.drawnSession
            fragmentCount := meshFragmentCount (dataFragCount args.size)
            candidates := []
            electionActive := true
            retryType := retry } =
          { e.standing with
            active := true
            localExit := false
            sessionId := e.drawnSession
            fragmentCount := meshFragmentCount (dataFragCount args.size)
            candidates := []
            electionActive := true } := by
        intro retry advert
        rw [chosen, advert, ← orderly.retry]
      split
      · exact .onMesh inactive free (begun _ orderly.retry) clocked
      · exact .onMesh inactive free (begun _ rfl) clocked

/-! ## One call -/

/-- What one call can do. -/
theorem step_turns (orderly : e.standing.Orderly) (call : Call) :
    (∃ args, call.event = .startFileTransfer args ∧
        Begins (e.setEnv call.env) args (e.step call)) ∨
      (∃ payload, call.event = .transferAck payload ∧
        Hears (e.setEnv call.env) (TransferAck.ofBytes payload) (e.step call)) ∨
      (∃ srcAddr payload hasInternet, call.event = .transferAd srcAddr payload hasInternet ∧
        Answers (e.setEnv call.env) srcAddr (TransferAd.ofBytes payload) (e.step call)) ∨
      Turns (e.occasion call) (e.setEnv call.env) (e.step call) := by
  obtain ⟨env, event⟩ := call
  cases event with
  | startFileTransfer args => exact .inl ⟨args, rfl, begins_startFileTransfer _ args orderly⟩
  | transferAck payload =>
      exact .inr (.inl ⟨payload, rfl, hears_handleTransferAck (e.setEnv env) payload⟩)
  | transferAd srcAddr payload hasInternet =>
      exact .inr (.inr (.inl ⟨srcAddr, payload, hasInternet, rfl,
        answers_handleTransferAd (e.setEnv env) srcAddr payload hasInternet⟩))
  | data srcAddr seq payload => exact .inr (.inr (.inr (turns_handleData _ srcAddr seq payload)))
  | ack seq fromAddr => exact .inr (.inr (.inr (steady_handleAck _ seq fromAddr).turns))
  | nack seq fromAddr => exact .inr (.inr (.inr (routine_steady.handleNack _ seq fromAddr).turns))
  | exitOffline exitAddr sessionId =>
      exact .inr (.inr (.inr (steady_handleExitOffline _ exitAddr sessionId).turns))
  | transferDone sender payload =>
      exact .inr (.inr (.inr (turns_handleTransferDone _ sender payload rfl fun _ => rfl)))
  | congestion => exact .inr (.inr (.inr (steady_signalCongestion _).turns))
  | healthTick now => exact .inr (.inr (.inr (steady_exitNodeHealthTick _ now).turns))
  | tick now =>
      exact .inr (.inr (.inr
        (turns_tick (e.setEnv env) now orderly (fun _ => id) (fun _ => rfl) rfl)))

/-- The standing stays orderly through every call. -/
theorem orderly_step (orderly : e.standing.Orderly) (call : Call) :
    (e.step call).standing.Orderly := by
  have called : (e.setEnv call.env).standing.Orderly := orderly
  rcases step_turns orderly call with ⟨args, _, begins⟩ | ⟨payload, _, hears⟩ |
    ⟨srcAddr, payload, hasInternet, _, answers⟩ | turns
  · cases begins with
    | refused busy same => exact same ▸ called
    | rejected inactive count standing io =>
        rw [standing]
        refine ⟨fun electing => ?_, orderly.retry⟩
        exact absurd ((called.electing electing).symm.trans inactive) (by decide)
    | onLocalExit inactive free io later standing announces =>
        rw [standing]
        exact ⟨fun _ => rfl, orderly.retry⟩
    | onMesh inactive free standing io =>
        rw [standing]
        exact ⟨fun _ => rfl, orderly.retry⟩
  · cases hears with
    | ignored same => exact same ▸ called
    | candidate candidate addr electing standing io =>
        rw [standing]
        exact ⟨orderly.electing, orderly.retry⟩
  · cases answers with
    | ignored same => exact same ▸ called
    | again exit session standing offers => exact standing ▸ called
    | pending inactive free standing offers =>
        rw [standing]
        exact ⟨orderly.electing, orderly.retry⟩
  · exact turns.orderly called

theorem orderly_boot (myAddr maxElectedExits : Nat) :
    (boot myAddr maxElectedExits : TransferEngine F).standing.Orderly :=
  ⟨fun impossible => absurd impossible Bool.false_ne_true, rfl⟩

end Turns

end TransferEngine

end ForestLink.Mesh
