/-
Module: ForestLink.Proofs.StageRules
Purpose: The stages of the transfer engine that move no new fragment, as chains of small
  steps: what holds along the small steps holds along the stage.
Trusted boundary: none
Main exports: Routine, Routine.tickArqs, Routine.handleNack, Routine.drainOow,
  Routine.broadcastRetryTick, Stamped, Stamped.relayCloudNacks, io_prepareTransfer
-/
import ForestLink.Mesh.Engine

namespace ForestLink.Mesh

open ForestLink.Protocol

/-- The output notes what became of a fragment of the session. -/
def Output.isNotice : Output → Bool
  | .nackObserved .. | .nackRequeued .. | .ackRequeued .. => true
  | _ => false

namespace TransferEngine

variable {F : Type} {R : TransferEngine F → TransferEngine F → Prop} {now : Nat}

/-! ## Small steps -/

/-- `R` relates the states before and after every small step, and after chains of them. -/
structure Routine (R : TransferEngine F → TransferEngine F → Prop) : Prop where
  refl : ∀ e, R e e
  trans : ∀ {first second third}, R first second → R second third → R first third
  nowMs : ∀ e, R e e.nowMs.2
  setEnv : ∀ e (env : Env), env.clock = e.io.env.clock → env.cloudAcks = e.io.env.cloudAcks →
    env.readLimits = e.io.env.readLimits → R e (e.setEnv env)
  notice : ∀ e output, output.isNotice = true → R e (e.emit output)
  sendPacket : ∀ e dst type payload seq, type ≠ .data → type ≠ .transferAck →
    R e (e.sendPacket dst type payload seq).2
  readChunk : ∀ e file offset len, R e { e with io := (e.io.readChunk file offset len).2 }
  retry : ∀ e (retry : BroadcastRetry), retry.type = e.broadcastRetry.type →
    R e { e with broadcastRetry := retry }
  oowQueue : ∀ e (queue : List (Nat × Nat)), R e { e with oowRetxQueue := queue }
  oowRing : ∀ e recent write time,
    R e { e with oowRecent := recent, oowRecentWrite := write, lastOowRetxMs := time }
  tickArq : ∀ e index budget, R e (e.tickArq index budget).2
  nackWindow : ∀ e index seq, R e (e.nackWindow index seq)

/-- The steps that stamp cloud activity hold as well. -/
structure Stamped (now : Nat) (R : TransferEngine F → TransferEngine F → Prop) : Prop
    extends Routine R where
  stamp : ∀ e, R e { e with lastCloudActivityMs := now % 2 ^ 32 }

namespace Routine

/-- A relation that is known for the states with `P`, when it keeps `P`. -/
theorem guarded (routine : Routine R) {P : TransferEngine F → Prop}
    (kept : ∀ {e after}, P e → R e after → P after) :
    Routine fun e after => P e → R e after where
  refl e _ := routine.refl e
  trans left right holds := routine.trans (left holds) (right (kept holds (left holds)))
  nowMs e _ := routine.nowMs e
  setEnv e env clock acks limits _ := routine.setEnv e env clock acks limits
  notice e output notice _ := routine.notice e output notice
  sendPacket e dst type payload seq noData noAnswer _ :=
    routine.sendPacket e dst type payload seq noData noAnswer
  readChunk e file offset len _ := routine.readChunk e file offset len
  retry e retry same _ := routine.retry e retry same
  oowQueue e queue _ := routine.oowQueue e queue
  oowRing e recent write time _ := routine.oowRing e recent write time
  tickArq e index budget _ := routine.tickArq e index budget
  nackWindow e index seq _ := routine.nackWindow e index seq

theorem foldl (routine : Routine R) {α : Type} {f : TransferEngine F → α → TransferEngine F}
    (each : ∀ e entry, R e (f e entry)) (entries : List α) (e : TransferEngine F) :
    R e (entries.foldl f e) := by
  induction entries generalizing e with
  | nil => exact routine.refl e
  | cons entry rest inductionHypothesis =>
      exact routine.trans (each e entry) (inductionHypothesis (f e entry))

/-! ## Retransmission -/

theorem tickAliveArqs (routine : Routine R) (indices : List Nat) (budget : Nat)
    (e : TransferEngine F) : R e (TransferEngine.tickAliveArqs indices budget e) := by
  induction indices generalizing budget e with
  | nil => exact routine.refl e
  | cons index rest inductionHypothesis =>
      unfold TransferEngine.tickAliveArqs
      split
      · exact routine.refl e
      split
      · exact inductionHypothesis budget e
      · exact routine.trans (routine.tickArq e index budget) (inductionHypothesis _ _)

theorem tickArqs (routine : Routine R) (e : TransferEngine F) : R e e.tickArqs := by
  unfold TransferEngine.tickArqs
  split
  · exact routine.tickAliveArqs _ _ e
  · exact routine.foldl (fun e index => routine.tickArq e index 8) _ e

theorem enqueueOow (routine : Routine R) (e : TransferEngine F) (seq fromAddr : Nat) :
    R e (e.enqueueOow seq fromAddr) := by
  have clock := routine.nowMs e
  unfold TransferEngine.enqueueOow
  dsimp only
  split
  · exact routine.refl e
  split
  · exact routine.oowQueue e _
  split
  · exact clock
  split
  · exact routine.trans clock (routine.oowQueue _ _)
  · exact clock

theorem handleNack (routine : Routine R) (e : TransferEngine F) (seq fromAddr : Nat) :
    R e (e.handleNack seq fromAddr) := by
  unfold TransferEngine.handleNack
  split
  · split
    · exact routine.refl e
    · exact routine.nackWindow e _ seq
  · split
    · exact routine.nackWindow e _ seq
    split
    · exact routine.refl e
    · exact routine.enqueueOow e seq fromAddr

/-! ## The out-of-window queue -/

theorem readFragment (routine : Routine R) (e : TransferEngine F) (seq : Nat) :
    R e (e.readFragment seq).2 :=
  routine.readChunk e _ _ _

theorem regenerateParity (routine : Routine R) (group : Nat) (positions : List Nat)
    (encoder : FecEncoder) (e : TransferEngine F) :
    R e (TransferEngine.regenerateParity group positions encoder e).2 := by
  induction positions generalizing encoder e with
  | nil => exact routine.refl e
  | cons position rest inductionHypothesis =>
      unfold TransferEngine.regenerateParity
      dsimp only
      split
      · exact routine.refl e
      · exact routine.trans (routine.readChunk e _ _ _) (inductionHypothesis _ _)

theorem oowPayload (routine : Routine R) (e : TransferEngine F) (seq : Nat) :
    R e (e.oowPayload seq).2 := by
  have parity := routine.regenerateParity (seq / (fecGroupSize + 1)) (List.range fecGroupSize)
    .reset e
  unfold TransferEngine.oowPayload
  split
  · split
    · rename_i noEncoder
      rw [noEncoder] at parity
      exact parity
    · rename_i withEncoder
      rw [withEncoder] at parity
      split <;> exact parity
  split
  · exact routine.refl e
  · exact routine.readFragment e seq

/-- `sends` says what is known of the payloads that are sent. -/
theorem drainOowEntries (routine : Routine R)
    (sends : ∀ e dst payload seq, (e.oowPayload seq).1 = some payload → payload ≠ [] →
      R e ((e.oowPayload seq).2.sendPacket dst .data payload seq).2)
    (clock budget : Nat) (allowed : Bool) (entries : List (Nat × Nat)) (sent : Nat)
    (e : TransferEngine F) :
    R e (TransferEngine.drainOowEntries clock budget allowed entries sent e) := by
  induction entries generalizing sent e with
  | nil => exact routine.refl e
  | cons entry rest inductionHypothesis =>
      obtain ⟨seq, dst⟩ := entry
      have read := routine.oowPayload e seq
      have transmitted := fun payload target => sends e target payload seq
      unfold TransferEngine.drainOowEntries
      split
      · exact routine.trans (routine.oowQueue e _) (inductionHypothesis _ _)
      split
      · rename_i dropped
        rw [dropped] at read
        exact routine.trans read (inductionHypothesis _ _)
      · rename_i payload after loaded
        rw [loaded] at read transmitted
        dsimp only
        split
        · exact routine.trans (routine.trans read (routine.oowQueue after _))
            (inductionHypothesis _ _)
        rename_i nonempty
        have accepted := transmitted payload (after.oowTarget dst) rfl nonempty
        split
        · exact routine.trans accepted (routine.oowQueue _ _)
        · exact routine.trans (routine.trans accepted (routine.oowRing _ _ _ _))
            (inductionHypothesis _ _)

theorem drainOow (routine : Routine R)
    (sends : ∀ e dst payload seq, (e.oowPayload seq).1 = some payload → payload ≠ [] →
      R e ((e.oowPayload seq).2.sendPacket dst .data payload seq).2)
    (e : TransferEngine F) (clock : Nat) : R e (e.drainOow clock) := by
  unfold TransferEngine.drainOow
  split
  · exact routine.refl e
  · exact routine.trans (routine.oowQueue e []) (routine.drainOowEntries sends _ _ _ _ _ _)

/-! ## The duties of an exit -/

theorem relayFragmentAcks (routine : Routine R) (seqs : List Nat) (e : TransferEngine F) :
    R e (TransferEngine.relayFragmentAcks seqs e) := by
  induction seqs generalizing e with
  | nil => exact routine.setEnv e _ rfl rfl rfl
  | cons seq rest inductionHypothesis =>
      have sent := routine.sendPacket e e.sourceAddr .ack [] seq (by decide) (by decide)
      unfold TransferEngine.relayFragmentAcks
      dsimp only
      split
      · have requeued := routine.trans sent
          (routine.notice _ (.ackRequeued e.activeSessionId seq) rfl)
        exact routine.trans requeued (routine.setEnv _ _ rfl rfl rfl)
      · exact routine.trans sent (inductionHypothesis _)

theorem drainFragmentAcks (routine : Routine R) (e : TransferEngine F) :
    R e e.drainFragmentAcks := by
  unfold TransferEngine.drainFragmentAcks
  split
  · exact routine.relayFragmentAcks _ e
  · exact routine.refl e

/-- `sent` says what is known of the packet that waits for its retry. -/
theorem broadcastRetryTick (routine : Routine R) (e : TransferEngine F) (clock : Nat)
    (sent : R e (e.sendPacket e.broadcastRetry.dstAddr e.broadcastRetry.type
      e.broadcastRetry.payload 0).2) : R e (e.broadcastRetryTick clock) := by
  unfold TransferEngine.broadcastRetryTick
  dsimp only
  split
  · exact routine.refl e
  split
  · exact routine.refl e
  split
  · exact routine.trans sent (routine.retry _ _ rfl)
  · exact routine.trans sent (routine.retry _ _ rfl)

end Routine

namespace Stamped

theorem relayCloudNacks (stamped : Stamped now R) (seqs : List Nat) (e : TransferEngine F) :
    R e (TransferEngine.relayCloudNacks now seqs e) := by
  have routine := stamped.toRoutine
  induction seqs generalizing e with
  | nil => exact routine.setEnv e _ rfl rfl rfl
  | cons seq rest inductionHypothesis =>
      have sent := routine.trans
        (routine.notice e (.nackObserved e.activeSessionId seq) rfl)
        (routine.sendPacket _ e.sourceAddr .nack [] seq (by decide) (by decide))
      unfold TransferEngine.relayCloudNacks
      dsimp only
      split
      · have requeued := routine.trans sent
          (routine.notice _ (.nackRequeued e.activeSessionId seq) rfl)
        exact routine.trans requeued (routine.setEnv _ _ rfl rfl rfl)
      · exact routine.trans (routine.trans sent (stamped.stamp _)) (inductionHypothesis _)

theorem drainExitNacks (stamped : Stamped now R) (e : TransferEngine F) :
    R e (e.drainExitNacks now) := by
  unfold TransferEngine.drainExitNacks
  split
  · exact stamped.relayCloudNacks _ e
  · exact stamped.refl e

end Stamped

/-! ## The start -/

/-- A relation that holds along clock readings and file reads holds along the preparation of
a transfer. -/
theorem io_prepareTransfer {P : Io → Io → Prop} (refl : ∀ io, P io io)
    (trans : ∀ {first second third}, P first second → P second third → P first third)
    (nowMs : ∀ io, P io io.nowMs.2)
    (readChunk : ∀ io file offset len, P io (io.readChunk file offset len).2)
    (e : TransferEngine F) (args : StartArgs) : P e.io (e.prepareTransfer args).io := by
  have read : ∀ (fuel offset : Nat) (crc : UInt32) (io : Io),
      P io (crcLoop args.readChunk args.size fuel offset crc io).2 := by
    intro fuel
    induction fuel with
    | zero => exact fun _ _ io => refl io
    | succ fuel inductionHypothesis =>
        intro offset crc io
        have chunk := readChunk io (some args.readChunk) offset (min (args.size - offset) 512)
        unfold crcLoop
        dsimp only
        split
        · split
          · exact chunk
          · exact trans chunk (inductionHypothesis _ _ _)
        · exact refl io
  exact trans (read _ _ _ _) (nowMs _)

end TransferEngine

end ForestLink.Mesh
