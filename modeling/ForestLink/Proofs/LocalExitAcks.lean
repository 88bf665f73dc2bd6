/-
Module: ForestLink.Proofs.LocalExitAcks
Purpose: Where the acknowledgements of a transfer over the node's own connection are: on their
  way, in the queue, or marked by the sender; and the two ways in which one gets lost.
Trusted boundary: none
Main exports: drainAll_own, TransferEngine.serveLocalExit_spec, LocalExit.Begun,
  LocalExit.Keeps, LocalExit.bitmap_follows_cloud, LocalExit.full_queue_loses_ack
-/
import ForestLink.Mesh.LocalExit
import ForestLink.Proofs.AcknowledgedChunks
import ForestLink.Proofs.CloudAnswers
import ForestLink.Proofs.EngineTurns
import ForestLink.Proofs.SuccessRest

namespace ForestLink.Mesh

open ForestLink.Lib
open ForestLink.Mqtt
open ForestLink.Protocol

/-! ## Draining a queue -/

/-- The numbers of a session in the order of the queue. -/
def ownSeqs (session : Nat) (queue : List SessionItem) : List Nat :=
  (queue.filter fun item => item.sessionId == session).map SessionItem.seq

section Draining

variable {session : Nat} {queue : List SessionItem}

theorem mem_ownSeqs {seq : Nat} : seq ∈ ownSeqs session queue ↔ ⟨session, seq⟩ ∈ queue := by
  unfold ownSeqs
  rw [List.mem_map]
  constructor
  · rintro ⟨item, member, rfl⟩
    obtain ⟨inQueue, own⟩ := List.mem_filter.mp member
    rw [← beq_iff_eq.mp own]
    exact inQueue
  · intro member
    exact ⟨⟨session, seq⟩, List.mem_filter.mpr ⟨member, beq_self_eq_true session⟩, rfl⟩

theorem ownSeqs_cons_own {item : SessionItem} (own : item.sessionId = session) :
    ownSeqs session (item :: queue) = item.seq :: ownSeqs session queue := by
  simp [ownSeqs, own]

theorem ownSeqs_cons_other {item : SessionItem} (other : item.sessionId ≠ session) :
    ownSeqs session (item :: queue) = ownSeqs session queue := by
  simp [ownSeqs, other]

theorem ownSeqs_send_other {item : SessionItem} (other : item.sessionId ≠ session) (depth : Nat) :
    ownSeqs session (SessionQueue.send depth queue item).2 = ownSeqs session queue := by
  unfold SessionQueue.send ownSeqs
  split <;> simp [other]

/-- The loop returns the first item of the session, and nothing only when there is none. -/
theorem drainLoop_own (depth : Nat) {waiting : Nat} {queue : List SessionItem}
    (behind : ∀ item ∈ queue.drop waiting, item.sessionId ≠ session) :
    (∃ seq, (SessionQueue.drainLoop depth session waiting queue).1 = some seq ∧
        ownSeqs session queue =
          seq :: ownSeqs session (SessionQueue.drainLoop depth session waiting queue).2) ∨
      (SessionQueue.drainLoop depth session waiting queue).1 = none ∧
        ownSeqs session queue = [] := by
  have none_own : ∀ {items : List SessionItem}, (∀ item ∈ items, item.sessionId ≠ session) →
      ownSeqs session items = [] := by
    intro items others
    simpa [ownSeqs] using others
  induction waiting generalizing queue with
  | zero => exact .inr ⟨rfl, none_own behind⟩
  | succ waiting inductionHypothesis =>
      cases queue with
      | nil => exact .inr ⟨rfl, rfl⟩
      | cons item rest =>
          unfold SessionQueue.drainLoop
          split
          · rename_i own
            exact .inl ⟨item.seq, rfl, ownSeqs_cons_own own⟩
          · rename_i other
            rw [ownSeqs_cons_other other, ← ownSeqs_send_other other depth]
            apply inductionHypothesis
            intro last member
            unfold SessionQueue.send at member
            split at member
            · rw [List.drop_append] at member
              rcases List.mem_append.mp member with before | moved
              · exact behind last before
              · rw [List.mem_singleton.mp (List.mem_of_mem_drop moved)]
                exact other
            · exact behind last member

/-- Draining until nothing comes gives all numbers of the session in their order. -/
theorem drainAll_own (depth : Nat) {rounds : Nat} {queue : List SessionItem}
    (enough : queue.length ≤ rounds) :
    (drainAll (SessionQueue.drain depth session) rounds queue).1 = ownSeqs session queue := by
  have fits : (ownSeqs session queue).length ≤ rounds := by
    unfold ownSeqs
    rw [List.length_map]
    exact (List.length_filter_le _ _).trans enough
  clear enough
  induction rounds generalizing queue with
  | zero => exact (List.length_eq_zero_iff.mp (Nat.le_zero.mp fits)).symm
  | succ rounds inductionHypothesis =>
      have first := @drainLoop_own session depth queue.length queue (by simp)
      unfold drainAll SessionQueue.drain
      generalize SessionQueue.drainLoop depth session queue.length queue = drained at first
      obtain ⟨next, rest⟩ := drained
      rcases first with ⟨seq, same, own⟩ | ⟨same, own⟩
      · obtain rfl : next = some seq := same
        rw [own, List.length_cons] at fits
        rw [own]
        exact congrArg (seq :: ·) (inductionHypothesis (Nat.le_of_succ_le_succ fits))
      · obtain rfl : next = none := same
        exact own.symm

end Draining

/-! ## The window of the sender -/

namespace TransferEngine

variable {F : Type}

theorem foldl_markCloudAck (acks : List Nat) (e : TransferEngine F) :
    ∃ bitmap, (acks.foldl markCloudAck e).standing =
        { e.standing with cloudAckBitmap := bitmap } ∧
      (∀ seq, bitmap seq = true ↔ e.cloudAckBitmap seq = true ∨
        seq ∈ acks ∧ seq < e.transfer.fragmentCount) ∧
      Io.Plain e.io (acks.foldl markCloudAck e).io := by
  induction acks generalizing e with
  | nil => exact ⟨e.cloudAckBitmap, rfl, by simp, .refl _⟩
  | cons first rest inductionHypothesis =>
      obtain ⟨bitmap, standing, marks, io⟩ := inductionHypothesis (e.markCloudAck first)
      rw [List.foldl_cons]
      by_cases inside : first < e.transfer.fragmentCount
      · have marked : e.markCloudAck first =
            { e.nowMs.2 with
              cloudAckBitmap := Function.update e.cloudAckBitmap first true
              lastCloudActivityMs := e.nowMs.1 } := by
          unfold markCloudAck
          rw [if_pos inside]
        refine ⟨bitmap, standing.trans (by rw [marked]; rfl), ?_, ?_⟩
        · intro seq
          rw [marks seq, marked]
          change Function.update e.cloudAckBitmap first true seq = true ∨
            seq ∈ rest ∧ seq < e.transfer.fragmentCount ↔ _
          by_cases same : seq = first
          · subst same
            simp [inside]
          · simp [same]
        · rw [marked] at io ⊢
          exact (steady_nowMs e).io.trans io
      · have unmarked : e.markCloudAck first = e := by
          unfold markCloudAck
          rw [if_neg inside]
        rw [unmarked] at standing marks io ⊢
        refine ⟨bitmap, standing, ?_, io⟩
        intro seq
        rw [marks seq, List.mem_cons]
        constructor
        · rintro (before | ⟨member, small⟩)
          · exact .inl before
          · exact .inr ⟨.inr member, small⟩
        · rintro (before | ⟨rfl | member, small⟩)
          · exact .inl before
          · exact absurd small inside
          · exact .inr ⟨member, small⟩

/-- The base stops at the end or at a fragment without its mark. -/
theorem advanceCloudBase_spec {fuel : Nat} {e : TransferEngine F}
    (enough : e.transfer.fragmentCount - e.cloudBaseSeq ≤ fuel) :
    ∃ base, (advanceCloudBase fuel e).standing = { e.standing with cloudBaseSeq := base } ∧
      (base < e.transfer.fragmentCount → e.cloudAckBitmap base = false) ∧
      (advanceCloudBase fuel e).io = e.io := by
  induction fuel generalizing e with
  | zero =>
      refine ⟨e.cloudBaseSeq, rfl, fun below => ?_, rfl⟩
      omega
  | succ fuel inductionHypothesis =>
      unfold advanceCloudBase
      split
      · exact @inductionHypothesis { e with cloudBaseSeq := e.cloudBaseSeq + 1 }
          (show e.transfer.fragmentCount - (e.cloudBaseSeq + 1) ≤ fuel by omega)
      · rename_i stops
        refine ⟨e.cloudBaseSeq, rfl, fun below => ?_, rfl⟩
        simpa [below] using stops

/-- A tick marks the acknowledgements it has drained, and moves the base up to the first
fragment without a mark. -/
theorem serveLocalExit_spec (e : TransferEngine F) :
    ∃ bitmap base, e.serveLocalExit.standing =
        { e.standing with cloudAckBitmap := bitmap, cloudBaseSeq := base } ∧
      (∀ seq, bitmap seq = true ↔ e.cloudAckBitmap seq = true ∨
        seq ∈ e.io.env.cloudAcks ∧ seq < e.transfer.fragmentCount) ∧
      (base < e.transfer.fragmentCount → bitmap base = false) ∧
      Io.Plain e.io e.serveLocalExit.io := by
  have taken := steady_setEnv e { e.io.env with cloudAcks := [] } fun _ none =>
    absurd none List.not_mem_nil
  obtain ⟨bitmap, marked, marks, markedIo⟩ :=
    foldl_markCloudAck e.io.env.cloudAcks (e.setEnv { e.io.env with cloudAcks := [] })
  unfold serveLocalExit
  dsimp only
  generalize e.io.env.cloudAcks.foldl markCloudAck (e.setEnv { e.io.env with cloudAcks := [] }) =
    acked at marked markedIo
  obtain ⟨base, advanced, stops, advancedIo⟩ := advanceCloudBase_spec (le_refl
    (acked.transfer.fragmentCount - acked.cloudBaseSeq))
  generalize advanceCloudBase (acked.transfer.fragmentCount - acked.cloudBaseSeq) acked = moved
    at advanced advancedIo
  have steady := steady_answerLocalExit moved
  have sameCount : acked.transfer.fragmentCount = e.transfer.fragmentCount :=
    congrArg Standing.fragmentCount marked
  have sameBitmap : acked.cloudAckBitmap = bitmap := congrArg Standing.cloudAckBitmap marked
  refine ⟨bitmap, base, ?_, marks, ?_, ?_⟩
  · rw [steady.standing, advanced, marked]
    rfl
  · rw [sameCount, sameBitmap] at stops
    exact stops
  · refine (taken.io.trans markedIo).trans ?_
    rw [← advancedIo]
    exact steady.io

/-- A tick keeps the session and the number of its fragments. -/
theorem serveLocalExit_transfer (e : TransferEngine F) :
    e.serveLocalExit.transfer.sessionId = e.transfer.sessionId ∧
      e.serveLocalExit.transfer.fragmentCount = e.transfer.fragmentCount := by
  obtain ⟨bitmap, base, standing, _⟩ := serveLocalExit_spec e
  generalize e.serveLocalExit = served at standing ⊢
  exact ⟨congrArg Standing.sessionId standing, congrArg Standing.fragmentCount standing⟩

theorem serveLocalExit_marks (e : TransferEngine F) (seq : Nat) :
    e.serveLocalExit.cloudAckBitmap seq = true ↔ e.cloudAckBitmap seq = true ∨
      seq ∈ e.io.env.cloudAcks ∧ seq < e.transfer.fragmentCount := by
  obtain ⟨bitmap, base, standing, marks, _⟩ := serveLocalExit_spec e
  generalize e.serveLocalExit = served at standing ⊢
  have bits : served.cloudAckBitmap = bitmap := congrArg Standing.cloudAckBitmap standing
  rw [bits]
  exact marks seq

/-- A tick whose acknowledgements complete the transfer ends it. -/
theorem tickLocalExitArq_ends [PathArith F] (e : TransferEngine F)
    (all : ∀ seq < e.transfer.fragmentCount,
      e.cloudAckBitmap seq = true ∨ seq ∈ e.io.env.cloudAcks) :
    e.serveLocalExit.transfer.fragmentCount ≤ e.serveLocalExit.cloudBaseSeq ∧
      e.tickLocalExitArq.transfer.active = false := by
  obtain ⟨bitmap, base, standing, marks, stops, _⟩ := serveLocalExit_spec e
  have sameBase : e.serveLocalExit.cloudBaseSeq = base := congrArg Standing.cloudBaseSeq standing
  have sameCount := (serveLocalExit_transfer e).2
  have through : e.transfer.fragmentCount ≤ base := by
    by_contra before
    have below := not_le.mp before
    have missing := stops below
    rw [(marks base).mpr ((all base below).imp_right fun drained => ⟨drained, below⟩)] at missing
    cases missing
  constructor
  · rw [sameBase, sameCount]
    exact through
  · unfold tickLocalExitArq
    dsimp only
    rw [if_pos (by rw [sameBase, sameCount]; exact through)]
    exact active_resetSenderTransferState e.serveLocalExit true

/-- What a start over the own connection promises about its numbers. -/
theorem numbers_of_started [PathArith F] {e after : TransferEngine F} {args : StartArgs}
    (started : e.startFileTransfer args = (true, after)) (chosen : args.onLocalExit = true) :
    0 < after.transfer.sessionId ∧ after.transfer.sessionId < 2 ^ 16 ∧
      after.transfer.fragmentCount < 2 ^ 16 := by
  have starts := starts_startFileTransfer e args
  rw [started] at starts
  have drawn : 0 < e.drawnSession ∧ e.drawnSession < 2 ^ 16 := by
    unfold drawnSession toU16
    split <;> omega
  cases starts with
  | onLocalExit after io reading idle noExit chosen role =>
      have session : after.transfer.sessionId = e.drawnSession := congrArg Role.sessionId role
      have count : after.transfer.fragmentCount = args.announcedCount :=
        congrArg Role.fragmentCount role
      have small : args.announcedCount < 2 ^ 16 := by
        unfold StartArgs.announcedCount
        rw [if_pos chosen]
        exact Nat.mod_lt _ (by decide)
      rw [session, count]
      exact ⟨drawn.1, drawn.2, small⟩
  | onMesh after cap idle noExit onMesh =>
      rw [chosen] at onMesh
      cases onMesh

end TransferEngine

end ForestLink.Mesh

/-! ## The event handler -/

namespace ForestLink.Mqtt

open ForestLink.Lib
open ForestLink.Cloud

theorem ascii_toString (n : Nat) : ascii (toString n) = decimal n := by
  have text : (toString n).toList = Nat.toDigits 10 n := Nat.toList_repr
  rw [ascii, decimal, text]

namespace SessionQueue

theorem prefix_send (depth : Nat) (queue : List SessionItem) (item : SessionItem) :
    queue <+: (send depth queue item).2 := by
  unfold send
  split
  · exact List.prefix_append queue [item]
  · exact List.prefix_rfl

end SessionQueue

namespace CloudInbox

/-- No message takes an acknowledgement out of the queue. -/
theorem ackQueue_handleMqttEvent (q : CloudInbox) (topic data : List UInt8) :
    q.ackQueue <+: (q.handleMqttEvent topic data).ackQueue := by
  have onAdminCmd : (q.onAdminCmd data).ackQueue = q.ackQueue := by
    unfold onAdminCmd
    split
    · split <;> rfl
    · rfl
  have onTransferNack : ∀ session, (q.onTransferNack session data).ackQueue = q.ackQueue := by
    intro session
    unfold onTransferNack
    split
    · rfl
    · split <;> rfl
  have onTransferComplete : ∀ session, (q.onTransferComplete session).ackQueue = q.ackQueue := by
    intro session
    unfold onTransferComplete
    split
    · rfl
    split
    · rfl
    split <;> rfl
  have onAck : ∀ session, q.ackQueue <+: (q.onAck session data).ackQueue := by
    intro session
    unfold onAck
    split
    · exact List.prefix_rfl
    split
    · exact List.prefix_rfl
    dsimp only
    split
    · exact List.prefix_rfl
    split
    · exact List.prefix_rfl
    split
    · exact SessionQueue.prefix_send _ _ _
    split <;> exact List.prefix_rfl
  unfold handleMqttEvent
  dsimp only
  split
  · rw [onAdminCmd]
  split
  · exact onAck _
  split
  · rw [onTransferNack]
  split
  · rw [onTransferComplete]
  · exact List.prefix_rfl

end CloudInbox

end ForestLink.Mqtt

/-! ## Acknowledgements of a transfer -/

namespace ForestLink.Mesh

open ForestLink.Lib
open ForestLink.Mqtt
open ForestLink.Cloud (EngineEvent ackPayload ackTopic)

/-- An ACK of the active session is queued when there is room. -/
theorem handle_ackMessage {q : CloudInbox} {sessionId seq : Nat} (positive : 0 < sessionId)
    (small : sessionId < 2 ^ 16) (fits : seq < 2 ^ 16)
    (active : q.activeTransferSession = sessionId) :
    let message := ackMessage (toString sessionId) (ascii "ACK") seq
    q.handleMqttEvent message.topic message.payload =
      { q with ackQueue := (SessionQueue.send ackQueueDepth q.ackQueue ⟨sessionId, seq⟩).2 } := by
  have topic : (ackMessage (toString sessionId) (ascii "ACK") seq).topic = ackTopic sessionId := by
    rw [ackMessage, ackTopic, ascii_toString]
  dsimp only
  rw [topic, CloudInbox.handle_ackTopic small (by simp [ackMessage, ackPayload, ascii])]
  exact CloudInbox.onAck_ack small fits (CloudInbox.isStale_active positive active)

namespace LocalExit

variable {F : Type}

/-- The cloud has marked the chunk received. -/
def Marked (x : LocalExit F) (seq : Nat) : Prop :=
  (x.cloud.active.any (fun s =>
      s.sessionId == toString x.engine.transfer.sessionId && s.nodeId == x.nodeId) &&
    x.cloud.sr.any fun sr => sr.isReceived seq) = true

/-- The cloud has acknowledged the chunk since the transfer began, whatever its active session
is by now. -/
def Acked (x : LocalExit F) (seq : Nat) : Prop :=
  .ack (toString x.engine.transfer.sessionId) seq ∈ x.cloud.trace.drop x.since

/-- An ACK for the chunk is in transit. -/
def Travels (x : LocalExit F) (seq : Nat) : Prop :=
  ackMessage (toString x.engine.transfer.sessionId) (ascii "ACK") seq ∈ x.toNode

/-- An ACK for the chunk is in `ack_queue_`. -/
def Waits (x : LocalExit F) (seq : Nat) : Prop :=
  ⟨x.engine.transfer.sessionId, seq⟩ ∈ x.node.inbox.ackQueue

/-- The sender has just started the transfer over its own connection.  The cloud may have run
before, and knows no chunk of the new session. -/
structure Begun [PathArith F] (x : LocalExit F) : Prop where
  started : ∃ (e : TransferEngine F) (args : TransferEngine.StartArgs),
    args.onLocalExit = true ∧ e.startFileTransfer args = (true, x.engine)
  cloud : ∃ srWindow srTimeout events,
    (Cloud.newEngine srWindow srTimeout).run events = some x.cloud
  since : x.since = x.cloud.trace.length
  unmarked : ∀ seq, ¬ x.Marked seq

/-- No acknowledgement waits that the sender still needs. -/
def Unneeded (x : LocalExit F) : Prop :=
  ∀ seq < x.engine.transfer.fragmentCount, x.Waits seq → x.engine.cloudAckBitmap seq = true

/-- The step loses no acknowledgement: the queue is not emptied while one that is needed waits
in it, and one that is needed arrives where it has room, while its session is active. -/
def Keeps (x : LocalExit F) : Action → Prop
  | .announce _ _ => x.node.inbox.activeTransferSession ≠ x.engine.transfer.sessionId → x.Unneeded
  | .activate sessionId => x.node.inbox.activeTransferSession ≠ sessionId → x.Unneeded
  | .clear sessionId => x.node.inbox.activeTransferSession = sessionId → x.Unneeded
  | .deliver message => ∀ seq < x.engine.transfer.fragmentCount,
      message = ackMessage (toString x.engine.transfer.sessionId) (ascii "ACK") seq →
        x.engine.cloudAckBitmap seq = true ∨ x.Waits seq ∨
          x.node.inbox.activeTransferSession = x.engine.transfer.sessionId ∧
            x.node.inbox.ackQueue.length < ackQueueDepth
  | _ => True

/-- Every step of the run loses no acknowledgement. -/
def KeepsAll [PathArith F] : LocalExit F → List Action → Prop
  | _, [] => True
  | x, action :: rest => x.Keeps action ∧ ∀ y ∈ x.step action, y.KeepsAll rest

/-! ## Deciding the conditions -/

section Decisions

variable (x : LocalExit F) (seq : Nat)

instance : Decidable (x.Marked seq) := inferInstanceAs (Decidable (_ = true))

instance : Decidable (x.Acked seq) :=
  inferInstanceAs (Decidable (EngineEvent.ack _ seq ∈ x.cloud.trace.drop x.since))

instance : Decidable (x.Travels seq) :=
  inferInstanceAs (Decidable (ackMessage _ (ascii "ACK") seq ∈ x.toNode))

instance : Decidable (x.Waits seq) :=
  inferInstanceAs (Decidable (SessionItem.mk _ seq ∈ x.node.inbox.ackQueue))

instance : Decidable x.Unneeded :=
  inferInstanceAs (Decidable (∀ seq < x.engine.transfer.fragmentCount, _ → _))

instance : (action : Action) → Decidable (x.Keeps action)
  | .announce _ _ => inferInstanceAs (Decidable (_ ≠ _ → x.Unneeded))
  | .activate _ => inferInstanceAs (Decidable (_ ≠ _ → x.Unneeded))
  | .clear _ => inferInstanceAs (Decidable (_ = _ → x.Unneeded))
  | .deliver message => inferInstanceAs (Decidable (∀ seq < x.engine.transfer.fragmentCount,
      message = ackMessage _ (ascii "ACK") seq → _ = true ∨ x.Waits seq ∨ _ = _ ∧ _ < _))
  | .tick _ | .publish _ _ | .cloud _ _ | .lose _ => inferInstanceAs (Decidable True)

instance keepsAllDecidable [PathArith F] :
    (x : LocalExit F) → (actions : List Action) → Decidable (x.KeepsAll actions)
  | _, [] => inferInstanceAs (Decidable True)
  | x, action :: rest =>
      have (y : LocalExit F) : Decidable (y.KeepsAll rest) := keepsAllDecidable y rest
      inferInstanceAs (Decidable (x.Keeps action ∧ ∀ y ∈ x.step action, y.KeepsAll rest))

end Decisions

/-! ## The invariant -/

/-- A needed acknowledgement is on its way, waits, or is marked. -/
def Follows (x : LocalExit F) : Prop :=
  ∀ seq < x.engine.transfer.fragmentCount, x.Acked seq →
    x.Travels seq ∨ x.Waits seq ∨ x.engine.cloudAckBitmap seq = true

structure Tracked (x : LocalExit F) : Prop where
  positive : 0 < x.engine.transfer.sessionId
  small : x.engine.transfer.sessionId < 2 ^ 16
  fits : x.engine.transfer.fragmentCount < 2 ^ 16
  consistent : x.cloud.Consistent
  acks : Cloud.Engine.Acknowledges x.cloud.trace x.since
    (toString x.engine.transfer.sessionId) x.nodeId x.cloud
  follows : x.Follows

variable {x y : LocalExit F}

/-- What the cloud has marked it has acknowledged. -/
theorem Tracked.acked (tracked : Tracked x) {seq : Nat} (marked : x.Marked seq) :
    x.Acked seq := by
  obtain ⟨named, received⟩ := Bool.and_eq_true_iff.mp marked
  obtain ⟨s, isActive, same⟩ := (Option.any_eq_true ..).mp named
  obtain ⟨sr, hasSr, received⟩ := (Option.any_eq_true ..).mp received
  rw [Bool.and_eq_true, beq_iff_eq, beq_iff_eq] at same
  exact tracked.acks.acked s sr seq isActive same.1 same.2 hasSr received

/-- The engine and the cloud stand still. -/
theorem Tracked.messages (tracked : Tracked x) (node : MqttNode)
    (toCloud : List Cloud.Engine.Event) (toNode : List CloudMessage)
    (kept : ∀ seq < x.engine.transfer.fragmentCount, x.Travels seq ∨ x.Waits seq →
      let after : LocalExit F := { x with node := node, toCloud := toCloud, toNode := toNode }
      after.Travels seq ∨ after.Waits seq ∨ x.engine.cloudAckBitmap seq = true) :
    Tracked { x with node := node, toCloud := toCloud, toNode := toNode } where
  positive := tracked.positive
  small := tracked.small
  fits := tracked.fits
  consistent := tracked.consistent
  acks := tracked.acks
  follows := by
    intro seq inside acked
    rcases tracked.follows seq inside acked with travels | waits | marked
    · exact kept seq inside (.inl travels)
    · exact kept seq inside (.inr waits)
    · exact .inr (.inr marked)

/-- The inbox is the old one, or emptied while nothing in it is needed. -/
theorem Tracked.inbox (tracked : Tracked x) (node : MqttNode)
    (emptied : node.inbox = x.node.inbox ∨ x.Unneeded) (toCloud : List Cloud.Engine.Event) :
    Tracked { x with node := node, toCloud := toCloud } := by
  apply tracked.messages node toCloud x.toNode
  rintro seq inside (travels | waits)
  · exact .inl travels
  · rcases emptied with same | unneeded
    · refine .inr (.inl ?_)
      unfold Waits at waits ⊢
      rw [same]
      exact waits
    · exact .inr (.inr (unneeded seq inside waits))

theorem Tracked.deliver (tracked : Tracked x) {message : CloudMessage}
    (keeps : x.Keeps (.deliver message)) :
    Tracked
      { x with
        node :=
          { x.node with
            inbox := x.node.inbox.handleMqttEvent message.topic message.payload }
        toNode := x.toNode.erase message } := by
  have queued : ∀ {seq}, x.Waits seq → ⟨x.engine.transfer.sessionId, seq⟩ ∈
      (x.node.inbox.handleMqttEvent message.topic message.payload).ackQueue := fun waits =>
    (CloudInbox.ackQueue_handleMqttEvent _ _ _).subset waits
  apply tracked.messages _ x.toCloud (x.toNode.erase message)
  rintro seq inside (travels | waits)
  · by_cases same : message = ackMessage (toString x.engine.transfer.sessionId) (ascii "ACK") seq
    · rcases keeps seq inside same with marked | waits | ⟨active, room⟩
      · exact .inr (.inr marked)
      · exact .inr (.inl (queued waits))
      · refine .inr (.inl ?_)
        subst same
        unfold Waits
        dsimp only
        rw [handle_ackMessage tracked.positive tracked.small (inside.trans tracked.fits) active]
        simp [SessionQueue.send, room]
    · exact .inl ((List.mem_erase_of_ne (Ne.symm same)).mpr travels)
  · exact .inr (.inl (queued waits))

/-- A turn of the cloud: what it acknowledges is on its way. -/
theorem Tracked.cloudTurn (tracked : Tracked x) {event : Cloud.Engine.Event} {now : Int}
    (ran : x.cloudTurn event now = some y) : Tracked y := by
  unfold LocalExit.cloudTurn at ran
  split at ran
  · obtain ⟨cloud, handled, rfl⟩ := Option.map_eq_some_iff.mp ran
    have acks := tracked.acks.handle tracked.consistent handled
    refine ⟨tracked.positive, tracked.small, tracked.fits, tracked.consistent.handle handled,
      acks.here, ?_⟩
    intro seq inside acked
    obtain ⟨notes, grown⟩ := acks.past
    have counted := tracked.acks.counted
    unfold Acked at acked
    dsimp only at acked
    rw [← grown, List.drop_append_of_le_length counted] at acked
    rcases List.mem_append.mp acked with before | new
    · rcases tracked.follows seq inside before with travels | waits | marked
      · exact .inl (List.mem_append_left _ travels)
      · exact .inr (.inl waits)
      · exact .inr (.inr marked)
    · have published : .ack (toString x.engine.transfer.sessionId) seq ∈
          cloud.trace.drop x.cloud.trace.length := by
        rw [← grown, List.drop_left]
        exact new
      exact .inl (List.mem_append_right _ (List.mem_filterMap.mpr ⟨_, published, rfl⟩))
  · cases ran

/-! ## A tick -/

theorem inbox_of_plain {output : Output} (plain : output.isPlain = true) {before after : MqttNode}
    (called : before.output output = some after) : after.inbox = before.inbox := by
  unfold MqttNode.output at called
  cases output with
  | toMqtt session seq srcNode data filename queued =>
      dsimp only at called
      split at called
      · cases called
        rfl
      · cases called
  | nackObserved session seq =>
      cases called
      rfl
  | sessionEnd session => cases plain
  | sent | transferMeta | nackRequeued | ackRequeued | transferComplete | exitNodeElected =>
      cases called
      rfl

theorem inbox_of_plains {outputs : List Output}
    (plain : ∀ output ∈ outputs, output.isPlain = true) {before after : MqttNode}
    (called : outputs.foldlM MqttNode.output before = some after) :
    after.inbox = before.inbox := by
  induction outputs generalizing before with
  | nil =>
      cases called
      rfl
  | cons output rest inductionHypothesis =>
      rw [List.foldlM_cons] at called
      obtain ⟨next, first, called⟩ := Option.bind_eq_some_iff.mp called
      have later := inductionHypothesis
        (fun output member => plain output (List.mem_cons_of_mem _ member)) called
      exact later.trans (inbox_of_plain (plain output List.mem_cons_self) first)

variable [PathArith F]

/-- A tick that goes on only drains, marks and sends. -/
theorem tick_of_active {env : Env} (ran : x.tick env = some y)
    (active : y.engine.transfer.active = true) :
    x.engine.transfer.active = true ∧
      ∃ client, y = { x with
        engine := (x.drained env).serveLocalExit
        node := { client := client, inbox := x.drainedInbox } } := by
  unfold tick at ran
  split at ran
  · rename_i serves
    rw [Bool.and_eq_true] at serves
    obtain ⟨node, called, rfl⟩ := Option.map_eq_some_iff.mp ran
    refine ⟨serves.1, ?_⟩
    have goesOn : (x.drained env).tickLocalExitArq = (x.drained env).serveLocalExit := by
      unfold TransferEngine.tickLocalExitArq at active ⊢
      dsimp only at active ⊢
      split at active
      · rw [TransferEngine.active_resetSenderTransferState] at active
        cases active
      · rename_i before
        rw [if_neg before]
    rw [goesOn] at called ⊢
    obtain ⟨bitmap, base, _, _, _, io⟩ := TransferEngine.serveLocalExit_spec (x.drained env)
    obtain ⟨added, outputs, plain⟩ := io.outputs
    have same := inbox_of_plains (by
      intro output member
      rw [List.mem_reverse, outputs] at member
      rcases List.mem_append.mp member with new | old
      · exact plain output new
      · cases old) called
    obtain ⟨client, inbox⟩ := node
    obtain rfl : inbox = x.drainedInbox := same
    exact ⟨client, rfl⟩
  · cases ran

omit [PathArith F] in
/-- The acknowledgements that a tick drains are the ones that wait. -/
theorem cloudAcks_drained (x : LocalExit F) (env : Env) (seq : Nat) :
    seq ∈ (x.drained env).io.env.cloudAcks ↔ x.Waits seq := by
  have drained : (x.drained env).io.env.cloudAcks =
      ownSeqs x.engine.transfer.sessionId x.node.inbox.ackQueue :=
    drainAll_own ackQueueDepth le_rfl
  rw [drained]
  exact mem_ownSeqs

omit [PathArith F] in
/-- The engine has marked what waited. -/
theorem Tracked.marks (tracked : Tracked x) {served : TransferEngine F} (node : MqttNode)
    (session : served.transfer.sessionId = x.engine.transfer.sessionId)
    (count : served.transfer.fragmentCount = x.engine.transfer.fragmentCount)
    (marks : ∀ seq < x.engine.transfer.fragmentCount,
      x.engine.cloudAckBitmap seq = true ∨ x.Waits seq → served.cloudAckBitmap seq = true) :
    Tracked { x with engine := served, node := node } where
  positive := session ▸ tracked.positive
  small := session ▸ tracked.small
  fits := count ▸ tracked.fits
  consistent := tracked.consistent
  acks := by
    dsimp only
    rw [session]
    exact tracked.acks
  follows := by
    intro seq inside acked
    unfold Acked at acked
    unfold Travels
    dsimp only at acked inside ⊢
    rw [session] at acked ⊢
    rw [count] at inside
    rcases tracked.follows seq inside acked with travels | waits | marked
    · exact .inl travels
    · exact .inr (.inr (marks seq inside (.inr waits)))
    · exact .inr (.inr (marks seq inside (.inl marked)))

theorem Tracked.tick (tracked : Tracked x) {env : Env} (ran : x.tick env = some y)
    (active : y.engine.transfer.active = true) : Tracked y := by
  obtain ⟨_, client, rfl⟩ := tick_of_active ran active
  apply tracked.marks
  · exact (TransferEngine.serveLocalExit_transfer (x.drained env)).1
  · exact (TransferEngine.serveLocalExit_transfer (x.drained env)).2
  · intro seq inside known
    rw [TransferEngine.serveLocalExit_marks, cloudAcks_drained]
    exact known.imp_right fun waits => ⟨waits, inside⟩

/-! ## Runs -/

theorem inbox_activate (node : MqttNode) (sessionId : Nat) :
    (node.activate sessionId).inbox = node.inbox ∨
      node.inbox.activeTransferSession ≠ sessionId := by
  unfold MqttNode.activate
  by_cases other : node.inbox.activeTransferSession ≠ sessionId
  · exact .inr other
  · exact .inl (if_neg other)

theorem inbox_clear (node : MqttNode) (sessionId : Nat) :
    (node.clear sessionId).inbox = node.inbox ∨
      node.inbox.activeTransferSession = sessionId := by
  unfold MqttNode.clear
  by_cases own : node.inbox.activeTransferSession = sessionId
  · exact .inr own
  · exact .inl (if_neg own)

/-- A transfer that is running was running before the step. -/
theorem active_of_step {action : Action} (ran : x.step action = some y)
    (active : y.engine.transfer.active = true) : x.engine.transfer.active = true := by
  cases action with
  | tick env => exact (tick_of_active ran active).1
  | announce outboxSize connected =>
      simp only [LocalExit.step] at ran
      split at ran
      · cases ran
        exact active
      · cases ran
  | cloud event now =>
      simp only [LocalExit.step, LocalExit.cloudTurn] at ran
      split at ran
      · obtain ⟨cloud, _, rfl⟩ := Option.map_eq_some_iff.mp ran
        exact active
      · cases ran
  | deliver message =>
      simp only [LocalExit.step] at ran
      split at ran
      · cases ran
        exact active
      · cases ran
  | publish | activate | clear | lose =>
      cases ran
      exact active

/-- A step that loses nothing. -/
theorem Tracked.step (tracked : Tracked x) {action : Action} (keeps : x.Keeps action)
    (ran : x.step action = some y) (active : y.engine.transfer.active = true) : Tracked y := by
  cases action with
  | tick env => exact tracked.tick ran active
  | publish connected msgIds =>
      cases ran
      apply tracked.inbox
      exact .inl rfl
  | announce outboxSize connected =>
      simp only [LocalExit.step] at ran
      split at ran
      · cases ran
        exact tracked.inbox _ ((inbox_activate x.node _).imp_right keeps) _
      · cases ran
  | activate sessionId =>
      cases ran
      exact tracked.inbox _ ((inbox_activate x.node sessionId).imp_right keeps) x.toCloud
  | clear sessionId =>
      cases ran
      exact tracked.inbox _ ((inbox_clear x.node sessionId).imp_right keeps) x.toCloud
  | cloud event now => exact tracked.cloudTurn ran
  | lose event =>
      cases ran
      exact tracked.inbox x.node (.inl rfl) _
  | deliver message =>
      simp only [LocalExit.step] at ran
      split at ran
      · cases ran
        exact tracked.deliver keeps
      · cases ran

theorem Tracked.run (tracked : x.engine.transfer.active = true → Tracked x)
    {actions : List Action} (keeps : x.KeepsAll actions) (ran : x.run actions = some y)
    (active : y.engine.transfer.active = true) : Tracked y := by
  induction actions generalizing x with
  | nil =>
      cases ran
      exact tracked active
  | cons action rest inductionHypothesis =>
      unfold LocalExit.run at ran
      rw [List.foldlM_cons] at ran
      obtain ⟨next, stepped, ran⟩ := Option.bind_eq_some_iff.mp ran
      apply inductionHypothesis _ (keeps.2 next stepped) ran
      intro stillActive
      exact (tracked (active_of_step stepped stillActive)).step keeps.1 stepped stillActive

/-- At the start nothing is acknowledged. -/
theorem Begun.tracked (begun : x.Begun) : Tracked x := by
  obtain ⟨e, args, chosen, started⟩ := begun.started
  obtain ⟨positive, small, fits⟩ := TransferEngine.numbers_of_started started chosen
  obtain ⟨srWindow, srTimeout, events, ran⟩ := begun.cloud
  have consistent := Cloud.Engine.consistent_newEngine srWindow srTimeout
  have acks := @Cloud.Engine.Acknowledges.newEngine
    (toString x.engine.transfer.sessionId) x.nodeId srWindow srTimeout
  refine ⟨positive, small, fits, consistent.run ran, ?_, ?_⟩
  · refine ⟨List.prefix_rfl, le_of_eq begun.since, (acks.run consistent ran).started, ?_⟩
    intro s sr seq isActive isSession isNode hasSr received
    apply absurd _ (begun.unmarked seq)
    unfold Cloud.SelectiveRepeat.Received at received
    simp [Marked, isActive, isSession, isNode, hasSr, received]
  · intro seq _ acked
    unfold Acked at acked
    rw [begun.since, List.drop_length] at acked
    cases acked

/-- In a run that loses no acknowledgement the running sender follows the cloud: a chunk that
the cloud has marked was acknowledged, and an acknowledgement that neither travels nor waits is
in the bitmap of the sender.  So, when every chunk was acknowledged and none of the messages is
still in transit, the next tick moves the base to the end and ends the transfer. -/
theorem bitmap_follows_cloud {x y : LocalExit F} {actions : List Action} (begun : x.Begun)
    (keeps : x.KeepsAll actions) (ran : x.run actions = some y)
    (active : y.engine.transfer.active = true) :
    (∀ seq, y.Marked seq → y.Acked seq) ∧
      (∀ seq < y.engine.transfer.fragmentCount, y.Acked seq → ¬ y.Travels seq → ¬ y.Waits seq →
        y.engine.cloudAckBitmap seq = true) ∧
      ((∀ seq < y.engine.transfer.fragmentCount, y.Acked seq ∧ ¬ y.Travels seq) →
        ∀ env, let ticked := y.drained env
          y.engine.transfer.fragmentCount ≤ ticked.serveLocalExit.cloudBaseSeq ∧
            ticked.tickLocalExitArq.transfer.active = false) := by
  have tracked := Tracked.run (fun _ => begun.tracked) keeps ran active
  refine ⟨fun seq marked => tracked.acked marked, ?_, ?_⟩
  · intro seq inside acked notTravels notWaits
    exact ((tracked.follows seq inside acked).resolve_left notTravels).resolve_left notWaits
  · intro all env
    have ends := (y.drained env).tickLocalExitArq_ends fun seq inside => by
      obtain ⟨acked, notTravels⟩ := all seq inside
      rw [cloudAcks_drained]
      exact ((tracked.follows seq inside acked).resolve_left notTravels).symm
    rw [(TransferEngine.serveLocalExit_transfer (y.drained env)).2] at ends
    exact ends

/-! ## Two runs -/

/-- Node `0009` and a cloud that has seen nothing. -/
def idleNine : LocalExit ℚ where
  engine := .boot 9 4
  node := { client := { nodeAddr := 9 } }
  nodeId := "0009"
  cloud := Cloud.newEngine 64 2

/-- The first read of the checksum fails, which ends its loop. -/
def sevensEnv : Env := { readLimits := [0], random := 300 }

/-- A file whose bytes are all 7. -/
def sevensArgs (size : Nat) : TransferEngine.StartArgs where
  filename := ascii "f"
  size := size
  readChunk := fun _ len => List.replicate len 7
  hasInternet := true
  hasMqtt := true

def sevensStart (size : Nat) : Bool × TransferEngine ℚ :=
  (idleNine.engine.setEnv sevensEnv).startFileTransfer (sevensArgs size)

/-- The file is on its way, and so is its meta. -/
def sevens (size : Nat) : LocalExit ℚ :=
  (idleNine.start sevensEnv (sevensArgs size) 0 true).2

theorem begun_sevens {size : Nat} (accepted : (sevensStart size).1 = true) :
    (sevens size).Begun where
  started := ⟨_, _, rfl, Prod.ext accepted rfl⟩
  cloud := ⟨64, 2, [], rfl⟩
  since := rfl
  unmarked := fun _ marked => (nomatch marked)

/-- A chunk of so many bytes reaches the cloud. -/
def chunkArrives (bytes seq : Nat) : Action :=
  .cloud (.chunk
    { nodeId := "0009", sessionId := 300, seqNum := seq, data := List.replicate bytes 7 }) 7000

/-- The cloud's answer for a chunk reaches the node. -/
def answerArrives (msgType : String) (seq : Nat) : Action :=
  .deliver (ackMessage "300" (ascii msgType) seq)

/-- The only fragment is sent, and its acknowledgement waits. -/
def twoBytes : List Action :=
  [.cloud (.file (sevens 2).fileMeta) 1000, .tick {}, .publish true [1],
    chunkArrives 2 0, answerArrives "ACK" 0]

theorem bitmap_follows_cloud_two_bytes :
    ∃ y, (sevens 2).run twoBytes = some y ∧ y.Waits 0 ∧
      ∀ env, (y.drained env).tickLocalExitArq.transfer.active = false := by
  have reached : ((sevens 2).run twoBytes).any (fun y =>
      y.engine.transfer.active ∧ y.engine.transfer.fragmentCount = 1 ∧ y.Acked 0 ∧
        ¬ y.Travels 0 ∧ y.Waits 0) = true := by
    decide +kernel
  obtain ⟨y, ran, facts⟩ := (Option.any_eq_true ..).mp reached
  obtain ⟨active, one, acked, arrived, waits⟩ := of_decide_eq_true facts
  refine ⟨y, ran, waits, fun env => ?_⟩
  refine ((bitmap_follows_cloud (begun_sevens rfl) (by decide +kernel) ran active).2.2 ?_ env).2
  intro seq inside
  rw [one, Nat.lt_one_iff] at inside
  rw [inside]
  exact ⟨acked, arrived⟩

/-- The cloud asks for chunks that it misses, and the sender takes notice. -/
def askedFor (now : Int) (answers : List Action) : List Action :=
  .cloud .tick now :: answers ++ [.tick {}]

/-- Forty fragments: the sender sends its window of 16, and 22 more that the cloud asks for.
All of them arrive, and their 38 acknowledgements reach the node between two ticks. -/
def fortyFragments : List Action :=
  [.cloud (.file (sevens (40 * 1456)).fileMeta) 1000, .tick {}] ++
    askedFor 2500 ((List.range' 0 6).map (answerArrives "NACK")) ++
    askedFor 3500 ((List.range' 6 6).map (answerArrives "NACK")) ++
    askedFor 4500 ((List.range' 12 6).map (answerArrives "NACK")) ++
    askedFor 5500 ((List.range' 18 6).map (answerArrives "NACK")) ++
    askedFor 6499 ((List.range' 24 6).map (answerArrives "NACK") ++
      [.deliver (transferNackMessage "300" (List.range' 30 8))]) ++
    [.publish true (List.replicate 38 1)] ++ (List.range 38).map (chunkArrives 1456) ++
    (List.range 38).map (answerArrives "ACK") ++ [.tick {}]

/-- The acknowledgements behind the 32nd find the queue full, and no other comes: the base of
the sender stays at 32 while the cloud has chunk 37. -/
theorem full_queue_loses_ack :
    (sevens (40 * 1456)).Begun ∧
      ∃ y, (sevens (40 * 1456)).run fortyFragments = some y ∧
        y.engine.transfer.active = true ∧ y.engine.transfer.fragmentCount = 40 ∧ y.Marked 37 ∧
        ¬ y.Travels 37 ∧ ¬ y.Waits 37 ∧ y.engine.cloudAckBitmap 37 = false ∧
        y.engine.cloudBaseSeq = 32 := by
  refine ⟨begun_sevens rfl, ?_⟩
  have reached : ((sevens (40 * 1456)).run fortyFragments).any (fun y =>
      y.engine.transfer.active = true ∧ y.engine.transfer.fragmentCount = 40 ∧ y.Marked 37 ∧
        ¬ y.Travels 37 ∧ ¬ y.Waits 37 ∧ y.engine.cloudAckBitmap 37 = false ∧
        y.engine.cloudBaseSeq = 32) = true := by
    decide +kernel
  obtain ⟨y, ran, facts⟩ := (Option.any_eq_true ..).mp reached
  exact ⟨y, ran, of_decide_eq_true facts⟩

end LocalExit

end ForestLink.Mesh
