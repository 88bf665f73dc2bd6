/-
Module: ForestLink.Proofs.RelayedItems
Purpose: When an exit keeps every cloud NACK and fragment acknowledgement that it drains: a
  radio took it, or it is back at the front of its queue.
Trusted boundary: none
Main exports: sendOver_result, Relayed.Kept, Relayed.Sound, kept_iff_sound,
  drained_items_kept_iff
-/
import ForestLink.Mesh.ExitRelay
import ForestLink.Proofs.CongestionBit

namespace ForestLink.Mesh

open ForestLink.Lib
open ForestLink.Protocol
open ForestLink.Transport
open ForestLink.Mqtt (MqttClient SessionItem nackQueueDepth fragmentQueueDepth)

/-! ## The result of a send -/

namespace MeshManager

theorem radioCalls_cases (m : MeshManager) (dst : Nat) (type : MeshPacketType) :
    m.radioCalls dst type = [] ∨ (∃ call, m.radioCalls dst type = [call]) ∨
      m.radioCalls dst type = [(.espnow, broadcastAddr), (.lora, broadcastAddr)] := by
  unfold radioCalls
  split
  · exact .inr (.inr rfl)
  split
  · split
    · exact .inr (.inr rfl)
    · exact .inl rfl
  · exact .inr (.inl ⟨_, rfl⟩)

theorem result_sendRaw (m : MeshManager) (radios : Radios) (transport : Transport)
    (packet : MeshPacket) (peer : Nat) (len : Nat)
    (lora : m.env.loraInitialized = radios.lora.initialized)
    (answer : m.env.sendResults = [(radios.send transport peer len).1]) :
    (m.sendRaw transport packet peer false).1 = (radios.send transport peer len).1 := by
  unfold sendRaw
  split
  · rename_i dark
    obtain ⟨rfl, off⟩ := dark
    rw [lora] at off
    simp [Radios.send, LoraRadio.sendRaw, off]
  · rw [answer]
    rfl

/-- The transport of a packet depends on the selector's next choice only. -/
theorem fst_selectTransport (m : MeshManager) (type : MeshPacketType) :
    (m.selectTransport type).1 = transportFor m.env type := rfl

theorem env_selectTransport (m : MeshManager) (type : MeshPacketType) :
    (m.selectTransport type).2.env.loraInitialized = m.env.loraInitialized ∧
      (m.selectTransport type).2.env.sendResults = m.env.sendResults := by
  unfold selectTransport
  dsimp only
  split
  · exact ⟨rfl, rfl⟩
  · exact ⟨rfl, rfl⟩

/-- `send_packet` returns -1 without a radio call, the answer of its only call, and success
whenever it calls both radios. -/
theorem sendOver_result (m : MeshManager) (radios : Radios) (dst : Nat)
    (answer : FragmentAnswer) (seq : Nat) :
    (m.sendOver radios dst answer.meshType seq).1.1 =
      match m.radioCalls dst answer.meshType with
      | [] => -1
      | [call] => (radios.send call.1 call.2 packetHeaderSize).1
      | _ => 0 := by
  have short : ¬ packetHeaderSize + ([] : List UInt8).length > Protocol.maxMtu := by decide
  generalize prepared : m.setEnv (m.radioEnv radios dst answer.meshType) = ready
  have hop : ready.nextHop dst = m.nextHop dst := by rw [← prepared]; rfl
  unfold sendOver
  dsimp only
  rw [prepared]
  unfold sendPacket radioCalls
  rw [if_neg short, hop]
  dsimp only
  by_cases everybody : dst = broadcastAddr
  · simp only [if_pos everybody]
  simp only [if_neg everybody]
  by_cases lost : m.nextHop dst = broadcastAddr
  · simp only [if_pos lost]
    by_cases exits : dst = exitAnyAddr
    · simp only [if_pos exits]
    · simp only [if_neg exits]
  simp only [if_neg lost]
  have calls : m.radioCalls dst answer.meshType =
      [(transportFor m.env answer.meshType, m.nextHop dst)] := by
    unfold radioCalls
    rw [if_neg everybody, if_neg lost]
  unfold sendVia
  dsimp only
  rw [type_freshPacket _ _ _ _ _ answer.meshType_named, fst_selectTransport]
  obtain ⟨lora, results⟩ := env_selectTransport ready answer.meshType
  have same : transportFor ready.env answer.meshType = transportFor m.env answer.meshType := by
    rw [← prepared]
    rfl
  rw [same]
  apply result_sendRaw
  · rw [lora, ← prepared]
    rfl
  · rw [results, ← prepared]
    change (m.radioCalls dst answer.meshType).map _ = _
    rw [calls]
    rfl

end MeshManager

/-! ## Kept items -/

namespace Relayed

variable {Q A : Type} (queue : RelayQueue Q A) (answer : FragmentAnswer)
  (free : Nat → Q → Prop) (r : Relayed Q A)

/-- A radio took the item, or the item is back at the front of its queue. -/
def Kept : Prop :=
  r.handed = true ∨ queue.items r.left = (r.session, r.seq) :: queue.items (r.met queue)

/-- The radio calls of the send. -/
def calls : List (Transport × Nat) := r.manager.radioCalls r.source answer.meshType

/-- The answer of a radio call: the result, and whether the radio took the packet. -/
def ask (call : Transport × Nat) : Int × Bool :=
  r.round.radios.send call.1 call.2 packetHeaderSize

/-- The packet goes out over LoRa, and the radio's mutex is not free in time. -/
def LoraContended : Prop :=
  (∃ peer, r.calls answer = [(.lora, peer)]) ∧ r.round.radios.lora.initialized = true ∧
    r.round.radios.lora.mutexTaken = false

/-- The packet goes to everybody in range, and neither radio takes it. -/
def BroadcastLost : Prop :=
  r.calls answer = [(.espnow, broadcastAddr), (.lora, broadcastAddr)] ∧
    (r.ask (.espnow, broadcastAddr)).2 = false ∧ (r.ask (.lora, broadcastAddr)).2 = false

/-- There is no route, or the radio of the next hop refuses the packet with a negative
answer. -/
def Refused : Prop :=
  r.calls answer = [] ∨
    ∃ call, r.calls answer = [call] ∧ (r.ask call).1 < 0 ∧ (r.ask call).2 = false

/-- The send does not lose the packet silently, and after a refusal the queue is `free`
for the item. -/
def Sound : Prop :=
  ¬ r.LoraContended answer ∧ ¬ r.BroadcastLost answer ∧
    (r.Refused answer → free r.seq (r.met queue))

/-- The record of a round follows from the send and the queue. -/
structure Recorded : Prop where
  sent : ∃ number, (r.result, r.handed) =
    (r.manager.sendOver r.round.radios r.source answer.meshType number).1
  left : r.left =
    if r.result < 0 then (queue.requeue r.session r.seq (r.met queue)).2 else r.met queue

variable {queue answer free r}

theorem Recorded.result (recorded : r.Recorded queue answer) :
    r.result = match r.calls answer with
      | [] => -1
      | [call] => (r.ask call).1
      | _ => 0 := by
  obtain ⟨number, sent⟩ := recorded.sent
  exact (congrArg Prod.fst sent).trans (MeshManager.sendOver_result ..)

theorem Recorded.handed (recorded : r.Recorded queue answer) :
    r.handed = (r.calls answer).any fun call => (r.ask call).2 := by
  obtain ⟨number, sent⟩ := recorded.sent
  exact congrArg Prod.snd sent

/-- What the queue shows of an item that was not put back. -/
theorem ne_cons_self {item : Nat × Nat} {items : List (Nat × Nat)} : items ≠ item :: items :=
  fun same => absurd (congrArg List.length same) (by simp)

/-- An item of a refused send is put back exactly when the queue takes it. -/
theorem Recorded.kept_of_refused (recorded : r.Recorded queue answer)
    (requeues : ∀ session seq q,
      queue.items (queue.requeue session seq q).2 = (session, seq) :: queue.items q ↔ free seq q)
    (failed : r.result < 0) (silent : r.handed = false) :
    r.Kept queue ↔ free r.seq (r.met queue) := by
  unfold Kept
  rw [silent, recorded.left, if_pos failed, requeues]
  simp

/-- An item of a send that reports success is kept exactly when a radio took it. -/
theorem Recorded.kept_of_sent (recorded : r.Recorded queue answer) (sent : ¬ r.result < 0) :
    r.Kept queue ↔ r.handed = true := by
  unfold Kept
  rw [recorded.left, if_neg sent]
  constructor
  · rintro (handed | same)
    · exact handed
    · exact absurd same ne_cons_self
  · exact .inl

/-- A drained item is kept exactly when its round is sound. -/
theorem Recorded.kept_iff_sound (recorded : r.Recorded queue answer)
    (requeues : ∀ session seq q,
      queue.items (queue.requeue session seq q).2 = (session, seq) :: queue.items q ↔
        free seq q) :
    r.Kept queue ↔ r.Sound queue answer free := by
  have result := recorded.result
  have handed := recorded.handed
  unfold Sound LoraContended BroadcastLost Refused
  rcases MeshManager.radioCalls_cases r.manager r.source answer.meshType with
    none | ⟨call, one⟩ | both
  · have calls : r.calls answer = [] := none
    rw [calls] at result handed ⊢
    have answered : r.result = -1 := result
    have failed : r.result < 0 := by
      rw [answered]
      decide
    rw [recorded.kept_of_refused requeues failed handed]
    simp
  · have calls : r.calls answer = [call] := one
    have silent := Radios.silent_iff r.round.radios call.1 call.2 packetHeaderSize (by decide)
    rw [calls] at result handed ⊢
    have took : r.handed = (r.ask call).2 := by simpa using handed
    have answered : r.result = (r.ask call).1 := result
    change (0 ≤ (r.ask call).1 ∧ (r.ask call).2 = false) ↔ _ at silent
    rw [← answered, ← took] at silent
    have contended : ((∃ peer, [call] = [(Transport.lora, peer)]) ∧
        r.round.radios.lora.initialized = true ∧ r.round.radios.lora.mutexTaken = false) ↔
          0 ≤ r.result ∧ r.handed = false := by
      rw [silent]
      refine and_congr_left fun _ => ?_
      constructor
      · rintro ⟨peer, same⟩
        cases same
        rfl
      · intro lora
        exact ⟨call.2, by rw [← lora]⟩
    have refused : (∃ other, [call] = [other] ∧ (r.ask other).1 < 0 ∧ (r.ask other).2 = false) ↔
        r.result < 0 ∧ r.handed = false := by
      rw [answered, took]
      simp
    rw [contended, refused]
    by_cases failed : r.result < 0
    · cases taken : r.handed with
      | false =>
          rw [recorded.kept_of_refused requeues failed taken]
          simp [failed]
      | true =>
          have kept : r.Kept queue := .inl taken
          simp [kept]
    · rw [recorded.kept_of_sent failed]
      cases taken : r.handed with
      | false => simp [not_lt.mp failed]
      | true => simp
  · have calls : r.calls answer = [(.espnow, broadcastAddr), (.lora, broadcastAddr)] := both
    rw [calls] at result handed ⊢
    have sent : ¬ r.result < 0 := not_lt.mpr (le_of_eq result.symm)
    rw [recorded.kept_of_sent sent, handed]
    simp [or_iff_not_imp_left]

end Relayed

/-! ## The loops -/

namespace ExitRelay

variable {F Q A : Type} {queue : RelayQueue Q A} {answer : FragmentAnswer}
  {relay : Nat → TransferEngine F → TransferEngine F}

/-- Every item that a loop drains has a record of its round. -/
theorem recorded_of_mem (rounds : List (RelayRound A)) (s : ExitRelay F Q) {r : Relayed Q A}
    (member : r ∈ (drainRounds queue answer relay rounds s).1) : r.Recorded queue answer := by
  induction rounds generalizing s with
  | nil => cases member
  | cons round rest inductionHypothesis =>
      unfold drainRounds at member
      dsimp only at member
      split at member
      · cases member
      · split at member
        · rename_i failed
          obtain rfl := List.mem_singleton.mp member
          exact ⟨⟨_, rfl⟩, (if_pos failed).symm⟩
        · rename_i sent
          rcases List.mem_cons.mp member with rfl | later
          · exact ⟨⟨_, rfl⟩, (if_neg sent).symm⟩
          · exact inductionHypothesis _ later

/-- The NACK queue has room for one more. -/
def nackFree (_ : Nat) (waiting : List SessionItem) : Prop := waiting.length < nackQueueDepth

/-- The acknowledgement is not waiting again, and its queue has room for one more. -/
def ackFree (seq : Nat) (client : MqttClient) : Prop :=
  client.fragmentAckPending.test seq = false ∧
    client.fragmentAckQueue.length < fragmentQueueDepth

theorem requeues_nack (session seq : Nat) (waiting : List SessionItem) :
    cloudNackQueue.items (cloudNackQueue.requeue session seq waiting).2 =
      (session, seq) :: cloudNackQueue.items waiting ↔ nackFree seq waiting := by
  change List.map _ (Mqtt.requeueCloudNack session seq waiting).2 = _ ↔ _
  unfold Mqtt.requeueCloudNack Mqtt.SessionQueue.sendToFront nackFree
  split
  · rename_i room
    exact ⟨fun _ => room, fun _ => rfl⟩
  · rename_i full
    exact ⟨fun same => absurd same Relayed.ne_cons_self, fun room => absurd room full⟩

theorem requeues_ack (session seq : Nat) (client : MqttClient) :
    fragmentAckQueue.items (fragmentAckQueue.requeue session seq client).2 =
      (session, seq) :: fragmentAckQueue.items client ↔ ackFree seq client := by
  change List.map _ (client.requeueFragmentAck session seq).2.fragmentAckQueue = _ ↔ _
  unfold MqttClient.requeueFragmentAck ackFree
  split
  · rename_i pending
    exact ⟨fun same => absurd same Relayed.ne_cons_self,
      fun free => absurd (free.1.symm.trans pending) Bool.false_ne_true⟩
  rename_i fresh
  split
  · rename_i room
    exact ⟨fun _ => ⟨eq_false_of_ne_true fresh, room⟩, fun _ => rfl⟩
  · rename_i full
    exact ⟨fun same => absurd same Relayed.ne_cons_self, fun free => absurd free.2 full⟩

variable [PathArith F]

/-- In every run of the two loops a drained NACK or acknowledgement is kept exactly when its
round is sound: the LoRa mutex is not contended, a broadcast is taken by a radio, and after
a refusal other tasks have left room for the item. -/
theorem drained_items_kept_iff :
    (∀ now rounds (s : ExitRelay F (List SessionItem)), ∀ r ∈ (relayNacks now rounds s).1,
      r.Kept cloudNackQueue ↔ r.Sound cloudNackQueue .nack nackFree) ∧
    (∀ rounds (s : ExitRelay F MqttClient), ∀ r ∈ (relayAcks rounds s).1,
      r.Kept fragmentAckQueue ↔ r.Sound fragmentAckQueue .ack ackFree) := by
  constructor
  · intro now rounds s r member
    unfold relayNacks at member
    split at member
    · exact (recorded_of_mem rounds s member).kept_iff_sound requeues_nack
    · cases member
  · intro rounds s r member
    unfold relayAcks at member
    split at member
    · exact (recorded_of_mem rounds s member).kept_iff_sound requeues_ack
    · cases member

/-- Node 2 serves session 5 of its neighbour, node 1, and has a cloud NACK for fragment 3. -/
def exitWithNack : ExitRelay ℚ (List SessionItem) where
  engine := (TransferEngine.boot 2 4 : TransferEngine ℚ).run
    [{ env := { clock := fun _ => 1000 }
       event := .transferAd 1
        (TransferAd.toBytes
          { sessionId := 5
            fileSize := 5824
            fragmentSizeD8 := 182
            crc32 := 6
            fragmentCount := 4
            filenameLen := 1
            filename := [97] }) true },
      { env := { clock := fun _ => 3000 }, event := .data 1 0 [1, 2, 3] }]
  manager := FragmentAnswer.neighborOfSource
  queue := [{ sessionId := 5, seq := 3 }]

/-- With quiet radios the NACK goes out. -/
theorem drained_nack_sound :
    ∃ r ∈ (relayNacks 3000 [{}] exitWithNack).1, r.Sound cloudNackQueue .nack nackFree := by
  have drained : (relayNacks 3000 [{}] exitWithNack).1 ≠ [] := by decide +kernel
  have handed : (relayNacks 3000 [{}] exitWithNack).1.all (fun r => r.handed) = true := by
    decide +kernel
  have first := List.head_mem drained
  exact ⟨_, first,
    (drained_items_kept_iff.1 3000 [{}] exitWithNack _ first).mp
      (.inl (List.all_eq_true.mp handed _ first))⟩

/-- The selector picks LoRa while another task holds the radio: `ESP_ERR_TIMEOUT` is
positive, so the loop takes the NACK for sent, and it is gone. -/
theorem contended_nack_lost :
    let relayed := relayNacks 3000
      [{ mesh := { selections := [.lora] }, radios := { lora := { mutexTaken := false } } }]
      exitWithNack
    relayed.1.map (fun r => (r.session, r.seq, r.source)) = [(5, 3, 1)] ∧
      relayed.1.map (fun r => (r.result, r.handed)) = [(263, false)] ∧
      relayed.1.map Relayed.left = [[]] ∧ relayed.2.queue = [] := by
  decide +kernel

end ExitRelay

end ForestLink.Mesh
