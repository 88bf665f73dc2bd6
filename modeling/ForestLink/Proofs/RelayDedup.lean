/-
Module: ForestLink.Proofs.RelayDedup
Purpose: When a relay's duplicate check drops true duplicates only: as long as packets
  that share their key within the window are the same packet, and the first of them was
  sent on.
Trusted boundary: none
Main exports: MeshManager.suppresses, passes, sendable, relays, relayedBefore, Unambiguous,
  suppresses_only_relayed, telemetry_suppressed_by_relay
-/
import ForestLink.Proofs.MeshCalls

namespace ForestLink.Mesh.MeshManager

open ForestLink.Lib
open ForestLink.Protocol

variable {m : MeshManager} {packet : MeshPacket}

/-! ## What a relay does with a packet -/

/-- `process_slab` gets to the duplicate check. -/
def hasToForward (m : MeshManager) (packet : MeshPacket) : Bool :=
  !m.refuses packet && packet.header.ttl != 0 && !m.forUs packet

/-- The cache holds a live record of the packet's key. -/
def seenBefore (m : MeshManager) (packet : MeshPacket) : Bool :=
  m.seenCache.any fun entry =>
    SeenEntry.matches entry packet m.seenNow (dedupWindow packet.header.type)

/-- A call drops a packet that it has to forward as a duplicate. -/
def suppresses (m : MeshManager) (env : MeshEnv) (packet : MeshPacket) : Bool :=
  (m.setEnv env).hasToForward packet && (m.setEnv env).seenBefore packet

/-- A call lets a packet that it has to forward through the duplicate check. -/
def passes (m : MeshManager) (env : MeshEnv) (packet : MeshPacket) : Bool :=
  (m.setEnv env).hasToForward packet && !(m.setEnv env).seenBefore packet

/-- A transmission of `forward_packet` that a radio took. -/
def isRelayed : MeshOutput → Bool
  | .sent _ _ _ result forwarded => forwarded && result == 0
  | _ => false

/-- The call forwards its packet. -/
def relays (m : MeshManager) (env : MeshEnv) (packet : MeshPacket) : Bool :=
  (m.recentOutputs (m.step ⟨env, .receive packet⟩)).any isRelayed

/-- A radio has room for a unicast of the type. -/
def unicastReady (m : MeshManager) (type : MeshPacketType) : Bool :=
  (transportFor m.env type == .espnow || m.env.loraInitialized) &&
    m.env.sendResults.headD 0 == 0

/-- One of the two radios has room for a broadcast. -/
def broadcastReady (m : MeshManager) : Bool :=
  m.env.sendResults.headD 0 == 0 || (m.env.loraInitialized && m.env.sendResults.tail.headD 0 == 0)

/-- Nothing keeps a packet that passed the check from being sent on: no congestion, a next
hop, and a radio with room. -/
def sendable (m : MeshManager) (packet : MeshPacket) : Bool :=
  (!m.congested || highPriority packet.header.type) &&
    if rebroadcast packet.header.type then m.broadcastReady
    else (m.hear packet).nextHop packet.header.dstAddr != broadcastAddr &&
      m.unicastReady packet.header.type

/-! ## Sending on -/

theorem outputs_sendRaw (m : MeshManager) (transport : Transport) (packet : MeshPacket)
    (peer : Nat) (forwarded : Bool) (ready : transport = .espnow ∨ m.env.loraInitialized = true) :
    (m.sendRaw transport packet peer forwarded).2.outputs =
      .sent transport peer packet (m.env.sendResults.headD 0) forwarded :: m.outputs := by
  unfold sendRaw
  rw [if_neg]
  · dsimp only
    split <;> rfl
  · rintro ⟨lora, dark⟩
    rcases ready with espnow | lit
    · exact absurd (lora.symm.trans espnow) (by decide)
    · exact absurd (dark.symm.trans lit) (by decide)

theorem outputs_sendBoth (m : MeshManager) (packet : MeshPacket) (ready : m.broadcastReady = true) :
    ∃ recent, (m.sendBoth packet true).outputs = recent ++ m.outputs ∧
      recent.any isRelayed = true := by
  have first := outputs_sendRaw m .espnow packet broadcastAddr true (.inl rfl)
  have env : (m.sendRaw .espnow packet broadcastAddr true).2.env =
      { m.env with sendResults := m.env.sendResults.tail } := by
    unfold sendRaw
    rw [if_neg (by rintro ⟨lora, _⟩; cases lora)]
    dsimp only
    split <;> rfl
  unfold sendBoth
  cases lit : m.env.loraInitialized with
  | false =>
      refine ⟨[.sent .espnow broadcastAddr packet (m.env.sendResults.headD 0) true], ?_, ?_⟩
      · rw [sendRaw, if_pos ⟨rfl, by rw [env]; exact lit⟩]
        exact first
      · simpa [broadcastReady, lit, isRelayed] using ready
  | true =>
      have second := outputs_sendRaw (m.sendRaw .espnow packet broadcastAddr true).2 .lora
        packet broadcastAddr true (.inr (by rw [env]; exact lit))
      rw [second, first, env]
      refine ⟨[_, _], rfl, ?_⟩
      simpa [broadcastReady, lit, isRelayed, or_comm] using ready

theorem outputs_sendVia (m : MeshManager) (packet : MeshPacket) (peer : Nat)
    (ready : m.unicastReady packet.header.type = true) :
    ∃ recent, (m.sendVia packet peer true).2.outputs = recent ++ m.outputs ∧
      recent.any isRelayed = true := by
  unfold unicastReady at ready
  rw [Bool.and_eq_true, Bool.or_eq_true, beq_iff_eq] at ready
  have selected : (m.selectTransport packet.header.type).2.outputs = m.outputs ∧
      (m.selectTransport packet.header.type).2.env.loraInitialized = m.env.loraInitialized ∧
      (m.selectTransport packet.header.type).2.env.sendResults = m.env.sendResults := by
    unfold selectTransport
    dsimp only
    split <;> exact ⟨rfl, rfl, rfl⟩
  obtain ⟨outputs, lora, results⟩ := selected
  unfold sendVia
  dsimp only
  rw [outputs_sendRaw _ _ _ _ _ (by rw [lora]; exact ready.1), outputs, results]
  refine ⟨[_], rfl, ?_⟩
  simpa [isRelayed] using ready.2

theorem type_markCongestion (header : PacketHeader) (congested : Bool) :
    (markCongestion header congested).type = header.type := by
  unfold markCongestion
  split <;> rfl

theorem type_nextHeader (header : PacketHeader) : (nextHeader header).type = header.type := rfl

/-- `forward_packet` sends a packet on unless something holds it back. -/
theorem outputs_forwardPacket (m : MeshManager) (packet : MeshPacket)
    (clear : (!m.congested || highPriority packet.header.type) = true)
    (ready : (if rebroadcast packet.header.type then m.broadcastReady
      else m.nextHop packet.header.dstAddr != broadcastAddr &&
        m.unicastReady packet.header.type) = true) :
    ∃ recent, (m.forwardPacket packet).outputs = recent ++ m.outputs ∧
      recent.any isRelayed = true := by
  unfold forwardPacket
  dsimp only
  rw [if_neg (by simpa [imp_iff_not_or] using clear)]
  cases everybody : rebroadcast packet.header.type with
  | true =>
      rw [everybody, if_pos rfl] at ready
      rw [if_pos rfl]
      exact outputs_sendBoth m _ ready
  | false =>
      rw [everybody, if_neg Bool.false_ne_true, Bool.and_eq_true, bne_iff_ne] at ready
      rw [if_neg Bool.false_ne_true, if_neg ready.1]
      apply outputs_sendVia
      dsimp only
      rw [type_markCongestion, type_nextHeader]
      exact ready.2

/-! ## The state in which the check is made -/

theorem relay_of_seen (seen : m.seenBefore packet = true) : m.relay packet = m := by
  unfold seenBefore at seen
  unfold relay alreadySeen
  rw [seen]
  rfl

theorem relay_of_unseen (unseen : m.seenBefore packet = false) :
    m.relay packet = (m.recordSeen packet m.seenNow).forwardPacket packet := by
  unfold seenBefore at unseen
  unfold relay alreadySeen
  rw [unseen]
  rfl

theorem hearOffline_fields (m : MeshManager) (packet : MeshPacket) :
    ∃ recent, m.hearOffline packet = { m with outputs := recent ++ m.outputs } := by
  unfold hearOffline
  split
  · exact ⟨[_], rfl⟩
  · exact ⟨[], rfl⟩

theorem forUs_hear (m : MeshManager) (packet : MeshPacket) :
    (m.hear packet).forUs packet = m.forUs packet := by
  unfold forUs hear Router.hear Router.forUs
  split <;> rfl

/-- A packet that a relay has to forward reaches the duplicate check. -/
theorem processSlab_of_hasToForward (has : m.hasToForward packet = true) :
    ∃ recent, m.processSlab packet =
      relay { m.hear packet with outputs := recent ++ m.outputs } packet := by
  unfold hasToForward at has
  rw [Bool.and_eq_true, Bool.and_eq_true, Bool.not_eq_true', bne_iff_ne,
    Bool.not_eq_true'] at has
  obtain ⟨⟨accepted, alive⟩, foreign⟩ := has
  obtain ⟨recent, informed⟩ := hearOffline_fields m packet
  refine ⟨recent, ?_⟩
  have heard : ({ m with outputs := recent ++ m.outputs } : MeshManager).hear packet =
      { m.hear packet with outputs := recent ++ m.outputs } := rfl
  have same : ({ m.hear packet with outputs := recent ++ m.outputs } : MeshManager).forUs
      packet = m.forUs packet := forUs_hear m packet
  unfold processSlab
  rw [accepted, if_neg Bool.false_ne_true]
  dsimp only
  rw [if_neg alive, informed, heard, same, foreign, if_neg Bool.false_ne_true]

/-- What passes the check and can be sent is sent. -/
theorem relays_of_passes {env : MeshEnv} (pass : m.passes env packet = true)
    (can : (m.setEnv env).sendable packet = true) : m.relays env packet = true := by
  unfold passes at pass
  rw [Bool.and_eq_true, Bool.not_eq_true'] at pass
  unfold sendable at can
  rw [Bool.and_eq_true] at can
  obtain ⟨recent, processed⟩ := processSlab_of_hasToForward pass.1
  have stepped : m.step ⟨env, .receive packet⟩ = (m.setEnv env).processSlab packet := rfl
  -- Neither the offline notice nor the neighbour update touches what the check reads.
  have relayed := relay_of_unseen (m := { (m.setEnv env).hear packet with
    outputs := recent ++ m.outputs }) pass.2
  obtain ⟨forwards, outputs, any⟩ := outputs_forwardPacket
    (recordSeen { (m.setEnv env).hear packet with outputs := recent ++ m.outputs } packet
      (m.setEnv env).seenNow) packet can.1 can.2
  have grown : (m.step ⟨env, .receive packet⟩).outputs = (forwards ++ recent) ++ m.outputs := by
    rw [stepped, processed]
    exact (congrArg MeshManager.outputs relayed).trans
      (outputs.trans (List.append_assoc ..).symm)
  unfold relays recentOutputs
  rw [grown, Extends.recent_append, List.any_append, any, Bool.true_or]

/-! ## Where records come from -/

theorem seenCache_apply (m : MeshManager) {change : MeshChange}
    (quiet : ∀ packet now, change ≠ .record packet now) :
    (m.apply change).seenCache = m.seenCache ∨
      (m.apply change).seenCache = List.replicate seenCacheSize {} := by
  cases change with
  | record packet now => exact absurd rfl (quiet packet now)
  | restart => exact .inr rfl
  | reparent =>
      obtain ⟨parent, tracked, fields⟩ := updatePreferredParent_fields m
      refine .inl ?_
      change m.updatePreferredParent.seenCache = m.seenCache
      rw [fields]
  | _ => exact .inl rfl

/-- Changes that record nothing leave old records and blank ones. -/
theorem seenCache_via {allowed : MeshChange → Prop} {after : MeshManager}
    (via : Via apply allowed m after) (quiet : ∀ packet now, ¬ allowed (.record packet now)) :
    ∀ entry ∈ after.seenCache, entry ∈ m.seenCache ∨ entry = {} := by
  apply via.keeps fun state => ∀ entry ∈ state.seenCache, entry ∈ m.seenCache ∨ entry = {}
  · intro state change permitted before entry member
    rcases seenCache_apply state
      (fun packet now here => quiet packet now (here ▸ permitted)) with same | blank
    · exact before entry (same ▸ member)
    · exact .inr (List.eq_of_mem_replicate (blank ▸ member))
  · exact fun entry member => .inl member

theorem handling_records_nothing {addr : Nat} {received : Option MeshPacket} (packet : MeshPacket)
    (now : Nat) : ¬ Handling addr received (.record packet now) := id

theorem seenCache_recordSeen {now : Nat} {entry : SeenEntry}
    (member : entry ∈ (m.recordSeen packet now).seenCache) :
    entry ∈ m.seenCache ∨ entry = seenEntry packet now :=
  List.mem_or_eq_of_mem_set member

/-- A packet that is not to be forwarded leaves no record. -/
theorem seenCache_of_not_hasToForward (hasNot : m.hasToForward packet = false) :
    ∀ entry ∈ (m.processSlab packet).seenCache, entry ∈ m.seenCache ∨ entry = {} := by
  obtain ⟨recent, informed⟩ := hearOffline_fields m packet
  have foreign : (({ m with outputs := recent ++ m.outputs } : MeshManager).hear packet).forUs
      packet = m.forUs packet := forUs_hear m packet
  unfold processSlab
  cases accepted : m.refuses packet with
  | true => exact fun entry member => .inl member
  | false =>
      rw [if_neg Bool.false_ne_true, informed]
      dsimp only
      split
      · exact fun entry member => .inl member
      · rename_i alive
        rw [foreign]
        cases mine : m.forUs packet with
        | true =>
            rw [if_pos rfl]
            intro entry member
            exact seenCache_via (m := { m with outputs := recent ++ m.outputs }.hear packet)
              (dispatch_spec rfl packet) handling_records_nothing entry member
        | false => simp [hasToForward, accepted, mine, alive] at hasNot

/-- A packet that is to be forwarded leaves a record if it passes the check. -/
theorem seenCache_of_hasToForward (has : m.hasToForward packet = true) :
    ∀ entry ∈ (m.processSlab packet).seenCache, entry ∈ m.seenCache ∨ entry = {} ∨
      (m.seenBefore packet = false ∧ entry = seenEntry packet m.seenNow) := by
  obtain ⟨recent, processed⟩ := processSlab_of_hasToForward has
  intro entry member
  rw [processed] at member
  have alive : packet.header.ttl ≠ 0 := by
    unfold hasToForward at has
    rw [Bool.and_eq_true, Bool.and_eq_true, bne_iff_ne] at has
    exact has.1.2
  obtain ⟨heard, heardEq⟩ : ∃ heard : MeshManager,
      heard = { m.hear packet with outputs := recent ++ m.outputs } := ⟨_, rfl⟩
  have sameCache : heard.seenCache = m.seenCache := heardEq ▸ rfl
  have sameCheck : heard.seenBefore packet = m.seenBefore packet := heardEq ▸ rfl
  have sameNow : heard.seenNow = m.seenNow := heardEq ▸ rfl
  rw [← heardEq] at member
  rw [← sameCache, ← sameNow, ← sameCheck]
  cases seen : heard.seenBefore packet with
  | true =>
      rw [relay_of_seen seen] at member
      exact .inl member
  | false =>
      rw [relay_of_unseen seen] at member
      have forwarded := forwardPacket_spec (m := heard.recordSeen packet heard.seenNow) rfl alive
      rcases seenCache_via forwarded (fun _ _ recorded => recorded) entry member with
        recorded | blank
      · rcases seenCache_recordSeen recorded with old | new
        · exact .inl old
        · exact .inr (.inr ⟨rfl, new⟩)
      · exact .inr (.inl blank)

/-- After a call the cache holds old records, blank ones, and the record of a packet that
passed the check in it. -/
theorem seenCache_step (m : MeshManager) (call : Call) :
    ∀ entry ∈ (m.step call).seenCache, entry ∈ m.seenCache ∨ entry = {} ∨
      ∃ packet, call.event = .receive packet ∧ m.passes call.env packet = true ∧
        entry = seenEntry packet (call.env.seenMs % 2 ^ 32) := by
  intro entry member
  by_cases receives : ∃ packet, call.event = .receive packet
  · obtain ⟨packet, received⟩ := receives
    obtain ⟨env, event⟩ := call
    dsimp only at received
    subst received
    change entry ∈ ((m.setEnv env).processSlab packet).seenCache at member
    cases has : (m.setEnv env).hasToForward packet with
    | false =>
        rcases seenCache_of_not_hasToForward has entry member with old | blank
        · exact .inl old
        · exact .inr (.inl blank)
    | true =>
        rcases seenCache_of_hasToForward has entry member with old | blank | ⟨unseen, new⟩
        · exact .inl old
        · exact .inr (.inl blank)
        · refine .inr (.inr ⟨packet, rfl, ?_, new⟩)
          unfold passes
          rw [has, unseen]
          rfl
  · have quiet : ∀ packet now, ¬ Calling m.myAddr call.event (.record packet now) :=
      fun packet _ recorded => receives ⟨packet, recorded⟩
    rcases seenCache_via (step_spec m call) quiet entry member with old | blank
    · exact .inl old
    · exact .inr (.inl blank)

/-! ## A run of the relay -/

/-- The packets have one key in the cache. -/
def sameKey (a b : MeshPacket) : Bool :=
  a.header.srcAddr == b.header.srcAddr && a.header.dstAddr == b.header.dstAddr &&
    a.header.typeCode == b.header.typeCode && a.header.seqNum == b.header.seqNum

/-- An identical packet of the same source was forwarded in one of the calls. -/
def relayedBefore (packet : MeshPacket) : MeshManager → List Call → Bool
  | _, [] => false
  | m, call :: rest =>
      (match call.event with
        | .receive earlier =>
            sameKey earlier packet && earlier.payload == packet.payload &&
              m.relays call.env earlier
        | _ => false) ||
        relayedBefore packet (m.step call) rest

/-- An earlier call does not mislead the check about a packet that comes at `now`: if it let
a packet with the same key through less than the window ago, that packet was the same and
could be sent on. -/
def Clear (packet : MeshPacket) (now : Nat) (m : MeshManager) (call : Call) : Prop :=
  match call.event with
  | .receive earlier =>
      m.passes call.env earlier = true ∧ sameKey earlier packet = true ∧
          sub32 now (call.env.seenMs % 2 ^ 32) < dedupWindow packet.header.type →
        earlier.payload = packet.payload ∧ (m.setEnv call.env).sendable earlier = true
  | _ => True

instance (packet : MeshPacket) (now : Nat) (m : MeshManager) (call : Call) :
    Decidable (Clear packet now m call) := by
  unfold Clear
  split <;> infer_instance

/-- No call of the run misleads the check. -/
def Unambiguous (packet : MeshPacket) (now : Nat) : MeshManager → List Call → Prop
  | _, [] => True
  | m, call :: rest => Clear packet now m call ∧ Unambiguous packet now (m.step call) rest

instance decidableUnambiguous (packet : MeshPacket) (now : Nat) (m : MeshManager)
    (calls : List Call) : Decidable (Unambiguous packet now m calls) :=
  match calls with
  | [] => inferInstanceAs (Decidable True)
  | call :: rest =>
      have := decidableUnambiguous packet now (m.step call) rest
      inferInstanceAs (Decidable (Clear packet now m call ∧ Unambiguous packet now _ rest))

theorem matches_seenEntry {earlier : MeshPacket} {now time window : Nat} :
    SeenEntry.matches (seenEntry earlier time) packet now window = true ↔
      sameKey earlier packet = true ∧ sub32 now time < window := by
  unfold SeenEntry.matches seenEntry sameKey
  rw [Bool.and_eq_true, decide_eq_true_iff]

/-- A live record at the end of a run was there before the run, or is a blank one, or stems
from an identical packet that was forwarded. -/
theorem live_record_origin {now : Nat} {calls : List Call}
    (clear : Unambiguous packet now m calls) {entry : SeenEntry}
    (member : entry ∈ (m.run calls).seenCache)
    (live : SeenEntry.matches entry packet now (dedupWindow packet.header.type) = true) :
    entry ∈ m.seenCache ∨ entry = {} ∨ relayedBefore packet m calls = true := by
  induction calls generalizing m with
  | nil => exact .inl member
  | cons call rest inductionHypothesis =>
      obtain ⟨first, later⟩ := clear
      unfold relayedBefore
      rw [Bool.or_eq_true]
      rcases inductionHypothesis later member with old | blank | relayed
      · rcases seenCache_step m call entry old with before | blank | ⟨earlier, received, pass, new⟩
        · exact .inl before
        · exact .inr (.inl blank)
        · subst new
          obtain ⟨key, young⟩ := matches_seenEntry.mp live
          unfold Clear at first
          rw [received] at first
          obtain ⟨same, can⟩ := first ⟨pass, key, young⟩
          refine .inr (.inr (.inl ?_))
          rw [received]
          dsimp only
          rw [key, relays_of_passes pass can, same, beq_self_eq_true]
          rfl
      · exact .inr (.inl blank)
      · exact .inr (.inr (.inr relayed))

/-- In every run of a relay, a packet is dropped as a duplicate only if an identical packet
of the same source was forwarded earlier, as long as the packets with its key that went
through the check less than the window ago were the same packet and could be sent on, and
its key is not the all-zero key of the blank records. -/
theorem suppresses_only_relayed (myAddr : Nat) (blockedPeers : List Nat)
    (subscribedTopics : List (List UInt8)) (ledEnabled : Bool) (before : List Call)
    (env : MeshEnv) (packet : MeshPacket)
    (clear : Unambiguous packet (env.seenMs % 2 ^ 32)
      (boot myAddr blockedPeers subscribedTopics ledEnabled) before)
    (keyed : SeenEntry.matches {} packet (env.seenMs % 2 ^ 32)
      (dedupWindow packet.header.type) = false)
    (dropped : ((boot myAddr blockedPeers subscribedTopics ledEnabled).run before).suppresses
      env packet = true) :
    relayedBefore packet (boot myAddr blockedPeers subscribedTopics ledEnabled) before = true := by
  unfold suppresses at dropped
  rw [Bool.and_eq_true] at dropped
  obtain ⟨entry, member, live⟩ := List.any_eq_true.mp dropped.2
  have notBlank : entry ≠ {} := by
    rintro rfl
    exact absurd (live.symm.trans keyed) (by decide)
  rcases live_record_origin clear member live with start | blank | relayed
  · exact absurd (List.eq_of_mem_replicate start) notBlank
  · exact absurd blank notBlank
  · exact relayed

/-! ## Three telemetry packets -/

/-- A sensor without neighbours publishes its telemetry: three packets over ESP-NOW. -/
def telemetryPackets : List MeshPacket :=
  ((boot 0x0101 [] [] false).step ⟨{ metrics := [1, 2, 3], heap := [9] }, .telemetry⟩).outputs.reverse
    |>.filterMap fun output =>
      match output with
      | .sent .espnow _ packet _ _ => some packet
      | _ => none

/-- A relay has heard an exit, and then hears one of the packets. -/
def telemetryHistory (packet : MeshPacket) : List Call :=
  [⟨{}, .receive (freshPacket 0x0303 broadcastAddr .discovery
      (Discovery.toBytes
        { internet := true, hopsToInternet := 0, inetSeq := 1, inetOrigin := 0x0303,
          queueLoad := 0 } 1 7) 0)⟩,
    ⟨{ seenMs := 20000 }, .receive packet⟩]

/-- The relay forwards the topology and drops the metrics as if they were the same. -/
theorem telemetry_suppressed_by_relay :
    ∃ topology metrics, telemetryPackets[0]? = some topology ∧
      telemetryPackets[1]? = some metrics ∧ topology.payload ≠ metrics.payload ∧
      ((boot 0x0202 [] [] false).run (telemetryHistory topology)).suppresses { seenMs := 20005 }
        metrics = true ∧
      relayedBefore metrics (boot 0x0202 [] [] false) (telemetryHistory topology) = false :=
  ⟨_, _, rfl, rfl, by decide +kernel⟩

/-- A second copy of the topology is dropped rightly. -/
theorem telemetry_copy_relayed_before :
    relayedBefore (freshPacket 0x0101 exitAnyAddr .meshPub [3, 0] 0) (boot 0x0202 [] [] false)
      (telemetryHistory (freshPacket 0x0101 exitAnyAddr .meshPub [3, 0] 0)) = true :=
  suppresses_only_relayed 0x0202 [] [] false _ { seenMs := 20005 } _ (by decide +kernel)
    (by decide +kernel) (by decide +kernel)

end ForestLink.Mesh.MeshManager
