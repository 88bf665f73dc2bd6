/-
Module: ForestLink.Proofs.CustodyAcks
Purpose: Over complete calls the MQTT client's bitmaps agree with its queues, and only
  accepted fragments of the active session are acknowledged.
Trusted boundary: none
Main exports: Tracks, MqttClient.Kept, custody_acks_sound
-/
import Mathlib.Data.List.Nodup
import Mathlib.Data.List.Count
import ForestLink.Mqtt.Client

namespace ForestLink.Mqtt

/-! ## Bitmaps that track lists -/

/-- The bits that are set are the numbers in the list, which has no duplicates. -/
structure Tracks (bits : FragmentBitmap) (seqs : List Nat) : Prop where
  once : seqs.Nodup
  marks : ∀ seq, bits.test seq = true ↔ seq ∈ seqs

namespace Tracks

variable {bits : FragmentBitmap} {seqs other : List Nat} {seq : Nat}

theorem empty : Tracks .empty [] where
  once := List.nodup_nil
  marks seq := by simp

theorem perm (tracks : Tracks bits seqs) (same : seqs.Perm other) : Tracks bits other where
  once := same.nodup_iff.mp tracks.once
  marks seq := (tracks.marks seq).trans same.mem_iff

theorem cons (tracks : Tracks bits seqs) (fresh : ¬ bits.test seq = true)
    (tracked : isTrackableFragment seq = true) : Tracks (bits.set seq) (seq :: seqs) where
  once := List.nodup_cons.mpr ⟨fun member => fresh ((tracks.marks seq).mpr member), tracks.once⟩
  marks other := by
    rw [FragmentBitmap.test_set, tracks.marks, List.mem_cons]
    simp only [tracked, and_true]

theorem append (tracks : Tracks bits seqs) (fresh : ¬ bits.test seq = true)
    (tracked : isTrackableFragment seq = true) : Tracks (bits.set seq) (seqs ++ [seq]) :=
  (tracks.cons fresh tracked).perm (List.perm_append_singleton seq seqs).symm

theorem tail (tracks : Tracks bits (seq :: seqs)) : Tracks (bits.clear seq) seqs where
  once := (List.nodup_cons.mp tracks.once).2
  marks other := by
    rw [FragmentBitmap.test_clear, tracks.marks, List.mem_cons]
    constructor
    · rintro ⟨different, same | member⟩
      · exact absurd same different
      · exact member
    · intro member
      refine ⟨?_, .inr member⟩
      rintro rfl
      exact (List.nodup_cons.mp tracks.once).1 member

theorem trackable (tracks : Tracks bits seqs) (member : seq ∈ seqs) :
    isTrackableFragment seq = true :=
  ((FragmentBitmap.test_iff _ _).mp ((tracks.marks seq).mpr member)).1

/-- A bit is set exactly when its number is in the list once. -/
theorem count_eq_one (tracks : Tracks bits seqs) (seq : Nat) :
    bits.test seq = true ↔ seqs.count seq = 1 := by
  rw [tracks.marks, ← List.one_le_count_iff]
  have atMost := List.nodup_iff_count_le_one.mp tracks.once seq
  omega

end Tracks

/-! ## The invariant -/

namespace MqttClient

variable {m : MqttClient} {accepted : List Nat} {req : FragmentPublishRequest}

/-- Queued bits track the waiting requests, pending bits the acknowledgement queue; items
and accepted bits are for accepted fragments of the active session. -/
structure Kept (m : MqttClient) (accepted : List Nat) : Prop where
  publishing : Tracks m.fragmentQueued (m.waiting.map (·.seq))
  acknowledging : Tracks m.fragmentAckPending (m.fragmentAckQueue.map (·.seq))
  items : ∀ item ∈ m.fragmentAckQueue,
    item.sessionId = m.activeTransferSession ∧ item.seq ∈ accepted
  acceptedBits : ∀ seq, m.fragmentAccepted.test seq = true →
    m.activeTransferSession ≠ 0 ∧ seq ∈ accepted
  room : m.fragmentAckQueue.length ≤ fragmentQueueDepth

theorem Kept.reset (m : MqttClient) (accepted : List Nat) :
    m.resetTransferRuntimeState.Kept accepted where
  publishing := .empty
  acknowledging := .empty
  items _ member := absurd member List.not_mem_nil
  acceptedBits seq marked := absurd marked (by
    simp [resetTransferRuntimeState, resetBitmaps])
  room := Nat.zero_le _

/-! ## Acknowledgements -/

/-- An accepted fragment of the active session enters the queue. -/
theorem Kept.queueFragmentAck {sessionId seq : Nat} (kept : m.Kept accepted)
    (active : sessionId = m.activeTransferSession) (known : seq ∈ accepted)
    (tracked : isTrackableFragment seq = true) :
    (m.queueFragmentAck sessionId seq).2.Kept accepted := by
  unfold MqttClient.queueFragmentAck
  split
  · exact kept
  · rename_i fresh
    split
    · rename_i space
      refine ⟨kept.publishing, ?_, ?_, kept.acceptedBits, ?_⟩
      · rw [List.map_append]
        exact kept.acknowledging.append fresh tracked
      · intro item member
        rcases List.mem_append.mp member with old | new
        · exact kept.items item old
        · obtain rfl := List.mem_singleton.mp new
          exact ⟨active, known⟩
      · rw [List.length_append]
        exact space
    · exact kept

theorem Kept.requeueFragmentAck {sessionId seq : Nat} (kept : m.Kept accepted)
    (active : sessionId = m.activeTransferSession) (known : seq ∈ accepted)
    (tracked : isTrackableFragment seq = true) :
    (m.requeueFragmentAck sessionId seq).2.Kept accepted := by
  unfold MqttClient.requeueFragmentAck
  split
  · exact kept
  · rename_i fresh
    split
    · rename_i space
      refine ⟨kept.publishing, kept.acknowledging.cons fresh tracked, ?_,
        kept.acceptedBits, space⟩
      intro item member
      rcases List.mem_cons.mp member with rfl | old
      · exact ⟨active, known⟩
      · exact kept.items item old
    · exact kept

/-- What a drained pair is known to be. -/
def Drains (m : MqttClient) (accepted : List Nat) (sessionId : Nat) (seq : Option Nat) : Prop :=
  ∀ s ∈ seq, sessionId = m.activeTransferSession ∧ s ∈ accepted ∧ isTrackableFragment s = true

/-- The drain loop turns the queue over until an item of its session comes up. -/
theorem Kept.drainLoop (kept : m.Kept accepted) (sessionId depth : Nat) :
    (drainLoop sessionId depth m).2.Kept accepted ∧
      (drainLoop sessionId depth m).2.activeTransferSession = m.activeTransferSession ∧
      m.Drains accepted sessionId (drainLoop sessionId depth m).1 := by
  induction depth generalizing m with
  | zero => exact ⟨kept, rfl, by simp [Drains, MqttClient.drainLoop]⟩
  | succ depth inductionHypothesis =>
      unfold MqttClient.drainLoop
      cases queue : m.fragmentAckQueue with
      | nil => exact ⟨kept, rfl, by simp [Drains]⟩
      | cons item rest =>
          have tracks := kept.acknowledging
          have items := kept.items
          have room := kept.room
          rw [queue] at tracks items room
          dsimp only
          split
          · rename_i matching
            have here := items item List.mem_cons_self
            refine ⟨⟨kept.publishing, tracks.tail, ?_, kept.acceptedBits, ?_⟩, rfl, ?_⟩
            · exact fun other member => items other (List.mem_cons_of_mem _ member)
            · exact Nat.le_of_succ_le room
            · intro seq drained
              obtain rfl := Option.some.inj drained
              exact ⟨matching.symm.trans here.1, here.2,
                tracks.trackable List.mem_cons_self⟩
          · have turned : ({ m with fragmentAckQueue := rest } : MqttClient).putBack item =
                { m with fragmentAckQueue := rest ++ [item] } := if_pos room
            have same : (item :: rest).Perm (rest ++ [item]) :=
              (List.perm_append_singleton item rest).symm
            rw [turned]
            refine inductionHypothesis (m := { m with fragmentAckQueue := rest ++ [item] }) ?_
            refine ⟨kept.publishing, tracks.perm (same.map _), ?_, kept.acceptedBits, ?_⟩
            · exact fun other member => items other (same.mem_iff.mpr member)
            · exact same.length_eq ▸ room

/-! ## Requests -/

theorem Kept.enqueueFragment (kept : m.Kept accepted) (req : FragmentPublishRequest)
    (tracked : isTrackableFragment req.seq = true) :
    (m.enqueueFragment req).2.Kept accepted := by
  unfold MqttClient.enqueueFragment
  dsimp only
  split
  · exact kept
  · rename_i fresh
    split
    · refine ⟨?_, kept.acknowledging, kept.items, kept.acceptedBits, kept.room⟩
      have waits : ({ m with
          fragmentPublishQueue := m.fragmentPublishQueue ++ [req]
          fragmentQueued := m.fragmentQueued.set req.seq } : MqttClient).waiting.map (·.seq) =
          m.waiting.map (·.seq) ++ [req.seq] := by
        simp [waiting]
      rw [waits]
      exact kept.publishing.append (fun marked => fresh (.inr marked)) tracked
    · exact kept

theorem Kept.publishFragment {sessionId seq srcNode : Nat}
    {data filename : Option (List UInt8)} (kept : m.Kept accepted)
    (tracked : isTrackableFragment seq = true) :
    (m.publishFragment sessionId seq srcNode data filename).2.Kept accepted := by
  unfold MqttClient.publishFragment
  split
  · rename_i data filename
    split
    · exact kept
    · dsimp only
      split
      · exact kept
      · rename_i current
        have queued := kept.enqueueFragment (request sessionId seq srcNode data filename)
          tracked
        split
        · rename_i alreadyAccepted after found
          rw [found] at queued
          split
          · -- the fragment has been accepted in the active session, which is this one
            rename_i acknowledged
            have same : after = m ∧ alreadyAccepted = m.fragmentAccepted.test seq := by
              unfold MqttClient.enqueueFragment at found
              dsimp only at found
              split at found
              · obtain ⟨first, second⟩ := Prod.mk.inj found
                exact ⟨second.symm, (EnqueueResult.duplicate.inj first).symm⟩
              · split at found <;> exact absurd (Prod.mk.inj found).1 (by simp)
            obtain ⟨rfl, rfl⟩ := same
            have marked : after.fragmentAccepted.test seq = true := by
              unfold acknowledges at acknowledged
              exact (Bool.and_eq_true _ _ ▸ acknowledged).1
            obtain ⟨active, known⟩ := kept.acceptedBits seq marked
            refine kept.queueFragmentAck ?_ known tracked
            unfold staleFor at current
            simpa [active] using current
          · exact queued
        · rename_i after found
          rw [found] at queued
          exact queued
        · rename_i after found
          rw [found] at queued
          exact queued
  · exact kept

theorem Kept.markFragmentForRepublish {sessionId seq : Nat} (kept : m.Kept accepted) :
    (m.markFragmentForRepublish sessionId seq).Kept accepted := by
  unfold MqttClient.markFragmentForRepublish
  split
  · exact kept
  · refine ⟨kept.publishing, kept.acknowledging, kept.items, ?_, kept.room⟩
    intro other marked
    exact kept.acceptedBits other ((FragmentBitmap.test_clear ..).mp marked).2

/-! ## The publish loop -/

/-- The next request heads the waiting ones; behind it wait those in the queue. -/
theorem nextRequest_eq_some {fromPending : Bool} {taken : MqttClient}
    (next : m.nextRequest = some (req, fromPending, taken)) :
    m.waiting = req :: taken.fragmentPublishQueue ∧
      taken = { m with fragmentPublishQueue := taken.fragmentPublishQueue } ∧
      (fromPending = false → m.pendingFragment = none) := by
  unfold nextRequest at next
  unfold waiting
  split at next
  · rename_i request queue pending
    obtain ⟨rfl, rfl, rfl⟩ := next
    exact ⟨by rw [pending]; rfl, rfl, by simp⟩
  · rename_i request rest pending queue
    obtain ⟨rfl, rfl, rfl⟩ := next
    exact ⟨by rw [pending, queue]; rfl, rfl, fun _ => pending⟩
  · exact absurd next (by simp)

/-- A request of another session leaves no trace. -/
theorem dropStale_eq {fromPending : Bool} {taken : MqttClient}
    (next : m.nextRequest = some (req, fromPending, taken)) :
    taken.dropStale req fromPending =
      { m with
        fragmentPublishQueue := taken.fragmentPublishQueue
        pendingFragment := none
        fragmentQueued := m.fragmentQueued.clear req.seq } := by
  obtain ⟨_, same, slot⟩ := nextRequest_eq_some next
  unfold MqttClient.dropStale freePending
  rw [same]
  cases fromPending with
  | true => rfl
  | false =>
      rw [← slot rfl]
      rfl

/-- A published request is accepted instead of queued. -/
theorem acceptFragment_eq {fromPending : Bool} {taken : MqttClient}
    (next : m.nextRequest = some (req, fromPending, taken)) :
    taken.acceptFragment req fromPending =
      { m with
        fragmentPublishQueue := taken.fragmentPublishQueue
        pendingFragment := none
        fragmentQueued := m.fragmentQueued.clear req.seq
        fragmentAccepted := m.fragmentAccepted.set req.seq } := by
  obtain ⟨_, same, slot⟩ := nextRequest_eq_some next
  unfold MqttClient.acceptFragment freePending
  rw [same]
  cases fromPending with
  | true => rfl
  | false =>
      rw [← slot rfl]
      rfl

theorem Kept.dropStale {fromPending : Bool} {taken : MqttClient} (kept : m.Kept accepted)
    (next : m.nextRequest = some (req, fromPending, taken)) :
    (taken.dropStale req fromPending).Kept accepted := by
  have tracks := kept.publishing
  rw [(nextRequest_eq_some next).1] at tracks
  rw [dropStale_eq next]
  exact ⟨tracks.tail, kept.acknowledging, kept.items, kept.acceptedBits, kept.room⟩

/-- A request that could not be published waits in the pending slot. -/
theorem Kept.deferFragment {fromPending : Bool} {taken : MqttClient} (kept : m.Kept accepted)
    (next : m.nextRequest = some (req, fromPending, taken)) :
    (taken.deferFragment req).Kept accepted := by
  have tracks := kept.publishing
  rw [(nextRequest_eq_some next).1] at tracks
  rw [(nextRequest_eq_some next).2.1]
  exact ⟨tracks, kept.acknowledging, kept.items, kept.acceptedBits, kept.room⟩

/-- An accepted request becomes known. -/
theorem Kept.acceptFragment {fromPending : Bool} {taken : MqttClient} (kept : m.Kept accepted)
    (next : m.nextRequest = some (req, fromPending, taken))
    (active : m.activeTransferSession ≠ 0) :
    (taken.acceptFragment req fromPending).Kept (accepted ++ [req.seq]) := by
  have tracks := kept.publishing
  rw [(nextRequest_eq_some next).1] at tracks
  rw [acceptFragment_eq next]
  refine ⟨tracks.tail, kept.acknowledging, ?_, ?_, kept.room⟩
  · intro item member
    exact ⟨(kept.items item member).1, List.mem_append_left _ (kept.items item member).2⟩
  · intro seq marked
    refine ⟨active, ?_⟩
    rcases (FragmentBitmap.test_set ..).mp marked with ⟨rfl, _⟩ | old
    · exact List.mem_append_right _ List.mem_cons_self
    · exact List.mem_append_left _ (kept.acceptedBits seq old).2

/-- Acknowledging an accepted request of the active session. -/
theorem Kept.acknowledge (kept : m.Kept accepted) (req : FragmentPublishRequest)
    (active : req.sessionId = m.activeTransferSession) (known : req.seq ∈ accepted)
    (tracked : isTrackableFragment req.seq = true) :
    (m.acknowledge req).Kept accepted := by
  unfold MqttClient.acknowledge
  split
  · exact kept.queueFragmentAck active known tracked
  · exact kept

theorem acknowledge_fields (m : MqttClient) (req : FragmentPublishRequest) :
    (m.acknowledge req).activeTransferSession = m.activeTransferSession ∧
      (m.acknowledge req).waiting = m.waiting := by
  unfold MqttClient.acknowledge MqttClient.queueFragmentAck
  split
  · split
    · exact ⟨rfl, rfl⟩
    · split <;> exact ⟨rfl, rfl⟩
  · exact ⟨rfl, rfl⟩

/-- The publish loop: every request taken leaves the client, becomes known, or waits in
the pending slot. -/
theorem Kept.processLoop (kept : m.Kept accepted) (fuel : Nat) (msgIds : List Int) :
    (processLoop fuel msgIds m).2.Kept
        (accepted ++ (processLoop fuel msgIds m).1.map (·.seq)) ∧
      (processLoop fuel msgIds m).2.activeTransferSession = m.activeTransferSession := by
  induction fuel generalizing m accepted msgIds with
  | zero =>
      unfold MqttClient.processLoop
      rw [List.map_nil, List.append_nil]
      exact ⟨kept, rfl⟩
  | succ fuel inductionHypothesis =>
      unfold MqttClient.processLoop
      split
      · rw [List.map_nil, List.append_nil]
        exact ⟨kept, rfl⟩
      · rename_i req fromPending taken next
        have session : taken.activeTransferSession = m.activeTransferSession := by
          rw [(nextRequest_eq_some next).2.1]
        split
        · have active : (taken.dropStale req fromPending).activeTransferSession =
              m.activeTransferSession := by rw [dropStale_eq next]
          obtain ⟨after, rest⟩ := inductionHypothesis (kept.dropStale next) msgIds
          exact ⟨after, rest.trans active⟩
        · rename_i current
          unfold droppable at current
          rw [session] at current
          simp only [ne_eq, decide_not, Bool.or_eq_true, decide_eq_true_eq,
            Bool.not_eq_true', decide_eq_false_iff_not, not_or, not_not] at current
          split
          · rw [List.map_nil, List.append_nil]
            exact ⟨kept.deferFragment next, session⟩
          · have active : (taken.acceptFragment req fromPending).activeTransferSession =
                m.activeTransferSession := by rw [acceptFragment_eq next]
            have tracked : isTrackableFragment req.seq = true := by
              apply kept.publishing.trackable
              rw [(nextRequest_eq_some next).1]
              exact List.mem_cons_self
            have acknowledged := (kept.acceptFragment next current.1).acknowledge req
              (current.2.trans active.symm) (by simp) tracked
            obtain ⟨after, rest⟩ := inductionHypothesis acknowledged msgIds.tail
            dsimp only
            rw [List.map_cons, List.append_cons]
            exact ⟨after, rest.trans ((acknowledge_fields _ _).1.trans active)⟩

end MqttClient

/-! ## Runs of calls -/

/-- The call is about fragments that the bitmaps can track. -/
def MqttCall.Trackable : MqttCall → Prop
  | .publishFragment _ seq _ _ _ => isTrackableFragment seq = true
  | .markFragmentForRepublish _ seq => isTrackableFragment seq = true
  | _ => True

namespace MqttCalls

variable {s : MqttCalls}

/-- The client is kept, and a drained pair is an accepted fragment of the active
session. -/
structure Sound (s : MqttCalls) : Prop where
  kept : s.client.Kept s.accepted
  drained : ∀ pair ∈ s.drained, pair.1 = s.client.activeTransferSession ∧
    pair.2 ∈ s.accepted ∧ isTrackableFragment pair.2 = true

/-- A call that stays in the session and drains nothing. -/
theorem sound_next {client : MqttClient} {accepted : List FragmentPublishRequest}
    (kept : client.Kept (s.accepted ++ accepted.map (·.seq)))
    (same : client.activeTransferSession = s.client.activeTransferSession) :
    (s.next client none accepted).Sound where
  kept := by
    unfold next
    rw [if_pos same]
    exact kept
  drained _ none := absurd none (by simp [next])

/-- A call that resets the transfer state. -/
theorem sound_reset (client : MqttClient) :
    (s.next client.resetTransferRuntimeState none []).Sound where
  kept := .reset client _
  drained _ none := absurd none (by simp [next])

/-- A call without new publishes that stays in the session and drains nothing. -/
theorem sound_quiet {client : MqttClient} (kept : client.Kept s.accepted)
    (same : client.activeTransferSession = s.client.activeTransferSession) :
    (s.next client none []).Sound := by
  apply sound_next _ same
  rw [List.map_nil, List.append_nil]
  exact kept

theorem activeTransferSession_publishFragment {m : MqttClient} {sessionId seq srcNode : Nat}
    {data filename : Option (List UInt8)} :
    (m.publishFragment sessionId seq srcNode data filename).2.activeTransferSession =
      m.activeTransferSession := by
  unfold MqttClient.publishFragment MqttClient.enqueueFragment MqttClient.queueFragmentAck
  grind

theorem Sound.call {call : MqttCall} (sound : s.Sound) (tracked : call.Trackable) :
    (s.call call).Sound := by
  have kept := sound.kept
  cases call with
  | activateTransferSession sessionId =>
      unfold MqttCalls.call MqttClient.activateTransferSession
      dsimp only
      split
      · exact sound_reset _
      · rename_i same
        have unchanged : { s.client with activeTransferSession := sessionId } = s.client := by
          rw [← not_not.mp same]
        rw [unchanged]
        exact sound_quiet kept rfl
  | clearTransferSession sessionId =>
      unfold MqttCalls.call MqttClient.clearTransferSession
      dsimp only
      split
      · exact sound_reset _
      · exact sound_quiet kept rfl
  | publishFragment sessionId seq srcNode data filename =>
      exact sound_quiet (kept.publishFragment tracked) activeTransferSession_publishFragment
  | processFragmentPublish connected msgIds =>
      unfold MqttCalls.call MqttClient.processFragmentPublish
      dsimp only
      split
      · obtain ⟨after, same⟩ := kept.processLoop (s.client.waiting.length + 1)
          msgIds
        exact sound_next after same
      · exact sound_quiet kept rfl
  | drainFragmentAck sessionId =>
      obtain ⟨after, same, drains⟩ := kept.drainLoop sessionId
        s.client.fragmentAckQueue.length
      refine ⟨(sound_quiet after same).kept, ?_⟩
      rintro ⟨session, seq⟩ found
      obtain ⟨drained, returned, pair⟩ := Option.map_eq_some_iff.mp found
      obtain ⟨rfl, rfl⟩ := Prod.mk.inj pair
      obtain ⟨active, known, inRange⟩ := drains drained returned
      refine ⟨active.trans same.symm, ?_, inRange⟩
      unfold MqttCalls.call MqttCalls.next
      dsimp only
      rw [MqttClient.drainFragmentAck, if_pos same]
      exact List.mem_append_left _ known
  | requeueFragmentAck =>
      unfold MqttCalls.call
      dsimp only
      split
      · rename_i sessionId seq drained
        obtain ⟨active, known, inRange⟩ := sound.drained _ drained
        apply sound_quiet (kept.requeueFragmentAck active known inRange)
        unfold MqttClient.requeueFragmentAck
        split
        · rfl
        · split <;> rfl
      · exact sound
  | markFragmentForRepublish sessionId seq =>
      apply sound_quiet kept.markFragmentForRepublish
      unfold MqttClient.markFragmentForRepublish
      split <;> rfl

theorem sound_boot (nodeAddr : Nat) : (boot nodeAddr).Sound where
  kept := .reset { nodeAddr := nodeAddr } []
  drained _ none := absurd none (by simp [boot])

theorem Sound.run {calls : List MqttCall} (sound : s.Sound)
    (tracked : ∀ call ∈ calls, call.Trackable) : (s.run calls).Sound := by
  induction calls generalizing s with
  | nil => exact sound
  | cons call rest inductionHypothesis =>
      exact inductionHypothesis (sound.call (tracked call List.mem_cons_self))
        fun other member => tracked other (List.mem_cons_of_mem _ member)

/-- After any sequence of complete calls: a fragment's queued bit is set exactly when one
request for it is queued or pending, its pending bit exactly when the acknowledgement
queue holds one item for it, and every item there names a fragment of the active session
that was accepted in that session. -/
theorem custody_acks_sound (nodeAddr : Nat) (calls : List MqttCall)
    (tracked : ∀ call ∈ calls, call.Trackable) :
    let s := (boot nodeAddr).run calls
    (∀ seq, s.client.fragmentQueued.test seq = true ↔
        (s.client.waiting.map (·.seq)).count seq = 1) ∧
      (∀ seq, s.client.fragmentAckPending.test seq = true ↔
        (s.client.fragmentAckQueue.map (·.seq)).count seq = 1) ∧
      ∀ item ∈ s.client.fragmentAckQueue,
        item.sessionId = s.client.activeTransferSession ∧ item.seq ∈ s.accepted := by
  have sound := (sound_boot nodeAddr).run tracked
  exact ⟨sound.kept.publishing.count_eq_one, sound.kept.acknowledging.count_eq_one,
    sound.kept.items⟩

/-- Fragment 3 of session 7 is published on behalf of node 2 and acknowledged. -/
def relayedFragment : List MqttCall :=
  [.activateTransferSession 7, .publishFragment 7 3 2 (some [0x41]) (some []),
    .processFragmentPublish true [0]]

theorem relayed_fragment_sound :
    (∀ call ∈ relayedFragment, call.Trackable) ∧
      ((boot 1).run relayedFragment).client.fragmentAckQueue =
        [{ sessionId := 7, seq := 3 }] ∧
      3 ∈ ((boot 1).run relayedFragment).accepted := by
  have tracked : ∀ call ∈ relayedFragment, call.Trackable := by
    simp [relayedFragment, MqttCall.Trackable, isTrackableFragment,
      maxTrackedTransferFragments]
  have queue : ((boot 1).run relayedFragment).client.fragmentAckQueue =
      [{ sessionId := 7, seq := 3 }] := by decide +kernel
  refine ⟨tracked, queue, ?_⟩
  have item := (custody_acks_sound 1 relayedFragment tracked).2.2 { sessionId := 7, seq := 3 }
  rw [queue] at item
  exact (item List.mem_cons_self).2

end MqttCalls

end ForestLink.Mqtt
