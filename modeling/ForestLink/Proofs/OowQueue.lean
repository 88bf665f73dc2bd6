/-
Module: ForestLink.Proofs.OowQueue
Purpose: The out-of-window retransmit queue over any sequence of `handle_nack` and
  `tick_mesh_arq`: no fragment twice, no overflow, and only what was sent or names no fragment
  leaves it.
Trusted boundary: none
Main exports: standing_tickMeshArq, handleNack_queue, OowHistory.Sound,
  OowHistory.Sound.run, OowDrained
-/
import ForestLink.Proofs.OowArrays
import ForestLink.Proofs.UploadDrained

namespace ForestLink.Mesh

open ForestLink.Lib
open ForestLink.Protocol

namespace TransferEngine

variable {F : Type} {now seq fromAddr : Nat} {e : TransferEngine F}

/-! ## The rest of a tick -/

/-- The queue, and the exits of the transfer. -/
structure OowStanding where
  queue : List (Nat × Nat)
  exitNodes : Nat → Nat
  exitNodeCount : Nat
  exitNodeAlive : Nat → Bool

def oowStanding (e : TransferEngine F) : OowStanding where
  queue := e.oowRetxQueue
  exitNodes := e.transfer.exitNodes
  exitNodeCount := e.transfer.exitNodeCount
  exitNodeAlive := e.transfer.exitNodeAlive

theorem aliveAddress_of_standing {after : TransferEngine F}
    (same : after.oowStanding = e.oowStanding) (dst : Nat) :
    after.AliveAddress dst ↔ e.AliveAddress dst := by
  show (∃ index, (index < after.oowStanding.exitNodeCount ∧
    after.oowStanding.exitNodeAlive index = true) ∧ after.oowStanding.exitNodes index = dst) ↔ _
  rw [same]
  rfl

theorem standing_drainRedist [PathArith F] (e : TransferEngine F) :
    e.drainRedist.oowStanding = e.oowStanding := by
  have entry : ∀ (e : TransferEngine F) (seq : Nat),
      (e.drainRedistEntry seq).oowStanding = e.oowStanding := by
    intro e seq
    unfold drainRedistEntry
    split
    · rfl
    split
    · dsimp only
      split <;> rfl
    · rfl
  have all : ∀ (pending : List Nat) (e : TransferEngine F),
      (pending.foldl drainRedistEntry e).oowStanding = e.oowStanding := by
    intro pending
    induction pending with
    | nil => exact fun _ => rfl
    | cons seq rest inductionHypothesis =>
        exact fun e => (inductionHypothesis (e.drainRedistEntry seq)).trans (entry e seq)
  exact all e.redistPending { e with redistPending := [] }

theorem standing_feed [PathArith F] (now fuel newSent : Nat) (e : TransferEngine F) :
    (feed now fuel newSent e).oowStanding = e.oowStanding := by
  induction fuel generalizing newSent e with
  | zero => rfl
  | succ fuel inductionHypothesis =>
      unfold feed
      dsimp only
      split
      · split
        · rfl
        split
        · split
          · rfl
          · exact (inductionHypothesis _ _).trans rfl
        split
        · exact (inductionHypothesis _ _).trans rfl
        · split
          · rfl
          · exact (inductionHypothesis _ _).trans rfl
      · rfl

theorem standing_feedNew [PathArith F] (e : TransferEngine F) (now : Nat) :
    (e.feedNew now).oowStanding = e.oowStanding := by
  unfold feedNew
  apply (standing_feed _ _ _ _).trans
  unfold refreshWeights
  split <;> rfl

theorem exitNodeCount_of_aliveCount (living : e.aliveCount ≠ 0) : e.transfer.exitNodeCount ≠ 0 := by
  intro none
  apply living
  unfold aliveCount
  rw [none]
  rfl

/-- Behind the drain a tick leaves the queue and the exits alone. -/
theorem standing_tickMeshArq [PathArith F] (living : e.aliveCount ≠ 0) :
    e.tickMeshArq.oowStanding = (e.nowMs.2.drainOow e.nowMs.1).oowStanding := by
  have scheduled : e.scheduleFragments.2.oowStanding =
      (e.nowMs.2.drainOow e.nowMs.1).oowStanding := by
    unfold scheduleFragments
    rw [if_neg (exitNodeCount_of_aliveCount living), if_neg living]
    dsimp only
    split
    · rfl
    split
    · rfl
    split
    · exact standing_drainRedist _
    · exact (standing_feedNew _ _).trans (standing_drainRedist _)
  unfold tickMeshArq checkUploadDrained
  split
  · split <;> exact scheduled
  · exact scheduled

theorem queue_resetSenderTransferState [PathArith F] (e : TransferEngine F) (signal : Bool) :
    (e.resetSenderTransferState signal).oowRetxQueue = [] := by
  unfold resetSenderTransferState
  dsimp only
  split <;> split <;> rfl

/-- Without exits a tick does nothing; when all exits are dead it empties the queue. -/
theorem tickMeshArq_of_dead [PathArith F] (dead : e.aliveCount = 0) :
    if e.transfer.exitNodeCount = 0 then e.tickMeshArq = e
    else e.tickMeshArq.oowRetxQueue = [] := by
  unfold tickMeshArq scheduleFragments
  by_cases none : e.transfer.exitNodeCount = 0
  · rw [if_pos none, if_pos none]
    rfl
  · rw [if_neg none, if_neg none, if_pos dead]
    exact queue_resetSenderTransferState e false

/-! ## Enqueueing -/

/-- A fragment that no window holds is queued. -/
def takesOow (e : TransferEngine F) (seq : Nat) : Bool :=
  e.transfer.active && decide (seq < e.transfer.fragmentCount) &&
    ((e.oowRetxQueue.any fun entry => entry.1 == seq) ||
      !e.nowMs.2.recentlyResent seq e.nowMs.1 &&
        decide (e.oowRetxQueue.length < oowRetxQueueSize))

theorem enqueueOow_queue (e : TransferEngine F) (seq fromAddr : Nat) :
    (e.enqueueOow seq fromAddr).oowRetxQueue =
      if e.takesOow seq then OowArrays.withEntry e.oowRetxQueue seq fromAddr
      else e.oowRetxQueue := by
  unfold enqueueOow OowArrays.withEntry takesOow
  rw [← List.findIdx?_isSome]
  cases e.transfer.active with
  | false => rfl
  | true =>
      by_cases beyond : seq ≥ e.transfer.fragmentCount
      · simp [beyond, Nat.not_lt.mpr beyond]
      · have inside := Nat.not_le.mp beyond
        cases e.oowRetxQueue.findIdx? fun entry => entry.1 == seq with
        | some position => simp [inside, Nat.not_le.mpr inside]
        | none =>
            have clock : e.nowMs.2.oowRetxQueue = e.oowRetxQueue := rfl
            cases recent : e.nowMs.2.recentlyResent seq e.nowMs.1 with
            | true => simp [inside, Nat.not_le.mpr inside, recent, clock]
            | false =>
                by_cases room : e.oowRetxQueue.length < oowRetxQueueSize
                · simp [inside, Nat.not_le.mpr inside, recent, room]
                · simp [inside, Nat.not_le.mpr inside, recent, room, clock]

theorem handleNack_queue (e : TransferEngine F) (seq fromAddr : Nat) :
    (e.handleNack seq fromAddr).oowRetxQueue =
      if e.queuesNack seq fromAddr then OowArrays.withEntry e.oowRetxQueue seq fromAddr
      else e.oowRetxQueue := by
  unfold handleNack
  cases peer : e.arqIndexForPeer fromAddr with
  | none =>
      have ignored : e.queuesNack seq fromAddr = false := by
        unfold queuesNack
        rw [peer]
        rfl
      rw [ignored]
      dsimp only
      split <;> rfl
  | some index =>
      have queues : e.queuesNack seq fromAddr = (!(e.arq index).containsSequence seq &&
          !(e.arqIndexForSequence seq).isSome && e.takesOow seq) := by
        unfold queuesNack takesOow
        rw [peer]
        simp only [Bool.and_assoc]
      rw [queues]
      dsimp only
      cases (e.arq index).containsSequence seq with
      | true => rfl
      | false =>
          cases (e.arqIndexForSequence seq).isSome with
          | true => rfl
          | false => exact enqueueOow_queue e seq fromAddr

end TransferEngine

namespace OowArrays

variable {queue : List (Nat × Nat)} {seq fromAddr : Nat} {entry : Nat × Nat}

theorem map_set_of_found {position : Nat}
    (found : queue.findIdx? (fun entry => entry.1 == seq) = some position) :
    (queue.set position (seq, fromAddr)).map Prod.fst = queue.map Prod.fst := by
  obtain ⟨inside, same, _⟩ := List.findIdx?_eq_some_iff_getElem.mp found
  have place : position < (queue.map Prod.fst).length := by
    rw [List.length_map]
    exact inside
  have value : (queue.map Prod.fst)[position] = seq := by
    rw [List.getElem_map]
    exact beq_iff_eq.mp same
  rw [List.map_set]
  dsimp only
  rw [← value, List.set_getElem_self place]

theorem not_mem_of_not_found
    (missing : queue.findIdx? (fun entry => entry.1 == seq) = none) :
    seq ∉ queue.map Prod.fst := by
  intro member
  obtain ⟨entry, held, rfl⟩ := List.mem_map.mp member
  have other := List.findIdx?_eq_none_iff.mp missing entry held
  rw [beq_self_eq_true] at other
  exact Bool.noConfusion other

theorem withEntry_nodup (seq fromAddr : Nat) (distinct : (queue.map Prod.fst).Nodup) :
    ((withEntry queue seq fromAddr).map Prod.fst).Nodup := by
  unfold withEntry
  split
  · rename_i position found
    rw [map_set_of_found found]
    exact distinct
  · rename_i missing
    split
    · rw [List.map_append]
      exact List.Nodup.append distinct (List.nodup_singleton seq)
        (List.disjoint_singleton.mpr (not_mem_of_not_found missing))
    · exact distinct

/-- The other entries are as they were. -/
theorem mem_withEntry (distinct : (queue.map Prod.fst).Nodup)
    (member : entry ∈ withEntry queue seq fromAddr) :
    entry = (seq, fromAddr) ∨ entry ∈ queue ∧ entry.1 ≠ seq := by
  have still := withEntry_nodup seq fromAddr distinct
  unfold withEntry at member still
  split at member
  · rename_i position found
    rw [found] at still
    obtain ⟨inside, _⟩ := List.findIdx?_eq_some_iff_getElem.mp found
    have written : (seq, fromAddr) ∈ queue.set position (seq, fromAddr) :=
      List.mem_set inside _
    by_cases same : entry.1 = seq
    · exact .inl (List.inj_on_of_nodup_map still member written same)
    · rcases List.mem_or_eq_of_mem_set member with old | new
      · exact .inr ⟨old, same⟩
      · exact .inl new
  · rename_i missing
    have other : ∀ old ∈ queue, old.1 ≠ seq := fun old held same =>
      not_mem_of_not_found missing (same ▸ List.mem_map_of_mem held)
    split at member
    · rcases List.mem_append.mp member with old | new
      · exact .inr ⟨old, other entry old⟩
      · exact .inl (List.mem_singleton.mp new)
    · exact .inr ⟨member, other entry member⟩

end OowArrays

/-! ## One drain -/

namespace TransferEngine

variable {F : Type} {now : Nat} {e : TransferEngine F}

/-- Every read for a parity that the drain regenerates returns something. -/
def DrainReadable (e : TransferEngine F) (now : Nat) : Prop :=
  ∀ v ∈ visits (e.drainVisit now) e.oowRetxQueue (0, e),
    decide (sub32 now e.lastOowRetxMs ≥ e.oowPolicy.2) = true ∧ v.1.1 < e.oowPolicy.1 →
      v.1.2.ParityReadable v.2.1

/-- What becomes of the queue when a drain sends the fragments in `sends`. -/
structure OowDrained (e after : TransferEngine F) (sends : List Nat) : Prop where
  removed : ∀ seq ∈ sends, seq ∉ after.oowRetxQueue.map Prod.fst
  accounted : ∀ seq ∈ e.oowRetxQueue.map Prod.fst,
    seq ∈ after.oowRetxQueue.map Prod.fst ∨ seq ∈ sends ∨ e.namesNoFragment seq = true
  budget : sends.length ≤ e.oowPolicy.1
  order : (after.oowRetxQueue.map Prod.fst).Sublist (e.oowRetxQueue.map Prod.fst)
  destination : ∀ entry ∈ after.oowRetxQueue,
    entry ∈ e.oowRetxQueue ∨ e.AliveAddress entry.2

theorem drainOow_of_noFile (now : Nat) (noFile : e.transfer.readChunk.isNone = true) :
    e.drainOow now = e := by
  unfold drainOow
  rw [if_pos (.inr noFile)]

theorem drainOow_order (e : TransferEngine F) (now : Nat) :
    ((e.drainOow now).oowRetxQueue.map Prod.fst).Sublist (e.oowRetxQueue.map Prod.fst) := by
  cases file : e.transfer.readChunk.isNone with
  | true =>
      rw [drainOow_of_noFile now file]
  | false =>
      rw [drainOow_eq file]
      exact compact_sublist (keepsKey_visitOow _ _ _) e.oowRetxQueue (0, e)

theorem drainOow_destination (alive : ∃ index, e.ExitAlive index) {entry : Nat × Nat}
    (kept : entry ∈ (e.drainOow now).oowRetxQueue) :
    entry ∈ e.oowRetxQueue ∨ e.AliveAddress entry.2 := by
  cases file : e.transfer.readChunk.isNone with
  | true =>
      rw [drainOow_of_noFile now file] at kept
      exact .inl kept
  | false =>
      rw [drainOow_eq file] at kept
      exact compact_destination _ _ _ alive kept

/-- Every entry is kept, sent once, or names no fragment. -/
theorem drainOow_drained (distinct : (e.oowRetxQueue.map Prod.fst).Nodup)
    (alive : ∃ index, e.ExitAlive index) (readable : e.DrainReadable now) :
    ∃ recent, (e.drainOow now).io.outputs = recent ++ e.io.outputs ∧
      OowDrained e (e.drainOow now) (recent.filterMap acceptedData) := by
  have order := drainOow_order e now
  have destination : ∀ entry ∈ (e.drainOow now).oowRetxQueue, _ :=
    fun entry => drainOow_destination alive
  cases file : e.transfer.readChunk.isNone with
  | true =>
      have still := drainOow_of_noFile now file
      refine ⟨[], by rw [still]; rfl, ?_, ?_, Nat.zero_le _, order, destination⟩
      · exact fun _ sent => absurd sent List.not_mem_nil
      · intro seq member
        rw [still]
        exact .inl member
  | false =>
      obtain ⟨recent, dropped, account⟩ := compact_account now e.oowPolicy.1
        (decide (sub32 now e.lastOowRetxMs ≥ e.oowPolicy.2)) readable
      have bound := compact_budget now e.oowPolicy.1
        (decide (sub32 now e.lastOowRetxMs ≥ e.oowPolicy.2)) e.oowRetxQueue (s := (0, e))
        (Nat.zero_le _)
      rw [account.sends, Nat.zero_add] at bound
      have queue : (e.drainOow now).oowRetxQueue =
          (compact (e.drainVisit now) e.oowRetxQueue (0, e)).1 := by rw [drainOow_eq file]; rfl
      have shares := account.shares
      have apart := shares.nodup_iff.mp distinct
      refine ⟨recent, ?_, ?_, ?_, bound, order, destination⟩
      · rw [drainOow_eq file]
        exact account.outputs
      · intro seq sent kept
        rw [queue] at kept
        have first := (List.nodup_append.mp apart).1
        exact (List.nodup_append.mp first).2.2 seq kept seq sent rfl
      · intro seq member
        rw [queue]
        have share := shares.mem_iff.mp member
        rw [List.mem_append, List.mem_append] at share
        rcases share with (kept | sent) | gone
        · exact .inl kept
        · exact .inr (.inl sent)
        · exact .inr (.inr (account.unnamed seq gone))

end TransferEngine

/-! ## Every sequence of calls -/

namespace OowHistory

variable {F : Type} {h : OowHistory F}

/-- What holds between two calls. -/
structure Sound (h : OowHistory F) : Prop where
  shown : h.arrays.Shows h.engine.oowRetxQueue
  distinct : (h.engine.oowRetxQueue.map Prod.fst).Nodup
  destination : ∀ entry ∈ h.engine.oowRetxQueue,
    entry.2 = h.queuedFor entry.1 ∨ h.engine.AliveAddress entry.2

namespace Sound

theorem of_empty {e : TransferEngine F} (empty : e.oowRetxQueue = []) :
    Sound { engine := e } where
  shown := by
    rw [empty]
    exact ⟨⟨List.length_replicate, List.length_replicate⟩, Nat.zero_le _, rfl⟩
  distinct := by
    rw [empty]
    exact .nil
  destination entry member := by
    rw [show ({ engine := e } : OowHistory F).engine.oowRetxQueue = [] from empty] at member
    exact absurd member List.not_mem_nil

theorem nack [PathArith F] (sound : h.Sound) (env : Env) (seq fromAddr : Nat) :
    Sound (h.step (.nack env seq fromAddr)) := by
  have queue := TransferEngine.handleNack_queue (h.engine.setEnv env) seq fromAddr
  have exits : ∀ dst, ((h.engine.setEnv env).handleNack seq fromAddr).AliveAddress dst ↔
      h.engine.AliveAddress dst := TransferEngine.aliveAddress_congr
    (TransferEngine.keeps_handleNack (h.engine.setEnv env) seq fromAddr).transfer
  unfold step
  dsimp only
  split
  · rename_i queued
    rw [if_pos queued] at queue
    refine ⟨?_, ?_, ?_⟩ <;> dsimp only <;> rw [queue]
    · exact sound.shown.enqueue seq fromAddr
    · exact OowArrays.withEntry_nodup seq fromAddr sound.distinct
    · intro entry member
      rcases OowArrays.mem_withEntry sound.distinct member with rfl | ⟨old, other⟩
      · exact .inl (Function.update_self seq fromAddr h.queuedFor).symm
      · rw [Function.update_of_ne other, exits]
        exact sound.destination entry old
  · rename_i ignored
    rw [if_neg ignored] at queue
    refine ⟨?_, ?_, ?_⟩ <;> dsimp only <;> rw [queue]
    · exact sound.shown
    · exact sound.distinct
    · intro entry member
      rw [exits]
      exact sound.destination entry member

theorem tick [PathArith F] (sound : h.Sound) (env : Env) : Sound (h.step (.tick env)) := by
  unfold step
  dsimp only
  by_cases living : (h.engine.setEnv env).aliveCount = 0
  · have idle := TransferEngine.tickMeshArq_of_dead living
    by_cases none : (h.engine.setEnv env).transfer.exitNodeCount = 0
    · rw [if_pos none] at idle ⊢
      rw [idle]
      exact ⟨sound.shown, sound.distinct, sound.destination⟩
    · rw [if_neg none] at idle ⊢
      rw [if_pos living]
      refine ⟨?_, ?_, ?_⟩ <;> dsimp only <;> rw [idle]
      · exact sound.shown.clear
      · exact .nil
      · exact fun _ member => absurd member List.not_mem_nil
  · rw [if_neg (TransferEngine.exitNodeCount_of_aliveCount living), if_neg living]
    have standing := TransferEngine.standing_tickMeshArq living
    have queue := congrArg TransferEngine.OowStanding.queue standing
    have exits : ∀ dst, (h.engine.setEnv env).tickMeshArq.AliveAddress dst ↔
        h.engine.AliveAddress dst := fun dst =>
      (TransferEngine.aliveAddress_of_standing standing dst).trans
        (TransferEngine.aliveAddress_congr (TransferEngine.keeps_drainOow _ _).transfer dst)
    have order := TransferEngine.drainOow_order (h.engine.setEnv env).nowMs.2
      (h.engine.setEnv env).nowMs.1
    have alive : ∃ index, (h.engine.setEnv env).nowMs.2.ExitAlive index :=
      TransferEngine.exists_alive_of_aliveCount living
    refine ⟨?_, ?_, ?_⟩ <;> dsimp only <;>
      rw [show (h.engine.setEnv env).tickMeshArq.oowRetxQueue = _ from queue]
    · exact OowArrays.Shows.drain sound.shown
    · exact order.nodup sound.distinct
    · intro entry kept
      rw [exits]
      rcases TransferEngine.drainOow_destination alive kept with old | alive
      · exact sound.destination entry old
      · exact .inr alive

theorem run [PathArith F] (sound : h.Sound) (actions : List OowAction) : Sound (h.run actions) := by
  induction actions generalizing h with
  | nil => exact sound
  | cons action rest inductionHypothesis =>
      apply inductionHypothesis (h := h.step action)
      cases action with
      | nack env seq fromAddr => exact sound.nack env seq fromAddr
      | tick env => exact sound.tick env

end Sound

/-- From an empty queue on, in every state: no fragment twice, no overflow, and every entry for the
exit it was last queued for or for an alive one.  A drain removes what it sent and otherwise only
entries that name no fragment. -/
theorem oow_queue_settles [PathArith F] (e : TransferEngine F) (empty : e.oowRetxQueue = [])
    (actions : List OowAction) :
    let h := OowHistory.run { engine := e } actions
    h.arrays.view = h.engine.oowRetxQueue ∧
      (h.arrays.view.map Prod.fst).Nodup ∧
      h.arrays.view.length = h.arrays.count ∧ h.arrays.count ≤ 1024 ∧
      (∀ entry ∈ h.arrays.view,
        entry.2 = h.queuedFor entry.1 ∨ h.engine.AliveAddress entry.2) ∧
      ∀ env : Env, (h.engine.setEnv env).aliveCount ≠ 0 →
        let clock := (h.engine.setEnv env).nowMs
        let drained := clock.2.drainOow clock.1
        (h.step (.tick env)).arrays.view = drained.oowRetxQueue ∧
          (clock.2.DrainReadable clock.1 →
            ∃ recent, drained.io.outputs = recent ++ clock.2.io.outputs ∧
              TransferEngine.OowDrained clock.2 drained
                (recent.filterMap TransferEngine.acceptedData)) := by
  intro h
  have sound : h.Sound := (Sound.of_empty empty).run actions
  have view := sound.shown.view
  refine ⟨view, ?_, ?_, sound.shown.bound, ?_, ?_⟩
  · rw [view]
    exact sound.distinct
  · rw [view]
    exact sound.shown.count
  · rw [view]
    exact sound.destination
  · intro env living clock drained
    have alive : ∃ index, clock.2.ExitAlive index :=
      TransferEngine.exists_alive_of_aliveCount living
    constructor
    · rw [(sound.tick env).shown.view]
      exact congrArg TransferEngine.OowStanding.queue (TransferEngine.standing_tickMeshArq living)
    · exact TransferEngine.drainOow_drained sound.distinct alive

/-- A sender whose file of two fragments goes to one exit. -/
def uploadingEngine : TransferEngine ℚ :=
  { TransferEngine.boot 1 2 with
    transfer :=
      { active := true
        readChunk := some fun _ len => List.replicate len 0
        size := 40
        fragmentSize := 20
        fragmentCount := 3
        exitNodes := fun _ => 7
        exitNodeCount := 1 } }

/-- Both fragments are asked for again, and the next tick resends them. -/
theorem oow_queue_settles_two_nacks :
    let h := run { engine := uploadingEngine } [.nack {} 1 7, .nack {} 0 7]
    let clock := (h.engine.setEnv { clock := fun _ => 100 }).nowMs
    let drained := clock.2.drainOow clock.1
    h.arrays.view = [(1, 7), (0, 7)] ∧ (h.arrays.view.map Prod.fst).Nodup ∧
      drained.oowRetxQueue = [] ∧
      ∃ recent, drained.io.outputs = recent ++ clock.2.io.outputs ∧
        TransferEngine.OowDrained clock.2 drained
          (recent.filterMap TransferEngine.acceptedData) := by
  obtain ⟨_, distinct, _, _, _, ticks⟩ :=
    oow_queue_settles uploadingEngine rfl [.nack {} 1 7, .nack {} 0 7]
  obtain ⟨_, settled⟩ := ticks { clock := fun _ => 100 } (by decide +kernel)
  refine ⟨by decide +kernel, distinct, by decide +kernel, settled ?_⟩
  intro v visited _ parity
  have queue : (run { engine := uploadingEngine }
      [.nack {} 1 7, .nack {} 0 7]).engine.oowRetxQueue = [(1, 7), (0, 7)] := by decide +kernel
  have member := visits_mem visited
  have data : ∀ entry ∈ [(1, 7), (0, 7)], isParitySlot entry.1 = false := by decide
  rw [data v.2 (queue ▸ member)] at parity
  exact Bool.noConfusion parity

end OowHistory

end ForestLink.Mesh
