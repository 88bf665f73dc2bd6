/-
Module: ForestLink.Proofs.UploadDrained
Purpose: When the completion flag of a mesh upload is right: in every run in which no
  completion test finds only fragments in the redistribution queue whose resends are
  all refused.
Trusted boundary: none
Main exports: Drained, Strands, upload_drained_iff_not_stranded
-/
import ForestLink.Proofs.MeshStages

namespace ForestLink.Mesh.TransferEngine

open ForestLink.Lib
open ForestLink.Lib.Dispatch
open ForestLink.Protocol

variable {F : Type} {e after : TransferEngine F} {held : List Nat}

/-! ## What the flag promises -/

/-- No alive window holds a fragment, none waits for redistribution, and every data
fragment has been acknowledged. -/
structure Drained (e : TransferEngine F) : Prop where
  windows : ∀ index, e.ExitAlive index → (e.arq index).pending = ∅
  redist : e.redistPending = []
  acked : ∀ seq < e.transfer.fragmentCount, isParitySlot seq = false → seq ∈ e.acked

/-- The resends of these fragments, one after the other from idle windows, all fail:
each is unreadable, too long, or refused by the radio. -/
def refusesResends : List Nat → TransferEngine F → Bool
  | [], _ => true
  | seq :: rest, e =>
      let chunk := e.readFragment seq
      if chunk.1 = [] ∨ espnowMaxPayload < chunk.1.length then refusesResends rest chunk.2
      else
        let sent := chunk.2.nowMs.2.sendPacket broadcastAddr .data chunk.1 seq
        decide (sent.1 < 0) && refusesResends rest sent.2

/-- All windows of alive exits are empty. -/
def Idle (e : TransferEngine F) : Prop :=
  ∀ index, e.ExitAlive index → (e.arq index).senderWindowUsed = 0

/-- At the begin of `tick_mesh_arq`: nothing is left to feed and no alive exit holds a
fragment, but fragments wait for redistribution and all their resends of this tick, after
the out-of-window ones, will be refused. -/
def Strands (e : TransferEngine F) : Prop :=
  e.redistPending ≠ [] ∧ e.transfer.fragmentCount ≤ e.transfer.nextFragment ∧ e.Idle ∧
    refusesResends e.redistPending (e.nowMs.2.drainOow e.nowMs.1) = true

/-! ## Idle windows -/

theorem KeepsFragments.idle (keeps : KeepsFragments e after) (idle : after.Idle) : e.Idle := by
  intro index alive
  rw [ExitAlive, ← keeps.transfer] at alive
  exact (keeps.arq index).inFlight.symm.trans (idle index alive)

namespace Mirrors

theorem inFlight_eq_zero_iff (mirrors : Mirrors e held) (index : Nat) :
    (e.arq index).senderWindowUsed = 0 ↔ (e.arq index).pending = ∅ :=
  (mirrors.wf index).pending_eq_empty_iff.symm

/-- Dead windows are empty anyway. -/
theorem inFlight_of_idle (mirrors : Mirrors e held) (idle : e.Idle) (index : Nat) :
    (e.arq index).inFlight = 0 := by
  by_cases alive : e.ExitAlive index
  · exact idle index alive
  · have dead : index ∉ e.board.live := fun member => alive ((mirrors.live index).mp member)
    apply (mirrors.inFlight_eq_zero_iff index).mpr
    rw [← mirrors.window, mirrors.sound.idle index dead]

theorem totalMeshInflight_of_idle (mirrors : Mirrors e held) (idle : e.Idle) :
    e.totalMeshInflight = 0 := by
  unfold totalMeshInflight
  rw [List.sum_eq_zero]
  intro used member
  obtain ⟨index, _, rfl⟩ := List.mem_map.mp member
  exact mirrors.inFlight_of_idle idle index

variable [PathArith F]

/-- With idle windows every fragment finds a target. -/
theorem select_of_idle (mirrors : Mirrors e held) (idle : e.Idle)
    (alive : ∃ index, e.ExitAlive index) (wide : 0 < e.meshWindowCap) (seq : Nat) :
    ∃ target, e.selectMeshTargetForSeq seq = some target := by
  obtain ⟨index, inRange, isAlive⟩ := alive
  have free := mirrors.inFlight_of_idle idle index
  have perExit : 0 < e.meshWindowCapPerExit := by
    unfold meshWindowCapPerExit
    exact Nat.lt_min.mpr ⟨lt_of_lt_of_le (by decide) (Nat.le_max_right _ 8), by decide⟩
  have eligible : index ∈ e.eligibleExits seq := by
    unfold eligibleExits
    rw [List.mem_filter, List.mem_range]
    refine ⟨inRange, ?_⟩
    have used : (e.arq index).senderWindowUsed = 0 := free
    simp [isAlive, SelectiveRepeat.canSendSequence_idle (mirrors.wf index) free, used, perExit]
  unfold selectMeshTargetForSeq
  rw [mirrors.totalMeshInflight_of_idle idle, if_neg (Nat.not_le.mpr wide)]
  dsimp only
  cases chosen : (List.foldl _ _ _ : Option Nat × F).1 with
  | some target => exact ⟨target, rfl⟩
  | none =>
      cases exits : e.eligibleExits seq with
      | nil =>
          rw [exits] at eligible
          exact absurd eligible List.not_mem_nil
      | cons first rest => exact ⟨first, rfl⟩

end Mirrors

theorem exists_alive_of_aliveCount (some : e.aliveCount ≠ 0) : ∃ index, e.ExitAlive index := by
  have filled : (List.range e.transfer.exitNodeCount).filter e.transfer.exitNodeAlive ≠ [] :=
    fun none => some (congrArg List.length none)
  obtain ⟨index, member⟩ := List.exists_mem_of_ne_nil _ filled
  rw [List.mem_filter, List.mem_range] at member
  exact ⟨index, member⟩

theorem idle_of_uploadDrained (drained : e.uploadDrained = true) :
    e.transfer.fragmentCount ≤ e.transfer.nextFragment ∧ e.Idle := by
  simp only [uploadDrained, Bool.and_eq_true, decide_eq_true_eq, List.all_eq_true,
    List.mem_range, Bool.or_eq_true, Bool.not_eq_true', beq_iff_eq] at drained
  refine ⟨drained.1, fun index alive => ?_⟩
  rcases drained.2 index alive.1 with dead | empty
  · rw [alive.2] at dead
    contradiction
  · exact empty

/-! ## Refused resends -/

/-- Reads and sends go by the file and the surroundings only. -/
theorem readFragment_congr {other : TransferEngine F} (transfer : other.transfer = e.transfer)
    (env : other.io.env = e.io.env) (seq : Nat) :
    (other.readFragment seq).1 = (e.readFragment seq).1 ∧
      (other.readFragment seq).2.io.env = (e.readFragment seq).2.io.env := by
  unfold readFragment Io.readChunk
  rw [transfer, env]
  dsimp only
  split
  · exact ⟨rfl, env⟩
  · exact ⟨rfl, rfl⟩

theorem sendPacket_congr {io other : Io} (env : other.env = io.env) (dst dst' : Nat)
    (payload : List UInt8) (seq : Nat) :
    (other.sendPacket dst .data payload seq).1 = (io.sendPacket dst' .data payload seq).1 ∧
      (other.sendPacket dst .data payload seq).2.env =
        (io.sendPacket dst' .data payload seq).2.env := by
  unfold Io.sendPacket Io.noteLocalBackpressure
  rw [env]
  dsimp only
  split <;> exact ⟨rfl, rfl⟩

theorem refusesResends_congr {seqs : List Nat} {other : TransferEngine F}
    (transfer : other.transfer = e.transfer) (env : other.io.env = e.io.env) :
    refusesResends seqs other = refusesResends seqs e := by
  induction seqs generalizing e other with
  | nil => rfl
  | cons seq rest inductionHypothesis =>
      obtain ⟨data, read⟩ := readFragment_congr transfer env seq
      have kept : (other.readFragment seq).2.transfer = (e.readFragment seq).2.transfer := transfer
      have clock : (other.readFragment seq).2.nowMs.2.io.env =
          (e.readFragment seq).2.nowMs.2.io.env := by
        unfold TransferEngine.nowMs Io.nowMs
        dsimp only
        rw [read]
      obtain ⟨result, sent⟩ := sendPacket_congr clock broadcastAddr broadcastAddr
        (e.readFragment seq).1 seq
      unfold refusesResends
      dsimp only
      rw [data, inductionHypothesis kept read]
      have same : ((other.readFragment seq).2.nowMs.2.sendPacket broadcastAddr .data
          (e.readFragment seq).1 seq).1 = ((e.readFragment seq).2.nowMs.2.sendPacket
          broadcastAddr .data (e.readFragment seq).1 seq).1 := result
      have behind : refusesResends rest ((other.readFragment seq).2.nowMs.2.sendPacket
          broadcastAddr .data (e.readFragment seq).1 seq).2 =
          refusesResends rest ((e.readFragment seq).2.nowMs.2.sendPacket broadcastAddr .data
            (e.readFragment seq).1 seq).2 := inductionHypothesis kept sent
      rw [same, behind]

/-- An accepted fragment is in the window of its exit. -/
theorem Mirrors.not_idle_of_accepted {target seq : Nat} {data : List UInt8}
    (mirrors : Mirrors e held) (small : seq < noSeqTag)
    (accepted : ¬ (e.sendFragment target seq data).1 < 0)
    (arq : after.arq = (e.sendFragment target seq data).2.arq)
    (alive : after.ExitAlive target) : ¬ after.Idle := by
  intro idle
  obtain ⟨shape, _, outcome⟩ := mirrors.sendFragment_windows target small data
  have used := idle target alive
  rw [arq] at used
  have empty := (shape target).1.pending_eq_empty_iff.mpr used
  rcases outcome with ⟨_, added⟩ | ⟨failed, _⟩
  · rw [added] at empty
    exact absurd empty (Finset.insert_ne_empty _ _)
  · exact accepted (by rw [failed]; decide)

/-- A refused fragment leaves the windows as they were. -/
theorem Mirrors.idle_of_refused {target seq : Nat} {data : List UInt8}
    (mirrors : Mirrors e held) (small : seq < noSeqTag)
    (failed : (e.sendFragment target seq data).1 < 0)
    (arq : after.arq = (e.sendFragment target seq data).2.arq)
    (transfer : after.transfer = e.transfer) (idle : after.Idle) : e.Idle := by
  intro index isAlive
  obtain ⟨shape, others, outcome⟩ := mirrors.sendFragment_windows target small data
  have used := idle index (by
    unfold ExitAlive
    rw [transfer]
    exact isAlive)
  rw [arq] at used
  have empty := (shape index).1.pending_eq_empty_iff.mpr used
  apply (mirrors.inFlight_eq_zero_iff index).mpr
  by_cases isTarget : index = target
  · subst isTarget
    rcases outcome with ⟨zero, _⟩ | ⟨_, kept⟩
    · exact absurd failed (by rw [zero]; decide)
    · exact kept.symm.trans empty
  · exact (others index isTarget).symm.trans empty

section Redistribution

variable [PathArith F]

/-- If all windows are idle after one entry of the redistribution queue, they were idle
before it, and the entry was refused and kept. -/
theorem Mirrors.idle_drainRedistEntry {seq : Nat} (mirrors : Mirrors e (seq :: held))
    (alive : ∃ index, e.ExitAlive index) (wide : 0 < e.meshWindowCap)
    (idle : (e.drainRedistEntry seq).Idle) :
    e.Idle ∧ (e.drainRedistEntry seq).redistPending = e.redistPending ++ [seq] ∧
      ∀ rest, refusesResends rest (e.drainRedistEntry seq) = true →
        refusesResends (seq :: rest) e = true := by
  have small : seq < noSeqTag := mirrors.lt_of_waiting (by
    rw [mirrors.waiting]
    simp)
  have read : Mirrors (e.readFragment seq).2 (seq :: held) :=
    mirrors.of_keeps (keeps_readFragment e seq)
  unfold TransferEngine.drainRedistEntry at idle ⊢
  split
  · rename_i nothing
    rw [nothing] at idle
    have before : e.Idle := idle
    obtain ⟨target, selected⟩ := mirrors.select_of_idle before alive wide seq
    rw [nothing] at selected
    contradiction
  rename_i target selected
  rw [selected] at idle
  obtain ⟨_, live⟩ := selectMeshTargetForSeq_spec selected
  dsimp only at idle ⊢
  split
  swap
  · rename_i cannot
    rw [if_neg cannot] at idle
    have before : e.Idle := idle
    have can := SelectiveRepeat.canSendSequence_idle (mirrors.wf target)
      (mirrors.inFlight_of_idle before target) seq
    exact absurd can cannot
  rename_i can
  rw [if_pos can] at idle
  split
  swap
  · rename_i accepted
    rw [if_neg accepted] at idle
    exact absurd idle (read.not_idle_of_accepted small accepted rfl live)
  rename_i failed
  rw [if_pos failed] at idle
  have before : e.Idle := read.idle_of_refused small failed rfl rfl idle
  refine ⟨before, rfl, fun rest refused => ?_⟩
  obtain ⟨bad, good⟩ := SelectiveRepeat.sendFragment_idle Io.radio (mirrors.wf target)
    (mirrors.inFlight_of_idle before target) (e.readFragment seq).2.io seq (e.readFragment seq).1
  unfold refusesResends
  dsimp only
  split
  · rename_i unsendable
    have env : ((e.readFragment seq).2.sendFragment target seq
        (e.readFragment seq).1).2.io.env = (e.readFragment seq).2.io.env :=
      congrArg Io.env (bad unsendable).2
    have same : refusesResends rest (((e.readFragment seq).2.sendFragment target seq
        (e.readFragment seq).1).2.keepRedist seq) =
        refusesResends rest (e.readFragment seq).2 := refusesResends_congr rfl env
    rw [← same]
    exact refused
  · rename_i sendable
    obtain ⟨iff, io⟩ := good sendable
    obtain ⟨result, env⟩ := sendPacket_congr (rfl : (e.readFragment seq).2.nowMs.2.io.env = _)
      broadcastAddr (e.arq target).peerAddr (e.readFragment seq).1 seq
    have negative := iff.mp failed
    rw [Bool.and_eq_true]
    constructor
    · rw [decide_eq_true_eq]
      exact lt_of_eq_of_lt result negative
    · have same : refusesResends rest ((e.readFragment seq).2.nowMs.2.sendPacket broadcastAddr
          .data (e.readFragment seq).1 seq).2 = refusesResends rest
          (((e.readFragment seq).2.sendFragment target seq (e.readFragment seq).1).2.keepRedist
            seq) := refusesResends_congr rfl (env.trans (congrArg Io.env io).symm)
      rw [same]
      exact refused

theorem Mirrors.idle_drainRedistEntries {seqs : List Nat} (mirrors : Mirrors e seqs)
    (alive : ∃ index, e.ExitAlive index) (wide : 0 < e.meshWindowCap)
    (idle : (seqs.foldl TransferEngine.drainRedistEntry e).Idle) :
    e.Idle ∧ refusesResends seqs e = true ∧
      (seqs.foldl TransferEngine.drainRedistEntry e).redistPending = e.redistPending ++ seqs := by
  induction seqs generalizing e with
  | nil => exact ⟨idle, rfl, (List.append_nil _).symm⟩
  | cons seq rest inductionHypothesis =>
      obtain ⟨entry, role, transfer⟩ := mirrors.drainRedistEntry
      have stillAlive : ∃ index, (e.drainRedistEntry seq).ExitAlive index := by
        unfold ExitAlive
        rw [transfer]
        exact alive
      have stillWide : 0 < (e.drainRedistEntry seq).meshWindowCap := by
        have cap : (e.drainRedistEntry seq).meshWindowCap = e.meshWindowCap :=
          congrArg Role.meshWindowCap role
        rw [cap]
        exact wide
      obtain ⟨after, refused, queue⟩ := inductionHypothesis entry stillAlive stillWide idle
      obtain ⟨before, kept, chain⟩ := mirrors.idle_drainRedistEntry alive wide after
      refine ⟨before, chain rest refused, ?_⟩
      rw [List.foldl_cons, queue, kept, List.append_assoc]
      rfl

/-! ## The feed -/

/-- One new fragment ends the feed of a tick. -/
theorem feed_full (now fuel : Nat) (e : TransferEngine F) : feed now fuel (0 + 1) e = e := by
  cases fuel with
  | zero => rfl
  | succ fuel =>
      unfold feed
      dsimp only
      rw [if_neg (fun more => absurd more.2 (by decide))]

/-- If all windows are idle after the feed, it sent nothing. -/
theorem Mirrors.idle_feed (now fuel : Nat) (mirrors : Mirrors e [])
    (scheduled : Scheduled e.role) (idle : (TransferEngine.feed now fuel 0 e).Idle) :
    e.Idle ∧ (TransferEngine.feed now fuel 0 e).transfer = e.transfer ∧
      (TransferEngine.feed now fuel 0 e).redistPending = e.redistPending := by
  cases fuel with
  | zero => exact ⟨idle, rfl, rfl⟩
  | succ fuel =>
      unfold TransferEngine.feed at idle ⊢
      dsimp only at idle ⊢
      split
      swap
      · rename_i nothing
        rw [if_neg nothing] at idle
        exact ⟨idle, rfl, rfl⟩
      rename_i more
      rw [if_pos more] at idle
      split
      · rename_i nothing
        rw [nothing] at idle
        exact ⟨idle, rfl, rfl⟩
      rename_i index selected
      rw [selected] at idle
      dsimp only at idle
      obtain ⟨_, live⟩ := selectMeshTargetForSeq_spec selected
      have busy : e.role.exitNodeCount ≠ 0 := Nat.ne_of_gt (Nat.zero_lt_of_lt live.1)
      obtain ⟨active, _, meshPath⟩ := scheduled.exits busy
      obtain ⟨countBound, inFile⟩ := scheduled.layout active meshPath
      have small : e.transfer.nextFragment < noSeqTag :=
        (lt_of_lt_of_le more.1 countBound).trans (by decide)
      split
      · rename_i parity
        rw [if_pos parity] at idle
        split
        · rename_i failed
          rw [if_pos failed] at idle
          exact ⟨mirrors.idle_of_refused small failed rfl rfl idle, rfl, rfl⟩
        · rename_i accepted
          rw [if_neg accepted, feed_full] at idle
          exact absurd idle (mirrors.not_idle_of_accepted small accepted rfl live)
      · rename_i notParity
        rw [if_neg notParity] at idle
        have data : isParitySlot e.transfer.nextFragment = false := by simpa using notParity
        split
        · rename_i behindEnd
          exact absurd (inFile _ more.1 data) (Nat.not_lt.mpr behindEnd)
        rename_i inside
        rw [if_neg inside] at idle
        have read : Mirrors (e.readFragment e.transfer.nextFragment).2 [] :=
          mirrors.of_keeps (keeps_readFragment e _)
        split
        · rename_i failed
          rw [if_pos failed] at idle
          have before : (e.readFragment e.transfer.nextFragment).2.Idle :=
            read.idle_of_refused small failed rfl rfl idle
          exact ⟨before, rfl, rfl⟩
        · rename_i accepted
          rw [if_neg accepted, feed_full] at idle
          exact absurd idle (read.not_idle_of_accepted small accepted rfl live)

/-! ## The completion test -/

/-- Nothing but the resends and the feed happens between the out-of-window queue and a
completion test that is reached. -/
theorem scheduleFragments_reached (reached : e.scheduleFragments.1 = true) :
    (∃ index, e.ExitAlive index) ∧
      e.scheduleFragments.2 = (e.nowMs.2.drainOow e.nowMs.1).drainRedist.feedNew e.nowMs.1 := by
  unfold scheduleFragments at reached ⊢
  dsimp only at reached ⊢
  split at reached
  · contradiction
  split at reached
  · contradiction
  rename_i noExits alive
  rw [if_neg noExits, if_neg alive]
  split at reached
  · contradiction
  split at reached
  · contradiction
  split at reached
  · contradiction
  rename_i backlog notDone paced
  rw [if_neg backlog, if_neg notDone, if_neg paced]
  exact ⟨exists_alive_of_aliveCount alive, rfl⟩

theorem Mirrors.drainRedist_idle (mirrors : Mirrors e []) (alive : ∃ index, e.ExitAlive index)
    (wide : 0 < e.meshWindowCap) (idle : e.drainRedist.Idle) :
    e.Idle ∧ refusesResends e.redistPending e = true ∧
      e.drainRedist.redistPending = e.redistPending := by
  obtain ⟨before, refused, queue⟩ := mirrors.takeRedist.idle_drainRedistEntries alive wide idle
  refine ⟨before, ?_, queue⟩
  rw [← refused]
  exact refusesResends_congr rfl rfl

omit [PathArith F] in
/-- With idle windows and an empty queue every data fragment is acknowledged. -/
theorem Tracked.drained (tracked : Tracked e) (alive : ∃ index, e.ExitAlive index)
    (allFed : e.transfer.fragmentCount ≤ e.transfer.nextFragment) (idle : e.Idle)
    (redist : e.redistPending = []) : e.Drained := by
  have windows : ∀ index, e.ExitAlive index → (e.arq index).pending = ∅ := fun index isAlive =>
    (tracked.mirrors.inFlight_eq_zero_iff index).mp (idle index isAlive)
  refine ⟨windows, redist, ?_⟩
  intro seq announced data
  rcases tracked.accountedFor alive (lt_of_lt_of_le announced allFed) data with
    ⟨acked, _⟩ | ⟨_, ⟨index, isAlive, held, _⟩ | ⟨queued, _⟩⟩
  · exact acked
  · rw [windows index isAlive] at held
    exact absurd held (Finset.notMem_empty seq)
  · rw [redist] at queued
    contradiction

/-- The flag is right exactly where the upload is not stranded. -/
theorem Completes.drained_iff (completes : Completes e after) (tracked : Tracked e)
    (wide : 0 < e.meshWindowCap) : after.Drained ↔ ¬ e.Strands := by
  obtain ⟨exits, scheduleEq⟩ := scheduleFragments_reached completes.reached
  have keeps := (keeps_nowMs e).trans (keeps_drainOow e.nowMs.2 e.nowMs.1)
  have final : Tracked e.scheduleFragments.2 := tracked.scheduleFragments
  obtain ⟨allFed, idle⟩ := idle_of_uploadDrained completes.drained
  rw [scheduleEq] at allFed idle final
  have start : Tracked (e.nowMs.2.drainOow e.nowMs.1) := tracked.of_keeps keeps
  have resent := start.drainRedist
  have weighted := keeps_refreshWeights (e.nowMs.2.drainOow e.nowMs.1).drainRedist
  have weightedTracked := resent.of_keeps weighted
  obtain ⟨fedNothing, fedTransfer, fedRedist⟩ :=
    weightedTracked.mirrors.idle_feed _ _ weightedTracked.scheduled idle
  obtain ⟨_, _, resentTransfer⟩ := start.mirrors.drainRedist
  have transfer :
      ((e.nowMs.2.drainOow e.nowMs.1).drainRedist.feedNew e.nowMs.1).transfer = e.transfer :=
    fedTransfer.trans (weighted.transfer.trans (resentTransfer.trans keeps.transfer))
  have startAlive : ∃ index, (e.nowMs.2.drainOow e.nowMs.1).ExitAlive index := by
    unfold ExitAlive
    rw [keeps.transfer]
    exact exits
  have startWide : 0 < (e.nowMs.2.drainOow e.nowMs.1).meshWindowCap :=
    lt_of_lt_of_eq wide (congrArg Role.meshWindowCap keeps.role).symm
  obtain ⟨beforeResends, refused, queue⟩ :=
    start.mirrors.drainRedist_idle startAlive startWide (weighted.idle fedNothing)
  rw [keeps.redistPending] at refused queue
  have redist : after.redistPending = e.redistPending := by
    rw [completes.done, scheduleEq]
    exact fedRedist.trans (weighted.redistPending.trans queue)
  constructor
  · rintro drained ⟨waiting, _⟩
    exact waiting (redist.symm.trans drained.redist)
  · intro fine
    have empty : e.redistPending = [] := by
      by_contra waiting
      rw [transfer] at allFed
      exact fine ⟨waiting, allFed, keeps.idle beforeResends, refused⟩
    have finalAlive : ∃ index,
        ((e.nowMs.2.drainOow e.nowMs.1).drainRedist.feedNew e.nowMs.1).ExitAlive index := by
      unfold ExitAlive
      rw [transfer]
      exact exits
    have noQueue :
        ((e.nowMs.2.drainOow e.nowMs.1).drainRedist.feedNew e.nowMs.1).redistPending = [] :=
      fedRedist.trans (weighted.redistPending.trans (queue.trans empty))
    have drained := final.drained finalAlive allFed idle noQueue
    rw [completes.done, scheduleEq]
    exact ⟨drained.windows, drained.redist, drained.acked⟩

end Redistribution

/-! ## Runs -/

/-- Windows can be filled. -/
def Wide (role : Role) : Prop := 0 < role.meshWindowCap

section Stages

variable {now : Nat} {past : List (Move Nat)}

/-- No stage changes the cap or raises the flag. -/
theorem RoleChange.upload {before after : Role} (change : RoleChange before after) :
    after.meshWindowCap = before.meshWindowCap ∧
      (after.meshUploadDone = true → before.meshUploadDone = true) := by
  cases change with
  | reset active => exact ⟨rfl, fun impossible => absurd impossible Bool.false_ne_true⟩
  | _ => exact ⟨rfl, id⟩

theorem Stages.upload (stages : Stages now past e after) :
    after.role.meshWindowCap = e.role.meshWindowCap ∧
      (after.role.meshUploadDone = true → e.role.meshUploadDone = true) := by
  have changes := stages.roleChanges
  generalize after.role = role at changes ⊢
  induction changes with
  | refl => exact ⟨rfl, id⟩
  | tail _ next inductionHypothesis =>
      obtain ⟨cap, flag⟩ := inductionHypothesis
      obtain ⟨sameCap, raised⟩ := next.upload
      exact ⟨sameCap.trans cap, flag ∘ raised⟩

theorem Starts.upload {args : StartArgs} {result : Bool × TransferEngine F}
    (starts : Starts e args result) (wide : Wide e.role) :
    Wide result.2.role ∧ result.2.role.meshUploadDone = e.role.meshUploadDone := by
  cases starts with
  | refused busy => exact ⟨wide, rfl⟩
  | rejected after count idle noExit tooLarge role cloud io log =>
      rw [role]
      exact ⟨wide, rfl⟩
  | onLocalExit after io reading idle noExit chosen role cloud later clock outputs log =>
      rw [role]
      exact ⟨wide, rfl⟩
  | onMesh after cap idle noExit chosen capWide role cloud io log =>
      rw [role]
      exact ⟨capWide, rfl⟩

theorem Accepts.upload {srcAddr : Nat} {ad : TransferAd} (accepts : Accepts e srcAddr ad after) :
    after.role.meshWindowCap = e.role.meshWindowCap ∧
      after.role.meshUploadDone = e.role.meshUploadDone := by
  rw [accepts.role]
  exact ⟨rfl, rfl⟩

end Stages

variable [PathArith F]

theorem wide_step (tracked : Tracked e) (wide : Wide e.role) (call : Call) :
    Wide (e.step call).role := by
  rcases step_cases tracked call with ⟨args, _, started, stepEq⟩ | ⟨_, _, _, _, accepted⟩ |
    stages | ⟨now, mid, _, _, stages, completes⟩
  · rw [stepEq]
    exact (started.upload wide).1
  · exact lt_of_lt_of_eq wide accepted.upload.1.symm
  · exact lt_of_lt_of_eq wide stages.upload.1.symm
  · have scheduled : Stages call.time e.log mid mid.scheduleFragments.2 :=
      stages_scheduleFragments mid completes.active
    have whole : Stages call.time e.log (e.setEnv call.env) mid.scheduleFragments.2 :=
      stages.trans scheduled
    rw [completes.done]
    exact lt_of_lt_of_eq wide whole.upload.1.symm

theorem wide_run (tracked : Tracked e) (wide : Wide e.role) (calls : List Call) :
    Wide (e.run calls).role := by
  induction calls generalizing e with
  | nil => exact wide
  | cons call rest inductionHypothesis =>
      exact inductionHypothesis (tracked.step call) (wide_step tracked wide call)

/-- The call is a tick that gets to `tick_mesh_arq` with a stranded upload. -/
def StrandsAt (e : TransferEngine F) (call : Call) : Prop :=
  ∃ now mid, call.event = .tick now ∧
    (e.setEnv call.env).tickBeforeTransfer now = (true, mid) ∧ mid.Strands

/-- In every run, whatever is acknowledged, lost or refused in it: the call that raises
`mesh_upload_done_` leaves the upload drained if and only if it does not meet a stranded
upload. -/
theorem upload_drained_iff_not_stranded (myAddr maxElectedExits : Nat) (calls : List Call)
    (call : Call) :
    let e := (TransferEngine.boot myAddr maxElectedExits : TransferEngine F).run calls
    e.meshUploadDone = false → (e.step call).meshUploadDone = true →
      ((e.step call).Drained ↔ ¬ e.StrandsAt call) := by
  intro e notYet raised
  have booted := Tracked.boot (F := F) myAddr maxElectedExits
  have tracked : Tracked e := booted.run calls
  have wide : Wide e.role := wide_run booted (Nat.zero_lt_succ _) calls
  have flag : e.role.meshUploadDone = false := notYet
  have called : Tracked (e.setEnv call.env) := tracked.of_flags rfl rfl rfl rfl rfl rfl rfl
  rcases step_cases tracked call with ⟨args, _, started, stepEq⟩ | ⟨_, _, _, _, accepted⟩ |
    stages | ⟨now, mid, isTick, reached, stages, completes⟩
  · have same := (started.upload wide).2
    rw [← stepEq] at same
    exact absurd ((raised.symm.trans same).trans flag) (by decide)
  · exact absurd ((raised.symm.trans accepted.upload.2).trans flag) (by decide)
  · have before : e.role.meshUploadDone = true := stages.upload.2 raised
    rw [flag] at before
    contradiction
  · have midTracked : Tracked mid := by
      have ticked := called.tickBeforeTransfer now
      rw [reached] at ticked
      exact ticked
    have midWide : 0 < mid.meshWindowCap := lt_of_lt_of_eq wide stages.upload.1.symm
    rw [completes.drained_iff midTracked midWide, not_iff_not]
    constructor
    · exact fun strands => ⟨now, mid, isTick, reached, strands⟩
    · rintro ⟨other, otherMid, otherTick, otherReached, strands⟩
      rw [isTick] at otherTick
      obtain rfl : now = other := Event.tick.inj otherTick
      rw [reached] at otherReached
      obtain rfl : mid = otherMid := congrArg Prod.snd otherReached
      exact strands

/-! ## A stranded upload -/

/-- The exit that holds the only fragment goes offline, and the resend to the other
one is refused. -/
def smallLoss : Call where
  env := { clock := fun _ => 9200, sendResults := [-1] }
  event := .exitOffline 10 7

/-- A tick in which the radio refuses the first send. -/
def refusingTick : Call where
  env := { clock := fun _ => 9400, sendResults := [-1] }
  event := .tick 9400

/-- The only fragment waits for redistribution, unacknowledged, when the flag is
raised. -/
theorem upload_done_with_waiting_fragment :
    let e := (TransferEngine.boot 1 4 : TransferEngine ℚ).run (smallRun ++ [smallLoss])
    e.meshUploadDone = false ∧ (e.step refusingTick).meshUploadDone = true ∧
      0 < (e.step refusingTick).transfer.fragmentCount ∧ isParitySlot 0 = false ∧
      (e.step refusingTick).redistPending = [0] ∧ 0 ∉ (e.step refusingTick).acked ∧
      ¬ (e.step refusingTick).Drained := by
  have redist : (((TransferEngine.boot 1 4 : TransferEngine ℚ).run
      (smallRun ++ [smallLoss])).step refusingTick).redistPending = [0] := by decide +kernel
  refine ⟨by decide +kernel, by decide +kernel, by decide +kernel, by decide, redist,
    by decide +kernel, ?_⟩
  intro drained
  rw [drained.redist] at redist
  contradiction

/-- After the ACK of the only fragment the next tick finds the upload drained. -/
theorem upload_drained_after_ack :
    let e := (TransferEngine.boot 1 4 : TransferEngine ℚ).run
      (smallRun ++ [{ env := { clock := fun _ => 9500 }, event := .ack 0 10 }])
    (e.step (tickAt 10000)).meshUploadDone = true ∧ (e.step (tickAt 10000)).Drained := by
  have raised : (((TransferEngine.boot 1 4 : TransferEngine ℚ).run
      (smallRun ++ [{ env := { clock := fun _ => 9500 }, event := .ack 0 10 }])).step
        (tickAt 10000)).meshUploadDone = true := by decide +kernel
  refine ⟨raised, (upload_drained_iff_not_stranded 1 4 _ (tickAt 10000) (by decide +kernel)
    raised).mpr ?_⟩
  rintro ⟨now, mid, isTick, reached, waiting, _⟩
  have midEq := congrArg (fun result => result.2.redistPending) reached
  obtain rfl : 10000 = now := Event.tick.inj isTick
  have empty : (((((TransferEngine.boot 1 4 : TransferEngine ℚ).run
      (smallRun ++ [{ env := { clock := fun _ => 9500 }, event := .ack 0 10 }])).setEnv
        (tickAt 10000).env).tickBeforeTransfer 10000).2).redistPending = [] := by decide +kernel
  exact waiting (midEq.symm.trans empty)

end ForestLink.Mesh.TransferEngine
