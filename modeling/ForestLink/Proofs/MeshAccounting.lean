/-
Module: ForestLink.Proofs.MeshAccounting
Purpose: Over every run of the transfer engine the board of the log is where the
  fragments are; the sender loses none, duplicates none and stays under its cap.
Trusted boundary: none
Main exports: Tracked, Tracked.run, acked, InOnePlace,
  sender_accounts_for_every_fragment
-/
import ForestLink.Proofs.MeshPlacement

namespace ForestLink.Mesh.TransferEngine

open ForestLink.Lib
open ForestLink.Lib.Dispatch
open ForestLink.Protocol
open ForestLink.Protocol.SelectiveRepeat (SameFragments)

variable {F : Type} {e after : TransferEngine F}

/-- The invariant of all runs: the engine agrees with its board and its role is
scheduled consistently. -/
structure Tracked (e : TransferEngine F) : Prop where
  mirrors : Mirrors e []
  scheduled : Scheduled e.role

namespace Tracked

theorem of_keepsFragments (tracked : Tracked e) (keeps : KeepsFragments e after) :
    Tracked after where
  mirrors := tracked.mirrors.of_keepsFragments keeps
  scheduled := by
    rw [keeps.role]
    exact tracked.scheduled

theorem of_keeps (tracked : Tracked e) (keeps : Keeps e after) : Tracked after :=
  tracked.of_keepsFragments keeps.toKeepsFragments

/-- Changes of flags and surroundings that the placement does not depend on. -/
theorem of_flags (tracked : Tracked e) (transfer : after.transfer = e.transfer)
    (localExit : after.localExit = e.localExit)
    (election : after.electionActive = e.electionActive)
    (cap : after.meshWindowCap = e.meshWindowCap) (arq : after.arq = e.arq)
    (redist : after.redistPending = e.redistPending) (log : after.log = e.log) :
    Tracked after := by
  constructor
  · refine tracked.mirrors.of_windows log redist (congrArg _ transfer) (congrArg _ transfer)
      (congrArg _ transfer) (fun _ => cap) fun index => ?_
    rw [arq]
    exact ⟨tracked.mirrors.wf index, rfl, rfl⟩
  · obtain ⟨exits, electing, layout⟩ := tracked.scheduled
    unfold role at exits electing layout ⊢
    rw [← transfer, ← localExit, ← election] at exits electing
    rw [← transfer, ← localExit] at layout
    exact ⟨exits, electing, layout⟩

/-- Outside a mesh transfer nothing is placed. -/
theorem idle (tracked : Tracked e) (inactive : e.transfer.active = false) :
    e.transfer.exitNodeCount = 0 := by
  by_contra busy
  have active := (tracked.scheduled.exits busy).1
  rw [show e.role.active = false from inactive] at active
  contradiction

/-! ## Leaving a role -/

theorem resetSenderTransferState [PathArith F] (tracked : Tracked e) (signalComplete : Bool) :
    Tracked (e.resetSenderTransferState signalComplete) := by
  have cleared : ∀ after : TransferEngine F,
      after.log = .reset :: e.log → after.arq = (fun index => (e.arq index).resetSender) →
      after.transfer = {} → after.redistPending = [] → after.electionActive = false →
      Tracked after := by
    intro after log arq transfer redist election
    have boardEq : after.board = {} := by
      rw [board, log]
      rfl
    constructor
    · constructor
      · rw [log]
        exact .cons tracked.mirrors.valid trivial
      · intro index
        rw [arq]
        exact SelectiveRepeat.wf_resetSender (tracked.mirrors.wf index).sized
      · intro index
        rw [arq]
        exact tracked.mirrors.windowSize index
      · intro index
        rw [boardEq, arq]
        exact (SelectiveRepeat.pending_resetSender _).symm
      · intro index
        rw [boardEq, transfer]
        simp
      · rw [boardEq, transfer]
      · rw [boardEq, redist]
        rfl
      · rw [redist]
        exact List.nodup_nil
      · rw [transfer]
        exact fun busy => absurd rfl busy
      · exact fun _ => boardEq
      · rw [transfer]
        exact Nat.zero_le _
    · constructor
      · intro busy
        exact absurd (congrArg ActiveTransfer.exitNodeCount transfer) busy
      · intro electing
        rw [show after.role.electionActive = false from election] at electing
        contradiction
      · intro active
        have inactive : after.role.active = false := congrArg ActiveTransfer.active transfer
        rw [inactive] at active
        contradiction
  unfold TransferEngine.resetSenderTransferState
  dsimp only
  split <;> split <;> exact cleared _ rfl rfl rfl rfl rfl

theorem clearExitNodeState (tracked : Tracked e) : Tracked e.clearExitNodeState := by
  have windows : ∀ index, (e.arq index).Wf ∧
      (e.arq index).windowSize = (e.arq index).windowSize ∧
      (e.arq index).pending = (e.arq index).pending :=
    fun index => ⟨tracked.mirrors.wf index, rfl, rfl⟩
  have scheduled : ∀ role : Role, role.exitNodeCount = e.role.exitNodeCount →
      role.active = e.role.active → role.electionActive = e.role.electionActive →
      role.localExit = e.role.localExit → role.fragmentCount = 0 → Scheduled role := by
    intro role count active election localExit empty
    constructor
    · rw [count, active, election, localExit]
      exact tracked.scheduled.exits
    · rw [count, active, election, localExit]
      exact tracked.scheduled.election
    · intro _ _
      rw [empty]
      exact ⟨Nat.zero_le _, fun seq impossible => absurd impossible (Nat.not_lt_zero seq)⟩
  unfold TransferEngine.clearExitNodeState
  dsimp only
  split
  all_goals
    exact ⟨tracked.mirrors.of_windows rfl rfl rfl rfl rfl (fun _ => rfl) windows,
      scheduled _ rfl rfl rfl rfl rfl⟩

/-! ## Feeding -/

theorem tickLocalExitArq [PathArith F] (tracked : Tracked e) : Tracked e.tickLocalExitArq := by
  have served := tracked.of_keepsFragments (serves_serveLocalExit 0 e).toKeepsFragments
  unfold TransferEngine.tickLocalExitArq
  dsimp only
  split
  · exact served.resetSenderTransferState true
  · exact served

theorem drainRedist [PathArith F] (tracked : Tracked e) : Tracked e.drainRedist := by
  obtain ⟨mirrors, role, _⟩ := tracked.mirrors.drainRedist
  exact ⟨mirrors, role ▸ tracked.scheduled⟩

theorem feedNew [PathArith F] (tracked : Tracked e) (now : Nat) : Tracked (e.feedNew now) := by
  have weighted := tracked.of_keeps (keeps_refreshWeights e)
  obtain ⟨mirrors, role⟩ := weighted.mirrors.feed now
    (e.refreshWeights.transfer.fragmentCount - e.refreshWeights.transfer.nextFragment) 0
    weighted.scheduled
  exact ⟨mirrors, role ▸ weighted.scheduled⟩

theorem checkUploadDrained (tracked : Tracked e) : Tracked e.checkUploadDrained := by
  unfold TransferEngine.checkUploadDrained
  split
  · exact tracked.of_flags rfl rfl rfl rfl rfl rfl rfl
  · exact tracked

theorem scheduleFragments [PathArith F] (tracked : Tracked e) : Tracked e.scheduleFragments.2 := by
  unfold TransferEngine.scheduleFragments
  dsimp only
  split
  · exact tracked
  split
  · exact tracked.resetSenderTransferState false
  have drained := tracked.of_keeps ((keeps_nowMs e).trans (keeps_drainOow _ e.nowMs.1))
  split
  · exact drained.of_keeps (keeps_signalCongestion _)
  split
  · exact drained
  split
  · exact drained.drainRedist
  · exact drained.drainRedist.feedNew _

theorem tickMeshArq [PathArith F] (tracked : Tracked e) : Tracked e.tickMeshArq := by
  unfold TransferEngine.tickMeshArq
  split
  · exact tracked.scheduleFragments.checkUploadDrained
  · exact tracked.scheduleFragments

theorem transferTick [PathArith F] (tracked : Tracked e) : Tracked e.transferTick := by
  unfold TransferEngine.transferTick
  split
  · exact tracked
  split
  · exact tracked.of_flags rfl rfl rfl rfl rfl rfl rfl
  split
  · exact tracked.tickLocalExitArq
  · exact tracked.tickMeshArq

/-! ## Election -/

theorem length_electedExits (candidates : List ExitCandidate) (maxElectedExits : Nat) :
    (electedExits candidates maxElectedExits).length ≤ maxExitNodes := by
  unfold electedExits acceptedExits
  dsimp only
  split
  · exact (List.length_take_le _ _).trans (by decide)
  · exact (List.length_take_le _ _).trans (Nat.min_le_right _ _)

/-- What installing the elected exits does to the windows and flags. -/
theorem installExits [PathArith F] (now : Nat) (elected : List (ExitCandidate × Nat))
    (e : TransferEngine F) (wf : ∀ index, (e.arq index).Wf)
    (size : ∀ index, (e.arq index).windowSize = arqWindow)
    (empty : ∀ index, (e.arq index).pending = ∅) :
    let after := elected.foldl (installExit now) e
    (∀ index, (after.arq index).Wf ∧ (after.arq index).windowSize = arqWindow ∧
        (after.arq index).pending = ∅) ∧
      (∀ index, e.transfer.exitNodeAlive index = true ∨ index ∈ elected.map Prod.snd →
        after.transfer.exitNodeAlive index = true) ∧
      after.redistPending = e.redistPending := by
  induction elected generalizing e with
  | nil =>
      refine ⟨fun index => ⟨wf index, size index, empty index⟩, ?_, rfl⟩
      intro index alive
      simpa using alive
  | cons exit rest inductionHypothesis =>
      have arqEq : ∀ index, (installExit now e exit).arq index = e.arq index ∨
          (installExit now e exit).arq index =
            { (e.arq index).resetSender with peerAddr := exit.1.addr } := by
        intro index
        by_cases same : index = exit.2
        · subst same
          exact .inr (Function.update_self ..)
        · exact .inl (Function.update_of_ne same ..)
      have aliveEq : ∀ index, e.transfer.exitNodeAlive index = true ∨ index = exit.2 →
          (installExit now e exit).transfer.exitNodeAlive index = true := by
        intro index either
        by_cases same : index = exit.2
        · subst same
          exact Function.update_self ..
        · rcases either with alive | here
          · exact (Function.update_of_ne same ..).trans alive
          · exact absurd here same
      obtain ⟨shape, alive, redist⟩ := inductionHypothesis (installExit now e exit)
        (by
          intro index
          rcases arqEq index with same | fresh
          · rw [same]
            exact wf index
          · rw [fresh]
            have reset := SelectiveRepeat.wf_resetSender (wf index).sized
            exact ⟨reset.sized, reset.holds, reset.counted⟩)
        (by
          intro index
          rcases arqEq index with same | fresh
          · rw [same]
            exact size index
          · rw [fresh]
            exact size index)
        (by
          intro index
          rcases arqEq index with same | fresh
          · rw [same]
            exact empty index
          · rw [fresh]
            exact SelectiveRepeat.pending_resetSender (e.arq index))
      refine ⟨shape, ?_, redist⟩
      intro index either
      apply alive
      rcases either with already | listed
      · exact .inl (aliveEq index (.inl already))
      · rcases List.mem_cons.mp listed with here | later
        · exact .inl (aliveEq index (.inr here))
        · exact .inr later

theorem electedExits_ne_nil {candidates : List ExitCandidate} (some : candidates ≠ [])
    (maxElectedExits : Nat) : electedExits candidates maxElectedExits ≠ [] := by
  unfold electedExits
  dsimp only
  split
  · intro none
    have length := congrArg List.length none
    rw [List.length_take, sortedCandidates, List.length_insertionSort] at length
    have positive := List.length_pos_of_ne_nil some
    rw [List.length_nil] at length
    omega
  · assumption

theorem electExits [PathArith F] (tracked : Tracked e) (electing : e.electionActive = true)
    (candidates : e.candidates ≠ []) : Tracked e.electExits := by
  obtain ⟨active, meshPath, noExits⟩ := tracked.scheduled.election electing
  have boardEmpty := tracked.mirrors.idle noExits
  have empty : ∀ index, (e.arq index).pending = ∅ := by
    intro index
    rw [← tracked.mirrors.window index, boardEmpty]
  have noRedist : e.redistPending = [] := by
    have waiting := tracked.mirrors.waiting
    rw [boardEmpty, List.append_nil] at waiting
    exact List.toFinset_eq_empty_iff _ |>.mp waiting.symm
  have clocked : Tracked e.electionClock.nowMs.2 :=
    tracked.of_keeps ((keeps_electionClock e).trans (keeps_nowMs _))
  have sameArq : ∀ index, e.electionClock.nowMs.2.arq index = e.arq index := by
    intro index
    unfold electionClock
    split <;> rfl
  have sameRedist : e.electionClock.nowMs.2.redistPending = e.redistPending :=
    ((keeps_electionClock e).trans (keeps_nowMs _)).redistPending
  obtain ⟨exits, exitsEq⟩ :
      ∃ exits, exits = electedExits e.candidates e.maxElectedExits := ⟨_, rfl⟩
  have count : exits.length ≤ maxExitNodes := exitsEq ▸ length_electedExits _ _
  have someExit : exits.length ≠ 0 := by
    rw [exitsEq]
    exact fun none => electedExits_ne_nil candidates _ (List.eq_nil_of_length_eq_zero none)
  obtain ⟨shape, alive, redist⟩ :=
    installExits e.electionClock.nowMs.1 exits.zipIdx e.electionClock.nowMs.2
      clocked.mirrors.wf clocked.mirrors.windowSize
      (fun index => (congrArg SelectiveRepeat.pending (sameArq index)).trans (empty index))
  have allowed : e.board.Allowed senderRules
      (.launch (Finset.range exits.length) e.meshWindowCap e.electionClock.io.timerMs) := by
    change (Finset.range exits.length).card ≤ maxExitNodes
    rw [Finset.card_range]
    exact count
  obtain ⟨exitNodes, lastAckMs, role, _⟩ := role_electExits e
  have scheduled : Scheduled e.electExits.role := by
    rw [role]
    exact ⟨fun _ => ⟨active, rfl, meshPath⟩, fun impossible => by contradiction,
      tracked.scheduled.layout⟩
  have capEq : e.electExits.meshWindowCap = e.meshWindowCap :=
    congrArg Role.meshWindowCap role
  refine ⟨?_, scheduled⟩
  unfold TransferEngine.electExits at capEq ⊢
  rw [← exitsEq] at capEq ⊢
  obtain ⟨installed, installedEq⟩ : ∃ installed, installed =
      exits.zipIdx.foldl (installExit e.electionClock.nowMs.1) e.electionClock.nowMs.2 :=
    ⟨_, rfl⟩
  rw [← installedEq] at shape alive redist
  dsimp only at capEq ⊢
  rw [← installedEq] at capEq ⊢
  have noQueue : installed.redistPending = [] := redist.trans (sameRedist.trans noRedist)
  constructor
  · exact .cons tracked.mirrors.valid allowed
  · exact fun index => (shape index).1
  · exact fun index => (shape index).2.1
  · exact fun index => (shape index).2.2.symm
  · intro index
    change index ∈ Finset.range exits.length ↔ index < exits.length ∧
      installed.transfer.exitNodeAlive index = true
    rw [Finset.mem_range]
    constructor
    · intro inRange
      refine ⟨inRange, alive index (.inr ?_)⟩
      rw [List.zipIdx_map_snd, List.mem_range']
      exact ⟨index, inRange, by omega⟩
    · exact And.left
  · rfl
  · change ∅ = (installed.redistPending ++ []).toFinset
    rw [noQueue]
    rfl
  · change (installed.redistPending ++ []).Nodup
    rw [noQueue]
    exact List.nodup_nil
  · intro _
    exact capEq.symm
  · intro none
    exact absurd none someExit
  · exact Nat.zero_le _

theorem electionTimeoutTick [PathArith F] (tracked : Tracked e) (now : Nat) :
    Tracked (e.electionTimeoutTick now) := by
  unfold TransferEngine.electionTimeoutTick
  split
  · exact tracked
  rename_i due
  have electing : e.electionActive = true := by
    simp only [Bool.or_eq_true, not_or] at due
    simpa using due.1
  split
  · obtain ⟨_, _, noExits⟩ := tracked.scheduled.election electing
    have closed : Tracked { e with electionActive := false } :=
      ⟨tracked.mirrors.of_windows rfl rfl rfl rfl rfl (fun _ => rfl)
          fun index => ⟨tracked.mirrors.wf index, rfl, rfl⟩,
        ⟨fun busy => absurd noExits busy, fun impossible => by contradiction,
          tracked.scheduled.layout⟩⟩
    exact closed.resetSenderTransferState false
  · rename_i candidates
    exact tracked.electExits electing candidates

/-! ## The tick -/

theorem forwardTransferDone (tracked : Tracked e) : Tracked e.forwardTransferDone :=
  (tracked.of_keeps (keeps_sendPacket e _ _ _ _)).clearExitNodeState

theorem tickExitRole (tracked : Tracked e) (now : Nat) : Tracked (e.tickExitRole now) := by
  have relayed := (tracked.of_keepsFragments (serves_drainExitNacks e now).toKeepsFragments).of_keeps
    (keeps_drainFragmentAcks _)
  unfold TransferEngine.tickExitRole pollTransferComplete
  split
  · exact relayed.forwardTransferDone
  · exact relayed

theorem exitNodeHealthTick [PathArith F] (tracked : Tracked e) (now : Nat) :
    Tracked (e.exitNodeHealthTick now) := by
  obtain ⟨mirrors, role⟩ := tracked.mirrors.exitNodeHealthTick now
  exact ⟨mirrors, role ▸ tracked.scheduled⟩

theorem republishMeta (tracked : Tracked e) (now : Nat) : Tracked (e.republishMeta now) := by
  unfold TransferEngine.republishMeta
  split
  · exact tracked.of_flags rfl rfl rfl rfl rfl rfl rfl
  · exact tracked

theorem tickStages [PathArith F] (tracked : Tracked e) (now : Nat) : Tracked (e.tickStages now) :=
  (((tracked.tickExitRole now).of_keeps (keeps_broadcastRetryTick _ now)).electionTimeoutTick
    now).exitNodeHealthTick now

theorem tickBeforeTransfer [PathArith F] (tracked : Tracked e) (now : Nat) :
    Tracked (e.tickBeforeTransfer now).2 := by
  have ticked := tracked.of_keeps (keeps_tickArqs e)
  have republished := ticked.republishMeta now
  unfold TransferEngine.tickBeforeTransfer
  dsimp only
  split
  · exact ticked.resetSenderTransferState false
  split
  · split
    · exact republished.resetSenderTransferState true
    split
    · exact republished.resetSenderTransferState false
    split
    · exact republished.clearExitNodeState.tickStages now
    · exact republished.tickStages now
  · exact republished.tickStages now

theorem tick [PathArith F] (tracked : Tracked e) (now : Nat) : Tracked (e.tick now) := by
  unfold TransferEngine.tick
  dsimp only
  split
  · exact (tracked.tickBeforeTransfer now).transferTick
  · exact tracked.tickBeforeTransfer now

/-! ## Handlers -/

/-- Changes of the record while no transfer is active. -/
theorem of_inactive (tracked : Tracked e) (inactive : e.transfer.active = false)
    (stillInactive : after.transfer.active = false) (log : after.log = e.log)
    (redist : after.redistPending = e.redistPending)
    (count : after.transfer.exitNodeCount = e.transfer.exitNodeCount)
    (alive : after.transfer.exitNodeAlive = e.transfer.exitNodeAlive)
    (next : after.transfer.nextFragment = e.transfer.nextFragment)
    (election : after.electionActive = e.electionActive)
    (windows : ∀ index, SameFragments (e.arq index) (after.arq index)) : Tracked after := by
  have noExits := tracked.idle inactive
  constructor
  · exact tracked.mirrors.of_windows log redist count alive next
      (fun busy => absurd noExits busy) fun index =>
        ⟨(windows index).wf (tracked.mirrors.wf index), (windows index).windowSize,
          (windows index).pending⟩
  · constructor
    · intro busy
      exact absurd (count.trans noExits) busy
    · intro electing
      have active := (tracked.scheduled.election (election.symm.trans electing)).1
      rw [show e.role.active = false from inactive] at active
      contradiction
    · intro active
      rw [show after.role.active = false from stillInactive] at active
      contradiction

theorem handleTransferAd (tracked : Tracked e) (srcAddr : Nat) (payload : List UInt8)
    (hasInternet : Bool) : Tracked (e.handleTransferAd srcAddr payload hasInternet) := by
  unfold TransferEngine.handleTransferAd
  dsimp only
  split
  · exact tracked
  split
  · exact tracked
  split
  · exact tracked
  rename_i notActive
  have inactive : e.transfer.active = false := by simpa using notActive
  split
  · exact tracked
  split
  · exact tracked.of_keeps (keeps_sendTransferAck e _ _ _)
  · exact tracked.of_inactive inactive inactive rfl rfl rfl rfl rfl rfl
      (keeps_setPeer e srcAddr).arq

theorem handleData (tracked : Tracked e) (srcAddr seq : Nat) (payload : List UInt8) :
    Tracked (e.handleData srcAddr seq payload) := by
  unfold TransferEngine.handleData
  split
  · refine Tracked.of_keepsFragments ?_ (serves_forwardFragment 0 _ seq payload).toKeepsFragments
    unfold activateExit
    split
    · exact tracked.of_flags rfl rfl rfl rfl rfl rfl rfl
    · exact tracked
  · exact tracked.of_keeps (keeps_setPeer e srcAddr)

theorem arqIndexForPeer_lt {addr index : Nat} (found : e.arqIndexForPeer addr = some index) :
    index < e.transfer.exitNodeCount :=
  List.mem_range.mp (List.mem_of_find?_eq_some found)

theorem handleAck [PathArith F] (tracked : Tracked e) (seq fromAddr : Nat) :
    Tracked (e.handleAck seq fromAddr) := by
  unfold TransferEngine.handleAck
  split
  · exact tracked
  rename_i index found
  dsimp only
  have busy : e.transfer.exitNodeCount ≠ 0 :=
    Nat.ne_of_gt (Nat.zero_lt_of_lt (arqIndexForPeer_lt found))
  obtain ⟨wf, windowSize, released⟩ := SelectiveRepeat.handleAck_spec Io.radio
    (tracked.mirrors.wf index) e.nowMs.2.io seq
  have shape : ∀ other,
      (Function.update e.arq index
        (SelectiveRepeat.handleAck Io.radio e.nowMs.2.io (e.arq index) seq).1 other).Wf ∧
      (Function.update e.arq index
        (SelectiveRepeat.handleAck Io.radio e.nowMs.2.io (e.arq index) seq).1 other).windowSize =
        (e.arq other).windowSize := by
    intro other
    by_cases same : other = index
    · subst same
      rw [Function.update_self]
      exact ⟨wf, windowSize⟩
    · rw [Function.update_of_ne same]
      exact ⟨tracked.mirrors.wf other, rfl⟩
  have pending : ∀ other,
      (Function.update e.arq index
        (SelectiveRepeat.handleAck Io.radio e.nowMs.2.io (e.arq index) seq).1 other).pending =
      Function.update e.board.window index ((e.board.window index).erase seq) other := by
    intro other
    by_cases same : other = index
    · subst same
      rw [Function.update_self, Function.update_self, released, tracked.mirrors.window]
    · rw [Function.update_of_ne same, Function.update_of_ne same, tracked.mirrors.window]
  split
  · rename_i contains
    have held : seq ∈ e.board.window index := by
      rw [tracked.mirrors.window]
      exact (SelectiveRepeat.containsSequence_iff (tracked.mirrors.wf index)).mp contains
    refine ⟨?_, ⟨tracked.scheduled.exits, tracked.scheduled.election, tracked.scheduled.layout⟩⟩
    exact
      { valid := .cons tracked.mirrors.valid held
        wf := fun other => (shape other).1
        windowSize := fun other => (shape other).2.trans (tracked.mirrors.windowSize other)
        window := fun other => (pending other).symm
        live := tracked.mirrors.live
        next := tracked.mirrors.next
        waiting := tracked.mirrors.waiting
        nodup := tracked.mirrors.nodup
        capacity := tracked.mirrors.capacity
        idle := fun empty => absurd empty busy
        bounded := tracked.mirrors.bounded }
  · rename_i absent
    refine ⟨?_, tracked.scheduled⟩
    have notHeld : seq ∉ e.board.window index := by
      rw [tracked.mirrors.window]
      exact fun member => absent
        ((SelectiveRepeat.containsSequence_iff (tracked.mirrors.wf index)).mpr member)
    refine tracked.mirrors.of_windows rfl rfl rfl rfl rfl (fun _ => rfl) fun other => ?_
    refine ⟨(shape other).1, (shape other).2, (pending other).trans ?_⟩
    rw [Finset.erase_eq_of_notMem notHeld, Function.update_eq_self, tracked.mirrors.window]

theorem handleTransferDone [PathArith F] (tracked : Tracked e) (sender : Nat)
    (payload : List UInt8) :
    Tracked (e.handleTransferDone sender payload) := by
  unfold TransferEngine.handleTransferDone
  dsimp only
  split
  · exact tracked
  split
  · exact tracked
  split
  · exact tracked
  split
  · exact tracked
  · exact tracked.resetSenderTransferState true

/-! ## Starting a transfer -/

/-- Every data position below the announced count lies inside the file, also where
the 16-bit and 32-bit counts wrap. -/
theorem dataIdx_mul_lt {size seq : Nat}
    (announced : seq < meshFragmentCount (dataFragCount size))
    (data : isParitySlot seq = false) :
    dataIdx seq * defaultTransferFragmentSize < size := by
  have notParity : seq % 8 ≠ 7 := by
    intro parity
    rw [(isParitySlot_iff seq).mpr parity] at data
    contradiction
  obtain ⟨whole, wholeEq⟩ : ∃ whole, whole =
      (size + defaultTransferFragmentSize - 1) % 2 ^ 32 / defaultTransferFragmentSize := ⟨_, rfl⟩
  obtain ⟨dataFrags, dataFragsEq⟩ : ∃ d, d = dataFragCount size := ⟨_, rfl⟩
  have dataFragsLe : dataFrags ≤ whole := by
    rw [dataFragsEq, dataFragCount, ← wholeEq]
    exact Nat.mod_le _ _
  have seqLt : seq < dataFrags / 7 * 8 + dataFrags % 7 := by
    rw [← dataFragsEq] at announced
    refine lt_of_lt_of_le announced ((Nat.mod_le _ _).trans ?_)
    exact Nat.add_le_add (Nat.mul_le_mul_right _ (Nat.mod_le _ _)) (Nat.mod_le _ _)
  have indexLt : dataIdx seq < whole := by
    rw [dataIdx_eq]
    omega
  have fragmentSize : defaultTransferFragmentSize = 1456 := rfl
  rw [fragmentSize] at wholeEq ⊢
  have wholeLe : whole * 1456 ≤ size + 1455 := by
    rw [wholeEq]
    exact (Nat.div_mul_le_self _ _).trans (Nat.mod_le _ _)
  omega

theorem nextFragment_eq_zero (tracked : Tracked e) (inactive : e.transfer.active = false) :
    e.transfer.nextFragment = 0 := by
  rw [← tracked.mirrors.next, tracked.mirrors.idle (tracked.idle inactive)]

theorem startLocalExit (tracked : Tracked e) (inactive : e.transfer.active = false)
    (args : StartArgs) (onLocalExit : (e.prepareTransfer args).localExit = true) :
    Tracked ((e.prepareTransfer args).startLocalExit args).2 := by
  have noExits := tracked.idle inactive
  have noElection : e.electionActive = false := by
    by_contra notOff
    have electing : e.electionActive = true := by simpa using notOff
    have active := (tracked.scheduled.election electing).1
    rw [show e.role.active = false from inactive] at active
    contradiction
  have next := tracked.nextFragment_eq_zero inactive
  unfold TransferEngine.startLocalExit
  dsimp only
  split
  · exact tracked.of_inactive inactive rfl rfl rfl rfl rfl next.symm rfl fun _ => .refl _
  split
  · exact tracked.of_inactive inactive rfl rfl rfl rfl rfl next.symm rfl fun _ => .refl _
  · constructor
    · exact tracked.mirrors.of_windows rfl rfl rfl rfl next.symm (fun _ => rfl)
        fun index => ⟨tracked.mirrors.wf index, rfl, rfl⟩
    · constructor
      · intro busy
        exact absurd noExits busy
      · intro electing
        exact absurd (noElection.symm.trans electing) (by decide)
      · intro _ meshPath
        exact absurd (onLocalExit.symm.trans meshPath) (by decide)

theorem startMesh (tracked : Tracked e) (inactive : e.transfer.active = false)
    (args : StartArgs) (onMesh : (e.prepareTransfer args).localExit = false) :
    Tracked ((e.prepareTransfer args).startMesh args).2 := by
  have noExits := tracked.idle inactive
  have next := tracked.nextFragment_eq_zero inactive
  unfold TransferEngine.startMesh sendBroadcastWithRetry
  dsimp only
  split
  · exact tracked.of_inactive inactive rfl rfl rfl rfl rfl next.symm rfl fun _ => .refl _
  rename_i fits
  have windows : ∀ index, SameFragments (e.arq index)
      { e.arq index with
        timeoutMs := computeArqTimeoutMs (sanitizeHopsToExit args.hopsToInternet)
        minRtoFloorMs := computeMinRtoFloorMs (sanitizeHopsToExit args.hopsToInternet) } :=
    fun index => ⟨rfl, rfl, fun _ => rfl, fun _ => rfl, fun _ => rfl, fun _ => rfl⟩
  have scheduled : ∀ role : Role, role.exitNodeCount = 0 → role.active = true →
      role.localExit = false →
      role.fragmentCount = meshFragmentCount (dataFragCount args.size) →
      role.fragmentSize = defaultTransferFragmentSize → role.size = args.size →
      Scheduled role := by
    intro role count active meshPath fragmentCount fragmentSize size
    constructor
    · intro busy
      exact absurd count busy
    · intro _
      exact ⟨active, meshPath, count⟩
    · intro _ _
      rw [fragmentCount, fragmentSize, size]
      exact ⟨Nat.le_of_not_lt fits, fun seq announced data => dataIdx_mul_lt announced data⟩
  split
  all_goals
    constructor
    · exact tracked.mirrors.of_windows rfl rfl rfl rfl next.symm
        (fun busy => absurd noExits busy) fun index =>
          ⟨(windows index).wf (tracked.mirrors.wf index), (windows index).windowSize,
            (windows index).pending⟩
    · exact scheduled _ noExits rfl onMesh rfl rfl rfl

theorem startFileTransfer (tracked : Tracked e) (args : StartArgs) :
    Tracked (e.startFileTransfer args).2 := by
  unfold TransferEngine.startFileTransfer
  split
  · exact tracked
  rename_i notActive
  have inactive : e.transfer.active = false := by simpa using notActive
  split
  · exact tracked
  dsimp only
  split
  · rename_i onLocalExit
    exact tracked.startLocalExit inactive args onLocalExit
  · rename_i onMesh
    exact tracked.startMesh inactive args (by simpa using onMesh)

/-! ## Runs -/

theorem handle [PathArith F] (tracked : Tracked e) (event : Event) : Tracked (e.handle event) := by
  cases event with
  | startFileTransfer args => exact tracked.startFileTransfer args
  | transferAd srcAddr payload hasInternet =>
      exact tracked.handleTransferAd srcAddr payload hasInternet
  | transferAck payload => exact tracked.of_keeps (keeps_handleTransferAck e payload)
  | data srcAddr seq payload => exact tracked.handleData srcAddr seq payload
  | ack seq fromAddr => exact tracked.handleAck seq fromAddr
  | nack seq fromAddr => exact tracked.of_keeps (keeps_handleNack e seq fromAddr)
  | exitOffline exitAddr sessionId =>
      obtain ⟨mirrors, role⟩ := tracked.mirrors.handleExitOffline exitAddr sessionId
      exact ⟨mirrors, role ▸ tracked.scheduled⟩
  | transferDone sender payload => exact tracked.handleTransferDone sender payload
  | congestion => exact tracked.of_keeps (keeps_signalCongestion e)
  | healthTick now => exact tracked.exitNodeHealthTick now
  | tick now => exact tracked.tick now

theorem step [PathArith F] (tracked : Tracked e) (call : Call) : Tracked (e.step call) := by
  have called : Tracked (e.setEnv call.env) := tracked.of_flags rfl rfl rfl rfl rfl rfl rfl
  exact called.handle call.event

theorem boot [PathArith F] (myAddr maxElectedExits : Nat) :
    Tracked (TransferEngine.boot (F := F) myAddr maxElectedExits) := by
  have sized : 0 < ({} : SelectiveRepeat).windowSize := by decide
  have fresh : ({} : SelectiveRepeat).Wf := SelectiveRepeat.wf_resetSender sized
  refine ⟨?_, ?_⟩
  · constructor
    · exact .nil
    · exact fun _ => fresh
    · exact fun _ => rfl
    · intro index
      exact (SelectiveRepeat.pending_resetSender {}).symm
    · intro index
      simp [TransferEngine.boot, board]
    · rfl
    · rfl
    · exact List.nodup_nil
    · exact fun busy => absurd rfl busy
    · exact fun _ => rfl
    · exact Nat.zero_le _
  · constructor
    · exact fun busy => absurd rfl busy
    · intro electing
      contradiction
    · intro active
      contradiction

/-- Every run keeps the invariant. -/
theorem run [PathArith F] (tracked : Tracked e) (calls : List Call) : Tracked (e.run calls) := by
  induction calls generalizing e with
  | nil => exact tracked
  | cons call rest inductionHypothesis => exact inductionHypothesis (tracked.step call)

end Tracked

/-! ## What the sender guarantees -/

/-- Exit `index` of the running transfer is alive. -/
def ExitAlive (e : TransferEngine F) (index : Nat) : Prop :=
  index < e.transfer.exitNodeCount ∧ e.transfer.exitNodeAlive index = true

/-- Fragments of the running transfer that a tracked ACK has released. -/
def acked (e : TransferEngine F) : Finset Nat := e.board.finished

/-- The fragment is in the window of exactly one exit, an alive one, and not in
`redist_pending_`; or it is one entry of `redist_pending_` and in no window. -/
def InOnePlace (e : TransferEngine F) (seq : Nat) : Prop :=
  (∃ index, e.ExitAlive index ∧ seq ∈ (e.arq index).pending ∧
      (∀ other, seq ∈ (e.arq other).pending → other = index) ∧ seq ∉ e.redistPending) ∨
    (e.redistPending.count seq = 1 ∧ ∀ index, seq ∉ (e.arq index).pending)

/-- The fragment is acknowledged and nowhere in the sender, or it is not
acknowledged and in one place. -/
def AccountedFor (e : TransferEngine F) (seq : Nat) : Prop :=
  (seq ∈ e.acked ∧ seq ∉ e.redistPending ∧ ∀ index, seq ∉ (e.arq index).pending) ∨
    (seq ∉ e.acked ∧ e.InOnePlace seq)

namespace Tracked

theorem mem_redistPending (tracked : Tracked e) {seq : Nat} :
    seq ∈ e.redistPending ↔ seq ∈ e.board.waiting := by
  rw [tracked.mirrors.waiting, List.append_nil, List.mem_toFinset]

theorem inOnePlace_of_window (tracked : Tracked e) {seq index : Nat}
    (live : index ∈ e.board.live) (held : seq ∈ e.board.window index) :
    e.InOnePlace seq := by
  refine .inl ⟨index, (tracked.mirrors.live index).mp live, ?_, ?_, ?_⟩
  · rw [← tracked.mirrors.window]
    exact held
  · intro other alsoHeld
    rw [← tracked.mirrors.window] at alsoHeld
    by_contra different
    exact Finset.disjoint_left.mp (tracked.mirrors.sound.apart other index different)
      alsoHeld held
  · rw [tracked.mem_redistPending]
    exact Finset.disjoint_left.mp (tracked.mirrors.sound.windowWaiting index) held

theorem inOnePlace_of_waiting (tracked : Tracked e) {seq : Nat}
    (waits : seq ∈ e.board.waiting) : e.InOnePlace seq := by
  have nodup : e.redistPending.Nodup := by simpa using tracked.mirrors.nodup
  refine .inr ⟨List.count_eq_one_of_mem nodup (tracked.mem_redistPending.mpr waits), ?_⟩
  intro index held
  rw [← tracked.mirrors.window] at held
  exact Finset.disjoint_left.mp (tracked.mirrors.sound.windowWaiting index) held waits

theorem accountedFor (tracked : Tracked e) (alive : ∃ index, e.ExitAlive index) {seq : Nat}
    (dispatched : seq < e.transfer.nextFragment) (data : isParitySlot seq = false) :
    e.AccountedFor seq := by
  have sound := tracked.mirrors.sound
  obtain ⟨index, isAlive⟩ := alive
  have someLive : e.board.live.Nonempty := ⟨index, (tracked.mirrors.live index).mpr isAlive⟩
  have needed : senderRules.required seq = true := by simp [senderRules, data]
  rw [← tracked.mirrors.next] at dispatched
  rcases sound.accounted someLive seq dispatched needed with done | waits | ⟨holder, live, held⟩
  · refine .inl ⟨done, ?_, ?_⟩
    · rw [tracked.mem_redistPending]
      exact fun waits => Finset.disjoint_left.mp sound.waitingFinished waits done
    · intro other held
      rw [← tracked.mirrors.window] at held
      exact Finset.disjoint_left.mp (sound.windowFinished other) held done
  · exact .inr ⟨Finset.disjoint_left.mp sound.waitingFinished waits,
      tracked.inOnePlace_of_waiting waits⟩
  · exact .inr ⟨Finset.disjoint_left.mp (sound.windowFinished holder) held,
      tracked.inOnePlace_of_window live held⟩

theorem length_redistPending_le (tracked : Tracked e) :
    e.redistPending.length ≤ redistCapacity := by
  have nodup : e.redistPending.Nodup := by simpa using tracked.mirrors.nodup
  have few : e.board.failures ≤ maxExitNodes :=
    (Nat.le_add_left _ _).trans tracked.mirrors.sound.crewBound
  calc e.redistPending.length = e.board.waiting.card := by
        rw [tracked.mirrors.waiting, List.append_nil, List.toFinset_card_of_nodup nodup]
    _ ≤ arqWindow * e.board.failures := tracked.mirrors.sound.waitingBound
    _ ≤ redistCapacity := Nat.mul_le_mul_left _ few

theorem totalMeshInflight_le (tracked : Tracked e) : e.totalMeshInflight ≤ e.meshWindowCap := by
  by_cases idle : e.transfer.exitNodeCount = 0
  · simp [totalMeshInflight, idle]
  · rw [← tracked.mirrors.load_eq, ← tracked.mirrors.capacity idle]
    exact tracked.mirrors.sound.loadBound

end Tracked

/-- In every run, for any send results and reads, the multi-exit sender loses no
fragment and duplicates none: the queue of redistributed fragments never overflows,
the windows stay under the cap, and as long as an exit is alive every dispatched
data fragment is acknowledged or in exactly one place. -/
theorem sender_accounts_for_every_fragment [PathArith F] (myAddr maxElectedExits : Nat)
    (calls : List Call) :
    let e := (TransferEngine.boot myAddr maxElectedExits : TransferEngine F).run calls
    (∀ seq, Move.lose seq ∉ e.log) ∧ e.redistPending.length ≤ redistCapacity ∧
      e.totalMeshInflight ≤ e.meshWindowCap ∧
      ((∃ index, e.ExitAlive index) →
        ∀ seq < e.transfer.nextFragment, isParitySlot seq = false → e.AccountedFor seq) := by
  intro e
  have tracked : Tracked e := (Tracked.boot myAddr maxElectedExits).run calls
  refine ⟨tracked.mirrors.valid.no_loss, tracked.length_redistPending_le,
    tracked.totalMeshInflight_le, ?_⟩
  intro alive seq dispatched data
  exact tracked.accountedFor alive dispatched data

/-! ## A small transfer -/

/-- Three bytes from a node one hop away from the exits, started at one second. -/
def smallStart : Call where
  env := { clock := fun _ => 1000, random := 7 }
  event := .startFileTransfer
    { filename := [102]
      size := 3
      readChunk := fun offset len => ([1, 2, 3].drop offset).take len }

/-- The exit offer of the node at `addr` for the small transfer. -/
def smallOffer (addr : Nat) : Call where
  env := { clock := fun _ => 1100 }
  event := .transferAck (TransferAck.toBytes
    { sessionId := 7
      exitNodeAddr := addr
      rssiToGw := -40
      hopsToGw := 0
      activeTransfers := 0 })

def tickAt (now : Nat) : Call where
  env := { clock := fun _ => now }
  event := .tick now

/-- Two exits are elected and the only fragment is sent to the first. -/
def smallRun : List Call := [smallStart, smallOffer 10, smallOffer 11, tickAt 9000]

theorem sender_accounts_for_small_transfer :
    let e := (TransferEngine.boot 1 4 : TransferEngine ℚ).run smallRun
    e.ExitAlive 0 ∧ 0 < e.transfer.nextFragment ∧ e.AccountedFor 0 := by
  have alive : ((TransferEngine.boot 1 4 : TransferEngine ℚ).run smallRun).ExitAlive 0 := by
    constructor <;> decide +kernel
  have fed : 0 < ((TransferEngine.boot 1 4 : TransferEngine ℚ).run
      smallRun).transfer.nextFragment := by decide +kernel
  exact ⟨alive, fed, (sender_accounts_for_every_fragment 1 4 smallRun).2.2.2 ⟨0, alive⟩ 0 fed
    (by decide)⟩

end ForestLink.Mesh.TransferEngine
