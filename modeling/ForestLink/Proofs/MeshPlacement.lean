/-
Module: ForestLink.Proofs.MeshPlacement
Purpose: The multi-exit sender refines the abstract dispatcher: every call of the
  engine makes only allowed moves, and the board of its log is where the engine
  really keeps the fragments.
Trusted boundary: none
Main exports: senderRules, board, Mirrors, Scheduled, Mirrors.step,
  sender_accounts_for_every_fragment
-/
import Mathlib.Algebra.BigOperators.Fin
import ForestLink.Proofs.MeshFrames

namespace ForestLink.Mesh.TransferEngine

open ForestLink.Lib
open ForestLink.Lib.Dispatch
open ForestLink.Protocol

variable {F : Type}

/-! ## The abstraction -/

/-- The sender as a dispatcher: up to four exits, windows of 64, and only parity
may be dropped. -/
def senderRules : Rules where
  crew := maxExitNodes
  windowSize := arqWindow
  required seq := !isParitySlot seq

/-- Where the log says every fragment of the running transfer is. -/
def board (e : TransferEngine F) : Board Nat := Board.replay senderRules e.log

/-- The engine agrees with its board.  `held` are the fragments that the running
loop still has in hand on their way to a window or to `redist_pending_`. -/
structure Mirrors (e : TransferEngine F) (held : List Nat) : Prop where
  valid : Valid senderRules e.log
  wf : ∀ index, (e.arq index).Wf
  windowSize : ∀ index, (e.arq index).windowSize = arqWindow
  window : ∀ index, e.board.window index = (e.arq index).pending
  live : ∀ index, index ∈ e.board.live ↔
    index < e.transfer.exitNodeCount ∧ e.transfer.exitNodeAlive index = true
  next : e.board.next = e.transfer.nextFragment
  waiting : e.board.waiting = (e.redistPending ++ held).toFinset
  nodup : (e.redistPending ++ held).Nodup
  capacity : e.transfer.exitNodeCount ≠ 0 → e.board.capacity = e.meshWindowCap
  idle : e.transfer.exitNodeCount = 0 → e.board = {}
  bounded : e.transfer.nextFragment ≤ maxFragmentCount

namespace Mirrors

variable {e after : TransferEngine F} {held : List Nat}

theorem sound (mirrors : Mirrors e held) : Board.Sound senderRules e.board :=
  Board.Sound.replay mirrors.valid

/-- The log, the queue and the exits are as before, and the windows hold the same
fragments. -/
theorem of_windows (mirrors : Mirrors e held) (log : after.log = e.log)
    (redist : after.redistPending = e.redistPending)
    (count : after.transfer.exitNodeCount = e.transfer.exitNodeCount)
    (alive : after.transfer.exitNodeAlive = e.transfer.exitNodeAlive)
    (next : after.transfer.nextFragment = e.transfer.nextFragment)
    (cap : e.transfer.exitNodeCount ≠ 0 → after.meshWindowCap = e.meshWindowCap)
    (windows : ∀ index, (after.arq index).Wf ∧
      (after.arq index).windowSize = (e.arq index).windowSize ∧
      (after.arq index).pending = (e.arq index).pending) :
    Mirrors after held := by
  have sameBoard : after.board = e.board := congrArg (Board.replay senderRules) log
  constructor
  · rw [log]
    exact mirrors.valid
  · exact fun index => (windows index).1
  · intro index
    rw [(windows index).2.1]
    exact mirrors.windowSize index
  · intro index
    rw [sameBoard, (windows index).2.2]
    exact mirrors.window index
  · rw [sameBoard, count, alive]
    exact mirrors.live
  · rw [sameBoard, next]
    exact mirrors.next
  · rw [sameBoard, redist]
    exact mirrors.waiting
  · rw [redist]
    exact mirrors.nodup
  · intro busy
    rw [count] at busy
    rw [sameBoard, cap busy]
    exact mirrors.capacity busy
  · rw [sameBoard, count]
    exact mirrors.idle
  · rw [next]
    exact mirrors.bounded

theorem of_keepsFragments (mirrors : Mirrors e held) (keeps : KeepsFragments e after) :
    Mirrors after held :=
  mirrors.of_windows keeps.log keeps.redistPending
    (congrArg ActiveTransfer.exitNodeCount keeps.transfer)
    (congrArg ActiveTransfer.exitNodeAlive keeps.transfer)
    (congrArg ActiveTransfer.nextFragment keeps.transfer)
    (fun _ => congrArg Role.meshWindowCap keeps.role) fun index =>
      ⟨(keeps.arq index).wf (mirrors.wf index), (keeps.arq index).windowSize,
        (keeps.arq index).pending⟩

theorem of_keeps (mirrors : Mirrors e held) (keeps : Keeps e after) : Mirrors after held :=
  mirrors.of_keepsFragments keeps.toKeepsFragments

/-- `total_mesh_inflight` is the load of the board. -/
theorem load_eq (mirrors : Mirrors e held) : e.board.load = e.totalMeshInflight := by
  have listSum : ∀ (n : Nat) (f : Nat → Nat),
      ((List.range n).map f).sum = ∑ index ∈ Finset.range n, f index := by
    intro n f
    induction n with
    | zero => rfl
    | succ n inductionHypothesis =>
        rw [List.range_succ, List.map_append, List.sum_append, inductionHypothesis,
          Finset.sum_range_succ]
        simp
  have inFlight : ∀ index, (e.arq index).senderWindowUsed = (e.board.window index).card := by
    intro index
    rw [mirrors.window, (mirrors.wf index).card_pending]
    rfl
  unfold totalMeshInflight Board.load
  rw [listSum]
  simp only [inFlight]
  apply Finset.sum_subset
  · intro index live
    exact Finset.mem_range.mpr ((mirrors.live index).mp live).1
  · intro index _ dead
    rw [mirrors.sound.idle index dead]
    rfl

theorem lt_of_waiting (mirrors : Mirrors e held) {seq : Nat} (waits : seq ∈ e.board.waiting) :
    seq < noSeqTag := by
  have below := mirrors.sound.waitingBelow seq waits
  have bounded := mirrors.bounded
  rw [mirrors.next] at below
  exact lt_of_lt_of_le below (bounded.trans (by decide))

end Mirrors

/-! ## Choosing a target -/

theorem selectMeshTargetForSeq_spec [PathArith F] {e : TransferEngine F} {seq index : Nat}
    (selected : e.selectMeshTargetForSeq seq = some index) :
    e.totalMeshInflight < e.meshWindowCap ∧ index < e.transfer.exitNodeCount ∧
      e.transfer.exitNodeAlive index = true := by
  have fold : ∀ (candidates : List Nat) (score : Nat → F) (start : Option Nat × F),
      (∀ found, start.1 = some found → found ∈ e.eligibleExits seq) →
      (∀ found ∈ candidates, found ∈ e.eligibleExits seq) →
      ∀ found, (candidates.foldl (fun best i =>
          if PathArith.lt best.2 (score i) then (some i, score i) else best) start).1 =
        some found → found ∈ e.eligibleExits seq := by
    intro candidates score
    induction candidates with
    | nil => exact fun _ startOk _ => startOk
    | cons candidate rest inductionHypothesis =>
        intro start startOk allOk
        rw [List.foldl_cons]
        apply inductionHypothesis
        · intro found
          split
          · intro same
            rw [← Option.some.inj same]
            exact allOk candidate List.mem_cons_self
          · exact startOk found
        · exact fun found member => allOk found (List.mem_cons_of_mem _ member)
  unfold selectMeshTargetForSeq at selected
  dsimp only at selected
  split at selected
  · contradiction
  rename_i room
  have eligible : index ∈ e.eligibleExits seq := by
    rcases Option.or_eq_some_iff.mp selected with best | ⟨_, first⟩
    · refine fold _ _ _ ?_ (fun _ member => member) index best
      intro found impossible
      contradiction
    · exact List.mem_of_head? first
  have member := List.mem_filter.mp eligible
  simp only [Bool.and_eq_true] at member
  exact ⟨Nat.lt_of_not_le room, List.mem_range.mp member.1, member.2.1.1⟩

/-! ## One transmission -/

theorem role_sendFragment (e : TransferEngine F) (index seq : Nat) (data : List UInt8) :
    (e.sendFragment index seq data).2.role = e.role := rfl

/-- A data fragment is read, then sent. -/
theorem frame_readThenSend (e : TransferEngine F) (index seq : Nat) (data : List UInt8) :
    ((e.readFragment seq).2.sendFragment index seq data).2.role = e.role ∧
      ((e.readFragment seq).2.sendFragment index seq data).2.transfer = e.transfer :=
  ⟨(role_sendFragment _ index seq data).trans (keeps_readFragment e seq).role, rfl⟩

theorem role_fedFragment (e : TransferEngine F) (index seq now time : Nat)
    (encoder : FecEncoder) :
    { e.fedFragment index seq now time with fecEncoder := encoder }.role = e.role := rfl

theorem role_readThenFeed (e : TransferEngine F) (index seq now : Nat) (data : List UInt8)
    (time : Nat) (encoder : FecEncoder) :
    { ((e.readFragment seq).2.sendFragment index seq data).2.fedFragment index seq now time with
      fecEncoder := encoder }.role = e.role :=
  (role_fedFragment _ index seq now time encoder).trans (frame_readThenSend e index seq data).1

namespace Mirrors

variable {e : TransferEngine F} {held : List Nat}

/-- Windows after a transmission: the chosen one gains the fragment or nothing. -/
theorem sendFragment_windows (mirrors : Mirrors e held) (index : Nat) {seq : Nat}
    (small : seq < noSeqTag) (data : List UInt8) :
    let sent := e.sendFragment index seq data
    (∀ other, (sent.2.arq other).Wf ∧ (sent.2.arq other).windowSize = arqWindow) ∧
      (∀ other, other ≠ index → (sent.2.arq other).pending = (e.arq other).pending) ∧
      ((sent.1 = 0 ∧ (sent.2.arq index).pending = insert seq (e.arq index).pending) ∨
        (sent.1 = -1 ∧ (sent.2.arq index).pending = (e.arq index).pending)) := by
  obtain ⟨wf, windowSize, outcome⟩ :=
    SelectiveRepeat.sendFragment_spec Io.radio (mirrors.wf index) e.io small data
  have here : (e.sendFragment index seq data).2.arq index =
      (SelectiveRepeat.sendFragment Io.radio e.io (e.arq index) seq data).2.1 :=
    Function.update_self ..
  have elsewhere : ∀ other, other ≠ index →
      (e.sendFragment index seq data).2.arq other = e.arq other :=
    fun other different => Function.update_of_ne different ..
  refine ⟨?_, ?_, ?_⟩
  · intro other
    by_cases same : other = index
    · subst same
      rw [here, windowSize]
      exact ⟨wf, mirrors.windowSize other⟩
    · rw [elsewhere other same]
      exact ⟨mirrors.wf other, mirrors.windowSize other⟩
  · intro other different
    rw [elsewhere other different]
  · rw [here]
    exact outcome

/-- A refused transmission leaves every fragment where it was. -/
theorem refused (mirrors : Mirrors e held) {index seq : Nat} (small : seq < noSeqTag)
    {data : List UInt8} (failed : (e.sendFragment index seq data).1 ≠ 0) :
    Mirrors (e.sendFragment index seq data).2 held := by
  obtain ⟨shape, others, outcome⟩ := mirrors.sendFragment_windows index small data
  refine mirrors.of_windows rfl rfl rfl rfl rfl (fun _ => rfl) ?_
  intro other
  refine ⟨(shape other).1, ?_, ?_⟩
  · rw [(shape other).2, mirrors.windowSize other]
  · by_cases same : other = index
    · subst same
      rcases outcome with ⟨accepted, _⟩ | ⟨_, unchanged⟩
      · exact absurd accepted failed
      · exact unchanged
    · exact others other same

/-- After an accepted transmission the chosen window is exactly the old one with
the fragment added, and it was not full. -/
theorem accepted_windows (mirrors : Mirrors e held) {index seq : Nat} (small : seq < noSeqTag)
    {data : List UInt8} (sent : (e.sendFragment index seq data).1 = 0)
    (fresh : seq ∉ e.board.window index) :
    (∀ other, Function.update e.board.window index (insert seq (e.board.window index)) other =
        ((e.sendFragment index seq data).2.arq other).pending) ∧
      (e.board.window index).card < arqWindow := by
  obtain ⟨shape, others, outcome⟩ := mirrors.sendFragment_windows index small data
  have added : ((e.sendFragment index seq data).2.arq index).pending =
      insert seq (e.arq index).pending := by
    rcases outcome with ⟨_, added⟩ | ⟨failed, _⟩
    · exact added
    · rw [sent] at failed
      contradiction
  constructor
  · intro other
    by_cases same : other = index
    · subst same
      rw [Function.update_self, added, mirrors.window]
    · rw [Function.update_of_ne same, others other same, mirrors.window]
  · have count := (shape index).1.card_pending
    have bound := (shape index).1.inFlight_le
    rw [mirrors.window] at fresh ⊢
    rw [added, Finset.card_insert_of_notMem fresh] at count
    rw [(shape index).2] at bound
    omega

/-- The head of the fragments in hand goes to a window. -/
theorem resume {seq index : Nat} {data : List UInt8} (time : Nat)
    (mirrors : Mirrors e (seq :: held))
    (live : index < e.transfer.exitNodeCount ∧ e.transfer.exitNodeAlive index = true)
    (room : e.totalMeshInflight < e.meshWindowCap)
    (sent : (e.sendFragment index seq data).1 = 0) :
    Mirrors ((e.sendFragment index seq data).2.note (.resume index seq time)) held := by
  have waits : seq ∈ e.board.waiting := by
    rw [mirrors.waiting]
    simp
  have fresh : seq ∉ e.board.window index := fun member =>
    Finset.disjoint_left.mp (mirrors.sound.windowWaiting index) member waits
  have small := mirrors.lt_of_waiting waits
  have busy : e.transfer.exitNodeCount ≠ 0 := Nat.ne_of_gt (Nat.zero_lt_of_lt live.1)
  obtain ⟨windows, windowRoom⟩ := mirrors.accepted_windows small sent fresh
  obtain ⟨shape, _, _⟩ := mirrors.sendFragment_windows index small data
  have allowed : e.board.Allowed senderRules (.resume index seq time) :=
    ⟨(mirrors.live index).mpr live, waits, by
      rw [mirrors.load_eq, mirrors.capacity busy]
      exact room, windowRoom⟩
  have boardEq : ((e.sendFragment index seq data).2.note (.resume index seq time)).board =
      e.board.apply senderRules (.resume index seq time) := rfl
  have nodup : (e.redistPending ++ held).Nodup :=
    mirrors.nodup.sublist
      ((List.Sublist.refl e.redistPending).append (List.sublist_cons_self seq held))
  constructor
  · exact .cons mirrors.valid allowed
  · exact fun other => (shape other).1
  · exact fun other => (shape other).2
  · rw [boardEq]
    exact windows
  · rw [boardEq]
    exact mirrors.live
  · rw [boardEq]
    exact mirrors.next
  · rw [boardEq]
    change e.board.waiting.erase seq = (e.redistPending ++ held).toFinset
    rw [mirrors.waiting]
    have apart : seq ∉ e.redistPending ++ held := by
      have split := List.nodup_middle.mp mirrors.nodup
      exact (List.nodup_cons.mp split).1
    ext other
    simp only [Finset.mem_erase, List.mem_toFinset, List.mem_append, List.mem_cons]
    constructor
    · rintro ⟨different, queued | rfl | later⟩
      · exact .inl queued
      · exact absurd rfl different
      · exact .inr later
    · intro member
      have different : other ≠ seq := by
        rintro rfl
        exact apart (List.mem_append.mpr member)
      rcases member with queued | later
      · exact ⟨different, .inl queued⟩
      · exact ⟨different, .inr (.inr later)⟩
  · exact nodup
  · rw [boardEq]
    exact mirrors.capacity
  · intro empty
    exact absurd empty busy
  · exact mirrors.bounded

/-- The head of the fragments in hand goes to `redist_pending_`. -/
theorem push {seq : Nat} (mirrors : Mirrors e (seq :: held)) :
    Mirrors { e with redistPending := e.redistPending ++ [seq] } held := by
  have assoc : (e.redistPending ++ [seq]) ++ held = e.redistPending ++ seq :: held := by simp
  exact
    { mirrors with
      waiting := by
        rw [assoc]
        exact mirrors.waiting
      nodup := by
        rw [assoc]
        exact mirrors.nodup }

/-- The loop takes the whole of `redist_pending_` in hand. -/
theorem takeRedist (mirrors : Mirrors e []) :
    Mirrors { e with redistPending := [] } e.redistPending :=
  { mirrors with
    waiting := by
      rw [List.nil_append]
      exact mirrors.waiting.trans (by rw [List.append_nil])
    nodup := by
      rw [List.nil_append]
      simpa using mirrors.nodup }

/-- With an exit alive `redist_pending_` has room: every death adds at most one
window of fragments, and at most three exits are dead. -/
theorem redist_room {seq : Nat} (mirrors : Mirrors e (seq :: held))
    (someLive : e.board.live.Nonempty) : e.redistPending.length < redistCapacity := by
  have waiting := mirrors.sound.waitingBound
  have crew := mirrors.sound.crewBound
  have alive := Finset.card_pos.mpr someLive
  have count : e.board.waiting.card = e.redistPending.length + (held.length + 1) := by
    rw [mirrors.waiting, List.toFinset_card_of_nodup mirrors.nodup, List.length_append,
      List.length_cons]
  have few : e.board.failures ≤ 3 := by
    have crewSize : senderRules.crew = 4 := rfl
    omega
  calc e.redistPending.length < e.board.waiting.card := by omega
    _ ≤ arqWindow * e.board.failures := waiting
    _ ≤ arqWindow * 3 := Nat.mul_le_mul_left _ few
    _ ≤ redistCapacity := by decide

theorem enqueueRedist {seq : Nat} (mirrors : Mirrors e (seq :: held))
    (someLive : e.board.live.Nonempty) :
    Mirrors (e.enqueueRedist seq) held ∧ (e.enqueueRedist seq).log = e.log ∧
      (e.enqueueRedist seq).role = e.role ∧ (e.enqueueRedist seq).transfer = e.transfer := by
  have room := mirrors.redist_room someLive
  unfold TransferEngine.enqueueRedist
  rw [if_pos room]
  exact ⟨mirrors.push, rfl, rfl, rfl⟩

/-- The FEC encoder is not part of the placement. -/
theorem setEncoder (mirrors : Mirrors e held) (encoder : FecEncoder) :
    Mirrors { e with fecEncoder := encoder } held :=
  { mirrors with idle := mirrors.idle }

/-- A new fragment goes to a window. -/
theorem assign {index : Nat} {data : List UInt8} (now time : Nat)
    (mirrors : Mirrors e held)
    (live : index < e.transfer.exitNodeCount ∧ e.transfer.exitNodeAlive index = true)
    (room : e.totalMeshInflight < e.meshWindowCap)
    (inRange : e.transfer.nextFragment < maxFragmentCount)
    (sent : (e.sendFragment index e.transfer.nextFragment data).1 = 0) :
    Mirrors ((e.sendFragment index e.transfer.nextFragment data).2.fedFragment index
      e.transfer.nextFragment now time) held := by
  have fresh : e.transfer.nextFragment ∉ e.board.window index := by
    intro member
    have below := mirrors.sound.windowBelow index _ member
    rw [mirrors.next] at below
    exact Nat.lt_irrefl _ below
  have small : e.transfer.nextFragment < noSeqTag := inRange.trans (by decide)
  have busy : e.transfer.exitNodeCount ≠ 0 := Nat.ne_of_gt (Nat.zero_lt_of_lt live.1)
  obtain ⟨windows, windowRoom⟩ := mirrors.accepted_windows small sent fresh
  obtain ⟨shape, _, _⟩ := mirrors.sendFragment_windows index small data
  have allowed : e.board.Allowed senderRules (.assign index e.transfer.nextFragment time) :=
    ⟨(mirrors.live index).mpr live, mirrors.next.symm, by
      rw [mirrors.load_eq, mirrors.capacity busy]
      exact room, windowRoom⟩
  constructor
  · exact .cons mirrors.valid allowed
  · exact fun other => (shape other).1
  · exact fun other => (shape other).2
  · exact windows
  · exact mirrors.live
  · rfl
  · exact mirrors.waiting
  · exact mirrors.nodup
  · exact mirrors.capacity
  · intro empty
    exact absurd empty busy
  · exact inRange

theorem sendFragment_eq_zero (mirrors : Mirrors e held) {index seq : Nat}
    (small : seq < noSeqTag) {data : List UInt8}
    (accepted : ¬ (e.sendFragment index seq data).1 < 0) :
    (e.sendFragment index seq data).1 = 0 := by
  obtain ⟨_, _, ⟨zero, _⟩ | ⟨failed, _⟩⟩ := mirrors.sendFragment_windows index small data
  · exact zero
  · rw [failed] at accepted
    contradiction

/-- The snapshot of a window lists its fragments, each of them once. -/
theorem snapshot (mirrors : Mirrors e held) (index : Nat) :
    let pending := (e.arq index).snapshotPendingSequences arqWindow
    (∀ seq, seq ∈ pending ↔ seq ∈ e.board.window index) ∧ pending.Nodup ∧
      pending.length = (e.board.window index).card := by
  have wf := mirrors.wf index
  have perm := wf.snapshot_perm (Nat.le_of_eq (mirrors.windowSize index))
  refine ⟨?_, perm.nodup_iff.mpr wf.nodup_occupiedTags, ?_⟩
  · intro seq
    rw [perm.mem_iff, wf.mem_occupiedTags, mirrors.window]
  · rw [perm.length_eq, wf.length_occupiedTags, mirrors.window, wf.card_pending]

/-- After a death the window of the dead exit is empty and the others are as before. -/
theorem buryExit_windows (mirrors : Mirrors e held) (dead index : Nat) :
    let buried := e.buryExit dead
    ((buried.arq index).Wf ∧ (buried.arq index).windowSize = arqWindow) ∧
      buried.board.window index = (buried.arq index).pending ∧
      (index ∈ buried.board.live ↔ index < buried.transfer.exitNodeCount ∧
        buried.transfer.exitNodeAlive index = true) := by
  intro buried
  change (_ ∧ _) ∧ Function.update e.board.window dead ∅ index = _ ∧
    (index ∈ e.board.live.erase dead ↔ index < e.transfer.exitNodeCount ∧
      Function.update e.transfer.exitNodeAlive dead false index = true)
  rw [Finset.mem_erase, mirrors.live]
  by_cases same : index = dead
  · subst same
    have reset : buried.arq index = (e.arq index).resetSender := Function.update_self ..
    rw [reset, Function.update_self, Function.update_self, SelectiveRepeat.pending_resetSender]
    exact ⟨⟨SelectiveRepeat.wf_resetSender (mirrors.wf index).sized, mirrors.windowSize index⟩,
      rfl, by simp⟩
  · have kept : buried.arq index = e.arq index := Function.update_of_ne same ..
    rw [kept, Function.update_of_ne same, Function.update_of_ne same]
    exact ⟨⟨mirrors.wf index, mirrors.windowSize index⟩, mirrors.window index, by simp [same]⟩

/-- Marking a live exit dead: its fragments are in the hand of the loop if another
exit survives, and given up otherwise. -/
theorem buryExit {dead : Nat} (mirrors : Mirrors e [])
    (alive : dead < e.transfer.exitNodeCount ∧ e.transfer.exitNodeAlive dead = true) :
    let pending := (e.arq dead).snapshotPendingSequences arqWindow
    let buried := e.buryExit dead
    (buried.board.live = ∅ → Mirrors buried []) ∧
      (buried.board.live ≠ ∅ →
        Mirrors buried (pending.filter fun seq => !isParitySlot seq)) ∧
      buried.board.load + pending.length ≤ buried.board.capacity := by
  intro pending buried
  have member := (mirrors.live dead).mpr alive
  have busy : e.transfer.exitNodeCount ≠ 0 := Nat.ne_of_gt (Nat.zero_lt_of_lt alive.1)
  have valid : Valid senderRules buried.log := .cons mirrors.valid member
  obtain ⟨inPending, nodupPending, lengthPending⟩ :
      (∀ seq, seq ∈ pending ↔ seq ∈ e.board.window dead) ∧ pending.Nodup ∧
        pending.length = (e.board.window dead).card := mirrors.snapshot dead
  have wf index := (mirrors.buryExit_windows dead index).1.1
  have windowSize index := (mirrors.buryExit_windows dead index).1.2
  have window index := (mirrors.buryExit_windows dead index).2.1
  have live index := (mirrors.buryExit_windows dead index).2.2
  have waiting : buried.board.waiting = if e.board.live.erase dead = ∅ then e.board.waiting
      else e.board.waiting ∪ (e.board.window dead).filter fun seq => !isParitySlot seq := rfl
  refine ⟨?_, ?_, ?_⟩
  · intro nobody
    have noneLeft : e.board.live.erase dead = ∅ := nobody
    exact
      { mirrors with
        valid, wf, windowSize, window, live
        waiting := by
          rw [waiting, if_pos noneLeft]
          exact mirrors.waiting
        idle := fun empty => absurd empty busy }
  · intro survivors
    have someLeft : e.board.live.erase dead ≠ ∅ := survivors
    have apart : ∀ seq ∈ e.redistPending, seq ∉ pending.filter fun seq => !isParitySlot seq := by
      intro seq queued inHand
      have waits : seq ∈ e.board.waiting := by
        rw [mirrors.waiting, List.append_nil]
        exact List.mem_toFinset.mpr queued
      exact Finset.disjoint_left.mp (mirrors.sound.windowWaiting dead)
        ((inPending seq).mp (List.mem_of_mem_filter inHand)) waits
    exact
      { mirrors with
        valid, wf, windowSize, window, live
        waiting := by
          have queue : buried.redistPending = e.redistPending := rfl
          rw [waiting, if_neg someLeft, mirrors.waiting, queue]
          ext seq
          simp [inPending]
        nodup := by
          have queued : e.redistPending.Nodup := by simpa using mirrors.nodup
          exact queued.append (nodupPending.filter _) (List.disjoint_left.mpr apart)
        idle := fun empty => absurd empty busy }
  · have freed : (e.board.apply senderRules (.fail dead)).load + _ = _ :=
      Board.load_fail member
    have bound := mirrors.sound.loadBound
    rw [lengthPending]
    exact freed.le.trans bound

end Mirrors

/-! ## The redistribution queue -/

section Redistribution

variable [PathArith F] {e : TransferEngine F} {held : List Nat}

theorem Mirrors.drainRedistEntry {seq : Nat} (mirrors : Mirrors e (seq :: held)) :
    Mirrors (e.drainRedistEntry seq) held ∧ (e.drainRedistEntry seq).role = e.role ∧
      (e.drainRedistEntry seq).transfer = e.transfer := by
  have small : seq < noSeqTag := mirrors.lt_of_waiting (by
    rw [mirrors.waiting]
    simp)
  unfold TransferEngine.drainRedistEntry
  split
  · exact ⟨mirrors.push, rfl, rfl⟩
  rename_i target selected
  obtain ⟨room, live⟩ := selectMeshTargetForSeq_spec selected
  have read : Mirrors (e.readFragment seq).2 (seq :: held) :=
    mirrors.of_keeps (keeps_readFragment e seq)
  obtain ⟨role, transfer⟩ := frame_readThenSend e target seq (e.readFragment seq).1
  split
  · dsimp only
    split
    · rename_i failed
      exact ⟨(read.refused small (Int.ne_of_lt failed)).push, role, transfer⟩
    · rename_i accepted
      exact ⟨read.resume _ live room (read.sendFragment_eq_zero small accepted), role, transfer⟩
  · exact ⟨mirrors.push, rfl, rfl⟩

theorem Mirrors.drainRedistEntries {seqs : List Nat} (mirrors : Mirrors e seqs) :
    let after := seqs.foldl TransferEngine.drainRedistEntry e
    Mirrors after [] ∧ after.role = e.role ∧ after.transfer = e.transfer := by
  induction seqs generalizing e with
  | nil => exact ⟨mirrors, rfl, rfl⟩
  | cons seq rest inductionHypothesis =>
      obtain ⟨entry, role, transfer⟩ := mirrors.drainRedistEntry
      obtain ⟨final, restRole, restTransfer⟩ := inductionHypothesis entry
      exact ⟨final, restRole.trans role, restTransfer.trans transfer⟩

theorem Mirrors.drainRedist (mirrors : Mirrors e []) :
    Mirrors e.drainRedist [] ∧ e.drainRedist.role = e.role ∧
      e.drainRedist.transfer = e.transfer := by
  exact mirrors.takeRedist.drainRedistEntries

/-! ## Death of an exit -/

/-- One fragment of a dead exit keeps the mirror; `slack` says that the fragments
still in hand fit under the cap. -/
theorem Mirrors.redistributeFragment {seq firstAlive : Nat}
    (mirrors : Mirrors e (seq :: held)) (data : isParitySlot seq = false)
    (first : firstAlive < e.transfer.exitNodeCount ∧
      e.transfer.exitNodeAlive firstAlive = true)
    (slack : e.board.load + (held.length + 1) ≤ e.board.capacity) :
    let after := e.redistributeFragment firstAlive seq
    Mirrors after held ∧ after.board.load + held.length ≤ after.board.capacity ∧
      after.role = e.role ∧ after.transfer = e.transfer := by
  have waits : seq ∈ e.board.waiting := by
    rw [mirrors.waiting]
    simp
  have small := mirrors.lt_of_waiting waits
  have busy : e.transfer.exitNodeCount ≠ 0 := Nat.ne_of_gt (Nat.zero_lt_of_lt first.1)
  have someLive : e.board.live.Nonempty := ⟨firstAlive, (mirrors.live firstAlive).mpr first⟩
  have room : e.totalMeshInflight < e.meshWindowCap := by
    rw [← mirrors.load_eq, ← mirrors.capacity busy]
    omega
  obtain ⟨target, targetEq⟩ :
      ∃ target, target = (e.selectMeshTargetForSeq seq).getD firstAlive := ⟨_, rfl⟩
  have live : target < e.transfer.exitNodeCount ∧ e.transfer.exitNodeAlive target = true := by
    cases selected : e.selectMeshTargetForSeq seq with
    | none =>
        rw [targetEq, selected]
        exact first
    | some index =>
        rw [targetEq, selected]
        exact (selectMeshTargetForSeq_spec selected).2
  have read : Mirrors (e.readFragment seq).2 (seq :: held) :=
    mirrors.of_keeps (keeps_readFragment e seq)
  have loadLe : ∀ {after : TransferEngine F}, after.log = e.log →
      after.board.load + held.length ≤ after.board.capacity := by
    intro after log
    rw [board, log]
    exact le_trans (Nat.add_le_add_left (Nat.le_succ _) _) slack
  unfold TransferEngine.redistributeFragment
  rw [data, ← targetEq]
  simp only [Bool.false_eq_true, if_false]
  split
  · split
    · rename_i sent
      obtain ⟨role, transfer⟩ := frame_readThenSend e target seq (e.readFragment seq).1
      refine ⟨read.resume _ live room sent, ?_, role, transfer⟩
      have fresh : seq ∉ e.board.window target := fun member =>
        Finset.disjoint_left.mp (mirrors.sound.windowWaiting target) member waits
      have grown := Board.load_insert ((mirrors.live target).mpr live) fresh
      change ∑ other ∈ e.board.live, (Function.update e.board.window target
        (insert seq (e.board.window target)) other).card + held.length ≤ e.board.capacity
      omega
    · rename_i failed
      obtain ⟨queued, log, role, transfer⟩ := (read.refused small failed).enqueueRedist someLive
      exact ⟨queued, loadLe log, role, transfer⟩
  · obtain ⟨queued, log, role, transfer⟩ := mirrors.enqueueRedist someLive
    exact ⟨queued, loadLe log, role, transfer⟩

theorem Mirrors.redistributeFragments {pending : List Nat} {firstAlive : Nat}
    (mirrors : Mirrors e (pending.filter fun seq => !isParitySlot seq))
    (first : firstAlive < e.transfer.exitNodeCount ∧
      e.transfer.exitNodeAlive firstAlive = true)
    (slack : e.board.load + pending.length ≤ e.board.capacity) :
    let after := pending.foldl (TransferEngine.redistributeFragment firstAlive) e
    Mirrors after [] ∧ after.role = e.role ∧ after.transfer = e.transfer := by
  have tight : e.board.load + (pending.filter fun seq => !isParitySlot seq).length ≤
      e.board.capacity := le_trans (Nat.add_le_add_left (List.length_filter_le _ _) _) slack
  clear slack
  induction pending generalizing e with
  | nil => exact ⟨mirrors, rfl, rfl⟩
  | cons seq rest inductionHypothesis =>
      cases parity : isParitySlot seq with
      | true =>
          have skipped : e.redistributeFragment firstAlive seq = e := by
            simp [TransferEngine.redistributeFragment, parity]
          rw [List.filter_cons_of_neg (by simp [parity])] at mirrors tight
          rw [List.foldl_cons, skipped]
          exact inductionHypothesis mirrors first tight
      | false =>
          rw [List.filter_cons_of_pos (by simp [parity])] at mirrors tight
          obtain ⟨moved, slack, role, transfer⟩ :=
            mirrors.redistributeFragment parity first tight
          rw [← transfer] at first
          obtain ⟨final, restRole, restTransfer⟩ := inductionHypothesis moved first slack
          exact ⟨final, restRole.trans role, restTransfer.trans transfer⟩

theorem Mirrors.redistributeDeadExit {dead : Nat} (mirrors : Mirrors e [])
    (live : dead < e.transfer.exitNodeCount ∧ e.transfer.exitNodeAlive dead = true) :
    let after := e.redistributeDeadExit dead
    Mirrors after [] ∧ after.role = e.role ∧
      after.transfer =
        { e.transfer with
          exitNodeAlive := Function.update e.transfer.exitNodeAlive dead false } := by
  obtain ⟨alone, survived, slack⟩ := mirrors.buryExit live
  unfold TransferEngine.redistributeDeadExit
  dsimp only
  split
  · rename_i nobody
    refine ⟨alone ?_, rfl, rfl⟩
    rw [List.find?_eq_none] at nobody
    apply Finset.eq_empty_of_forall_notMem
    intro index member
    -- The live workers of the board after the death are the old ones without it.
    have stillLive : index ∈ e.board.live.erase dead := member
    rw [Finset.mem_erase, mirrors.live] at stillLive
    have alive : (e.buryExit dead).transfer.exitNodeAlive index = true :=
      (Function.update_of_ne stillLive.1 ..).trans stillLive.2.2
    exact nobody index (List.mem_range.mpr stillLive.2.1) alive
  · rename_i firstAlive found
    have inRange : firstAlive < e.transfer.exitNodeCount :=
      List.mem_range.mp (List.mem_of_find?_eq_some found)
    have alive : (e.buryExit dead).transfer.exitNodeAlive firstAlive = true :=
      List.find?_some found
    have different : firstAlive ≠ dead := by
      rintro rfl
      have dead : (e.buryExit firstAlive).transfer.exitNodeAlive firstAlive = false :=
        Function.update_self ..
      rw [dead] at alive
      contradiction
    have liveBefore : e.transfer.exitNodeAlive firstAlive = true :=
      (Function.update_of_ne different ..).symm.trans alive
    have survivors : (e.buryExit dead).board.live ≠ ∅ := by
      apply Finset.Nonempty.ne_empty
      exact ⟨firstAlive, Finset.mem_erase.mpr
        ⟨different, (mirrors.live firstAlive).mpr ⟨inRange, liveBefore⟩⟩⟩
    exact (survived survivors).redistributeFragments ⟨inRange, alive⟩ slack

theorem Mirrors.checkExitHealth {index : Nat} (now : Nat) (mirrors : Mirrors e [])
    (inRange : index < e.transfer.exitNodeCount) :
    Mirrors (e.checkExitHealth now index) [] ∧ (e.checkExitHealth now index).role = e.role := by
  unfold TransferEngine.checkExitHealth
  split
  · rename_i stale
    simp only [Bool.and_eq_true] at stale
    have live : index < e.transfer.exitNodeCount ∧ e.transfer.exitNodeAlive index = true :=
      ⟨inRange, stale.1.1⟩
    have noted : Mirrors (e.note (.silent index now e.exitNodeTimeoutMs)) [] :=
      { mirrors with valid := .cons mirrors.valid ((mirrors.live index).mpr live) }
    obtain ⟨final, role, _⟩ := noted.redistributeDeadExit live
    exact ⟨final, role⟩
  · exact ⟨mirrors, rfl⟩

theorem Mirrors.checkExits {indices : List Nat} (now : Nat) (mirrors : Mirrors e [])
    (inRange : ∀ index ∈ indices, index < e.transfer.exitNodeCount) :
    let after := indices.foldl (TransferEngine.checkExitHealth now) e
    Mirrors after [] ∧ after.role = e.role := by
  induction indices generalizing e with
  | nil => exact ⟨mirrors, rfl⟩
  | cons index rest inductionHypothesis =>
      obtain ⟨checked, role⟩ := mirrors.checkExitHealth now (inRange index List.mem_cons_self)
      have sameCount : (e.checkExitHealth now index).transfer.exitNodeCount =
          e.transfer.exitNodeCount := congrArg Role.exitNodeCount role
      obtain ⟨final, restRole⟩ := inductionHypothesis checked fun other member => by
        rw [sameCount]
        exact inRange other (List.mem_cons_of_mem _ member)
      exact ⟨final, restRole.trans role⟩

theorem Mirrors.exitNodeHealthTick (now : Nat) (mirrors : Mirrors e []) :
    Mirrors (e.exitNodeHealthTick now) [] ∧ (e.exitNodeHealthTick now).role = e.role := by
  unfold TransferEngine.exitNodeHealthTick
  split
  · exact ⟨mirrors, rfl⟩
  · exact mirrors.checkExits now fun index member => List.mem_range.mp member

theorem Mirrors.handleExitOffline (exitAddr sessionId : Nat) (mirrors : Mirrors e []) :
    Mirrors (e.handleExitOffline exitAddr sessionId) [] ∧
      (e.handleExitOffline exitAddr sessionId).role = e.role := by
  unfold TransferEngine.handleExitOffline
  split
  · exact ⟨mirrors, rfl⟩
  split
  · exact ⟨mirrors, rfl⟩
  split
  · exact ⟨mirrors, rfl⟩
  · rename_i index found
    have matched := List.find?_some found
    simp only [Bool.and_eq_true] at matched
    obtain ⟨final, role, _⟩ := mirrors.redistributeDeadExit
      ⟨List.mem_range.mp (List.mem_of_find?_eq_some found), matched.2⟩
    exact ⟨final, role⟩

/-! ## The feed -/

/-- Facts about the role that the placement relies on.  The fragment count is that
of the announced layout, or zero after the exit role cleared the record. -/
structure Scheduled (role : Role) : Prop where
  exits : role.exitNodeCount ≠ 0 →
    role.active = true ∧ role.electionActive = false ∧ role.localExit = false
  election : role.electionActive = true →
    role.active = true ∧ role.localExit = false ∧ role.exitNodeCount = 0
  layout : role.active = true → role.localExit = false →
    role.fragmentCount ≤ maxFragmentCount ∧
      ∀ seq < role.fragmentCount, isParitySlot seq = false →
        dataIdx seq * role.fragmentSize < role.size

theorem Mirrors.feed (now fuel newSent : Nat) (mirrors : Mirrors e [])
    (scheduled : Scheduled e.role) :
    Mirrors (TransferEngine.feed now fuel newSent e) [] ∧
      (TransferEngine.feed now fuel newSent e).role = e.role := by
  induction fuel generalizing newSent e with
  | zero => exact ⟨mirrors, rfl⟩
  | succ fuel inductionHypothesis =>
      unfold TransferEngine.feed
      dsimp only
      split
      swap
      · exact ⟨mirrors, rfl⟩
      rename_i more
      split
      · exact ⟨mirrors, rfl⟩
      rename_i index selected
      obtain ⟨room, live⟩ := selectMeshTargetForSeq_spec selected
      have busy : e.role.exitNodeCount ≠ 0 := Nat.ne_of_gt (Nat.zero_lt_of_lt live.1)
      obtain ⟨active, _, meshPath⟩ := scheduled.exits busy
      obtain ⟨countBound, inFile⟩ := scheduled.layout active meshPath
      have inRange : e.transfer.nextFragment < maxFragmentCount :=
        lt_of_lt_of_le more.1 countBound
      have small : e.transfer.nextFragment < noSeqTag := inRange.trans (by decide)
      split
      · split
        · rename_i failed
          exact ⟨mirrors.refused small (Int.ne_of_lt failed), rfl⟩
        · rename_i accepted
          have sent := mirrors.sendFragment_eq_zero small accepted
          have fed := mirrors.assign now e.io.timerMs live room inRange sent
          exact inductionHypothesis (newSent + 1) (fed.setEncoder _) scheduled
      · rename_i notParity
        have data : isParitySlot e.transfer.nextFragment = false := by simpa using notParity
        split
        · rename_i behindEnd
          exact absurd (inFile _ more.1 data) (Nat.not_lt.mpr behindEnd)
        · have read : Mirrors (e.readFragment e.transfer.nextFragment).2 [] :=
            mirrors.of_keeps (keeps_readFragment e _)
          split
          · rename_i failed
            exact ⟨read.refused small (Int.ne_of_lt failed), rfl⟩
          · rename_i accepted
            have sent := read.sendFragment_eq_zero small accepted
            have fed := read.assign now (e.readFragment e.transfer.nextFragment).2.io.timerMs
              live room inRange sent
            have role := role_readThenFeed e index e.transfer.nextFragment now
              (e.readFragment e.transfer.nextFragment).1
              (e.readFragment e.transfer.nextFragment).2.io.timerMs
              (e.fecEncoder.ingest (e.readFragment e.transfer.nextFragment).1)
            rw [← role] at scheduled
            obtain ⟨final, sameRole⟩ :=
              inductionHypothesis (newSent + 1) (fed.setEncoder _) scheduled
            exact ⟨final, sameRole.trans role⟩

end Redistribution

end ForestLink.Mesh.TransferEngine
