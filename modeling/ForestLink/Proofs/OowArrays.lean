/-
Module: ForestLink.Proofs.OowArrays
Purpose: The two arrays of the out-of-window queue show the queue of the engine: what
  `handle_nack` writes and what the drain moves in place, as operations on their entries.
Trusted boundary: none
Main exports: OowArrays.Shows, OowArrays.withEntry, OowArrays.Shows.enqueue, OowArrays.Shows.drain
-/
import ForestLink.Lib.ParallelArrays
import ForestLink.Proofs.OowDrain

namespace ForestLink.Mesh.OowArrays

open ForestLink.Lib
open ForestLink.Protocol
open ForestLink.Mesh.TransferEngine (oowRetxQueueSize visitOow)

variable {F : Type} {a : OowArrays} {queue : List (Nat × Nat)} {now : Nat}

/-- Both arrays have this length. -/
def HasLength (a : OowArrays) (length : Nat) : Prop :=
  a.seqs.length = length ∧ a.dsts.length = length

/-- All places, in use or not. -/
def cells (a : OowArrays) : List (Nat × Nat) := a.seqs.zip a.dsts

theorem HasLength.even {length : Nat} (has : a.HasLength length) : a.seqs.length = a.dsts.length :=
  has.1.trans has.2.symm

theorem HasLength.cells {length : Nat} (has : a.HasLength length) : a.cells.length = length :=
  (length_zip_of_even has.even).trans has.1

theorem HasLength.put {length : Nat} (has : a.HasLength length) (i : Nat) (entry : Nat × Nat) :
    (a.put i entry).HasLength length :=
  ⟨List.length_set.trans has.1, List.length_set.trans has.2⟩

theorem cells_put (a : OowArrays) (i : Nat) (entry : Nat × Nat) :
    (a.put i entry).cells = a.cells.set i entry :=
  zip_set a.seqs a.dsts i entry.1 entry.2

/-! ## The drain in place -/

theorem copyTail_cells {length : Nat} (has : a.HasLength length) (count source target : Nat) :
    (copyTail count source target a).HasLength length ∧
      (copyTail count source target a).cells = moveDown count source target a.cells := by
  induction count generalizing source target a with
  | zero => exact ⟨has, rfl⟩
  | succ count inductionHypothesis =>
      unfold copyTail moveDown
      rcases zip_getElem? has.even source with ⟨seq, dst, first, second, entry⟩ | ⟨first, _, entry⟩
      · rw [first, second, show a.cells[source]? = some (seq, dst) from entry]
        dsimp only
        rw [← cells_put]
        exact inductionHypothesis (has.put target (seq, dst)) (source + 1) (target + 1)
      · rw [first, show a.cells[source]? = none from entry]
        exact ⟨has, rfl⟩

/-- The scan of the two arrays is the scan of their entries. -/
theorem drainFrom_cells (now budget : Nat) (allowed : Bool) {length : Nat}
    (has : a.HasLength length) (count i kept : Nat) (s : Nat × TransferEngine F) :
    (drainFrom now budget allowed count i kept a s).2.1.HasLength length ∧
      compactFrom (visitOow now budget allowed) count i kept a.cells s =
        ((drainFrom now budget allowed count i kept a s).1,
          (drainFrom now budget allowed count i kept a s).2.1.cells,
          (drainFrom now budget allowed count i kept a s).2.2) := by
  induction count generalizing i kept a s with
  | zero => exact ⟨has, rfl⟩
  | succ count inductionHypothesis =>
      unfold drainFrom compactFrom
      rcases zip_getElem? has.even i with ⟨seq, dst, first, second, entry⟩ | ⟨first, _, entry⟩
      · rw [first, second, show a.cells[i]? = some (seq, dst) from entry]
        dsimp only
        rcases visitOow now budget allowed s (seq, dst) with ⟨verdict, after⟩
        cases verdict with
        | keep y =>
            dsimp only
            rw [← cells_put]
            exact inductionHypothesis (has.put kept y) (i + 1) (kept + 1) after
        | drop => exact inductionHypothesis has (i + 1) kept after
        | stop y =>
            obtain ⟨length, copied⟩ := copyTail_cells (has.put kept y) count (i + 1) (kept + 1)
            dsimp only
            rw [← cells_put, copied]
            exact ⟨length, rfl⟩
      · rw [first, show a.cells[i]? = none from entry]
        exact ⟨has, rfl⟩

/-! ## Arrays and queue -/

/-- The arrays show the queue, in the storage of the engine. -/
structure Shows (a : OowArrays) (queue : List (Nat × Nat)) : Prop where
  length : a.HasLength oowRetxQueueSize
  bound : a.count ≤ oowRetxQueueSize
  view : a.view = queue

/-- The queue with the fragment in it, for the exit that asked last. -/
def withEntry (queue : List (Nat × Nat)) (seq fromAddr : Nat) : List (Nat × Nat) :=
  match queue.findIdx? fun entry => entry.1 == seq with
  | some position => queue.set position (seq, fromAddr)
  | none => if queue.length < oowRetxQueueSize then queue ++ [(seq, fromAddr)] else queue

namespace Shows

theorem count (shown : a.Shows queue) : queue.length = a.count := by
  rw [← shown.view]
  show (a.cells.take a.count).length = a.count
  rw [List.length_take, shown.length.cells]
  exact Nat.min_eq_left shown.bound

/-- The first entries, when only they are in use. -/
theorem of_cells {kept behind : List (Nat × Nat)} (length : a.HasLength oowRetxQueueSize)
    (cells : a.cells = kept ++ behind) : Shows { a with count := kept.length } kept where
  length := length
  bound := by
    rw [← length.cells, cells, List.length_append]
    exact Nat.le_add_right _ _
  view := by
    show a.cells.take kept.length = kept
    rw [cells]
    exact List.take_left

theorem clear (shown : a.Shows queue) : Shows { a with count := 0 } [] :=
  of_cells shown.length (List.nil_append _).symm

theorem seqs (shown : a.Shows queue) : a.seqs.take a.count = queue.map Prod.fst := by
  rw [← shown.view, OowArrays.view, List.map_take, (map_zip_of_even shown.length.even).1]

/-- Writing behind the last entry in use. -/
theorem push (shown : a.Shows queue) (room : a.count < oowRetxQueueSize) (entry : Nat × Nat) :
    Shows { a.put a.count entry with count := a.count + 1 } (queue ++ [entry]) where
  length := shown.length.put a.count entry
  bound := room
  view := by
    have inside : a.count < a.cells.length := by
      rw [shown.length.cells]
      exact room
    show (a.put a.count entry).cells.take (a.count + 1) = _
    rw [cells_put, List.take_add_one, List.getElem?_set_self inside,
      List.take_set_of_le (Nat.le_refl _), ← shown.view]
    rfl

/-- Writing the destination of an entry in use. -/
theorem redirect (shown : a.Shows queue) {i seq : Nat} (dst : Nat)
    (found : queue.findIdx? (fun entry => entry.1 == seq) = some i) :
    Shows { a with dsts := a.dsts.set i dst } (queue.set i (seq, dst)) where
  length := ⟨shown.length.1, List.length_set.trans shown.length.2⟩
  bound := shown.bound
  view := by
    obtain ⟨inside, same, _⟩ := List.findIdx?_eq_some_iff_getElem.mp found
    have held : a.seqs[i]? = some seq := by
      have place : (a.seqs.take a.count)[i]? = some seq := by
        rw [shown.seqs, List.getElem?_map, List.getElem?_eq_getElem inside]
        exact congrArg some (beq_iff_eq.mp same)
      rw [List.getElem?_take] at place
      split at place
      · exact place
      · exact absurd place.symm (Option.some_ne_none seq)
    have unchanged : a.seqs.set i seq = a.seqs := by
      obtain ⟨place, value⟩ := List.getElem?_eq_some_iff.mp held
      rw [← value]
      exact List.set_getElem_self place
    have cells : ({ a with dsts := a.dsts.set i dst } : OowArrays).cells =
        a.cells.set i (seq, dst) := by
      rw [← cells_put]
      show a.seqs.zip (a.dsts.set i dst) = (a.seqs.set i seq).zip (a.dsts.set i dst)
      rw [unchanged]
    show ({ a with dsts := a.dsts.set i dst } : OowArrays).cells.take a.count = _
    rw [cells, ← shown.view, List.take_set]
    rfl

theorem enqueue (shown : a.Shows queue) (seq fromAddr : Nat) :
    (a.enqueue seq fromAddr).Shows (withEntry queue seq fromAddr) := by
  have same : ((a.seqs.take a.count).findIdx? fun pending => pending == seq) =
      queue.findIdx? fun entry => entry.1 == seq := by
    rw [shown.seqs, List.findIdx?_map]
    rfl
  unfold OowArrays.enqueue withEntry
  rw [same, shown.count]
  cases found : queue.findIdx? fun entry => entry.1 == seq with
  | some position => exact shown.redirect fromAddr found
  | none =>
      dsimp only
      split
      · rename_i room
        exact shown.push room (seq, fromAddr)
      · exact shown

/-- The drain in place is the drain of the queue. -/
theorem drain {e : TransferEngine F} (shown : a.Shows e.oowRetxQueue) :
    (a.drain now e).Shows (e.drainOow now).oowRetxQueue := by
  unfold OowArrays.drain
  by_cases idle : a.count = 0 ∨ e.transfer.readChunk.isNone
  · have still : e.drainOow now = e := by
      unfold TransferEngine.drainOow
      rw [if_pos]
      exact idle.imp (fun empty => List.length_eq_zero_iff.mp (shown.count.trans empty)) id
    rw [if_pos idle, still]
    exact shown
  obtain ⟨_, file⟩ := not_or.mp idle
  rw [if_neg idle, TransferEngine.drainOow_eq (Bool.eq_false_iff.mpr file)]
  obtain ⟨length, scan⟩ := drainFrom_cells now e.oowPolicy.1
    (decide (sub32 now e.lastOowRetxMs ≥ e.oowPolicy.2)) shown.length a.count 0 0 (0, e)
  obtain ⟨behind, compacted, _⟩ := compactFrom_eq (e.drainVisit now) [] [] e.oowRetxQueue
    (a.cells.drop a.count) (0, e)
  have split : e.oowRetxQueue ++ a.cells.drop a.count = a.cells := by
    rw [← shown.view]
    exact List.take_append_drop a.count a.cells
  rw [shown.count, List.nil_append, List.nil_append, split, List.nil_append] at compacted
  have results := scan.symm.trans compacted
  have kept := congrArg Prod.fst results
  have cells := congrArg (fun result => result.2.1) results
  dsimp only at kept cells
  rw [List.length_nil, Nat.zero_add] at kept
  dsimp only
  rw [kept]
  exact of_cells length cells

end Shows

end ForestLink.Mesh.OowArrays
