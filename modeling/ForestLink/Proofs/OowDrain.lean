/-
Module: ForestLink.Proofs.OowDrain
Purpose: The drain loop of the out-of-window queue as a compaction of it: every entry is kept, sent,
  or names no fragment of the file.
Trusted boundary: none
Main exports: namesNoFragment, ParityReadable, OowVisit, visitOow_visit, drainOow_eq, OowAccount,
  compact_account, compact_budget, compact_destination
-/
import ForestLink.Mesh.OowQueue
import ForestLink.Proofs.MeshAccounting

namespace ForestLink.Mesh

open ForestLink.Lib
open ForestLink.Protocol

namespace TransferEngine

variable {F : Type} {now budget seq group : Nat} {allowed : Bool} {e : TransferEngine F}

/-! ## Reads of an entry -/

/-- Data beyond the end of the file, or the parity of a group that the file does not fill. -/
def namesNoFragment (e : TransferEngine F) (seq : Nat) : Bool :=
  if isParitySlot seq then
    (List.range fecGroupSize).any fun position => decide
      (e.transfer.size ≤
        (seq / (fecGroupSize + 1) * fecGroupSize + position) * e.transfer.fragmentSize)
  else decide (e.transfer.size ≤ dataIdx seq * e.transfer.fragmentSize)

/-- What `regenerateParity` reads. -/
def parityReads (group : Nat) : List Nat → TransferEngine F → List (List UInt8)
  | [], _ => []
  | position :: rest, e =>
      let offset := (group * fecGroupSize + position) * e.transfer.fragmentSize
      if offset ≥ e.transfer.size then []
      else
        let fragLen := min (e.transfer.size - offset) e.transfer.fragmentSize
        let chunk := e.io.readChunk e.transfer.readChunk offset fragLen
        chunk.1 :: parityReads group rest { e with io := chunk.2 }

/-- Every read returns something when the parity of the entry is built. -/
def ParityReadable (e : TransferEngine F) (seq : Nat) : Prop :=
  isParitySlot seq = true →
    ∀ chunk ∈ e.parityReads (seq / (fecGroupSize + 1)) (List.range fecGroupSize), chunk ≠ []

theorem readChunk_setEnv (e : TransferEngine F) (file : Option (Nat → Nat → List UInt8))
    (offset len : Nat) :
    ∃ env, { e with io := (e.io.readChunk file offset len).2 } = e.setEnv env := by
  unfold Io.readChunk
  dsimp only
  split
  · exact ⟨e.io.env, rfl⟩
  · rename_i limit rest _
    exact ⟨{ e.io.env with readLimits := rest }, rfl⟩

theorem regenerateParity_setEnv (group : Nat) (positions : List Nat) (encoder : FecEncoder)
    (e : TransferEngine F) :
    ∃ env, (regenerateParity group positions encoder e).2 = e.setEnv env := by
  induction positions generalizing encoder e with
  | nil => exact ⟨e.io.env, rfl⟩
  | cons position rest inductionHypothesis =>
      unfold regenerateParity
      dsimp only
      split
      · exact ⟨e.io.env, rfl⟩
      · obtain ⟨env, read⟩ := readChunk_setEnv e e.transfer.readChunk
          ((group * fecGroupSize + position) * e.transfer.fragmentSize)
          (min (e.transfer.size - (group * fecGroupSize + position) * e.transfer.fragmentSize)
            e.transfer.fragmentSize)
        rw [read]
        obtain ⟨later, restRead⟩ := inductionHypothesis _ (e.setEnv env)
        exact ⟨later, restRead⟩

/-- Reading changes nothing but what later reads return. -/
theorem oowPayload_setEnv (e : TransferEngine F) (seq : Nat) :
    ∃ env, (e.oowPayload seq).2 = e.setEnv env := by
  obtain ⟨env, read⟩ := regenerateParity_setEnv (seq / (fecGroupSize + 1))
    (List.range fecGroupSize) .reset e
  unfold oowPayload
  split
  · split
    · rename_i noEncoder
      rw [noEncoder] at read
      exact ⟨env, read⟩
    · rename_i withEncoder
      rw [withEncoder] at read
      split <;> exact ⟨env, read⟩
  split
  · exact ⟨e.io.env, rfl⟩
  · exact readChunk_setEnv e _ _ _

theorem regenerateParity_none {positions : List Nat} {encoder : FecEncoder}
    (missing : (regenerateParity group positions encoder e).1 = none) :
    ∃ position ∈ positions,
      e.transfer.size ≤ (group * fecGroupSize + position) * e.transfer.fragmentSize := by
  induction positions generalizing encoder e with
  | nil => exact absurd missing (Option.some_ne_none _)
  | cons position rest inductionHypothesis =>
      unfold regenerateParity at missing
      dsimp only at missing
      split at missing
      · rename_i beyond
        exact ⟨position, List.mem_cons_self, beyond⟩
      · obtain ⟨other, member, beyond⟩ := inductionHypothesis missing
        exact ⟨other, List.mem_cons_of_mem position member, beyond⟩

/-- The parity is as long as the longest read. -/
theorem regenerateParity_some {positions : List Nat} {encoder after : FecEncoder}
    (built : (regenerateParity group positions encoder e).1 = some after) :
    encoder.parityLen ≤ after.parityLen ∧
      (∀ chunk ∈ e.parityReads group positions, chunk.length ≤ after.parityLen) ∧
      (e.parityReads group positions).length = positions.length := by
  induction positions generalizing encoder e with
  | nil =>
      rw [← Option.some.inj built]
      exact ⟨Nat.le_refl _, fun _ none => absurd none List.not_mem_nil, rfl⟩
  | cons position rest inductionHypothesis =>
      unfold regenerateParity at built
      unfold parityReads
      dsimp only at built ⊢
      split at built
      · exact absurd built (Option.some_ne_none _).symm
      · rename_i inside
        rw [if_neg inside]
        obtain ⟨longer, all, count⟩ := inductionHypothesis built
        have ingested := Nat.max_le.mp longer
        exact ⟨ingested.1, List.forall_mem_cons.mpr ⟨ingested.2, all⟩, congrArg (· + 1) count⟩

/-- An entry without payload is dropped because the file has no such fragment. -/
theorem namesNoFragment_of_none (readable : e.ParityReadable seq)
    (missing : (e.oowPayload seq).1 = none) : e.namesNoFragment seq = true := by
  unfold oowPayload at missing
  unfold namesNoFragment
  split at missing
  · rename_i parity
    rw [if_pos parity, List.any_eq_true]
    split at missing
    · rename_i after unbuilt
      obtain ⟨position, member, beyond⟩ := regenerateParity_none (congrArg Prod.fst unbuilt)
      exact ⟨position, member, decide_eq_true beyond⟩
    · rename_i encoder after built
      obtain ⟨_, longest, count⟩ := regenerateParity_some (congrArg Prod.fst built)
      obtain ⟨chunk, rest, reads⟩ := List.exists_cons_of_length_pos
        (l := e.parityReads (seq / (fecGroupSize + 1)) (List.range fecGroupSize))
        (by rw [count]; decide)
      have member : chunk ∈ e.parityReads (seq / (fecGroupSize + 1)) (List.range fecGroupSize) := by
        rw [reads]
        exact List.mem_cons_self
      have filled := List.length_pos_of_ne_nil (readable parity chunk member)
      have bound := longest chunk member
      split at missing
      · omega
      · exact absurd missing (Option.some_ne_none _)
  · rename_i data
    rw [if_neg data]
    split at missing
    · rename_i beyond
      exact decide_eq_true beyond
    · exact absurd missing (Option.some_ne_none _)

/-! ## Visits -/

/-- How a visit can end. -/
inductive OowVisit (allowed : Bool) (budget : Nat) (s : Nat × TransferEngine F)
    (entry : Nat × Nat) : Verdict (Nat × Nat) → Nat × TransferEngine F → Prop where
  | untried (env : Env) : OowVisit allowed budget s entry (.keep entry) (s.1, s.2.setEnv env)
  | unnamed (env : Env) (turn : allowed = true ∧ s.1 < budget)
      (missing : (s.2.oowPayload entry.1).1 = none) :
      OowVisit allowed budget s entry .drop (s.1, s.2.setEnv env)
  | refused (env : Env) (payload : List UInt8)
      (failed : ((s.2.setEnv env).sendPacket ((s.2.setEnv env).oowTarget entry.2) .data payload
        entry.1).1 < 0) :
      OowVisit allowed budget s entry (.stop (entry.1, (s.2.setEnv env).oowTarget entry.2))
        (s.1, ((s.2.setEnv env).sendPacket ((s.2.setEnv env).oowTarget entry.2) .data payload
          entry.1).2)
  | sent (env : Env) (payload : List UInt8) (recent : Nat → Nat × Nat) (write time : Nat)
      (turn : allowed = true ∧ s.1 < budget)
      (accepted : ¬ ((s.2.setEnv env).sendPacket ((s.2.setEnv env).oowTarget entry.2) .data payload
        entry.1).1 < 0) :
      OowVisit allowed budget s entry .drop
        (s.1 + 1,
          { ((s.2.setEnv env).sendPacket ((s.2.setEnv env).oowTarget entry.2) .data payload
              entry.1).2 with
            oowRecent := recent
            oowRecentWrite := write
            lastOowRetxMs := time })

theorem visitOow_visit (now budget : Nat) (allowed : Bool) (s : Nat × TransferEngine F)
    (entry : Nat × Nat) :
    OowVisit allowed budget s entry (visitOow now budget allowed s entry).1
      (visitOow now budget allowed s entry).2 := by
  obtain ⟨env, read⟩ := oowPayload_setEnv s.2 entry.1
  unfold visitOow
  split
  · exact .untried s.2.io.env
  · rename_i open_
    have turn : allowed = true ∧ s.1 < budget := by
      simpa using open_
    split
    · rename_i after missing
      rw [missing] at read
      rw [show after = s.2.setEnv env from read]
      exact .unnamed env turn (congrArg Prod.fst missing)
    · rename_i payload after loaded
      rw [loaded] at read
      rw [show after = s.2.setEnv env from read]
      split
      · exact .untried env
      dsimp only
      split
      · rename_i failed
        exact .refused env payload failed
      · rename_i accepted
        exact .sent env payload _ _ _ turn accepted

/-! ## The queue beside the visits -/

/-- The engine with another queue. -/
def withOow (queue : List (Nat × Nat)) (e : TransferEngine F) : TransferEngine F :=
  { e with oowRetxQueue := queue }

theorem regenerateParity_withOow (queue : List (Nat × Nat)) (positions : List Nat)
    (encoder : FecEncoder) (e : TransferEngine F) :
    regenerateParity group positions encoder (e.withOow queue) =
      ((regenerateParity group positions encoder e).1,
        (regenerateParity group positions encoder e).2.withOow queue) := by
  induction positions generalizing encoder e with
  | nil => rfl
  | cons position rest inductionHypothesis =>
      have transfer : (e.withOow queue).transfer = e.transfer := rfl
      unfold regenerateParity
      rw [transfer]
      dsimp only
      split
      · rfl
      · exact inductionHypothesis (encoder.ingest (e.io.readChunk e.transfer.readChunk _ _).1)
          { e with io := (e.io.readChunk e.transfer.readChunk _ _).2 }

theorem oowPayload_withOow (queue : List (Nat × Nat)) (e : TransferEngine F) (seq : Nat) :
    (e.withOow queue).oowPayload seq =
      ((e.oowPayload seq).1, (e.oowPayload seq).2.withOow queue) := by
  have transfer : (e.withOow queue).transfer = e.transfer := rfl
  unfold oowPayload
  rw [regenerateParity_withOow, transfer]
  split
  · rcases regenerateParity (seq / (fecGroupSize + 1)) (List.range fecGroupSize) .reset e with
      ⟨_ | encoder, after⟩
    · rfl
    · dsimp only
      split <;> rfl
  split
  · rfl
  · rfl

/-- No visit sees the queue. -/
theorem visitOow_withOow (queue : List (Nat × Nat)) (s : Nat × TransferEngine F)
    (entry : Nat × Nat) :
    visitOow now budget allowed (s.1, s.2.withOow queue) entry =
      ((visitOow now budget allowed s entry).1, (visitOow now budget allowed s entry).2.1,
        (visitOow now budget allowed s entry).2.2.withOow queue) := by
  unfold visitOow
  rw [oowPayload_withOow]
  dsimp only
  split
  · rfl
  rcases s.2.oowPayload entry.1 with ⟨_ | payload, after⟩
  · rfl
  · dsimp only
    split
    · rfl
    have sends : (after.withOow queue).sendPacket ((after.withOow queue).oowTarget entry.2) .data
        payload entry.1 =
          ((after.sendPacket (after.oowTarget entry.2) .data payload entry.1).1,
            (after.sendPacket (after.oowTarget entry.2) .data payload entry.1).2.withOow queue) :=
      rfl
    rw [sends]
    split <;> rfl

theorem compact_withOow (now budget : Nat) (allowed : Bool) (queue entries : List (Nat × Nat))
    (sent : Nat) (e : TransferEngine F) :
    compact (visitOow now budget allowed) entries (sent, e.withOow queue) =
      ((compact (visitOow now budget allowed) entries (sent, e)).1,
        (compact (visitOow now budget allowed) entries (sent, e)).2.1,
        (compact (visitOow now budget allowed) entries (sent, e)).2.2.withOow queue) :=
  compact_comm (f := fun s => (s.1, s.2.withOow queue)) (visitOow_withOow queue) entries (sent, e)

/-- One round of the loop is a visit. -/
theorem drainOowEntries_cons (now budget : Nat) (allowed : Bool) (entry : Nat × Nat)
    (rest : List (Nat × Nat)) (sent : Nat) (e : TransferEngine F) :
    drainOowEntries now budget allowed (entry :: rest) sent e =
      match visitOow now budget allowed (sent, e) entry with
      | (.keep y, after) => drainOowEntries now budget allowed rest after.1 (after.2.keepOow [y])
      | (.drop, after) => drainOowEntries now budget allowed rest after.1 after.2
      | (.stop y, after) => after.2.keepOow (y :: rest) := by
  obtain ⟨seq, dst⟩ := entry
  unfold visitOow
  rw [drainOowEntries]
  dsimp only
  split
  · rfl
  rcases e.oowPayload seq with ⟨_ | payload, after⟩
  · rfl
  · dsimp only
    split
    · rfl
    split
    · rfl
    · rfl

theorem OowVisit.frame {s after : Nat × TransferEngine F} {entry : Nat × Nat}
    {verdict : Verdict (Nat × Nat)} (visit : OowVisit allowed budget s entry verdict after) :
    after.2.oowRetxQueue = s.2.oowRetxQueue ∧ after.2.transfer = s.2.transfer := by
  cases visit with
  | untried env => exact ⟨rfl, rfl⟩
  | unnamed env turn missing => exact ⟨rfl, rfl⟩
  | refused env payload failed => exact ⟨rfl, rfl⟩
  | sent env payload recent write time turn accepted => exact ⟨rfl, rfl⟩

/-- The loop keeps in the queue what the visits keep. -/
theorem drainOowEntries_eq (now budget : Nat) (allowed : Bool) (entries : List (Nat × Nat))
    (sent : Nat) (e : TransferEngine F) :
    drainOowEntries now budget allowed entries sent e =
      (compact (visitOow now budget allowed) entries (sent, e)).2.2.withOow
        (e.oowRetxQueue ++ (compact (visitOow now budget allowed) entries (sent, e)).1) := by
  induction entries generalizing sent e with
  | nil => exact congrArg (fun queue => e.withOow queue) (List.append_nil _).symm
  | cons entry rest inductionHypothesis =>
      have same := (visitOow_visit now budget allowed (sent, e) entry).frame.1
      rw [drainOowEntries_cons, compact]
      rcases visited : visitOow now budget allowed (sent, e) entry with ⟨verdict, count, after⟩
      rw [visited] at same
      dsimp only at same
      cases verdict with
      | keep y =>
          have moved := compact_withOow now budget allowed
            (after.oowRetxQueue ++ [y]) rest count after
          have start : after.keepOow [y] = after.withOow (after.oowRetxQueue ++ [y]) := rfl
          dsimp only
          rw [inductionHypothesis, start, moved, same]
          dsimp only [withOow]
          rw [List.append_assoc]
          rfl
      | drop =>
          dsimp only
          rw [inductionHypothesis, same]
      | stop y =>
          dsimp only
          rw [keepOow, withOow, same]

/-- The visits of one drain. -/
def drainVisit (e : TransferEngine F) (now : Nat) :
    Nat × TransferEngine F → Nat × Nat → Verdict (Nat × Nat) × (Nat × TransferEngine F) :=
  visitOow now e.oowPolicy.1 (decide (sub32 now e.lastOowRetxMs ≥ e.oowPolicy.2))

/-- The drain compacts the queue. -/
theorem drainOow_eq (file : e.transfer.readChunk.isNone = false) :
    e.drainOow now =
      (compact (e.drainVisit now) e.oowRetxQueue (0, e)).2.2.withOow
        (compact (e.drainVisit now) e.oowRetxQueue (0, e)).1 := by
  unfold drainOow
  split
  · rename_i idle
    have empty : e.oowRetxQueue = [] := idle.resolve_right (by rw [file]; decide)
    rw [empty, compact]
    show e = e.withOow []
    rw [← empty]
    rfl
  · have moved := compact_withOow now e.oowPolicy.1
      (decide (sub32 now e.lastOowRetxMs ≥ e.oowPolicy.2)) [] e.oowRetxQueue 0 e
    have start : ({ e with oowRetxQueue := [] } : TransferEngine F) = e.withOow [] := rfl
    dsimp only
    rw [drainOowEntries_eq, start, moved]
    rfl

/-! ## Where the entries go -/

/-- The fragment of an accepted DATA packet. -/
def acceptedData : Output → Option Nat
  | .sent _ .data seq _ result => if result < 0 then none else some seq
  | _ => none

/-- Between two states of the loop, `entries` are kept, sent, or name no fragment. -/
structure OowAccount (s after : Nat × TransferEngine F) (entries kept : List (Nat × Nat))
    (recent : List Output) (dropped : List Nat) : Prop where
  transfer : after.2.transfer = s.2.transfer
  outputs : after.2.io.outputs = recent ++ s.2.io.outputs
  sends : after.1 = s.1 + (recent.filterMap acceptedData).length
  shares : (entries.map Prod.fst).Perm
    (kept.map Prod.fst ++ recent.filterMap acceptedData ++ dropped)
  unnamed : ∀ seq ∈ dropped, s.2.namesNoFragment seq = true

theorem namesNoFragment_congr {after : TransferEngine F} (same : after.transfer = e.transfer)
    (seq : Nat) : after.namesNoFragment seq = e.namesNoFragment seq := by
  unfold namesNoFragment
  rw [same]

namespace OowAccount

variable {s mid after : Nat × TransferEngine F} {entries kept more later : List (Nat × Nat)}
  {recent newer : List Output} {dropped gone : List Nat}

theorem append (left : OowAccount s mid entries kept recent dropped)
    (right : OowAccount mid after more later newer gone) :
    OowAccount s after (entries ++ more) (kept ++ later) (newer ++ recent) (dropped ++ gone) where
  transfer := right.transfer.trans left.transfer
  outputs := by rw [right.outputs, left.outputs, List.append_assoc]
  sends := by
    rw [right.sends, left.sends, List.filterMap_append, List.length_append]
    omega
  shares := by
    rw [List.perm_iff_count]
    intro seq
    have first := List.perm_iff_count.mp left.shares seq
    have second := List.perm_iff_count.mp right.shares seq
    simp only [List.map_append, List.filterMap_append, List.count_append] at first second ⊢
    omega
  unnamed seq member := by
    rcases List.mem_append.mp member with early | late
    · exact left.unnamed seq early
    · rw [← namesNoFragment_congr left.transfer]
      exact right.unnamed seq late

/-- Entries that the loop does not visit stay. -/
theorem rest (s : Nat × TransferEngine F) (entries : List (Nat × Nat)) :
    OowAccount s s entries entries [] [] where
  transfer := rfl
  outputs := rfl
  sends := rfl
  shares := by simp
  unnamed _ member := absurd member List.not_mem_nil

end OowAccount

/-- The packet that `send_fn_` was asked to send is the newest output. -/
theorem sendPacket_output (e : TransferEngine F) (dst seq : Nat) (payload : List UInt8) :
    (e.sendPacket dst .data payload seq).2.io.outputs =
      .sent dst .data seq payload (e.sendPacket dst .data payload seq).1 :: e.io.outputs := by
  unfold sendPacket Io.sendPacket
  dsimp only
  split <;> rfl

theorem OowVisit.account {s after : Nat × TransferEngine F} {entry : Nat × Nat}
    {verdict : Verdict (Nat × Nat)} (visit : OowVisit allowed budget s entry verdict after)
    (readable : allowed = true ∧ s.1 < budget → s.2.ParityReadable entry.1) :
    ∃ recent dropped, OowAccount s after [entry] verdict.kept.toList recent dropped := by
  cases visit with
  | untried env => exact ⟨[], [], rfl, rfl, rfl, by simp [Verdict.kept], by simp⟩
  | unnamed env turn missing =>
      refine ⟨[], [entry.1], rfl, rfl, rfl, by simp [Verdict.kept], ?_⟩
      intro seq member
      rw [List.mem_singleton.mp member]
      exact namesNoFragment_of_none (readable turn) missing
  | refused env payload failed =>
      have output := sendPacket_output (s.2.setEnv env) ((s.2.setEnv env).oowTarget entry.2) entry.1
        payload
      have unaccepted : acceptedData (.sent ((s.2.setEnv env).oowTarget entry.2) .data entry.1 payload
          _) = none := if_pos failed
      refine ⟨[_], [], rfl, output, ?_, ?_, by simp⟩
      · rw [List.filterMap_cons_none unaccepted]
        rfl
      · rw [List.filterMap_cons_none unaccepted]
        simp [Verdict.kept]
  | sent env payload recent write time turn accepted =>
      have output := sendPacket_output (s.2.setEnv env) ((s.2.setEnv env).oowTarget entry.2) entry.1
        payload
      have counted : acceptedData (.sent ((s.2.setEnv env).oowTarget entry.2) .data entry.1 payload
          _) = some entry.1 := if_neg accepted
      refine ⟨[_], [], rfl, output, ?_, ?_, by simp⟩
      · rw [List.filterMap_cons_some counted]
        rfl
      · rw [List.filterMap_cons_some counted]
        simp [Verdict.kept]

/-- Every entry before a failed send is visited; those behind it stay. -/
theorem compact_account (now budget : Nat) (allowed : Bool) {entries : List (Nat × Nat)}
    {s : Nat × TransferEngine F}
    (readable : ∀ v ∈ visits (visitOow now budget allowed) entries s,
      allowed = true ∧ v.1.1 < budget → v.1.2.ParityReadable v.2.1) :
    ∃ recent dropped, OowAccount s (compact (visitOow now budget allowed) entries s).2 entries
      (compact (visitOow now budget allowed) entries s).1 recent dropped := by
  induction entries generalizing s with
  | nil => exact ⟨[], [], .rest s []⟩
  | cons entry rest inductionHypothesis =>
      have visit := visitOow_visit now budget allowed s entry
      unfold visits at readable
      unfold compact
      rcases visited : visitOow now budget allowed s entry with ⟨verdict, after⟩
      rw [visited] at visit readable
      have here : allowed = true ∧ s.1 < budget → s.2.ParityReadable entry.1 := by
        cases verdict <;> exact readable (s, entry) List.mem_cons_self
      obtain ⟨recent, dropped, first⟩ := visit.account here
      cases verdict with
      | keep y =>
          obtain ⟨newer, gone, others⟩ := inductionHypothesis fun v later =>
            readable v (List.mem_cons_of_mem _ later)
          exact ⟨_, _, first.append others⟩
      | drop =>
          obtain ⟨newer, gone, others⟩ := inductionHypothesis fun v later =>
            readable v (List.mem_cons_of_mem _ later)
          exact ⟨_, _, first.append others⟩
      | stop y => exact ⟨_, _, first.append (.rest after rest)⟩

theorem OowVisit.within {s after : Nat × TransferEngine F} {entry : Nat × Nat}
    {verdict : Verdict (Nat × Nat)} (visit : OowVisit allowed budget s entry verdict after)
    (bound : s.1 ≤ budget) : after.1 ≤ budget := by
  cases visit with
  | untried env => exact bound
  | unnamed env turn missing => exact bound
  | refused env payload failed => exact bound
  | sent env payload recent write time turn accepted => exact turn.2

/-- The loop sends no more than the budget. -/
theorem compact_budget (now budget : Nat) (allowed : Bool) (entries : List (Nat × Nat))
    {s : Nat × TransferEngine F} (start : s.1 ≤ budget) :
    (compact (visitOow now budget allowed) entries s).2.1 ≤ budget :=
  (compact_keeps (fun s : Nat × TransferEngine F => s.1 ≤ budget)
    (fun s entry => (visitOow_visit now budget allowed s entry).within) start).2

/-- A kept entry is as it was, or has a new destination. -/
theorem OowVisit.kept {s after : Nat × TransferEngine F} {entry y : Nat × Nat}
    {verdict : Verdict (Nat × Nat)} (visit : OowVisit allowed budget s entry verdict after)
    (kept : y ∈ verdict.kept) :
    y = entry ∨ ∃ env, y = (entry.1, (s.2.setEnv env).oowTarget entry.2) := by
  cases visit with
  | untried env => exact .inl (Option.some.inj kept).symm
  | unnamed env turn missing => exact absurd kept.symm (Option.some_ne_none y)
  | refused env payload failed => exact .inr ⟨env, (Option.some.inj kept).symm⟩
  | sent env payload recent write time turn accepted =>
      exact absurd kept.symm (Option.some_ne_none y)

/-- What a visit keeps is the same fragment. -/
theorem keepsKey_visitOow (now budget : Nat) (allowed : Bool) :
    KeepsKey (visitOow (F := F) now budget allowed) Prod.fst := by
  intro s entry y kept
  rcases (visitOow_visit now budget allowed s entry).kept kept with rfl | ⟨env, rfl⟩
  · rfl
  · rfl

/-! ## Destinations -/

/-- The address of an exit that is alive. -/
def AliveAddress (e : TransferEngine F) (dst : Nat) : Prop :=
  ∃ index, e.ExitAlive index ∧ e.transfer.exitNodes index = dst

theorem aliveAddress_congr {after : TransferEngine F} (same : after.transfer = e.transfer)
    (dst : Nat) : after.AliveAddress dst ↔ e.AliveAddress dst := by
  unfold AliveAddress ExitAlive
  rw [same]

theorem oowTarget_alive (alive : ∃ index, e.ExitAlive index) (dst : Nat) :
    e.AliveAddress (e.oowTarget dst) := by
  have fallback : e.AliveAddress (e.transfer.exitNodes
      (((List.range e.transfer.exitNodeCount).find? e.transfer.exitNodeAlive).getD 0)) := by
    cases first : (List.range e.transfer.exitNodeCount).find? e.transfer.exitNodeAlive with
    | none =>
        obtain ⟨index, inRange, living⟩ := alive
        exact absurd living (List.find?_eq_none.mp first index (List.mem_range.mpr inRange))
    | some index =>
        have inRange := List.mem_range.mp (List.mem_of_find?_eq_some first)
        exact ⟨index, ⟨inRange, List.find?_some first⟩, rfl⟩
  unfold oowTarget
  dsimp only
  split
  · exact fallback
  · rename_i index found
    split
    · rename_i living
      have inRange := List.mem_range.mp (List.mem_of_find?_eq_some found)
      have matched := List.find?_some (p := fun i => e.transfer.exitNodes i == dst) found
      exact ⟨index, ⟨inRange, living⟩, beq_iff_eq.mp matched⟩
    · exact fallback

/-- A kept entry is as it was, or goes to an alive exit. -/
theorem compact_destination (now budget : Nat) (allowed : Bool) {entries : List (Nat × Nat)}
    {s : Nat × TransferEngine F} (alive : ∃ index, s.2.ExitAlive index) {y : Nat × Nat}
    (stays : y ∈ (compact (visitOow now budget allowed) entries s).1) :
    y ∈ entries ∨ s.2.AliveAddress y.2 := by
  rcases compact_mem stays with unvisited | ⟨v, visited, kept⟩
  · exact .inl unvisited
  have frame : v.1.2.transfer = s.2.transfer := by
    refine (compact_keeps (fun t : Nat × TransferEngine F => t.2.transfer = s.2.transfer) ?_
      rfl).1 v visited
    intro t entry same
    exact (visitOow_visit now budget allowed t entry).frame.2.trans same
  rcases (visitOow_visit now budget allowed v.1 v.2).kept kept with rfl | ⟨env, rfl⟩
  · exact .inl (visits_mem visited)
  · have living : ∃ index, (v.1.2.setEnv env).ExitAlive index := by
      obtain ⟨index, inRange, up⟩ := alive
      rw [← frame] at inRange up
      exact ⟨index, inRange, up⟩
    exact .inr ((aliveAddress_congr frame _).mp (oowTarget_alive living v.2.2))

end TransferEngine

end ForestLink.Mesh
