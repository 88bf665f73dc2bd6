/-
Module: ForestLink.Proofs.SetupTotal
Purpose: `RunEngine` stops in no loop of its own: a call of `setupActive` or of
  `completeTransfer` comes back with the staging array rearranged, unless a chunk is refused
  by the reassembler, and so does every turn of the loop.
Trusted boundary: none
Main exports: Engine.SetupRule.Writes, Engine.SetupRule.setupActive_total,
  Engine.SetupRule.completeTransfer_total, Engine.timeoutTick_notes, Engine.stallTick_total,
  Engine.dropOrphans_total
-/
import ForestLink.Proofs.EngineConsistency

namespace ForestLink.Cloud

open ForestLink.Lib

namespace Engine

namespace SetupRule

variable {now : Int} {staged : List FileChunk} {bare served : Engine → Prop}

/-- No staged chunk of an active session stops the engine. -/
def Writes (now : Int) (staged : List FileChunk) (served : Engine → Prop) : Prop :=
  ∀ {e s c}, served e → e.active = some s → c ∈ staged → c.key = s.key →
    ∃ result, e.processChunk c now = some result

/-- The array of an engine after a call. -/
def Keeps (before after : Engine) : Prop :=
  before.pendingChunks.Rearranges after.pendingChunks

/-- Behind the completing chunk the loop reaches its end. -/
theorem replay_completed_total (now : Int) (complete : Engine → Bool → Option Engine)
    (key : String) (left i kept : Nat) {e : Engine} (behind : kept ≤ i)
    (inside : i + left ≤ e.pendingChunks.cells.length) :
    ∃ last count, Engine.replay complete key now left i kept true e = some (last, count) ∧
      Keeps e last ∧ count ≤ last.pendingChunks.cells.length := by
  induction left generalizing i kept e with
  | zero => exact ⟨e, kept, rfl, Slice.Rearranges.refl _, by omega⟩
  | succ left inductionHypothesis =>
      have here : i < e.pendingChunks.cells.length := by omega
      obtain ⟨c, read⟩ : ∃ c, e.pendingChunks.cells[i]? = some c :=
        ⟨_, List.getElem?_eq_getElem here⟩
      have stored := Slice.Rearranges.store e.pendingChunks kept (List.mem_of_getElem? read)
      obtain ⟨last, count, ran, keeps, small⟩ := inductionHypothesis (i + 1) (kept + 1)
        (e := { e with pendingChunks := e.pendingChunks.store kept c }) (by omega)
        (by rw [stored.length]; omega)
      refine ⟨last, count, ?_, stored.trans keeps, small⟩
      rw [Engine.replay, read]
      dsimp only [Option.bind_eq_bind, Option.bind_some]
      rw [if_pos (.inr rfl)]
      exact ran

/-- The loop reaches its end, where the nested call it makes comes back. -/
theorem replay_total (rule : SetupRule now staged bare served)
    (writes : Writes now staged served) {complete : Engine → Bool → Option Engine}
    {s : Session} {queue : List Session}
    (completes : ∀ {e success}, bare (e.closeActive s success now) → e.active = some s →
      e.queue = queue → (∀ c ∈ e.pendingChunks.cells, c ∈ staged) →
      ∃ next, complete e success = some next ∧ Keeps e next)
    (left i kept : Nat) {e : Engine} (holds : served e) (isActive : e.active = some s)
    (sameQueue : e.queue = queue) (shows : ∀ c ∈ e.pendingChunks.cells, c ∈ staged)
    (behind : kept ≤ i) (inside : i + left ≤ e.pendingChunks.cells.length) :
    ∃ last count, Engine.replay complete s.key now left i kept false e = some (last, count) ∧
      Keeps e last ∧ count ≤ last.pendingChunks.cells.length := by
  induction left generalizing i kept e with
  | zero => exact ⟨e, kept, rfl, Slice.Rearranges.refl _, by omega⟩
  | succ left inductionHypothesis =>
      have here : i < e.pendingChunks.cells.length := by omega
      obtain ⟨c, read⟩ : ∃ c, e.pendingChunks.cells[i]? = some c :=
        ⟨_, List.getElem?_eq_getElem here⟩
      have isStaged := shows c (List.mem_of_getElem? read)
      rw [Engine.replay, read]
      dsimp only [Option.bind_eq_bind, Option.bind_some]
      by_cases own : c.key = s.key
      · rw [if_neg (by simp [own])]
        obtain ⟨⟨after, finished, success⟩, processed⟩ := writes holds isActive isStaged own
        obtain ⟨same, pendingEq, _⟩ := processChunk_spec processed
        have stillActive := same.active.trans isActive
        have stillQueued := same.queue.trans sameQueue
        have stillShows : ∀ c ∈ after.pendingChunks.cells, c ∈ staged := by
          rw [pendingEq]
          exact shows
        have keepsHere : Keeps e after := by
          unfold Keeps
          rw [pendingEq]
          exact Slice.Rearranges.refl _
        rw [processed]
        cases finished with
        | true =>
            have closed := rule.close holds isActive isStaged own processed
            obtain ⟨next, completed, keepsNested⟩ :=
              completes closed stillActive stillQueued stillShows
            have keepsNext := keepsHere.trans keepsNested
            obtain ⟨last, count, ran, keeps, small⟩ := replay_completed_total now
              complete s.key left (i + 1) kept (e := next) (by omega)
              (by rw [keepsNext.length]; omega)
            refine ⟨last, count, ?_, keepsNext.trans keeps, small⟩
            dsimp only [Option.bind_some]
            rw [if_pos rfl, completed]
            exact ran
        | false =>
            have handed := rule.chunk holds isActive isStaged own processed
            obtain ⟨last, count, ran, keeps, small⟩ := inductionHypothesis (i + 1) kept handed
              stillActive stillQueued stillShows (by omega) (by rw [keepsHere.length]; omega)
            exact ⟨last, count, ran, keepsHere.trans keeps, small⟩
      · rw [if_pos (.inl own)]
        have stored := Slice.Rearranges.store e.pendingChunks kept (List.mem_of_getElem? read)
        obtain ⟨last, count, ran, keeps, small⟩ := inductionHypothesis (i + 1) (kept + 1)
          (rule.pending (e.pendingChunks.store kept c) holds) isActive sameQueue
          (fun c member => shows c (stored.cells c member)) (by omega)
          (by rw [stored.length]; omega)
        exact ⟨last, count, ran, stored.trans keeps, small⟩

/-- Every level comes back: the one below it has a session less. -/
theorem setupActiveFuel_total (rule : SetupRule now staged bare served)
    (writes : Writes now staged served) (fuel : Nat) {e : Engine} (enough : e.depth ≤ fuel)
    (holds : bare e) (shows : ∀ c ∈ e.pendingChunks.cells, c ∈ staged) :
    ∃ after, Engine.setupActiveFuel now fuel e = some after ∧ Keeps e after := by
  induction fuel generalizing e with
  | zero =>
      unfold depth at enough
      split at enough <;> omega
  | succ fuel inductionHypothesis =>
      rw [Engine.setupActiveFuel]
      unfold Engine.setupActiveWith
      cases isActive : e.active with
      | none => exact ⟨_, rfl, Slice.Rearranges.refl _⟩
      | some s =>
          have created := rule.reset holds isActive
          dsimp only
          split
          · exact ⟨_, rfl, Slice.Rearranges.refl _⟩
          · have nested : ∀ {other : Engine} {success : Bool},
                bare (other.closeActive s success now) → other.active = some s →
                other.queue = e.queue → (∀ c ∈ other.pendingChunks.cells, c ∈ staged) →
                ∃ next, completeTransferWith (Engine.setupActiveFuel now fuel) now other success =
                  some next ∧ Keeps other next := by
              intro other success closed otherActive otherQueue otherShows
              have less := depth_closeActive other otherActive success now
              have sameDepth : other.depth = e.depth := by
                unfold depth
                rw [otherActive, isActive, otherQueue]
              obtain ⟨_, _, _, _, pending⟩ := closeActive_spec other otherActive success now
              have filtered : Keeps other (other.closeActive s success now) := by
                unfold Keeps
                rw [pending]
                exact Slice.rearranges_filterInPlace _ _
              obtain ⟨next, ran, keeps⟩ := inductionHypothesis
                (e := other.closeActive s success now) (by omega) closed
                (fun c member => otherShows c (filtered.cells c member))
              refine ⟨next, ?_, filtered.trans keeps⟩
              unfold completeTransferWith
              rw [otherActive]
              exact ran
            obtain ⟨last, count, replayed, keeps, small⟩ := rule.replay_total writes nested
              e.pendingChunks.len 0 0 created isActive rfl shows (Nat.le_refl 0)
              (by rw [Nat.zero_add]; exact e.pendingChunks.inside)
            obtain ⟨pending, resliced, rearranged⟩ := Slice.Rearranges.reslice? small
            refine ⟨{ last with pendingChunks := pending }, ?_, keeps.trans rearranged⟩
            change (Engine.replay _ s.key now e.pendingChunks.len 0 0 false
              (e.resetFor s now)).bind _ = _
            rw [replayed, Option.bind_some]
            dsimp only
            rw [resliced]
            rfl

/-- A call of `setupActive` comes back. -/
theorem setupActive_total (rule : SetupRule now staged bare served)
    (writes : Writes now staged served) {e : Engine} (holds : bare e)
    (shows : ∀ c ∈ e.pendingChunks.cells, c ∈ staged) :
    ∃ after, e.setupActive now = some after ∧ served after ∧ Keeps e after := by
  obtain ⟨after, ran, keeps⟩ :=
    rule.setupActiveFuel_total writes (e.queue.length + 2) (depth_le e) holds shows
  have shown : ShowsOnly staged e := fun c member =>
    shows c (Slice.mem_cells_of_mem_view member)
  exact ⟨after, ran, rule.setupActive holds shown ran, keeps⟩

/-- A call of `completeTransfer` comes back. -/
theorem completeTransfer_total (rule : SetupRule now staged bare served)
    (writes : Writes now staged served) {e : Engine} {s : Session} (success : Bool)
    (isActive : e.active = some s) (holds : bare (e.closeActive s success now))
    (shows : ∀ c ∈ e.pendingChunks.cells, c ∈ staged) :
    ∃ after, e.completeTransfer success now = some after ∧ served after ∧ Keeps e after := by
  obtain ⟨_, _, _, _, pending⟩ := closeActive_spec e isActive success now
  have filtered : Keeps e (e.closeActive s success now) := by
    unfold Keeps
    rw [pending]
    exact Slice.rearranges_filterInPlace _ _
  obtain ⟨after, ran, holds', keeps⟩ := rule.setupActive_total writes holds
    fun c member => shows c (filtered.cells c member)
  refine ⟨after, ?_, holds', filtered.trans keeps⟩
  unfold Engine.completeTransfer completeTransferWith
  rw [isActive]
  exact ran

end SetupRule

/-! ## The other steps of the loop -/

variable {e : Engine} {now : Int}

/-- The scan for timeouts publishes NACKs and nothing else. -/
theorem timeoutTick_notes (e : Engine) (now : Int) :
    (e.timeoutTick now).pendingChunks = e.pendingChunks ∧
      ∃ notes : List EngineEvent, (e.timeoutTick now).trace = e.trace ++ notes ∧
        ∀ note ∈ notes, ∃ sessionId seq, note = .nack sessionId seq := by
  have nothing : ∃ notes : List EngineEvent, e.trace = e.trace ++ notes ∧
      ∀ note ∈ notes, ∃ sessionId seq, note = .nack sessionId seq :=
    ⟨[], (List.append_nil _).symm, fun _ none => absurd none List.not_mem_nil⟩
  unfold timeoutTick
  split
  · exact ⟨rfl, nothing⟩
  · split
    · refine ⟨rfl, _, rfl, fun note member => ?_⟩
      obtain ⟨seq, _, rfl⟩ := List.mem_map.mp member
      exact ⟨_, seq, rfl⟩
    · exact ⟨rfl, nothing⟩

/-- A stall NACK needs a session, and the engine has one with its receiver. -/
theorem stallTick_total (consistent : Consistent e) (now : Int) :
    ∃ after, e.stallTick now = some after ∧ after.pendingChunks = e.pendingChunks ∧
      ∃ notes : List EngineEvent, after.trace = e.trace ++ notes ∧
        ∀ note ∈ notes, ∃ sessionId seqs, note = .transferNack sessionId seqs := by
  have nothing : ∃ notes : List EngineEvent, e.trace = e.trace ++ notes ∧
      ∀ note ∈ notes, ∃ sessionId seqs, note = .transferNack sessionId seqs :=
    ⟨[], (List.append_nil _).symm, fun _ none => absurd none List.not_mem_nil⟩
  unfold stallTick
  cases hasSr : e.sr with
  | none => exact ⟨e, rfl, rfl, nothing⟩
  | some sr =>
      cases hasReassembler : e.reassembler with
      | none => exact ⟨e, rfl, rfl, nothing⟩
      | some r =>
          have isActive : e.active ≠ none := fun none => by
            rw [consistent.srNone.mpr none] at hasSr
            cases hasSr
          obtain ⟨s, isSome⟩ := Option.ne_none_iff_exists'.mp isActive
          dsimp only
          split
          · exact ⟨e, rfl, rfl, nothing⟩
          split
          · obtain ⟨⟨sent, filtered⟩, built⟩ : ∃ result,
                result = sr.buildFilteredStallNacks 8 64
                  (if r.inTailPhase then 4000 else 8000) now := ⟨_, rfl⟩
            rw [← built]
            dsimp only
            split
            · exact ⟨_, rfl, rfl, nothing⟩
            · rw [isSome]
              refine ⟨_, rfl, rfl, _, rfl, ?_⟩
              intro note member
              exact ⟨_, _, List.mem_singleton.mp member⟩
          · exact ⟨e, rfl, rfl, nothing⟩

theorem dropOrphans_total (e : Engine) (now : Int) :
    ∃ pending, e.dropOrphans now = some { e with pendingChunks := pending } ∧
      e.pendingChunks.Rearranges pending := by
  unfold dropOrphans
  split
  · obtain ⟨pending, resliced, rearranged⟩ :=
      Slice.Rearranges.reslice? (Nat.zero_le e.pendingChunks.cells.length)
    rw [resliced]
    exact ⟨pending, rfl, rearranged⟩
  · exact ⟨e.pendingChunks, rfl, Slice.Rearranges.refl _⟩

end Engine

end ForestLink.Cloud
