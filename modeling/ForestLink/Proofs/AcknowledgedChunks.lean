/-
Module: ForestLink.Proofs.AcknowledgedChunks
Purpose: The cloud acknowledges a chunk in the call that marks it received, and forgets no
  acknowledgement.
Trusted boundary: none
Main exports: Engine.processChunk_acks, Engine.Acknowledges, Engine.Acknowledges.handle,
  Engine.Acknowledges.run
-/
import ForestLink.Proofs.EngineConsistency

namespace ForestLink.Cloud.Engine

open ForestLink.Lib

variable {e after : Engine} {m : FileMeta} {s : Session} {now : Int}

/-! ## What marks a chunk -/

/-- A chunk that is new to selective repeat is acknowledged; nothing else is marked. -/
theorem processChunk_acks {chunk : FileChunk} {finished success : Bool}
    (ran : e.processChunk chunk now = some (after, finished, success)) :
    ∃ s sr notes, e.active = some s ∧ after.active = some s ∧ e.sr = some sr ∧
      after.trace = e.trace ++ notes ∧
      (after.sr = some sr ∨
        after.sr = some (sr.onChunkReceived chunk.seqNum).1 ∧
          (chunk.seqNum < sr.totalChunks → .ack s.sessionId chunk.seqNum ∈ notes)) := by
  unfold processChunk at ran
  obtain ⟨r, _, ran⟩ := Option.bind_eq_some_iff.mp ran
  obtain ⟨sr, hasSr, ran⟩ := Option.bind_eq_some_iff.mp ran
  obtain ⟨s, isActive, ran⟩ := Option.bind_eq_some_iff.mp ran
  obtain ⟨⟨receiver, outcome⟩, processed, ran⟩ := Option.bind_eq_some_iff.mp ran
  simp only [Option.pure_def, Option.some.injEq, Prod.mk.injEq] at ran
  obtain ⟨rfl, _⟩ := ran
  refine ⟨s, sr, _, isActive, isActive, hasSr, rfl, ?_⟩
  unfold Receiver.processChunk at processed
  obtain ⟨⟨isNew, next⟩, _, processed⟩ := Option.bind_eq_some_iff.mp processed
  cases isNew with
  | false =>
      cases processed
      exact .inl rfl
  | true =>
      simp only [Bool.not_true, Bool.false_eq_true, ↓reduceIte, Option.pure_def,
        Option.some.injEq, Prod.mk.injEq] at processed
      obtain ⟨rfl, rfl⟩ := processed
      refine .inr ⟨rfl, fun inside => ?_⟩
      have acked : (sr.onChunkReceived chunk.seqNum).2 = some chunk.seqNum := by
        simp [SelectiveRepeat.onChunkReceived, Nat.not_le.mpr inside]
      simp [acked]

/-- The NACKs of a tick leave the marks alone. -/
def SameReceiver (before after : Engine) : Prop :=
  ∀ sr, after.sr = some sr → ∃ old, before.sr = some old ∧ SelectiveRepeat.SameMarks old sr

theorem SameReceiver.of_eq (same : after.sr = e.sr) : SameReceiver e after :=
  fun sr hasSr => ⟨sr, same ▸ hasSr, rfl, rfl, rfl⟩

theorem sameReceiver_timeoutTick (e : Engine) (now : Int) :
    SameReceiver e (e.timeoutTick now) := by
  unfold timeoutTick
  split
  · exact .of_eq rfl
  · rename_i sr hasSr
    split
    · intro sent isSent
      cases isSent
      exact ⟨sr, hasSr, (sr.checkTimeouts_spec 6 now).1⟩
    · exact .of_eq rfl

theorem sameReceiver_stallTick (ran : e.stallTick now = some after) : SameReceiver e after := by
  unfold stallTick at ran
  split at ran
  · rename_i sr r hasSr _
    dsimp only at ran
    split at ran
    · cases ran
      exact .of_eq rfl
    split at ran
    · obtain ⟨⟨sent, filtered⟩, built⟩ : ∃ result, result = sr.buildFilteredStallNacks 8 64
          (if r.inTailPhase then 4000 else 8000) now := ⟨_, rfl⟩
      have same : SelectiveRepeat.SameMarks sr sent := by
        have spec := (sr.buildFilteredStallNacks_spec 8 64
          (if r.inTailPhase then 4000 else 8000) now).1
        rwa [← built] at spec
      rw [← built] at ran
      dsimp only at ran
      split at ran
      · cases ran
        intro next isNext
        cases isNext
        exact ⟨sr, hasSr, same⟩
      · obtain ⟨s, _, ran⟩ := Option.bind_eq_some_iff.mp ran
        cases ran
        intro next isNext
        cases isNext
        exact ⟨sr, hasSr, same⟩
    · cases ran
      exact .of_eq rfl
  · cases ran
    exact .of_eq rfl

/-! ## The invariant -/

/-- Behind the events `old`: what the active session has marked of a transfer was acknowledged
after the first `since` events. -/
structure Acknowledges (old : List EngineEvent) (since : Nat) (sessionId nodeId : String)
    (e : Engine) : Prop where
  past : old <+: e.trace
  counted : since ≤ old.length
  started : ∀ sr, e.sr = some sr → sr.Started
  acked : ∀ s sr seq, e.active = some s → s.sessionId = sessionId → s.nodeId = nodeId →
    e.sr = some sr → sr.Received seq → .ack sessionId seq ∈ e.trace.drop since

/-- What has happened stays. -/
theorem mem_drop_of_past {before after : List EngineEvent} (past : before <+: after)
    {since : Nat} {event : EngineEvent} (member : event ∈ before.drop since) :
    event ∈ after.drop since := by
  obtain ⟨notes, rfl⟩ := past
  rw [List.drop_append]
  exact List.mem_append_left _ member

namespace Acknowledges

variable {old : List EngineEvent} {since : Nat} {sessionId nodeId : String}

/-- A later moment to count from. -/
theorem here (acks : Acknowledges old since sessionId nodeId e) :
    Acknowledges e.trace since sessionId nodeId e where
  past := List.prefix_rfl
  counted := acks.counted.trans acks.past.length_le
  started := acks.started
  acked := acks.acked

/-- Nothing was marked and no session has got another name. -/
theorem marks (acks : Acknowledges old since sessionId nodeId e)
    (grown : e.trace <+: after.trace)
    (named : ∀ s, after.active = some s →
      ∃ was, e.active = some was ∧ was.sessionId = s.sessionId ∧ was.nodeId = s.nodeId)
    (same : SameReceiver e after) : Acknowledges old since sessionId nodeId after where
  past := acks.past.trans grown
  counted := acks.counted
  started := fun sr hasSr => by
    obtain ⟨was, hadSr, marks⟩ := same sr hasSr
    exact marks.started (acks.started was hadSr)
  acked := fun s sr seq isActive isSession isNode hasSr received => by
    obtain ⟨was, wasActive, sameSession, sameNode⟩ := named s isActive
    obtain ⟨wasSr, hadSr, marks⟩ := same sr hasSr
    exact mem_drop_of_past grown (acks.acked was wasSr seq wasActive
      (sameSession.trans isSession) (sameNode.trans isNode) hadSr ((marks.received seq).mp received))

theorem sameTransfers (acks : Acknowledges old since sessionId nodeId e)
    (grown : e.trace <+: after.trace) (transfers : SameTransfers e after)
    (same : SameReceiver e after) : Acknowledges old since sessionId nodeId after := by
  apply acks.marks grown _ same
  intro s isActive
  obtain ⟨was, wasActive, sameMeta⟩ := transfers.active_some isActive
  exact ⟨was, wasActive, congrArg FileMeta.sessionId sameMeta, congrArg FileMeta.nodeId sameMeta⟩

theorem passive (acks : Acknowledges old since sessionId nodeId e) (passive : Passive e after)
    (same : SameReceiver e after) : Acknowledges old since sessionId nodeId after := by
  obtain ⟨notes, traceEq, _⟩ := passive.trace
  exact acks.sameTransfers ⟨notes, traceEq.symm⟩ passive.sameTransfers same

theorem processChunk (acks : Acknowledges old since sessionId nodeId e) {chunk : FileChunk}
    {finished success : Bool}
    (ran : e.processChunk chunk now = some (after, finished, success)) :
    Acknowledges old since sessionId nodeId after := by
  obtain ⟨s, sr, notes, wasActive, isActive, hadSr, traceEq, outcome⟩ := processChunk_acks ran
  have grown : e.trace <+: after.trace := ⟨notes, traceEq.symm⟩
  have named : ∀ s, after.active = some s →
      ∃ was, e.active = some was ∧ was.sessionId = s.sessionId ∧ was.nodeId = s.nodeId := by
    intro t active
    cases isActive.symm.trans active
    exact ⟨s, wasActive, rfl, rfl⟩
  rcases outcome with sameSr | ⟨nextSr, acked⟩
  · exact acks.marks grown named (.of_eq (sameSr.trans hadSr.symm))
  by_cases inside : chunk.seqNum < sr.totalChunks
  · obtain ⟨started, _, marked⟩ :=
      SelectiveRepeat.onChunkReceived_spec (acks.started sr hadSr) inside
    refine ⟨acks.past.trans grown, acks.counted, ?_, ?_⟩
    · intro next hasSr
      cases nextSr.symm.trans hasSr
      exact started
    · intro t next seq active isSession isNode hasSr received
      cases isActive.symm.trans active
      cases nextSr.symm.trans hasSr
      rcases (marked seq).mp received with rfl | before
      · -- The new mark: its acknowledgement is one of the notes of this call.
        rw [traceEq, List.drop_append_of_le_length (acks.counted.trans acks.past.length_le),
          ← isSession]
        exact List.mem_append_right _ (acked inside)
      · exact mem_drop_of_past grown (acks.acked s sr seq wasActive isSession isNode hadSr before)
  · have ignored : (sr.onChunkReceived chunk.seqNum).1 = sr := by
      simp [SelectiveRepeat.onChunkReceived, Nat.not_lt.mp inside]
    rw [ignored] at nextSr
    exact acks.marks grown named (.of_eq (nextSr.trans hadSr.symm))

theorem trace_closeActive (isActive : e.active = some s) (success : Bool) (now : Int) :
    e.trace <+: (e.closeActive s success now).trace := by
  obtain ⟨_, _, _, closed⟩ := closeActive_cases e isActive success now
  rw [closed.afterEq]
  exact ⟨_, rfl⟩

/-- `setupActive` creates a receiver without marks. -/
theorem rule (counted : since ≤ old.length) (now : Int) (staged : List FileChunk) :
    SetupRule now staged (fun e => old <+: e.trace) (Acknowledges old since sessionId nodeId) where
  pending := fun _ acks => ⟨acks.past, acks.counted, acks.started, acks.acked⟩
  idle := fun past _ => ⟨past, counted, fun sr none => (nomatch none),
    fun s sr seq _ _ _ none => (nomatch none)⟩
  reset := fun {e s} past _ => by
    refine ⟨past, counted, ?_, ?_⟩
    · intro sr hasSr
      cases hasSr
      exact SelectiveRepeat.started_startSession _ _
    · intro t sr seq _ _ _ hasSr received
      cases hasSr
      exact absurd received (SelectiveRepeat.not_received_startSession _ _ _)
  chunk := fun acks _ _ _ ran => acks.processChunk ran
  close := fun {e s c after success} acks isActive _ _ ran => by
    obtain ⟨same, _⟩ := processChunk_spec ran
    exact (acks.processChunk ran).past.trans
      (trace_closeActive (same.active.trans isActive) success now)

theorem completeTransfer (acks : Acknowledges old since sessionId nodeId e) {success : Bool}
    (ran : e.completeTransfer success now = some after) :
    Acknowledges old since sessionId nodeId after := by
  cases isActive : e.active with
  | none =>
      unfold Engine.completeTransfer completeTransferWith at ran
      rw [isActive] at ran
      cases ran
      exact acks
  | some s =>
      exact (rule acks.counted now e.pendingChunks.view).completeTransfer isActive
        (acks.past.trans (trace_closeActive isActive success now)) (fun c member => member) ran

/-! ## The handlers -/

theorem onMeta (acks : Acknowledges old since sessionId nodeId e) (consistent : Consistent e)
    (ran : e.onMeta m now = some after) : Acknowledges old since sessionId nodeId after := by
  have forgotten : Acknowledges old since sessionId nodeId (e.forget m) :=
    ⟨acks.past, acks.counted, acks.started, acks.acked⟩
  rcases onMeta_cases ran with ⟨rfl, _⟩ | ⟨_, ⟨stamps, rfl⟩ | ⟨ready, isReady, ran⟩⟩
  · exact acks
  · exact ⟨forgotten.past, forgotten.counted, forgotten.started, forgotten.acked⟩
  have before : Acknowledges old since sessionId nodeId ready := by
    cases isReady with
    | asItWas stamps =>
        exact ⟨forgotten.past, forgotten.counted, forgotten.started, forgotten.acked⟩
    | superseding _ aborted => exact forgotten.completeTransfer aborted
  have bare := (consistent.ready isReady).toBare
  have idle := (consistent.ready isReady).srNone
  obtain ⟨stamps, queued, queuedEq, outcome⟩ := enqueueAndSetUp_cases ran
  have known : ready.trace <+: queued.trace ∧
      (queued.sr = none ∨ Acknowledges old since sessionId nodeId queued) := by
    rcases enqueue_cases ready m now bare with
      ⟨active, queue, merged, same⟩ | ⟨_, _, appended⟩ | ⟨isNone, started⟩
    · rw [merged] at queuedEq same
      rw [queuedEq]
      exact ⟨List.prefix_rfl, .inr (before.sameTransfers List.prefix_rfl
        ⟨same.active, same.queue⟩ (.of_eq rfl))⟩
    · rw [appended] at queuedEq
      rw [queuedEq]
      exact ⟨List.prefix_rfl, .inr ⟨before.past, before.counted, before.started, before.acked⟩⟩
    · -- The only transfer has become active, and it has no receiver yet.
      rw [started] at queuedEq
      rw [queuedEq]
      exact ⟨⟨_, rfl⟩, .inl (idle.mpr isNone)⟩
  rcases outcome with ⟨_, _, setUp⟩ | ⟨complete, rfl⟩
  · exact (rule acks.counted now queued.pendingChunks.view).setupActive
      (before.past.trans known.1) (fun c member => member) setUp
  · rcases known.2 with noSr | same
    · have none : ∀ sr, after.sr ≠ some sr := by simp [noSr]
      exact ⟨before.past.trans known.1, before.counted, fun sr hasSr => absurd hasSr (none sr),
        fun s sr seq _ _ _ hasSr => absurd hasSr (none sr)⟩
    · exact same

theorem onChunk (acks : Acknowledges old since sessionId nodeId e) {c : FileChunk}
    (ran : e.onChunk c now = some after) : Acknowledges old since sessionId nodeId after := by
  rcases onChunk_cases ran with ⟨sessions, pending, rfl⟩ |
    ⟨s, sessions, next, finished, success, _, _, processed, ran⟩
  · exact ⟨acks.past, acks.counted, acks.started, acks.acked⟩
  have cleared : Acknowledges old since sessionId nodeId
      { e with recentlyCompletedSession := sessions } :=
    ⟨acks.past, acks.counted, acks.started, acks.acked⟩
  have written := cleared.processChunk processed
  split at ran
  · exact written.completeTransfer ran
  · cases ran
    exact written

theorem onTick (acks : Acknowledges old since sessionId nodeId e)
    (ran : e.onTick now = some after) : Acknowledges old since sessionId nodeId after := by
  rw [onTick_eq] at ran
  obtain ⟨next, timed, ran⟩ := Option.bind_eq_some_iff.mp ran
  obtain ⟨stalled, nacked, dropped⟩ := Option.bind_eq_some_iff.mp ran
  have expired : Acknowledges old since sessionId nodeId (e.expire now) :=
    ⟨acks.past, acks.counted, acks.started, acks.acked⟩
  have quiet := expired.passive (timeoutTick_passive _ now) (sameReceiver_timeoutTick _ now)
  have timedOut : Acknowledges old since sessionId nodeId next := by
    split at timed
    · exact quiet.completeTransfer timed
    · cases timed
      exact quiet
  apply (timedOut.passive (stallTick_passive nacked) (sameReceiver_stallTick nacked)).passive
    (dropOrphans_passive dropped)
  unfold dropOrphans at dropped
  split at dropped
  · obtain ⟨pending, _, rfl⟩ := Option.map_eq_some_iff.mp dropped
    exact .of_eq rfl
  · cases dropped
    exact .of_eq rfl

/-- One turn of the engine. -/
theorem handle (acks : Acknowledges old since sessionId nodeId e) (consistent : Consistent e)
    {event : Event} (ran : e.handle event now = some after) :
    Acknowledges old since sessionId nodeId after := by
  cases event with
  | file m => exact acks.onMeta consistent ran
  | chunk c => exact acks.onChunk ran
  | tick => exact acks.onTick ran

theorem run (acks : Acknowledges old since sessionId nodeId e) (consistent : Consistent e)
    {events : List (Event × Int)} (ran : e.run events = some after) :
    Acknowledges old since sessionId nodeId after := by
  induction events generalizing e with
  | nil =>
      cases ran
      exact acks
  | cons event rest inductionHypothesis =>
      obtain ⟨next, handled, ran⟩ := Option.bind_eq_some_iff.mp ran
      exact inductionHypothesis (acks.handle consistent handled) (consistent.handle handled) ran

/-- An engine without a session. -/
theorem newEngine (srWindow srTimeout : Nat) :
    Acknowledges [] 0 sessionId nodeId (Cloud.newEngine srWindow srTimeout) where
  past := List.prefix_rfl
  counted := le_rfl
  started := fun _ none => (nomatch none)
  acked := fun _ _ _ none => (nomatch none)

end Acknowledges

end ForestLink.Cloud.Engine
