/-
Module: ForestLink.Proofs.SetupRule
Purpose: What one operation of the cloud engine can do to its variables, and the rule by
  which a property passes through the mutual recursion of `setupActive` and
  `completeTransfer`.
Trusted boundary: none
Main exports: Engine.processChunk_cases, Engine.closeActive_cases, Engine.SetupRule,
  Engine.SetupRule.setupActive
-/
import ForestLink.Proofs.StagedReplay

namespace ForestLink.Cloud

open ForestLink.Lib

/-! ## What a meta fixes -/

namespace FileMeta

/-- The two values that name a transfer. -/
def pair (m : FileMeta) : String × String := (m.sessionId, m.nodeId)

/-- The key of the transfer. -/
def key (m : FileMeta) : String := transferKey m.sessionId m.nodeId

/-- The reassembler of a session with these values. -/
def reassembler (m : FileMeta) : FileReassembler :=
  newFileReassembler m.sessionId m.filename m.totalSize m.chunkCount m.crc32 m.fragmentSize

end FileMeta

namespace Engine

/-! ## Inversions -/

/-- `processChunk` needs a session and its receiver.  It writes the chunk, tells selective
repeat of a new one, and saves the file when that one completes it with the right checksum. -/
structure ProcessedChunk (e after : Engine) (chunk : FileChunk) (now : Int)
    (finished success : Bool) (s : Session) (r next : FileReassembler) (sr : SelectiveRepeat)
    (isNew : Bool) (notes : List EngineEvent) : Prop where
  isActive : e.active = some s
  hasReassembler : e.reassembler = some r
  hasSr : e.sr = some sr
  wrote : r.writeChunk chunk.seqNum chunk.data = some (isNew, next)
  finishedEq : finished = (isNew && next.isComplete)
  successEq : success = (isNew && next.isComplete && next.verifyCrc)
  afterEq : after = { e with
    reassembler := some next
    sr := some (if isNew then (sr.onChunkReceived chunk.seqNum).1 else sr)
    lastChunkTime := if isNew then now else e.lastChunkTime
    trace := e.trace ++ notes }
  quiet : ∀ note ∈ notes, (∀ s, note ≠ .started s) ∧ (∀ s nacks, note ≠ .record s nacks) ∧
    ∀ saved at_, note = .saved saved at_ → saved = s ∧ at_ = now ∧ success = true

theorem processChunk_cases {e after : Engine} {chunk : FileChunk} {now : Int}
    {finished success : Bool}
    (ran : e.processChunk chunk now = some (after, finished, success)) :
    ∃ s r next sr isNew notes,
      ProcessedChunk e after chunk now finished success s r next sr isNew notes := by
  unfold processChunk at ran
  obtain ⟨r, hasReassembler, ran⟩ := Option.bind_eq_some_iff.mp ran
  obtain ⟨sr, hasSr, ran⟩ := Option.bind_eq_some_iff.mp ran
  obtain ⟨s, isActive, ran⟩ := Option.bind_eq_some_iff.mp ran
  obtain ⟨⟨receiver, outcome⟩, processed, ran⟩ := Option.bind_eq_some_iff.mp ran
  simp only [Option.pure_def, Option.some.injEq, Prod.mk.injEq] at ran
  obtain ⟨rfl, rfl, rfl⟩ := ran
  have quiet : ∀ note ∈ EngineEvent.processed chunk ::
      (outcome.acked.toList.map (fun seq => EngineEvent.ack s.sessionId seq) ++
        if outcome.success = true then
          [EngineEvent.save s.nodeId s.filename
            (receiver.reassembler.buffer.take receiver.reassembler.totalSize), .saved s now]
        else []),
      (∀ s, note ≠ .started s) ∧ (∀ s nacks, note ≠ .record s nacks) ∧
        ∀ saved at_, note = .saved saved at_ →
          saved = s ∧ at_ = now ∧ outcome.success = true := by
    intro note member
    rcases List.mem_cons.mp member with rfl | member
    · simp
    rcases List.mem_append.mp member with member | member
    · obtain ⟨seq, _, rfl⟩ := List.mem_map.mp member
      simp
    · split at member
      · rename_i saves
        rcases List.mem_cons.mp member with rfl | member
        · simp
        · rw [List.mem_singleton.mp member]
          simp [saves]
      · cases member
  unfold Receiver.processChunk at processed
  obtain ⟨⟨isNew, next⟩, wrote, processed⟩ := Option.bind_eq_some_iff.mp processed
  cases isNew with
  | false =>
      cases processed
      exact ⟨s, r, next, sr, false, _, isActive, hasReassembler, hasSr, wrote, rfl, rfl, rfl,
        quiet⟩
  | true =>
      cases processed
      exact ⟨s, r, next, sr, true, _, isActive, hasReassembler, hasSr, wrote,
        (Bool.true_and _).symm, by rw [Bool.true_and], rfl, quiet⟩

/-- `completeTransfer` up to its call of `setupActive`: the head of the queue is active, and
a success is recorded. -/
structure ClosedActive (e after : Engine) (s : Session) (success : Bool) (now : Int)
    (completed : List Session) (pending : Slice FileChunk) (nacks : Nat) : Prop where
  afterEq : after = { e with
    queue := e.queue.tail
    active := e.queue.head?.map fun next => { next with startedAt := now }
    completed := completed
    pendingChunks := pending
    recentlyCompletedMeta :=
      if success then Function.update e.recentlyCompletedMeta (completedMetaKey s.toMeta)
        (some (now + recentlyCompletedTtl))
      else e.recentlyCompletedMeta
    recentlyCompletedSession :=
      if success then Function.update e.recentlyCompletedSession s.key
        (some (now + recentlyCompletedTtl))
      else e.recentlyCompletedSession
    trace := e.trace ++
      ((if success then [.transferComplete s.sessionId, .record { s with completedAt := now } nacks]
        else []) ++ [.closed s.key success] ++
        (e.queue.head?.toList.map fun next =>
          [EngineEvent.transferCmd next.nodeId "START" next.sessionId,
            .started { next with startedAt := now }]).flatten) }
  view : ∀ c ∈ pending.view, c ∈ e.pendingChunks.view

theorem closeActive_cases (e : Engine) {s : Session} (isActive : e.active = some s)
    (success : Bool) (now : Int) :
    ∃ completed pending nacks,
      ClosedActive e (e.closeActive s success now) s success now completed pending nacks := by
  refine ⟨((e.completed ++ [{ s with completedAt := now }]).drop
      ((e.completed ++ [{ s with completedAt := now }]).length - maxCompletedSlice)),
    e.pendingChunks.filterInPlace fun c => c.key != s.key,
    (e.sr.map fun sr => sr.nackCount).getD 0, ?_, ?_⟩
  · cases success <;> cases waiting : e.queue <;>
      simp [closeActive, completeActive, startNext, isActive, waiting, emit]
  · intro c member
    rw [Slice.view_filterInPlace] at member
    exact (List.mem_filter.mp member).1

/-! ## The rule

`bare` holds of a state whose active session has not got its receiver yet, `served` of one
whose active session has.  Only staged chunks are replayed. -/

/-- What one level of the recursion has to keep. -/
structure SetupRule (now : Int) (staged : List FileChunk) (bare served : Engine → Prop) :
    Prop where
  pending : ∀ {e} (pending : Slice FileChunk), served e →
    served { e with pendingChunks := pending }
  idle : ∀ {e}, bare e → e.active = none → served { e with sr := none, reassembler := none }
  reset : ∀ {e s}, bare e → e.active = some s → served (e.resetFor s now)
  chunk : ∀ {e s c after success}, served e → e.active = some s → c ∈ staged →
    c.key = s.key → e.processChunk c now = some (after, false, success) → served after
  close : ∀ {e s c after success}, served e → e.active = some s → c ∈ staged →
    c.key = s.key → e.processChunk c now = some (after, true, success) →
    bare (after.closeActive s success now)

/-- The array shows staged chunks only. -/
def ShowsOnly (staged : List FileChunk) (e : Engine) : Prop :=
  ∀ c ∈ e.pendingChunks.view, c ∈ staged

theorem showsOnly_store {staged : List FileChunk} {e : Engine} (shows : ShowsOnly staged e)
    {c : FileChunk} (isStaged : c ∈ staged) (i : Nat) :
    ShowsOnly staged { e with pendingChunks := e.pendingChunks.store i c } := by
  intro other member
  have moved : other ∈ (e.pendingChunks.view).set i c := by
    unfold Slice.view at member ⊢
    rw [← List.take_set]
    exact member
  rcases List.mem_or_eq_of_mem_set moved with there | rfl
  · exact shows other there
  · exact isStaged

namespace SetupRule

variable {now : Int} {staged : List FileChunk} {bare served : Engine → Prop}

/-- Behind the completing chunk the loop only moves cells. -/
theorem replay_completed (rule : SetupRule now staged bare served)
    {complete : Engine → Bool → Option Engine} {key : String} (left i kept : Nat) {e : Engine}
    {result : Engine × Nat} (holds : served e)
    (ran : replay complete key now left i kept true e = some result) : served result.1 := by
  induction left generalizing i kept e with
  | zero =>
      cases ran
      exact holds
  | succ left inductionHypothesis =>
      rw [replay] at ran
      obtain ⟨c, _, ran⟩ := Option.bind_eq_some_iff.mp ran
      rw [if_pos (.inr rfl)] at ran
      exact inductionHypothesis _ _ (rule.pending _ holds) ran

/-- The loop up to the completing chunk hands over staged chunks of the session only. -/
theorem replay (rule : SetupRule now staged bare served)
    {complete : Engine → Bool → Option Engine}
    (completes : ∀ {e s success next}, bare (e.closeActive s success now) →
      e.active = some s → ShowsOnly staged e → complete e success = some next → served next)
    {s : Session} (left i kept : Nat) {e : Engine} {result : Engine × Nat} (holds : served e)
    (isActive : e.active = some s) (shows : ShowsOnly staged e)
    (inside : i + left ≤ e.pendingChunks.len)
    (ran : Engine.replay complete s.key now left i kept false e = some result) :
    served result.1 := by
  induction left generalizing i kept e with
  | zero =>
      cases ran
      exact holds
  | succ left inductionHypothesis =>
      rw [Engine.replay] at ran
      obtain ⟨c, read, ran⟩ := Option.bind_eq_some_iff.mp ran
      have isStaged : c ∈ staged := by
        apply shows
        apply List.mem_of_getElem? (i := i)
        rw [Slice.view, List.getElem?_take_of_lt (by omega)]
        exact read
      split at ran
      · apply inductionHypothesis (i + 1) (kept + 1)
          (rule.pending (e.pendingChunks.store kept c) holds) isActive
          (showsOnly_store shows isStaged kept) _ ran
        change i + 1 + left ≤ e.pendingChunks.len
        omega
      · rename_i own
        have sameKey : c.key = s.key := by
          by_contra other
          exact own (.inl other)
        obtain ⟨⟨after, finished, success⟩, processed, ran⟩ := Option.bind_eq_some_iff.mp ran
        obtain ⟨same, pendingEq, _⟩ := processChunk_spec processed
        have stillActive : after.active = some s := same.active.trans isActive
        have stillShows : ShowsOnly staged after := by
          unfold ShowsOnly
          rw [pendingEq]
          exact shows
        cases finished with
        | true =>
            obtain ⟨next, completed, ran⟩ := Option.bind_eq_some_iff.mp ran
            have closed := rule.close holds isActive isStaged sameKey processed
            have nested := completes closed stillActive stillShows completed
            exact rule.replay_completed _ _ _ nested ran
        | false =>
            have handed := rule.chunk holds isActive isStaged sameKey processed
            apply inductionHypothesis (i + 1) kept handed stillActive stillShows _ ran
            rw [pendingEq]
            omega

/-- One level: the session that has become active gets its receiver and its staged chunks. -/
theorem setupActiveWith (rule : SetupRule now staged bare served)
    {complete : Engine → Bool → Option Engine}
    (completes : ∀ {e s success next}, bare (e.closeActive s success now) →
      e.active = some s → ShowsOnly staged e → complete e success = some next → served next)
    {e after : Engine} (holds : bare e) (shows : ShowsOnly staged e)
    (ran : Engine.setupActiveWith complete now e = some after) : served after := by
  unfold Engine.setupActiveWith at ran
  cases isActive : e.active with
  | none =>
      rw [isActive] at ran
      cases ran
      have idle := rule.idle holds isActive
      rw [isActive] at idle
      exact idle
  | some s =>
      rw [isActive] at ran
      have created := rule.reset holds isActive
      dsimp only at ran
      split at ran
      · cases ran
        exact created
      · obtain ⟨⟨last, kept⟩, replayed, ran⟩ := Option.bind_eq_some_iff.mp ran
        obtain ⟨pending, _, ran⟩ := Option.bind_eq_some_iff.mp ran
        cases ran
        apply rule.pending
        apply rule.replay completes _ 0 0 created isActive shows _ replayed
        exact Nat.le_of_eq (Nat.zero_add _)

theorem setupActiveFuel (rule : SetupRule now staged bare served) (fuel : Nat)
    {e after : Engine} (holds : bare e) (shows : ShowsOnly staged e)
    (ran : Engine.setupActiveFuel now fuel e = some after) : served after := by
  induction fuel generalizing e after with
  | zero => cases ran
  | succ fuel inductionHypothesis =>
      rw [Engine.setupActiveFuel] at ran
      apply rule.setupActiveWith _ holds shows ran
      intro e s success next closed isActive shown completed
      unfold completeTransferWith at completed
      rw [isActive] at completed
      apply inductionHypothesis closed _ completed
      obtain ⟨_, _, _, cases_⟩ := closeActive_cases e isActive success now
      intro c member
      rw [cases_.afterEq] at member
      exact shown c (cases_.view c member)

/-- A call of `setupActive`, nested calls included. -/
theorem setupActive (rule : SetupRule now staged bare served) {e after : Engine}
    (holds : bare e) (shows : ShowsOnly staged e) (ran : e.setupActive now = some after) :
    served after :=
  rule.setupActiveFuel _ holds shows ran

/-- A call of `completeTransfer` while a session is active. -/
theorem completeTransfer (rule : SetupRule now staged bare served) {e after : Engine}
    {s : Session} {success : Bool} (isActive : e.active = some s)
    (holds : bare (e.closeActive s success now)) (shows : ShowsOnly staged e)
    (ran : e.completeTransfer success now = some after) : served after := by
  unfold Engine.completeTransfer completeTransferWith at ran
  rw [isActive] at ran
  apply rule.setupActive holds _ ran
  obtain ⟨_, _, _, cases_⟩ := closeActive_cases e isActive success now
  intro c member
  rw [cases_.afterEq] at member
  exact shows c (cases_.view c member)

end SetupRule

end Engine

end ForestLink.Cloud
