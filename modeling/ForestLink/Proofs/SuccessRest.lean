/-
Module: ForestLink.Proofs.SuccessRest
Purpose: A transfer that succeeded rests for thirty seconds: its meta neither becomes active
  nor is its file saved again, unless a meta message supersedes a stale session while its
  own transfer waits in the queue with all of its chunks staged.
Trusted boundary: none
Main exports: Engine.Rest, Resting, Engine.Reopens, Engine.run_consistent
-/
import ForestLink.Proofs.EngineConsistency

namespace ForestLink.Cloud

open ForestLink.Lib

/-! ## The rest behind a success -/

/-- What may follow in the trace of an engine: within thirty seconds behind the success of a
session nothing with the same meta starts or is saved. -/
def EngineEvent.Rest : EngineEvent → EngineEvent → Prop
  | .record s _, .started next =>
      next.toMeta = s.toMeta → s.completedAt + recentlyCompletedTtl ≤ next.startedAt
  | .record s _, .saved next now =>
      next.toMeta = s.toMeta → s.completedAt + recentlyCompletedTtl ≤ now
  | _, _ => True

/-- A note that a handler may add at the time `clock` without a success: what it starts or
saves is among the transfers known. -/
def EngineEvent.Allowed (known : List FileMeta) (clock : Int) : EngineEvent → Prop
  | .record _ _ => False
  | .started s => s.startedAt = clock ∧ s.toMeta ∈ known
  | .saved s now => now = clock ∧ s.toMeta ∈ known
  | _ => True

/-- Every success of the last thirty seconds is in the map that `RunEngine` consults, and no
known transfer has its meta. -/
structure Resting (trace : List EngineEvent) (recent : String → Option Int)
    (known : List FileMeta) (clock : Int) : Prop where
  rests : trace.Pairwise EngineEvent.Rest
  past : ∀ s nacks, .record s nacks ∈ trace → s.completedAt ≤ clock
  barred : ∀ s nacks, .record s nacks ∈ trace → clock < s.completedAt + recentlyCompletedTtl →
    ∃ expiresAt, recent (completedMetaKey s.toMeta) = some expiresAt ∧
      s.completedAt + recentlyCompletedTtl ≤ expiresAt
  settled : ∀ s nacks, .record s nacks ∈ trace → clock < s.completedAt + recentlyCompletedTtl →
    s.toMeta ∉ known

namespace Resting

variable {trace notes : List EngineEvent} {recent : String → Option Int}
  {known kept : List FileMeta} {clock now : Int} {m : FileMeta}

theorem new : Resting [] recent [] clock where
  rests := List.Pairwise.nil
  past := fun _ _ none => absurd none List.not_mem_nil
  barred := fun _ _ none => absurd none List.not_mem_nil
  settled := fun _ _ none => absurd none List.not_mem_nil

theorem later (resting : Resting trace recent known clock) (passes : clock ≤ now) :
    Resting trace recent known now where
  rests := resting.rests
  past := fun s nacks member => Int.le_trans (resting.past s nacks member) passes
  barred := fun s nacks member within =>
    resting.barred s nacks member (Int.lt_of_le_of_lt passes within)
  settled := fun s nacks member within =>
    resting.settled s nacks member (Int.lt_of_le_of_lt passes within)

/-- Transfers may be forgotten. -/
theorem fewer (resting : Resting trace recent known clock) (subset : ∀ m ∈ kept, m ∈ known) :
    Resting trace recent kept clock where
  rests := resting.rests
  past := resting.past
  barred := resting.barred
  settled := fun s nacks member within inside =>
    resting.settled s nacks member within (subset _ inside)

/-- A transfer becomes known that has not succeeded in the last thirty seconds. -/
theorem learn (resting : Resting trace recent known clock)
    (isNew : ∀ s nacks, .record s nacks ∈ trace →
      clock < s.completedAt + recentlyCompletedTtl → s.toMeta ≠ m) :
    Resting trace recent (known ++ [m]) clock where
  rests := resting.rests
  past := resting.past
  barred := resting.barred
  settled := fun s nacks member within inside => by
    rcases List.mem_append.mp inside with old | same
    · exact resting.settled s nacks member within old
    · exact isNew s nacks member within (List.mem_singleton.mp same)

theorem emit (resting : Resting trace recent known clock)
    (each : ∀ note ∈ notes, EngineEvent.Allowed known clock note) :
    Resting (trace ++ notes) recent known clock := by
  have old : ∀ s nacks, .record s nacks ∈ trace ++ notes → .record s nacks ∈ trace := by
    intro s nacks member
    rcases List.mem_append.mp member with before | new
    · exact before
    · exact (each _ new).elim
  refine ⟨?_, fun s nacks member => resting.past s nacks (old s nacks member),
    fun s nacks member => resting.barred s nacks (old s nacks member),
    fun s nacks member => resting.settled s nacks (old s nacks member)⟩
  rw [List.pairwise_append]
  refine ⟨resting.rests, ?_, ?_⟩
  · -- Only a success makes demands on what follows.
    apply List.pairwise_of_forall_mem_list
    intro one member two _
    have allowed := each one member
    cases one with
    | record s nacks => exact allowed.elim
    | _ => exact trivial
  · intro one before two new
    have allowed := each two new
    cases one with
    | record s nacks =>
        have rested : ∀ m ∈ known, m = s.toMeta →
            s.completedAt + recentlyCompletedTtl ≤ clock := by
          intro m isKnown same
          by_contra within
          exact resting.settled s nacks before (Int.lt_of_not_ge within) (same ▸ isKnown)
        cases two with
        | started next =>
            intro same
            obtain ⟨at_, isKnown⟩ := allowed
            rw [at_]
            exact rested _ isKnown same
        | saved next now =>
            intro same
            obtain ⟨at_, isKnown⟩ := allowed
            rw [at_]
            exact rested _ isKnown same
        | _ => exact trivial
    | _ => exact trivial

/-- A success is entered into the map. -/
theorem record (resting : Resting trace recent known clock) {s : Session} (nacks : Nat)
    (done : s.completedAt = clock) (gone : s.toMeta ∉ known) :
    Resting (trace ++ [.record s nacks])
      (Function.update recent (completedMetaKey s.toMeta) (some (clock + recentlyCompletedTtl)))
      known clock := by
  have known_ : ∀ s' nacks', .record s' nacks' ∈ trace ++ [.record s nacks] →
      .record s' nacks' ∈ trace ∨ s' = s := by
    intro s' nacks' member
    rcases List.mem_append.mp member with before | new
    · exact .inl before
    · cases List.mem_singleton.mp new
      exact .inr rfl
  refine ⟨?_, ?_, ?_, ?_⟩
  · rw [List.pairwise_append]
    refine ⟨resting.rests, List.pairwise_singleton _ _, ?_⟩
    intro one _ two new
    rw [List.mem_singleton.mp new]
    cases one <;> exact trivial
  · intro s' nacks' member
    rcases known_ s' nacks' member with before | rfl
    · exact resting.past s' nacks' before
    · exact Int.le_of_eq done
  · intro s' nacks' member within
    by_cases same : completedMetaKey s'.toMeta = completedMetaKey s.toMeta
    · rw [same, Function.update_self]
      refine ⟨_, rfl, ?_⟩
      rcases known_ s' nacks' member with before | rfl
      · exact Int.add_le_add_right (resting.past s' nacks' before) _
      · rw [done]
    · rw [Function.update_of_ne same]
      rcases known_ s' nacks' member with before | rfl
      · exact resting.barred s' nacks' before within
      · exact absurd rfl same
  · intro s' nacks' member within
    rcases known_ s' nacks' member with before | rfl
    · exact resting.settled s' nacks' before within
    · exact gone

/-- Entries that are thirty seconds old may go. -/
theorem expire (resting : Resting trace recent known clock) {left : String → Option Int}
    (keeps : ∀ key expiresAt, recent key = some expiresAt → clock < expiresAt →
      left key = some expiresAt) : Resting trace left known clock where
  rests := resting.rests
  past := resting.past
  barred := fun s nacks member within => by
    obtain ⟨expiresAt, entry, later⟩ := resting.barred s nacks member within
    exact ⟨expiresAt, keeps _ _ entry (Int.lt_of_lt_of_le within later), later⟩
  settled := resting.settled

end Resting

namespace Engine

variable {e after : Engine} {m : FileMeta} {s : Session} {now : Int}

/-- The rest of the successes in the variables of an engine. -/
def Rested (e : Engine) (now : Int) : Prop :=
  Resting e.trace e.recentlyCompletedMeta (e.sessions.map Session.toMeta) now

theorem allowed_of_quiet {note : EngineEvent} (quiet : Quiet note)
    (known : List FileMeta) (clock : Int) : note.Allowed known clock := by
  cases note <;> first | exact trivial | exact quiet.elim

theorem Rested.passive (rested : Rested e now) (passive : Passive e after) :
    Rested after now := by
  obtain ⟨notes, traceEq, quiet⟩ := passive.trace
  unfold Rested
  rw [passive.sameTransfers.metas, passive.recentlyCompletedMeta, traceEq]
  exact rested.emit fun note member =>
    allowed_of_quiet (quiet note member) _ _

/-- What the active session saves is a known transfer. -/
theorem Rested.processChunk (rested : Rested e now) {c : FileChunk} {finished success : Bool}
    (ran : e.processChunk c now = some (after, finished, success)) : Rested after now := by
  obtain ⟨s, r, next, sr, isNew, notes, processed⟩ := processChunk_cases ran
  rw [processed.afterEq]
  refine rested.emit fun note member => ?_
  obtain ⟨notStarted, notRecord, saved⟩ := processed.quiet note member
  cases note with
  | started s => exact (notStarted s rfl).elim
  | record s nacks => exact (notRecord s nacks rfl).elim
  | saved session at_ =>
      obtain ⟨rfl, rfl, _⟩ := saved session at_ rfl
      refine ⟨rfl, List.mem_map_of_mem ?_⟩
      rw [sessions_of_active processed.isActive]
      exact List.mem_cons_self
  | _ => exact trivial

/-- The next session may start because it is not the one that has succeeded. -/
theorem Rested.closeActive (rested : Rested e now) (bare : Bare e)
    (isActive : e.active = some s) (success : Bool) :
    Rested (e.closeActive s success now) now := by
  have known := sessions_of_active isActive
  have distinct := bare.distinct
  unfold Rested at rested ⊢
  rw [map_sessions_closeActive Session.toMeta (fun _ _ => rfl) e isActive]
  rw [known, List.map_cons] at rested distinct
  have gone : s.toMeta ∉ e.queue.map Session.toMeta := by
    intro inside
    obtain ⟨other, waits, same⟩ := List.mem_map.mp inside
    apply (List.nodup_cons.mp distinct).1
    have samePair : other.pair = s.pair := congrArg FileMeta.pair same
    exact List.mem_map.mpr ⟨other, waits, samePair⟩
  have waiting := rested.fewer fun m member => List.mem_cons_of_mem s.toMeta member
  obtain ⟨_, _, nacks, closed⟩ := closeActive_cases e isActive success now
  rw [closed.afterEq]
  dsimp only
  have moveOn : ∀ note ∈ ([.closed s.key success] : List EngineEvent) ++
      (e.queue.head?.toList.map fun next =>
        [EngineEvent.transferCmd next.nodeId "START" next.sessionId,
          .started { next with startedAt := now }]).flatten,
      note.Allowed (e.queue.map Session.toMeta) now := by
    intro note member
    rcases List.mem_append.mp member with here | here
    · rw [List.mem_singleton.mp here]
      exact trivial
    · cases waits : e.queue with
      | nil =>
          rw [waits] at here
          cases here
      | cons next rest =>
          rw [waits] at here
          rcases List.mem_cons.mp here with rfl | here
          · exact trivial
          · rw [List.mem_singleton.mp here]
            exact ⟨rfl, List.mem_cons_self⟩
  cases success with
  | false => exact waiting.emit moveOn
  | true =>
      rw [if_pos rfl, if_pos rfl]
      have announced : Resting (e.trace ++ ([.transferComplete s.sessionId] : List EngineEvent))
          e.recentlyCompletedMeta (e.queue.map Session.toMeta) now := by
        apply waiting.emit
        intro note member
        rw [List.mem_singleton.mp member]
        exact trivial
      have recorded := announced.record (s := { s with completedAt := now }) nacks rfl gone
      have moved := recorded.emit moveOn
      simp only [List.append_assoc, List.cons_append, List.nil_append] at moved ⊢
      exact moved

/-- `setupActive` and everything it calls keep the rest. -/
theorem restedRule (now : Int) (staged : List FileChunk) :
    SetupRule now staged (fun e => Bare e ∧ Rested e now)
      (fun e => Consistent e ∧ Rested e now) where
  pending := fun pending holds =>
    ⟨(consistentRule now staged).pending pending holds.1, holds.2⟩
  idle := fun holds isActive => ⟨(consistentRule now staged).idle holds.1 isActive, holds.2⟩
  reset := fun holds isActive => ⟨(consistentRule now staged).reset holds.1 isActive, holds.2⟩
  chunk := fun holds isActive inside own ran =>
    ⟨(consistentRule now staged).chunk holds.1 isActive inside own ran,
      holds.2.processChunk ran⟩
  close := fun {e s c after success} holds isActive inside own ran => by
    have written := holds.1.processChunk (fun s' same => by
      cases isActive.symm.trans same
      exact own) ran
    obtain ⟨same, _⟩ := processChunk_spec ran
    have stillActive := same.active.trans isActive
    exact ⟨written.toBare.closeActive stillActive _ _,
      (holds.2.processChunk ran).closeActive written.toBare stillActive _⟩

theorem Rested.completeTransfer (rested : Rested e now) (consistent : Consistent e)
    {success : Bool} (ran : e.completeTransfer success now = some after) :
    Rested after now := by
  cases isActive : e.active with
  | none =>
      unfold Engine.completeTransfer completeTransferWith at ran
      rw [isActive] at ran
      cases ran
      exact rested
  | some s =>
      exact ((restedRule now e.pendingChunks.view).completeTransfer isActive
        ⟨consistent.toBare.closeActive isActive success now,
          rested.closeActive consistent.toBare isActive success⟩
        (fun c member => member) ran).2

/-! ## The meta message that reopens a session

`RunEngine` looks the message up in the map of successes first.  If it then aborts a stale
session, the staged chunks of the sessions that waited are replayed, and a transfer that
succeeds in there is enqueued by its own message a moment later. -/

/-- Staged chunks of the transfer that, written in some order, end in the complete file
`next` with a new chunk. -/
def FileMeta.Restores (m : FileMeta) (staged : List FileChunk) (next : FileReassembler) : Prop :=
  ∃ (earlier : List FileChunk) (last : FileChunk) (r : FileReassembler),
    (∀ c ∈ earlier, c ∈ staged ∧ c.key = m.key) ∧ last ∈ staged ∧ last.key = m.key ∧
    m.reassembler.writeChunks (earlier.map fun c => (c.seqNum, c.data)) = some r ∧
    r.writeChunk last.seqNum last.data = some (true, next) ∧ next.isComplete = true

/-- The message supersedes a stale session, its own transfer waits, and the staged chunks
complete all that waits before it and, with the right checksum, the transfer itself. -/
def Reopens (e : Engine) (m : FileMeta) (now : Int) : Prop :=
  e.Supersedes m now ∧ ∃ before behind, e.queue.map Session.toMeta = before ++ m :: behind ∧
    (∀ p ∈ before, ∃ next, FileMeta.Restores p e.pendingChunks.view next) ∧
    ∃ next, FileMeta.Restores m e.pendingChunks.view next ∧ next.verifyCrc = true

/-- While the queue is worked off: what has been closed is complete in the staging buffer,
and no success of `m` is new. -/
structure WorkedOff (waiting : List FileMeta) (staged : List FileChunk) (m : FileMeta)
    (trace : List EngineEvent) (e : Engine) : Prop where
  closed : ∃ closed, waiting = closed ++ e.sessions.map Session.toMeta ∧
    ∀ p ∈ closed, ∃ next, FileMeta.Restores p staged next
  records : ∀ s nacks, .record s nacks ∈ e.trace → s.toMeta = m → .record s nacks ∈ trace

/-- What the active session's reassembler holds has come out of the staging buffer. -/
def Replayed (staged : List FileChunk) (e : Engine) : Prop :=
  ∀ s r, e.active = some s → e.reassembler = some r → ∃ earlier : List FileChunk,
    (∀ c ∈ earlier, c ∈ staged ∧ c.key = s.toMeta.key) ∧
    s.toMeta.reassembler.writeChunks (earlier.map fun c => (c.seqNum, c.data)) = some r

/-- The chunk after which the active session is closed completes it out of the buffer. -/
theorem Replayed.restores {staged : List FileChunk} (replayed : Replayed staged e)
    (isActive : e.active = some s) {c : FileChunk} (inside : c ∈ staged) (own : c.key = s.key)
    {success : Bool} (ran : e.processChunk c now = some (after, true, success)) :
    ∃ next, FileMeta.Restores s.toMeta staged next ∧ success = next.verifyCrc := by
  obtain ⟨s', r, next, sr, isNew, notes, processed⟩ := processChunk_cases ran
  obtain ⟨earlier, all, written⟩ := replayed s r isActive processed.hasReassembler
  have finished := processed.finishedEq
  have new : isNew = true ∧ next.isComplete = true := by
    rwa [eq_comm, Bool.and_eq_true] at finished
  refine ⟨next, ⟨earlier, c, r, all, inside, own, written, ?_, new.2⟩, ?_⟩
  · rw [← new.1]
    exact processed.wrote
  · rw [processed.successEq, new.1, new.2]
    rfl

theorem workedOffRule (now : Int) {waiting : List FileMeta} {staged : List FileChunk}
    {m : FileMeta} {trace : List EngineEvent}
    (never : ∀ before behind, waiting = before ++ m :: behind →
      (∀ p ∈ before, ∃ next, FileMeta.Restores p staged next) →
      ∀ next, FileMeta.Restores m staged next → next.verifyCrc ≠ true) :
    SetupRule now staged (WorkedOff waiting staged m trace)
      (fun e => WorkedOff waiting staged m trace e ∧ Replayed staged e) where
  pending := fun _ holds => ⟨⟨holds.1.closed, holds.1.records⟩, holds.2⟩
  idle := fun holds isNone => ⟨⟨holds.closed, holds.records⟩, fun s r isSome => by
    cases isNone.symm.trans isSome⟩
  reset := fun {e s} holds isActive => ⟨⟨holds.closed, holds.records⟩, fun s' r isSome hasNew => by
    cases isActive.symm.trans isSome
    cases hasNew
    exact ⟨[], fun _ none => absurd none List.not_mem_nil, rfl⟩⟩
  chunk := fun {e s c after success} holds isActive inside own ran => by
    obtain ⟨worked, replayed⟩ := holds
    obtain ⟨s', r, next, sr, isNew, notes, processed⟩ := processChunk_cases ran
    cases isActive.symm.trans processed.isActive
    obtain ⟨earlier, all, written⟩ := replayed s r isActive processed.hasReassembler
    rw [processed.afterEq]
    refine ⟨⟨worked.closed, ?_⟩, ?_⟩
    · intro other nacks member same
      rcases List.mem_append.mp member with old | new
      · exact worked.records other nacks old same
      · exact absurd rfl ((processed.quiet _ new).2.1 other nacks)
    · intro s' r' isSome hasNext
      cases isActive.symm.trans isSome
      cases hasNext
      refine ⟨earlier ++ [c], ?_, ?_⟩
      · intro other member
        rcases List.mem_append.mp member with old | new
        · exact all other old
        · rw [List.mem_singleton.mp new]
          exact ⟨inside, own⟩
      · rw [List.map_append]
        exact FileReassembler.writeChunks_concat written processed.wrote
  close := fun {e s c after success} holds isActive inside own ran => by
    obtain ⟨worked, replayed⟩ := holds
    obtain ⟨next, restores, successEq⟩ := replayed.restores isActive inside own ran
    obtain ⟨s', r, written, sr, isNew, notes, processed⟩ := processChunk_cases ran
    obtain ⟨closed, split, complete⟩ := worked.closed
    have stillActive : after.active = some s := by
      rw [processed.afterEq]
      exact isActive
    have sameQueue : after.queue = e.queue := by rw [processed.afterEq]
    have inOrder : waiting = closed ++ s.toMeta :: e.queue.map Session.toMeta := by
      rw [split, sessions_of_active isActive]
      rfl
    refine ⟨⟨closed ++ [s.toMeta], ?_, ?_⟩, ?_⟩
    · rw [map_sessions_closeActive Session.toMeta (fun _ _ => rfl) after stillActive, sameQueue,
        inOrder, List.append_assoc]
      rfl
    · intro p member
      rcases List.mem_append.mp member with old | new
      · exact complete p old
      · rw [List.mem_singleton.mp new]
        exact ⟨next, restores⟩
    · obtain ⟨_, _, nacks, moved⟩ := closeActive_cases after stillActive success now
      rw [moved.afterEq, processed.afterEq]
      intro other nacks' member same
      rcases List.mem_append.mp member with old | new
      · rcases List.mem_append.mp old with old | new
        · exact worked.records other nacks' old same
        · exact absurd rfl ((processed.quiet _ new).2.1 other nacks')
      rcases List.mem_append.mp new with new | started
      · rcases List.mem_append.mp new with recorded | isClosed
        · -- The session that has just succeeded is not the one of the message.
          split at recorded
          · rename_i succeeds
            rcases List.mem_cons.mp recorded with other_ | here
            · cases other_
            · cases List.mem_singleton.mp here
              have isMeta : s.toMeta = m := same
              rw [isMeta] at inOrder restores
              exact absurd (successEq.symm.trans succeeds)
                (never closed _ inOrder complete next restores)
          · cases recorded
        · cases List.mem_singleton.mp isClosed
      · obtain ⟨events, inside, member⟩ := List.mem_flatten.mp started
        obtain ⟨queued, _, rfl⟩ := List.mem_map.mp inside
        rcases List.mem_cons.mp member with other_ | here
        · cases other_
        · cases List.mem_singleton.mp here

/-- Aborting the stale session does not make the message's own transfer succeed, unless the
message reopens it. -/
theorem no_success_of_superseding (calm : ¬ Reopens e m now) (stale : Supersedes e m now)
    (aborted : e.completeTransfer false now = some after) :
    ∀ s nacks, .record s nacks ∈ after.trace → s.toMeta = m → .record s nacks ∈ e.trace := by
  obtain ⟨s, isActive, _⟩ := id stale
  have never : ∀ before behind, e.queue.map Session.toMeta = before ++ m :: behind →
      (∀ p ∈ before, ∃ next, FileMeta.Restores p e.pendingChunks.view next) →
      ∀ next, FileMeta.Restores m e.pendingChunks.view next → next.verifyCrc ≠ true := by
    intro before behind inOrder complete next restores intact
    exact calm ⟨stale, before, behind, inOrder, complete, next, restores, intact⟩
  have opened : WorkedOff (e.queue.map Session.toMeta) e.pendingChunks.view m e.trace
      (e.closeActive s false now) := by
    refine ⟨⟨[], ?_, fun p none => absurd none List.not_mem_nil⟩, ?_⟩
    · rw [map_sessions_closeActive Session.toMeta (fun _ _ => rfl) e isActive]
      rfl
    · obtain ⟨_, _, nacks, moved⟩ := closeActive_cases e isActive false now
      rw [moved.afterEq]
      intro other nacks' member _
      rcases List.mem_append.mp member with old | new
      · exact old
      rcases List.mem_append.mp new with isClosed | started
      · cases List.mem_singleton.mp isClosed
      · obtain ⟨events, inside, member⟩ := List.mem_flatten.mp started
        obtain ⟨queued, _, rfl⟩ := List.mem_map.mp inside
        rcases List.mem_cons.mp member with other_ | here
        · cases other_
        · cases List.mem_singleton.mp here
  exact ((workedOffRule now never).completeTransfer isActive opened
    (fun c member => member) aborted).1.records

/-- A message that the map of successes lets pass has no success in the last thirty
seconds. -/
theorem Rested.passes (rested : Rested e now)
    (passes : ∀ expiresAt, e.recentlyCompletedMeta (completedMetaKey m) = some expiresAt →
      expiresAt ≤ now) :
    ∀ s nacks, .record s nacks ∈ e.trace → now < s.completedAt + recentlyCompletedTtl →
      s.toMeta ≠ m := by
  intro s nacks member within same
  obtain ⟨expiresAt, entry, later⟩ := rested.barred s nacks member within
  rw [same] at entry
  have expired := passes expiresAt entry
  omega

theorem Rested.forget (rested : Rested e now)
    (passes : ∀ expiresAt, e.recentlyCompletedMeta (completedMetaKey m) = some expiresAt →
      expiresAt ≤ now) : Rested (e.forget m) now := by
  apply Resting.expire rested
  intro key expiresAt entry later
  have other : key ≠ completedMetaKey m := by
    intro same
    rw [same] at entry
    have expired := passes expiresAt entry
    omega
  exact (Function.update_of_ne other _ _).trans entry

theorem Rested.onMeta (rested : Rested e now) (consistent : Consistent e)
    (calm : ¬ Reopens e m now) (ran : e.onMeta m now = some after) : Rested after now := by
  rcases onMeta_cases ran with ⟨rfl, _⟩ | ⟨passes, outcome⟩
  · exact rested
  have forgotten := rested.forget passes
  have clear := rested.passes passes
  rcases outcome with ⟨stamps, rfl⟩ | ⟨ready, isReady, ran⟩
  · exact forgotten
  have forgottenConsistent : Consistent (e.forget m) :=
    ⟨⟨consistent.distinct, consistent.idle⟩, consistent.srNone, consistent.reassemblerNone,
      consistent.created⟩
  have before : Consistent ready ∧ Rested ready now ∧
      ∀ s nacks, .record s nacks ∈ ready.trace → now < s.completedAt + recentlyCompletedTtl →
        s.toMeta ≠ m := by
    cases isReady with
    | asItWas stamps =>
        exact ⟨⟨⟨consistent.distinct, consistent.idle⟩, consistent.srNone,
          consistent.reassemblerNone, consistent.created⟩, forgotten, clear⟩
    | superseding stale aborted =>
        refine ⟨forgottenConsistent.completeTransfer aborted,
          forgotten.completeTransfer forgottenConsistent aborted, ?_⟩
        intro s nacks member within same
        have calm' : ¬ Reopens (e.forget m) m now := calm
        exact clear s nacks (no_success_of_superseding calm' stale aborted s nacks member same)
          within same
  obtain ⟨readyConsistent, readyRested, readyClear⟩ := before
  obtain ⟨stamps, queued, queuedEq, outcome⟩ := enqueueAndSetUp_cases ran
  have enqueued : Rested queued now := by
    rcases enqueue_cases ready m now readyConsistent.toBare with
      ⟨active, queue, merged, same⟩ | ⟨_, _, appended⟩ | ⟨isNone, started⟩
    · have metas := same.metas
      rw [merged] at queuedEq metas
      rw [queuedEq]
      unfold Rested
      change Resting ready.trace ready.recentlyCompletedMeta _ now
      exact metas ▸ readyRested
    · rw [appended] at queuedEq
      rw [queuedEq]
      unfold Rested sessions
      dsimp only
      rw [← List.append_assoc, List.map_append]
      exact readyRested.learn readyClear
    · rw [started] at queuedEq
      rw [queuedEq]
      have nothing : Resting ready.trace ready.recentlyCompletedMeta [] now :=
        readyRested.fewer fun _ none => absurd none List.not_mem_nil
      have known := nothing.learn readyClear
      apply known.emit
      intro note member
      rcases List.mem_cons.mp member with rfl | here
      · exact trivial
      · rw [List.mem_singleton.mp here]
        exact ⟨rfl, List.mem_singleton_self _⟩
  rcases outcome with ⟨isSome, isNone, setUp⟩ | ⟨_, rfl⟩
  · have bare : Bare queued := by
      rw [queuedEq]
      exact ⟨(readyConsistent.toBare.enqueue m now).distinct,
        (readyConsistent.toBare.enqueue m now).idle⟩
    exact ((restedRule now queued.pendingChunks.view).setupActive ⟨bare, enqueued⟩
      (fun c member => member) setUp).2
  · exact enqueued

theorem Rested.onChunk (rested : Rested e now) (consistent : Consistent e) {c : FileChunk}
    (ran : e.onChunk c now = some after) : Rested after now := by
  rcases onChunk_cases ran with ⟨sessions, pending, rfl⟩ |
    ⟨s, sessions, next, finished, success, isActive, own, processed, ran⟩
  · exact rested
  have cleared : Consistent { e with recentlyCompletedSession := sessions } :=
    ⟨⟨consistent.distinct, consistent.idle⟩, consistent.srNone, consistent.reassemblerNone,
      consistent.created⟩
  have written : Consistent next := cleared.processChunk (fun s' same => by
    cases isActive.symm.trans same
    exact own) processed
  have handed : Rested { e with recentlyCompletedSession := sessions } now := rested
  split at ran
  · exact (handed.processChunk processed).completeTransfer written ran
  · cases ran
    exact handed.processChunk processed

theorem Rested.onTick (rested : Rested e now) (consistent : Consistent e)
    (ran : e.onTick now = some after) : Rested after now := by
  have expired : Rested (e.expire now) now := by
    apply Resting.expire rested
    intro key expiresAt entry later
    unfold expire
    dsimp only
    rw [entry, Option.filter_some, if_pos (decide_eq_true later)]
  have expiredConsistent : Consistent (e.expire now) :=
    ⟨⟨consistent.distinct, consistent.idle⟩, consistent.srNone, consistent.reassemblerNone,
      consistent.created⟩
  obtain ⟨quiet, next, nacked, timed, stalled⟩ := onTick_cases ran
  apply Rested.passive _ stalled
  rcases timed with rfl | timedOut
  · exact expired.passive nacked
  · exact (expired.passive nacked).completeTransfer (nacked.consistent expiredConsistent)
      timedOut

/-! ## Runs -/

/-- No meta message of the run reopens a session. -/
def NeverReopens (e : Engine) (events : List (Event × Int)) : Prop :=
  ∀ before m now behind reached, events = before ++ (Event.file m, now) :: behind →
    e.run before = some reached → ¬ Reopens reached m now

theorem Rested.handle (rested : Rested e now) (consistent : Consistent e) {event : Event}
    (calm : ∀ m, event = .file m → ¬ Reopens e m now) (ran : e.handle event now = some after) :
    Rested after now := by
  cases event with
  | file m => exact rested.onMeta consistent (calm m rfl) ran
  | chunk c => exact rested.onChunk consistent ran
  | tick => exact rested.onTick consistent ran

theorem NeverReopens.step {event : Event} {rest : List (Event × Int)} {next : Engine}
    (calm : NeverReopens e ((event, now) :: rest)) (ran : e.handle event now = some next) :
    (∀ m, event = .file m → ¬ Reopens e m now) ∧ NeverReopens next rest := by
  constructor
  · intro m isFile
    exact calm [] m now rest e (by rw [isFile]; rfl) rfl
  · intro before m at_ behind reached split reaches
    apply calm ((event, now) :: before) m at_ behind reached (by rw [split]; rfl)
    exact Option.bind_eq_some_iff.mpr ⟨next, ran, reaches⟩

theorem Consistent.run (consistent : Consistent e) {events : List (Event × Int)}
    (ran : e.run events = some after) : Consistent after := by
  induction events generalizing e with
  | nil =>
      cases ran
      exact consistent
  | cons event rest inductionHypothesis =>
      obtain ⟨next, handled, ran⟩ := Option.bind_eq_some_iff.mp ran
      exact inductionHypothesis (consistent.handle handled) ran

theorem Rested.run {clock : Int} (rested : Rested e clock) (consistent : Consistent e)
    {events : List (Event × Int)} (ordered : (clock :: events.map Prod.snd).Pairwise (· ≤ ·))
    (calm : NeverReopens e events) (ran : e.run events = some after) :
    ∃ clock, Rested after clock := by
  induction events generalizing e clock with
  | nil =>
      cases ran
      exact ⟨clock, rested⟩
  | cons event rest inductionHypothesis =>
      obtain ⟨event, now⟩ := event
      obtain ⟨next, handled, ran⟩ := Option.bind_eq_some_iff.mp ran
      obtain ⟨here, later⟩ := calm.step handled
      rw [List.map_cons, List.pairwise_cons] at ordered
      have reached : Rested e now := Resting.later rested (ordered.1 now List.mem_cons_self)
      exact inductionHypothesis (reached.handle consistent here handled)
        (consistent.handle handled) ordered.2 later ran

/-- Over every run of the engine, on a clock that does not go back: the keys of all transfers
are distinct, the queue waits only behind an active session, the receiver is there exactly
with it and was created for it; and if no meta message of the run reopens a session, then
nothing with the meta of a success becomes active or is saved within thirty seconds. -/
theorem run_consistent (srWindow srTimeout : Nat) (events : List (Event × Int))
    (ordered : (events.map Prod.snd).Pairwise (· ≤ ·)) (after : Engine)
    (ran : (newEngine srWindow srTimeout).run events = some after) :
    Consistent after ∧
      (NeverReopens (newEngine srWindow srTimeout) events →
        after.trace.Pairwise EngineEvent.Rest) := by
  have initial := consistent_newEngine srWindow srTimeout
  refine ⟨initial.run ran, fun calm => ?_⟩
  cases events with
  | nil =>
      cases ran
      exact List.Pairwise.nil
  | cons event rest =>
      have fromFirst : (event.2 :: (event :: rest).map Prod.snd).Pairwise (· ≤ ·) := by
        rw [List.map_cons, List.pairwise_cons] at ordered ⊢
        refine ⟨?_, List.pairwise_cons.mpr ordered⟩
        intro later member
        rcases List.mem_cons.mp member with rfl | behind
        · exact Int.le_refl _
        · exact ordered.1 later behind
      have start : Rested (newEngine srWindow srTimeout) event.2 := Resting.new
      obtain ⟨clock, rested⟩ := start.run initial fromFirst calm ran
      exact rested.rests

/-- Without a staged chunk of its own a message reopens nothing. -/
theorem not_reopens_of_unstaged (unstaged : ∀ c ∈ e.pendingChunks.view, c.key ≠ m.key) :
    ¬ Reopens e m now := by
  rintro ⟨_, _, _, _, _, next, ⟨_, last, _, _, inside, own, _⟩, _⟩
  exact unstaged last inside own

/-- A chunk waits for its session, another session goes stale, and a third one supersedes it
from the queue. -/
def supersedingRun : List (Event × Int) :=
  [(.chunk (onlyChunk 2), 1000), (.file (oneByteSession 1).toMeta, 2000),
    (.file (oneByteSession 3).toMeta, 3000), (.file (oneByteSession 3).toMeta, 13000)]

theorem run_consistent_superseding : ∃ after,
    (newEngine 64 5).run supersedingRun = some after ∧ Consistent after ∧
      after.trace.Pairwise EngineEvent.Rest := by
  have runs : ((newEngine 64 5).run supersedingRun).isSome = true := by decide +kernel
  obtain ⟨after, ran⟩ := Option.isSome_iff_exists.mp runs
  obtain ⟨consistent, rests⟩ := run_consistent 64 5 supersedingRun (by decide) after ran
  refine ⟨after, ran, consistent, rests ?_⟩
  -- Only the chunk of the session that never starts is staged.
  have staged : ∀ k < 4, ((newEngine 64 5).run (supersedingRun.take k)).all
      fun e => e.pendingChunks.view.all fun c => c == onlyChunk 2 := by
    decide +kernel
  have others : ∀ entry ∈ supersedingRun, ∀ m, entry.1 = .file m →
      (onlyChunk 2).key ≠ m.key := by
    intro entry member m isFile
    unfold supersedingRun at member
    simp only [List.mem_cons, List.not_mem_nil, or_false] at member
    rcases member with rfl | rfl | rfl | rfl <;> cases isFile <;> decide
  intro before m now behind reached split reaches
  apply not_reopens_of_unstaged
  intro c inside
  have shorter : before.length < 4 := by
    have lengths := congrArg List.length split
    rw [List.length_append, List.length_cons] at lengths
    change 4 = _ at lengths
    omega
  have here := staged before.length shorter
  rw [split, List.take_left, reaches] at here
  have isOnly : c = onlyChunk 2 := by
    simpa using List.all_eq_true.mp here c inside
  rw [isOnly]
  apply others (.file m, now) _ m rfl
  rw [split]
  exact List.mem_append_right _ List.mem_cons_self

/-- The only chunk of session 2 is staged twice before session 1 starts.  Ten seconds later
the second meta message of session 2 supersedes session 1: session 2 starts, succeeds, starts
again and is saved again, all at once. -/
theorem superseding_meta_reopens : ∃ after,
    (newEngine 64 5).run
      [(.chunk (onlyChunk 2), 1000), (.chunk (onlyChunk 2), 1001),
        (.file (oneByteSession 1).toMeta, 2000), (.file (oneByteSession 2).toMeta, 3000),
        (.file (oneByteSession 2).toMeta, 13000)] = some after ∧
    [EngineEvent.record { oneByteSession 2 with startedAt := 13000, completedAt := 13000 } 0,
      .started { oneByteSession 2 with startedAt := 13000 },
      .saved { oneByteSession 2 with startedAt := 13000 } 13000].Sublist after.trace ∧
    ¬ after.trace.Pairwise EngineEvent.Rest := by
  have observed : ((newEngine 64 5).run
      [(.chunk (onlyChunk 2), 1000), (.chunk (onlyChunk 2), 1001),
        (.file (oneByteSession 1).toMeta, 2000), (.file (oneByteSession 2).toMeta, 3000),
        (.file (oneByteSession 2).toMeta, 13000)]).any (fun after => decide
      ([EngineEvent.record { oneByteSession 2 with startedAt := 13000, completedAt := 13000 } 0,
        .started { oneByteSession 2 with startedAt := 13000 },
        .saved { oneByteSession 2 with startedAt := 13000 } 13000].Sublist after.trace)) =
          true := by
    decide +kernel
  obtain ⟨after, ran, inTrace⟩ := (Option.any_eq_true ..).mp observed
  have sublist := of_decide_eq_true inTrace
  refine ⟨after, ran, sublist, fun rests => ?_⟩
  have tooSoon := (List.pairwise_cons.mp (rests.sublist sublist)).1 _ List.mem_cons_self rfl
  exact absurd tooSoon (by decide)

end Engine

end ForestLink.Cloud
