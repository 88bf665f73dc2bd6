/-
Module: ForestLink.Proofs.StallPacing
Purpose: The cooldown between stall NACKs is right exactly while its shift stays inside the
  word, and then the stall NACKs of a session are four seconds apart.
Trusted boundary: none
Main exports: stallCooldown_eq_iff, Engine.Calm, Engine.Publishes, handle_paces, oneSession,
  stallTimes, CooldownRight, CounterFits, stall_nacks_paced
-/
import ForestLink.Proofs.SuccessRest

namespace ForestLink.Cloud

open ForestLink.Lib

/-- A stall NACK. -/
def EngineEvent.isStallNack : EngineEvent → Bool
  | .transferNack _ _ => true
  | _ => false

namespace Engine

variable {e after : Engine} {m : FileMeta} {now : Int}

/-! ## The cooldown -/

/-- The cooldown as it is meant, over the integers. -/
def backoffCooldown (tailPhase : Bool) (retries : Nat) : Int :=
  if tailPhase then 4000 else min (4000 * 2 ^ retries) 16000

theorem backoffCooldown_bounds (tailPhase : Bool) (retries : Nat) :
    4000 ≤ backoffCooldown tailPhase retries ∧ backoffCooldown tailPhase retries ≤ 16000 := by
  have positive : (0 : Int) < 2 ^ retries := Int.pow_pos (by decide)
  unfold backoffCooldown
  split <;> omega

/-- The shift of a 64-bit integer is a power of two up to 62 places. -/
theorem stallCooldown_eq_iff (tailPhase : Bool) (retries : Nat) :
    stallCooldown tailPhase retries = backoffCooldown tailPhase retries ↔
      tailPhase = true ∨ retries ≤ 62 := by
  cases tailPhase with
  | true => exact iff_of_true rfl (.inl rfl)
  | false =>
      have bounds := backoffCooldown_bounds false retries
      unfold stallCooldown
      rw [if_neg Bool.false_ne_true]
      by_cases fits : retries < 63
      · have shifted : shiftedOne retries = 2 ^ retries := if_pos fits
        rw [shifted]
        exact iff_of_true rfl (.inr (Nat.le_of_lt_succ fits))
      · have lost : shiftedOne retries ≤ 0 := by
          unfold shiftedOne
          rw [if_neg fits]
          split <;> omega
        refine iff_of_false ?_ ?_
        · intro same
          rw [← same] at bounds
          omega
        · simp only [Bool.false_eq_true, false_or]
          omega

/-! ## What a turn does to the pacing -/

/-- The stall NACKs published so far. -/
def stallNacks (e : Engine) : Nat := e.trace.countP EngineEvent.isStallNack

theorem stallNacks_append {notes : List EngineEvent} (trace : after.trace = e.trace ++ notes)
    (none : ∀ note ∈ notes, note.isStallNack = false) : after.stallNacks = e.stallNacks := by
  have nothing : notes.countP EngineEvent.isStallNack = 0 :=
    List.countP_eq_zero.mpr fun note member => Bool.not_eq_true _ ▸ none note member
  unfold stallNacks
  rw [trace, List.countP_append, nothing, Nat.add_zero]

/-- The pacing is as it was. -/
structure Calm (before after : Engine) : Prop where
  active : before.active ≠ none → after.active ≠ none
  lastStallNackTime : after.lastStallNackTime = before.lastStallNackTime
  stallNackRetries : after.stallNackRetries = before.stallNackRetries
  stallNacks : after.stallNacks = before.stallNacks

theorem Calm.refl (e : Engine) : Calm e e := ⟨id, rfl, rfl, rfl⟩

theorem Calm.trans {first second third : Engine} (one : Calm first second)
    (two : Calm second third) : Calm first third where
  active := fun some => two.active (one.active some)
  lastStallNackTime := two.lastStallNackTime.trans one.lastStallNackTime
  stallNackRetries := two.stallNackRetries.trans one.stallNackRetries
  stallNacks := two.stallNacks.trans one.stallNacks

/-- One stall NACK is published, and the cooldown has passed since the last one. -/
structure Publishes (before after : Engine) (now : Int) : Prop where
  active : before.active ≠ none → after.active ≠ none
  cooled : ∃ r, before.reassembler = some r ∧
    stallCooldown r.inTailPhase before.stallNackRetries ≤ now - before.lastStallNackTime
  lastStallNackTime : after.lastStallNackTime = now
  stallNacks : after.stallNacks = before.stallNacks + 1

theorem timeoutTick_calm (e : Engine) (now : Int) :
    Calm e (e.timeoutTick now) ∧ (e.timeoutTick now).reassembler = e.reassembler := by
  have same : Calm e e := Calm.refl e
  unfold timeoutTick
  split
  · exact ⟨same, rfl⟩
  · split
    · refine ⟨⟨id, rfl, rfl, stallNacks_append rfl ?_⟩, rfl⟩
      intro note member
      obtain ⟨seq, _, rfl⟩ := List.mem_map.mp member
      rfl
    · exact ⟨same, rfl⟩

theorem stallTick_cases (ran : e.stallTick now = some after) :
    Calm e after ∨ Publishes e after now := by
  have same : Calm e e := Calm.refl e
  unfold stallTick at ran
  split at ran
  · rename_i sr r hasSr hasReassembler
    dsimp only at ran
    split at ran
    · cases ran
      exact .inl same
    split at ran
    · rename_i ready
      obtain ⟨⟨sent, filtered⟩, built⟩ : ∃ result, result = sr.buildFilteredStallNacks 8 64
          (if r.inTailPhase then 4000 else 8000) now := ⟨_, rfl⟩
      rw [← built] at ran
      dsimp only at ran
      split at ran
      · cases ran
        exact .inl ⟨id, rfl, rfl, rfl⟩
      · obtain ⟨s, _, ran⟩ := Option.bind_eq_some_iff.mp ran
        cases ran
        refine .inr ⟨id, ⟨r, hasReassembler, ready.1⟩, rfl, ?_⟩
        unfold stallNacks emit
        rw [List.countP_append]
        rfl
    · cases ran
      exact .inl same
  · cases ran
    exact .inl same

/-! ## Turns that close no session -/

theorem closedKeys_prefix {notes : List EngineEvent} (trace : after.trace = e.trace ++ notes) :
    e.closedKeys <+: after.closedKeys := by
  unfold closedKeys
  rw [trace, List.filterMap_append]
  exact List.prefix_append _ _

theorem Passive.closed (passive : Passive e after) : e.closedKeys <+: after.closedKeys := by
  obtain ⟨notes, trace, _⟩ := passive.trace
  exact closedKeys_prefix trace

/-- A session that is completed or given up leaves its key behind. -/
theorem completeTransfer_closes {s : Session} (isActive : e.active = some s) {success : Bool}
    (ran : e.completeTransfer success now = some after) :
    e.closedKeys ++ [s.key] <+: after.closedKeys := by
  unfold completeTransfer completeTransferWith at ran
  rw [isActive] at ran
  have closed := (closeActive_spec e isActive success now).2.2.2.1
  rw [← closed]
  exact (setupActive_grows ran).closed

/-- A turn in which a session ends does not leave the closed keys as they were. -/
theorem closedKeys_ne {before next : Engine} (isActive : before.active ≠ none)
    (earlier : e.closedKeys <+: before.closedKeys) {success : Bool}
    (ran : before.completeTransfer success now = some next)
    (later : next.closedKeys <+: after.closedKeys) : after.closedKeys ≠ e.closedKeys := by
  obtain ⟨s, isSome⟩ := Option.ne_none_iff_exists'.mp isActive
  have longer := ((completeTransfer_closes isSome ran).trans later).length_le
  have start := earlier.length_le
  intro stays
  rw [stays, List.length_append, List.length_singleton] at longer
  omega

theorem enqueueAndSetUp_closed {ready : Engine} (bare : Bare ready)
    (ran : ready.enqueueAndSetUp m now = some after) :
    ready.closedKeys <+: after.closedKeys := by
  obtain ⟨stamps, queued, queuedEq, outcome⟩ := enqueueAndSetUp_cases ran
  have enqueued : ready.closedKeys <+: queued.closedKeys := by
    rw [queuedEq]
    rcases enqueue_cases ready m now bare with
      ⟨_, _, merged, _⟩ | ⟨_, _, appended⟩ | ⟨_, started⟩
    · rw [merged]
      exact List.prefix_refl _
    · rw [appended]
      exact List.prefix_refl _
    · rw [started]
      exact closedKeys_prefix rfl
  rcases outcome with ⟨_, _, setUp⟩ | ⟨_, rfl⟩
  · exact enqueued.trans (setupActive_grows setUp).closed
  · exact enqueued

/-- A meta message that closes no session leaves the pacing alone. -/
theorem onMeta_calm (consistent : Consistent e) (isActive : e.active ≠ none)
    (ran : e.onMeta m now = some after) (stays : after.closedKeys = e.closedKeys) :
    Calm e after := by
  rcases onMeta_cases ran with ⟨rfl, _⟩ | ⟨_, ⟨stamps, rfl⟩ | ⟨ready, isReady, ran⟩⟩
  · exact Calm.refl after
  · exact ⟨id, rfl, rfl, rfl⟩
  have before := consistent.ready isReady
  have closed := enqueueAndSetUp_closed before.toBare ran
  cases isReady with
  | superseding _ aborted =>
      have forgotten : (e.forget m).active ≠ none := isActive
      exact absurd stays (closedKeys_ne forgotten (List.prefix_refl _) aborted closed)
  | asItWas stamps =>
      obtain ⟨_, queued, queuedEq, outcome⟩ := enqueueAndSetUp_cases ran
      have hasSr : e.sr ≠ none := fun none => isActive (consistent.srNone.mp none)
      rcases enqueue_cases _ m now before.toBare with
        ⟨_, _, merged, same⟩ | ⟨_, _, appended⟩ | ⟨isNone, _⟩
      · rw [merged] at queuedEq same
        rcases outcome with ⟨_, noSr, _⟩ | ⟨_, rfl⟩
        · rw [queuedEq] at noSr
          exact absurd noSr hasSr
        · rw [queuedEq]
          exact ⟨fun some none => some (same.active_none.mp none), rfl, rfl, rfl⟩
      · rw [appended] at queuedEq
        rcases outcome with ⟨_, noSr, _⟩ | ⟨_, rfl⟩
        · rw [queuedEq] at noSr
          exact absurd noSr hasSr
        · rw [queuedEq]
          exact ⟨id, rfl, rfl, rfl⟩
      · exact absurd isNone isActive

theorem processChunk_calm {c : FileChunk} {finished success : Bool}
    (ran : e.processChunk c now = some (after, finished, success)) :
    Calm e after ∧ after.closedKeys = e.closedKeys := by
  obtain ⟨same, _⟩ := processChunk_spec ran
  unfold processChunk at ran
  obtain ⟨r, _, ran⟩ := Option.bind_eq_some_iff.mp ran
  obtain ⟨sr, _, ran⟩ := Option.bind_eq_some_iff.mp ran
  obtain ⟨s, _, ran⟩ := Option.bind_eq_some_iff.mp ran
  obtain ⟨⟨receiver, outcome⟩, _, ran⟩ := Option.bind_eq_some_iff.mp ran
  simp only [Option.pure_def, Option.some.injEq, Prod.mk.injEq] at ran
  obtain ⟨rfl, _⟩ := ran
  refine ⟨⟨id, rfl, rfl, stallNacks_append rfl ?_⟩, same.closed⟩
  intro note member
  rcases List.mem_cons.mp member with rfl | member
  · rfl
  rcases List.mem_append.mp member with acked | saved
  · obtain ⟨seq, _, rfl⟩ := List.mem_map.mp acked
    rfl
  · split at saved
    · rcases List.mem_cons.mp saved with rfl | saved
      · rfl
      · rw [List.mem_singleton.mp saved]
        rfl
    · cases saved

/-- A chunk that does not complete the session leaves the pacing alone. -/
theorem onChunk_calm {c : FileChunk} (ran : e.onChunk c now = some after)
    (stays : after.closedKeys = e.closedKeys) : Calm e after := by
  rcases onChunk_cases ran with ⟨sessions, pending, rfl⟩ |
    ⟨s, sessions, next, finished, success, isActive, _, processed, ran⟩
  · exact ⟨id, rfl, rfl, rfl⟩
  obtain ⟨calm, closed⟩ := processChunk_calm processed
  have stillActive : next.active ≠ none := by
    apply calm.active
    rw [isActive]
    exact Option.some_ne_none s
  split at ran
  · have earlier : e.closedKeys <+: next.closedKeys := closed ▸ List.prefix_refl _
    exact absurd stays (closedKeys_ne stillActive earlier ran (List.prefix_refl _))
  · cases ran
    exact ⟨calm.active, calm.lastStallNackTime, calm.stallNackRetries, calm.stallNacks⟩

/-- A tick that gives no session up publishes at most one stall NACK. -/
theorem onTick_paces (isActive : e.active ≠ none) (ran : e.onTick now = some after)
    (stays : after.closedKeys = e.closedKeys) : Calm e after ∨ Publishes e after now := by
  obtain ⟨calm, reassembler⟩ := timeoutTick_calm (e.expire now) now
  have waited := (timeoutTick_passive (e.expire now) now).closed
  have quietActive := calm.active isActive
  rw [onTick_eq] at ran
  obtain ⟨next, timed, ran⟩ := Option.bind_eq_some_iff.mp ran
  obtain ⟨stalled, nacked, dropped⟩ := Option.bind_eq_some_iff.mp ran
  have nackedPassive := stallTick_passive nacked
  have later := nackedPassive.closed.trans (dropOrphans_passive dropped).closed
  split at timed
  · exact absurd stays (closedKeys_ne quietActive waited timed later)
  · cases timed
    have stalledActive : stalled.active ≠ none := by
      rw [nackedPassive.active]
      exact quietActive
    have kept : after = stalled := by
      unfold dropOrphans at dropped
      rw [if_neg fun idle => stalledActive (Option.isNone_iff_eq_none.mp idle.1)] at dropped
      exact (Option.some.inj dropped).symm
    rw [kept]
    rcases stallTick_cases nacked with stayed | published
    · have whole := calm.trans stayed
      exact .inl ⟨whole.active, whole.lastStallNackTime, whole.stallNackRetries,
        whole.stallNacks⟩
    · obtain ⟨r, hasReassembler, cooled⟩ := published.cooled
      refine .inr ⟨fun _ => stalledActive, ⟨r, reassembler.symm.trans hasReassembler, ?_⟩,
        published.lastStallNackTime, ?_⟩
      · rw [calm.stallNackRetries, calm.lastStallNackTime] at cooled
        exact cooled
      · rw [published.stallNacks, calm.stallNacks]
        rfl

/-- One turn of an active session: the pacing is as it was, or one stall NACK is published. -/
theorem handle_paces (consistent : Consistent e) (isActive : e.active ≠ none) {event : Event}
    (ran : e.handle event now = some after) (stays : after.closedKeys = e.closedKeys) :
    Calm e after ∨ Publishes e after now := by
  cases event with
  | file m => exact .inl (onMeta_calm consistent isActive ran stays)
  | chunk c => exact .inl (onChunk_calm ran stays)
  | tick => exact onTick_paces isActive ran stays

/-! ## The run of one session -/

/-- The active session is the same all along: no turn closes one. -/
def oneSession (e : Engine) : List (Event × Int) → Bool
  | [] => true
  | (event, now) :: rest => (e.handle event now).all fun after =>
      after.closedKeys == e.closedKeys && after.oneSession rest

/-- In front of every turn, and behind the last one. -/
def Throughout (P : Engine → Prop) (e : Engine) : List (Event × Int) → Prop
  | [] => P e
  | (event, now) :: rest =>
      P e ∧ ∀ after ∈ e.handle event now, after.Throughout P rest

instance decidableThroughout (P : Engine → Prop) [DecidablePred P] :
    (e : Engine) → (turns : List (Event × Int)) → Decidable (Throughout P e turns)
  | e, [] => inferInstanceAs (Decidable (P e))
  | e, (event, now) :: rest =>
      have : ∀ after : Engine, Decidable (after.Throughout P rest) :=
        fun after => decidableThroughout P after rest
      inferInstanceAs
        (Decidable (P e ∧ ∀ after ∈ e.handle event now, after.Throughout P rest))

/-- The times of the stall NACKs of a run, in order. -/
def stallTimes (e : Engine) : List (Event × Int) → List Int
  | [] => []
  | (event, now) :: rest =>
      match e.handle event now with
      | none => []
      | some after =>
          List.replicate (after.stallNacks - e.stallNacks) now ++ after.stallTimes rest

/-- The next stall NACK would wait for the cooldown that is meant, four to sixteen seconds. -/
def CooldownRight (e : Engine) : Prop :=
  ∀ r ∈ e.reassembler,
    stallCooldown r.inTailPhase e.stallNackRetries =
        backoffCooldown r.inTailPhase e.stallNackRetries ∧
      4000 ≤ stallCooldown r.inTailPhase e.stallNackRetries ∧
      stallCooldown r.inTailPhase e.stallNackRetries ≤ 16000

/-- Outside the tail phase the counter of stall NACKs still fits the shift. -/
def CounterFits (e : Engine) : Prop :=
  ∀ r ∈ e.reassembler, r.inTailPhase = true ∨ e.stallNackRetries ≤ 62

instance : DecidablePred CooldownRight := fun e =>
  inferInstanceAs (Decidable (∀ r ∈ e.reassembler, _))

instance : DecidablePred CounterFits := fun e =>
  inferInstanceAs (Decidable (∀ r ∈ e.reassembler, _))

theorem cooldownRight_iff (e : Engine) : CooldownRight e ↔ CounterFits e := by
  constructor
  · intro right r hasReassembler
    exact (stallCooldown_eq_iff _ _).mp (right r hasReassembler).1
  · intro fits r hasReassembler
    have same := (stallCooldown_eq_iff _ _).mpr (fits r hasReassembler)
    refine ⟨same, ?_⟩
    rw [same]
    exact backoffCooldown_bounds _ _

theorem throughout_congr {P Q : Engine → Prop} (same : ∀ e, P e ↔ Q e) (e : Engine)
    (turns : List (Event × Int)) : Throughout P e turns ↔ Throughout Q e turns := by
  induction turns generalizing e with
  | nil => exact same e
  | cons turn rest inductionHypothesis =>
      exact and_congr (same e)
        (forall_congr' fun after => imp_congr_right fun _ => inductionHypothesis after)

/-- While the counter fits, each stall NACK is four seconds behind the one before it. -/
theorem stallTimes_paced (consistent : Consistent e) (isActive : e.active ≠ none)
    {turns : List (Event × Int)} (one : e.oneSession turns = true)
    (fits : Throughout CounterFits e turns) :
    (∀ time ∈ e.stallTimes turns, e.lastStallNackTime + 4000 ≤ time) ∧
      (e.stallTimes turns).Pairwise fun earlier later => earlier + 4000 ≤ later := by
  induction turns generalizing e with
  | nil => exact ⟨fun _ none => absurd none List.not_mem_nil, List.Pairwise.nil⟩
  | cons turn rest inductionHypothesis =>
      obtain ⟨event, now⟩ := turn
      obtain ⟨here, behind⟩ := fits
      rw [oneSession] at one
      rw [stallTimes]
      cases ran : e.handle event now with
      | none => exact ⟨fun _ none => absurd none List.not_mem_nil, List.Pairwise.nil⟩
      | some after =>
          rw [ran, Option.all_some, Bool.and_eq_true, beq_iff_eq] at one
          obtain ⟨stays, oneBehind⟩ := one
          dsimp only
          rcases handle_paces consistent isActive ran stays with calm | published
          · have later := inductionHypothesis (consistent.handle ran) (calm.active isActive)
              oneBehind (behind after ran)
            rw [calm.lastStallNackTime] at later
            rw [calm.stallNacks, Nat.sub_self, List.replicate_zero, List.nil_append]
            exact later
          · obtain ⟨far, apart⟩ := inductionHypothesis (consistent.handle ran)
              (published.active isActive) oneBehind (behind after ran)
            rw [published.lastStallNackTime] at far
            rw [published.stallNacks, Nat.add_sub_cancel_left, List.replicate_one,
              List.singleton_append]
            obtain ⟨r, hasReassembler, cooled⟩ := published.cooled
            have long := ((cooldownRight_iff e).mpr here r hasReassembler).2.1
            refine ⟨?_, List.pairwise_cons.mpr ⟨far, apart⟩⟩
            intro time member
            rcases List.mem_cons.mp member with rfl | member
            · omega
            · have after := far time member
              omega

/-- For every run of one session from a state that the engine can reach: the cooldown is right
in front of every turn exactly when the counter of stall NACKs is at most 62 outside the tail
phase; and then the stall NACKs are at least four seconds apart. -/
theorem stall_nacks_paced (srWindow srTimeout : Nat) (earlier turns : List (Event × Int))
    (reached : (newEngine srWindow srTimeout).run earlier = some e) (isActive : e.active ≠ none)
    (one : e.oneSession turns = true) :
    (Throughout CooldownRight e turns ↔ Throughout CounterFits e turns) ∧
      (Throughout CounterFits e turns →
        (∀ time ∈ e.stallTimes turns, e.lastStallNackTime + 4000 ≤ time) ∧
          (e.stallTimes turns).Pairwise fun earlier later => earlier + 4000 ≤ later) := by
  have consistent : Consistent e := (consistent_newEngine srWindow srTimeout).run reached
  exact ⟨throughout_congr cooldownRight_iff e turns, stallTimes_paced consistent isActive one⟩

/-- A file of 64 fragments of one byte. -/
def stalledMeta : FileMeta where
  nodeId := "n"
  sessionId := "1"
  filename := "f"
  totalSize := 64
  chunkCount := 64
  crc32 := 0
  fragmentSize := 1

/-- The start of the session. -/
def stalledStart : List (Event × Int) := [(.file stalledMeta, 100000)]

/-- The second of three ticks is too early. -/
def threeTicks : List (Event × Int) := [(.tick, 116000), (.tick, 117000), (.tick, 124000)]

theorem stall_nacks_paced_stalled : ∃ e, (newEngine 64 5).run stalledStart = some e ∧
    e.stallTimes threeTicks = [116000, 124000] ∧ Throughout CooldownRight e threeTicks ∧
      (e.stallTimes threeTicks).Pairwise fun earlier later => earlier + 4000 ≤ later := by
  have computed : ((newEngine 64 5).run stalledStart).any (fun e =>
      e.active.isSome && e.oneSession threeTicks &&
        e.stallTimes threeTicks == [116000, 124000] &&
        decide (Throughout CounterFits e threeTicks)) = true := by
    decide +kernel
  obtain ⟨e, reached, facts⟩ := (Option.any_eq_true ..).mp computed
  simp only [Bool.and_eq_true, beq_iff_eq, decide_eq_true_eq, Option.isSome_iff_ne_none] at facts
  obtain ⟨⟨⟨isActive, one⟩, times⟩, fits⟩ := facts
  obtain ⟨cooldowns, paced⟩ := stall_nacks_paced 64 5 stalledStart threeTicks reached isActive one
  exact ⟨e, reached, times, cooldowns.mpr fits, (paced fits).2⟩

/-- The state behind the turns, when no turn ends the session. -/
def stay (e : Engine) : List (Event × Int) → Option Engine
  | [] => some e
  | (event, now) :: rest => (e.handle event now).bind fun after =>
      if after.closedKeys == e.closedKeys then after.stay rest else none

theorem stay_append (turns behind : List (Event × Int)) (ran : e.stay turns = some after) :
    e.oneSession (turns ++ behind) = after.oneSession behind ∧
      ∃ earlier, e.stallTimes (turns ++ behind) = earlier ++ after.stallTimes behind := by
  induction turns generalizing e with
  | nil =>
      cases ran
      exact ⟨rfl, [], rfl⟩
  | cons turn rest inductionHypothesis =>
      obtain ⟨event, now⟩ := turn
      obtain ⟨next, handled, ran⟩ := Option.bind_eq_some_iff.mp ran
      split at ran
      · rename_i stays
        obtain ⟨one, earlier, times⟩ := inductionHypothesis ran
        rw [List.cons_append, oneSession, stallTimes, handled, Option.all_some, stays,
          Bool.true_and]
        refine ⟨one, ?_⟩
        dsimp only
        rw [times, ← List.append_assoc]
        exact ⟨_, rfl⟩
      · cases ran

/-- Twenty-one rounds of three stalls of sixteen seconds and one new chunk. -/
def stallingRounds : List (Event × Int) :=
  (List.range 21).flatMap fun (k : Nat) =>
    let start : Int := 100000 + 48000 * k
    [(.tick, start + 16000), (.tick, start + 32000), (.tick, start + 48000),
      (.chunk ⟨"n", 1, 40 + k, [0]⟩, start + 48000)]

/-- Behind the rounds two ticks, one second apart. -/
def stallingTurns : List (Event × Int) := stallingRounds ++ [(.tick, 1124000), (.tick, 1125000)]

/-- Sixty-three stalls later the cooldown is negative, and every tick publishes. -/
theorem stall_nacks_flood : ∃ e, (newEngine 64 5).run stalledStart = some e ∧
    e.active ≠ none ∧ e.oneSession stallingTurns = true ∧
      ¬ Throughout CooldownRight e stallingTurns ∧
      ¬ (e.stallTimes stallingTurns).Pairwise fun earlier later => earlier + 4000 ≤ later := by
  -- The rounds are long: one evaluation for the two facts behind them.
  have computed : ((newEngine 64 5).run stalledStart).any (fun e =>
      e.active.isSome && (e.stay stallingRounds).any fun after =>
        after.oneSession [(.tick, 1124000), (.tick, 1125000)] &&
          after.stallTimes [(.tick, 1124000), (.tick, 1125000)] == [1124000, 1125000]) = true := by
    decide +kernel
  obtain ⟨e, reached, facts⟩ := (Option.any_eq_true ..).mp computed
  rw [Bool.and_eq_true, Option.isSome_iff_ne_none] at facts
  obtain ⟨isActive, rounds⟩ := facts
  obtain ⟨after, stayed, facts⟩ := (Option.any_eq_true ..).mp rounds
  rw [Bool.and_eq_true, beq_iff_eq] at facts
  obtain ⟨oneBehind, times⟩ := facts
  obtain ⟨one, earlier, appended⟩ := stay_append stallingRounds
    [(.tick, 1124000), (.tick, 1125000)] stayed
  rw [oneBehind] at one
  have flood : ¬ (e.stallTimes stallingTurns).Pairwise
      fun earlier later => earlier + 4000 ≤ later := by
    intro apart
    rw [stallingTurns, appended, times] at apart
    exact absurd (List.pairwise_append.mp apart).2.1 (by decide)
  refine ⟨e, reached, isActive, one, ?_, flood⟩
  intro right
  have consistent : Consistent e := (consistent_newEngine 64 5).run reached
  exact flood (stallTimes_paced consistent isActive one
    ((throughout_congr cooldownRight_iff e stallingTurns).mp right)).2

end Engine

end ForestLink.Cloud
