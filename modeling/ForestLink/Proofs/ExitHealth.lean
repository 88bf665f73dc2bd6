/-
Module: ForestLink.Proofs.ExitHealth
Purpose: When the health check gives an exit up fairly: in every run exactly where the
  exit did not go from idle to busy within the last timeout.
Trusted boundary: none
Main exports: Clocked, Heeded, FairSilence, WentBusy, exit_given_up_fairly_iff
-/
import ForestLink.Proofs.MeshStages

namespace ForestLink.Mesh.TransferEngine

open ForestLink.Lib
open ForestLink.Lib.Dispatch
open ForestLink.Protocol

variable {F : Type} {e after : TransferEngine F}

/-! ## The clock -/

/-- The clock does not run backwards: within a call the readings follow the time its
caller read, and later calls read later times. -/
structure Clocked (calls : List Call) : Prop where
  monotone : ∀ call ∈ calls, Monotone call.env.clock
  caller : ∀ call ∈ calls, call.time ≤ call.env.clock 0
  ordered : calls.Pairwise fun call later => ∀ n, call.env.clock n ≤ later.time

/-- Nothing in the log is stamped later than `time`. -/
def StampedBy (time : Nat) (log : List (Move Nat)) : Prop :=
  ∀ move ∈ log, ∀ stamp, move.stamp = some stamp → stamp ≤ time

theorem StampedBy.cons {time : Nat} {log : List (Move Nat)} {move : Move Nat}
    (stampedBy : StampedBy time log)
    (current : ∀ stamp, move.stamp = some stamp → stamp ≤ time) :
    StampedBy time (move :: log) := by
  intro other member stamp stamped
  rcases List.mem_cons.mp member with rfl | before
  · exact current stamp stamped
  · exact stampedBy other before stamp stamped

/-! ## Timestamps and hearings -/

/-- `last_ack_ms` of every exit is the time at which it was last heard, and the log is
timely. -/
structure Heeded (e : TransferEngine F) : Prop where
  stamped : ∀ index < e.role.exitNodeCount,
    ∃ heard, lastHeard index e.log = some heard ∧ e.role.lastAckMs index = heard % 2 ^ 32
  timely : Timely e.log

/-- Inside a call that began at `now` with the log `past`: all stamps lie before the
readings to come, those of earlier calls before `now`. -/
structure Attentive (now : Nat) (past : List (Move Nat)) (e : TransferEngine F) : Prop
    extends Heeded e where
  monotone : Monotone e.io.env.clock
  recent : StampedBy (e.io.env.clock 0) e.log
  begun : StampedBy now past

theorem Places.quiet {time : Nat} {move : Move Nat} (placed : Places time move) :
    move.hearing = none := by
  cases move <;> first | rfl | exact False.elim placed

/-- A hand-over is stamped with the time at which it happens. -/
theorem Places.stamp {time stamp : Nat} {move : Move Nat} (placed : Places time move)
    (stamped : move.stamp = some stamp) : stamp = time := by
  cases move with
  | assign worker job given => exact (Option.some.inj stamped).symm.trans placed
  | resume worker job given => exact (Option.some.inj stamped).symm.trans placed
  | _ => contradiction

theorem hearing_of_not_heard {move : Move Nat} (unheard : ¬ Heard move) :
    move.hearing = none := by
  cases move <;> first | rfl | exact absurd trivial unheard

namespace Attentive

variable {now : Nat} {past : List (Move Nat)}

/-- A stage that adds at most a move without a hearing, and no later reading before an
earlier one. -/
theorem quiet (attentive : Attentive now past e)
    (log : after.log = e.log ∨ ∃ move : Move Nat, move.hearing = none ∧
      (∀ stamp, move.stamp = some stamp → stamp ≤ e.io.env.clock 0) ∧
      move.Timely e.log ∧ after.log = move :: e.log)
    (count : after.role.exitNodeCount ≠ 0 → after.role.exitNodeCount = e.role.exitNodeCount)
    (acks : after.role.exitNodeCount ≠ 0 → after.role.lastAckMs = e.role.lastAckMs)
    (clock : ∃ readings, ∀ n, after.io.env.clock n = e.io.env.clock (n + readings)) :
    Attentive now past after := by
  obtain ⟨readings, shifted⟩ := clock
  have monotone : Monotone after.io.env.clock := by
    intro m n ordered
    rw [shifted, shifted]
    exact attentive.monotone (Nat.add_le_add_right ordered readings)
  have later : e.io.env.clock 0 ≤ after.io.env.clock 0 := by
    rw [shifted]
    exact attentive.monotone (Nat.zero_le _)
  have stillRecent : StampedBy (after.io.env.clock 0) e.log :=
    fun move member stamp stamped => (attentive.recent move member stamp stamped).trans later
  have same : ∀ index, lastHeard index after.log = lastHeard index e.log := by
    intro index
    rcases log with logEq | ⟨move, silence, _, _, logEq⟩
    · rw [logEq]
    · rw [logEq, lastHeard_cons_of_quiet silence]
  refine ⟨⟨?_, ?_⟩, monotone, ?_, attentive.begun⟩
  · intro index inRange
    have busy : after.role.exitNodeCount ≠ 0 := Nat.ne_of_gt (Nat.zero_lt_of_lt inRange)
    rw [count busy] at inRange
    rw [same, acks busy]
    exact attentive.stamped index inRange
  · rcases log with logEq | ⟨move, _, _, timely, logEq⟩
    · rw [logEq]
      exact attentive.timely
    · rw [logEq]
      exact .cons attentive.timely timely
  · rcases log with logEq | ⟨move, _, current, _, logEq⟩
    · rw [logEq]
      exact stillRecent
    · rw [logEq]
      exact stillRecent.cons fun stamp stamped => (current stamp stamped).trans later

/-- A stage that leaves the role and the log alone. -/
theorem of_same (attentive : Attentive now past e) (role : after.role = e.role)
    (log : after.log = e.log)
    (clock : ∃ readings, ∀ n, after.io.env.clock n = e.io.env.clock (n + readings)) :
    Attentive now past after :=
  attentive.quiet (.inl log) (fun _ => congrArg Role.exitNodeCount role)
    (fun _ => congrArg Role.lastAckMs role) clock

theorem publishes {output : Output} (published : Publishes e after output) :
    ∃ readings, ∀ n, after.io.env.clock n = e.io.env.clock (n + readings) :=
  ⟨0, fun n => congrFun published.clock n⟩

/-- The exits that `exit_node_health_tick` gives up were not heard for longer than the
timeout. -/
theorem silence (attentive : Attentive now past e) {index : Nat}
    (inRange : index < e.role.exitNodeCount)
    (stale : e.role.exitNodeTimeoutMs < sub32 now (e.role.lastAckMs index))
    (unheard : Unheard past e.log) :
    Move.Timely e.log (.silent index now e.role.exitNodeTimeoutMs) := by
  obtain ⟨heard, last, stamp⟩ := attentive.stamped index inRange
  obtain ⟨recent, logEq, quiet⟩ := unheard
  have before : lastHeard index past = some heard := by
    rw [← last, logEq]
    exact (lastHeard_append_of_quiet fun move member =>
      hearing_of_not_heard (quiet move member)).symm
  obtain ⟨move, member, hears⟩ := exists_hearing_of_lastHeard before
  have earlier : heard ≤ now :=
    attentive.begun move member heard (Move.stamp_of_hearing hears)
  refine ⟨heard, last, ?_⟩
  have difference : sub32 now (e.role.lastAckMs index) = (now - heard) % 2 ^ 32 := by
    rw [← sub32_eq earlier, stamp, sub32, sub32, Nat.mod_mod]
  rw [difference] at stale
  have bound := Nat.mod_le (now - heard) (2 ^ 32)
  omega

/-- A stage that hears exits at `time`, not before what was heard so far. -/
theorem hearing (attentive : Attentive now past e) {move : Move Nat} {time : Nat}
    (log : after.log = move :: e.log) (hears : move.hearing = some time)
    (notBefore : e.io.env.clock 0 ≤ time) (timely : move.Timely e.log)
    (stamped : ∀ index < after.role.exitNodeCount,
      ∃ heard, lastHeard index after.log = some heard ∧
        after.role.lastAckMs index = heard % 2 ^ 32)
    (clock : ∃ readings, ∀ n, after.io.env.clock n = e.io.env.clock (n + readings))
    (later : time ≤ after.io.env.clock 0) : Attentive now past after := by
  obtain ⟨readings, shifted⟩ := clock
  refine ⟨⟨stamped, ?_⟩, ?_, ?_, attentive.begun⟩
  · rw [log]
    exact .cons attentive.timely timely
  · intro m n ordered
    rw [shifted, shifted]
    exact attentive.monotone (Nat.add_le_add_right ordered readings)
  · rw [log]
    have stillRecent : StampedBy (after.io.env.clock 0) e.log := fun other member stamp stamped =>
      (attentive.recent other member stamp stamped).trans (notBefore.trans later)
    refine stillRecent.cons fun stamp stamped => ?_
    obtain rfl : time = stamp :=
      Option.some.inj ((Move.stamp_of_hearing hears).symm.trans stamped)
    exact later

theorem stage (attentive : Attentive now past e) (stage : Stage now past e after) :
    Attentive now past after := by
  cases stage with
  | shift moved =>
      cases moved with
      | calm kept => exact attentive.of_same kept.role kept.log kept.io.clock
      | move move role cloud io placed log =>
          have timely : move.Timely e.log := by
            cases move <;> trivial
          have current : ∀ stamp, move.stamp = some stamp → stamp ≤ e.io.env.clock 0 :=
            fun stamp stamped => le_of_eq (placed.stamp stamped)
          exact attentive.quiet (.inr ⟨move, placed.quiet, current, timely, log⟩)
            (fun _ => congrArg Role.exitNodeCount role) (fun _ => congrArg Role.lastAckMs role)
            io.clock
  | serve serving kept => exact attentive.of_same kept.role kept.log kept.io.clock
  | silent index inRange busy stale unheard role cloud io log =>
      have unstamped : ∀ stamp,
          (Move.silent index now e.role.exitNodeTimeoutMs).stamp = some stamp →
            stamp ≤ e.io.env.clock 0 := fun stamp impossible => by contradiction
      exact attentive.quiet
        (.inr ⟨_, rfl, unstamped, attentive.silence inRange stale unheard, log⟩)
        (fun _ => congrArg Role.exitNodeCount role) (fun _ => congrArg Role.lastAckMs role)
        io.clock
  | finish index seq inRange first role cloud io log =>
      obtain ⟨readings, shifted⟩ := io.clock
      refine attentive.hearing log rfl le_rfl attentive.recent ?_ io.clock ?_
      · intro other otherRange
        rw [role] at otherRange
        rw [log, role]
        by_cases same : index = other
        · subst same
          refine ⟨e.io.timerMs, ?_, Function.update_self ..⟩
          simp [lastHeard, Move.heardFrom]
        · obtain ⟨heard, last, stamp⟩ := attentive.stamped other otherRange
          refine ⟨heard, ?_, (Function.update_of_ne (Ne.symm same) ..).trans stamp⟩
          rw [← last]
          simp [lastHeard, Move.heardFrom, same]
      · rw [shifted]
        exact attentive.monotone (Nat.zero_le _)
  | reset active role cloud io log =>
      have unstamped : ∀ stamp, (Move.reset : Move Nat).stamp = some stamp →
          stamp ≤ e.io.env.clock 0 := fun stamp impossible => by contradiction
      refine attentive.quiet (.inr ⟨.reset, rfl, unstamped, trivial, log⟩) ?_ ?_ io.clock
      all_goals
        intro busy
        exact absurd (congrArg Role.exitNodeCount role) busy
  | clear exit role cloud io log =>
      exact attentive.quiet (.inl log) (fun _ => (congrArg Role.exitNodeCount role :))
        (fun _ => (congrArg Role.lastAckMs role :)) io.clock
  | activate pending role cloud published log =>
      exact attentive.quiet (.inl log) (fun _ => (congrArg Role.exitNodeCount role :))
        (fun _ => (congrArg Role.lastAckMs role :)) (publishes published)
  | republish serving role cloud published log =>
      exact attentive.of_same role log (publishes published)
  | elect count reading exitNodes lastAckMs electing role heard clock cloud io log =>
      obtain ⟨later, notBefore, clockEq⟩ := clock 0
      refine attentive.hearing log rfl (attentive.monotone (Nat.zero_le _)) ?_ ?_ io.clock ?_
      · intro move member time stamped
        exact (attentive.recent move member time stamped).trans
          (attentive.monotone (Nat.zero_le reading))
      · intro index inRange
        rw [role] at inRange
        rw [log, role]
        exact ⟨e.io.env.clock reading, rfl, heard index inRange⟩
      · rw [clockEq]
        exact attentive.monotone notBefore

theorem stages (attentive : Attentive now past e) (stages : Stages now past e after) :
    Attentive now past after ∧ ∀ n, ∃ m, after.io.env.clock n = e.io.env.clock m := by
  induction stages with
  | refl => exact ⟨attentive, fun n => ⟨n, rfl⟩⟩
  | tail _ next inductionHypothesis =>
      obtain ⟨before, clocks⟩ := inductionHypothesis
      refine ⟨before.stage next, fun n => ?_⟩
      obtain ⟨m, same⟩ := next.clock n
      obtain ⟨k, first⟩ := clocks m
      exact ⟨k, same.trans first⟩

end Attentive

/-! ## Calls and runs -/

theorem Heeded.of_same (heeded : Heeded e) (log : after.log = e.log)
    (count : after.role.exitNodeCount = e.role.exitNodeCount)
    (acks : after.role.lastAckMs = e.role.lastAckMs) : Heeded after := by
  constructor
  · rw [log, count, acks]
    exact heeded.stamped
  · rw [log]
    exact heeded.timely

theorem Starts.heeded {args : StartArgs} {result : Bool × TransferEngine F}
    (starts : Starts e args result) (heeded : Heeded e) :
    Heeded result.2 ∧ result.2.log = e.log := by
  cases starts with
  | refused busy => exact ⟨heeded, rfl⟩
  | rejected after count idle noExit tooLarge role cloud io log =>
      exact ⟨heeded.of_same log (congrArg Role.exitNodeCount role :)
        (congrArg Role.lastAckMs role :), log⟩
  | onLocalExit after io reading idle noExit chosen role cloud later clock outputs log =>
      exact ⟨heeded.of_same log (congrArg Role.exitNodeCount role :)
        (congrArg Role.lastAckMs role :), log⟩
  | onMesh after cap idle noExit chosen wide role cloud io log =>
      exact ⟨heeded.of_same log (congrArg Role.exitNodeCount role :)
        (congrArg Role.lastAckMs role :), log⟩

variable [PathArith F]

/-- One call keeps the timestamps, and what it stamps it stamps by its own readings. -/
theorem Heeded.step (heeded : Heeded e) (tracked : Tracked e) (call : Call)
    (monotone : Monotone call.env.clock) (caller : call.time ≤ call.env.clock 0)
    (begun : StampedBy call.time e.log) :
    Heeded (e.step call) ∧ ∃ reading, StampedBy (call.env.clock reading) (e.step call).log := by
  have stamps : StampedBy (call.env.clock 0) e.log :=
    fun move member time stamped => (begun move member time stamped).trans caller
  have called : Attentive call.time e.log (e.setEnv call.env) :=
    ⟨⟨heeded.stamped, heeded.timely⟩, monotone, stamps, begun⟩
  have ended : ∀ final : TransferEngine F, Stages call.time e.log (e.setEnv call.env) final →
      Heeded final ∧ ∃ reading, StampedBy (call.env.clock reading) final.log := by
    intro final stages
    obtain ⟨attentive, clocks⟩ := called.stages stages
    obtain ⟨reading, clockEq⟩ := clocks 0
    refine ⟨attentive.toHeeded, reading, ?_⟩
    have recent := attentive.recent
    rw [clockEq] at recent
    exact recent
  rcases step_cases tracked call with ⟨args, _, started, stepEq⟩ | ⟨_, _, _, _, accepted⟩ |
    stages | ⟨now, mid, _, _, stages, completes⟩
  · obtain ⟨stillHeeded, log⟩ := started.heeded ⟨heeded.stamped, heeded.timely⟩
    rw [stepEq, log]
    exact ⟨stillHeeded, 0, stamps⟩
  · rw [accepted.log]
    exact ⟨heeded.of_same accepted.log (congrArg Role.exitNodeCount accepted.role :)
      (congrArg Role.lastAckMs accepted.role :), 0, stamps⟩
  · exact ended _ stages
  · have scheduled : Stages call.time e.log mid mid.scheduleFragments.2 :=
      stages_scheduleFragments mid completes.active
    obtain ⟨final, reading, recent⟩ := ended _ (stages.trans scheduled)
    rw [completes.done]
    exact ⟨⟨final.stamped, final.timely⟩, reading, recent⟩

theorem Heeded.run (heeded : Heeded e) (tracked : Tracked e) {calls : List Call}
    (clocked : Clocked calls) (begun : ∀ call ∈ calls, StampedBy call.time e.log) :
    Heeded (e.run calls) := by
  induction calls generalizing e with
  | nil => exact heeded
  | cons call rest inductionHypothesis =>
      obtain ⟨before, ordered⟩ := List.pairwise_cons.mp clocked.ordered
      obtain ⟨next, reading, recent⟩ := heeded.step tracked call
        (clocked.monotone call List.mem_cons_self) (clocked.caller call List.mem_cons_self)
        (begun call List.mem_cons_self)
      apply inductionHypothesis next (tracked.step call)
      · exact ⟨fun other member => clocked.monotone other (List.mem_cons_of_mem _ member),
          fun other member => clocked.caller other (List.mem_cons_of_mem _ member), ordered⟩
      · intro later member move inLog time stamped
        exact (recent move inLog time stamped).trans (before later member reading)

/-! ## Fairness -/

/-- The exit was given up fairly: some fragment it holds was handed to it, and for longer
than the limit it has had that fragment and no tracked ACK came from it. -/
def FairSilence (past : List (Move Nat)) (index now limit : Nat) : Prop :=
  ∃ seq ∈ (Board.replay senderRules past).window index,
    ∃ placed since, placedAt index seq past = some placed ∧ placed ≤ since ∧
      since + limit < now ∧ ∀ job time, Move.finish index job time ∈ past → time ≤ since

/-- All fragments of the exit were handed to it within the last `limit` milliseconds. -/
def OnlyFresh (past : List (Move Nat)) (index now limit : Nat) : Prop :=
  ∀ seq ∈ (Board.replay senderRules past).window index,
    ∀ placed, placedAt index seq past = some placed → now ≤ placed + limit

/-- Within the last `limit` milliseconds the exit was idle: what it holds it was handed
after that, within the same time. -/
def WentBusy (past : List (Move Nat)) (index now limit : Nat) : Prop :=
  IdleUntil senderRules past index (now - limit)

section Fairness

variable {past : List (Move Nat)} {index now limit : Nat}

omit [PathArith F] in
theorem not_fairSilence_of_onlyFresh (fresh : OnlyFresh past index now limit) :
    ¬ FairSilence past index now limit := by
  rintro ⟨seq, held, placed, since, placedEq, before, waited, _⟩
  have recent := fresh seq held placed placedEq
  omega

omit [PathArith F] in
theorem fairSilence_of_old_fragment (timely : Timely past)
    (silence : Move.Timely past (.silent index now limit))
    (old : ¬ OnlyFresh past index now limit) : FairSilence past index now limit := by
  simp only [OnlyFresh, not_forall, Nat.not_le] at old
  obtain ⟨seq, held, placed, placedEq, waited⟩ := old
  obtain ⟨heard, last, quiet⟩ := silence
  refine ⟨seq, held, placed, max placed heard, placedEq, le_max_left _ _, ?_, ?_⟩
  · omega
  · exact fun job time done => (timely.finish_le last done).trans (le_max_right _ _)

omit [PathArith F] in
/-- At a silence: the exit went from idle to busy within the last timeout exactly if all it
holds was handed to it in this time. -/
theorem wentBusy_iff_onlyFresh (valid : Valid senderRules past) (timely : Timely past)
    (silence : Move.Timely past (.silent index now limit)) :
    WentBusy past index now limit ↔ OnlyFresh past index now limit := by
  obtain ⟨heard, last, quiet⟩ := silence
  constructor
  · intro busy seq held placed placedEq
    have since := busy.heldSince seq held placed placedEq
    omega
  · intro fresh
    have held : HeldSince senderRules past index (now - limit) := by
      intro seq inWindow placed placedEq
      have recent := fresh seq inWindow placed placedEq
      omega
    refine held.idleUntil valid timely fun job time done => ?_
    have answered := timely.finish_le last done
    omega

end Fairness

/-! ## Deaths and silences -/

omit [PathArith F] in
theorem unheard_refl (log : List (Move Nat)) : Unheard log log :=
  ⟨[], rfl, fun _ impossible => absurd impossible List.not_mem_nil⟩

/-- An exit that one check of the health tick finds alive and leaves dead was called
silent by this check. -/
theorem Mirrors.silent_of_checkExitHealth {index checked : Nat} (mirrors : Mirrors e [])
    (now : Nat) (inRange : checked < e.transfer.exitNodeCount)
    (alive : e.transfer.exitNodeAlive index = true)
    (dead : (e.checkExitHealth now checked).transfer.exitNodeAlive index = false) :
    ∃ later past, (e.checkExitHealth now checked).log =
      later ++ .silent index now e.exitNodeTimeoutMs :: past := by
  unfold TransferEngine.checkExitHealth at dead ⊢
  split
  · rename_i stale
    rw [if_pos stale] at dead
    simp only [Bool.and_eq_true] at stale
    have live : checked < e.transfer.exitNodeCount ∧ e.transfer.exitNodeAlive checked = true :=
      ⟨inRange, stale.1.1⟩
    have noted : Mirrors (e.note (.silent checked now e.exitNodeTimeoutMs)) [] :=
      { mirrors with valid := .cons mirrors.valid ((mirrors.live checked).mpr live) }
    obtain ⟨_, _, transfer⟩ := noted.redistributeDeadExit live
    have same : index = checked := by
      by_contra different
      rw [transfer] at dead
      have unchanged : Function.update e.transfer.exitNodeAlive checked false index =
          e.transfer.exitNodeAlive index := Function.update_of_ne different ..
      exact absurd (dead.symm.trans (unchanged.trans alive)) (by decide)
    subst same
    obtain ⟨recent, logEq, _⟩ := (shifts_redistributeDeadExit
      (e.note (.silent index now e.exitNodeTimeoutMs)) index).unheard (unheard_refl _)
    exact ⟨recent, e.log, logEq⟩
  · rename_i healthy
    rw [if_neg healthy] at dead
    exact absurd (dead.symm.trans alive) (by decide)

theorem Mirrors.checkExits_log {indices : List Nat} (now : Nat) (mirrors : Mirrors e [])
    (inRange : ∀ checked ∈ indices, checked < e.transfer.exitNodeCount) :
    ∃ recent, (indices.foldl (TransferEngine.checkExitHealth now) e).log = recent ++ e.log := by
  induction indices generalizing e with
  | nil => exact ⟨[], rfl⟩
  | cons checked rest inductionHypothesis =>
      have here := inRange checked List.mem_cons_self
      obtain ⟨next, role⟩ := mirrors.checkExitHealth now here
      obtain ⟨_, recent, logEq, _⟩ :=
        stages_checkExitHealth now mirrors here (unheard_refl e.log)
      have sameCount : (e.checkExitHealth now checked).transfer.exitNodeCount =
          e.transfer.exitNodeCount := congrArg Role.exitNodeCount role
      obtain ⟨later, grown⟩ := inductionHypothesis next fun other member => by
        rw [sameCount]
        exact inRange other (List.mem_cons_of_mem _ member)
      refine ⟨later ++ recent, ?_⟩
      rw [List.foldl_cons, grown, logEq, List.append_assoc]

theorem Mirrors.silent_of_checkExits {index : Nat} {indices : List Nat} (now : Nat)
    (mirrors : Mirrors e [])
    (inRange : ∀ checked ∈ indices, checked < e.transfer.exitNodeCount)
    (alive : e.transfer.exitNodeAlive index = true)
    (dead : (indices.foldl (TransferEngine.checkExitHealth now) e).transfer.exitNodeAlive
      index = false) :
    ∃ later past, (indices.foldl (TransferEngine.checkExitHealth now) e).log =
      later ++ .silent index now e.exitNodeTimeoutMs :: past := by
  induction indices generalizing e with
  | nil => exact absurd (dead.symm.trans alive) (by decide)
  | cons checked rest inductionHypothesis =>
      have here := inRange checked List.mem_cons_self
      obtain ⟨next, role⟩ := mirrors.checkExitHealth now here
      have sameCount : (e.checkExitHealth now checked).transfer.exitNodeCount =
          e.transfer.exitNodeCount := congrArg Role.exitNodeCount role
      have sameLimit : (e.checkExitHealth now checked).exitNodeTimeoutMs =
          e.exitNodeTimeoutMs := congrArg Role.exitNodeTimeoutMs role
      have restRange : ∀ other ∈ rest,
          other < (e.checkExitHealth now checked).transfer.exitNodeCount := by
        intro other member
        rw [sameCount]
        exact inRange other (List.mem_cons_of_mem _ member)
      cases stillAlive : (e.checkExitHealth now checked).transfer.exitNodeAlive index with
      | true =>
          rw [← sameLimit]
          exact inductionHypothesis next restRange stillAlive dead
      | false =>
          obtain ⟨later, past, logEq⟩ :=
            mirrors.silent_of_checkExitHealth now here alive stillAlive
          obtain ⟨recent, grown⟩ := next.checkExits_log now restRange
          refine ⟨recent ++ later, past, ?_⟩
          rw [List.foldl_cons, grown, logEq, List.append_assoc]

theorem Mirrors.silent_of_exitNodeHealthTick {index : Nat} (now : Nat) (mirrors : Mirrors e [])
    (alive : e.transfer.exitNodeAlive index = true)
    (dead : (e.exitNodeHealthTick now).transfer.exitNodeAlive index = false) :
    ∃ later past, (e.exitNodeHealthTick now).log =
      later ++ .silent index now e.exitNodeTimeoutMs :: past := by
  unfold TransferEngine.exitNodeHealthTick at dead ⊢
  split
  · rename_i nothing
    rw [if_pos nothing] at dead
    exact absurd (dead.symm.trans alive) (by decide)
  · rename_i running
    rw [if_neg running] at dead
    exact mirrors.silent_of_checkExits now (fun checked => List.mem_range.mp) alive dead

theorem Heeded.boot (myAddr maxElectedExits : Nat) :
    Heeded (TransferEngine.boot (F := F) myAddr maxElectedExits) :=
  ⟨fun index impossible => absurd impossible (Nat.not_lt_zero index), .nil⟩

/-- In every run under a clock that does not run backwards: the health tick marks an exit
dead only with a silence in the log, and a silence is fair, with a fragment pending for
longer than the timeout and no tracked ACK in that time, if and only if the exit did not go
from idle to busy within the last timeout, which it did exactly if all it holds was handed
to it within this time. -/
theorem exit_given_up_fairly_iff (myAddr maxElectedExits : Nat) (calls : List Call)
    (clocked : Clocked calls) :
    let e := (TransferEngine.boot myAddr maxElectedExits : TransferEngine F).run calls
    (∀ now index, e.transfer.exitNodeAlive index = true →
        (e.exitNodeHealthTick now).transfer.exitNodeAlive index = false →
        ∃ later past, (e.exitNodeHealthTick now).log =
          later ++ .silent index now e.exitNodeTimeoutMs :: past) ∧
      ∀ later past index now limit, e.log = later ++ .silent index now limit :: past →
        (FairSilence past index now limit ↔ ¬ WentBusy past index now limit) ∧
        (WentBusy past index now limit ↔ OnlyFresh past index now limit) := by
  intro e
  have booted := Tracked.boot (F := F) myAddr maxElectedExits
  have tracked : Tracked e := booted.run calls
  have heeded : Heeded e := (Heeded.boot myAddr maxElectedExits).run booted clocked
    fun _ _ _ impossible => absurd impossible List.not_mem_nil
  refine ⟨fun now index => tracked.mirrors.silent_of_exitNodeHealthTick now, ?_⟩
  intro later past index now limit logEq
  have timely := heeded.timely
  have valid := tracked.mirrors.valid
  rw [logEq] at timely valid
  have sinceThen : Valid senderRules (.silent index now limit :: past) := valid.of_suffix
  cases sinceThen with
  | cons validBefore _ =>
      cases timely.of_suffix with
      | cons before silence =>
          have busy := wentBusy_iff_onlyFresh validBefore before silence
          refine ⟨⟨fun fair went => ?_, fun idle => ?_⟩, busy⟩
          · exact not_fairSilence_of_onlyFresh (busy.mp went) fair
          · exact fairSilence_of_old_fragment before silence fun fresh => idle (busy.mpr fresh)

/-! ## Two exits given up in one tick -/

/-- The log when the health check comes to the second exit. -/
def cascadePast : List (Move Nat) :=
  [.resume 1 0 80000, .fail 0, .silent 0 80000 35000, .assign 0 0 9000,
    .launch (Finset.range 2) 64 9000]

/-- The first exit is silent for too long; its fragment goes to the second, idle exit,
which the same loop then gives up at once. -/
theorem idle_exit_given_up_at_once :
    let e := (TransferEngine.boot 1 4 : TransferEngine ℚ).run (smallRun ++ [tickAt 80000])
    e.log = [.reset, .fail 1] ++ .silent 1 80000 35000 :: cascadePast ∧
      ¬ FairSilence cascadePast 1 80000 35000 := by
  refine ⟨by decide +kernel, not_fairSilence_of_onlyFresh ?_⟩
  have window : (Board.replay senderRules cascadePast).window 1 = {0} := by decide +kernel
  have placed : placedAt 1 0 cascadePast = some 80000 := by decide +kernel
  intro seq held time placedEq
  rw [window, Finset.mem_singleton] at held
  subst held
  obtain rfl : 80000 = time := Option.some.inj (placed.symm.trans placedEq)
  decide

theorem clocked_small_run : Clocked (smallRun ++ [tickAt 80000]) := by
  constructor
  · intro call member
    simp only [smallRun, List.cons_append, List.nil_append, List.mem_cons, List.not_mem_nil,
      or_false] at member
    rcases member with rfl | rfl | rfl | rfl | rfl <;> exact monotone_const
  · intro call member
    simp only [smallRun, List.cons_append, List.nil_append, List.mem_cons, List.not_mem_nil,
      or_false] at member
    rcases member with rfl | rfl | rfl | rfl | rfl <;> exact le_rfl
  · simp [smallRun, smallStart, smallOffer, tickAt, Call.time]

/-- The first exit held its fragment for the whole timeout. -/
theorem first_exit_given_up_fairly :
    let e := (TransferEngine.boot 1 4 : TransferEngine ℚ).run (smallRun ++ [tickAt 80000])
    e.log = [.reset, .fail 1, .silent 1 80000 35000, .resume 1 0 80000, .fail 0] ++
        .silent 0 80000 35000 :: [.assign 0 0 9000, .launch (Finset.range 2) 64 9000] ∧
      FairSilence [.assign 0 0 9000, .launch (Finset.range 2) 64 9000] 0 80000 35000 := by
  have logEq : ((TransferEngine.boot 1 4 : TransferEngine ℚ).run
      (smallRun ++ [tickAt 80000])).log =
      ([.reset, .fail 1, .silent 1 80000 35000, .resume 1 0 80000, .fail 0] :
        List (Dispatch.Move Nat)) ++
        .silent 0 80000 35000 :: [.assign 0 0 9000, .launch (Finset.range 2) 64 9000] := by
    decide +kernel
  have old : ¬ OnlyFresh [.assign 0 0 9000, .launch (Finset.range 2) 64 9000] 0 80000 35000 := by
    intro fresh
    have recent := fresh 0 (by decide +kernel) 9000 (by decide +kernel)
    exact absurd recent (by decide)
  obtain ⟨_, silences⟩ := exit_given_up_fairly_iff (F := ℚ) 1 4 _ clocked_small_run
  obtain ⟨fair, busy⟩ := silences _ _ _ _ _ logEq
  exact ⟨logEq, fair.mpr fun went => old (busy.mp went)⟩

end ForestLink.Mesh.TransferEngine
