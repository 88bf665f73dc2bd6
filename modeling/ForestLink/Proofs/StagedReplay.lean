/-
Module: ForestLink.Proofs.StagedReplay
Purpose: What `setupActive` leaves in the staging buffer.  The replay loop and
  `completeTransfer` filter one backing array at the same time; the result is an
  exact partition of the staged chunks on precisely the stagings where the inner
  filter does not disturb the cells the outer loop has still to read.
Trusted boundary: none
Main exports: Engine.setupActive_eq, Engine.ExactPartition, Engine.SafeReplay,
  Engine.setupActive_partition_iff
-/
import ForestLink.Cloud.Engine

namespace ForestLink.Cloud

open ForestLink.Lib

namespace Engine

/-! ## Small facts about the operations -/

@[simp] theorem processedChunks_emit (e : Engine) (events : List EngineEvent) :
    (e.emit events).processedChunks =
      e.processedChunks ++ events.filterMap EngineEvent.processed? :=
  List.filterMap_append

@[simp] theorem closedKeys_emit (e : Engine) (events : List EngineEvent) :
    (e.emit events).closedKeys = e.closedKeys ++ events.filterMap EngineEvent.closed? :=
  List.filterMap_append

/-- The parts of the state the replay of one session works on. -/
structure Replaying (before after : Engine) (handed : List FileChunk) : Prop where
  queue : after.queue = before.queue
  active : after.active = before.active
  processed : after.processedChunks = before.processedChunks ++ handed
  closed : after.closedKeys = before.closedKeys

theorem Replaying.trans {first second third : Engine} {one two : List FileChunk}
    (left : Replaying first second one) (right : Replaying second third two) :
    Replaying first third (one ++ two) where
  queue := right.queue.trans left.queue
  active := right.active.trans left.active
  processed := by rw [right.processed, left.processed, List.append_assoc]
  closed := right.closed.trans left.closed

/-- `processChunk` hands over one chunk, reports completion exactly when the
chunk is new and the reassembler then complete, and leaves the staging buffer
alone. -/
theorem processChunk_spec {e after : Engine} {chunk : FileChunk} {now : Int}
    {finished success : Bool}
    (ran : e.processChunk chunk now = some (after, finished, success)) :
    Replaying e after [chunk] ∧ after.pendingChunks = e.pendingChunks ∧
      ∃ reassembler isNew next, e.reassembler = some reassembler ∧
        reassembler.writeChunk chunk.seqNum chunk.data = some (isNew, next) ∧
        after.reassembler = some next ∧ finished = (isNew && next.isComplete) := by
  unfold processChunk at ran
  obtain ⟨reassembler, hasReassembler, ran⟩ := Option.bind_eq_some_iff.mp ran
  obtain ⟨sr, _, ran⟩ := Option.bind_eq_some_iff.mp ran
  obtain ⟨s, _, ran⟩ := Option.bind_eq_some_iff.mp ran
  obtain ⟨⟨receiver, outcome⟩, processed, ran⟩ := Option.bind_eq_some_iff.mp ran
  simp only [Option.pure_def, Option.some.injEq, Prod.mk.injEq] at ran
  obtain ⟨rfl, rfl, rfl⟩ := ran
  have noOther : ∀ (acks : List Nat) (saves : Bool) (name node : String) (bytes : List UInt8),
      let events := acks.map (fun seq => EngineEvent.ack s.sessionId seq) ++
        if saves then [EngineEvent.save node name bytes, .saved s now] else []
      events.filterMap EngineEvent.processed? = [] ∧
        events.filterMap EngineEvent.closed? = [] := by
    intro acks saves name node bytes
    cases saves <;> simp [EngineEvent.processed?, EngineEvent.closed?]
  refine ⟨⟨rfl, rfl, ?_, ?_⟩, rfl, ?_⟩
  · have note : (EngineEvent.processed chunk).processed? = some chunk := rfl
    rw [processedChunks_emit, List.filterMap_cons_some note, (noOther _ _ _ _ _).1]
    rfl
  · have note : (EngineEvent.processed chunk).closed? = none := rfl
    rw [closedKeys_emit, List.filterMap_cons_none note, (noOther _ _ _ _ _).2,
      List.append_nil]
    rfl
  · unfold Receiver.processChunk at processed
    obtain ⟨⟨isNew, next⟩, wrote, processed⟩ := Option.bind_eq_some_iff.mp processed
    refine ⟨reassembler, isNew, next, hasReassembler, wrote, ?_⟩
    cases isNew <;> cases processed <;> exact ⟨rfl, by simp⟩

/-- Closing the active session filters the staging buffer in place and moves on
to the head of the queue. -/
theorem closeActive_spec (e : Engine) {s : Session} (isActive : e.active = some s)
    (success : Bool) (now : Int) :
    let after := e.closeActive s success now
    after.queue = e.queue.tail ∧
      after.active = e.queue.head?.map (fun next => { next with startedAt := now }) ∧
      after.processedChunks = e.processedChunks ∧
      after.closedKeys = e.closedKeys ++ [s.key] ∧
      after.pendingChunks = e.pendingChunks.filterInPlace fun c => c.key != s.key := by
  intro after
  cases success with
  | false =>
      cases waiting : e.queue <;>
        simp [after, closeActive, completeActive, startNext, isActive, waiting, emit,
          processedChunks, closedKeys, EngineEvent.processed?, EngineEvent.closed?]
  | true =>
      cases waiting : e.queue <;>
        simp [after, closeActive, completeActive, startNext, isActive, waiting, emit,
          processedChunks, closedKeys, EngineEvent.processed?] <;> rfl

/-! ## Nested calls

`setupActive` and `completeTransfer` call each other.  The model bounds the depth
by the queue; the bound is never reached, so the equations of the source hold. -/

/-- Once a session is complete the loop only moves cells. -/
theorem replay_completed_congr (one two : Engine → Bool → Option Engine) (key : String)
    (now : Int) (left i kept : Nat) (e : Engine) :
    replay one key now left i kept true e = replay two key now left i kept true e := by
  induction left generalizing i kept e with
  | zero => rfl
  | succ left inductionHypothesis =>
      rw [replay, replay]
      apply Option.bind_congr
      intro c _
      rw [if_pos (.inr rfl), if_pos (.inr rfl)]
      exact inductionHypothesis _ _ _

/-- The loop calls `completeTransfer` only for the session and the queue it
started with. -/
theorem replay_congr {one two : Engine → Bool → Option Engine} (key : String) (now : Int)
    (left i kept : Nat) (e : Engine)
    (agree : ∀ other success, other.queue = e.queue → other.active = e.active →
      one other success = two other success) :
    replay one key now left i kept false e = replay two key now left i kept false e := by
  induction left generalizing i kept e with
  | zero => rfl
  | succ left inductionHypothesis =>
      rw [replay, replay]
      apply Option.bind_congr
      intro c _
      split
      · apply inductionHypothesis
        exact agree
      · apply Option.bind_congr
        rintro ⟨after, finished, success⟩ processed
        obtain ⟨same, _⟩ := processChunk_spec processed
        cases finished with
        | true =>
            simp only [if_true]
            rw [agree after success same.queue same.active]
            apply Option.bind_congr
            intro next _
            exact replay_completed_congr _ _ _ _ _ _ _ _
        | false =>
            simp only [Bool.false_eq_true, if_false]
            apply inductionHypothesis
            intro other success sameQueue sameActive
            exact agree other success (sameQueue.trans same.queue)
              (sameActive.trans same.active)

theorem setupActiveWith_congr {one two : Engine → Bool → Option Engine} (now : Int)
    (e : Engine) (agree : ∀ other success, other.queue = e.queue → other.active = e.active →
      one other success = two other success) :
    setupActiveWith one now e = setupActiveWith two now e := by
  unfold setupActiveWith
  cases e.active with
  | none => rfl
  | some s =>
      simp only
      rw [replay_congr s.key now _ 0 0 (e.resetFor s now) agree]

/-- How deep the calls below `setupActive` can nest. -/
def depth (e : Engine) : Nat :=
  match e.active with
  | none => 1
  | some _ => e.queue.length + 2

theorem depth_le (e : Engine) : e.depth ≤ e.queue.length + 2 := by
  unfold depth
  split <;> omega

/-- Completing the active session takes one level off. -/
theorem depth_closeActive (e : Engine) {s : Session} (isActive : e.active = some s)
    (success : Bool) (now : Int) : (e.closeActive s success now).depth + 1 ≤ e.depth := by
  obtain ⟨queueEq, activeEq, _⟩ := closeActive_spec e isActive success now
  unfold depth
  rw [queueEq, activeEq, isActive]
  cases e.queue with
  | nil => simp
  | cons next rest => simp

theorem setupActiveFuel_succ (now : Int) (fuel : Nat) (e : Engine) (enough : e.depth ≤ fuel) :
    setupActiveFuel now fuel e = setupActiveFuel now (fuel + 1) e := by
  induction fuel generalizing e with
  | zero =>
      unfold depth at enough
      split at enough <;> omega
  | succ fuel inductionHypothesis =>
      rw [setupActiveFuel, setupActiveFuel]
      apply setupActiveWith_congr
      intro other success sameQueue sameActive
      unfold completeTransferWith
      cases isActive : other.active with
      | none => rfl
      | some s =>
          apply inductionHypothesis
          have sameDepth : other.depth = e.depth := by
            rw [depth, depth, sameQueue, sameActive]
          have less := depth_closeActive other isActive success now
          omega

theorem setupActiveFuel_eq (now : Int) (fuel : Nat) (e : Engine) (enough : e.depth ≤ fuel) :
    setupActiveFuel now fuel e = e.setupActive now := by
  have more : ∀ extra, setupActiveFuel now (e.depth + extra) e =
      setupActiveFuel now e.depth e := by
    intro extra
    induction extra with
    | zero => rfl
    | succ extra inductionHypothesis =>
        rw [← inductionHypothesis]
        exact (setupActiveFuel_succ now _ e (Nat.le_add_right _ _)).symm
  obtain ⟨extra, rfl⟩ := Nat.exists_eq_add_of_le enough
  obtain ⟨rest, bound⟩ := Nat.exists_eq_add_of_le (depth_le e)
  rw [setupActive, bound, more, more]

/-- `setupActive` satisfies the recursion of the source: its replay calls
`completeTransfer`, which calls it again. -/
theorem setupActive_eq (e : Engine) (now : Int) :
    e.setupActive now =
      setupActiveWith (fun other success => other.completeTransfer success now) now e := by
  rw [setupActive, setupActiveFuel]
  apply setupActiveWith_congr
  intro other success sameQueue sameActive
  unfold completeTransfer completeTransferWith
  cases isActive : other.active with
  | none => rfl
  | some s =>
      apply setupActiveFuel_eq
      have less := depth_closeActive other isActive success now
      have bound := depth_le other
      rw [sameQueue] at bound
      omega

/-! ## The replay loop -/

/-- Split the staged chunks behind the one that completes the session of `key`:
the first new chunk of that session after which the reassembler is complete. -/
def splitAtCompletion (key : String) :
    FileReassembler → List FileChunk → Option (List FileChunk × List FileChunk)
  | _, [] => none
  | r, c :: rest =>
      if c.key = key then
        match r.writeChunk c.seqNum c.data with
        | none => none
        | some (isNew, next) =>
            if isNew && next.isComplete then some ([c], rest)
            else (splitAtCompletion key next rest).map fun (done, left) => (c :: done, left)
      else (splitAtCompletion key r rest).map fun (done, left) => (c :: done, left)

/-- The chunks of other sessions. -/
def others (key : String) (chunks : List FileChunk) : List FileChunk :=
  chunks.filter fun c => c.key != key

/-- The chunks of the session. -/
def own (key : String) (chunks : List FileChunk) : List FileChunk :=
  chunks.filter fun c => c.key == key

theorem append_of_splitAtCompletion {key : String} {r : FileReassembler}
    {chunks done left : List FileChunk}
    (split : splitAtCompletion key r chunks = some (done, left)) : chunks = done ++ left := by
  induction chunks generalizing r done with
  | nil => cases split
  | cons c rest inductionHypothesis =>
      have further : ∀ {next : FileReassembler},
          (splitAtCompletion key next rest).map
            (fun (done, left) => (c :: done, left)) = some (done, left) →
          c :: rest = done ++ left := by
        intro next deeper
        obtain ⟨⟨done', left'⟩, found, same⟩ := Option.map_eq_some_iff.mp deeper
        cases same
        rw [List.cons_append, ← inductionHypothesis found]
      rw [splitAtCompletion] at split
      split at split
      · split at split
        · cases split
        · split at split
          · cases split
            rfl
          · exact further split
      · exact further split

/-- The state of the replay after it has passed some chunks: those of other
sessions have been moved to the front of the array, the session's own went to
`processChunk`. -/
structure Passed (e after : Engine) (cells kept handed : List FileChunk) : Prop where
  replaying : Replaying e after handed
  cells : after.pendingChunks.cells = overwrite cells kept
  len : after.pendingChunks.len = e.pendingChunks.len

theorem others_cons_own {key : String} {c : FileChunk} (same : c.key = key)
    (rest : List FileChunk) : others key (c :: rest) = others key rest := by
  simp [others, same]

theorem others_cons_other {key : String} {c : FileChunk} (differs : c.key ≠ key)
    (rest : List FileChunk) : others key (c :: rest) = c :: others key rest := by
  simp [others, differs]

theorem own_cons_own {key : String} {c : FileChunk} (same : c.key = key)
    (rest : List FileChunk) : own key (c :: rest) = c :: own key rest := by
  simp [own, same]

theorem own_cons_other {key : String} {c : FileChunk} (differs : c.key ≠ key)
    (rest : List FileChunk) : own key (c :: rest) = own key rest := by
  simp [own, differs]

/-- The loop before completion.  Without a completing chunk it partitions what it
passes; with one it reaches `completeTransfer` with the chunks up to there
partitioned and every later cell untouched. -/
theorem replay_spec (complete : Engine → Bool → Option Engine) (key : String) (now : Int)
    (cells : List FileChunk) (left i : Nat) (kept : List FileChunk) (e : Engine)
    (r : FileReassembler) (behind : kept.length ≤ i) (inside : i + left ≤ cells.length)
    (array : e.pendingChunks.cells = overwrite cells kept) (hasReassembler : e.reassembler = some r)
    {result : Engine × Nat}
    (ran : replay complete key now left i kept.length false e = some result) :
    match splitAtCompletion key r ((cells.drop i).take left) with
    | none =>
        Passed e result.1 cells (kept ++ others key ((cells.drop i).take left))
            (own key ((cells.drop i).take left)) ∧
          result.2 = (kept ++ others key ((cells.drop i).take left)).length
    | some (done, rest) =>
        ∃ reached success, Passed e reached cells (kept ++ others key done) (own key done) ∧
          (do
            let next ← complete reached success
            replay complete key now rest.length (i + done.length)
              (kept ++ others key done).length true next) = some result := by
  induction left generalizing i kept e r with
  | zero =>
      cases ran
      simp only [List.take_zero, splitAtCompletion, others, own, List.filter_nil,
        List.append_nil, and_true]
      exact ⟨⟨rfl, rfl, (List.append_nil _).symm, rfl⟩, array, rfl⟩
  | succ left inductionHypothesis =>
      obtain ⟨c, stands, todoEq⟩ := next_overwrite behind inside
      have read : e.pendingChunks.cells[i]? = some c := array ▸ stands
      rw [todoEq]
      obtain ⟨rest, restEq⟩ : ∃ rest, rest = (cells.drop (i + 1)).take left := ⟨_, rfl⟩
      rw [← restEq]
      rw [replay, read] at ran
      simp only [Option.bind_eq_bind, Option.bind_some, Bool.false_eq_true, or_false] at ran
      by_cases same : c.key = key
      · rw [if_neg (not_not.mpr same)] at ran
        obtain ⟨⟨after, finished, success⟩, processed, ran⟩ := Option.bind_eq_some_iff.mp ran
        obtain ⟨handed, pending, reassembler, isNew, next, found, wrote, nextEq, finishedEq⟩ :=
          processChunk_spec processed
        rw [hasReassembler, Option.some.injEq] at found
        subst found
        rw [splitAtCompletion, if_pos same, wrote]
        simp only
        cases finished with
        | true =>
            rw [if_pos finishedEq.symm]
            refine ⟨after, success, ⟨?_, ?_, ?_⟩, ?_⟩
            · rw [own_cons_own same]
              exact handed
            · rw [others_cons_own same, pending, array]
              simp [others]
            · rw [pending]
            · have restLength : rest.length = left := by
                rw [restEq, List.length_take, List.length_drop]
                omega
              rw [others_cons_own same, restLength]
              simpa [others] using ran
        | false =>
            rw [if_neg (by rw [← finishedEq]; exact Bool.false_ne_true)]
            have later := inductionHypothesis (i + 1) kept after next (by omega) (by omega)
              (pending ▸ array) nextEq ran
            rw [← restEq] at later
            cases deeper : splitAtCompletion key next rest with
            | none =>
                simp only [deeper, Option.map_none] at later ⊢
                obtain ⟨passed, count⟩ := later
                rw [others_cons_own same, own_cons_own same]
                exact ⟨⟨handed.trans passed.replaying, passed.cells,
                  passed.len.trans (congrArg Slice.len pending)⟩, count⟩
            | some parts =>
                obtain ⟨done, left'⟩ := parts
                simp only [deeper, Option.map_some] at later ⊢
                obtain ⟨reached, success', passed, continued⟩ := later
                rw [others_cons_own same, own_cons_own same, List.length_cons,
                  ← Nat.add_assoc, Nat.add_right_comm]
                exact ⟨reached, success', ⟨handed.trans passed.replaying, passed.cells,
                  passed.len.trans (congrArg Slice.len pending)⟩, continued⟩
      · rw [if_pos same] at ran
        have grown : (kept ++ [c]).length = kept.length + 1 := by simp
        rw [← grown] at ran
        have later := inductionHypothesis (i + 1) (kept ++ [c])
          { e with pendingChunks := e.pendingChunks.store kept.length c } r
          (by omega) (by omega)
          (by
            show (e.pendingChunks.cells.set kept.length c) = _
            rw [array, set_overwrite (by omega)])
          hasReassembler ran
        rw [← restEq] at later
        rw [splitAtCompletion, if_neg same]
        cases deeper : splitAtCompletion key r rest with
        | none =>
            simp only [deeper, Option.map_none, List.append_assoc, List.singleton_append]
              at later ⊢
            obtain ⟨passed, count⟩ := later
            rw [others_cons_other same, own_cons_other same]
            exact ⟨⟨⟨passed.replaying.queue, passed.replaying.active,
              passed.replaying.processed, passed.replaying.closed⟩, passed.cells, passed.len⟩,
              count⟩
        | some parts =>
            obtain ⟨done, left'⟩ := parts
            simp only [deeper, Option.map_some, List.append_assoc, List.singleton_append]
              at later ⊢
            obtain ⟨reached, success, passed, continued⟩ := later
            rw [others_cons_other same, own_cons_other same, List.length_cons,
              ← Nat.add_assoc, Nat.add_right_comm]
            exact ⟨reached, success, ⟨⟨passed.replaying.queue, passed.replaying.active,
              passed.replaying.processed, passed.replaying.closed⟩, passed.cells, passed.len⟩,
              continued⟩

/-- After completion the loop moves every remaining cell down. -/
theorem replay_completed_spec (complete : Engine → Bool → Option Engine) (key : String)
    (now : Int) (cells : List FileChunk) (left i : Nat) (kept : List FileChunk) (e : Engine)
    (behind : kept.length ≤ i) (inside : i + left ≤ cells.length)
    (array : e.pendingChunks.cells = overwrite cells kept) :
    ∃ after, replay complete key now left i kept.length true e =
        some (after, kept.length + left) ∧
      Passed e after cells (kept ++ (cells.drop i).take left) [] := by
  induction left generalizing i kept e with
  | zero =>
      refine ⟨e, rfl, ⟨rfl, rfl, (List.append_nil _).symm, rfl⟩, ?_, rfl⟩
      rw [List.take_zero, List.append_nil]
      exact array
  | succ left inductionHypothesis =>
      obtain ⟨c, stands, todoEq⟩ := next_overwrite behind inside
      have read : e.pendingChunks.cells[i]? = some c := array ▸ stands
      have grown : (kept ++ [c]).length = kept.length + 1 := by simp
      obtain ⟨after, ran, passed⟩ := inductionHypothesis (i + 1) (kept ++ [c])
        { e with pendingChunks := e.pendingChunks.store kept.length c } (by omega) (by omega)
        (by
          show (e.pendingChunks.cells.set kept.length c) = _
          rw [array, set_overwrite (by omega)])
      refine ⟨after, ?_, ⟨passed.replaying.queue, passed.replaying.active,
        passed.replaying.processed, passed.replaying.closed⟩, ?_, passed.len⟩
      · rw [replay, read]
        simp only [Option.bind_eq_bind, Option.bind_some, or_true, if_true]
        rw [← grown, ran, grown, Nat.add_right_comm, Nat.add_assoc]
      · rw [passed.cells, todoEq, List.append_assoc]
        rfl

/-! ## One level of `setupActive` -/

/-- A call only adds to the two logs and keeps the backing array. -/
structure Grows (before after : Engine) : Prop where
  capacity : after.pendingChunks.cells.length = before.pendingChunks.cells.length
  processed : before.processedChunks <+: after.processedChunks
  closed : before.closedKeys <+: after.closedKeys

theorem Grows.trans {first second third : Engine} (one : Grows first second)
    (two : Grows second third) : Grows first third :=
  ⟨two.capacity.trans one.capacity, one.processed.trans two.processed,
    one.closed.trans two.closed⟩

theorem Replaying.grows {before after : Engine} {handed : List FileChunk}
    (replaying : Replaying before after handed)
    (capacity : after.pendingChunks.cells.length = before.pendingChunks.cells.length) :
    Grows before after :=
  ⟨capacity, replaying.processed ▸ List.prefix_append _ _,
    replaying.closed ▸ List.prefix_refl _⟩

/-- The reassembler `setupActive` creates. -/
def freshReassembler (s : Session) : FileReassembler :=
  newFileReassembler s.sessionId s.filename s.totalSize s.chunkCount s.crc32 s.fragmentSize

theorem length_others_le (key : String) (chunks : List FileChunk) :
    (others key chunks).length ≤ chunks.length :=
  List.length_filter_le _ _

/-- `setupActive` for a session whose staged chunks do not complete it: the
session's chunks are handed over, the others stay in order. -/
theorem setupActiveWith_open {complete : Engine → Bool → Option Engine} {now : Int}
    {e after : Engine} {s : Session} (isActive : e.active = some s)
    (ran : setupActiveWith complete now e = some after)
    (unfinished : splitAtCompletion s.key (freshReassembler s) e.pendingChunks.view = none) :
    Replaying e after (own s.key e.pendingChunks.view) ∧
      after.pendingChunks.view = others s.key e.pendingChunks.view ∧
      after.pendingChunks.cells =
        overwrite e.pendingChunks.cells (others s.key e.pendingChunks.view) := by
  unfold setupActiveWith at ran
  rw [isActive] at ran
  simp only at ran
  split at ran
  · rename_i isEmpty
    cases ran
    have noChunks : e.pendingChunks.view = [] :=
      List.eq_nil_of_length_eq_zero ((Slice.length_view _).trans isEmpty)
    rw [noChunks]
    exact ⟨⟨rfl, rfl, (List.append_nil _).symm, rfl⟩, noChunks, rfl⟩
  · obtain ⟨⟨last, kept⟩, replayed, ran⟩ := Option.bind_eq_some_iff.mp ran
    have spec := replay_spec complete s.key now e.pendingChunks.cells e.pendingChunks.len 0 []
      (e.resetFor s now) (freshReassembler s) (Nat.le_refl 0)
      (by rw [Nat.zero_add]; exact e.pendingChunks.inside) rfl rfl replayed
    have viewEq : (e.pendingChunks.cells.drop 0).take e.pendingChunks.len =
        e.pendingChunks.view := rfl
    simp only [viewEq, unfinished, List.nil_append] at spec
    obtain ⟨passed, rfl⟩ := spec
    obtain ⟨pending, resliced, ran⟩ := Option.bind_eq_some_iff.mp ran
    cases ran
    obtain ⟨cellsEq, shown⟩ := Slice.reslice?_eq_some resliced
    refine ⟨⟨passed.replaying.queue, passed.replaying.active, passed.replaying.processed,
      passed.replaying.closed⟩, shown.trans ?_, cellsEq.trans passed.cells⟩
    rw [passed.cells, take_overwrite]

/-- `setupActive` for a session that a staged chunk completes: the nested call
runs on the array as the loop has left it, and the loop then appends what it
finds in the later cells to the chunks it had kept. -/
theorem setupActiveWith_closing {complete : Engine → Bool → Option Engine} {now : Int}
    {e after : Engine} {s : Session} (isActive : e.active = some s)
    (ran : setupActiveWith complete now e = some after)
    (keeps : ∀ before success next, complete before success = some next → Grows before next)
    {done rest : List FileChunk}
    (finished : splitAtCompletion s.key (freshReassembler s) e.pendingChunks.view =
      some (done, rest)) :
    ∃ reached success next,
      Passed e reached e.pendingChunks.cells (others s.key done) (own s.key done) ∧
      complete reached success = some next ∧ Replaying next after [] ∧
      after.pendingChunks.cells.length = e.pendingChunks.cells.length ∧
      after.pendingChunks.view =
        next.pendingChunks.cells.take (others s.key done).length ++
          (next.pendingChunks.cells.drop done.length).take rest.length := by
  have viewSplit := append_of_splitAtCompletion finished
  have fitsView : done.length + rest.length ≤ e.pendingChunks.cells.length := by
    rw [← List.length_append, ← viewSplit, Slice.length_view]
    exact e.pendingChunks.inside
  unfold setupActiveWith at ran
  rw [isActive] at ran
  simp only at ran
  split at ran
  · rename_i isEmpty
    have noChunks : e.pendingChunks.view = [] :=
      List.eq_nil_of_length_eq_zero ((Slice.length_view _).trans isEmpty)
    rw [noChunks] at finished
    cases finished
  · obtain ⟨⟨last, kept⟩, replayed, ran⟩ := Option.bind_eq_some_iff.mp ran
    have spec := replay_spec complete s.key now e.pendingChunks.cells e.pendingChunks.len 0 []
      (e.resetFor s now) (freshReassembler s) (Nat.le_refl 0)
      (by rw [Nat.zero_add]; exact e.pendingChunks.inside) rfl rfl replayed
    have viewEq : (e.pendingChunks.cells.drop 0).take e.pendingChunks.len =
        e.pendingChunks.view := rfl
    simp only [viewEq, finished, List.nil_append, Nat.zero_add] at spec
    obtain ⟨reached, success, passed, continued⟩ := spec
    obtain ⟨next, completed, continued⟩ := Option.bind_eq_some_iff.mp continued
    have shorter := length_others_le s.key done
    have capacity : next.pendingChunks.cells.length = e.pendingChunks.cells.length := by
      rw [(keeps _ _ _ completed).capacity, passed.cells, length_overwrite (by omega)]
    have keptLength : (next.pendingChunks.cells.take (others s.key done).length).length =
        (others s.key done).length := by
      rw [List.length_take]
      omega
    obtain ⟨moved, movedEq, movedPassed⟩ := replay_completed_spec complete s.key now
      next.pendingChunks.cells rest.length done.length
      (next.pendingChunks.cells.take (others s.key done).length) next (by omega) (by omega)
      (overwrite_take (by omega)).symm
    rw [keptLength, continued] at movedEq
    cases movedEq
    obtain ⟨pending, resliced, ran⟩ := Option.bind_eq_some_iff.mp ran
    cases ran
    obtain ⟨cellsEq, shown⟩ := Slice.reslice?_eq_some resliced
    have finalLength : (next.pendingChunks.cells.take (others s.key done).length ++
        (next.pendingChunks.cells.drop done.length).take rest.length).length =
          (others s.key done).length + rest.length := by
      rw [List.length_append, keptLength, List.length_take, List.length_drop]
      omega
    refine ⟨reached, success, next,
      ⟨⟨passed.replaying.queue, passed.replaying.active, passed.replaying.processed,
        passed.replaying.closed⟩, passed.cells, passed.len⟩, completed,
      ⟨movedPassed.replaying.queue, movedPassed.replaying.active,
        movedPassed.replaying.processed, movedPassed.replaying.closed⟩, ?_, shown.trans ?_⟩
    · rw [cellsEq, movedPassed.cells, length_overwrite (by omega)]
      exact capacity
    · rw [movedPassed.cells, ← finalLength, take_overwrite]

/-- Completing a session keeps the array and only adds to the logs, if the call
it ends in does. -/
theorem completeTransferWith_grows {setup : Engine → Option Engine} {now : Int}
    (keeps : ∀ {before after}, setup before = some after → Grows before after)
    {before next : Engine} {success : Bool}
    (completed : completeTransferWith setup now before success = some next) :
    Grows before next := by
  unfold completeTransferWith at completed
  split at completed
  · cases completed
    exact ⟨rfl, List.prefix_refl _, List.prefix_refl _⟩
  · rename_i s isActive
    obtain ⟨_, _, processed, closed, pending⟩ := closeActive_spec before isActive success now
    refine Grows.trans ⟨?_, ?_, ?_⟩ (keeps completed)
    · rw [pending, Slice.cells_filterInPlace, length_overwrite]
      exact Nat.le_trans (List.length_filter_le _ _)
        ((Slice.length_view _).trans_le before.pendingChunks.inside)
    · rw [processed]
    · rw [closed]
      exact List.prefix_append _ _

/-- Nested calls keep the array and only add to the logs. -/
theorem setupActiveFuel_grows (now : Int) (fuel : Nat) {e after : Engine}
    (ran : setupActiveFuel now fuel e = some after) : Grows e after := by
  induction fuel generalizing e after with
  | zero => cases ran
  | succ fuel inductionHypothesis =>
      have keeps : ∀ before success next,
          completeTransferWith (setupActiveFuel now fuel) now before success = some next →
          Grows before next :=
        fun _ _ _ completed => completeTransferWith_grows inductionHypothesis completed
      rw [setupActiveFuel] at ran
      cases isActive : e.active with
      | none =>
          simp only [setupActiveWith, isActive, Option.some.injEq] at ran
          subst ran
          exact ⟨rfl, List.prefix_refl _, List.prefix_refl _⟩
      | some s =>
          cases finished :
              splitAtCompletion s.key (freshReassembler s) e.pendingChunks.view with
          | none =>
              obtain ⟨replaying, _, cells⟩ := setupActiveWith_open isActive ran finished
              apply replaying.grows
              rw [cells, length_overwrite]
              exact Nat.le_trans (length_others_le _ _)
                ((Slice.length_view _).trans_le e.pendingChunks.inside)
          | some parts =>
              obtain ⟨done, rest⟩ := parts
              obtain ⟨reached, success, next, passed, completed, copied, capacity, _⟩ :=
                setupActiveWith_closing isActive ran keeps finished
              have grown := keeps _ _ _ completed
              refine ⟨capacity, ?_, ?_⟩
              · rw [copied.processed, List.append_nil]
                refine List.IsPrefix.trans ?_ grown.processed
                rw [passed.replaying.processed]
                exact List.prefix_append _ _
              · rw [copied.closed]
                refine List.IsPrefix.trans ?_ grown.closed
                rw [passed.replaying.closed]

theorem setupActive_grows {e after : Engine} {now : Int}
    (ran : e.setupActive now = some after) : Grows e after :=
  setupActiveFuel_grows now _ ran

theorem completeTransfer_grows {before next : Engine} {success : Bool} {now : Int}
    (completed : before.completeTransfer success now = some next) : Grows before next :=
  completeTransferWith_grows setupActive_grows completed

/-! ## Lists of own and other chunks -/

theorem length_own_add_others (key : String) (chunks : List FileChunk) :
    (own key chunks).length + (others key chunks).length = chunks.length := by
  induction chunks with
  | nil => rfl
  | cons c rest inductionHypothesis =>
      by_cases same : c.key = key
      · rw [own_cons_own same, others_cons_own same, List.length_cons, List.length_cons]
        omega
      · rw [own_cons_other same, others_cons_other same, List.length_cons, List.length_cons]
        omega

theorem mem_others {key : String} {chunks : List FileChunk} {c : FileChunk} :
    c ∈ others key chunks ↔ c ∈ chunks ∧ c.key ≠ key := by
  simp [others]

theorem mem_own {key : String} {chunks : List FileChunk} {c : FileChunk} :
    c ∈ own key chunks ↔ c ∈ chunks ∧ c.key = key := by
  simp [own]

theorem others_append (key : String) (first second : List FileChunk) :
    others key (first ++ second) = others key first ++ others key second :=
  List.filter_append ..

theorem others_eq_self {key : String} {chunks : List FileChunk} :
    others key chunks = chunks ↔ ∀ c ∈ chunks, c.key ≠ key := by
  simp [others, List.filter_eq_self]

theorem splitAtCompletion_of_no_own {key : String} {r : FileReassembler}
    {chunks : List FileChunk} (noOwn : ∀ c ∈ chunks, c.key ≠ key) :
    splitAtCompletion key r chunks = none := by
  induction chunks with
  | nil => rfl
  | cons c rest inductionHypothesis =>
      rw [splitAtCompletion, if_neg (noOwn c (by simp)),
        inductionHypothesis fun other member => noOwn other (List.mem_cons_of_mem c member)]
      rfl

/-- The chunk that completes a session is one of the session's own. -/
theorem exists_own_of_splitAtCompletion {key : String} {r : FileReassembler}
    {chunks done left : List FileChunk}
    (split : splitAtCompletion key r chunks = some (done, left)) : ∃ c ∈ done, c.key = key := by
  by_contra none
  push Not at none
  induction chunks generalizing r done with
  | nil => cases split
  | cons c rest inductionHypothesis =>
      have further : ∀ {next : FileReassembler},
          (splitAtCompletion key next rest).map
            (fun (done, left) => (c :: done, left)) = some (done, left) → False := by
        intro next deeper
        obtain ⟨⟨done', left'⟩, found, same⟩ := Option.map_eq_some_iff.mp deeper
        cases same
        exact inductionHypothesis found fun other member =>
          none other (List.mem_cons_of_mem c member)
      rw [splitAtCompletion] at split
      split at split
      · rename_i same
        split at split
        · cases split
        · split at split
          · cases split
            exact none c (by simp) same
          · exact further split
      · exact further split

/-! ## The nested call -/

/-- A call for a session that has nothing staged, or for no session at all,
leaves array and logs alone. -/
theorem setupActive_idle {e after : Engine} {now : Int} (ran : e.setupActive now = some after)
    (nothing : ∀ s, e.active = some s → ∀ c ∈ e.pendingChunks.view, c.key ≠ s.key) :
    after.pendingChunks.cells = e.pendingChunks.cells ∧
      after.processedChunks = e.processedChunks ∧ after.closedKeys = e.closedKeys := by
  rw [setupActive_eq] at ran
  cases isActive : e.active with
  | none =>
      simp only [setupActiveWith, isActive, Option.some.injEq] at ran
      subst ran
      exact ⟨rfl, rfl, rfl⟩
  | some s =>
      have noOwn := nothing s isActive
      obtain ⟨replaying, _, cells⟩ :=
        setupActiveWith_open isActive ran (splitAtCompletion_of_no_own noOwn)
      have ownNil : own s.key e.pendingChunks.view = [] := by
        apply List.eq_nil_iff_forall_not_mem.mpr
        intro c member
        obtain ⟨staged, same⟩ := mem_own.mp member
        exact noOwn c staged same
      refine ⟨?_, ?_, replaying.closed⟩
      · rw [cells, others_eq_self.mpr noOwn]
        exact overwrite_take e.pendingChunks.inside
      · rw [replaying.processed, ownNil, List.append_nil]

/-- A call for a session with a staged chunk hands at least one of them over. -/
theorem setupActive_hands {e after : Engine} {now : Int} (ran : e.setupActive now = some after)
    {s : Session} (isActive : e.active = some s) {c : FileChunk}
    (staged : c ∈ e.pendingChunks.view) (same : c.key = s.key) :
    ∃ handed, e.processedChunks ++ handed <+: after.processedChunks ∧
      ∃ first ∈ handed, first ∈ e.pendingChunks.view ∧ first.key = s.key := by
  rw [setupActive_eq] at ran
  cases finished : splitAtCompletion s.key (freshReassembler s) e.pendingChunks.view with
  | none =>
      obtain ⟨replaying, _, _⟩ := setupActiveWith_open isActive ran finished
      exact ⟨own s.key e.pendingChunks.view, replaying.processed ▸ List.prefix_refl _, c,
        mem_own.mpr ⟨staged, same⟩, staged, same⟩
  | some parts =>
      obtain ⟨done, rest⟩ := parts
      obtain ⟨reached, success, next, passed, completed, copied, _, _⟩ :=
        setupActiveWith_closing isActive ran (fun _ _ _ => completeTransfer_grows) finished
      obtain ⟨first, inDone, firstKey⟩ := exists_own_of_splitAtCompletion finished
      refine ⟨own s.key done, ?_, first, mem_own.mpr ⟨inDone, firstKey⟩, ?_, firstKey⟩
      · rw [copied.processed, List.append_nil, ← passed.replaying.processed]
        exact (completeTransfer_grows completed).processed
      · rw [append_of_splitAtCompletion finished]
        exact List.mem_append_left _ inDone

/-! ## The partition -/

/-- What is left in the staging buffer is exactly what was staged, in order, less
the chunks handed to `processChunk` and those of the sessions closed, and no
chunk is handed over more often than it was staged. -/
def ExactPartition (before after : Engine) : Prop :=
  ∃ handed closed, after.processedChunks = before.processedChunks ++ handed ∧
    after.closedKeys = before.closedKeys ++ closed ∧
    after.pendingChunks.view =
      before.pendingChunks.view.filter (fun c => decide (c ∉ handed ∧ c.key ∉ closed)) ∧
    ∀ c, handed.count c ≤ before.pendingChunks.view.count c

/-- By how many cells the filter of `completeTransfer` moves the cells behind the
completing chunk: the session's own chunks among those the replay has passed but
not overwritten. -/
def gap (key : String) (done : List FileChunk) : Nat :=
  (own key (done.drop (others key done).length)).length

/-- The staged chunks do not complete the active session; or they do, no further
chunk of it is staged, none of the next queued session is, and the chunks behind
the completing one repeat with the period of the gap. -/
def SafeReplay (e : Engine) : Prop :=
  ∀ s, e.active = some s → ∀ done rest,
    splitAtCompletion s.key (freshReassembler s) e.pendingChunks.view = some (done, rest) →
      (∀ c ∈ rest, c.key ≠ s.key) ∧
      (∀ next, e.queue.head? = some next → next.key ≠ s.key →
        ∀ c ∈ e.pendingChunks.view, c.key ≠ next.key) ∧
      rest.drop (gap s.key done) <+: rest

theorem others_others (key : String) (chunks : List FileChunk) :
    others key (others key chunks) = others key chunks :=
  others_eq_self.mpr fun _ member => (mem_others.mp member).2

/-- The staging buffer as `completeTransfer` finds and leaves it when a replayed
chunk completes the session. -/
theorem closing_view {e reached : Engine} {s : Session} {done rest : List FileChunk}
    (isActive : e.active = some s) (success : Bool) (now : Int)
    (viewEq : e.pendingChunks.view = done ++ rest)
    (passed : Passed e reached e.pendingChunks.cells (others s.key done) (own s.key done)) :
    let after := reached.closeActive s success now
    let kept := others s.key done ++ others s.key (done.drop (others s.key done).length)
    after.pendingChunks.view = kept ++ others s.key rest ∧
      after.pendingChunks.cells =
        overwrite e.pendingChunks.cells (kept ++ others s.key rest) := by
  intro after kept
  obtain ⟨_, _, _, _, pending⟩ :=
    closeActive_spec reached (passed.replaying.active.trans isActive) success now
  have shorter := length_others_le s.key done
  have lenEq : e.pendingChunks.len = (others s.key done).length +
      (e.pendingChunks.len - (others s.key done).length) := by
    have total := congrArg List.length viewEq
    rw [Slice.length_view, List.length_append] at total
    omega
  have reachedView : reached.pendingChunks.view =
      others s.key done ++ (done.drop (others s.key done).length ++ rest) := by
    rw [Slice.view, passed.cells, passed.len, lenEq, overwrite, List.take_length_add_append]
    congr 1
    rw [← List.drop_append_of_le_length shorter, ← viewEq, Slice.view, List.drop_take]
  have filtered : others s.key reached.pendingChunks.view = kept ++ others s.key rest := by
    rw [reachedView, others_append, others_append, others_others, List.append_assoc]
  constructor
  · rw [pending, Slice.view_filterInPlace]
    exact filtered
  · rw [pending, Slice.cells_filterInPlace]
    have keptEq : reached.pendingChunks.view.filter (fun c => c.key != s.key) =
        kept ++ others s.key rest := filtered
    rw [keptEq, passed.cells]
    apply overwrite_overwrite
    simp only [kept, List.length_append]
    omega

/-- If the nested call is idle and nothing more of the session is staged, what
remains are the kept chunks and the later ones as the moved array shows them. -/
theorem closing_remainder {e : Engine} {key : String} {done rest : List FileChunk}
    (viewEq : e.pendingChunks.view = done ++ rest) (noOwn : others key rest = rest) :
    let cells := overwrite e.pendingChunks.cells
      (others key done ++ others key (done.drop (others key done).length) ++ others key rest)
    cells.take (others key done).length ++ (cells.drop done.length).take rest.length =
      others key done ++ (rest.drop (gap key done) ++ rest.drop (rest.length - gap key done)) := by
  intro cells
  have shows : e.pendingChunks.cells.take (done.length + rest.length) = done ++ rest := by
    rw [← viewEq, Slice.view, ← List.length_append, ← viewEq, Slice.length_view]
  have shorter : (others key done ++
      others key (done.drop (others key done).length)).length + gap key done =
        done.length := by
    have parts := length_own_add_others key (done.drop (others key done).length)
    have bound := length_others_le key done
    rw [List.length_drop] at parts
    rw [List.length_append, gap]
    omega
  have front : cells.take (others key done).length = others key done := by
    simp only [cells, overwrite, List.append_assoc]
    rw [List.take_left]
  rw [front]
  congr 1
  simp only [cells, noOwn]
  exact reread_overwrite shows shorter

/-- A call whose replay completes the active session behind `done`: the engine
`nested` that the inner call starts from, the engine `next` it ends in, and the
result in terms of the array the inner call leaves. -/
structure Closing (e after : Engine) (now : Int) (s : Session) (done rest : List FileChunk)
    (nested next : Engine) : Prop where
  ran : nested.setupActive now = some next
  active : nested.active =
    e.queue.head?.map fun waiting => { waiting with startedAt := now }
  processed : nested.processedChunks = e.processedChunks ++ own s.key done
  closed : nested.closedKeys = e.closedKeys ++ [s.key]
  view : nested.pendingChunks.view =
    others s.key done ++ others s.key (done.drop (others s.key done).length) ++
      others s.key rest
  cells : nested.pendingChunks.cells = overwrite e.pendingChunks.cells
    (others s.key done ++ others s.key (done.drop (others s.key done).length) ++
      others s.key rest)
  capacity : next.pendingChunks.cells.length = e.pendingChunks.cells.length
  processedAfter : after.processedChunks = next.processedChunks
  closedAfter : after.closedKeys = next.closedKeys
  viewAfter : after.pendingChunks.view =
    next.pendingChunks.cells.take (others s.key done).length ++
      (next.pendingChunks.cells.drop done.length).take rest.length

theorem setupActive_closing {e after : Engine} {now : Int} {s : Session}
    (ran : e.setupActive now = some after) (isActive : e.active = some s)
    {done rest : List FileChunk}
    (finished : splitAtCompletion s.key (freshReassembler s) e.pendingChunks.view =
      some (done, rest)) :
    ∃ nested next, Closing e after now s done rest nested next := by
  rw [setupActive_eq] at ran
  obtain ⟨reached, success, next, passed, completed, copied, _, viewAfter⟩ :=
    setupActiveWith_closing isActive ran (fun _ _ _ => completeTransfer_grows) finished
  have reachedActive : reached.active = some s := passed.replaying.active.trans isActive
  obtain ⟨_, activeEq, processed, closed, _⟩ :=
    closeActive_spec reached reachedActive success now
  obtain ⟨viewEq, cellsEq⟩ := closing_view isActive success now
    (append_of_splitAtCompletion finished) passed
  have nestedRan : (reached.closeActive s success now).setupActive now = some next := by
    simpa [completeTransfer, completeTransferWith, reachedActive] using completed
  refine ⟨reached.closeActive s success now, next, nestedRan, ?_, ?_, ?_, viewEq, cellsEq, ?_,
    ?_, copied.closed, viewAfter⟩
  · rw [activeEq, passed.replaying.queue]
  · rw [processed, passed.replaying.processed]
  · rw [closed, passed.replaying.closed]
  · rw [(completeTransfer_grows completed).capacity, passed.cells, length_overwrite]
    refine Nat.le_trans (length_others_le s.key done) ?_
    refine Nat.le_trans ?_ ((Slice.length_view _).trans_le e.pendingChunks.inside)
    rw [append_of_splitAtCompletion finished, List.length_append]
    exact Nat.le_add_right _ _
  · rw [copied.processed, List.append_nil]

namespace Closing

variable {e after nested next : Engine} {now : Int} {s : Session} {done rest : List FileChunk}

/-- The inner call sees staged chunks of other sessions only. -/
theorem mem_staged (closing : Closing e after now s done rest nested next)
    (viewEq : e.pendingChunks.view = done ++ rest) {c : FileChunk}
    (member : c ∈ nested.pendingChunks.view) :
    c ∈ e.pendingChunks.view ∧ c.key ≠ s.key := by
  rw [closing.view, List.mem_append, List.mem_append] at member
  rw [viewEq]
  rcases member with (kept | moved) | later
  · obtain ⟨inDone, other⟩ := mem_others.mp kept
    exact ⟨List.mem_append_left _ inDone, other⟩
  · obtain ⟨inDrop, other⟩ := mem_others.mp moved
    exact ⟨List.mem_append_left _ (List.mem_of_mem_drop inDrop), other⟩
  · obtain ⟨inRest, other⟩ := mem_others.mp later
    exact ⟨List.mem_append_right _ inRest, other⟩

/-- With nothing more of the session and nothing of the next one staged, the
inner call is idle. -/
theorem idle (closing : Closing e after now s done rest nested next)
    (viewEq : e.pendingChunks.view = done ++ rest)
    (noNext : ∀ waiting, e.queue.head? = some waiting → waiting.key ≠ s.key →
      ∀ c ∈ e.pendingChunks.view, c.key ≠ waiting.key) :
    next.pendingChunks.cells = nested.pendingChunks.cells ∧
      next.processedChunks = nested.processedChunks ∧ next.closedKeys = nested.closedKeys := by
  apply setupActive_idle closing.ran
  intro started isStarted c member same
  rw [closing.active] at isStarted
  obtain ⟨waiting, isWaiting, rfl⟩ := Option.map_eq_some_iff.mp isStarted
  have same : c.key = waiting.key := same
  have staged := closing.mem_staged viewEq member
  exact noNext waiting isWaiting (same ▸ staged.2) c staged.1 same

/-- Then the remainder is the kept chunks followed by the later ones, shifted. -/
theorem view_of_idle (closing : Closing e after now s done rest nested next)
    (viewEq : e.pendingChunks.view = done ++ rest)
    (noOwn : ∀ c ∈ rest, c.key ≠ s.key)
    (noNext : ∀ waiting, e.queue.head? = some waiting → waiting.key ≠ s.key →
      ∀ c ∈ e.pendingChunks.view, c.key ≠ waiting.key) :
    after.pendingChunks.view = others s.key done ++
      (rest.drop (gap s.key done) ++ rest.drop (rest.length - gap s.key done)) := by
  rw [closing.viewAfter, (closing.idle viewEq noNext).1, closing.cells]
  exact closing_remainder viewEq (others_eq_self.mpr noOwn)

/-- Whatever the inner call does, as many chunks remain as were kept or lie
behind the completing one. -/
theorem length_view (closing : Closing e after now s done rest nested next)
    (viewEq : e.pendingChunks.view = done ++ rest) :
    after.pendingChunks.view.length = (others s.key done).length + rest.length := by
  have fits : done.length + rest.length ≤ e.pendingChunks.cells.length := by
    rw [← List.length_append, ← viewEq, Slice.length_view]
    exact e.pendingChunks.inside
  have shorter := length_others_le s.key done
  have capacity := closing.capacity
  rw [closing.viewAfter, List.length_append, List.length_take, List.length_take,
    List.length_drop]
  omega

end Closing

/-- Taking out the session's own chunks, by handing them over or by closing it. -/
theorem filter_eq_others {key : String} {chunks handed : List FileChunk} {closed : List String}
    (handedOwn : ∀ c ∈ handed, c.key = key) (closedOwn : ∀ k ∈ closed, k = key)
    (covers : ∀ c ∈ chunks, c.key = key → c ∈ handed ∨ c.key ∈ closed) :
    chunks.filter (fun c => decide (c ∉ handed ∧ c.key ∉ closed)) = others key chunks := by
  apply List.filter_congr
  intro c member
  by_cases same : c.key = key
  · have taken := covers c member same
    simp only [same] at taken
    simp only [same, bne_self_eq_false, decide_eq_false_iff_not, not_and_or, not_not]
    exact taken
  · have notHanded : c ∉ handed := fun inHanded => same (handedOwn c inHanded)
    have notClosed : c.key ∉ closed := fun inClosed => same (closedOwn _ inClosed)
    simp [same, notHanded, notClosed]

theorem partition_of_safe {e after : Engine} {now : Int}
    (ran : e.setupActive now = some after) (safe : SafeReplay e) : ExactPartition e after := by
  cases isActive : e.active with
  | none =>
      rw [setupActive_eq] at ran
      simp only [setupActiveWith, isActive, Option.some.injEq] at ran
      subst ran
      refine ⟨[], [], (List.append_nil _).symm, (List.append_nil _).symm, ?_, by simp⟩
      simp
  | some s =>
      cases finished : splitAtCompletion s.key (freshReassembler s) e.pendingChunks.view with
      | none =>
          rw [setupActive_eq] at ran
          obtain ⟨replaying, viewEq, _⟩ := setupActiveWith_open isActive ran finished
          refine ⟨own s.key e.pendingChunks.view, [], replaying.processed, ?_, ?_, ?_⟩
          · rw [replaying.closed, List.append_nil]
          · rw [viewEq]
            refine (filter_eq_others (fun c member => (mem_own.mp member).2) (by simp) ?_).symm
            intro c staged same
            exact .inl (mem_own.mpr ⟨staged, same⟩)
          · intro c
            exact List.filter_sublist.count_le c
      | some parts =>
          obtain ⟨done, rest⟩ := parts
          obtain ⟨noOwn, noNext, periodic⟩ := safe s isActive done rest finished
          have viewEq := append_of_splitAtCompletion finished
          obtain ⟨nested, next, closing⟩ := setupActive_closing ran isActive finished
          obtain ⟨_, processed, closed⟩ := closing.idle viewEq noNext
          have shifted : rest.drop (gap s.key done) ++
              rest.drop (rest.length - gap s.key done) = rest := by
            have aligned := List.prefix_iff_eq_append.mp periodic
            rwa [List.length_drop] at aligned
          refine ⟨own s.key done, [s.key], ?_, ?_, ?_, ?_⟩
          · rw [closing.processedAfter, processed, closing.processed]
          · rw [closing.closedAfter, closed, closing.closed]
          · rw [closing.view_of_idle viewEq noOwn noNext, shifted,
              filter_eq_others (fun c member => (mem_own.mp member).2) (by simp)
                (fun c _ same => .inr (List.mem_singleton.mpr same)),
              viewEq, others_append, others_eq_self.mpr noOwn]
          · intro c
            rw [viewEq, List.count_append]
            exact Nat.le_trans (List.filter_sublist.count_le c) (Nat.le_add_right _ _)

theorem safe_of_partition {e after : Engine} {now : Int}
    (ran : e.setupActive now = some after) (partition : ExactPartition e after) :
    SafeReplay e := by
  intro s isActive done rest finished
  have viewEq := append_of_splitAtCompletion finished
  obtain ⟨nested, next, closing⟩ := setupActive_closing ran isActive finished
  obtain ⟨handed, closed, processedAfter, closedAfter, remainder, _⟩ := partition
  have closedOwn : s.key ∈ closed := by
    have grown := (setupActive_grows closing.ran).closed
    rw [← closing.closedAfter, closedAfter, closing.closed] at grown
    have inClosed := (List.prefix_append_right_inj _).mp grown
    exact inClosed.subset (List.mem_singleton.mpr rfl)
  -- Only chunks of other sessions can remain, and too many cells remain for one
  -- of them to be missing.
  have withinOthers : e.pendingChunks.view.filter
      (fun c => decide (c ∉ handed ∧ c.key ∉ closed)) =
        (others s.key e.pendingChunks.view).filter
          (fun c => decide (c ∉ handed ∧ c.key ∉ closed)) := by
    rw [others, List.filter_filter]
    apply List.filter_congr
    intro c _
    by_cases same : c.key = s.key
    · simp [same, closedOwn]
    · simp [same]
  have lengths := closing.length_view viewEq
  rw [remainder, withinOthers, viewEq, others_append] at lengths
  have filteredLe := List.length_filter_le
    (fun c => decide (c ∉ handed ∧ c.key ∉ closed)) (others s.key done ++ others s.key rest)
  have restLe := length_others_le s.key rest
  rw [List.length_append] at filteredLe
  have allRest : others s.key rest = rest := by
    apply List.filter_sublist.eq_of_length
    show (others s.key rest).length = rest.length
    omega
  have noOwn := others_eq_self.mp allRest
  have allKept : (others s.key done ++ others s.key rest).filter
      (fun c => decide (c ∉ handed ∧ c.key ∉ closed)) =
        others s.key done ++ others s.key rest := by
    apply List.filter_sublist.eq_of_length
    rw [lengths, List.length_append, allRest]
  have untouched : ∀ c ∈ e.pendingChunks.view, c.key ≠ s.key → c ∉ handed := by
    intro c staged other
    have kept : c ∈ others s.key done ++ others s.key rest := by
      rw [← others_append, ← viewEq]
      exact mem_others.mpr ⟨staged, other⟩
    have allowed := List.filter_eq_self.mp allKept c kept
    exact (of_decide_eq_true allowed).1
  have noNext : ∀ waiting, e.queue.head? = some waiting → waiting.key ≠ s.key →
      ∀ c ∈ e.pendingChunks.view, c.key ≠ waiting.key := by
    intro waiting isWaiting differs c staged same
    have other : c.key ≠ s.key := same ▸ differs
    have kept : c ∈ nested.pendingChunks.view := by
      rw [viewEq] at staged
      rw [closing.view]
      rcases List.mem_append.mp staged with inDone | inRest
      · exact List.mem_append_left _
          (List.mem_append_left _ (mem_others.mpr ⟨inDone, other⟩))
      · exact List.mem_append_right _ (mem_others.mpr ⟨inRest, other⟩)
    have nestedActive : nested.active = some { waiting with startedAt := now } := by
      rw [closing.active, isWaiting]
      rfl
    obtain ⟨taken, grown, first, inTaken, inView, firstKey⟩ :=
      setupActive_hands closing.ran nestedActive kept same
    have inHanded : first ∈ handed := by
      rw [closing.processed, ← closing.processedAfter, processedAfter,
        List.append_assoc] at grown
      have within := (List.prefix_append_right_inj _).mp grown
      exact within.subset (List.mem_append_right _ inTaken)
    have firstStaged := (closing.mem_staged viewEq inView).1
    have firstKey : first.key = waiting.key := firstKey
    exact untouched first firstStaged (firstKey ▸ differs) inHanded
  refine ⟨noOwn, noNext, ?_⟩
  have idleView := closing.view_of_idle viewEq noOwn noNext
  rw [remainder, withinOthers, viewEq, others_append, allKept, allRest] at idleView
  exact ⟨_, (List.append_cancel_left idleView).symm⟩

/-- For every staging buffer, active session and queue: a call of `setupActive`
that does not panic, nested calls included, partitions the staged chunks exactly
if and only if the replay is safe. -/
theorem setupActive_partition_iff (e after : Engine) (now : Int)
    (ran : e.setupActive now = some after) : ExactPartition e after ↔ SafeReplay e :=
  ⟨safe_of_partition ran, partition_of_safe ran⟩

/-- The only chunk of a one-byte file. -/
def onlyChunk (sessionId : Nat) : FileChunk where
  nodeId := "0001"
  sessionId := sessionId
  seqNum := 0
  data := [7]

/-- The session of such a file. -/
def oneByteSession (sessionId : Nat) : Session where
  sessionId := toString sessionId
  nodeId := "0001"
  filename := "f"
  totalSize := 1
  chunkCount := 1
  crc32 := (crc32ChecksumIeee [7]).toNat
  fragmentSize := 1
  exitNodes := {"0001"}

/-- Session 1 has just become active with the given chunks staged. -/
def staged (sessionIds : List Nat) : Engine where
  srWindow := 64
  srTimeout := 5
  active := some (oneByteSession 1)
  pendingChunks := ⟨sessionIds.map onlyChunk, sessionIds.length, by simp⟩

/-- With one chunk of another session behind the completing one the gap is wide
enough. -/
theorem setupActive_partition_iff_two_staged :
    ∃ after, (staged [1, 2]).setupActive 0 = some after ∧
      (ExactPartition (staged [1, 2]) after ↔ SafeReplay (staged [1, 2])) := by
  have runs : ((staged [1, 2]).setupActive 0).isSome = true := by decide +kernel
  obtain ⟨after, ran⟩ := Option.isSome_iff_exists.mp runs
  exact ⟨after, ran, setupActive_partition_iff (staged [1, 2]) after 0 ran⟩

/-- Chunks of the sessions 1, 2 and 3 are staged and the first completes session
1: the chunk of session 2 is lost and that of session 3 is kept twice. -/
theorem setupActive_loses_staged_chunk :
    ∃ after, (staged [1, 2, 3]).setupActive 0 = some after ∧
      after.processedChunks = [onlyChunk 1] ∧
      after.pendingChunks.view = [onlyChunk 3, onlyChunk 3] ∧
      ¬ ExactPartition (staged [1, 2, 3]) after := by
  have observed : ((staged [1, 2, 3]).setupActive 0).map
      (fun after => (after.processedChunks, after.pendingChunks.view)) =
        some ([onlyChunk 1], [onlyChunk 3, onlyChunk 3]) := by
    decide +kernel
  obtain ⟨after, ran, seen⟩ := Option.map_eq_some_iff.mp observed
  simp only [Prod.mk.injEq] at seen
  refine ⟨after, ran, seen.1, seen.2, ?_⟩
  rintro ⟨handed, closed, _, _, remainder, _⟩
  have sublist : [onlyChunk 3, onlyChunk 3].Sublist [onlyChunk 1, onlyChunk 2, onlyChunk 3] := by
    rw [← seen.2, remainder]
    exact List.filter_sublist
  have notSublist :
      ¬ [onlyChunk 3, onlyChunk 3].Sublist [onlyChunk 1, onlyChunk 2, onlyChunk 3] := by
    decide
  exact notSublist sublist

end Engine

end ForestLink.Cloud
