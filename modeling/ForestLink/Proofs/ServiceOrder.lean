/-
Module: ForestLink.Proofs.ServiceOrder
Purpose: The order in which the cloud serves its sessions: one at a time, each one closed
  under its own key before the next one starts, and in the order in which they were queued.
Trusted boundary: none
Main exports: Serves, Engine.tickets, Engine.Orderly, Engine.Orderly.handle,
  Engine.sessions_served_in_order
-/
import ForestLink.Proofs.SavedUploads
import ForestLink.Proofs.SuccessRest

namespace ForestLink.Cloud

open ForestLink.Lib

/-! ## The life of a session in the trace -/

/-- A session starts, its file is saved or not, and it is closed. -/
def EngineEvent.isService : EngineEvent → Bool
  | .started _ | .save _ _ _ | .closed _ _ => true
  | _ => false

/-- The service notes of an engine, and the transfer that it serves behind them. -/
inductive Serves : List EngineEvent → Option FileMeta → Prop
  | idle : Serves [] none
  | start {notes : List EngineEvent} {s : Session} (waits : Serves notes none) :
      Serves (notes ++ [.started s]) (some s.toMeta)
  | succeed {notes : List EngineEvent} {m : FileMeta} {content : List UInt8}
      (serves : Serves notes (some m)) :
      Serves (notes ++ [.save m.nodeId m.filename content, .closed m.key true]) none
  | giveUp {notes : List EngineEvent} {m : FileMeta} (serves : Serves notes (some m)) :
      Serves (notes ++ [.closed m.key false]) none

namespace Engine

variable {e after : Engine} {m : FileMeta} {s : Session} {now : Int}
  {order : List (String × String)}

/-- The transfer of a `started` note. -/
def startedPair? : EngineEvent → Option (String × String)
  | .started s => some s.pair
  | _ => none

/-- The transfers that have been taken up, in order: those started and those that wait. -/
def tickets (e : Engine) : List (String × String) :=
  e.trace.filterMap startedPair? ++ e.queue.map Session.pair

/-- The transfers have been taken up in this order, and served one at a time. -/
structure Orderly (order : List (String × String)) (e : Engine) : Prop where
  tickets : e.tickets = order
  serves : Serves (e.trace.filter EngineEvent.isService) (e.active.map Session.toMeta)

/-- A note that says nothing about the service. -/
theorem filter_isService_quiet {notes : List EngineEvent}
    (quiet : ∀ note ∈ notes, EngineEvent.isService note = false) :
    notes.filter EngineEvent.isService = [] ∧ notes.filterMap startedPair? = [] := by
  constructor
  · rw [List.filter_eq_nil_iff]
    intro note member
    rw [quiet note member]
    exact Bool.false_ne_true
  · rw [List.filterMap_eq_nil_iff]
    intro note member
    have here := quiet note member
    cases note <;> first | rfl | cases here

/-- A step that keeps the transfers where they are and serves none of them. -/
theorem Orderly.quiet (orderly : Orderly order e) (transfers : SameTransfers e after)
    {notes : List EngineEvent} (trace : after.trace = e.trace ++ notes)
    (quiet : ∀ note ∈ notes, EngineEvent.isService note = false) : Orderly order after := by
  obtain ⟨noService, noStart⟩ := filter_isService_quiet quiet
  have pairs : after.queue.map Session.pair = e.queue.map Session.pair := by
    have same := congrArg (List.map FileMeta.pair) transfers.queue
    rw [List.map_map, List.map_map] at same
    exact same
  constructor
  · rw [← orderly.tickets]
    unfold Engine.tickets
    rw [trace, List.filterMap_append, noStart, List.append_nil, pairs]
  · rw [trace, List.filter_append, noService, List.append_nil, transfers.active]
    exact orderly.serves

/-- The notes of `processChunk` that are about the service: the save of a completed file. -/
theorem processChunk_service {c : FileChunk} {finished success : Bool}
    (isActive : e.active = some s)
    (ran : e.processChunk c now = some (after, finished, success)) :
    ∃ content, after.trace.filter EngineEvent.isService =
        e.trace.filter EngineEvent.isService ++
          (if success then [.save s.nodeId s.filename content] else []) ∧
      after.trace.filterMap startedPair? = e.trace.filterMap startedPair? := by
  obtain ⟨s', next, acks, isActive', _, traceEq⟩ := processChunk_trace ran
  cases isActive.symm.trans isActive'
  unfold processedNotes at traceEq
  have quietAcks : ∀ note ∈ acks.map (EngineEvent.ack s.sessionId),
      EngineEvent.isService note = false := by
    intro note member
    obtain ⟨seq, _, rfl⟩ := List.mem_map.mp member
    rfl
  obtain ⟨noService, noStart⟩ := filter_isService_quiet quietAcks
  refine ⟨next.buffer.take next.totalSize, ?_, ?_⟩
  · rw [traceEq, List.filter_append, List.filter_cons_of_neg Bool.false_ne_true,
      List.filter_append, noService]
    cases success <;> rfl
  · rw [traceEq, List.filterMap_append, List.filterMap_cons, List.filterMap_append, noStart]
    cases success <;> exact List.append_nil _

/-- Closing the session that has been served, and starting the next one. -/
theorem orderly_closeActive (isActive : e.active = some s) {success : Bool} {now : Int}
    (tickets : e.tickets = order)
    (serves : Serves (e.trace.filter EngineEvent.isService ++ [.closed s.key success]) none) :
    Orderly order (e.closeActive s success now) := by
  obtain ⟨_, _, nacks, closed⟩ := closeActive_cases e isActive success now
  have quietRecord : ∀ note ∈ (if success then [EngineEvent.transferComplete s.sessionId,
      .record { s with completedAt := now } nacks] else []),
      EngineEvent.isService note = false := by
    intro note member
    cases success with
    | false => cases member
    | true =>
        rcases List.mem_cons.mp member with rfl | member
        · rfl
        · rw [List.mem_singleton.mp member]
          rfl
  obtain ⟨noService, noStart⟩ := filter_isService_quiet quietRecord
  rw [closed.afterEq]
  constructor
  · rw [← tickets]
    unfold Engine.tickets
    dsimp only
    rw [List.filterMap_append, List.filterMap_append, List.filterMap_append, noStart]
    simp only [List.append_assoc]
    cases e.queue <;> rfl
  · dsimp only
    rw [List.filter_append, List.filter_append, List.filter_append, noService, List.nil_append]
    cases e.queue with
    | nil =>
        simp only [List.head?_nil, Option.toList_none, List.map_nil, List.flatten_nil,
          List.filter_nil, List.append_nil, Option.map_none]
        exact serves
    | cons next rest =>
        have begun := Serves.start (s := { next with startedAt := now }) serves
        rw [List.append_assoc] at begun
        exact begun

/-- The session is given up. -/
theorem Orderly.giveUp (orderly : Orderly order e) (isActive : e.active = some s) (now : Int) :
    Orderly order (e.closeActive s false now) := by
  apply orderly_closeActive isActive orderly.tickets
  have serves := orderly.serves
  rw [isActive] at serves
  exact serves.giveUp

theorem Orderly.processChunk (orderly : Orderly order e) {c : FileChunk} {success : Bool}
    (ran : e.processChunk c now = some (after, false, success)) : Orderly order after := by
  obtain ⟨s, r, next, sr, isNew, notes, processed⟩ := processChunk_cases ran
  have unsaved : success = false := by
    rw [processed.successEq, ← processed.finishedEq, Bool.false_and]
  obtain ⟨content, service, starts⟩ := processChunk_service processed.isActive ran
  obtain ⟨same, _⟩ := processChunk_spec ran
  rw [unsaved, if_neg Bool.false_ne_true, List.append_nil] at service
  constructor
  · rw [← orderly.tickets]
    unfold Engine.tickets
    rw [starts, same.queue]
  · rw [service, same.active]
    exact orderly.serves

/-- The chunk that completes the file of a session closes it, with the file saved or not. -/
theorem Orderly.complete (orderly : Orderly order e) {c : FileChunk} {success : Bool}
    (isActive : e.active = some s)
    (ran : e.processChunk c now = some (after, true, success)) :
    Orderly order (after.closeActive s success now) := by
  obtain ⟨content, service, starts⟩ := processChunk_service isActive ran
  obtain ⟨same, _⟩ := processChunk_spec ran
  have serves := orderly.serves
  rw [isActive] at serves
  apply orderly_closeActive (same.active.trans isActive)
  · rw [← orderly.tickets]
    unfold Engine.tickets
    rw [starts, same.queue]
  · rw [service, List.append_assoc]
    cases success with
    | false => exact serves.giveUp
    | true => exact serves.succeed

theorem orderlyRule (order : List (String × String)) (now : Int) (staged : List FileChunk) :
    SetupRule now staged (Orderly order) (Orderly order) where
  pending := fun _ holds => ⟨holds.tickets, holds.serves⟩
  idle := fun holds _ => ⟨holds.tickets, holds.serves⟩
  reset := fun holds _ => ⟨holds.tickets, holds.serves⟩
  chunk := fun holds _ _ _ ran => holds.processChunk ran
  close := fun holds isActive _ _ ran => holds.complete isActive ran

theorem Orderly.completeTransfer (orderly : Orderly order e)
    (ran : e.completeTransfer false now = some after) : Orderly order after := by
  cases isActive : e.active with
  | none =>
      unfold Engine.completeTransfer completeTransferWith at ran
      rw [isActive] at ran
      cases ran
      exact orderly
  | some s =>
      exact (orderlyRule order now e.pendingChunks.view).completeTransfer isActive
        (orderly.giveUp isActive now) (fun _ => id) ran

/-! ## The handlers -/

/-- A message adds at most its own transfer, at the end. -/
theorem Orderly.enqueueAndSetUp (orderly : Orderly order e) (consistent : Consistent e)
    (ran : e.enqueueAndSetUp m now = some after) :
    ∃ added, Orderly (order ++ added) after ∧ (added = [] ∨ added = [m.pair]) := by
  obtain ⟨stamps, queued, queuedEq, outcome⟩ := enqueueAndSetUp_cases ran
  have setUp : ∀ {order}, Orderly order queued → Orderly order after := by
    intro order before
    rcases outcome with ⟨_, _, ran⟩ | ⟨_, rfl⟩
    · exact (orderlyRule order now queued.pendingChunks.view).setupActive before
        (fun _ => id) ran
    · exact before
  rcases enqueue_cases e m now consistent.toBare with
    ⟨active, queue, merged, same⟩ | ⟨isActive, _, appended⟩ | ⟨isNone, started⟩
  · refine ⟨[], setUp ?_, .inl rfl⟩
    rw [merged] at queuedEq same
    rw [queuedEq, List.append_nil]
    have silent : ∀ note ∈ ([] : List EngineEvent), EngineEvent.isService note = false :=
      fun _ none => absurd none List.not_mem_nil
    exact orderly.quiet ⟨same.active, same.queue⟩ (List.append_nil _).symm silent
  · refine ⟨[m.pair], setUp ?_, .inr rfl⟩
    rw [appended] at queuedEq
    rw [queuedEq]
    refine ⟨?_, orderly.serves⟩
    rw [← orderly.tickets]
    unfold Engine.tickets
    rw [List.append_assoc, List.map_append]
    rfl
  · refine ⟨[m.pair], setUp ?_, .inr rfl⟩
    rw [started] at queuedEq
    rw [queuedEq]
    have serves := orderly.serves
    rw [isNone] at serves
    constructor
    · rw [← orderly.tickets]
      unfold Engine.tickets
      rw [consistent.idle isNone, List.filterMap_append, List.map_nil, List.append_nil,
        List.append_nil]
      rfl
    · dsimp only
      rw [List.filter_append]
      exact serves.start

theorem Orderly.onMeta (orderly : Orderly order e) (consistent : Consistent e)
    (ran : e.onMeta m now = some after) :
    ∃ added, Orderly (order ++ added) after ∧ (added = [] ∨ added = [m.pair]) := by
  have same : ∀ {other : Engine}, other.tickets = e.tickets → other.trace = e.trace →
      other.active = e.active → ∃ added, Orderly (order ++ added) other ∧
        (added = [] ∨ added = [m.pair]) := by
    intro other tickets trace active
    refine ⟨[], ⟨?_, ?_⟩, .inl rfl⟩
    · rw [tickets, orderly.tickets, List.append_nil]
    · rw [trace, active]
      exact orderly.serves
  rcases onMeta_cases ran with ⟨rfl, _⟩ | ⟨_, ⟨stamps, rfl⟩ | ⟨ready, isReady, ran⟩⟩
  · exact same rfl rfl rfl
  · exact same rfl rfl rfl
  have before := consistent.ready isReady
  cases isReady with
  | asItWas stamps =>
      have stamped : Orderly order { e.forget m with activeMetaLastSeen := stamps } :=
        ⟨orderly.tickets, orderly.serves⟩
      exact stamped.enqueueAndSetUp before ran
  | superseding _ aborted =>
      have forgotten : Orderly order (e.forget m) := ⟨orderly.tickets, orderly.serves⟩
      exact (forgotten.completeTransfer aborted).enqueueAndSetUp before ran

theorem Orderly.onChunk (orderly : Orderly order e) {c : FileChunk}
    (ran : e.onChunk c now = some after) : Orderly order after := by
  rcases onChunk_cases ran with ⟨sessions, pending, rfl⟩ |
    ⟨s, sessions, next, finished, success, isActive, own, processed, ran⟩
  · exact ⟨orderly.tickets, orderly.serves⟩
  have cleared : Orderly order { e with recentlyCompletedSession := sessions } :=
    ⟨orderly.tickets, orderly.serves⟩
  obtain ⟨same, _⟩ := processChunk_spec processed
  cases finished with
  | false =>
      cases ran
      exact cleared.processChunk processed
  | true =>
      exact (orderlyRule order now next.pendingChunks.view).completeTransfer
        (same.active.trans isActive) (cleared.complete isActive processed) (fun _ => id) ran

theorem Orderly.onTick (orderly : Orderly order e) (consistent : Consistent e)
    (ran : e.onTick now = some after) : Orderly order after := by
  have expired : Consistent (e.expire now) := ⟨⟨consistent.distinct, consistent.idle⟩,
    consistent.srNone, consistent.reassemblerNone, consistent.created⟩
  have expiredOrderly : Orderly order (e.expire now) := ⟨orderly.tickets, orderly.serves⟩
  rw [onTick_eq] at ran
  obtain ⟨next, timed, ran⟩ := Option.bind_eq_some_iff.mp ran
  obtain ⟨stalled, nacked, dropped⟩ := Option.bind_eq_some_iff.mp ran
  have passive := timeoutTick_passive (e.expire now) now
  obtain ⟨_, nacks, nackTrace, allNacks⟩ := timeoutTick_notes (e.expire now) now
  have quiet : Orderly order ((e.expire now).timeoutTick now) :=
    expiredOrderly.quiet passive.sameTransfers nackTrace fun note member => by
      obtain ⟨_, _, rfl⟩ := allNacks note member
      rfl
  have before : Orderly order next ∧ Consistent next := by
    split at timed
    · exact ⟨quiet.completeTransfer timed,
        (passive.consistent expired).completeTransfer timed⟩
    · cases timed
      exact ⟨quiet, passive.consistent expired⟩
  obtain ⟨after', ran', _, notes, traceEq, all⟩ := stallTick_total before.2 now
  cases nacked.symm.trans ran'
  have waited : Orderly order stalled := before.1.quiet (stallTick_passive nacked).sameTransfers
    traceEq fun note member => by
      obtain ⟨_, _, rfl⟩ := all note member
      rfl
  obtain ⟨pending, dropEq, _⟩ := dropOrphans_total stalled now
  cases dropped.symm.trans dropEq
  exact ⟨waited.tickets, waited.serves⟩

theorem Orderly.handle (orderly : Orderly order e) (consistent : Consistent e) {event : Event}
    (ran : e.handle event now = some after) : ∃ added, Orderly (order ++ added) after := by
  cases event with
  | file m =>
      obtain ⟨added, behind, _⟩ := orderly.onMeta consistent ran
      exact ⟨added, behind⟩
  | chunk c => exact ⟨[], (List.append_nil order).symm ▸ orderly.onChunk ran⟩
  | tick => exact ⟨[], (List.append_nil order).symm ▸ orderly.onTick consistent ran⟩

theorem Orderly.run (orderly : Orderly order e) (consistent : Consistent e)
    {turns : List (Event × Int)} (ran : e.run turns = some after) :
    ∃ added, Orderly (order ++ added) after := by
  induction turns generalizing e order with
  | nil =>
      cases ran
      exact ⟨[], (List.append_nil order).symm ▸ orderly⟩
  | cons turn rest inductionHypothesis =>
      obtain ⟨next, handled, ran⟩ := Option.bind_eq_some_iff.mp ran
      obtain ⟨first, behind⟩ := orderly.handle consistent handled
      obtain ⟨second, last⟩ := inductionHypothesis behind (consistent.handle handled) ran
      exact ⟨first ++ second, List.append_assoc order first second ▸ last⟩

theorem orderly_newEngine (srWindow srTimeout : Nat) :
    Orderly [] (newEngine srWindow srTimeout) := ⟨rfl, Serves.idle⟩

/-- Along every run sessions are served one at a time, each one is closed under its own key,
with its file saved before a success and only there, and the transfers that wait in the queue
start next, in their order, before any transfer that is taken up later.  None waits while the
engine is idle. -/
theorem sessions_served_in_order (srWindow srTimeout : Nat) (turns more : List (Event × Int))
    {e after : Engine} (reached : (newEngine srWindow srTimeout).run turns = some e)
    (ran : e.run more = some after) :
    Serves (after.trace.filter EngineEvent.isService) (after.active.map Session.toMeta) ∧
      (after.active = none → after.queue = []) ∧
      e.trace.filterMap startedPair? ++ e.queue.map Session.pair <+:
        after.trace.filterMap startedPair? ++ after.queue.map Session.pair := by
  have start := consistent_newEngine srWindow srTimeout
  have consistent := start.run reached
  obtain ⟨order, orderly⟩ := (orderly_newEngine srWindow srTimeout).run start reached
  obtain ⟨added, later⟩ := orderly.run consistent ran
  refine ⟨later.serves, (consistent.run ran).idle, ?_⟩
  have before : e.trace.filterMap startedPair? ++ e.queue.map Session.pair = [] ++ order :=
    orderly.tickets
  have behind : after.trace.filterMap startedPair? ++ after.queue.map Session.pair =
      [] ++ order ++ added := later.tickets
  rw [before, behind]
  exact List.prefix_append _ _

/-- A second meta message waits behind the first, and starts when the ticker gives that up. -/
theorem sessions_served_in_order_two : ∃ e after,
    (newEngine 64 5).run [(.file oneUploadMeta, 1000),
      (.file { oneUploadMeta with sessionId := "8" }, 1001)] = some e ∧
    e.run [(.tick, 62000)] = some after ∧
    e.queue.map Session.pair = [("8", "1a2b")] ∧ after.queue = [] ∧
    e.trace.filterMap startedPair? ++ e.queue.map Session.pair <+:
      after.trace.filterMap startedPair? ++ after.queue.map Session.pair := by
  have computed : ((newEngine 64 5).run [(.file oneUploadMeta, 1000),
      (.file { oneUploadMeta with sessionId := "8" }, 1001)]).any (fun e =>
        e.queue.map Session.pair == [("8", "1a2b")] &&
          (e.run [(.tick, 62000)]).any fun after => after.queue.isEmpty) = true := by
    decide +kernel
  obtain ⟨e, reached, facts⟩ := (Option.any_eq_true ..).mp computed
  rw [Bool.and_eq_true, beq_iff_eq] at facts
  obtain ⟨after, ran, empty⟩ := (Option.any_eq_true ..).mp facts.2
  exact ⟨e, after, reached, ran, facts.1, List.isEmpty_iff.mp empty,
    (sessions_served_in_order 64 5 _ _ reached ran).2.2⟩

end Engine

end ForestLink.Cloud
