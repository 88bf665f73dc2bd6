/-
Module: ForestLink.Proofs.EngineConsistency
Purpose: The invariants of the cloud engine over every run of its select loop: one transfer
  under a key, and a receiver for exactly the active session.
Trusted boundary: none
Main exports: CreatedFor, Engine.Consistent, Engine.onMeta_cases, Engine.onTick_cases,
  Engine.Consistent.handle
-/
import ForestLink.Proofs.SetupRule
import ForestLink.Proofs.WriteBounds

namespace ForestLink.Cloud

open ForestLink.Lib
open ForestLink.Protocol

/-! ## A receiver and the meta it was created for -/

/-- The two values that name a transfer. -/
def Session.pair (s : Session) : String × String := (s.sessionId, s.nodeId)

/-- Selective repeat and the reassembler have the sizes of the meta, and the reassembler is
the new one after chunks of this transfer only. -/
structure CreatedFor (m : FileMeta) (sr : SelectiveRepeat) (r : FileReassembler) : Prop where
  srCount : sr.totalChunks = m.chunkCount
  chunkCount : r.chunkCount = m.chunkCount
  totalSize : r.totalSize = m.totalSize
  chunkSize : r.chunkSize =
    if m.fragmentSize ≤ 0 then defaultChunkSize else m.fragmentSize.toNat
  written : ∃ arrived : List FileChunk, (∀ c ∈ arrived, c.key = m.key) ∧
    m.reassembler.writeChunks (arrived.map fun c => (c.seqNum, c.data)) = some r

namespace SelectiveRepeat

theorem totalChunks_advanceBase (sr : SelectiveRepeat) (fuel : Nat) :
    (sr.advanceBase fuel).totalChunks = sr.totalChunks := by
  induction fuel generalizing sr with
  | zero => rfl
  | succ fuel inductionHypothesis =>
      rw [advanceBase]
      split
      · exact inductionHypothesis _
      · rfl

theorem totalChunks_onChunkReceived (sr : SelectiveRepeat) (seq : Nat) :
    (sr.onChunkReceived seq).1.totalChunks = sr.totalChunks := by
  unfold onChunkReceived
  split
  · rfl
  · apply (totalChunks_advanceBase _ _).trans
    unfold markReceived
    split <;> rfl

end SelectiveRepeat

namespace FileReassembler

theorem SameLayout.refl (r : FileReassembler) : r.SameLayout r := ⟨rfl, rfl, rfl⟩

/-- A write leaves the sizes alone. -/
theorem writeChunk_sameLayout {r after : FileReassembler} {seq : Nat} {data : List UInt8}
    {isNew : Bool} (wrote : r.writeChunk seq data = some (isNew, after)) :
    r.SameLayout after := by
  have arrivedSame : ∀ {r after : FileReassembler}, r.writeArrived seq data = some after →
      r.SameLayout after := by
    intro r after stored
    obtain ⟨_, _, rfl⟩ := writeArrived_frame stored
    exact ⟨rfl, rfl, rfl⟩
  have markedSame : ∀ {r after : FileReassembler}, r.markChunk seq = some after →
      r.SameLayout after := by
    intro r after marked
    obtain ⟨_, _, rfl⟩ := markChunk_frame marked
    exact ⟨rfl, rfl, rfl⟩
  have recoveredSame : ∀ {r after : FileReassembler} {recovered : Option FecRecovery},
      r.writeRecovered recovered = some after → r.SameLayout after := by
    intro r after recovered wrote
    cases recovered with
    | none =>
        cases wrote
        exact SameLayout.refl r
    | some recovery =>
        obtain ⟨flag, _, wrote⟩ := Option.bind_eq_some_iff.mp wrote
        cases flag with
        | true =>
            cases wrote
            exact SameLayout.refl r
        | false =>
            obtain ⟨_, _, _, _, _, rfl⟩ := placed_frame wrote
            exact ⟨rfl, rfl, rfl⟩
  unfold FileReassembler.writeChunk at wrote
  split at wrote
  · cases wrote
    exact SameLayout.refl r
  obtain ⟨flag, _, wrote⟩ := Option.bind_eq_some_iff.mp wrote
  cases flag with
  | true =>
      cases wrote
      exact SameLayout.refl r
  | false =>
      rw [if_neg Bool.false_ne_true] at wrote
      split at wrote
      · obtain ⟨result, stored, rest⟩ := Option.bind_eq_some_iff.mp wrote
        cases rest
        unfold FileReassembler.writeFecChunk at stored
        obtain ⟨⟨fec, recovery⟩, ingested⟩ :
            ∃ result, result = r.fec.ingest seq data (isParitySlot seq) := ⟨_, rfl⟩
        rw [← ingested] at stored
        obtain ⟨first, arrived, stored⟩ := Option.bind_eq_some_iff.mp stored
        obtain ⟨second, marked, recovered⟩ := Option.bind_eq_some_iff.mp stored
        have decoded : r.SameLayout { r with fec := fec } := ⟨rfl, rfl, rfl⟩
        exact ((decoded.trans (arrivedSame arrived)).trans (markedSame marked)).trans
          (recoveredSame recovered)
      · obtain ⟨result, stored, rest⟩ := Option.bind_eq_some_iff.mp wrote
        cases rest
        obtain ⟨_, _, _, _, _, rfl⟩ := placed_frame stored
        exact ⟨rfl, rfl, rfl⟩

theorem writeChunks_append {r middle : FileReassembler} {first : List (Nat × List UInt8)}
    (wrote : r.writeChunks first = some middle) (second : List (Nat × List UInt8)) :
    r.writeChunks (first ++ second) = middle.writeChunks second := by
  induction first generalizing r with
  | nil =>
      cases wrote
      rfl
  | cons chunk rest inductionHypothesis =>
      obtain ⟨seq, data⟩ := chunk
      rw [writeChunks] at wrote
      obtain ⟨next, here, wrote⟩ := Option.bind_eq_some_iff.mp wrote
      rw [List.cons_append, writeChunks, here]
      exact inductionHypothesis wrote

/-- One more chunk at the end. -/
theorem writeChunks_concat {r middle next : FileReassembler} {first : List (Nat × List UInt8)}
    (wrote : r.writeChunks first = some middle) {seq : Nat} {data : List UInt8} {isNew : Bool}
    (last : middle.writeChunk seq data = some (isNew, next)) :
    r.writeChunks (first ++ [(seq, data)]) = some next := by
  rw [writeChunks_append wrote, writeChunks, last]
  rfl

end FileReassembler

namespace CreatedFor

variable {m : FileMeta} {sr : SelectiveRepeat} {r : FileReassembler}

/-- What `setupActive` creates. -/
theorem fresh (m : FileMeta) (srWindow srTimeout : Nat) :
    CreatedFor m ((newSelectiveRepeat srWindow srTimeout).startSession m.chunkCount)
      m.reassembler where
  srCount := rfl
  chunkCount := rfl
  totalSize := rfl
  chunkSize := rfl
  written := ⟨[], fun _ none => absurd none List.not_mem_nil, rfl⟩

theorem write (created : CreatedFor m sr r) {c : FileChunk} (own : c.key = m.key)
    {isNew : Bool} {next : FileReassembler}
    (wrote : r.writeChunk c.seqNum c.data = some (isNew, next)) :
    CreatedFor m sr next := by
  obtain ⟨total, size, count⟩ := FileReassembler.writeChunk_sameLayout wrote
  obtain ⟨arrived, all, written⟩ := created.written
  refine ⟨created.srCount, count.trans created.chunkCount, total.trans created.totalSize,
    size.trans created.chunkSize, arrived ++ [c], ?_, ?_⟩
  · intro other member
    rcases List.mem_append.mp member with earlier | here
    · exact all other earlier
    · rw [List.mem_singleton.mp here]
      exact own
  · rw [List.map_append]
    exact FileReassembler.writeChunks_concat written wrote

/-- Only the number of chunks is of interest in selective repeat. -/
theorem withSr (created : CreatedFor m sr r) {after : SelectiveRepeat}
    (same : after.totalChunks = sr.totalChunks) : CreatedFor m after r where
  srCount := same.trans created.srCount
  chunkCount := created.chunkCount
  totalSize := created.totalSize
  chunkSize := created.chunkSize
  written := created.written

end CreatedFor

namespace Engine

/-! ## The consistent engine -/

/-- The active session and the queued ones. -/
def sessions (e : Engine) : List Session := e.active.toList ++ e.queue

/-- The transfers that an engine knows have different keys, and none waits for nothing. -/
structure Bare (e : Engine) : Prop where
  distinct : (e.sessions.map Session.pair).Nodup
  idle : e.active = none → e.queue = []

/-- The engine between two turns of its loop. -/
structure Consistent (e : Engine) : Prop extends Bare e where
  srNone : e.sr = none ↔ e.active = none
  reassemblerNone : e.reassembler = none ↔ e.active = none
  created : ∀ s sr r, e.active = some s → e.sr = some sr → e.reassembler = some r →
    CreatedFor s.toMeta sr r

variable {e after : Engine} {m : FileMeta} {s : Session} {now : Int}

/-- Every active session has its receiver. -/
theorem Consistent.receiver (consistent : Consistent e) (isActive : e.active = some s) :
    ∃ sr r, e.sr = some sr ∧ e.reassembler = some r ∧ CreatedFor s.toMeta sr r := by
  have hasSr : e.sr ≠ none := fun none => by
    rw [consistent.srNone.mp none] at isActive
    cases isActive
  have hasReassembler : e.reassembler ≠ none := fun none => by
    rw [consistent.reassemblerNone.mp none] at isActive
    cases isActive
  obtain ⟨sr, srEq⟩ := Option.ne_none_iff_exists'.mp hasSr
  obtain ⟨r, rEq⟩ := Option.ne_none_iff_exists'.mp hasReassembler
  exact ⟨sr, r, srEq, rEq, consistent.created s sr r isActive srEq rEq⟩

/-- Closing a session leaves those that waited. -/
theorem map_sessions_closeActive {β : Type} (f : Session → β)
    (stable : ∀ s t, f { s with startedAt := t } = f s) (e : Engine) {s : Session}
    (isActive : e.active = some s) (success : Bool) (now : Int) :
    (e.closeActive s success now).sessions.map f = e.queue.map f := by
  obtain ⟨_, _, _, closed⟩ := closeActive_cases e isActive success now
  rw [closed.afterEq]
  unfold sessions
  dsimp only
  cases e.queue with
  | nil => rfl
  | cons next rest =>
      change f { next with startedAt := now } :: rest.map f = f next :: rest.map f
      rw [stable]

theorem sessions_of_active (isActive : e.active = some s) : e.sessions = s :: e.queue := by
  unfold sessions
  rw [isActive]
  rfl

theorem Bare.closeActive (bare : Bare e) (isActive : e.active = some s) (success : Bool)
    (now : Int) : Bare (e.closeActive s success now) := by
  constructor
  · rw [map_sessions_closeActive Session.pair (fun _ _ => rfl) e isActive]
    have distinct := bare.distinct
    rw [sessions_of_active isActive, List.map_cons] at distinct
    exact (List.nodup_cons.mp distinct).2
  · obtain ⟨_, _, _, closed⟩ := closeActive_cases e isActive success now
    rw [closed.afterEq]
    dsimp only
    cases e.queue with
    | nil => exact fun _ => rfl
    | cons next rest => exact fun none => absurd none (Option.some_ne_none _)

/-- Chunks of the active session keep it consistent, the completing one included. -/
theorem Consistent.processChunk (consistent : Consistent e) {c : FileChunk}
    {finished success : Bool} (own : ∀ s, e.active = some s → c.key = s.key)
    (ran : e.processChunk c now = some (after, finished, success)) : Consistent after := by
  obtain ⟨s, r, next, sr, isNew, notes, processed⟩ := processChunk_cases ran
  have created := consistent.created s sr r processed.isActive processed.hasSr
    processed.hasReassembler
  have stillActive : e.active ≠ none := by
    rw [processed.isActive]
    exact Option.some_ne_none s
  rw [processed.afterEq]
  refine ⟨⟨consistent.distinct, consistent.idle⟩, ?_, ?_, ?_⟩
  · exact ⟨fun none => absurd none (Option.some_ne_none _), fun none => absurd none stillActive⟩
  · exact ⟨fun none => absurd none (Option.some_ne_none _), fun none => absurd none stillActive⟩
  · intro s' sr' r' isActive hasSr hasReassembler
    cases hasSr
    cases hasReassembler
    cases processed.isActive.symm.trans isActive
    have written := created.write (own s processed.isActive) processed.wrote
    apply written.withSr
    split
    · exact SelectiveRepeat.totalChunks_onChunkReceived sr _
    · rfl

/-- `setupActive` makes a bare engine consistent. -/
theorem consistentRule (now : Int) (staged : List FileChunk) :
    SetupRule now staged Bare Consistent where
  pending := fun _ consistent => ⟨⟨consistent.distinct, consistent.idle⟩, consistent.srNone,
    consistent.reassemblerNone, consistent.created⟩
  idle := fun bare isActive => ⟨⟨bare.distinct, bare.idle⟩, by simp [isActive], by simp [isActive],
    fun s sr r isSome => by cases isActive.symm.trans isSome⟩
  reset := fun {e s} bare isActive => by
    refine ⟨⟨bare.distinct, bare.idle⟩, ?_, ?_, ?_⟩
    · simp [resetFor, isActive]
    · simp [resetFor, isActive]
    · intro s' sr r isActive' hasSr hasReassembler
      cases hasSr
      cases hasReassembler
      cases isActive.symm.trans isActive'
      exact CreatedFor.fresh s.toMeta e.srWindow e.srTimeout
  chunk := fun {e s c after success} consistent isActive _ own ran =>
    consistent.processChunk (fun s' same => by
      cases isActive.symm.trans same
      exact own) ran
  close := fun {e s c after success} consistent isActive _ own ran => by
    have processed := consistent.processChunk (fun s' same => by
      cases isActive.symm.trans same
      exact own) ran
    obtain ⟨same, _⟩ := processChunk_spec ran
    exact processed.toBare.closeActive (same.active.trans isActive) _ _

theorem Consistent.completeTransfer (consistent : Consistent e) {success : Bool}
    (ran : e.completeTransfer success now = some after) : Consistent after := by
  cases isActive : e.active with
  | none =>
      unfold Engine.completeTransfer completeTransferWith at ran
      rw [isActive] at ran
      cases ran
      exact consistent
  | some s =>
      apply (consistentRule now e.pendingChunks.view).completeTransfer isActive
        (consistent.toBare.closeActive isActive success now) (fun c member => member) ran

/-! ## What the handlers do -/

/-- The same transfers in the same places. -/
structure SameTransfers (before after : Engine) : Prop where
  active : after.active.map Session.toMeta = before.active.map Session.toMeta
  queue : after.queue.map Session.toMeta = before.queue.map Session.toMeta

namespace SameTransfers

theorem active_none (same : SameTransfers e after) :
    after.active = none ↔ e.active = none := by
  have active := same.active
  cases before : e.active <;> cases now : after.active <;> simp_all

theorem active_some (same : SameTransfers e after) (isActive : after.active = some s) :
    ∃ old, e.active = some old ∧ old.toMeta = s.toMeta := by
  have active := same.active
  rw [isActive, Option.map_some, eq_comm, Option.map_eq_some_iff] at active
  exact active

theorem metas (same : SameTransfers e after) :
    after.sessions.map Session.toMeta = e.sessions.map Session.toMeta := by
  have active := same.active
  unfold sessions
  rw [List.map_append, List.map_append, same.queue]
  congr 1
  cases before : e.active <;> cases now : after.active <;> simp_all

theorem bare (same : SameTransfers e after) (bare : Bare e) : Bare after where
  distinct := by
    have pairs : ∀ sessions : List Session,
        sessions.map Session.pair = (sessions.map Session.toMeta).map FileMeta.pair := by
      intro sessions
      rw [List.map_map]
      rfl
    rw [pairs, same.metas, ← pairs]
    exact bare.distinct
  idle := fun none => by
    have empty := same.queue
    rw [bare.idle (same.active_none.mp none)] at empty
    exact List.map_eq_nil_iff.mp empty

/-- The receiver is the one of before, up to the NACKs it has counted. -/
theorem consistent (same : SameTransfers e after) (consistent : Consistent e)
    (srSame : after.sr.map SelectiveRepeat.totalChunks = e.sr.map SelectiveRepeat.totalChunks)
    (reassemblerSame : after.reassembler = e.reassembler) : Consistent after where
  toBare := same.bare consistent.toBare
  srNone := by
    rw [same.active_none, ← consistent.srNone]
    cases before : e.sr <;> cases now : after.sr <;> simp_all
  reassemblerNone := by
    rw [same.active_none, ← consistent.reassemblerNone, reassemblerSame]
  created := fun s sr r isActive hasSr hasReassembler => by
    obtain ⟨old, wasActive, sameMeta⟩ := same.active_some isActive
    rw [hasSr, Option.map_some, eq_comm, Option.map_eq_some_iff] at srSame
    obtain ⟨oldSr, hadSr, count⟩ := srSame
    rw [← sameMeta]
    exact (consistent.created old oldSr r wasActive hadSr
      (reassemblerSame ▸ hasReassembler)).withSr count.symm

end SameTransfers

theorem sameTransfer_iff {m : FileMeta} {s : Session} :
    sameTransfer m s = true ↔ s.pair = m.pair := by
  simp [sameTransfer, Session.pair, FileMeta.pair]

theorem mergeQueued_some {m : FileMeta} {queue merged : List Session}
    (found : mergeQueued m queue = some merged) :
    merged.map Session.toMeta = queue.map Session.toMeta := by
  induction queue generalizing merged with
  | nil => cases found
  | cons s rest inductionHypothesis =>
      rw [mergeQueued] at found
      split at found
      · cases found
        rfl
      · obtain ⟨deeper, foundDeeper, rfl⟩ := Option.map_eq_some_iff.mp found
        rw [List.map_cons, List.map_cons, inductionHypothesis foundDeeper]

theorem mergeQueued_none {m : FileMeta} {queue : List Session}
    (missing : mergeQueued m queue = none) : m.pair ∉ queue.map Session.pair := by
  induction queue with
  | nil => exact List.not_mem_nil
  | cons s rest inductionHypothesis =>
      rw [mergeQueued] at missing
      split at missing
      · cases missing
      · rename_i differs
        rw [sameTransfer_iff] at differs
        rw [List.map_cons, List.mem_cons, not_or]
        exact ⟨fun same => differs same.symm,
          inductionHypothesis (Option.map_eq_none_iff.mp missing)⟩

/-- An idle engine starts what it is given. -/
theorem enqueue_idle (bare : Bare e) (isNone : e.active = none) (m : FileMeta) (now : Int) :
    e.enqueue m now =
      { e with
        queue := []
        active := some { sessionOf m with startedAt := now }
        trace := e.trace ++ [.transferCmd m.nodeId "START" m.sessionId,
          .started { sessionOf m with startedAt := now }] } := by
  unfold enqueue
  rw [isNone, bare.idle isNone]
  rfl

/-- `Enqueue` merges the message into a transfer that is known, lets a new one wait behind
the active one, or starts it. -/
theorem enqueue_cases (e : Engine) (m : FileMeta) (now : Int) (bare : Bare e) :
    (∃ active queue, e.enqueue m now = { e with active := active, queue := queue } ∧
        SameTransfers e (e.enqueue m now)) ∨
      (e.active ≠ none ∧ m.pair ∉ e.sessions.map Session.pair ∧
        e.enqueue m now = { e with queue := e.queue ++ [sessionOf m] }) ∨
      (e.active = none ∧ e.enqueue m now =
        { e with
          queue := []
          active := some { sessionOf m with startedAt := now }
          trace := e.trace ++ [.transferCmd m.nodeId "START" m.sessionId,
            .started { sessionOf m with startedAt := now }] }) := by
  cases isActive : e.active with
  | none =>
      exact .inr (.inr ⟨rfl, enqueue_idle bare isActive m now⟩)
  | some s =>
      unfold enqueue
      rw [isActive]
      dsimp only
      split
      · exact .inl ⟨_, e.queue, rfl, ⟨by rw [isActive]; rfl, rfl⟩⟩
      · rename_i differs
        rw [sameTransfer_iff] at differs
        cases found : mergeQueued m e.queue with
        | some merged =>
            exact .inl ⟨some s, merged, rfl, ⟨by rw [isActive], mergeQueued_some found⟩⟩
        | none =>
            refine .inr (.inl ⟨Option.some_ne_none s, ?_, rfl⟩)
            rw [sessions_of_active isActive, List.map_cons, List.mem_cons, not_or]
            exact ⟨fun same => differs same.symm, mergeQueued_none found⟩

theorem Bare.enqueue (bare : Bare e) (m : FileMeta) (now : Int) : Bare (e.enqueue m now) := by
  rcases enqueue_cases e m now bare with
    ⟨active, queue, _, same⟩ | ⟨isActive, isNew, appended⟩ | ⟨_, started⟩
  · exact same.bare bare
  · rw [appended]
    refine ⟨?_, fun none => absurd none isActive⟩
    unfold sessions
    dsimp only
    rw [← List.append_assoc, List.map_append]
    refine List.Nodup.append bare.distinct (List.nodup_singleton _) ?_
    intro pair known new
    rw [List.mem_singleton.mp new] at known
    exact isNew known
  · rw [started]
    exact ⟨List.nodup_singleton _, fun none => absurd none (Option.some_ne_none _)⟩

/-- The message of another transfer finds an active one without news for ten seconds. -/
def Supersedes (e : Engine) (m : FileMeta) (now : Int) : Prop :=
  ∃ s, e.active = some s ∧ s.key ≠ m.key ∧
    ¬ (s.sessionId = m.sessionId ∧ s.nodeId ≠ m.nodeId) ∧
    (10000 < now - e.lastChunkTime ∨ e.lastChunkTime = 0)

/-- The engines in which `Enqueue` can find itself. -/
inductive ReadyFor (e : Engine) (m : FileMeta) (now : Int) : Engine → Prop where
  | asItWas (stamps : String → Option Int) :
      ReadyFor e m now { e with activeMetaLastSeen := stamps }
  | superseding {next : Engine} (stale : Supersedes e m now)
      (aborted : e.completeTransfer false now = some next) : ReadyFor e m now next

/-- The entry of the message is taken out of the map of successes. -/
def forget (e : Engine) (m : FileMeta) : Engine :=
  { e with
    recentlyCompletedMeta := Function.update e.recentlyCompletedMeta (completedMetaKey m) none }

theorem metaWhileActive_cases (isActive : e.active = some s) {goesOn : Bool}
    (ran : e.metaWhileActive m s now = some (goesOn, after)) :
    if goesOn then ReadyFor e m now after
    else ∃ stamps, after = { e with activeMetaLastSeen := stamps } := by
  unfold metaWhileActive at ran
  dsimp only at ran
  split at ran
  · split at ran
    · cases ran
      exact ⟨e.activeMetaLastSeen, rfl⟩
    · cases ran
      exact ReadyFor.asItWas _
  · rename_i otherKey
    split at ran
    · split at ran
      · cases ran
        exact ⟨_, rfl⟩
      · cases ran
        exact ⟨e.activeMetaLastSeen, rfl⟩
    · rename_i noCollision
      split at ran
      · rename_i stale
        obtain ⟨next, aborted, same⟩ := Option.map_eq_some_iff.mp ran
        cases same
        exact ReadyFor.superseding ⟨s, isActive, otherKey, noCollision, stale⟩ aborted
      · cases ran
        exact ReadyFor.asItWas e.activeMetaLastSeen

/-- The handler from `Enqueue` on. -/
def enqueueAndSetUp (ready : Engine) (m : FileMeta) (now : Int) : Option Engine :=
  let queued := ready.enqueue m now
  let stamped := match queued.active with
    | some s =>
        { queued with
          activeMetaLastSeen := Function.update queued.activeMetaLastSeen s.key (some now) }
    | none => queued
  if stamped.active.isSome && stamped.sr.isNone then stamped.setupActive now else some stamped

theorem onMeta_eq (e : Engine) (m : FileMeta) (now : Int) :
    e.onMeta m now =
      if (e.recentlyCompletedMeta (completedMetaKey m)).any fun expiresAt => now < expiresAt
      then some e
      else match e.active with
        | none => (e.forget m).enqueueAndSetUp m now
        | some s => ((e.forget m).metaWhileActive m s now).bind fun result =>
            if !result.1 then some result.2 else result.2.enqueueAndSetUp m now := by
  unfold onMeta forget
  dsimp only
  by_cases suppressed :
      ((e.recentlyCompletedMeta (completedMetaKey m)).any fun expiresAt => now < expiresAt) = true
  · rw [if_pos suppressed, if_pos suppressed]
    rfl
  · rw [if_neg suppressed, if_neg suppressed]
    cases e.active <;> rfl

theorem enqueueAndSetUp_cases {ready : Engine} (ran : ready.enqueueAndSetUp m now = some after) :
    ∃ stamps queued, queued = { ready.enqueue m now with activeMetaLastSeen := stamps } ∧
      (queued.active ≠ none ∧ queued.sr = none ∧ queued.setupActive now = some after ∨
        (queued.active = none ∨ queued.sr ≠ none) ∧ after = queued) := by
  unfold enqueueAndSetUp at ran
  obtain ⟨queued, queuedEq⟩ : ∃ queued, queued = ready.enqueue m now := ⟨_, rfl⟩
  rw [← queuedEq] at ran ⊢
  obtain ⟨stamps, stamped⟩ : ∃ stamps, (match queued.active with
      | some s =>
          { queued with
            activeMetaLastSeen := Function.update queued.activeMetaLastSeen s.key (some now) }
      | none => queued) = { queued with activeMetaLastSeen := stamps } := by
    split
    · exact ⟨_, rfl⟩
    · exact ⟨queued.activeMetaLastSeen, rfl⟩
  dsimp only at ran
  rw [stamped] at ran
  refine ⟨stamps, _, rfl, ?_⟩
  split at ran
  · rename_i sets
    rw [Bool.and_eq_true, Option.isSome_iff_ne_none, Option.isNone_iff_eq_none] at sets
    exact .inl ⟨sets.1, sets.2, ran⟩
  · rename_i stays
    rw [Bool.and_eq_true, Option.isSome_iff_ne_none, Option.isNone_iff_eq_none, not_and_or,
      not_not] at stays
    exact .inr ⟨stays, (Option.some.inj ran).symm⟩

/-- A meta message is suppressed, ignored, or given to `Enqueue`. -/
theorem onMeta_cases (ran : e.onMeta m now = some after) :
    (after = e ∧ ∃ expiresAt, e.recentlyCompletedMeta (completedMetaKey m) = some expiresAt ∧
        now < expiresAt) ∨
      ((∀ expiresAt, e.recentlyCompletedMeta (completedMetaKey m) = some expiresAt →
          expiresAt ≤ now) ∧
        ((∃ stamps, after = { e.forget m with activeMetaLastSeen := stamps }) ∨
          ∃ ready, ReadyFor (e.forget m) m now ready ∧ ready.enqueueAndSetUp m now = some after)) := by
  rw [onMeta_eq] at ran
  split at ran
  · rename_i suppressed
    cases ran
    obtain ⟨expiresAt, entry, later⟩ := (Option.any_eq_true ..).mp suppressed
    exact .inl ⟨rfl, expiresAt, entry, of_decide_eq_true later⟩
  · rename_i notSuppressed
    refine .inr ⟨?_, ?_⟩
    · intro expiresAt entry
      rw [entry] at notSuppressed
      simpa using notSuppressed
    cases isActive : e.active with
    | none =>
        rw [isActive] at ran
        exact .inr ⟨_, ReadyFor.asItWas e.activeMetaLastSeen, ran⟩
    | some s =>
        rw [isActive] at ran
        obtain ⟨⟨goesOn, reached⟩, passed, ran⟩ := Option.bind_eq_some_iff.mp ran
        have stillActive : (e.forget m).active = some s := isActive
        have ready := metaWhileActive_cases stillActive passed
        cases goesOn with
        | true => exact .inr ⟨reached, ready, ran⟩
        | false =>
            cases ran
            exact .inl ready

/-- `OnChunk` drops the chunk, stages it, or hands a chunk of the active session over. -/
theorem onChunk_cases {c : FileChunk} (ran : e.onChunk c now = some after) :
    (∃ sessions pending, after = { e with
        recentlyCompletedSession := sessions, pendingChunks := pending }) ∨
      ∃ s sessions next finished success, e.active = some s ∧ c.key = s.key ∧
        { e with recentlyCompletedSession := sessions }.processChunk c now =
          some (next, finished, success) ∧
        (if finished then next.completeTransfer success now else some next) = some after := by
  unfold onChunk at ran
  dsimp only at ran
  split at ran
  · cases ran
    exact .inl ⟨e.recentlyCompletedSession, e.pendingChunks, rfl⟩
  split at ran
  · rename_i s _ _ isActive _ _
    split at ran
    · cases ran
      exact .inl ⟨_, e.pendingChunks, rfl⟩
    · rename_i own
      rw [not_or, not_not, not_not] at own
      obtain ⟨⟨next, finished, success⟩, processed, ran⟩ := Option.bind_eq_some_iff.mp ran
      refine .inr ⟨s, _, next, finished, success, isActive, ?_, processed, ran⟩
      unfold FileChunk.key Session.key
      rw [own.1, own.2]
  · split at ran
    · cases ran
      exact .inl ⟨_, _, rfl⟩
    · cases ran
      exact .inl ⟨_, e.pendingChunks, rfl⟩

/-- A note that no thirty seconds of rest depend on. -/
def Quiet : EngineEvent → Prop
  | .started _ | .saved _ _ | .record _ _ => False
  | _ => True

/-- The sending of NACKs, and whatever else leaves sessions and successes alone. -/
structure Passive (before after : Engine) : Prop where
  active : after.active = before.active
  queue : after.queue = before.queue
  recentlyCompletedMeta : after.recentlyCompletedMeta = before.recentlyCompletedMeta
  reassembler : after.reassembler = before.reassembler
  srCount : after.sr.map SelectiveRepeat.totalChunks = before.sr.map SelectiveRepeat.totalChunks
  trace : ∃ notes : List EngineEvent, after.trace = before.trace ++ notes ∧
    ∀ note ∈ notes, Quiet note

theorem Passive.refl (e : Engine) : Passive e e :=
  ⟨rfl, rfl, rfl, rfl, rfl, [], (List.append_nil _).symm, fun _ none => absurd none List.not_mem_nil⟩

theorem Passive.sameTransfers (passive : Passive e after) : SameTransfers e after :=
  ⟨by rw [passive.active], by rw [passive.queue]⟩

theorem Passive.consistent (passive : Passive e after) (consistent : Consistent e) :
    Consistent after :=
  passive.sameTransfers.consistent consistent passive.srCount passive.reassembler

theorem timeoutTick_passive (e : Engine) (now : Int) : Passive e (e.timeoutTick now) := by
  unfold timeoutTick
  split
  · exact Passive.refl e
  · rename_i sr hasSr
    split
    · refine ⟨rfl, rfl, rfl, rfl, ?_, _, rfl, ?_⟩
      · rw [hasSr]
        exact congrArg some (SelectiveRepeat.checkTimeouts_spec sr 6 now).1.totalChunks
      · intro note member
        obtain ⟨seq, _, rfl⟩ := List.mem_map.mp member
        exact trivial
    · exact Passive.refl e

theorem stallTick_passive (ran : e.stallTick now = some after) : Passive e after := by
  unfold stallTick at ran
  split at ran
  · rename_i sr r hasSr hasReassembler
    dsimp only at ran
    split at ran
    · cases ran
      exact Passive.refl e
    split at ran
    · obtain ⟨⟨sent, filtered⟩, built⟩ : ∃ result, result = sr.buildFilteredStallNacks 8 64
          (if r.inTailPhase then 4000 else 8000) now := ⟨_, rfl⟩
      have count : sent.totalChunks = sr.totalChunks := by
        have same := (SelectiveRepeat.buildFilteredStallNacks_spec sr 8 64
          (if r.inTailPhase then 4000 else 8000) now).1.totalChunks
        rw [← built] at same
        exact same
      rw [← built] at ran
      dsimp only at ran
      have countEq : (some sent).map SelectiveRepeat.totalChunks =
          e.sr.map SelectiveRepeat.totalChunks := by
        rw [hasSr]
        exact congrArg some count
      split at ran
      · cases ran
        exact ⟨rfl, rfl, rfl, rfl, countEq, [], (List.append_nil _).symm,
          fun _ none => absurd none List.not_mem_nil⟩
      · obtain ⟨s, isActive, ran⟩ := Option.bind_eq_some_iff.mp ran
        cases ran
        refine ⟨rfl, rfl, rfl, rfl, countEq, _, rfl, ?_⟩
        intro note member
        rw [List.mem_singleton.mp member]
        exact trivial
    · cases ran
      exact Passive.refl e
  · cases ran
    exact Passive.refl e

/-- The tick's first step: the successes that are thirty seconds old are forgotten. -/
def expire (e : Engine) (now : Int) : Engine :=
  { e with
    recentlyCompletedMeta := fun key =>
      (e.recentlyCompletedMeta key).filter fun expiresAt => now < expiresAt
    recentlyCompletedSession := fun key =>
      (e.recentlyCompletedSession key).filter fun expiresAt => now < expiresAt }

/-- The tick's last step: staged chunks that no session has come for are dropped. -/
def dropOrphans (e : Engine) (now : Int) : Option Engine :=
  if e.active.isNone ∧ 0 < e.pendingChunks.len ∧ 30000 < now - e.lastChunkTime then
    (e.pendingChunks.reslice? 0).map fun pending => { e with pendingChunks := pending }
  else some e

theorem onTick_eq (e : Engine) (now : Int) :
    e.onTick now =
      let quiet := (e.expire now).timeoutTick now
      (if quiet.active.isSome ∧ 0 < quiet.lastChunkTime ∧
          transferTimeout < now - quiet.lastChunkTime
        then quiet.completeTransfer false now else some quiet).bind fun next =>
        (next.stallTick now).bind fun next => next.dropOrphans now := by
  unfold onTick expire dropOrphans
  dsimp only
  split
  · apply Option.bind_congr
    intro next _
    apply Option.bind_congr
    intro next _
    cases next.pendingChunks.reslice? 0 <;> rfl
  · apply Option.bind_congr
    intro next _
    apply Option.bind_congr
    intro next _
    cases next.pendingChunks.reslice? 0 <;> rfl

theorem dropOrphans_passive (ran : e.dropOrphans now = some after) : Passive e after := by
  have same := Passive.refl e
  unfold dropOrphans at ran
  split at ran
  · obtain ⟨pending, _, rfl⟩ := Option.map_eq_some_iff.mp ran
    exact ⟨rfl, rfl, rfl, rfl, rfl, same.trace⟩
  · cases ran
    exact same

theorem Passive.trans {first second third : Engine} (one : Passive first second)
    (two : Passive second third) : Passive first third where
  active := two.active.trans one.active
  queue := two.queue.trans one.queue
  recentlyCompletedMeta := two.recentlyCompletedMeta.trans one.recentlyCompletedMeta
  reassembler := two.reassembler.trans one.reassembler
  srCount := two.srCount.trans one.srCount
  trace := by
    obtain ⟨early, earlyEq, earlyQuiet⟩ := one.trace
    obtain ⟨late, lateEq, lateQuiet⟩ := two.trace
    refine ⟨early ++ late, by rw [lateEq, earlyEq, List.append_assoc], ?_⟩
    intro note member
    rcases List.mem_append.mp member with here | here
    · exact earlyQuiet note here
    · exact lateQuiet note here

/-- Between the NACKs the tick may give the active session up. -/
theorem onTick_cases (ran : e.onTick now = some after) :
    ∃ quiet next, Passive (e.expire now) quiet ∧
      (next = quiet ∨ quiet.completeTransfer false now = some next) ∧ Passive next after := by
  rw [onTick_eq] at ran
  obtain ⟨next, timed, ran⟩ := Option.bind_eq_some_iff.mp ran
  obtain ⟨stalled, nacked, dropped⟩ := Option.bind_eq_some_iff.mp ran
  refine ⟨_, next, timeoutTick_passive _ now, ?_,
    (stallTick_passive nacked).trans (dropOrphans_passive dropped)⟩
  split at timed
  · exact .inr timed
  · exact .inl (Option.some.inj timed).symm

/-! ## Every handler keeps the engine consistent -/

/-- The engine in which `Enqueue` finds itself. -/
theorem Consistent.ready (consistent : Consistent e) {ready : Engine}
    (isReady : ReadyFor (e.forget m) m now ready) : Consistent ready := by
  have forgotten : Consistent (e.forget m) := ⟨⟨consistent.distinct, consistent.idle⟩,
    consistent.srNone, consistent.reassemblerNone, consistent.created⟩
  cases isReady with
  | asItWas stamps =>
      exact ⟨⟨forgotten.distinct, forgotten.idle⟩, forgotten.srNone,
        forgotten.reassemblerNone, forgotten.created⟩
  | superseding _ aborted => exact forgotten.completeTransfer aborted

theorem Consistent.onMeta (consistent : Consistent e) (ran : e.onMeta m now = some after) :
    Consistent after := by
  rcases onMeta_cases ran with ⟨rfl, _⟩ | ⟨_, ⟨stamps, rfl⟩ | ⟨ready, isReady, ran⟩⟩
  · exact consistent
  · exact ⟨⟨consistent.distinct, consistent.idle⟩, consistent.srNone,
      consistent.reassemblerNone, consistent.created⟩
  have before := consistent.ready isReady
  obtain ⟨stamps, queued, queuedEq, outcome⟩ := enqueueAndSetUp_cases ran
  have bare : Bare queued := by
    rw [queuedEq]
    exact ⟨(before.toBare.enqueue m now).distinct, (before.toBare.enqueue m now).idle⟩
  rcases outcome with ⟨_, _, setUp⟩ | ⟨complete, rfl⟩
  · exact (consistentRule now queued.pendingChunks.view).setupActive bare
      (fun c member => member) setUp
  rcases enqueue_cases ready m now before.toBare with
    ⟨active, queue, merged, same⟩ | ⟨isActive, _, appended⟩ | ⟨isNone, started⟩
  · -- A known transfer: nothing that counts has changed.
    rw [merged] at queuedEq same
    rw [queuedEq]
    exact SameTransfers.consistent ⟨same.active, same.queue⟩ before rfl rfl
  · -- A new transfer behind the active one.
    rw [appended] at queuedEq
    rw [queuedEq] at bare ⊢
    exact ⟨bare, before.srNone, before.reassemblerNone, before.created⟩
  · -- The only transfer has become active, and it has no receiver yet.
    rw [started] at queuedEq
    rw [queuedEq] at complete
    rcases complete with inactive | hasSr
    · exact absurd inactive (Option.some_ne_none _)
    · exact absurd (before.srNone.mpr isNone) hasSr

theorem Consistent.onChunk (consistent : Consistent e) {c : FileChunk}
    (ran : e.onChunk c now = some after) : Consistent after := by
  rcases onChunk_cases ran with ⟨sessions, pending, rfl⟩ |
    ⟨s, sessions, next, finished, success, isActive, own, processed, ran⟩
  · exact ⟨⟨consistent.distinct, consistent.idle⟩, consistent.srNone,
      consistent.reassemblerNone, consistent.created⟩
  have cleared : Consistent { e with recentlyCompletedSession := sessions } :=
    ⟨⟨consistent.distinct, consistent.idle⟩, consistent.srNone, consistent.reassemblerNone,
      consistent.created⟩
  have written : Consistent next := cleared.processChunk (fun s' same => by
    cases isActive.symm.trans same
    exact own) processed
  split at ran
  · exact written.completeTransfer ran
  · cases ran
    exact written

theorem Consistent.onTick (consistent : Consistent e) (ran : e.onTick now = some after) :
    Consistent after := by
  have expired : Consistent (e.expire now) := ⟨⟨consistent.distinct, consistent.idle⟩,
    consistent.srNone, consistent.reassemblerNone, consistent.created⟩
  obtain ⟨quiet, next, nacked, timed, stalled⟩ := onTick_cases ran
  apply stalled.consistent
  rcases timed with rfl | timedOut
  · exact nacked.consistent expired
  · exact (nacked.consistent expired).completeTransfer timedOut

theorem Consistent.handle (consistent : Consistent e) {event : Event}
    (ran : e.handle event now = some after) : Consistent after := by
  cases event with
  | file m => exact consistent.onMeta ran
  | chunk c => exact consistent.onChunk ran
  | tick => exact consistent.onTick ran

theorem consistent_newEngine (srWindow srTimeout : Nat) :
    Consistent (newEngine srWindow srTimeout) where
  distinct := List.nodup_nil
  idle := fun _ => rfl
  srNone := by simp [newEngine]
  reassemblerNone := by simp [newEngine]
  created := fun s sr r isActive => by cases isActive

end Engine

end ForestLink.Cloud
