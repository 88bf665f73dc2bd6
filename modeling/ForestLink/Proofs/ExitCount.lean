/-
Module: ForestLink.Proofs.ExitCount
Purpose: The set of exit nodes that is recorded with a transfer holds its source and nothing
  else, whichever exits have published its meta messages.
Trusted boundary: none
Main exports: Engine.SoleExit, Engine.SoleExits, ExitLog, ExitLog.step, ExitLog.Sound,
  ExitLog.exit_count_iff
-/
import Mathlib.Data.Finset.Card
import ForestLink.Cloud.Ingress
import ForestLink.Proofs.EngineConsistency

namespace ForestLink.Cloud

open ForestLink.Lib

/-! ## The engine -/

/-- The session of a `record` note. -/
def EngineEvent.recorded? : EngineEvent → Option Session
  | .record session _ => some session
  | _ => none

namespace Engine

variable {e after : Engine} {m : FileMeta} {s : Session} {now : Int}
  {old : List EngineEvent} {known : List (String × String)}

/-- A session of a known transfer whose only exit node is its own node. -/
structure SoleExit (known : List (String × String)) (s : Session) : Prop where
  known : s.pair ∈ known
  exitNodes : s.exitNodes = {s.nodeId}

/-- So is every session of the engine, and every one recorded since `old` was the trace. -/
structure SoleExits (old : List EngineEvent) (known : List (String × String)) (e : Engine) :
    Prop where
  past : ∃ notes, e.trace = old ++ notes ∧
    ∀ s nacks, EngineEvent.record s nacks ∈ notes → SoleExit known s
  sessions : ∀ s ∈ e.sessions, SoleExit known s

theorem mem_sessions_of_active (isActive : e.active = some s) : s ∈ e.sessions := by
  rw [sessions_of_active isActive]
  exact List.mem_cons_self

/-- `s.ExitNodes[nodeID] = true` adds the node that the session already has. -/
theorem SoleExit.addExit (sole : SoleExit known s) (same : sameTransfer m s = true) :
    SoleExit known (addExit m s) := by
  have pairs := sameTransfer_iff.mp same
  have node : s.nodeId = m.nodeId := congrArg Prod.snd pairs
  refine ⟨sole.known, ?_⟩
  change insert m.nodeId s.exitNodes = {s.nodeId}
  rw [sole.exitNodes, node]
  exact Finset.pair_eq_singleton _

theorem mergeQueued_soleExit {queue merged : List Session}
    (sole : ∀ s ∈ queue, SoleExit known s) (found : mergeQueued m queue = some merged) :
    ∀ s ∈ merged, SoleExit known s := by
  induction queue generalizing merged with
  | nil => cases found
  | cons first rest inductionHypothesis =>
      have here := sole first List.mem_cons_self
      have behind := fun s member => sole s (List.mem_cons_of_mem first member)
      rw [mergeQueued] at found
      split at found
      · rename_i same
        cases found
        exact List.forall_mem_cons.mpr ⟨here.addExit same, behind⟩
      · obtain ⟨deeper, foundDeeper, rfl⟩ := Option.map_eq_some_iff.mp found
        exact List.forall_mem_cons.mpr ⟨here, inductionHypothesis behind foundDeeper⟩

namespace SoleExits

/-- Notes without a record. -/
theorem append (sole : SoleExits old known e) {notes : List EngineEvent}
    (trace : after.trace = e.trace ++ notes)
    (quiet : ∀ s nacks, EngineEvent.record s nacks ∉ notes)
    (sessions : ∀ s ∈ after.sessions, SoleExit known s) : SoleExits old known after := by
  obtain ⟨earlier, traceEq, records⟩ := sole.past
  refine ⟨⟨earlier ++ notes, by rw [trace, traceEq, List.append_assoc], ?_⟩, sessions⟩
  intro s nacks member
  rcases List.mem_append.mp member with here | here
  · exact records s nacks here
  · exact absurd here (quiet s nacks)

theorem passive (sole : SoleExits old known e) (passive : Passive e after) :
    SoleExits old known after := by
  obtain ⟨notes, trace, quiet⟩ := passive.trace
  have same : after.sessions = e.sessions := by
    unfold Engine.sessions
    rw [passive.active, passive.queue]
  refine sole.append trace ?_ (same ▸ sole.sessions)
  intro s nacks member
  exact quiet _ member

theorem processChunk (sole : SoleExits old known e) {c : FileChunk} {finished success : Bool}
    (ran : e.processChunk c now = some (after, finished, success)) :
    SoleExits old known after := by
  obtain ⟨_, _, _, _, _, notes, processed⟩ := processChunk_cases ran
  refine sole.append (by rw [processed.afterEq]) ?_ ?_
  · intro s nacks member
    exact (processed.quiet _ member).2.1 s nacks rfl
  · rw [processed.afterEq]
    exact sole.sessions

/-- The session that is recorded was one of the engine's. -/
theorem closeActive (sole : SoleExits old known e) (isActive : e.active = some s)
    (success : Bool) (now : Int) : SoleExits old known (e.closeActive s success now) := by
  obtain ⟨completed, pending, nacks, closed⟩ := closeActive_cases e isActive success now
  obtain ⟨earlier, traceEq, records⟩ := sole.past
  have own := sole.sessions s (mem_sessions_of_active isActive)
  have waiting : ∀ s ∈ e.queue, SoleExit known s := fun s member =>
    sole.sessions s (List.mem_append_right _ member)
  rw [closed.afterEq]
  constructor
  · dsimp only
    rw [traceEq, List.append_assoc]
    refine ⟨_, rfl, ?_⟩
    intro recorded nacks member
    rcases List.mem_append.mp member with here | here
    · exact records recorded nacks here
    · cases success with
      | false => simp at here
      | true =>
          simp at here
          rw [here.1]
          exact ⟨own.known, own.exitNodes⟩
  · unfold Engine.sessions
    dsimp only
    cases queue : e.queue with
    | nil => simp
    | cons next rest =>
        rw [queue] at waiting
        obtain ⟨first, behind⟩ := List.forall_mem_cons.mp waiting
        exact List.forall_mem_cons.mpr ⟨⟨first.known, first.exitNodes⟩, behind⟩

/-- `setupActive` neither makes a session nor touches its exits. -/
theorem rule (old : List EngineEvent) (known : List (String × String)) (now : Int)
    (staged : List FileChunk) :
    SetupRule now staged (SoleExits old known) (SoleExits old known) where
  pending := fun _ sole => ⟨sole.past, sole.sessions⟩
  idle := fun sole _ => ⟨sole.past, sole.sessions⟩
  reset := fun sole _ => ⟨sole.past, sole.sessions⟩
  chunk := fun sole _ _ _ ran => sole.processChunk ran
  close := fun {e s c after success} sole isActive _ _ ran => by
    obtain ⟨same, _⟩ := processChunk_spec ran
    exact (sole.processChunk ran).closeActive (same.active.trans isActive) success now

theorem completeTransfer (sole : SoleExits old known e) {success : Bool}
    (ran : e.completeTransfer success now = some after) : SoleExits old known after := by
  cases isActive : e.active with
  | none =>
      unfold Engine.completeTransfer completeTransferWith at ran
      rw [isActive] at ran
      cases ran
      exact sole
  | some s =>
      exact (rule old known now e.pendingChunks.view).completeTransfer isActive
        (sole.closeActive isActive success now) (fun c member => member) ran

/-- `Enqueue` starts a session with the node of the message as its exit. -/
theorem enqueue (sole : SoleExits old known e) (bare : Bare e) (isKnown : m.pair ∈ known)
    (now : Int) : SoleExits old known (e.enqueue m now) := by
  have new : SoleExit known (sessionOf m) := ⟨isKnown, rfl⟩
  cases isActive : e.active with
  | none =>
      rw [enqueue_idle bare isActive]
      refine sole.append rfl (by simp) ?_
      intro s member
      rw [List.mem_singleton.mp member]
      exact ⟨new.known, new.exitNodes⟩
  | some s =>
      have first := sole.sessions s (mem_sessions_of_active isActive)
      have waiting : ∀ s ∈ e.queue, SoleExit known s := fun s member =>
        sole.sessions s (List.mem_append_right _ member)
      unfold Engine.enqueue
      rw [isActive]
      dsimp only
      split
      · rename_i same
        exact ⟨sole.past, List.forall_mem_cons.mpr ⟨first.addExit same, waiting⟩⟩
      · cases found : mergeQueued m e.queue with
        | some merged =>
            have queued := mergeQueued_soleExit waiting found
            exact ⟨sole.past, List.forall_mem_cons.mpr ⟨first, queued⟩⟩
        | none =>
            have queued := List.forall_mem_append.mpr ⟨waiting, List.forall_mem_singleton.mpr new⟩
            exact ⟨sole.past, List.forall_mem_cons.mpr ⟨first, queued⟩⟩

theorem onMeta (sole : SoleExits old known e) (consistent : Consistent e)
    (isKnown : m.pair ∈ known) (ran : e.onMeta m now = some after) :
    SoleExits old known after := by
  have forgotten : SoleExits old known (e.forget m) := ⟨sole.past, sole.sessions⟩
  rcases onMeta_cases ran with ⟨rfl, _⟩ | ⟨_, ⟨stamps, rfl⟩ | ⟨ready, isReady, ran⟩⟩
  · exact sole
  · exact ⟨forgotten.past, forgotten.sessions⟩
  have before : SoleExits old known ready := by
    cases isReady with
    | asItWas stamps => exact ⟨forgotten.past, forgotten.sessions⟩
    | superseding _ aborted => exact forgotten.completeTransfer aborted
  have enqueued := before.enqueue (consistent.ready isReady).toBare isKnown now
  obtain ⟨stamps, queued, queuedEq, outcome⟩ := enqueueAndSetUp_cases ran
  have stamped : SoleExits old known queued := by
    rw [queuedEq]
    exact ⟨enqueued.past, enqueued.sessions⟩
  rcases outcome with ⟨_, _, setUp⟩ | ⟨_, rfl⟩
  · exact (rule old known now queued.pendingChunks.view).setupActive stamped
      (fun c member => member) setUp
  · exact stamped

theorem onChunk (sole : SoleExits old known e) {c : FileChunk}
    (ran : e.onChunk c now = some after) : SoleExits old known after := by
  rcases onChunk_cases ran with ⟨sessions, pending, rfl⟩ |
    ⟨s, sessions, next, finished, success, _, _, processed, ran⟩
  · exact ⟨sole.past, sole.sessions⟩
  have cleared : SoleExits old known { e with recentlyCompletedSession := sessions } :=
    ⟨sole.past, sole.sessions⟩
  have written := cleared.processChunk processed
  split at ran
  · exact written.completeTransfer ran
  · cases ran
    exact written

theorem onTick (sole : SoleExits old known e) (ran : e.onTick now = some after) :
    SoleExits old known after := by
  have expired : SoleExits old known (e.expire now) := ⟨sole.past, sole.sessions⟩
  obtain ⟨quiet, next, nacked, timed, stalled⟩ := onTick_cases ran
  refine passive ?_ stalled
  rcases timed with rfl | timedOut
  · exact expired.passive nacked
  · exact (expired.passive nacked).completeTransfer timedOut

end SoleExits

/-- The sessions recorded between two states. -/
def recordedSince (before after : Engine) : List Session :=
  (after.trace.drop before.trace.length).filterMap EngineEvent.recorded?

/-- The keys closed between two states. -/
def closedSince (before after : Engine) : List String :=
  after.closedKeys.drop before.closedKeys.length

theorem SoleExits.recordedSince (sole : SoleExits e.trace known after) :
    ∀ s ∈ e.recordedSince after, SoleExit known s := by
  obtain ⟨notes, traceEq, records⟩ := sole.past
  intro s member
  unfold Engine.recordedSince at member
  rw [traceEq, List.drop_left] at member
  obtain ⟨note, inside, isRecord⟩ := List.mem_filterMap.mp member
  cases note with
  | record session nacks =>
      cases isRecord
      exact records s nacks inside
  | _ => cases isRecord

end Engine

/-! ## Client and engine, with the exits kept apart -/

/-- A turn of the client, of the loop of `RunEngine`, or of its ticker. -/
inductive Turn where
  | arrival (arrival : Arrival)
  | tick (now : Int)

/-- The state after a turn, or a panic. -/
def Ingress.turn (rt : Runtime) (s : Ingress) : Turn → Option Ingress
  | .arrival arrival => s.step rt arrival
  | .tick now => (s.engine.onTick now).map fun engine => { s with engine := engine }

/-- What a turn does: a message goes through the client, the front of a channel goes to the
engine, and an empty channel stays as it is. -/
inductive Ingress.Turned (rt : Runtime) (s : Ingress) : Turn → Ingress → Prop
  | message (parts : List String) (payload : List UInt8) :
      Turned rt s (.arrival (.message parts payload))
        { s with client := s.client.onMessage rt parts payload }
  | noMeta (now : Int) (none : s.client.metaCh = []) : Turned rt s (.arrival (.receiveMeta now)) s
  | takesMeta (now : Int) {m : FileMeta} {rest : List FileMeta} {engine : Engine}
      (metas : s.client.metaCh = m :: rest) (handled : s.engine.onMeta m now = some engine) :
      Turned rt s (.arrival (.receiveMeta now))
        { client := { s.client with metaCh := rest }, engine := engine }
  | noChunk (now : Int) : Turned rt s (.arrival (.receiveChunk now)) s
  | takesChunk (now : Int) {c : FileChunk} {rest : List FileChunk} {engine : Engine}
      (handled : s.engine.onChunk c now = some engine) :
      Turned rt s (.arrival (.receiveChunk now))
        { client := { s.client with chunkCh := rest }, engine := engine }
  | tick (now : Int) {engine : Engine} (handled : s.engine.onTick now = some engine) :
      Turned rt s (.tick now) { s with engine := engine }

theorem Ingress.turned {rt : Runtime} {s next : Ingress} {turn : Turn}
    (ran : s.turn rt turn = some next) : s.Turned rt turn next := by
  cases turn with
  | tick now =>
      obtain ⟨engine, handled, rfl⟩ := Option.map_eq_some_iff.mp ran
      exact .tick now handled
  | arrival arrival =>
      unfold Ingress.turn at ran
      cases arrival with
      | message parts payload =>
          cases ran
          exact .message parts payload
      | receiveMeta now =>
          unfold Ingress.step at ran
          dsimp only at ran
          split at ran
          · rename_i none
            cases ran
            exact .noMeta now none
          · rename_i metas
            obtain ⟨engine, handled, rfl⟩ := Option.map_eq_some_iff.mp ran
            exact .takesMeta now metas handled
      | receiveChunk now =>
          unfold Ingress.step at ran
          dsimp only at ran
          split at ran
          · cases ran
            exact .noChunk now
          · obtain ⟨engine, handled, rfl⟩ := Option.map_eq_some_iff.mp ran
            exact .takesChunk now handled

/-- `nodeID := parts[1]`: the exit that published a message. -/
def topicNode (parts : List String) : String := parts.getD 1 ""

/-- What an observer writes down who can tell the exits apart: the exits behind the metas in
`metaCh`; the exits that have published meta for each transfer since it was enqueued; and every
recorded session, with its exits. -/
structure ExitLog where
  ingress : Ingress
  waiting : List String := []
  heard : String × String → Finset String := fun _ => ∅
  recorded : List (Session × Finset String) := []

namespace ExitLog

/-- The meta message that the engine receives in a turn, with its exit. -/
def received (log : ExitLog) : Turn → Option (FileMeta × String)
  | .arrival (.receiveMeta _) => (log.ingress.client.metaCh.zip log.waiting).head?
  | _ => none

/-- The exits behind the metas in `metaCh` after a turn. -/
def waits (log : ExitLog) (next : Ingress) : Turn → List String
  | .arrival (.message parts _) =>
      log.waiting ++ List.replicate
        (next.client.metaCh.length - log.ingress.client.metaCh.length) (topicNode parts)
  | .arrival (.receiveMeta _) => log.waiting.tail
  | _ => log.waiting

/-- The exits with the message that is received: it comes to a session that is active or
queued, or it is the first one for its transfer. -/
def hears (log : ExitLog) (turn : Turn) : String × String → Finset String :=
  match log.received turn with
  | none => log.heard
  | some (m, exit) =>
      Function.update log.heard m.pair
        (if m.pair ∈ log.ingress.engine.sessions.map Session.pair
        then insert exit (log.heard m.pair) else {exit})

/-- The exits after the turn: if the message has found its session completed by this very turn,
it is the first one of the next session. -/
def keeps (log : ExitLog) (turn : Turn) (next : Ingress) : String × String → Finset String :=
  match log.received turn with
  | none => log.hears turn
  | some (m, exit) =>
      if m.key ∈ log.ingress.engine.closedSince next.engine
      then Function.update (log.hears turn) m.pair {exit} else log.hears turn

def observe (log : ExitLog) (turn : Turn) (next : Ingress) : ExitLog where
  ingress := next
  waiting := log.waits next turn
  heard := log.keeps turn next
  recorded := log.recorded ++ (log.ingress.engine.recordedSince next.engine).map fun s =>
    (s, log.hears turn s.pair)

def step (rt : Runtime) (log : ExitLog) (turn : Turn) : Option ExitLog :=
  (log.ingress.turn rt turn).map (log.observe turn)

def run (rt : Runtime) (log : ExitLog) : List Turn → Option ExitLog
  | [] => some log
  | turn :: rest => do
      let log ← log.step rt turn
      log.run rt rest

/-- Before the first message. -/
def start (srWindow srTimeout : Nat) : ExitLog where
  ingress := { client := {}, engine := newEngine srWindow srTimeout }

/-- `len(r.ExitNodes)`, the `exit_node_count` of a record. -/
def exitNodeCount (s : Session) : Nat := s.exitNodes.card

variable {rt : Runtime} {log after : ExitLog} {turn : Turn}

/-- `onMessage` has made `m` out of a message that `exit` published. -/
def PublishedBy (rt : Runtime) (exit : String) (m : FileMeta) : Prop :=
  ∃ payload fm, rt.unmarshal payload = some fm ∧ m = fm.withNode (sourceOf rt exit fm)

/-- Every session and every record has its source as the only exit, and has been heard of. -/
structure Sound (rt : Runtime) (log : ExitLog) : Prop where
  consistent : log.ingress.engine.Consistent
  waiting : List.Forall₂ (PublishedBy rt) log.waiting log.ingress.client.metaCh
  exitNodes : ∀ s ∈ log.ingress.engine.sessions, s.exitNodes = {s.nodeId}
  heard : ∀ s ∈ log.ingress.engine.sessions, (log.heard s.pair).Nonempty
  recorded : ∀ entry ∈ log.recorded, entry.1.exitNodes = {entry.1.nodeId} ∧ entry.2.Nonempty

/-- The exits that a session can have been heard from are never none. -/
theorem nonempty_hears {pair : String × String}
    (heard : (log.heard pair).Nonempty ∨
      ∃ m exit, log.received turn = some (m, exit) ∧ m.pair = pair) :
    (log.hears turn pair).Nonempty := by
  unfold hears
  cases received : log.received turn with
  | none =>
      rw [received] at heard
      exact heard.resolve_right (by simp)
  | some found =>
      obtain ⟨m, exit⟩ := found
      dsimp only
      by_cases own : pair = m.pair
      · rw [own, Function.update_self]
        split
        · exact Finset.insert_nonempty _ _
        · exact Finset.singleton_nonempty _
      · rw [Function.update_of_ne own]
        rw [received] at heard
        refine heard.resolve_right ?_
        rintro ⟨_, _, same, rfl⟩
        cases same
        exact own rfl

theorem nonempty_keeps {pair : String × String} {next : Ingress}
    (heard : (log.hears turn pair).Nonempty) : (log.keeps turn next pair).Nonempty := by
  unfold keeps
  cases log.received turn with
  | none => exact heard
  | some found =>
      dsimp only
      split
      · by_cases own : pair = found.1.pair
        · rw [own, Function.update_self]
          exact Finset.singleton_nonempty _
        · rw [Function.update_of_ne own]
          exact heard
      · exact heard

/-- `onMessage` queues at most one meta, and that of the exit in the topic. -/
theorem onMessage_metaCh (rt : Runtime) (c : Client) (parts : List String)
    (payload : List UInt8) :
    (c.onMessage rt parts payload).metaCh = c.metaCh ∨
      ∃ m, (c.onMessage rt parts payload).metaCh = c.metaCh ++ [m] ∧
        PublishedBy rt (topicNode parts) m := by
  unfold Client.onMessage
  split
  · rename_i nodeId rest
    unfold Client.onFileMeta
    split
    · exact .inl rfl
    · rename_i fm decoded
      dsimp only
      split
      · exact .inr ⟨_, rfl, payload, fm, decoded, rfl⟩
      · exact .inl rfl
  · rw [Client.onFileData_eq]
    split <;> exact .inl rfl
  · exact .inl rfl

/-- The sessions of the engine, and those of a transfer that a message has named. -/
theorem Sound.soleExits (sound : log.Sound rt) {known : List (String × String)}
    (wide : ∀ s ∈ log.ingress.engine.sessions, s.pair ∈ known) :
    Engine.SoleExits log.ingress.engine.trace known log.ingress.engine where
  past := ⟨[], (List.append_nil _).symm, fun _ _ none => absurd none List.not_mem_nil⟩
  sessions := fun s member => ⟨wide s member, sound.exitNodes s member⟩

/-- What a turn does to the engine: no session is of a transfer that was neither known nor
named by the message received. -/
theorem Sound.engine (sound : log.Sound rt) {next : Ingress}
    (ran : log.ingress.turn rt turn = some next) :
    next.engine.Consistent ∧
      ∃ known, Engine.SoleExits log.ingress.engine.trace known next.engine ∧
        ∀ pair ∈ known, pair ∈ log.ingress.engine.sessions.map Session.pair ∨
          ∃ m exit, log.received turn = some (m, exit) ∧ m.pair = pair := by
  have sole := sound.soleExits fun s member => List.mem_map_of_mem member
  have old : ∀ pair ∈ log.ingress.engine.sessions.map Session.pair,
      pair ∈ log.ingress.engine.sessions.map Session.pair ∨
        ∃ m exit, log.received turn = some (m, exit) ∧ m.pair = pair := fun _ member => .inl member
  have unchanged : next.engine = log.ingress.engine → next.engine.Consistent ∧
      ∃ known, Engine.SoleExits log.ingress.engine.trace known next.engine ∧
        ∀ pair ∈ known, pair ∈ log.ingress.engine.sessions.map Session.pair ∨
          ∃ m exit, log.received turn = some (m, exit) ∧ m.pair = pair := by
    intro same
    rw [same]
    exact ⟨sound.consistent, _, sole, old⟩
  cases Ingress.turned ran with
  | message | noMeta | noChunk => exact unchanged rfl
  | tick now handled => exact ⟨sound.consistent.onTick handled, _, sole.onTick handled, old⟩
  | takesChunk now handled =>
      exact ⟨sound.consistent.onChunk handled, _, sole.onChunk handled, old⟩
  | @takesMeta now m rest engine metas handled =>
      have waiting := sound.waiting
      rw [metas] at waiting
      obtain ⟨exit, others, _, _, exits⟩ := List.forall₂_cons_right_iff.mp waiting
      have received : log.received (.arrival (.receiveMeta now)) = some (m, exit) := by
        unfold ExitLog.received
        rw [metas, exits]
        rfl
      have named := sound.soleExits fun s member =>
        List.mem_cons_of_mem m.pair (List.mem_map_of_mem member)
      refine ⟨sound.consistent.onMeta handled, _,
        named.onMeta sound.consistent List.mem_cons_self handled, ?_⟩
      intro pair member
      rcases List.mem_cons.mp member with rfl | before
      · exact .inr ⟨m, exit, received, rfl⟩
      · exact .inl before

/-- The exits keep step with the metas. -/
theorem Sound.waits (sound : log.Sound rt) {next : Ingress}
    (ran : log.ingress.turn rt turn = some next) :
    List.Forall₂ (PublishedBy rt) (log.waits next turn) next.client.metaCh := by
  have waiting := sound.waiting
  cases Ingress.turned ran with
  | tick | noChunk | takesChunk => exact waiting
  | message parts payload =>
      unfold ExitLog.waits
      dsimp only
      rcases onMessage_metaCh rt log.ingress.client parts payload with
        same | ⟨m, grown, published⟩
      · rw [same, Nat.sub_self, List.replicate_zero, List.append_nil]
        exact waiting
      · rw [grown, List.length_append, Nat.add_sub_cancel_left]
        exact List.rel_append waiting (.cons published .nil)
  | noMeta now none =>
      rw [none] at waiting ⊢
      unfold ExitLog.waits
      dsimp only
      rw [List.forall₂_nil_right_iff.mp waiting]
      exact .nil
  | takesMeta now metas handled =>
      rw [metas] at waiting
      obtain ⟨exit, others, _, behind, exits⟩ := List.forall₂_cons_right_iff.mp waiting
      unfold ExitLog.waits
      dsimp only
      rw [exits]
      exact behind

theorem Sound.step (sound : log.Sound rt) (ran : log.step rt turn = some after) :
    after.Sound rt := by
  obtain ⟨next, turned, rfl⟩ := Option.map_eq_some_iff.mp ran
  obtain ⟨consistent, known, sole, origins⟩ := sound.engine turned
  have heard : ∀ s, Engine.SoleExit known s → (log.hears turn s.pair).Nonempty := by
    intro s isSole
    apply nonempty_hears
    rcases origins s.pair isSole.known with before | named
    · obtain ⟨old, member, same⟩ := List.mem_map.mp before
      exact .inl (same ▸ sound.heard old member)
    · exact .inr named
  refine ⟨consistent, sound.waits turned, ?_, ?_, ?_⟩
  · exact fun s member => (sole.sessions s member).exitNodes
  · exact fun s member => nonempty_keeps (heard s (sole.sessions s member))
  · intro entry member
    rcases List.mem_append.mp member with before | new
    · exact sound.recorded entry before
    · obtain ⟨s, isRecorded, rfl⟩ := List.mem_map.mp new
      have isSole := sole.recordedSince s isRecorded
      exact ⟨isSole.exitNodes, heard s isSole⟩

theorem Sound.run (sound : log.Sound rt) {turns : List Turn}
    (ran : log.run rt turns = some after) : after.Sound rt := by
  induction turns generalizing log with
  | nil =>
      cases ran
      exact sound
  | cons turn rest inductionHypothesis =>
      obtain ⟨next, stepped, ran⟩ := Option.bind_eq_some_iff.mp ran
      exact inductionHypothesis (sound.step stepped) ran

theorem sound_start (rt : Runtime) (srWindow srTimeout : Nat) :
    (start srWindow srTimeout).Sound rt where
  consistent := Engine.consistent_newEngine srWindow srTimeout
  waiting := .nil
  exitNodes := fun _ none => absurd none List.not_mem_nil
  heard := fun _ none => absurd none List.not_mem_nil
  recorded := fun _ none => absurd none List.not_mem_nil

/-- Over every run of the client and the engine: the recorded exit nodes are those that have
published meta for the session exactly when its own source is the only one of them, and the
stored count is their number exactly when they are one. -/
theorem exit_count_iff (rt : Runtime) (srWindow srTimeout : Nat) (turns : List Turn)
    (ran : (start srWindow srTimeout).run rt turns = some after) :
    ∀ entry ∈ after.recorded,
      (entry.1.exitNodes = entry.2 ↔ ∀ exit ∈ entry.2, exit = entry.1.nodeId) ∧
        (exitNodeCount entry.1 = entry.2.card ↔ entry.2.card = 1) := by
  intro entry member
  obtain ⟨sole, heard⟩ := ((sound_start rt srWindow srTimeout).run ran).recorded entry member
  unfold exitNodeCount
  rw [sole, Finset.card_singleton]
  refine ⟨?_, eq_comm⟩
  rw [eq_comm, Finset.eq_singleton_iff_nonempty_unique_mem]
  exact and_iff_right heard

/-! ## One byte of node `000a` -/

/-- The meta message, as `exit` publishes it. -/
def byteMeta (exit : String) : Turn :=
  .arrival (.message ["flp", exit, "file", "meta"] (ascii
    ("\x7b\"session_id\":7,\"src_node\":\"0x000A\",\"filename\":\"f\",\"total_size\":1," ++
      "\"chunk_count\":1,\"crc32\":1281784366,\"fragment_size\":1\x7d")))

/-- The only chunk, as `exit` publishes it. -/
def byteData (exit : String) : Turn :=
  .arrival (.message ["flp", exit, "file", "data"] [7, 0, 0, 0, 7])

/-- Node `000a` is its own exit. -/
def directTurns : List Turn :=
  [byteMeta "000a", .arrival (.receiveMeta 1000), byteData "000a", .arrival (.receiveChunk 2000)]

theorem exit_count_iff_direct : ∃ after entry,
    (start 64 5).run asciiRuntime directTurns = some after ∧ entry ∈ after.recorded ∧
      entry.1.exitNodes = entry.2 ∧ exitNodeCount entry.1 = entry.2.card := by
  have computed : ((start 64 5).run asciiRuntime directTurns).any (fun after =>
      after.recorded.any fun entry => entry.1.nodeId == "000a" && entry.2 == {"000a"}) = true := by
    decide +kernel
  obtain ⟨after, ran, records⟩ := (Option.any_eq_true ..).mp computed
  obtain ⟨entry, member, facts⟩ := List.any_eq_true.mp records
  rw [Bool.and_eq_true, beq_iff_eq, beq_iff_eq] at facts
  obtain ⟨node, heard⟩ := facts
  obtain ⟨nodes, count⟩ := exit_count_iff asciiRuntime 64 5 directTurns ran entry member
  refine ⟨after, entry, ran, member, nodes.mpr ?_, count.mpr ?_⟩
  · intro exit isHeard
    rw [heard] at isHeard
    rw [node, Finset.mem_singleton.mp isHeard]
  · rw [heard, Finset.card_singleton]

/-- Two exits publish the meta message of node `000a`, two seconds apart. -/
def relayedTurns : List Turn :=
  [byteMeta "000b", byteMeta "000c", .arrival (.receiveMeta 1000), .arrival (.receiveMeta 3000),
    byteData "000b", .arrival (.receiveChunk 4000)]

/-- The record names the source as the one exit; there have been two others. -/
theorem exit_count_relayed : ∃ after entry,
    (start 64 5).run asciiRuntime relayedTurns = some after ∧ entry ∈ after.recorded ∧
      entry.1.exitNodes = {"000a"} ∧ entry.2 = {"000b", "000c"} ∧
      entry.1.exitNodes ≠ entry.2 ∧ exitNodeCount entry.1 ≠ entry.2.card := by
  have computed : ((start 64 5).run asciiRuntime relayedTurns).any (fun after =>
      after.recorded.any fun entry =>
        entry.1.exitNodes == {"000a"} && entry.2 == {"000b", "000c"}) = true := by
    decide +kernel
  obtain ⟨after, ran, records⟩ := (Option.any_eq_true ..).mp computed
  obtain ⟨entry, member, facts⟩ := List.any_eq_true.mp records
  rw [Bool.and_eq_true, beq_iff_eq, beq_iff_eq] at facts
  obtain ⟨recorded, heard⟩ := facts
  refine ⟨after, entry, ran, member, recorded, heard, ?_, ?_⟩
  · rw [recorded, heard]
    decide
  · unfold exitNodeCount
    rw [recorded, heard]
    decide

end ExitLog

end ForestLink.Cloud
