/-
Module: ForestLink.Proofs.OvertakenMeta
Purpose: Chunks that reach `RunEngine` before the meta message of their session does.  Those
  of a relayed session that also pass `onMessage` before it carry the name of the exit and
  are not replayed.
Trusted boundary: none
Main exports: Relay, Relay.HandsOver, Relay.staged_handed_iff
-/
import ForestLink.Cloud.Ingress
import ForestLink.Proofs.EngineConsistency

namespace ForestLink.Cloud

open ForestLink.Lib

/-! ## Keys and numbers as text -/

theorem transferKey_inj {sessionId one two : String}
    (same : transferKey sessionId one = transferKey sessionId two) : one = two := by
  unfold transferKey at same
  rw [String.append_assoc, String.append_assoc] at same
  have lists := congrArg String.toList same
  simp only [String.toList_append] at lists
  exact String.toList_inj.mp (List.append_cancel_right lists)

/-- A session id as a node prints it is read back by the client. -/
theorem parseInt64_toString {n : Nat} (small : n < 2 ^ 63) :
    parseInt64 (toString n) = some (n : Int) := by
  have text : (toString n).toList = Nat.toDigits 10 n := Nat.toList_repr
  have digits : (Nat.toDigits 10 n).all Char.isDigit = true :=
    List.all_eq_true.mpr fun c member =>
      Nat.isDigit_of_mem_toDigits (by decide) (by decide) member
  have value : Nat.ofDigitChars 10 (Nat.toDigits 10 n) 0 = n := Nat.ofDigitChars_ten_toDigits
  unfold parseInt64
  rw [text]
  cases written : Nat.toDigits 10 n with
  | nil => exact absurd written Nat.toDigits_ne_nil
  | cons first rest =>
      rw [written] at digits value
      have isDigit : first.isDigit = true := (List.all_eq_true.mp digits) first List.mem_cons_self
      have noMinus : first ≠ '-' := by
        rintro rfl
        cases isDigit
      have noPlus : first ≠ '+' := by
        rintro rfl
        cases isDigit
      have unsigned : splitSign (first :: rest) = (false, first :: rest) := by
        unfold splitSign
        split
        · rename_i same
          exact absurd (List.cons.inj same).1 noMinus
        · rename_i same
          exact absurd (List.cons.inj same).1 noPlus
        · rfl
      rw [unsigned]
      dsimp only
      rw [if_neg (by rw [digits]; simp), value, if_neg Bool.false_ne_true, if_pos (by omega)]

/-! ## The engine without an active session -/

namespace Engine

variable {e after : Engine} {m : FileMeta} {now : Int}

/-- Without an active session a chunk is staged or dropped. -/
theorem onChunk_inactive (isNone : e.active = none) {c : FileChunk}
    (ran : e.onChunk c now = some after) : ∃ sessions pending staged,
      after = { e with recentlyCompletedSession := sessions, pendingChunks := pending } ∧
        pending.view = e.pendingChunks.view ++ staged ∧ (staged = [] ∨ staged = [c]) := by
  unfold onChunk at ran
  dsimp only at ran
  split at ran
  · cases ran
    exact ⟨e.recentlyCompletedSession, e.pendingChunks, [], rfl, (List.append_nil _).symm, .inl rfl⟩
  split at ran
  · rename_i isActive _ _
    cases isNone.symm.trans isActive
  · split at ran
    · cases ran
      exact ⟨_, _, [c], rfl, Slice.view_append _ c, .inr rfl⟩
    · cases ran
      exact ⟨_, e.pendingChunks, [], rfl, (List.append_nil _).symm, .inl rfl⟩

/-- The chunks that the replay of a session hands over: its own, up to the one that
completes it. -/
def replayed (s : Session) (staged : List FileChunk) : List FileChunk :=
  match splitAtCompletion s.key (freshReassembler s) staged with
  | none => own s.key staged
  | some (done, _) => own s.key done

theorem key_of_replayed {s : Session} {staged : List FileChunk} {c : FileChunk}
    (member : c ∈ replayed s staged) : c.key = s.key := by
  unfold replayed at member
  split at member
  · exact (mem_own.mp member).2
  · exact (mem_own.mp member).2

theorem own_eq_self {key : String} {chunks : List FileChunk} (all : ∀ c ∈ chunks, c.key = key) :
    own key chunks = chunks := by
  apply List.filter_eq_self.mpr
  intro c member
  exact beq_iff_eq.mpr (all c member)

/-- Chunks of other sessions in front make no difference. -/
theorem replayed_append {s : Session} {foreign : List FileChunk}
    (others : ∀ c ∈ foreign, c.key ≠ s.key) (staged : List FileChunk) :
    replayed s (foreign ++ staged) = replayed s staged := by
  have split : ∀ r : FileReassembler, splitAtCompletion s.key r (foreign ++ staged) =
      (splitAtCompletion s.key r staged).map fun parts => (foreign ++ parts.1, parts.2) := by
    intro r
    induction foreign with
    | nil =>
        rw [List.nil_append]
        cases splitAtCompletion s.key r staged <;> rfl
    | cons c rest inductionHypothesis =>
        have deeper := inductionHypothesis fun other member =>
          others other (List.mem_cons_of_mem c member)
        rw [List.cons_append, splitAtCompletion, if_neg (others c List.mem_cons_self), deeper]
        cases splitAtCompletion s.key r staged <;> rfl
  have none : ∀ chunks, own s.key (foreign ++ chunks) = own s.key chunks := by
    intro chunks
    unfold own
    rw [List.filter_append, List.filter_eq_nil_iff.mpr, List.nil_append]
    intro c member same
    exact others c member (beq_iff_eq.mp same)
  unfold replayed
  rw [split]
  cases splitAtCompletion s.key (freshReassembler s) staged with
  | none => exact none staged
  | some parts => exact none parts.1

/-- With nobody waiting the replay of the only session is all that happens. -/
theorem setupActive_replays (ran : e.setupActive now = some after) {s : Session}
    (isActive : e.active = some s) (empty : e.queue = []) :
    after.processedChunks = e.processedChunks ++ replayed s e.pendingChunks.view := by
  unfold replayed
  cases finished : splitAtCompletion s.key (freshReassembler s) e.pendingChunks.view with
  | none =>
      rw [setupActive_eq] at ran
      exact (setupActiveWith_open isActive ran finished).1.processed
  | some parts =>
      obtain ⟨done, rest⟩ := parts
      obtain ⟨nested, next, closing⟩ := setupActive_closing ran isActive finished
      have noNext : ∀ waiting, e.queue.head? = some waiting → waiting.key ≠ s.key →
          ∀ c ∈ e.pendingChunks.view, c.key ≠ waiting.key := by
        intro waiting isHead
        rw [empty] at isHead
        cases isHead
      have idle := closing.idle (append_of_splitAtCompletion finished) noNext
      rw [closing.processedAfter, idle.2.1, closing.processed]

/-- The meta message of a session that becomes active replays what is staged for it. -/
theorem onMeta_replays (consistent : Consistent e) (isNone : e.active = none)
    (passes : ∀ expiresAt, e.recentlyCompletedMeta (completedMetaKey m) = some expiresAt →
      expiresAt ≤ now) (ran : e.onMeta m now = some after) :
    after.processedChunks =
      e.processedChunks ++ replayed (sessionOf m) e.pendingChunks.view := by
  have notSuppressed : ¬ ((e.recentlyCompletedMeta (completedMetaKey m)).any
      fun expiresAt => now < expiresAt) = true := by
    rw [Option.any_eq_true]
    rintro ⟨expiresAt, entry, later⟩
    have expired := passes expiresAt entry
    have later := of_decide_eq_true later
    omega
  rw [onMeta_eq, if_neg notSuppressed, isNone] at ran
  have forgotten : Bare (e.forget m) := ⟨consistent.distinct, consistent.idle⟩
  have stillNone : (e.forget m).active = none := isNone
  obtain ⟨stamps, queued, queuedEq, outcome⟩ := enqueueAndSetUp_cases ran
  rw [enqueue_idle forgotten stillNone] at queuedEq
  have isActive : queued.active = some { sessionOf m with startedAt := now } := by
    rw [queuedEq]
  have noReceiver : queued.sr = none := by
    rw [queuedEq]
    exact consistent.srNone.mpr isNone
  have noNotes : queued.processedChunks = e.processedChunks := by
    rw [queuedEq]
    unfold processedChunks
    dsimp only
    rw [List.filterMap_append]
    exact List.append_nil _
  have samePending : queued.pendingChunks = e.pendingChunks := by
    rw [queuedEq]
    rfl
  rcases outcome with ⟨_, _, setUp⟩ | ⟨inactive | hasSr, _⟩
  · have replays := setupActive_replays setUp isActive (by rw [queuedEq])
    rw [noNotes, samePending] at replays
    exact replays
  · rw [isActive] at inactive
    cases inactive
  · exact absurd noReceiver hasSr

end Engine

/-! ## The messages of one relayed session -/

/-- A session whose exit `exit` is not its source, with the payload of its meta message. -/
structure Relay (rt : Runtime) where
  exit : String
  sessionId : Nat
  payload : List UInt8
  fields : MetaPayload
  decodes : rt.unmarshal payload = some fields
  small : sessionId < 2 ^ 16
  printed : fields.sessionId = toString sessionId
  relayed : sourceOf rt exit fields ≠ exit

namespace Relay

open Engine

variable {rt : Runtime} (relay : Relay rt)

/-- The source that the meta message names. -/
def source : String := sourceOf rt relay.exit relay.fields

/-- The meta message as `RunEngine` gets it. -/
def fileMeta : FileMeta := relay.fields.withNode relay.source

/-- The meta message of the exit. -/
def metaMessage : Arrival := .message ["flp", relay.exit, "file", "meta"] relay.payload

/-- A data message of the exit for the session, or `RunEngine` receiving a chunk. -/
def Belongs : Arrival → Prop
  | .message parts payload => parts = ["flp", relay.exit, "file", "data"] ∧
      ∀ low high rest, payload = low :: high :: rest →
        low.toNat + 256 * high.toNat = relay.sessionId
  | .receiveMeta _ => False
  | .receiveChunk _ => True

/-- A chunk of the session that has been filed under `node`. -/
def FiledUnder (node : String) (c : FileChunk) : Prop :=
  c.sessionId = relay.sessionId ∧ c.nodeId = node

/-- While no session is active: what has been staged behind `stagedBefore`, what waits in the
channel, and the node under which the next chunk of the session is filed. -/
structure Waits (e : Engine) (metas : List FileMeta) (node : String) (s : Ingress)
    (staged waiting : List FileChunk) : Prop where
  engine : ∃ sessions pending, s.engine =
    { e with recentlyCompletedSession := sessions, pendingChunks := pending } ∧
      pending.view = e.pendingChunks.view ++ staged
  metaCh : s.client.metaCh = metas
  chunkCh : s.client.chunkCh = waiting
  canonical : s.client.canonicalNode relay.exit relay.sessionId = node

variable {relay} {e : Engine} {metas : List FileMeta} {node : String} {s after : Ingress}
  {staged waiting : List FileChunk}

/-- A data message adds at most one chunk to the channel. -/
theorem Waits.data (waits : relay.Waits e metas node s staged waiting) {payload : List UInt8}
    (own : ∀ low high rest, payload = low :: high :: rest →
      low.toNat + 256 * high.toNat = relay.sessionId) :
    ∃ new, relay.Waits e metas node
        { s with client := s.client.onFileData relay.exit payload } staged (waiting ++ new) ∧
      ∀ c ∈ new, relay.FiledUnder node c := by
  have unread : ∃ new, relay.Waits e metas node s staged (waiting ++ new) ∧
      ∀ c ∈ new, relay.FiledUnder node c :=
    ⟨[], by rwa [List.append_nil], fun c none => absurd none List.not_mem_nil⟩
  rw [Client.onFileData_eq]
  cases decoded : s.client.decodeFileData relay.exit payload with
  | none => exact unread
  | some chunk =>
      obtain ⟨low, high, _, _, rfl, session, -, filed⟩ := Client.decodeFileData_eq_some decoded
      rw [own low high _ rfl] at session
      rw [session, waits.canonical] at filed
      dsimp only
      split
      · refine ⟨[chunk], ⟨waits.engine, waits.metaCh, ?_, waits.canonical⟩, ?_⟩
        · rw [← waits.chunkCh]
        · intro c member
          rw [List.mem_singleton.mp member]
          exact ⟨session, filed⟩
      · exact unread

/-- One arrival: chunks move from the channel to the staging buffer in order, or are dropped,
and new ones are filed under the node of the moment. -/
theorem Waits.step (waits : relay.Waits e metas node s staged waiting) (isNone : e.active = none)
    {arrival : Arrival} (belongs : relay.Belongs arrival) (ran : s.step rt arrival = some after) :
    ∃ moved left, relay.Waits e metas node after (staged ++ moved) left ∧
      ∀ c ∈ moved ++ left, c ∈ waiting ∨ relay.FiledUnder node c := by
  cases arrival with
  | message parts payload =>
      obtain ⟨rfl, own⟩ := belongs
      cases ran
      obtain ⟨new, next, filed⟩ := waits.data own
      refine ⟨[], waiting ++ new, ?_, ?_⟩
      · rw [List.append_nil]
        exact next
      · intro c member
        rw [List.nil_append] at member
        rcases List.mem_append.mp member with old | fresh
        · exact .inl old
        · exact .inr (filed c fresh)
  | receiveMeta now => exact belongs.elim
  | receiveChunk now =>
      unfold Ingress.step at ran
      dsimp only at ran
      cases channel : s.client.chunkCh with
      | nil =>
          rw [channel] at ran
          cases ran
          refine ⟨[], waiting, ?_, fun c member => .inl member⟩
          rw [List.append_nil]
          exact waits
      | cons c rest =>
          rw [channel] at ran
          obtain ⟨engine, handled, rfl⟩ := Option.map_eq_some_iff.mp ran
          obtain ⟨sessions, pending, engineEq, shows⟩ := waits.engine
          have stillNone : s.engine.active = none := by rw [engineEq]; exact isNone
          obtain ⟨sessions', pending', added, afterEq, shows', one⟩ :=
            onChunk_inactive stillNone handled
          have split : waiting = c :: rest := waits.chunkCh.symm.trans channel
          refine ⟨added, rest, ⟨⟨sessions', pending', ?_, ?_⟩, waits.metaCh, rfl,
            waits.canonical⟩, ?_⟩
          · rw [afterEq, engineEq]
          · rw [shows', engineEq]
            dsimp only
            rw [shows, List.append_assoc]
          · intro other member
            left
            rw [split]
            rcases List.mem_append.mp member with moved | left
            · rcases one with rfl | rfl
              · cases moved
              · exact List.mem_cons.mpr (.inl (List.mem_singleton.mp moved))
            · exact List.mem_cons_of_mem _ left

theorem Waits.run (waits : relay.Waits e metas node s staged waiting) (isNone : e.active = none)
    {arrivals : List Arrival} (belongs : ∀ arrival ∈ arrivals, relay.Belongs arrival)
    (ran : s.run rt arrivals = some after) :
    ∃ moved left, relay.Waits e metas node after (staged ++ moved) left ∧
      ∀ c ∈ moved ++ left, c ∈ waiting ∨ relay.FiledUnder node c := by
  induction arrivals generalizing s staged waiting with
  | nil =>
      cases ran
      refine ⟨[], waiting, ?_, fun c member => .inl member⟩
      rw [List.append_nil]
      exact waits
  | cons arrival rest inductionHypothesis =>
      obtain ⟨next, stepped, ran⟩ := Option.bind_eq_some_iff.mp ran
      obtain ⟨moved, left, nextWaits, origin⟩ :=
        waits.step isNone (belongs arrival List.mem_cons_self) stepped
      obtain ⟨later, last, afterWaits, laterOrigin⟩ := inductionHypothesis nextWaits
        (fun other member => belongs other (List.mem_cons_of_mem _ member)) ran
      refine ⟨moved ++ later, last, ?_, ?_⟩
      · rw [← List.append_assoc]
        exact afterWaits
      · intro c member
        rcases List.mem_append.mp member with staged | inChannel
        · rcases List.mem_append.mp staged with first | second
          · exact origin c (List.mem_append_left _ first)
          · rcases laterOrigin c (List.mem_append_left _ second) with waited | filed
            · exact origin c (List.mem_append_right _ waited)
            · exact .inr filed
        · rcases laterOrigin c (List.mem_append_right _ inChannel) with waited | filed
          · exact origin c (List.mem_append_right _ waited)
          · exact .inr filed

variable (relay)

/-- What has been staged since `start`. -/
def stagedSince (start s : Ingress) : List FileChunk :=
  s.engine.pendingChunks.view.drop start.engine.pendingChunks.view.length

/-- The step from `before` to `after` hands every one of the chunks to `processChunk`. -/
def HandsOver (before after : Ingress) (chunks : List FileChunk) : Prop :=
  ∃ handed, after.engine.processedChunks = before.engine.processedChunks ++ handed ∧
    ∀ c, chunks.count c ≤ handed.count c

variable {relay}

theorem key_of_filed {c : FileChunk} (filed : relay.FiledUnder node c) :
    c.key = transferKey (toString relay.sessionId) node := by
  unfold FileChunk.key
  rw [filed.1, filed.2]

theorem key_sessionOf (m : FileMeta) : (sessionOf m).key = m.key := rfl

theorem key_fileMeta : relay.fileMeta.key =
    transferKey (toString relay.sessionId) relay.source := by
  unfold fileMeta
  generalize relay.source = node
  exact congrArg (fun text => transferKey text node) relay.printed

theorem source_ne_empty : relay.source ≠ "" := by
  intro empty
  have relayed := relay.relayed
  unfold source at empty
  unfold sourceOf at empty relayed
  dsimp only at empty relayed
  split at empty
  · rename_i noSource
    rw [if_pos noSource] at relayed
    exact relayed rfl
  · rename_i hasSource
    exact hasSource empty

/-- From its meta message on the chunks of the session are filed under its source. -/
theorem Waits.metaMessage (waits : relay.Waits e [] node s staged waiting)
    (ran : s.step rt relay.metaMessage = some after) :
    relay.Waits e [relay.fileMeta] relay.source after staged waiting := by
  cases ran
  have numbered : parseInt64 relay.fields.sessionId = some (relay.sessionId : Int) := by
    rw [relay.printed]
    apply parseInt64_toString
    have small := relay.small
    omega
  have wrapped : ((relay.sessionId : Int) % 2 ^ 16).toNat = relay.sessionId := by
    have small := relay.small
    omega
  change relay.Waits e [relay.fileMeta] relay.source
    { s with client := s.client.onFileMeta rt relay.exit relay.payload } staged waiting
  unfold Client.onFileMeta
  rw [relay.decodes]
  dsimp only
  rw [numbered]
  dsimp only
  rw [wrapped]
  refine ⟨waits.engine, ?_, waits.chunkCh, ?_⟩
  · dsimp only
    rw [waits.metaCh]
    rfl
  · unfold Client.canonicalNode
    dsimp only
    rw [Function.update_self]
    dsimp only
    exact if_pos source_ne_empty

/-- Which chunks of a relayed session the replay covers: those filed under the source, up to
the one that completes the file. -/
theorem replayed_covers_iff {early chunks : List FileChunk}
    (earlyFiled : ∀ c ∈ early, relay.FiledUnder node c)
    (origin : ∀ c ∈ chunks, c ∈ early ∨ relay.FiledUnder relay.source c) :
    (∀ c, chunks.count c ≤ (replayed (sessionOf relay.fileMeta) chunks).count c) ↔
      (node = relay.source ∨ ∀ c ∈ early, c ∉ chunks) ∧
      ∀ done rest, splitAtCompletion relay.fileMeta.key
        (freshReassembler (sessionOf relay.fileMeta)) chunks = some (done, rest) →
          rest = [] := by
  have sessionKey := key_sessionOf relay.fileMeta
  constructor
  · intro covers
    have allOwn : ∀ c ∈ chunks, c.key = relay.fileMeta.key := by
      intro c member
      have counted := List.count_pos_iff.mpr member
      have handed := List.count_pos_iff.mp (Nat.lt_of_lt_of_le counted (covers c))
      rw [← sessionKey]
      exact key_of_replayed handed
    refine ⟨?_, ?_⟩
    · by_cases sameNode : node = relay.source
      · exact .inl sameNode
      · refine .inr fun c isEarly isStaged => sameNode ?_
        have ownKey := allOwn c isStaged
        rw [key_of_filed (earlyFiled c isEarly), key_fileMeta] at ownKey
        exact transferKey_inj ownKey
    · intro done rest finished
      have split := append_of_splitAtCompletion finished
      have handed : replayed (sessionOf relay.fileMeta) chunks = done := by
        unfold replayed
        rw [sessionKey, finished]
        exact own_eq_self fun c member => allOwn c (split ▸ List.mem_append_left _ member)
      apply List.eq_nil_iff_forall_not_mem.mpr
      intro c member
      have counted := covers c
      rw [handed, split, List.count_append] at counted
      have positive := List.count_pos_iff.mpr member
      omega
  · rintro ⟨filedRight, completesLast⟩
    have allOwn : ∀ c ∈ chunks, c.key = relay.fileMeta.key := by
      intro c member
      have filed : relay.FiledUnder relay.source c := by
        rcases origin c member with isEarly | filed
        · rcases filedRight with sameNode | noneStaged
          · rw [← sameNode]
            exact earlyFiled c isEarly
          · exact absurd member (noneStaged c isEarly)
        · exact filed
      rw [key_of_filed filed, key_fileMeta]
    have handed : replayed (sessionOf relay.fileMeta) chunks = chunks := by
      unfold replayed
      rw [sessionKey]
      cases finished : splitAtCompletion relay.fileMeta.key
          (freshReassembler (sessionOf relay.fileMeta)) chunks with
      | none => exact own_eq_self allOwn
      | some parts =>
          obtain ⟨done, rest⟩ := parts
          have split := append_of_splitAtCompletion finished
          rw [completesLast done rest finished, List.append_nil] at split
          rw [← split]
          exact own_eq_self allOwn
    intro c
    rw [handed]

theorem Waits.stagedSince_eq {start : Ingress}
    (waits : relay.Waits start.engine metas node s staged waiting) :
    stagedSince start s = staged := by
  obtain ⟨_, _, engineEq, shows⟩ := waits.engine
  unfold stagedSince
  rw [engineEq]
  dsimp only
  rw [shows, List.drop_left]

/-- `RunEngine` gets the meta message: the staged chunks of the session are replayed. -/
theorem Waits.becomesActive (waits : relay.Waits e [relay.fileMeta] node s staged waiting)
    (consistent : e.Consistent) (isNone : e.active = none)
    (foreign : ∀ c ∈ e.pendingChunks.view, c.key ≠ relay.fileMeta.key) {now : Int}
    (passes : ∀ expiresAt, s.engine.recentlyCompletedMeta (completedMetaKey relay.fileMeta) =
      some expiresAt → expiresAt ≤ now)
    (received : s.step rt (.receiveMeta now) = some after) :
    after.engine.processedChunks =
      s.engine.processedChunks ++ replayed (sessionOf relay.fileMeta) staged := by
  obtain ⟨sessions, pending, engineEq, shows⟩ := waits.engine
  have isIdle : s.engine.active = none := by
    rw [engineEq]
    exact isNone
  have isConsistent : s.engine.Consistent := by
    rw [engineEq]
    exact ⟨⟨consistent.distinct, consistent.idle⟩, consistent.srNone,
      consistent.reassemblerNone, consistent.created⟩
  have view : s.engine.pendingChunks.view = e.pendingChunks.view ++ staged := by
    rw [engineEq]
    exact shows
  unfold Ingress.step at received
  dsimp only at received
  rw [waits.metaCh] at received
  obtain ⟨engine, handled, rfl⟩ := Option.map_eq_some_iff.mp received
  have others : ∀ c ∈ e.pendingChunks.view, c.key ≠ (sessionOf relay.fileMeta).key := by
    rw [key_sessionOf]
    exact foreign
  have replays := onMeta_replays isConsistent isIdle passes handled
  rw [view, replayed_append others] at replays
  exact replays

/-- A relayed session becomes active after any interleaving of its meta message with data
messages at `onMessage` and `RunEngine`.  Its staged chunks are all handed over if and only if
no chunk of a message from before the meta message is among them, unless an earlier meta
message had already named the source, and none but the last of them completes the file. -/
theorem staged_handed_iff {start overtaken reached final : Ingress}
    {first second : List Arrival} {now : Int}
    (consistent : start.engine.Consistent) (idle : start.engine.active = none)
    (noMeta : start.client.metaCh = []) (noChunk : start.client.chunkCh = [])
    (foreign : ∀ c ∈ start.engine.pendingChunks.view, c.key ≠ relay.fileMeta.key)
    (firstOwn : ∀ arrival ∈ first, relay.Belongs arrival)
    (before : start.run rt first = some overtaken)
    (secondOwn : ∀ arrival ∈ second, relay.Belongs arrival)
    (behind : overtaken.run rt (relay.metaMessage :: second) = some reached)
    (becomesActive : ∀ expiresAt, reached.engine.recentlyCompletedMeta
      (completedMetaKey relay.fileMeta) = some expiresAt → expiresAt ≤ now)
    (received : reached.step rt (.receiveMeta now) = some final) :
    HandsOver reached final (stagedSince start reached) ↔
      (start.client.canonicalNode relay.exit relay.sessionId = relay.source ∨
        ∀ c ∈ stagedSince start overtaken ++ overtaken.client.chunkCh,
          c ∉ stagedSince start reached) ∧
      ∀ done rest, splitAtCompletion relay.fileMeta.key
        (freshReassembler (sessionOf relay.fileMeta)) (stagedSince start reached) =
          some (done, rest) → rest = [] := by
  have startWaits : relay.Waits start.engine [] (start.client.canonicalNode relay.exit
      relay.sessionId) start [] [] :=
    ⟨⟨start.engine.recentlyCompletedSession, start.engine.pendingChunks, rfl,
      (List.append_nil _).symm⟩, noMeta, noChunk, rfl⟩
  obtain ⟨early, left, overtakenWaits, earlyFiled⟩ := startWaits.run idle firstOwn before
  rw [Ingress.run_cons] at behind
  obtain ⟨named, passes, behind⟩ := Option.bind_eq_some_iff.mp behind
  obtain ⟨late, last, reachedWaits, lateFiled⟩ :=
    (overtakenWaits.metaMessage passes).run idle secondOwn behind
  rw [List.nil_append] at overtakenWaits reachedWaits
  have earlyNode : ∀ c ∈ early ++ left, relay.FiledUnder
      (start.client.canonicalNode relay.exit relay.sessionId) c :=
    fun c member => (earlyFiled c member).resolve_left List.not_mem_nil
  have origin : ∀ c ∈ early ++ late, c ∈ early ++ left ∨ relay.FiledUnder relay.source c := by
    intro c member
    rcases List.mem_append.mp member with inEarly | inLate
    · exact .inl (List.mem_append_left _ inEarly)
    · rcases lateFiled c (List.mem_append_left _ inLate) with inLeft | filed
      · exact .inl (List.mem_append_right _ inLeft)
      · exact .inr filed
  have replays := reachedWaits.becomesActive consistent idle foreign becomesActive received
  rw [overtakenWaits.stagedSince_eq, overtakenWaits.chunkCh, reachedWaits.stagedSince_eq,
    ← replayed_covers_iff earlyNode origin]
  constructor
  · rintro ⟨handed, handedEq, covers⟩
    rw [List.append_cancel_left (handedEq.symm.trans replays)] at covers
    exact covers
  · intro covers
    exact ⟨_, replays, covers⟩

/-! ## One chunk and its meta message -/

/-- The meta message of session 7, which node `000b` relays for node `000a`. -/
def relayedFields : MetaPayload where
  sessionId := "7"
  sourceNode := "0x000A"
  filename := "f"
  totalSize := 1
  chunkCount := 1
  crc32 := (crc32ChecksumIeee [7]).toNat
  fragmentSize := 1

/-- Its text, cut down to the fields that are not numbers. -/
def relayedPayload : List UInt8 :=
  "\x7b\"session_id\":7,\"src_node\":\"0x000A\",\"filename\":\"f\"\x7d".toList.map
    fun c => UInt8.ofNat c.toNat

/-- A library that can decode this message. -/
def relayedRuntime : Runtime where
  toLower := Char.toLower
  unmarshal := fun payload => if payload = relayedPayload then some relayedFields else none

def relayedSession : Relay relayedRuntime where
  exit := "000b"
  sessionId := 7
  payload := relayedPayload
  fields := relayedFields
  decodes := by
    change (if relayedPayload = relayedPayload then some relayedFields else none) =
      some relayedFields
    exact if_pos rfl
  small := by decide
  printed := by decide
  relayed := by decide +kernel

/-- The data message with the only chunk. -/
def relayedData : Arrival := .message ["flp", "000b", "file", "data"] [7, 0, 0, 0, 7]

/-- Client and engine before the first message. -/
def relayedStart : Ingress where
  client := {}
  engine := newEngine 64 5

theorem relayedData_belongs : relayedSession.Belongs relayedData := by
  refine ⟨rfl, fun low high rest split => ?_⟩
  cases split
  rfl

/-- The chunk overtakes its meta message behind `onMessage`: it is handed over. -/
theorem staged_handed_iff_behind_onMessage : ∃ reached final,
    relayedStart.run relayedRuntime
      [relayedSession.metaMessage, relayedData, .receiveChunk 1000] = some reached ∧
    reached.step relayedRuntime (.receiveMeta 1001) = some final ∧
    HandsOver reached final (stagedSince relayedStart reached) := by
  have runs : ((relayedStart.run relayedRuntime
      [relayedSession.metaMessage, relayedData, .receiveChunk 1000]).bind fun reached =>
        reached.step relayedRuntime (.receiveMeta 1001)).isSome = true := by
    decide +kernel
  obtain ⟨final, ran⟩ := Option.isSome_iff_exists.mp runs
  obtain ⟨reached, ran, received⟩ := Option.bind_eq_some_iff.mp ran
  have observed : (relayedStart.run relayedRuntime
      [relayedSession.metaMessage, relayedData, .receiveChunk 1000]).all (fun reached =>
        (reached.engine.recentlyCompletedMeta (completedMetaKey relayedSession.fileMeta)).isNone &&
        (splitAtCompletion relayedSession.fileMeta.key
          (freshReassembler (sessionOf relayedSession.fileMeta))
          (stagedSince relayedStart reached)).all fun parts => parts.2.isEmpty) = true := by
    decide +kernel
  rw [ran, Option.all_some, Bool.and_eq_true] at observed
  refine ⟨reached, final, ran, received, ?_⟩
  have nothing : relayedStart.run relayedRuntime [] = some relayedStart := rfl
  apply (staged_handed_iff (consistent_newEngine 64 5) rfl rfl rfl
    (fun c none => absurd none List.not_mem_nil) (fun _ none => absurd none List.not_mem_nil)
    nothing _ ran _ received).mpr
  · refine ⟨.inr fun c none => absurd none List.not_mem_nil, fun done rest finished => ?_⟩
    have empty := observed.2
    rw [finished] at empty
    exact List.isEmpty_iff.mp empty
  · intro arrival member
    simp only [List.mem_cons, List.not_mem_nil, or_false] at member
    rcases member with rfl | rfl
    · exact relayedData_belongs
    · exact trivial
  · intro expiresAt entry
    have none := observed.1
    rw [entry] at none
    cases none

/-- The chunk overtakes its meta message in front of `onMessage`: it is staged under the exit,
and the session that becomes active hands nothing over. -/
theorem overtaking_chunk_is_lost : ∃ reached final,
    relayedStart.run relayedRuntime
      [relayedData, .receiveChunk 1000, relayedSession.metaMessage] = some reached ∧
    reached.step relayedRuntime (.receiveMeta 1001) = some final ∧
    stagedSince relayedStart reached =
      [{ nodeId := "000b", sessionId := 7, seqNum := 0, data := [7] }] ∧
    final.engine.active.isSome = true ∧
    ¬ HandsOver reached final (stagedSince relayedStart reached) := by
  have runs : ((relayedStart.run relayedRuntime
      [relayedData, .receiveChunk 1000, relayedSession.metaMessage]).bind fun reached =>
        reached.step relayedRuntime (.receiveMeta 1001)).isSome = true := by
    decide +kernel
  obtain ⟨final, ran⟩ := Option.isSome_iff_exists.mp runs
  have observed : (relayedStart.run relayedRuntime
      [relayedData, .receiveChunk 1000, relayedSession.metaMessage]).all (fun reached =>
        decide (stagedSince relayedStart reached =
          [{ nodeId := "000b", sessionId := 7, seqNum := 0, data := [7] }]) &&
        (reached.step relayedRuntime (.receiveMeta 1001)).all fun final =>
          final.engine.active.isSome && decide (final.engine.processedChunks = [])) = true := by
    decide +kernel
  obtain ⟨reached, ran, received⟩ := Option.bind_eq_some_iff.mp ran
  rw [ran, Option.all_some, Bool.and_eq_true, received, Option.all_some, Bool.and_eq_true]
    at observed
  obtain ⟨isStaged, isActive, nothing⟩ := observed
  have isStaged := of_decide_eq_true isStaged
  refine ⟨reached, final, ran, received, isStaged, isActive, ?_⟩
  rintro ⟨handed, handedEq, covers⟩
  rw [of_decide_eq_true nothing] at handedEq
  have none : handed = [] := (List.append_eq_nil_iff.mp handedEq.symm).2
  have counted := covers { nodeId := "000b", sessionId := 7, seqNum := 0, data := [7] }
  rw [isStaged, none] at counted
  exact absurd counted (by decide)

end Relay

end ForestLink.Cloud
