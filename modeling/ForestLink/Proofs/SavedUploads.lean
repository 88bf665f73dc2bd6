/-
Module: ForestLink.Proofs.SavedUploads
Purpose: What the cloud saves: as long as every message tells the truth about the upload it
  belongs to, no turn of `RunEngine` panics, every saved file is an uploaded one, and the
  active session lacks a chunk of its file.
Trusted boundary: none
Main exports: Upload, Upload.Describes, Upload.Carries, Engine.Truthful, Engine.arrivedSince,
  Engine.Serving, Engine.Serving.handle, Engine.saved_files_are_uploads,
  Engine.waiting_session_lacks_chunks
-/
import ForestLink.Proofs.GatheredChunks
import ForestLink.Proofs.SetupTotal

namespace ForestLink.Cloud

open ForestLink.Lib
open ForestLink.Protocol

/-! ## What a node uploads -/

/-- The file behind a transfer key: where it comes from, what it is called, and how its
fragments are numbered. -/
structure Upload where
  nodeId : String
  sessionId : String
  filename : String
  file : List UInt8
  layout : Layout

namespace Upload

/-- The meta message names the file and gives its sizes and its checksum. -/
structure Describes (u : Upload) (m : FileMeta) : Prop where
  nodeId : m.nodeId = u.nodeId
  sessionId : m.sessionId = u.sessionId
  filename : m.filename = u.filename
  totalSize : m.totalSize = u.file.length
  chunkCount : m.chunkCount = u.layout.chunkCount u.file.length
  crc32 : m.crc32 = (crc32ChecksumIeee u.file).toNat
  fragmentSize : m.fragmentSize = 1456
  noWrap : NoWrap u.layout u.file.length

/-- The chunk is one of the file. -/
structure Carries (u : Upload) (c : FileChunk) : Prop where
  inRange : c.seqNum < u.layout.chunkCount u.file.length
  data : c.data = fragmentPayload u.layout u.file c.seqNum

end Upload

namespace FileReassembler

/-- A write leaves the head of a reassembler alone. -/
theorem writeChunk_expectedCrc {r after : FileReassembler} {seq : Nat} {data : List UInt8}
    {isNew : Bool} (wrote : r.writeChunk seq data = some (isNew, after)) :
    after.expectedCrc = r.expectedCrc := by
  unfold FileReassembler.writeChunk at wrote
  split at wrote
  · cases wrote
    rfl
  obtain ⟨flag, _, wrote⟩ := Option.bind_eq_some_iff.mp wrote
  cases flag with
  | true =>
      cases wrote
      rfl
  | false =>
      rw [if_neg Bool.false_ne_true] at wrote
      split at wrote
      · obtain ⟨result, stored, rest⟩ := Option.bind_eq_some_iff.mp wrote
        cases rest
        unfold FileReassembler.writeFecChunk at stored
        obtain ⟨⟨fec, recovery⟩, ingested⟩ :
            ∃ result, result = r.fec.ingest seq data (isParitySlot seq) := ⟨_, rfl⟩
        rw [← ingested] at stored
        obtain ⟨first, arrived, stored⟩ := Option.bind_eq_some_iff.mp stored
        obtain ⟨second, marked, stored⟩ := Option.bind_eq_some_iff.mp stored
        obtain ⟨_, _, rfl⟩ := writeArrived_frame arrived
        obtain ⟨_, _, rfl⟩ := markChunk_frame marked
        cases recovery with
        | none =>
            cases stored
            rfl
        | some recovered =>
            obtain ⟨flag, _, placed⟩ := Option.bind_eq_some_iff.mp stored
            cases flag with
            | true =>
                cases placed
                rfl
            | false =>
                obtain ⟨_, _, _, _, _, rfl⟩ := placed_frame placed
                rfl
      · obtain ⟨result, stored, rest⟩ := Option.bind_eq_some_iff.mp wrote
        cases rest
        obtain ⟨_, _, _, _, _, rfl⟩ := placed_frame stored
        rfl

end FileReassembler

/-- A note that neither starts a session nor saves nor processes anything. -/
def EngineEvent.isAside : EngineEvent → Bool
  | .started _ | .save _ _ _ | .saved _ _ | .processed _ => false
  | _ => true

namespace Engine

variable {uploads : String → Option Upload} {e after : Engine} {m : FileMeta} {s : Session}
  {now : Int}

/-- A chunk of a transfer that somebody uploads is one of its file. -/
def CarriesUpload (uploads : String → Option Upload) (c : FileChunk) : Prop :=
  ∀ u ∈ uploads c.key, u.Carries c

/-- What a message says is true of the upload it belongs to. -/
def Truthful (uploads : String → Option Upload) : Event → Prop
  | .file m => ∃ u, uploads m.key = some u ∧ u.Describes m
  | .chunk c => CarriesUpload uploads c
  | .tick => True

/-! ## The trace -/

/-- The chunks of the active session so far, behind one more note. -/
def arrivedBehind (arrived : List Nat) : EngineEvent → List Nat
  | .started _ => []
  | .processed c => arrived ++ [c.seqNum]
  | _ => arrived

/-- The sequence numbers processed since the last session started. -/
def arrivedSince (trace : List EngineEvent) : List Nat := trace.foldl arrivedBehind []

theorem arrivedSince_append (trace notes : List EngineEvent) :
    arrivedSince (trace ++ notes) = notes.foldl arrivedBehind (arrivedSince trace) :=
  List.foldl_append

theorem foldl_arrivedBehind_aside {notes : List EngineEvent}
    (aside : ∀ note ∈ notes, EngineEvent.isAside note = true) (arrived : List Nat) :
    notes.foldl arrivedBehind arrived = arrived := by
  induction notes with
  | nil => rfl
  | cons note rest inductionHypothesis =>
      have here := aside note List.mem_cons_self
      have same : arrivedBehind arrived note = arrived := by
        cases note <;> first | rfl | cases here
      rw [List.foldl_cons, same]
      exact inductionHypothesis fun other member => aside other (List.mem_cons_of_mem note member)

/-- Every file saved is the upload of a session that was started, and every session that had one
saved is that of an upload. -/
structure SavesUploads (uploads : String → Option Upload) (trace : List EngineEvent) : Prop where
  files : ∀ node name content, .save node name content ∈ trace →
    ∃ s u, .started s ∈ trace ∧ uploads s.key = some u ∧
      u.nodeId = node ∧ u.filename = name ∧ u.file = content
  sessions : ∀ s now, .saved s now ∈ trace →
    ∃ u, uploads s.key = some u ∧ u.Describes s.toMeta

theorem SavesUploads.append {trace notes : List EngineEvent} (saves : SavesUploads uploads trace)
    (none : ∀ note ∈ notes, (∀ node name content, note ≠ .save node name content) ∧
      ∀ s now, note ≠ .saved s now) :
    SavesUploads uploads (trace ++ notes) where
  files := fun node name content member => by
    rcases List.mem_append.mp member with before | new
    · obtain ⟨s, u, started, rest⟩ := saves.files node name content before
      exact ⟨s, u, List.mem_append_left _ started, rest⟩
    · exact absurd rfl ((none _ new).1 node name content)
  sessions := fun s now member => by
    rcases List.mem_append.mp member with before | new
    · exact saves.sessions s now before
    · exact absurd rfl ((none _ new).2 s now)

theorem SavesUploads.aside {trace notes : List EngineEvent} (saves : SavesUploads uploads trace)
    (aside : ∀ note ∈ notes, EngineEvent.isAside note = true) :
    SavesUploads uploads (trace ++ notes) := by
  apply saves.append
  intro note member
  have here := aside note member
  constructor
  · rintro node name content rfl
    cases here
  · rintro s now rfl
    cases here

/-- The notes of a call of `processChunk`. -/
def processedNotes (s : Session) (c : FileChunk) (acks : List Nat) (success : Bool)
    (content : List UInt8) (now : Int) : List EngineEvent :=
  .processed c :: (acks.map (EngineEvent.ack s.sessionId) ++
    if success then [.save s.nodeId s.filename content, .saved s now] else [])

/-- The only file that a chunk saves is the one of the active session. -/
theorem save_of_processedNotes {c : FileChunk} {acks : List Nat} {success : Bool}
    {content saved : List UInt8} {node name : String}
    (member : .save node name saved ∈ processedNotes s c acks success content now) :
    success = true ∧ node = s.nodeId ∧ name = s.filename ∧ saved = content := by
  rcases List.mem_cons.mp member with isProcessed | new
  · cases isProcessed
  rcases List.mem_append.mp new with isAck | isSave
  · obtain ⟨seq, _, differs⟩ := List.mem_map.mp isAck
    cases differs
  cases success with
  | false => cases isSave
  | true =>
      rcases List.mem_cons.mp isSave with isSave | isSaved
      · cases isSave
        exact ⟨rfl, rfl, rfl, rfl⟩
      · cases List.mem_singleton.mp isSaved

theorem saved_of_processedNotes {c : FileChunk} {acks : List Nat} {success : Bool}
    {content : List UInt8} {other : Session} {savedAt : Int}
    (member : .saved other savedAt ∈ processedNotes s c acks success content now) :
    other = s := by
  rcases List.mem_cons.mp member with isProcessed | new
  · cases isProcessed
  rcases List.mem_append.mp new with isAck | isSave
  · obtain ⟨seq, _, differs⟩ := List.mem_map.mp isAck
    cases differs
  cases success with
  | false => cases isSave
  | true =>
      rcases List.mem_cons.mp isSave with isSave | isSaved
      · cases isSave
      · cases List.mem_singleton.mp isSaved
        rfl

/-- A chunk of the active session keeps the promise when the content it saves is the upload. -/
theorem SavesUploads.processed {trace : List EngineEvent} (saves : SavesUploads uploads trace)
    {u : Upload} (isUpload : uploads s.key = some u) (describes : u.Describes s.toMeta)
    {first : Session} (started : .started first ∈ trace) (sameMeta : first.toMeta = s.toMeta)
    {success : Bool} {content : List UInt8} (whole : success = true → content = u.file)
    (c : FileChunk) (acks : List Nat) (now : Int) :
    SavesUploads uploads (trace ++ processedNotes s c acks success content now) where
  files := fun node name saved member => by
    rcases List.mem_append.mp member with before | new
    · obtain ⟨earlier, v, started, rest⟩ := saves.files node name saved before
      exact ⟨earlier, v, List.mem_append_left _ started, rest⟩
    · obtain ⟨succeeded, rfl, rfl, rfl⟩ := save_of_processedNotes new
      have sameKey : first.key = s.key := congrArg FileMeta.key sameMeta
      exact ⟨first, u, List.mem_append_left _ started, sameKey ▸ isUpload,
        describes.nodeId.symm, describes.filename.symm, (whole succeeded).symm⟩
  sessions := fun other savedAt member => by
    rcases List.mem_append.mp member with before | new
    · exact saves.sessions other savedAt before
    · rw [saved_of_processedNotes new]
      exact ⟨u, isUpload, describes⟩

/-- What `processChunk` notes. -/
theorem processChunk_trace {c : FileChunk} {finished success : Bool}
    (ran : e.processChunk c now = some (after, finished, success)) :
    ∃ (s : Session) (next : FileReassembler) (acks : List Nat),
      e.active = some s ∧ after.reassembler = some next ∧
      after.trace = e.trace ++
        processedNotes s c acks success (next.buffer.take next.totalSize) now := by
  unfold processChunk at ran
  obtain ⟨r, _, ran⟩ := Option.bind_eq_some_iff.mp ran
  obtain ⟨sr, _, ran⟩ := Option.bind_eq_some_iff.mp ran
  obtain ⟨s, isActive, ran⟩ := Option.bind_eq_some_iff.mp ran
  obtain ⟨⟨receiver, outcome⟩, _, ran⟩ := Option.bind_eq_some_iff.mp ran
  cases ran
  exact ⟨s, receiver.reassembler, outcome.acked.toList, isActive, rfl, rfl⟩

/-- The engine has what a chunk needs. -/
theorem processChunk_total {c : FileChunk} (isActive : e.active = some s) {sr : SelectiveRepeat}
    (hasSr : e.sr = some sr) {r next : FileReassembler} (hasReassembler : e.reassembler = some r)
    {isNew : Bool} (wrote : r.writeChunk c.seqNum c.data = some (isNew, next)) :
    ∃ result, e.processChunk c now = some result := by
  unfold processChunk
  rw [isActive, hasSr, hasReassembler]
  dsimp only [Option.bind_eq_bind, Option.bind_some]
  unfold Receiver.processChunk
  dsimp only
  rw [wrote]
  cases isNew <;> exact ⟨_, rfl⟩

/-! ## The invariant -/

/-- What an engine knows of the uploads, the receiver of its session aside. -/
structure Promised (uploads : String → Option Upload) (e : Engine) : Prop where
  sessions : ∀ s ∈ e.sessions, ∃ u, uploads s.key = some u ∧ u.Describes s.toMeta
  started : ∀ s, e.active = some s →
    ∃ first, .started first ∈ e.trace ∧ first.toMeta = s.toMeta
  saves : SavesUploads uploads e.trace

/-- The reassembler gathers the upload and is not done with it. -/
structure Gathers (u : Upload) (r : FileReassembler) (arrived : List Nat) : Prop where
  receiving : Receiving u.file u.layout r
  gathered : Gathered r arrived
  expectedCrc : r.expectedCrc = (crc32ChecksumIeee u.file).toNat
  unfinished : u.file ≠ [] → r.isComplete = false

/-- The engine between two turns of its loop. -/
structure Uploading (uploads : String → Option Upload) (e : Engine) : Prop
    extends Promised uploads e where
  gathers : ∀ s r u, e.active = some s → e.reassembler = some r → uploads s.key = some u →
    Gathers u r (arrivedSince e.trace)

theorem Promised.upload (promised : Promised uploads e) (isActive : e.active = some s) :
    ∃ u, uploads s.key = some u ∧ u.Describes s.toMeta :=
  promised.sessions s (by rw [sessions_of_active isActive]; exact List.mem_cons_self)

/-- The receiver of a session that starts. -/
theorem Gathers.fresh {u : Upload} {m : FileMeta} (describes : u.Describes m) :
    Gathers u m.reassembler [] := by
  have receiving := receiving_new u.file u.layout m.sessionId m.filename m.crc32
  have same : m.reassembler = newFileReassembler m.sessionId m.filename u.file.length
      (u.layout.chunkCount u.file.length) m.crc32 1456 := by
    unfold FileMeta.reassembler
    rw [describes.totalSize, describes.chunkCount, describes.fragmentSize]
  rw [← same] at receiving
  refine ⟨receiving, Gathered.new .., describes.crc32, fun filled => ?_⟩
  rw [Bool.eq_false_iff, ne_eq, receiving.assembled.isComplete_iff describes.noWrap]
  intro marked
  have some_ : 0 < dataFragments u.file.length := by
    have positive := List.length_pos_of_ne_nil filled
    rw [dataFragments_eq]
    omega
  exact Bitmap.not_marked_zeros _ _ (marked 0 some_)

/-- A complete file passes its checksum. -/
theorem Gathers.verifyCrc {u : Upload} {r : FileReassembler}
    (receiving : Receiving u.file u.layout r) (noWrap : NoWrap u.layout u.file.length)
    (expectedCrc : r.expectedCrc = (crc32ChecksumIeee u.file).toNat)
    (complete : r.isComplete = true) :
    r.verifyCrc = true ∧ r.buffer.take r.totalSize = u.file := by
  have whole := receiving.assembled.buffer_eq_of_isComplete noWrap complete
  have content : r.buffer.take r.totalSize = u.file := by
    rw [whole, receiving.assembled.totalSize, List.take_length]
  refine ⟨?_, content⟩
  unfold FileReassembler.verifyCrc
  rw [content, expectedCrc, beq_self_eq_true]

/-- What `processChunk` adds to the trace leaves the arrivals of the session and one more. -/
theorem arrivedSince_processed (trace : List EngineEvent) (c : FileChunk) (s : Session)
    (acks : List Nat) (success : Bool) (content : List UInt8) (now : Int) :
    arrivedSince (trace ++ processedNotes s c acks success content now) =
      arrivedSince trace ++ [c.seqNum] := by
  have quiet : ∀ arrived, (acks.map (EngineEvent.ack s.sessionId)).foldl arrivedBehind arrived =
      arrived := by
    intro arrived
    induction acks with
    | nil => rfl
    | cons seq rest inductionHypothesis => exact inductionHypothesis
  unfold processedNotes
  rw [arrivedSince_append, List.foldl_cons, List.foldl_append, quiet]
  cases success <;> rfl

/-- A chunk of the upload goes into the reassembler, and one that completes the file passes
the checksum and saves it. -/
theorem Uploading.processChunk (uploading : Uploading uploads e) {c : FileChunk}
    {finished success : Bool} (isActive : e.active = some s) (own : c.key = s.key)
    (carries : CarriesUpload uploads c)
    (ran : e.processChunk c now = some (after, finished, success)) :
    Promised uploads after ∧ success = finished ∧
      (finished = false → Uploading uploads after) := by
  obtain ⟨u, isUpload, describes⟩ := uploading.upload isActive
  obtain ⟨inRange, dataEq⟩ := carries u (own ▸ isUpload)
  obtain ⟨s', r, next, sr, isNew, notes, processed⟩ := processChunk_cases ran
  cases isActive.symm.trans processed.isActive
  obtain ⟨s', next', acks, isActive', hasNext', traceEq⟩ := processChunk_trace ran
  cases isActive.symm.trans isActive'
  have hasNext : after.reassembler = some next := by rw [processed.afterEq]
  cases hasNext.symm.trans hasNext'
  obtain ⟨same, _⟩ := processChunk_spec ran
  have before := uploading.gathers s r u isActive processed.hasReassembler isUpload
  obtain ⟨isNew', next', wrote, receiving⟩ :=
    before.receiving.writeChunk describes.noWrap inRange
  rw [← dataEq] at wrote
  cases processed.wrote.symm.trans wrote
  have advertised : c.seqNum < r.chunkCount := before.receiving.assembled.chunkCount ▸ inRange
  have gathered := before.gathered.writeChunk advertised wrote
  have expectedCrc :=
    (FileReassembler.writeChunk_expectedCrc wrote).trans before.expectedCrc
  have passes := Gathers.verifyCrc receiving describes.noWrap expectedCrc
  have successEq : success = finished := by
    rw [processed.successEq, processed.finishedEq]
    cases complete : next.isComplete with
    | false => rw [Bool.and_false, Bool.false_and]
    | true => rw [(passes complete).1, Bool.and_true]
  have arrived : arrivedSince after.trace = arrivedSince e.trace ++ [c.seqNum] := by
    rw [traceEq]
    exact arrivedSince_processed ..
  have sessionsEq : after.sessions = e.sessions := by
    unfold sessions
    rw [same.active, same.queue]
  have wholeFile : success = true → next.buffer.take next.totalSize = u.file := by
    intro succeeded
    have done := processed.finishedEq
    rw [← successEq, succeeded, eq_comm, Bool.and_eq_true] at done
    exact (passes done.2).2
  obtain ⟨first, started, sameMeta⟩ := uploading.started s isActive
  have promised : Promised uploads after := by
    refine ⟨fun other member => uploading.sessions other (sessionsEq ▸ member), ?_, ?_⟩
    · intro other isOther
      cases isActive.symm.trans (same.active ▸ isOther)
      rw [traceEq]
      exact ⟨first, List.mem_append_left _ started, sameMeta⟩
    · rw [traceEq]
      exact uploading.saves.processed isUpload describes started sameMeta wholeFile c acks now
  refine ⟨promised, successEq, fun open_ => ⟨promised, ?_⟩⟩
  intro other r' v isOther hasReassembler isOtherUpload
  rw [same.active, isActive] at isOther
  cases isOther
  cases hasNext.symm.trans hasReassembler
  cases isUpload.symm.trans isOtherUpload
  rw [arrived]
  refine ⟨receiving, gathered, expectedCrc, fun filled => ?_⟩
  rcases before.gathered.tracked.writeChunk wrote with ⟨_, rfl, _⟩ | ⟨rfl, _⟩
  · exact before.unfinished filled
  · rw [← open_, processed.finishedEq, Bool.true_and]

/-- What closing a session notes: asides, and the start of the next one. -/
theorem closeActive_notes (isActive : e.active = some s) (success : Bool) (now : Int) :
    ∃ notes, (∀ note ∈ notes, EngineEvent.isAside note = true) ∧
      (e.closeActive s success now).trace = e.trace ++ (notes ++
        (e.queue.head?.toList.map fun waiting =>
          EngineEvent.started { waiting with startedAt := now })) := by
  obtain ⟨_, _, nacks, closed⟩ := closeActive_cases e isActive success now
  refine ⟨(if success then [.transferComplete s.sessionId,
      .record { s with completedAt := now } nacks] else []) ++ [.closed s.key success] ++
    e.queue.head?.toList.map fun waiting =>
      .transferCmd waiting.nodeId "START" waiting.sessionId, ?_, ?_⟩
  · intro note member
    rcases List.mem_append.mp member with member | isCommand
    · rcases List.mem_append.mp member with isRecord | isClosed
      · cases success with
        | false => cases isRecord
        | true =>
            rcases List.mem_cons.mp isRecord with rfl | isRecord
            · rfl
            · rw [List.mem_singleton.mp isRecord]
              rfl
      · rw [List.mem_singleton.mp isClosed]
        rfl
    · obtain ⟨waiting, _, rfl⟩ := List.mem_map.mp isCommand
      rfl
  · rw [closed.afterEq]
    cases e.queue <;> simp

/-- The next session starts without a chunk. -/
theorem Promised.closeActive (promised : Promised uploads e) (isActive : e.active = some s)
    (success : Bool) (now : Int) :
    Promised uploads (e.closeActive s success now) ∧
      ((e.closeActive s success now).active ≠ none →
        arrivedSince (e.closeActive s success now).trace = []) := by
  have metas := map_sessions_closeActive Session.toMeta (fun _ _ => rfl) e isActive success now
  obtain ⟨_, _, _, closed⟩ := closeActive_cases e isActive success now
  obtain ⟨notes, aside, traceEq⟩ := closeActive_notes isActive success now
  obtain ⟨next, nextEq⟩ : ∃ next, next = e.closeActive s success now := ⟨_, rfl⟩
  rw [← nextEq] at metas closed traceEq ⊢
  have activeEq : next.active =
      e.queue.head?.map fun waiting => { waiting with startedAt := now } := by
    rw [closed.afterEq]
  refine ⟨⟨?_, ?_, ?_⟩, ?_⟩
  · intro other member
    have there : other.toMeta ∈ e.queue.map Session.toMeta :=
      metas ▸ List.mem_map_of_mem member
    obtain ⟨waiting, waits, sameMeta⟩ := List.mem_map.mp there
    obtain ⟨u, isUpload, describes⟩ := promised.sessions waiting
      (by rw [sessions_of_active isActive]; exact List.mem_cons_of_mem s waits)
    have sameKey : waiting.key = other.key := congrArg FileMeta.key sameMeta
    exact ⟨u, sameKey ▸ isUpload, sameMeta ▸ describes⟩
  · intro other isOther
    rw [activeEq] at isOther
    obtain ⟨waiting, isHead, rfl⟩ := Option.map_eq_some_iff.mp isOther
    refine ⟨{ waiting with startedAt := now }, ?_, rfl⟩
    rw [traceEq, isHead]
    simp
  · rw [traceEq, ← List.append_assoc]
    apply (promised.saves.aside aside).append
    intro note member
    obtain ⟨waiting, _, rfl⟩ := List.mem_map.mp member
    exact ⟨fun _ _ _ => by simp, fun _ _ => by simp⟩
  · intro isSome
    rw [activeEq] at isSome
    cases isHead : e.queue.head? with
    | none =>
        rw [isHead] at isSome
        exact absurd rfl isSome
    | some waiting =>
        rw [traceEq, isHead, ← List.append_assoc, arrivedSince_append]
        rfl

/-! ## The rule -/

/-- `setupActive` gives the session that starts its receiver. -/
theorem uploadsRule (uploads : String → Option Upload) (now : Int) (staged : List FileChunk)
    (carry : ∀ c ∈ staged, CarriesUpload uploads c) :
    SetupRule now staged
      (fun e => Bare e ∧ Promised uploads e ∧ (e.active ≠ none → arrivedSince e.trace = []))
      (fun e => Consistent e ∧ Uploading uploads e) where
  pending := fun pending holds => ⟨(consistentRule now staged).pending pending holds.1,
    ⟨holds.2.sessions, holds.2.started, holds.2.saves⟩, holds.2.gathers⟩
  idle := fun holds isNone => ⟨(consistentRule now staged).idle holds.1 isNone,
    ⟨holds.2.1.sessions, holds.2.1.started, holds.2.1.saves⟩, fun s r u isSome => by
      cases isNone.symm.trans isSome⟩
  reset := fun {e s} holds isActive => by
    obtain ⟨bare, promised, empty⟩ := holds
    refine ⟨(consistentRule now staged).reset bare isActive,
      ⟨promised.sessions, promised.started, promised.saves⟩, ?_⟩
    intro s' r u isSome hasReassembler isUpload
    cases isActive.symm.trans isSome
    cases hasReassembler
    obtain ⟨v, isOther, describes⟩ := promised.upload isActive
    cases isUpload.symm.trans isOther
    have nothing : arrivedSince (e.resetFor s now).trace = [] :=
      empty (by rw [isActive]; exact Option.some_ne_none s)
    rw [nothing]
    exact Gathers.fresh describes
  chunk := fun holds isActive inside own ran =>
    ⟨(consistentRule now staged).chunk holds.1 isActive inside own ran,
      (holds.2.processChunk isActive own (carry _ inside) ran).2.2 rfl⟩
  close := fun {e s c after success} holds isActive inside own ran => by
    obtain ⟨promised, _⟩ := holds.2.processChunk isActive own (carry _ inside) ran
    obtain ⟨same, _⟩ := processChunk_spec ran
    exact ⟨(consistentRule now staged).close holds.1 isActive inside own ran,
      promised.closeActive (same.active.trans isActive) success now⟩

/-- No chunk of an upload stops the engine. -/
theorem uploads_write (now : Int) {staged : List FileChunk}
    (carry : ∀ c ∈ staged, CarriesUpload uploads c) :
    SetupRule.Writes now staged (fun e => Consistent e ∧ Uploading uploads e) := by
  intro e s c holds isActive inside own
  obtain ⟨consistent, uploading⟩ := holds
  obtain ⟨sr, r, hasSr, hasReassembler, _⟩ := consistent.receiver isActive
  obtain ⟨u, isUpload, describes⟩ := uploading.upload isActive
  obtain ⟨inRange, dataEq⟩ := carry c inside u (own ▸ isUpload)
  have gathers := uploading.gathers s r u isActive hasReassembler isUpload
  obtain ⟨isNew, next, wrote, _⟩ := gathers.receiving.writeChunk describes.noWrap inRange
  rw [← dataEq] at wrote
  exact processChunk_total isActive hasSr hasReassembler wrote

/-! ## Every turn serves the uploads -/

/-- The engine between two turns, with the chunks that wait in the staging array. -/
structure Serving (uploads : String → Option Upload) (e : Engine) : Prop where
  consistent : Consistent e
  uploading : Uploading uploads e
  staged : ∀ c ∈ e.pendingChunks.cells, CarriesUpload uploads c

/-- A step that leaves the sessions and the reassembler alone. -/
structure Aside (before after : Engine) : Prop where
  transfers : SameTransfers before after
  srCount : after.sr.map SelectiveRepeat.totalChunks = before.sr.map SelectiveRepeat.totalChunks
  reassembler : after.reassembler = before.reassembler
  trace : ∃ notes, after.trace = before.trace ++ notes ∧
    ∀ note ∈ notes, EngineEvent.isAside note = true

/-- A step without a note that gives the transfers and the receiver back. -/
theorem Aside.silent (transfers : SameTransfers e after) (sr : after.sr = e.sr)
    (reassembler : after.reassembler = e.reassembler) (trace : after.trace = e.trace) :
    Aside e after :=
  ⟨transfers, by rw [sr], reassembler, [], by rw [trace, List.append_nil],
    fun _ none => absurd none List.not_mem_nil⟩

theorem Serving.aside (serving : Serving uploads e) (aside : Aside e after)
    (staged : ∀ c ∈ after.pendingChunks.cells, CarriesUpload uploads c) :
    Serving uploads after := by
  obtain ⟨notes, traceEq, allAside⟩ := aside.trace
  refine ⟨aside.transfers.consistent serving.consistent aside.srCount aside.reassembler,
    ⟨⟨?_, ?_, ?_⟩, ?_⟩, staged⟩
  · intro s member
    have there : s.toMeta ∈ e.sessions.map Session.toMeta :=
      aside.transfers.metas ▸ List.mem_map_of_mem member
    obtain ⟨old, wasThere, sameMeta⟩ := List.mem_map.mp there
    have sameKey : old.key = s.key := congrArg FileMeta.key sameMeta
    rw [← sameKey, ← sameMeta]
    exact serving.uploading.sessions old wasThere
  · intro s isActive
    obtain ⟨old, wasActive, sameMeta⟩ := aside.transfers.active_some isActive
    obtain ⟨first, started, same⟩ := serving.uploading.started old wasActive
    rw [traceEq]
    exact ⟨first, List.mem_append_left _ started, same.trans sameMeta⟩
  · rw [traceEq]
    exact serving.uploading.saves.aside allAside
  · intro s r u isActive hasReassembler isUpload
    obtain ⟨old, wasActive, sameMeta⟩ := aside.transfers.active_some isActive
    have sameKey : old.key = s.key := congrArg FileMeta.key sameMeta
    rw [traceEq, arrivedSince_append, foldl_arrivedBehind_aside allAside]
    exact serving.uploading.gathers old r u wasActive (aside.reassembler ▸ hasReassembler)
      (sameKey ▸ isUpload)

/-- The active session is completed or given up. -/
theorem completeTransfer_serves (consistent : Consistent e) (promised : Promised uploads e)
    (staged : ∀ c ∈ e.pendingChunks.cells, CarriesUpload uploads c)
    (isActive : e.active = some s)
    (success : Bool) (now : Int) :
    ∃ after, e.completeTransfer success now = some after ∧ Serving uploads after := by
  have rule := uploadsRule uploads now e.pendingChunks.cells staged
  obtain ⟨after, ran, ⟨afterConsistent, uploading⟩, keeps⟩ :=
    rule.completeTransfer_total (uploads_write now staged) success isActive
      ⟨consistent.toBare.closeActive isActive success now,
        promised.closeActive isActive success now⟩ fun _ => id
  exact ⟨after, ran, afterConsistent, uploading, fun c member =>
    staged c (keeps.cells c member)⟩

/-- An idle engine when `Enqueue` has started the transfer of a message. -/
def begun (e : Engine) (m : FileMeta) (stamps : String → Option Int) (now : Int) : Engine :=
  { e with
    queue := []
    active := some { sessionOf m with startedAt := now }
    activeMetaLastSeen := stamps
    trace := e.trace ++ [.transferCmd m.nodeId "START" m.sessionId,
      .started { sessionOf m with startedAt := now }] }

/-- `Enqueue`, and the receiver of the session unless it has one already. -/
theorem enqueueAndSetUp_eq (e : Engine) (m : FileMeta) (now : Int) :
    ∃ stamps, e.enqueueAndSetUp m now =
      if (e.enqueue m now).active.isSome && (e.enqueue m now).sr.isNone then
        { e.enqueue m now with activeMetaLastSeen := stamps }.setupActive now
      else some { e.enqueue m now with activeMetaLastSeen := stamps } := by
  unfold Engine.enqueueAndSetUp
  dsimp only
  split
  · exact ⟨_, rfl⟩
  · exact ⟨(e.enqueue m now).activeMetaLastSeen, rfl⟩

/-- The handler of a meta message from `Enqueue` on. -/
theorem Serving.enqueueAndSetUp (serving : Serving uploads e)
    (truthful : ∃ u, uploads m.key = some u ∧ u.Describes m) (now : Int) :
    ∃ after, e.enqueueAndSetUp m now = some after ∧ Serving uploads after := by
  obtain ⟨u, isUpload, describes⟩ := truthful
  have bare := serving.consistent.toBare
  obtain ⟨stamps, unfolded⟩ := enqueueAndSetUp_eq e m now
  obtain ⟨queued, queuedEq⟩ : ∃ queued, queued = e.enqueue m now := ⟨_, rfl⟩
  rw [unfolded, ← queuedEq]
  -- A session that is served has its receiver, so nothing is set up for it.
  have settled : queued.sr = e.sr → (queued.active = none ↔ e.active = none) →
      ¬ (queued.active.isSome && queued.sr.isNone) = true := by
    intro sameSr sameActive setsUp
    rw [Bool.and_eq_true, Option.isSome_iff_ne_none, Option.isNone_iff_eq_none, sameSr,
      serving.consistent.srNone, ne_eq, sameActive] at setsUp
    exact setsUp.1 setsUp.2
  rcases enqueue_cases e m now bare with
    ⟨active, queue, merged, same⟩ | ⟨isActive, _, appended⟩ | ⟨isNone, started⟩
  · rw [← queuedEq] at merged same
    rw [merged] at same settled ⊢
    rw [if_neg (settled rfl same.active_none)]
    exact ⟨_, rfl, serving.aside (Aside.silent ⟨same.active, same.queue⟩ rfl rfl rfl)
      serving.staged⟩
  · rw [← queuedEq] at appended
    have enlarged := bare.enqueue m now
    rw [← queuedEq, appended] at enlarged
    rw [appended] at settled ⊢
    rw [if_neg (settled rfl Iff.rfl)]
    refine ⟨_, rfl, ⟨⟨enlarged.distinct, enlarged.idle⟩, serving.consistent.srNone,
      serving.consistent.reassemblerNone, serving.consistent.created⟩,
      ⟨⟨?_, serving.uploading.started, serving.uploading.saves⟩, serving.uploading.gathers⟩,
      serving.staged⟩
    intro s member
    unfold sessions at member
    dsimp only at member
    rw [← List.append_assoc] at member
    rcases List.mem_append.mp member with known | new
    · exact serving.uploading.sessions s known
    · rw [List.mem_singleton.mp new]
      exact ⟨u, isUpload, describes⟩
  · rw [← queuedEq] at started
    have begun := bare.enqueue m now
    rw [← queuedEq, started] at begun
    have noSr : e.sr = none := serving.consistent.srNone.mpr isNone
    rw [started, if_pos (by rw [noSr]; rfl)]
    have promised : Promised uploads (e.begun m stamps now) := by
      refine ⟨?_, ?_, ?_⟩
      · intro s member
        rw [List.mem_singleton.mp member]
        exact ⟨u, isUpload, describes⟩
      · intro s isActive
        cases isActive
        exact ⟨_, List.mem_append_right _ (List.mem_cons_of_mem _ List.mem_cons_self), rfl⟩
      · apply serving.uploading.saves.append
        intro note member
        rcases List.mem_cons.mp member with rfl | isStart
        · exact ⟨fun _ _ _ => by simp, fun _ _ => by simp⟩
        · rw [List.mem_singleton.mp isStart]
          exact ⟨fun _ _ _ => by simp, fun _ _ => by simp⟩
    have nothing : arrivedSince (e.begun m stamps now).trace = [] := arrivedSince_append _ _
    obtain ⟨after, ran, ⟨consistent, uploading⟩, keeps⟩ :=
      (uploadsRule uploads now e.pendingChunks.cells serving.staged).setupActive_total
        (e := e.begun m stamps now) (uploads_write now serving.staged)
        ⟨⟨begun.distinct, begun.idle⟩, promised, fun _ => nothing⟩ fun _ => id
    exact ⟨after, ran, consistent, uploading, fun c member =>
      serving.staged c (keeps.cells c member)⟩

/-- A meta message while a session is active: ignored, stamped, or the session is given up. -/
theorem Serving.metaWhileActive (serving : Serving uploads e) (isActive : e.active = some s)
    (m : FileMeta) (now : Int) :
    ∃ goesOn after, e.metaWhileActive m s now = some (goesOn, after) ∧
      Serving uploads after := by
  have stamped : ∀ stamps, Serving uploads { e with activeMetaLastSeen := stamps } :=
    fun stamps => serving.aside (Aside.silent ⟨rfl, rfl⟩ rfl rfl rfl) serving.staged
  unfold Engine.metaWhileActive
  dsimp only
  split
  · split
    · exact ⟨_, _, rfl, serving⟩
    · exact ⟨_, _, rfl, stamped _⟩
  · split
    · split
      · exact ⟨_, _, rfl, stamped _⟩
      · exact ⟨_, _, rfl, serving⟩
    · split
      · obtain ⟨after, ran, served⟩ := completeTransfer_serves serving.consistent
          serving.uploading.toPromised serving.staged isActive false now
        rw [ran]
        exact ⟨_, _, rfl, served⟩
      · exact ⟨_, _, rfl, serving⟩

theorem Serving.onMeta (serving : Serving uploads e)
    (truthful : ∃ u, uploads m.key = some u ∧ u.Describes m) (now : Int) :
    ∃ after, e.onMeta m now = some after ∧ Serving uploads after := by
  have forgotten : Serving uploads (e.forget m) :=
    serving.aside (Aside.silent ⟨rfl, rfl⟩ rfl rfl rfl) serving.staged
  rw [onMeta_eq]
  split
  · exact ⟨e, rfl, serving⟩
  · cases isActive : e.active with
    | none => exact forgotten.enqueueAndSetUp truthful now
    | some s =>
        obtain ⟨goesOn, ready, ran, isReady⟩ := forgotten.metaWhileActive isActive m now
        dsimp only
        rw [ran]
        cases goesOn with
        | false => exact ⟨ready, rfl, isReady⟩
        | true => exact isReady.enqueueAndSetUp truthful now

theorem mem_cells_append {α : Type} {pending : Slice α} {c x : α}
    (member : x ∈ (pending.append c).cells) : x ∈ pending.cells ∨ x = c := by
  unfold Slice.append at member
  split at member
  · exact List.mem_or_eq_of_mem_set member
  · rcases List.mem_append.mp member with old | new
    · exact .inl old
    · exact .inr (List.mem_singleton.mp new)

theorem Serving.onChunk (serving : Serving uploads e) {c : FileChunk}
    (carries : CarriesUpload uploads c) (now : Int) :
    ∃ after, e.onChunk c now = some after ∧ Serving uploads after := by
  have recalled : ∀ recent, Serving uploads { e with recentlyCompletedSession := recent } :=
    fun recent => serving.aside (Aside.silent ⟨rfl, rfl⟩ rfl rfl rfl) serving.staged
  unfold Engine.onChunk
  dsimp only
  split
  · exact ⟨e, rfl, serving⟩
  split
  · rename_i s r sr isActive hasReassembler hasSr
    split
    · exact ⟨_, rfl, recalled _⟩
    · rename_i own
      rw [not_or, not_not, not_not] at own
      have sameKey : c.key = s.key := by
        unfold FileChunk.key Session.key
        rw [own.1, own.2]
      obtain ⟨cleared, clearedEq⟩ : ∃ cleared, cleared = { e with
          recentlyCompletedSession :=
            Function.update e.recentlyCompletedSession c.key none } := ⟨_, rfl⟩
      have isServing : Serving uploads cleared := clearedEq ▸ recalled _
      have stillActive : cleared.active = some s := clearedEq ▸ isActive
      rw [← clearedEq]
      have carriesThis : ∀ other ∈ [c], CarriesUpload uploads other := fun other member =>
        List.mem_singleton.mp member ▸ carries
      obtain ⟨⟨next, finished, success⟩, processed⟩ :=
        uploads_write now carriesThis ⟨isServing.consistent, isServing.uploading⟩ stillActive
          List.mem_cons_self sameKey
      obtain ⟨promised, _, uploading⟩ :=
        isServing.uploading.processChunk stillActive sameKey carries processed
      have consistent := isServing.consistent.processChunk (fun s' same => by
        cases stillActive.symm.trans same
        exact sameKey) processed
      obtain ⟨same, pendingEq, _⟩ := processChunk_spec processed
      have staged : ∀ c ∈ next.pendingChunks.cells, CarriesUpload uploads c := by
        rw [pendingEq]
        exact isServing.staged
      rw [processed]
      cases finished with
      | true =>
          exact completeTransfer_serves consistent promised staged
            (same.active.trans stillActive) success now
      | false => exact ⟨next, rfl, consistent, uploading rfl, staged⟩
  · split
    · refine ⟨_, rfl, serving.aside (Aside.silent ⟨rfl, rfl⟩ rfl rfl rfl) ?_⟩
      intro other member
      rcases mem_cells_append member with old | rfl
      · exact serving.staged other old
      · exact carries
    · exact ⟨_, rfl, recalled _⟩

/-- The scan for timeouts. -/
theorem timeoutTick_aside (e : Engine) (now : Int) : Aside e (e.timeoutTick now) := by
  have passive := timeoutTick_passive e now
  obtain ⟨_, notes, traceEq, allNacks⟩ := timeoutTick_notes e now
  refine ⟨passive.sameTransfers, passive.srCount, passive.reassembler, notes, traceEq, ?_⟩
  intro note member
  obtain ⟨_, _, rfl⟩ := allNacks note member
  rfl

/-- The scan for stalls and the dropping of orphans. -/
theorem Serving.stallTick (serving : Serving uploads e) (now : Int) :
    ∃ after, e.stallTick now = some after ∧ Serving uploads after := by
  obtain ⟨after, ran, pendingEq, notes, traceEq, allStall⟩ :=
    stallTick_total serving.consistent now
  have passive := stallTick_passive ran
  refine ⟨after, ran, serving.aside
    ⟨passive.sameTransfers, passive.srCount, passive.reassembler, notes, traceEq, ?_⟩
    (pendingEq ▸ serving.staged)⟩
  intro note member
  obtain ⟨sessionId, seqs, rfl⟩ := allStall note member
  rfl

theorem Serving.onTick (serving : Serving uploads e) (now : Int) :
    ∃ after, e.onTick now = some after ∧ Serving uploads after := by
  have expired : Serving uploads (e.expire now) :=
    serving.aside (Aside.silent ⟨rfl, rfl⟩ rfl rfl rfl) serving.staged
  have pendingEq := (timeoutTick_notes (e.expire now) now).1
  have quiet : Serving uploads ((e.expire now).timeoutTick now) :=
    expired.aside (timeoutTick_aside _ now) (pendingEq ▸ expired.staged)
  have timed : ∃ next, (if ((e.expire now).timeoutTick now).active.isSome ∧
      0 < ((e.expire now).timeoutTick now).lastChunkTime ∧
      transferTimeout < now - ((e.expire now).timeoutTick now).lastChunkTime
      then ((e.expire now).timeoutTick now).completeTransfer false now
      else some ((e.expire now).timeoutTick now)) = some next ∧ Serving uploads next := by
    split
    · rename_i timedOut
      obtain ⟨s, isActive⟩ := Option.isSome_iff_exists.mp timedOut.1
      exact completeTransfer_serves quiet.consistent quiet.uploading.toPromised quiet.staged
        isActive false now
    · exact ⟨_, rfl, quiet⟩
  obtain ⟨next, ended, isNext⟩ := timed
  obtain ⟨stalled, nacked, isStalled⟩ := isNext.stallTick now
  obtain ⟨pending, dropped, rearranged⟩ := dropOrphans_total stalled now
  refine ⟨{ stalled with pendingChunks := pending }, ?_,
    isStalled.aside (Aside.silent ⟨rfl, rfl⟩ rfl rfl rfl) fun c member =>
      isStalled.staged c (rearranged.cells c member)⟩
  rw [onTick_eq]
  dsimp only
  rw [ended, Option.bind_some, nacked, Option.bind_some]
  exact dropped

/-- A turn with a truthful message does not panic. -/
theorem Serving.handle (serving : Serving uploads e) {event : Event}
    (truthful : Truthful uploads event) (now : Int) :
    ∃ after, e.handle event now = some after ∧ Serving uploads after := by
  cases event with
  | file m => exact serving.onMeta truthful now
  | chunk c => exact serving.onChunk truthful now
  | tick => exact serving.onTick now

/-- Neither does a run of such turns. -/
theorem Serving.run (serving : Serving uploads e) (turns : List (Event × Int))
    (truthful : ∀ turn ∈ turns, Truthful uploads turn.1) :
    ∃ after, e.run turns = some after ∧ Serving uploads after := by
  induction turns generalizing e with
  | nil => exact ⟨e, rfl, serving⟩
  | cons turn rest inductionHypothesis =>
      obtain ⟨event, now⟩ := turn
      obtain ⟨next, handled, isServing⟩ := serving.handle (truthful _ List.mem_cons_self) now
      obtain ⟨after, ran, served⟩ := inductionHypothesis isServing fun turn member =>
        truthful turn (List.mem_cons_of_mem _ member)
      refine ⟨after, ?_, served⟩
      rw [Engine.run, handled]
      exact ran

theorem serving_newEngine (uploads : String → Option Upload) (srWindow srTimeout : Nat) :
    Serving uploads (newEngine srWindow srTimeout) where
  consistent := consistent_newEngine srWindow srTimeout
  uploading :=
    { sessions := fun _ none => absurd none List.not_mem_nil
      started := fun s isActive => by cases isActive
      saves := ⟨fun _ _ _ none => absurd none List.not_mem_nil,
        fun _ _ none => absurd none List.not_mem_nil⟩
      gathers := fun s r u isActive => by cases isActive }
  staged := fun _ none => absurd none List.not_mem_nil

/-! ## The results -/

/-- Truthful messages in any order, with any losses and repetitions, at any times: `RunEngine`
does not panic, every file that it saves is the upload of a session that it has started, under
the node and the name of the upload, and a chunk that completes a file always passes the
checksum. -/
theorem saved_files_are_uploads (uploads : String → Option Upload) (srWindow srTimeout : Nat)
    (turns : List (Event × Int)) (truthful : ∀ turn ∈ turns, Truthful uploads turn.1) :
    ∃ e, (newEngine srWindow srTimeout).run turns = some e ∧
      (∀ node name content, .save node name content ∈ e.trace →
        ∃ s u, .started s ∈ e.trace ∧ uploads s.key = some u ∧
          u.nodeId = node ∧ u.filename = name ∧ u.file = content) ∧
      ∀ s c now after finished success, e.active = some s → c.key = s.key →
        Truthful uploads (.chunk c) → e.processChunk c now = some (after, finished, success) →
          success = finished := by
  obtain ⟨e, ran, serving⟩ := (serving_newEngine uploads srWindow srTimeout).run turns truthful
  refine ⟨e, ran, serving.uploading.saves.files, ?_⟩
  intro s c now after finished success isActive own carries processed
  exact (serving.uploading.processChunk isActive own carries processed).2.1

/-- A file of one byte. -/
def oneByte : Upload where
  nodeId := "1a2b"
  sessionId := "7"
  filename := "f"
  file := [9]
  layout := .mesh

/-- The only upload. -/
def oneUpload (key : String) : Option Upload := if key = "1a2b|7" then some oneByte else none

def oneUploadMeta : FileMeta where
  nodeId := "1a2b"
  sessionId := "7"
  filename := "f"
  totalSize := 1
  chunkCount := 1
  crc32 := (crc32ChecksumIeee [9]).toNat
  fragmentSize := 1456

/-- Its only chunk. -/
def oneUploadChunk : FileChunk where
  nodeId := "1a2b"
  sessionId := 7
  seqNum := 0
  data := [9]

theorem oneUploadMeta_truthful : Truthful oneUpload (.file oneUploadMeta) :=
  ⟨oneByte, rfl, rfl, rfl, rfl, rfl, rfl, rfl, rfl, by decide⟩

theorem oneUploadChunk_truthful : Truthful oneUpload (.chunk oneUploadChunk) := by
  intro u isUpload
  cases isUpload
  exact ⟨by decide, by decide⟩

/-- The chunk is faster than the meta message. -/
theorem saved_files_are_uploads_overtaken : ∃ e, (newEngine 64 5).run
      [(.chunk oneUploadChunk, 1000), (.file oneUploadMeta, 1001), (.tick, 2000)] = some e ∧
    .save "1a2b" "f" [9] ∈ e.trace ∧
    ∀ node name content, .save node name content ∈ e.trace →
      ∃ s u, .started s ∈ e.trace ∧ oneUpload s.key = some u ∧
        u.nodeId = node ∧ u.filename = name ∧ u.file = content := by
  obtain ⟨e, ran, saves, _⟩ := saved_files_are_uploads oneUpload 64 5
    [(.chunk oneUploadChunk, 1000), (.file oneUploadMeta, 1001), (.tick, 2000)] (by
      intro turn member
      simp only [List.mem_cons, List.not_mem_nil, or_false] at member
      rcases member with rfl | rfl | rfl
      · exact oneUploadChunk_truthful
      · exact oneUploadMeta_truthful
      · exact trivial)
  have computed : ((newEngine 64 5).run [(.chunk oneUploadChunk, 1000),
      (.file oneUploadMeta, 1001), (.tick, 2000)]).any (fun e =>
        e.trace.contains (.save "1a2b" "f" [9])) = true := by
    decide +kernel
  rw [ran, Option.any_some, List.contains_iff_mem] at computed
  exact ⟨e, ran, computed, saves⟩

/-- The chunks that the active session has been given since it started are not enough for its
file: a data chunk has not arrived, and its parity group does not make up for it. -/
theorem waiting_session_lacks_chunks (uploads : String → Option Upload) (srWindow srTimeout : Nat)
    (turns : List (Event × Int)) (truthful : ∀ turn ∈ turns, Truthful uploads turn.1) :
    ∃ e, (newEngine srWindow srTimeout).run turns = some e ∧
      ∀ s u, e.active = some s → uploads s.key = some u → u.file ≠ [] →
        ∃ index < dataFragments u.file.length,
          u.layout.seqOf index ∉ arrivedSince e.trace ∧
          ¬ (u.layout = .mesh ∧ Recoverable (arrivedSince e.trace) (u.layout.seqOf index)) := by
  obtain ⟨e, ran, serving⟩ := (serving_newEngine uploads srWindow srTimeout).run turns truthful
  refine ⟨e, ran, ?_⟩
  intro s u isActive isUpload filled
  obtain ⟨_, r, _, hasReassembler, _⟩ := serving.consistent.receiver isActive
  obtain ⟨v, isOther, describes⟩ := serving.uploading.upload isActive
  cases isUpload.symm.trans isOther
  have noWrap := describes.noWrap
  have gathers := serving.uploading.gathers s r u isActive hasReassembler isUpload
  have assembled := gathers.receiving.assembled
  have unfinished := gathers.unfinished filled
  rw [Bool.eq_false_iff, ne_eq, assembled.isComplete_iff noWrap] at unfinished
  push Not at unfinished
  obtain ⟨index, small, unmarked⟩ := unfinished
  rw [gathers.gathered.marks, not_or] at unmarked
  refine ⟨index, small, unmarked.1, ?_⟩
  rintro ⟨overMesh, recoverable⟩
  -- A parity that has arrived was advertised, and then FEC is on.
  have parity := gathers.gathered.inRange _
    (recoverable.mem (u.layout.seqOf index / 8 * 8 + 7) (by omega)
      (by have := recoverable.1; omega))
  apply unmarked.2
  refine ⟨?_, recoverable⟩
  unfold FileReassembler.fecActive
  rw [assembled.dataChunkCount_eq noWrap, decide_eq_true_iff]
  have count : r.chunkCount = dataFragments u.file.length + dataFragments u.file.length / 7 := by
    rw [assembled.chunkCount, Layout.chunkCount_eq noWrap, overMesh]
    rfl
  rw [count] at parity ⊢
  omega

/-- A file of eight fragments, of which seven make up a parity group. -/
def eightFragments : Upload where
  nodeId := "1a2b"
  sessionId := "7"
  filename := "f"
  file := (List.range (7 * 1456 + 1)).map UInt8.ofNat
  layout := .mesh

theorem length_eightFragments : eightFragments.file.length = 7 * 1456 + 1 := by
  rw [eightFragments, List.length_map, List.length_range]

def eightUpload (key : String) : Option Upload :=
  if key = "1a2b|7" then some eightFragments else none

def eightMeta : FileMeta where
  nodeId := "1a2b"
  sessionId := "7"
  filename := "f"
  totalSize := 7 * 1456 + 1
  chunkCount := 9
  crc32 := (crc32ChecksumIeee eightFragments.file).toNat
  fragmentSize := 1456

def eightChunk (seq : Nat) : FileChunk where
  nodeId := "1a2b"
  sessionId := 7
  seqNum := seq
  data := fragmentPayload .mesh eightFragments.file seq

/-- Two fragments of the group are lost, and its parity and the last fragment arrive. -/
def twoLost : List (Event × Int) :=
  (.file eightMeta, 1000) :: [0, 1, 2, 3, 4, 7, 8].map fun seq => (.chunk (eightChunk seq), 1001)

theorem twoLost_truthful : ∀ turn ∈ twoLost, Truthful eightUpload turn.1 := by
  have count : Layout.mesh.chunkCount eightFragments.file.length = 9 := by
    rw [length_eightFragments]
    decide
  have noWrap : NoWrap .mesh eightFragments.file.length := by
    rw [length_eightFragments]
    decide
  have chunk : ∀ seq < 9, Truthful eightUpload (.chunk (eightChunk seq)) := by
    intro seq inside u isUpload
    have key : (eightChunk seq).key = "1a2b|7" := by
      change transferKey (toString 7) "1a2b" = _
      decide +kernel
    obtain rfl := Option.some.inj ((if_pos key).symm.trans isUpload)
    exact ⟨inside.trans_eq count.symm, rfl⟩
  refine List.forall_mem_cons.mpr ⟨?_, List.forall_mem_map.mpr fun seq member => ?_⟩
  · exact ⟨eightFragments, rfl, rfl, rfl, rfl, length_eightFragments.symm, count.symm, rfl, rfl,
      noWrap⟩
  · refine chunk seq ?_
    simp only [List.mem_cons, List.not_mem_nil, or_false] at member
    omega

/-- The parity does not make up for both. -/
theorem waiting_session_lacks_chunks_two_lost : ∃ e s,
    (newEngine 64 5).run twoLost = some e ∧ e.active = some s ∧
      arrivedSince e.trace = [0, 1, 2, 3, 4, 7, 8] ∧
      ∃ index < 8, Layout.mesh.seqOf index ∉ [0, 1, 2, 3, 4, 7, 8] ∧
        ¬ Recoverable [0, 1, 2, 3, 4, 7, 8] (Layout.mesh.seqOf index) := by
  obtain ⟨e, ran, lacks⟩ := waiting_session_lacks_chunks eightUpload 64 5 twoLost twoLost_truthful
  have computed : ((newEngine 64 5).run twoLost).any (fun e =>
      arrivedSince e.trace == [0, 1, 2, 3, 4, 7, 8] &&
        e.active.any fun s => s.key == "1a2b|7") = true := by
    decide +kernel
  rw [ran, Option.any_some, Bool.and_eq_true, beq_iff_eq] at computed
  obtain ⟨arrived, waits⟩ := computed
  obtain ⟨s, isActive, key⟩ := (Option.any_eq_true ..).mp waits
  have nonempty : eightFragments.file ≠ [] :=
    List.ne_nil_of_length_pos (by rw [length_eightFragments]; decide)
  obtain ⟨index, small, missing, stays⟩ := lacks s eightFragments isActive
    (by rw [beq_iff_eq.mp key]; rfl) nonempty
  rw [length_eightFragments] at small
  rw [arrived] at missing stays
  exact ⟨e, s, ran, isActive, arrived, index, small, missing, fun recoverable =>
    stays ⟨rfl, recoverable⟩⟩

end Engine

end ForestLink.Cloud
