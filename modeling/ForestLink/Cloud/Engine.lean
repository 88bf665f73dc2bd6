/-
Module: ForestLink.Cloud.Engine
Purpose: The cloud's transfer engine: the session queue, the staging buffer and
  the three handlers of the goroutine `RunEngine`
  (`cloud-admin/internal/transfer/engine.go`).
Trusted boundary: none
Main exports: Session, Receiver.processChunk, Engine, Engine.setupActive,
  Engine.completeTransfer, Engine.onMeta, Engine.onChunk, Engine.onTick,
  Engine.handle, Engine.run, newEngine
-/
import Mathlib.Data.Finset.Insert
import ForestLink.Lib.Slice
import ForestLink.Cloud.Reassembler
import ForestLink.Cloud.SelectiveRepeat

namespace ForestLink.Cloud

open ForestLink.Lib

/-!
`RunEngine` is one goroutine, so its handlers run one after the other and the
captured variables are the state.  Every handler is given one clock reading in
milliseconds.  The result `none` is a Go panic.  Log lines, the counters that
only feed them and the progress snapshot of the API are left out.
-/

/-! ## Messages and sessions -/

/-- `mqtt.FileMeta`; `sessionId` is the text of the JSON number.  The two counts are
not negative, as the node prints them. -/
structure FileMeta where
  nodeId : String
  sessionId : String
  filename : String
  totalSize : Nat
  chunkCount : Nat
  crc32 : Nat
  fragmentSize : Int
deriving DecidableEq

/-- `mqtt.FileChunk` -/
structure FileChunk where
  nodeId : String
  sessionId : Nat
  seqNum : Nat
  data : List UInt8
deriving DecidableEq

/-- `completedSessionKey`, also `transferKey`. -/
def transferKey (sessionId nodeId : String) : String := nodeId ++ "|" ++ sessionId

/-- The key of a chunk, its session id printed with `%d`. -/
def FileChunk.key (chunk : FileChunk) : String :=
  transferKey (toString chunk.sessionId) chunk.nodeId

/-- `completedMetaKey` -/
def completedMetaKey (m : FileMeta) : String :=
  m.nodeId ++ "|" ++ m.sessionId ++ "|" ++ m.filename ++ "|" ++ toString m.totalSize ++ "|" ++
    toString m.chunkCount ++ "|" ++ toString m.crc32 ++ "|" ++ toString m.fragmentSize

/-- `Session` -/
structure Session where
  sessionId : String
  nodeId : String
  filename : String
  totalSize : Nat
  chunkCount : Nat
  crc32 : Nat
  fragmentSize : Int
  startedAt : Int := 0
  completedAt : Int := 0
  exitNodes : Finset String
deriving DecidableEq

namespace Session

/-- `transferKey(s.SessionID, s.NodeID)` -/
def key (s : Session) : String := transferKey s.sessionId s.nodeId

/-- The fields `completedMetaKey` reads. -/
def toMeta (s : Session) : FileMeta where
  nodeId := s.nodeId
  sessionId := s.sessionId
  filename := s.filename
  totalSize := s.totalSize
  chunkCount := s.chunkCount
  crc32 := s.crc32
  fragmentSize := s.fragmentSize

end Session

/-! ## The receiving side of one session -/

/-- The pair `reassembler`, `sr` that `setupActive` creates together. -/
structure Receiver where
  reassembler : FileReassembler
  sr : SelectiveRepeat

/-- What one `processChunk` call reports. -/
structure ChunkOutcome where
  isNew : Bool := false
  acked : Option Nat := none
  complete : Bool := false
  success : Bool := false
deriving DecidableEq

namespace Receiver

/-- The receiver `setupActive` creates for a session. -/
def forSession (s : Session) (srWindow srTimeout : Nat) : Receiver where
  reassembler := newFileReassembler s.sessionId s.filename s.totalSize s.chunkCount s.crc32
    s.fragmentSize
  sr := (newSelectiveRepeat srWindow srTimeout).startSession s.chunkCount

/-- `processChunk`: only a new chunk reaches `OnChunkReceived`. -/
def processChunk (receiver : Receiver) (seq : Nat) (data : List UInt8) :
    Option (Receiver × ChunkOutcome) := do
  let (isNew, reassembler) ← receiver.reassembler.writeChunk seq data
  if !isNew then pure ({ receiver with reassembler := reassembler }, {})
  else
    let (sr, acked) := receiver.sr.onChunkReceived seq
    let complete := reassembler.isComplete
    pure ({ reassembler := reassembler, sr := sr },
      { isNew := true
        acked := acked
        complete := complete
        success := complete && reassembler.verifyCrc })

end Receiver

/-! ## The engine's state -/

/-- What the engine does to the outside, and four notes of its own: which chunks
went to `processChunk`, which sessions `completeTransfer` closed, which became
active and when the file of which was saved. -/
inductive EngineEvent where
  | processed (chunk : FileChunk)
  | closed (key : String) (success : Bool)
  | started (session : Session)
  | saved (session : Session) (now : Int)
  | ack (sessionId : String) (seq : Nat)
  | nack (sessionId : String) (seq : Nat)
  | transferNack (sessionId : String) (seqs : List Nat)
  | transferComplete (sessionId : String)
  | transferCmd (nodeId command sessionId : String)
  | save (nodeId filename : String) (content : List UInt8)
  | record (session : Session) (nacks : Nat)
deriving DecidableEq

/-- The chunk of a `processed` note. -/
def EngineEvent.processed? : EngineEvent → Option FileChunk
  | .processed chunk => some chunk
  | _ => none

/-- The key of a `closed` note. -/
def EngineEvent.closed? : EngineEvent → Option String
  | .closed key _ => some key
  | _ => none

/-- The variables of `RunEngine`; `queue`, `active` and `completed` are the
fields of `Queue`. -/
structure Engine where
  srWindow : Nat
  srTimeout : Nat
  queue : List Session := []
  active : Option Session := none
  completed : List Session := []
  sr : Option SelectiveRepeat := none
  reassembler : Option FileReassembler := none
  lastChunkTime : Int := 0
  pendingChunks : Slice FileChunk := Slice.empty
  lastStallNackTime : Int := 0
  stallNackRetries : Nat := 0
  recentlyCompletedMeta : String → Option Int := fun _ => none
  recentlyCompletedSession : String → Option Int := fun _ => none
  activeMetaLastSeen : String → Option Int := fun _ => none
  trace : List EngineEvent := []

/-- `maxCompletedSlice` -/
def maxCompletedSlice : Nat := 1000

/-- `maxPendingChunks` -/
def maxPendingChunks : Nat := 512

/-- `recentlyCompletedTTL` -/
def recentlyCompletedTtl : Int := 30000

/-- `transferTimeoutSec` -/
def transferTimeout : Int := 60000

namespace Engine

def emit (e : Engine) (events : List EngineEvent) : Engine :=
  { e with trace := e.trace ++ events }

/-- The chunks handed to `processChunk`, in order. -/
def processedChunks (e : Engine) : List FileChunk :=
  e.trace.filterMap EngineEvent.processed?

/-- The keys of the sessions `completeTransfer` closed, in order. -/
def closedKeys (e : Engine) : List String :=
  e.trace.filterMap EngineEvent.closed?

/-! ## Queue operations -/

/-- `Queue.StartNext` -/
def startNext (e : Engine) (now : Int) : Engine :=
  match e.active, e.queue with
  | none, s :: rest =>
      { e with queue := rest, active := some { s with startedAt := now } }.emit
        [.transferCmd s.nodeId "START" s.sessionId, .started { s with startedAt := now }]
  | _, _ => e

/-- `Queue.CompleteActive` -/
def completeActive (e : Engine) (now : Int) : Engine :=
  match e.active with
  | none => e
  | some s =>
      let completed := e.completed ++ [{ s with completedAt := now }]
      { e with
        completed := completed.drop (completed.length - maxCompletedSlice)
        active := none }.startNext now

/-- The session a meta message describes. -/
def sessionOf (m : FileMeta) : Session where
  sessionId := m.sessionId
  nodeId := m.nodeId
  filename := m.filename
  totalSize := m.totalSize
  chunkCount := m.chunkCount
  crc32 := m.crc32
  fragmentSize := m.fragmentSize
  exitNodes := {m.nodeId}

/-- `s.SessionID == sessionID && s.NodeID == nodeID` -/
def sameTransfer (m : FileMeta) (s : Session) : Bool :=
  s.sessionId == m.sessionId && s.nodeId == m.nodeId

/-- `s.ExitNodes[nodeID] = true` -/
def addExit (m : FileMeta) (s : Session) : Session :=
  { s with exitNodes := insert m.nodeId s.exitNodes }

/-- Merge into the first queued session of the same transfer. -/
def mergeQueued (m : FileMeta) : List Session → Option (List Session)
  | [] => none
  | s :: rest =>
      if sameTransfer m s then some (addExit m s :: rest)
      else (mergeQueued m rest).map (s :: ·)

/-- `Queue.Enqueue` -/
def enqueue (e : Engine) (m : FileMeta) (now : Int) : Engine :=
  match e.active with
  | some s =>
      if sameTransfer m s then { e with active := some (addExit m s) }
      else
        match mergeQueued m e.queue with
        | some queue => { e with queue := queue }
        | none => { e with queue := e.queue ++ [sessionOf m] }
  | none =>
      match mergeQueued m e.queue with
      | some queue => { e with queue := queue }
      | none => { e with queue := e.queue ++ [sessionOf m] }.startNext now

/-! ## Chunks -/

/-- `processChunk` on the engine's variables. -/
def processChunk (e : Engine) (chunk : FileChunk) (now : Int) :
    Option (Engine × Bool × Bool) := do
  let reassembler ← e.reassembler
  let sr ← e.sr
  let s ← e.active
  let (receiver, outcome) ←
    Receiver.processChunk ⟨reassembler, sr⟩ chunk.seqNum chunk.data
  let acks := outcome.acked.toList.map fun seq => EngineEvent.ack s.sessionId seq
  let saves := if outcome.success then
      [EngineEvent.save s.nodeId s.filename
        (receiver.reassembler.buffer.take receiver.reassembler.totalSize), .saved s now]
    else []
  let e :=
    { e with
      reassembler := some receiver.reassembler
      sr := some receiver.sr
      lastChunkTime := if outcome.isNew then now else e.lastChunkTime }.emit
        (EngineEvent.processed chunk :: (acks ++ saves))
  pure (e, outcome.complete, outcome.success)

/-- The variables `setupActive` resets for the session that becomes active. -/
def resetFor (e : Engine) (s : Session) (now : Int) : Engine :=
  let receiver := Receiver.forSession s e.srWindow e.srTimeout
  { e with
    sr := some receiver.sr
    reassembler := some receiver.reassembler
    lastChunkTime := now
    lastStallNackTime := 0
    stallNackRetries := 0 }

/-- The replay loop of `setupActive` over the first cells of the staging array:
`left` iterations remain, `i` is the cell read next, `kept` the number of cells
appended to `kept`.  `complete` is `completeTransfer`, which rewrites the same
array. -/
def replay (complete : Engine → Bool → Option Engine) (activeKey : String) (now : Int) :
    Nat → Nat → Nat → Bool → Engine → Option (Engine × Nat)
  | 0, _, kept, _, e => some (e, kept)
  | left + 1, i, kept, completed, e => do
      let c ← e.pendingChunks.cells[i]?
      if c.key ≠ activeKey ∨ completed = true then
        replay complete activeKey now left (i + 1) (kept + 1) completed
          { e with pendingChunks := e.pendingChunks.store kept c }
      else
        let (e, finished, success) ← e.processChunk c now
        if finished then
          let e ← complete e success
          replay complete activeKey now left (i + 1) kept true e
        else replay complete activeKey now left (i + 1) kept completed e

/-- The body of `setupActive`, with `completeTransfer` as a parameter. -/
def setupActiveWith (complete : Engine → Bool → Option Engine) (now : Int) (e : Engine) :
    Option Engine :=
  match e.active with
  | none => some { e with sr := none, reassembler := none }
  | some s => do
      let e := e.resetFor s now
      if e.pendingChunks.len = 0 then pure e
      else
        let (e, kept) ← replay complete s.key now e.pendingChunks.len 0 0 false e
        let pending ← e.pendingChunks.reslice? kept
        pure { e with pendingChunks := pending }

/-- `completeTransfer` up to its call of `setupActive`. -/
def closeActive (e : Engine) (s : Session) (success : Bool) (now : Int) : Engine :=
  let nacks := (e.sr.map fun sr => sr.nackCount).getD 0
  let recorded :=
    if success then
      { e with
        recentlyCompletedMeta := Function.update e.recentlyCompletedMeta
          (completedMetaKey s.toMeta) (some (now + recentlyCompletedTtl))
        recentlyCompletedSession := Function.update e.recentlyCompletedSession
          s.key (some (now + recentlyCompletedTtl)) }.emit
        [.transferComplete s.sessionId, .record { s with completedAt := now } nacks]
    else e
  { recorded with
    pendingChunks := recorded.pendingChunks.filterInPlace fun c => c.key != s.key }.emit
      [.closed s.key success]
  |>.completeActive now

/-- The body of `completeTransfer`, with `setupActive` as a parameter. -/
def completeTransferWith (setup : Engine → Option Engine) (now : Int) (e : Engine)
    (success : Bool) : Option Engine :=
  match e.active with
  | none => some e
  | some s => setup (e.closeActive s success now)

/-- `setupActive` cut off after `fuel` nested calls. -/
def setupActiveFuel (now : Int) : Nat → Engine → Option Engine
  | 0 => fun _ => none
  | fuel + 1 => setupActiveWith (completeTransferWith (setupActiveFuel now fuel) now) now

/-- `setupActive`.  Every nested call has one queued session less, and the last
one finds no active session. -/
def setupActive (e : Engine) (now : Int) : Option Engine :=
  setupActiveFuel now (e.queue.length + 2) e

/-- `completeTransfer` -/
def completeTransfer (e : Engine) (success : Bool) (now : Int) : Option Engine :=
  completeTransferWith (fun e => e.setupActive now) now e success

/-! ## The handlers of the select loop -/

/-- Suppression and superseding while a session is active; `none` in the first
component is the `continue` that ignores the message. -/
def metaWhileActive (e : Engine) (m : FileMeta) (s : Session) (now : Int) :
    Option (Bool × Engine) :=
  let metaTransferKey := transferKey m.sessionId m.nodeId
  let seen := e.activeMetaLastSeen metaTransferKey
  let stamped : Engine :=
    { e with
      activeMetaLastSeen := Function.update e.activeMetaLastSeen metaTransferKey (some now) }
  if s.key = metaTransferKey then
    if seen.any fun last => now - last < 1500 then some (false, e)
    else some (true, stamped)
  else if s.sessionId = m.sessionId ∧ s.nodeId ≠ m.nodeId then
    if seen.all fun last => 2000 ≤ now - last then some (false, stamped)
    else some (false, e)
  else if 10000 < now - e.lastChunkTime ∨ e.lastChunkTime = 0 then
    (e.completeTransfer false now).map fun e => (true, e)
  else some (true, e)

/-- `case meta := <-metaCh` -/
def onMeta (e : Engine) (m : FileMeta) (now : Int) : Option Engine := do
  let metaKey := completedMetaKey m
  let expiry := e.recentlyCompletedMeta metaKey
  if expiry.any fun expiresAt => now < expiresAt then pure e
  else
    let e := { e with
      recentlyCompletedMeta := Function.update e.recentlyCompletedMeta metaKey none }
    let (goesOn, e) ←
      match e.active with
      | some s => e.metaWhileActive m s now
      | none => some (true, e)
    if !goesOn then pure e
    else
      let e := e.enqueue m now
      let e := match e.active with
        | some s =>
            { e with
              activeMetaLastSeen := Function.update e.activeMetaLastSeen s.key (some now) }
        | none => e
      if e.active.isSome && e.sr.isNone then e.setupActive now else pure e

/-- `case chunk := <-chunkCh` -/
def onChunk (e : Engine) (chunk : FileChunk) (now : Int) : Option Engine := do
  let expiry := e.recentlyCompletedSession chunk.key
  if expiry.any fun expiresAt => now < expiresAt then pure e
  else
    let e := { e with
      recentlyCompletedSession := Function.update e.recentlyCompletedSession chunk.key none }
    match e.active, e.reassembler, e.sr with
    | some s, some _, some _ =>
        if toString chunk.sessionId ≠ s.sessionId ∨ chunk.nodeId ≠ s.nodeId then pure e
        else
          let (e, finished, success) ← e.processChunk chunk now
          if finished then e.completeTransfer success now else pure e
    | _, _, _ =>
        if e.pendingChunks.len < maxPendingChunks then
          pure { e with pendingChunks := e.pendingChunks.append chunk }
        else pure e

/-- `int(1) << stallNackRetries` on 64-bit integers. -/
def shiftedOne (retries : Nat) : Int :=
  if retries < 63 then 2 ^ retries else if retries = 63 then -(2 ^ 63) else 0

/-- The cooldown between two stall NACKs, in milliseconds. -/
def stallCooldown (tailPhase : Bool) (retries : Nat) : Int :=
  if tailPhase then 4000
  else min (4000 * shiftedOne retries) 16000

/-- The stall part of the ticker. -/
def stallTick (e : Engine) (now : Int) : Option Engine :=
  match e.sr, e.reassembler with
  | some sr, some reassembler =>
      if reassembler.isComplete then some e
      else
        let tailPhase := reassembler.inTailPhase
        if stallCooldown tailPhase e.stallNackRetries ≤ now - e.lastStallNackTime ∧
            sr.checkStall e.lastChunkTime 5000 now ≠ [] then
          let (sr, filtered) :=
            sr.buildFilteredStallNacks 8 64 (if tailPhase then 4000 else 8000) now
          let e := { e with sr := some sr }
          if filtered = [] then some e
          else do
            let s ← e.active
            pure ({ e with
              lastStallNackTime := now
              stallNackRetries :=
                if tailPhase then e.stallNackRetries else e.stallNackRetries + 1 }.emit
                [.transferNack s.sessionId filtered])
        else some e
  | _, _ => some e

/-- `sr.CheckTimeouts(6)` after the quiet period. -/
def timeoutTick (e : Engine) (now : Int) : Engine :=
  match e.sr with
  | none => e
  | some sr =>
      if e.lastChunkTime = 0 ∨ 1500 ≤ now - e.lastChunkTime then
        let (sr, nacks) := sr.checkTimeouts 6 now
        let sessionId := (e.active.map Session.sessionId).getD ""
        { e with sr := some sr }.emit (nacks.map (EngineEvent.nack sessionId))
      else e

/-- `case <-ticker.C` -/
def onTick (e : Engine) (now : Int) : Option Engine := do
  let e :=
    { e with
      recentlyCompletedMeta := fun key =>
        (e.recentlyCompletedMeta key).filter fun expiresAt => now < expiresAt
      recentlyCompletedSession := fun key =>
        (e.recentlyCompletedSession key).filter fun expiresAt => now < expiresAt }
  let e := e.timeoutTick now
  let e ← if e.active.isSome ∧ 0 < e.lastChunkTime ∧ transferTimeout < now - e.lastChunkTime
    then e.completeTransfer false now else pure e
  let e ← e.stallTick now
  if e.active.isNone ∧ 0 < e.pendingChunks.len ∧ 30000 < now - e.lastChunkTime then do
    let pending ← e.pendingChunks.reslice? 0
    pure { e with pendingChunks := pending }
  else pure e

/-! ## The select loop -/

/-- What the `select` of `RunEngine` can receive. -/
inductive Event where
  | file (m : FileMeta)
  | chunk (c : FileChunk)
  | tick
deriving DecidableEq

/-- One turn of the loop at a clock reading. -/
def handle (e : Engine) (event : Event) (now : Int) : Option Engine :=
  match event with
  | .file m => e.onMeta m now
  | .chunk c => e.onChunk c now
  | .tick => e.onTick now

/-- The loop over the events that it receives. -/
def run (e : Engine) : List (Event × Int) → Option Engine
  | [] => some e
  | (event, now) :: rest => do
      let e ← e.handle event now
      e.run rest

end Engine

/-- The variables of `RunEngine` before its first event. -/
def newEngine (srWindow srTimeout : Nat) : Engine where
  srWindow := srWindow
  srTimeout := srTimeout

end ForestLink.Cloud
