/-
Module: ForestLink.Mesh.State
Purpose: State of the mesh transfer engine and its surroundings: the shared
  transfer record, the per-exit windows and path statistics, and what one call
  reads from and hands to the rest of the node (`transfer_engine.hpp`).
Trusted boundary: none
Main exports: PathArith, Env, Output, Io, ActiveTransfer, TransferEngine
-/
import Mathlib.Data.Rat.Defs
import ForestLink.Lib.Dispatch
import ForestLink.Protocol.SelectiveRepeat

namespace ForestLink.Mesh

open ForestLink.Lib
open ForestLink.Protocol

/-!
The engine runs inside the mesh task, one call after the other.  Everything a
call learns from outside is in its `Env`: clock readings, the results of the send
and queue callbacks, how much a file read returns, and the queues it drains.  The
callbacks that `MeshManager::init` installs are always present.

Telemetry, log lines and the counters that only feed them are left out.  The
`log` of dispatcher moves is the one addition: it records where the source places
a fragment, releases it or gives an exit up, and nothing reads it.
-/

/-! ## Scheduler arithmetic -/

/-- The floating-point operations of the path statistics.  No law is assumed, so
results hold for the firmware's single precision as for exact arithmetic. -/
class PathArith (F : Type) where
  ofNat : Nat → F
  negOne : F
  alpha : F
  add : F → F → F
  sub : F → F → F
  mul : F → F → F
  div : F → F → F
  lt : F → F → Bool

instance : PathArith Float32 where
  ofNat := Float32.ofNat
  negOne := -1.0
  alpha := 0.3
  add a b := a + b
  sub a b := a - b
  mul a b := a * b
  div a b := a / b
  lt a b := decide (a < b)

instance : PathArith ℚ where
  ofNat n := n
  negOne := -1
  alpha := 3 / 10
  add a b := a + b
  sub a b := a - b
  mul a b := a * b
  div a b := a / b
  lt a b := decide (a < b)

/-- `ExitPathStats`; the counters are 32-bit. -/
structure ExitPathStats (F : Type) where
  ewmaRttMs : F
  ewmaLoss : F
  sent : Nat
  acked : Nat
  nacked : Nat
  weight : F

/-- `ExitPathStats{}` -/
def ExitPathStats.initial {F : Type} [PathArith F] : ExitPathStats F where
  ewmaRttMs := PathArith.ofNat 500
  ewmaLoss := PathArith.ofNat 0
  sent := 0
  acked := 0
  nacked := 0
  weight := PathArith.ofNat 1

/-! ## Surroundings of one call -/

/-- What the rest of the node answers during one call, each list in call order.
An exhausted list answers with success: sent, queued, read in full. -/
structure Env where
  clock : Nat → Nat := fun _ => 0
  sendResults : List Int := []
  queueResults : List Bool := []
  readLimits : List Nat := []
  congestion : List Bool := []
  cloudAcks : List Nat := []
  cloudNacks : List Nat := []
  fragmentAcks : List Nat := []
  transferComplete : Bool := false
  random : Nat := 0
  wifiRssi : Int := 0

/-- What a call hands to the rest of the node. -/
inductive Output where
  | sent (dst : Nat) (type : PacketType) (seq : Nat) (payload : List UInt8) (result : Int)
  | toMqtt (session seq srcNode : Nat) (data filename : List UInt8) (queued : Bool)
  | transferMeta (session : Nat) (filename : List UInt8)
      (srcNode totalSize chunkCount fragmentSize crc32 : Nat)
  | nackObserved (session seq : Nat)
  | nackRequeued (session seq : Nat)
  | ackRequeued (session seq : Nat)
  | sessionEnd (session : Nat)
  | transferComplete
  | exitNodeElected
deriving Repr, DecidableEq

/-- The surroundings during a call, the outputs newest first, and
`congestion_backoff_ticks_`, which the send callback raises. -/
structure Io where
  env : Env := {}
  outputs : List Output := []
  congestionBackoffTicks : Nat := 0

namespace Io

/-- `esp_timer_get_time() / 1000` -/
def timerMs (io : Io) : Nat := io.env.clock 0

/-- Read the clock as `uint32_t` milliseconds; the next reading is taken later. -/
def nowMs (io : Io) : Nat × Io :=
  (io.timerMs % 2 ^ 32,
    { io with env := { io.env with clock := fun n => io.env.clock (n + 1) } })

def emit (io : Io) (output : Output) : Io := { io with outputs := output :: io.outputs }

/-- `signal_congestion` -/
def signalCongestion (io : Io) : Io :=
  { io with congestionBackoffTicks := min (io.congestionBackoffTicks + 2) 12 }

/-- `note_local_backpressure` -/
def noteLocalBackpressure (io : Io) : Io :=
  { io with
    congestionBackoffTicks := min (io.signalCongestion.congestionBackoffTicks + 2) 16 }

/-- The sequence number on the air: ACK and NACK carry the congestion bit. -/
def airSeq (io : Io) (type : PacketType) (seq : Nat) : Nat :=
  match type with
  | .ack | .nack => seqWithCongestion seq (io.env.congestion.headD false)
  | _ => seq

/-- The send callback of `MeshManager::init`. -/
def sendPacket (io : Io) (dst : Nat) (type : PacketType) (payload : List UInt8) (seq : Nat) :
    Int × Io :=
  let result := io.env.sendResults.headD 0
  let after :=
    { io with
      env :=
        { io.env with
          sendResults := io.env.sendResults.tail
          congestion :=
            match type with
            | .ack | .nack => io.env.congestion.tail
            | _ => io.env.congestion }
      outputs := .sent dst type (io.airSeq type seq) payload result :: io.outputs }
  (result, if result = sendBackpressure then after.noteLocalBackpressure else after)

/-- `forward_to_mqtt_fn_` -/
def forwardToMqtt (io : Io) (session seq srcNode : Nat) (data filename : List UInt8) :
    Bool × Io :=
  let queued := io.env.queueResults.headD true
  (queued,
    { io with
      env := { io.env with queueResults := io.env.queueResults.tail }
      outputs := .toMqtt session seq srcNode data filename queued :: io.outputs })

/-- One `read_chunk` call: at most the requested bytes, cut at the read limit. -/
def readChunk (io : Io) (file : Option (Nat → Nat → List UInt8)) (offset len : Nat) :
    List UInt8 × Io :=
  let bytes := match file with
    | some read => (read offset len).take len
    | none => []
  match io.env.readLimits with
  | [] => (bytes, io)
  | limit :: rest =>
      (bytes.take limit, { io with env := { io.env with readLimits := rest } })

/-- The callbacks an ARQ window uses. -/
def radio : Radio Io where
  nowMs := nowMs
  send io dst type seq data := io.sendPacket dst type data seq

end Io

/-! ## Engine state -/

/-- `ActiveTransfer`; `filename` is the text before the terminating NUL. -/
structure ActiveTransfer where
  readChunk : Option (Nat → Nat → List UInt8) := none
  size : Nat := 0
  crc32 : Nat := 0
  fragmentCount : Nat := 0
  fragmentSize : Nat := 0
  nextFragment : Nat := 0
  exitNodes : Nat → Nat := fun _ => 0
  exitNodeCount : Nat := 0
  sessionId : Nat := 0
  filename : List UInt8 := []
  active : Bool := false
  exitNodeAlive : Nat → Bool := fun _ => true
  lastAckMs : Nat → Nat := fun _ => 0

/-- `BroadcastRetry` -/
structure BroadcastRetry where
  payload : List UInt8 := []
  type : PacketType := .transferAd
  dstAddr : Nat := broadcastAddr
  maxRetries : Nat := 3
  attempt : Nat := 0
  nextSendMs : Nat := 0
  backoffMs : Nat := 500
  active : Bool := false

/-- `ExitCandidate` -/
structure ExitCandidate where
  addr : Nat
  rssiToGw : Int
  hopsToGw : Nat
  activeTransfers : Nat
deriving Repr, DecidableEq

/-- `TransferEngine`.  Fixed arrays are functions of the index; queues with a
count are lists. -/
structure TransferEngine (F : Type) where
  myAddr : Nat
  maxElectedExits : Nat
  electionTimeoutMs : Nat := 3000
  exitNodeTimeoutMs : Nat := 30000
  sourceHopsToExitEst : Nat := 1
  meshWindowCap : Nat := arqWindow
  arq : Nat → SelectiveRepeat := fun _ => {}
  transfer : ActiveTransfer := {}
  broadcastRetry : BroadcastRetry := {}
  candidates : List ExitCandidate := []
  electionStartMs : Nat := 0
  electionActive : Bool := false
  fecEncoder : FecEncoder := {}
  isExitNode : Bool := false
  exitPending : Bool := false
  localExit : Bool := false
  activeSessionId : Nat := 0
  sourceAddr : Nat := 0
  cloudAckBitmap : Nat → Bool := fun _ => false
  cloudBaseSeq : Nat := 0
  cloudNextSend : Nat := 0
  cloudRetxQueue : List Nat := []
  redistPending : List Nat := []
  oowRetxQueue : List (Nat × Nat) := []
  lastOowRetxMs : Nat := 0
  oowRecent : Nat → Nat × Nat := fun _ => (0, 0)
  oowRecentWrite : Nat := 0
  lastCloudActivityMs : Nat := 0
  lastMeshFragSendMs : Nat := 0
  meshUploadDone : Bool := false
  lastMetaPublishMs : Nat := 0
  pathStats : Nat → ExitPathStats F
  weightRecomputeCounter : Nat := 0
  io : Io := {}
  log : List (Dispatch.Move Nat) := []

/-- The engine after `init`.  `CONFIG_FLP_MAX_ELECTED_EXITS` bounds both the
preallocated windows and the elected exits. -/
def TransferEngine.boot {F : Type} [PathArith F] (myAddr maxElectedExits : Nat) :
    TransferEngine F where
  myAddr := myAddr
  maxElectedExits := maxElectedExits
  pathStats _ := .initial

namespace TransferEngine

variable {F : Type}

/-- Read the clock inside a call. -/
def nowMs (e : TransferEngine F) : Nat × TransferEngine F :=
  (e.io.nowMs.1, { e with io := e.io.nowMs.2 })

def setEnv (e : TransferEngine F) (env : Env) : TransferEngine F :=
  { e with io := { e.io with env := env } }

def emit (e : TransferEngine F) (output : Output) : TransferEngine F :=
  { e with io := e.io.emit output }

/-- `send_fn_` -/
def sendPacket (e : TransferEngine F) (dst : Nat) (type : PacketType) (payload : List UInt8)
    (seq : Nat) : Int × TransferEngine F :=
  let result := e.io.sendPacket dst type payload seq
  (result.1, { e with io := result.2 })

def signalCongestion (e : TransferEngine F) : TransferEngine F :=
  { e with io := e.io.signalCongestion }

def note (e : TransferEngine F) (move : Dispatch.Move Nat) : TransferEngine F :=
  { e with log := move :: e.log }

def setArq (e : TransferEngine F) (index : Nat) (sr : SelectiveRepeat) : TransferEngine F :=
  { e with arq := Function.update e.arq index sr }

/-- `arq_index_for_peer` -/
def arqIndexForPeer (e : TransferEngine F) (addr : Nat) : Option Nat :=
  (List.range e.transfer.exitNodeCount).find? fun i => e.transfer.exitNodes i == addr

/-- `arq_index_for_sequence` -/
def arqIndexForSequence (e : TransferEngine F) (seq : Nat) : Option Nat :=
  (List.range e.transfer.exitNodeCount).find? fun i => (e.arq i).containsSequence seq

/-- `total_mesh_inflight` -/
def totalMeshInflight (e : TransferEngine F) : Nat :=
  ((List.range e.transfer.exitNodeCount).map fun i => (e.arq i).senderWindowUsed).sum

/-- `mesh_window_cap_per_exit`, with `MIN_PER_EXIT_WINDOW_CAP` 8. -/
def meshWindowCapPerExit (e : TransferEngine F) : Nat :=
  let exits := if e.transfer.exitNodeCount > 0 then e.transfer.exitNodeCount else 1
  min (max (e.meshWindowCap / exits) 8) arqWindow

/-- Number of exits still alive. -/
def aliveCount (e : TransferEngine F) : Nat :=
  ((List.range e.transfer.exitNodeCount).filter e.transfer.exitNodeAlive).length

end TransferEngine

end ForestLink.Mesh
