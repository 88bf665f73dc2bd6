/-
Module: ForestLink.Uart.Node
Purpose: A node whose transfers are started over the serial port or by the application, with
  what it signals about their ends.
Trusted boundary: none
Main exports: TransferLog, Report, UartNode, UartNode.Action, UartNode.act, UartNode.run
-/
import ForestLink.Mesh.Occasion
import ForestLink.Mesh.TransferNetwork
import ForestLink.Uart.Ingest

namespace ForestLink.Uart

open ForestLink.Mesh
open ForestLink.Protocol
open ForestLink.Mesh.TransferEngine (Call)

/-- What has been seen of one transfer: the cloud ACKs handed to the engine while it ran,
whether one of its exits has sent a TRANSFER_DONE of its session, and whether the latest call
aborted it. -/
structure TransferLog where
  localExit : Bool := false
  session : Nat := 0
  fragments : Nat := 0
  acked : List Nat := []
  done : Bool := false
  aborted : Bool := false

namespace TransferLog

/-- The cloud has acknowledged every fragment of a local-exit transfer, or an exit has reported
the completion of the session. -/
def Completed (log : TransferLog) : Prop :=
  (log.localExit = true ∧ ∀ seq < log.fragments, seq ∈ log.acked) ∨ log.done = true

variable {F : Type}

/-- The log of a transfer that has just started. -/
def start (e : TransferEngine F) : TransferLog where
  localExit := e.localExit
  session := e.transfer.sessionId
  fragments := e.transfer.fragmentCount

/-- The TRANSFER_DONE is one of the session, from one of the exits. -/
def confirms (log : TransferLog) (e : TransferEngine F) (done : Nat × List UInt8) : Bool :=
  (TransferDone.ofBytes done.2).sessionId == log.session &&
    (List.range e.transfer.exitNodeCount).any fun i => e.transfer.exitNodes i == done.1

/-- A call of the engine `e` during the transfer. -/
def observe (log : TransferLog) (e : TransferEngine F) (o : Occasion) : TransferLog :=
  { log with
    acked := o.acks ++ log.acked
    done := log.done || o.done.any (log.confirms e)
    aborted := o.aborts .arqFailed || o.aborts .stalled || o.aborts .noCandidates ||
      o.aborts .noExits }

end TransferLog

/-- What is signalled of a transfer: `FLP_EVT_TRANSFER_COMPLETE` or a frame to the host. -/
inductive Report where
  | event (transfer : Nat)
  | frame (transfer : Nat) (sent : UartFrame)
deriving Repr, DecidableEq

/-- The transfer that the report calls a success. -/
def Report.success? : Report → Option Nat
  | .event transfer => some transfer
  | .frame transfer sent =>
      if sent.cmd = evtTransferComplete ∧ sent.payload.head? = some 1 then some transfer
      else none

/-- Engine, ingest and event group of a node.  `logs`, `started`, `tracked` and `reports` only
record: transfers are numbered from 1 in the order of their start, and `tracked` is the one
that FILE_END started last. -/
structure UartNode (F : Type) where
  config : UartConfig
  engine : TransferEngine F
  ingest : UartIngest := {}
  source : Option UartIngest.Source := none
  completeBit : Bool := false
  started : Nat := 0
  logs : Nat → TransferLog := fun _ => {}
  tracked : Nat := 0
  reports : List Report := []

namespace UartNode

variable {F : Type} [PathArith F]

def boot (config : UartConfig) (myAddr maxElectedExits : Nat) : UartNode F where
  config := config
  engine := .boot myAddr maxElectedExits

/-- The reader of a transfer from the ingest reads what the ingest stores now. -/
def bindReader (n : UartNode F) : TransferEngine F :=
  match n.source with
  | none => n.engine
  | some source =>
      { n.engine with
        transfer :=
          { n.engine.transfer with
            readChunk := n.engine.transfer.readChunk.map fun _ => n.ingest.read source } }

/-- Record the start of a transfer, or a call during the running one. -/
def record (n : UartNode F) (e after : TransferEngine F) (o : Occasion) : UartNode F :=
  if e.transfer.active then
    { n with logs := Function.update n.logs n.started ((n.logs n.started).observe e o) }
  else if after.transfer.active then
    { n with
      started := n.started + 1
      logs := Function.update n.logs (n.started + 1) (TransferLog.start after) }
  else n

/-- The engine after a call, and the event bit that the call may have set. -/
def install (n : UartNode F) (e after : TransferEngine F) : UartNode F :=
  let raised := Output.transferComplete ∈ e.recentOutputs after
  { n with
    engine := after
    completeBit := n.completeBit || decide raised
    reports := if raised then .event n.started :: n.reports else n.reports }

/-- A call of the engine from the mesh task or the application. -/
def callEngine (n : UartNode F) (call : Call) : UartNode F :=
  let e := n.bindReader
  let after := e.step call
  let source := if !e.transfer.active && after.transfer.active then none else n.source
  { (n.record e after (e.occasion call)).install e after with source := source }

/-- `file_end` with its call of `start_file_transfer`. -/
def fileEnd (n : UartNode F) (env : UartIngest.EndEnv) : UartNode F :=
  let e := n.bindReader
  let ended := n.ingest.fileEnd n.config e env
  let after := ended.2.2.1
  let recorded := (n.record e after ⟨[], none, fun _ => false, false⟩).install e after
  { recorded with
    ingest := ended.2.1
    completeBit := recorded.completeBit && !n.ingest.endsIngest
    source := if ended.2.2.2.isSome then ended.2.2.2 else n.source
    tracked := if ended.2.2.2.isSome then recorded.started else n.tracked }

/-- `poll_transfer_progress` -/
def poll (n : UartNode F) (nowMs : Nat) : UartNode F :=
  let polled := n.ingest.pollTransferProgress n.config n.engine nowMs
  { n with
    ingest := polled.2
    reports := (polled.1.map (Report.frame n.tracked)).toList ++ n.reports }

inductive Action where
  | call (call : Call)
  | fileBegin (fileSize : Nat) (filename : List UInt8) (env : UartIngest.BeginEnv)
  | fileData (data : List UInt8) (wrote : Nat)
  | fileEnd (env : UartIngest.EndEnv)
  | abortTransfer
  | poll (nowMs : Nat)

/-- The mesh task, the application and the UART task take turns, one call at a time. -/
def act (n : UartNode F) : Action → UartNode F
  | .call call => n.callEngine call
  | .fileBegin fileSize filename env =>
      { n with ingest := (n.ingest.fileBegin n.config fileSize filename env).2 }
  | .fileData data wrote => { n with ingest := (n.ingest.fileData data wrote).2 }
  | .fileEnd env => n.fileEnd env
  | .abortTransfer => { n with ingest := (n.ingest.abortTransfer n.config).2 }
  | .poll nowMs => n.poll nowMs

def run (n : UartNode F) (actions : List Action) : UartNode F := actions.foldl act n

end UartNode

end ForestLink.Uart
