/-
Module: ForestLink.Uart.IngestRuns
Purpose: Ingest calls in any order, with a record of the bytes that were accepted, of the
  sources handed to the engine and of what was released.
Trusted boundary: none
Main exports: Resource, slice, IngestCall, IngestHistory, SourceHistory
-/
import ForestLink.Uart.Node

namespace ForestLink.Uart

open ForestLink.Mesh
open ForestLink.Protocol

/-- The memory behind an ingest: a block of PSRAM or a spool file. -/
inductive Resource where
  | block (number : Nat)
  | spool (path : Nat)
deriving Repr, DecidableEq

def Storage.content (storage : Storage) : Resource → Option (List UInt8)
  | .block number => storage.blocks number
  | .spool path => storage.files path

def Storage.release (storage : Storage) : Resource → Storage
  | .block number => { storage with blocks := Function.update storage.blocks number none }
  | .spool path => { storage with files := Function.update storage.files path none }

/-- A reader of these bytes. -/
def slice (bytes : List UInt8) (offset len : Nat) : List UInt8 := (bytes.drop offset).take len

namespace UartIngest

/-- What the cleanup code of `file_begin`, `abort_transfer` and `poll_transfer_progress`
releases: the block it has a pointer to and the spool file it has a path of. -/
def held (config : UartConfig) (i : UartIngest) : List Resource :=
  (i.ingestBuf.map .block).toList ++
    if config.sdEnabled && i.ingestToSd then (i.ingestPath.map .spool).toList else []

/-- The source of a transfer from this ingest. -/
def resource (i : UartIngest) : Option Resource :=
  if i.ingestToSd then i.ingestPath.map .spool else i.ingestBuf.map .block

end UartIngest

variable {F : Type} [PathArith F]

/-! ## Calls with any engine -/

/-- The calls that fill an ingest; each `file_end` finds the engine it is given. -/
inductive IngestCall (F : Type) where
  | fileBegin (fileSize : Nat) (filename : List UInt8) (env : UartIngest.BeginEnv)
  | fileData (data : List UInt8) (wrote : Nat)
  | fileEnd (engine : TransferEngine F) (env : UartIngest.EndEnv)

/-- An ingest with the payloads that `file_data` has accepted since the last accepted
`file_begin`. -/
structure IngestHistory where
  ingest : UartIngest := {}
  accepted : List UInt8 := []

namespace IngestHistory

def step (config : UartConfig) (h : IngestHistory) : IngestCall F → IngestHistory
  | .fileBegin fileSize filename env =>
      let begun := h.ingest.fileBegin config fileSize filename env
      { ingest := begun.2, accepted := if begun.1 = .ok then [] else h.accepted }
  | .fileData data wrote =>
      let written := h.ingest.fileData data wrote
      { ingest := written.2
        accepted := if written.1 = .ok then h.accepted ++ data else h.accepted }
  | .fileEnd engine env => { h with ingest := (h.ingest.fileEnd config engine env).2.1 }

def run (config : UartConfig) (h : IngestHistory) (calls : List (IngestCall F)) :
    IngestHistory :=
  calls.foldl (step config) h

end IngestHistory

/-! ## The life of a source -/

/-- A transfer handed to the engine: the number of its ingest, its source and the bytes of the
ingest at that time. -/
structure Handover where
  ingest : Nat
  resource : Resource
  bytes : List UInt8
deriving Repr, DecidableEq

/-- A node with a record: the ingests begun, the bytes accepted by the current one, the
transfers handed over and the releases, each with the number of the ingest of its time. -/
structure SourceHistory (F : Type) where
  node : UartNode F
  begun : Nat := 0
  accepted : List UInt8 := []
  handed : List Handover := []
  released : List (Nat × Resource) := []

namespace SourceHistory

/-- What an action releases. -/
def releases (n : UartNode F) : UartNode.Action → List Resource
  | .fileBegin .. =>
      if !n.ingest.transferStarted && n.ingest.ingestActive then n.ingest.held n.config else []
  | .abortTransfer =>
      if n.ingest.ingestActive && !n.ingest.transferStarted then n.ingest.held n.config else []
  | .poll _ =>
      if n.ingest.transferStarted && !n.engine.transfer.active then n.ingest.held n.config
      else []
  | _ => []

/-- The action is a `file_begin` that is accepted. -/
def begins (n : UartNode F) : UartNode.Action → Bool
  | .fileBegin fileSize filename env =>
      (n.ingest.fileBegin n.config fileSize filename env).1 == .ok
  | _ => false

/-- The bytes of the current ingest after an action. -/
def accepts (n : UartNode F) (accepted : List UInt8) : UartNode.Action → List UInt8
  | .fileBegin fileSize filename env =>
      if (n.ingest.fileBegin n.config fileSize filename env).1 = .ok then [] else accepted
  | .fileData data wrote =>
      if (n.ingest.fileData data wrote).1 = .ok then accepted ++ data else accepted
  | _ => accepted

/-- The resource of the transfer that an action starts. -/
def hands (n : UartNode F) : UartNode.Action → Option Resource
  | .fileEnd env =>
      if (n.ingest.fileEnd n.config n.bindReader env).1 = .ok then n.ingest.resource else none
  | _ => none

def step (h : SourceHistory F) (a : UartNode.Action) : SourceHistory F where
  node := h.node.act a
  begun := if begins h.node a then h.begun + 1 else h.begun
  accepted := accepts h.node h.accepted a
  handed := ((hands h.node a).map fun resource =>
    { ingest := h.begun, resource := resource, bytes := h.accepted }).toList ++ h.handed
  released := (releases h.node a).map (fun resource => (h.begun, resource)) ++ h.released

def run (h : SourceHistory F) (actions : List UartNode.Action) : SourceHistory F :=
  actions.foldl step h

end SourceHistory

end ForestLink.Uart
