/-
Module: ForestLink.Uart.Ingest
Purpose: The file ingest of the serial port: a host stores a file in PSRAM or on the SD card,
  hands it to the mesh and is told how the transfer goes (`uart_ingest.cpp`).
Trusted boundary: none
Main exports: Storage, UartIngest, fileBegin, fileData, fileEnd, abortTransfer,
  pollTransferProgress
-/
import ForestLink.Mesh.Engine

namespace ForestLink.Uart

open ForestLink.Mesh
open ForestLink.Protocol

/-!
The allocator, the SD card and the clock answer through the arguments of a call.  The queue of
events from other tasks is left out.
-/

/-- `UartResult` -/
inductive UartResult where
  | ok
  | errAlloc
  | errOverflow
  | errNoTransfer
  | errBusy
deriving Repr, DecidableEq

/-- A frame to the host, before `send_frame` puts the sync bytes and the length in front. -/
structure UartFrame where
  cmd : UInt8
  payload : List UInt8
deriving Repr, DecidableEq

/-- `UART_EVT_TRANSFER_PROGRESS` -/
def evtTransferProgress : UInt8 := 0xC0

/-- `UART_EVT_TRANSFER_COMPLETE` -/
def evtTransferComplete : UInt8 := 0xC1

/-- `PROGRESS_REPORT_STEP` -/
def progressReportStep : Nat := 5

/-- The build: `CONFIG_FLP_SD_ENABLED` and `FLP_INGEST_MAX_SIZE_BYTES`. -/
structure UartConfig where
  sdEnabled : Bool := true
  ingestMaxSize : Nat := 3 * 1024 * 1024

/-- What PSRAM and the SD card hold.  A block is named by the number of its allocation and
holds the bytes written to it from its start; a spool file is named by the number in its
path. -/
structure Storage where
  blocks : Nat → Option (List UInt8) := fun _ => none
  nextBlock : Nat := 0
  files : Nat → Option (List UInt8) := fun _ => none

/-- `UartIngest`; no `ingestPath` is the empty string. -/
structure UartIngest where
  ingestBuf : Option Nat := none
  ingestFile : Option Nat := none
  ingestSize : Nat := 0
  receivedSize : Nat := 0
  filename : List UInt8 := []
  ingestPath : Option Nat := none
  ingestActive : Bool := false
  ingestToSd : Bool := false
  transferStarted : Bool := false
  transferStartMs : Nat := 0
  lastProgressPct : Nat := 0
  storage : Storage := {}

namespace UartIngest

/-- `heap_caps_free(ingest_buf_)` -/
def freeBuf (i : UartIngest) : UartIngest :=
  match i.ingestBuf with
  | none => i
  | some block =>
      { i with
        ingestBuf := none
        storage := { i.storage with blocks := Function.update i.storage.blocks block none } }

/-- `fclose(ingest_file_)` -/
def closeFile (i : UartIngest) : UartIngest := { i with ingestFile := none }

/-- Remove the spool file, if the ingest went to the SD card. -/
def removeSpool (config : UartConfig) (i : UartIngest) : UartIngest :=
  match i.ingestPath with
  | none => i
  | some path =>
      if config.sdEnabled && i.ingestToSd then
        { i with
          ingestPath := none
          storage := { i.storage with files := Function.update i.storage.files path none } }
      else i

/-! ## `file_begin` -/

/-- How the allocator, `sdcard_init` and `fopen` answer, and the timer. -/
structure BeginEnv where
  psram : Bool := true
  sdInit : Bool := true
  opened : Bool := true
  timerUs : Nat := 0

/-- Drop an ingest whose transfer has not started. -/
def dropIngest (config : UartConfig) (i : UartIngest) : UartIngest :=
  { (i.freeBuf.closeFile).removeSpool config with
    ingestToSd := false
    ingestPath := none
    ingestActive := false }

/-- A block of PSRAM for the file. -/
def beginPsram (i : UartIngest) (fileSize : Nat) : UartIngest :=
  { i with
    ingestBuf := some i.storage.nextBlock
    storage :=
      { i.storage with
        blocks := Function.update i.storage.blocks i.storage.nextBlock (some [])
        nextBlock := i.storage.nextBlock + 1 }
    ingestSize := fileSize
    receivedSize := 0
    ingestActive := true }

/-- A spool file on the SD card; its name carries the low 32 bits of the timer. -/
def beginSpool (i : UartIngest) (fileSize timerUs : Nat) (opened : Bool) :
    UartResult × UartIngest :=
  let path := timerUs % 2 ^ 32
  let named := { i with ingestPath := some path }
  if opened then
    (.ok,
      { named with
        ingestFile := some path
        storage := { i.storage with files := Function.update i.storage.files path (some []) }
        ingestSize := fileSize
        receivedSize := 0
        ingestActive := true
        ingestToSd := true })
  else (.errAlloc, { named with ingestFile := none })

/-- `file_begin` -/
def fileBegin (config : UartConfig) (i : UartIngest) (fileSize : Nat) (filename : List UInt8)
    (env : BeginEnv) : UartResult × UartIngest :=
  if i.transferStarted then (.errBusy, i)
  else
    let fresh := if i.ingestActive then i.dropIngest config else i
    if fileSize = 0 ∨ config.ingestMaxSize < fileSize then (.errAlloc, fresh)
    else
      let named :=
        { fresh with
          filename := filename.take 63
          ingestToSd := false
          ingestPath := none
          ingestBuf := none }
      if env.psram then (.ok, named.beginPsram fileSize)
      else if !config.sdEnabled then (.errAlloc, named)
      else if !env.sdInit then (.errAlloc, named)
      else named.beginSpool fileSize env.timerUs env.opened

/-! ## `file_data` -/

/-- Append to a stored byte string. -/
def append (store : Nat → Option (List UInt8)) (name : Nat) (data : List UInt8) :
    Nat → Option (List UInt8) :=
  Function.update store name ((store name).map (· ++ data))

/-- `file_data`; `wrote` is what `fwrite` returns. -/
def fileData (i : UartIngest) (data : List UInt8) (wrote : Nat) : UartResult × UartIngest :=
  if !i.ingestActive then (.errNoTransfer, i)
  else if i.transferStarted then (.errBusy, i)
  else if i.ingestSize < i.receivedSize + data.length then (.errOverflow, i)
  else if i.ingestToSd then
    match i.ingestFile with
    | none => (.errNoTransfer, i)
    | some path =>
        let files := append i.storage.files path (data.take wrote)
        let written := { i with storage := { i.storage with files := files } }
        if wrote ≠ data.length then (.errAlloc, written)
        else (.ok, { written with receivedSize := i.receivedSize + data.length })
  else
    match i.ingestBuf with
    | none => (.errNoTransfer, i)
    | some block =>
        let blocks := append i.storage.blocks block data
        (.ok,
          { i with
            storage := { i.storage with blocks := blocks }
            receivedSize := i.receivedSize + data.length })

/-! ## `file_end` -/

/-- What the closure that `file_end` hands to the engine reads: the block it captured, or the
spool file that `ingest_path_` names at the time of the read. -/
inductive Source where
  | buffer (block size : Nat)
  | spool
deriving Repr, DecidableEq

/-- `make_buffer_reader` and `sdcard_read_chunk` -/
def read (i : UartIngest) : Source → Nat → Nat → List UInt8
  | .buffer block size => fun offset len =>
      ((((i.storage.blocks block).getD []).take size).drop offset).take len
  | .spool => fun offset len =>
      match i.ingestPath with
      | none => []
      | some path => (((i.storage.files path).getD []).drop offset).take len

/-- The source of the transfer, with the spool file closed for writing. -/
def takeSource (config : UartConfig) (i : UartIngest) : Option (Source × UartIngest) :=
  if i.ingestToSd then
    if config.sdEnabled && i.ingestFile.isSome then some (.spool, i.closeFile) else none
  else i.ingestBuf.map fun block => (.buffer block i.receivedSize, i)

/-- What `MeshManager::start_file_transfer` adds to the arguments, and the surroundings of the
call: `nowMs` is the clock behind it. -/
structure EndEnv where
  env : Env := {}
  hasInternet : Bool := false
  mqttReady : Bool := false
  hopsToInternet : Nat := 1
  nowMs : Nat := 0

variable {F : Type} [PathArith F]

/-- The transfer that `file_end` asks the engine for. -/
def startArgs (i : UartIngest) (source : Source) (env : EndEnv) : TransferEngine.StartArgs where
  filename := i.filename
  size := i.receivedSize
  readChunk := i.read source
  hasInternet := env.hasInternet
  hasMqtt := env.mqttReady
  hopsToInternet := env.hopsToInternet

/-- `file_end` reaches the event group. -/
def endsIngest (i : UartIngest) : Bool := i.ingestActive && !i.transferStarted

/-- `file_end`: the result, the ingest, the engine and the source of a started transfer. -/
def fileEnd (config : UartConfig) (i : UartIngest) (e : TransferEngine F) (env : EndEnv) :
    UartResult × UartIngest × TransferEngine F × Option Source :=
  if !i.ingestActive then (.errNoTransfer, i, e, none)
  else if i.transferStarted then (.errBusy, i, e, none)
  else
    match i.takeSource config with
    | none => (.errNoTransfer, i, e, none)
    | some (source, closed) =>
        let started := (e.setEnv env.env).startFileTransfer (closed.startArgs source env)
        if started.1 then
          (.ok,
            { closed with
              transferStarted := true
              transferStartMs := env.nowMs
              lastProgressPct := 0 },
            started.2, some source)
        else (.errNoTransfer, closed, started.2, none)

/-! ## `abort_transfer` and `poll_transfer_progress` -/

/-- `abort_transfer` -/
def abortTransfer (config : UartConfig) (i : UartIngest) : UartResult × UartIngest :=
  if !i.ingestActive then (.errNoTransfer, i)
  else
    let freed := if i.transferStarted then i else i.freeBuf
    let closed := freed.closeFile
    let removed := if i.transferStarted then closed else closed.removeSpool config
    (.ok,
      { removed with
        ingestActive := false
        transferStarted := false
        receivedSize := 0
        ingestSize := 0 })

end UartIngest

end ForestLink.Uart

namespace ForestLink.Mesh.TransferEngine

open ForestLink.Protocol

variable {F : Type}

/-- `total_acked_fragments` -/
def totalAckedFragments (e : TransferEngine F) : Nat :=
  if e.localExit then e.cloudBaseSeq
  else ((List.range e.transfer.exitNodeCount).map fun i => (e.pathStats i).acked).sum % 2 ^ 32

/-- `get_progress_pct` -/
def getProgressPct (e : TransferEngine F) : Nat :=
  if !e.transfer.active || e.transfer.fragmentCount == 0 then 0
  else
    let progress := if e.localExit then e.cloudBaseSeq else e.totalAckedFragments
    min progress e.transfer.fragmentCount * 100 / e.transfer.fragmentCount

end ForestLink.Mesh.TransferEngine

namespace ForestLink.Uart.UartIngest

open ForestLink.Mesh
open ForestLink.Protocol

variable {F : Type}

/-- `UART_EVT_TRANSFER_COMPLETE` with `success = 1` and the duration. -/
def completeFrame (durationMs : Nat) : UartFrame where
  cmd := evtTransferComplete
  payload := 1 :: writeLe durationMs 4

/-- Release everything of the ingest once its transfer is over. -/
def finish (config : UartConfig) (i : UartIngest) : UartIngest :=
  { (i.freeBuf.closeFile).removeSpool config with
    ingestActive := false
    transferStarted := false
    receivedSize := 0
    ingestSize := 0
    ingestToSd := false }

/-- `poll_transfer_progress` at the clock `nowMs`, with the frame it sends. -/
def pollTransferProgress (config : UartConfig) (i : UartIngest) (e : TransferEngine F)
    (nowMs : Nat) : Option UartFrame × UartIngest :=
  if !i.transferStarted then (none, i)
  else if e.transfer.active then
    let pct := e.getProgressPct
    if i.lastProgressPct + progressReportStep ≤ pct then
      (some { cmd := evtTransferProgress, payload := [UInt8.ofNat pct] }, { i with lastProgressPct := pct })
    else (none, i)
  else (some (completeFrame (sub32 nowMs i.transferStartMs)), i.finish config)

end ForestLink.Uart.UartIngest
