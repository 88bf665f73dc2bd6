/-
Module: ForestLink.Uart.Frames
Purpose: The frames of the serial port: the byte parser of the run loop, the encoder of the
  answers, and the dispatch of a frame to the ingest (`uart_ingest.cpp`).
Trusted boundary: none
Main exports: FrameParser, FrameParser.receive, FrameParser.feed, sendFrame, handleFrame
-/
import ForestLink.Lib.Mealy
import ForestLink.Uart.Ingest

namespace ForestLink.Uart

open ForestLink.Lib
open ForestLink.Mesh
open ForestLink.Protocol

/-! ## The encoder -/

/-- `UART_SYNC1` -/
def uartSync1 : UInt8 := 0xAA

/-- `UART_SYNC2` -/
def uartSync2 : UInt8 := 0x55

/-- `send_frame`; the length is 16 bits wide. -/
def sendFrame (frame : UartFrame) : List UInt8 :=
  [uartSync1, uartSync2, frame.cmd] ++ writeLe frame.payload.length 2 ++ frame.payload

/-! ## The parser -/

/-- `UartIngest::ParseState` -/
inductive ParseState where
  | sync1
  | sync2
  | cmd
  | lenLo
  | lenHi
  | payload
deriving Repr, DecidableEq

/-- `sizeof(payload_buf_)` -/
def payloadBufSize : Nat := 1024 + 4

/-- The frame parser state of `UartIngest`. -/
structure FrameParser where
  state : ParseState := .sync1
  frameCmd : UInt8 := 0
  frameLen : Nat := 0
  payloadIdx : Nat := 0
  payloadBuf : Vector UInt8 payloadBufSize := Vector.replicate payloadBufSize 0
deriving DecidableEq

namespace FrameParser

/-- `reset_parser` -/
def resetParser (p : FrameParser) : FrameParser :=
  { p with state := .sync1, frameCmd := 0, frameLen := 0, payloadIdx := 0 }

/-- What `handle_frame` reads: the command and the first `frame_len_` bytes of the buffer. -/
def frame (p : FrameParser) : UartFrame where
  cmd := p.frameCmd
  payload := p.payloadBuf.toList.take p.frameLen

/-- One byte in the run loop; the frame is the one that `handle_frame` is called with. -/
def receive (p : FrameParser) (byte : UInt8) : FrameParser × Option UartFrame :=
  match p.state with
  | .sync1 => (if byte = uartSync1 then { p with state := .sync2 } else p, none)
  | .sync2 => ({ p with state := if byte = uartSync2 then .cmd else .sync1 }, none)
  | .cmd => ({ p with frameCmd := byte, state := .lenLo }, none)
  | .lenLo => ({ p with frameLen := byte.toNat, state := .lenHi }, none)
  | .lenHi =>
      let announced := { p with frameLen := p.frameLen ||| byte.toNat <<< 8 }
      if announced.frameLen = 0 then (announced.resetParser, some announced.frame)
      else if payloadBufSize < announced.frameLen then (announced.resetParser, none)
      else ({ announced with payloadIdx := 0, state := .payload }, none)
  | .payload =>
      let stored :=
        { p with
          payloadBuf := p.payloadBuf.setIfInBounds p.payloadIdx byte
          payloadIdx := p.payloadIdx + 1 }
      if stored.frameLen ≤ stored.payloadIdx then (stored.resetParser, some stored.frame)
      else (stored, none)

/-- The bytes of the port one after the other. -/
def feed (p : FrameParser) (bytes : List UInt8) : FrameParser × List UartFrame :=
  Mealy.feed receive p bytes

end FrameParser

/-! ## The dispatch -/

/-- `UART_CMD_FILE_BEGIN` -/
def cmdFileBegin : UInt8 := 0x01

/-- `UART_CMD_FILE_DATA` -/
def cmdFileData : UInt8 := 0x02

/-- `UART_CMD_FILE_END` -/
def cmdFileEnd : UInt8 := 0x03

/-- `UART_CMD_STATUS` -/
def cmdStatus : UInt8 := 0x04

/-- `UART_CMD_ABORT` -/
def cmdAbort : UInt8 := 0x05

/-- `UART_RESP_ACK` -/
def respAck : UInt8 := 0x80

/-- `UART_RESP_NACK` -/
def respNack : UInt8 := 0x81

/-- `UART_RESP_STATUS_RESP` -/
def respStatus : UInt8 := 0x82

/-- `UART_ERR_ALLOC_FAIL` -/
def errAllocFail : UInt8 := 0x01

/-- `static_cast<uint8_t>(res)` -/
def UartResult.code : UartResult → UInt8
  | .ok => 0
  | .errAlloc => 1
  | .errOverflow => 2
  | .errNoTransfer => 3
  | .errBusy => 4

/-- `send_ack` -/
def sendAck (originalCmd : UInt8) : UartFrame where
  cmd := respAck
  payload := [originalCmd]

/-- `send_nack` -/
def sendNack (originalCmd error : UInt8) : UartFrame where
  cmd := respNack
  payload := [originalCmd, error]

/-- The answer to a command with a result. -/
def answer (originalCmd : UInt8) : UartResult → UartFrame
  | .ok => sendAck originalCmd
  | res => sendNack originalCmd res.code

/-- What `query_status` collects from the mesh. -/
structure StatusResp where
  hasInternet : Bool := false
  neighborCount : UInt8 := 0
  hopsToGateway : UInt8 := 0
  transferActive : Bool := false
  transferProgress : UInt8 := 0
  isExitNode : Bool := false
  nodeAddr : Nat := 0
  freeHeap : Nat := 0
  mqttConnected : Bool := false

/-- The thirteen bytes of the status. -/
def StatusResp.toBytes (s : StatusResp) : List UInt8 :=
  [s.hasInternet.toUInt8, s.neighborCount, s.hopsToGateway, s.transferActive.toUInt8,
    s.transferProgress, s.isExitNode.toUInt8] ++
  writeLe s.nodeAddr 2 ++ writeLe s.freeHeap 4 ++ [s.mqttConnected.toUInt8]

/-- The surroundings of one frame. -/
structure HandleEnv where
  begin : UartIngest.BeginEnv := {}
  wrote : Nat := 0
  endEnv : UartIngest.EndEnv := {}
  status : StatusResp := {}

variable {F : Type} [PathArith F]

/-- The file name of a FILE_BEGIN, as the C string that is copied out of the payload. -/
def beginFilename (payload : List UInt8) : List UInt8 :=
  ((payload.drop 4).takeWhile (· ≠ 0)).take 63

/-- `handle_frame`: the answer, the ingest, the engine and the source of a started transfer. -/
def handleFrame (config : UartConfig) (i : UartIngest) (e : TransferEngine F)
    (frame : UartFrame) (env : HandleEnv) :
    UartFrame × UartIngest × TransferEngine F × Option UartIngest.Source :=
  if frame.cmd = cmdFileBegin then
    if frame.payload.length < 5 then (sendNack cmdFileBegin errAllocFail, i, e, none)
    else
      let began := i.fileBegin config (readLe frame.payload 0 4) (beginFilename frame.payload)
        env.begin
      (answer cmdFileBegin began.1, began.2, e, none)
  else if frame.cmd = cmdFileData then
    let stored := i.fileData frame.payload env.wrote
    (answer cmdFileData stored.1, stored.2, e, none)
  else if frame.cmd = cmdFileEnd then
    let ended := i.fileEnd config e env.endEnv
    (answer cmdFileEnd ended.1, ended.2.1, ended.2.2.1, ended.2.2.2)
  else if frame.cmd = cmdStatus then
    ({ cmd := respStatus, payload := env.status.toBytes }, i, e, none)
  else if frame.cmd = cmdAbort then
    let aborted := i.abortTransfer config
    (answer cmdAbort aborted.1, aborted.2, e, none)
  else (sendNack frame.cmd 0xFF, i, e, none)

end ForestLink.Uart
