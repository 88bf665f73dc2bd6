/-
Module: ForestLink.Cloud.Ingress
Purpose: The way of a file message into the cloud: `Client.onMessage` of
  `cloud-admin/internal/mqtt/client.go`, the two channels of `cmd/flp-admin/main.go`, and
  the loop of `RunEngine` that receives from them.
Trusted boundary: the two library functions in `Runtime`
Main exports: Runtime, asciiRuntime, normalizeNodeId, Client, Client.decodeFileData,
  Client.onMessage, Ingress, Ingress.step
-/
import ForestLink.Cloud.Engine
import ForestLink.Cloud.MetaJson

namespace ForestLink.Cloud

/-!
A topic is given as `strings.Split(topic, "/")` returns it.  The other kinds of topic go to
channels of their own and are left out, as is the lock of the map: one message is handled at
a time.
-/

/-! ## Node ids -/

/-- `unicode.IsSpace` -/
def isSpace (c : Char) : Bool :=
  let n := c.toNat
  (9 ≤ n && n ≤ 13) || n == 0x20 || n == 0x85 || n == 0xA0 || n == 0x1680 ||
    (0x2000 ≤ n && n ≤ 0x200A) || n == 0x2028 || n == 0x2029 || n == 0x202F || n == 0x205F ||
    n == 0x3000

/-- `strings.TrimSpace` -/
def trimSpace (text : List Char) : List Char :=
  ((text.dropWhile isSpace).reverse.dropWhile isSpace).reverse

/-- `strings.TrimPrefix(text, "0x")` -/
def trimHexPrefix : List Char → List Char
  | '0' :: 'x' :: rest => rest
  | text => text

/-- The value of a digit in base 16. -/
def hexDigit? (c : Char) : Option Nat :=
  if '0' ≤ c ∧ c ≤ '9' then some (c.toNat - '0'.toNat)
  else if 'a' ≤ c ∧ c ≤ 'f' then some (c.toNat - 'a'.toNat + 10)
  else if 'A' ≤ c ∧ c ≤ 'F' then some (c.toNat - 'A'.toNat + 10)
  else none

/-- `strconv.ParseUint(text, 16, 16)` for a text that is not empty. -/
def parseUint16 (text : List Char) : Option Nat := do
  let value ← text.foldlM (fun acc c => (hexDigit? c).map (16 * acc + ·)) 0
  if value < 2 ^ 16 then pure value else none

/-- `fmt.Sprintf("%04x", value)` -/
def formatHex4 (value : Nat) : String :=
  String.ofList ([value / 4096, value / 256, value / 16, value].map fun digit =>
    Nat.digitChar (digit % 16))

/-- `normalizeNodeID` -/
def normalizeNodeId (toLower : Char → Char) (node : String) : String :=
  let text := trimHexPrefix (trimSpace (node.toList.map toLower))
  match text with
  | [] => ""
  | _ =>
      match parseUint16 text with
      | none => String.ofList text
      | some value => formatHex4 value

/-! ## The client -/

/-- The fields of `FileMeta` with a JSON name. -/
structure MetaPayload where
  sessionId : String
  sourceNode : String
  filename : String
  totalSize : Nat
  chunkCount : Nat
  crc32 : Nat
  fragmentSize : Int
deriving DecidableEq

/-- What the Go library does here: `unicode.ToLower`, and `json.Unmarshal` of a file meta. -/
structure Runtime where
  toLower : Char → Char
  unmarshal : List UInt8 → Option MetaPayload

/-- What `json.Unmarshal` makes of a text in ASCII. -/
def MetaFields.toPayload (fields : MetaFields) : MetaPayload :=
  let text := fun bytes : List UInt8 => String.ofList (bytes.map fun byte => Char.ofNat byte.toNat)
  { sessionId := text fields.sessionId
    sourceNode := text fields.sourceNode
    filename := text fields.filename
    totalSize := fields.totalSize.toNat
    chunkCount := fields.chunkCount.toNat
    crc32 := fields.crc32
    fragmentSize := fields.fragmentSize }

def asciiRuntime : Runtime where
  toLower := Char.toLower
  unmarshal := fun payload => (unmarshalMeta payload).map MetaFields.toPayload

/-- `makeExitSessionKey` -/
def makeExitSessionKey (exitNode : String) (sessionId : Nat) : String :=
  exitNode ++ "|" ++ toString sessionId

/-- The sign of a number and its digits. -/
def splitSign : List Char → Bool × List Char
  | '-' :: rest => (true, rest)
  | '+' :: rest => (false, rest)
  | digits => (false, digits)

/-- `strconv.ParseInt(text, 10, 64)`, which is what `json.Number.Int64` calls. -/
def parseInt64 (text : String) : Option Int :=
  let (negative, digits) := splitSign text.toList
  if digits = [] ∨ ¬ digits.all Char.isDigit then none
  else
    let magnitude : Int := Nat.ofDigitChars 10 digits 0
    let value := if negative then -magnitude else magnitude
    if -2 ^ 63 ≤ value ∧ value < 2 ^ 63 then some value else none

/-- The map of `Client` and the two channels that it fills. -/
structure Client where
  sessionSourceByExit : String → Option String := fun _ => none
  metaCh : List FileMeta := []
  chunkCh : List FileChunk := []

/-- The capacities that `main` gives the channels. -/
def metaChCapacity : Nat := 16

def chunkChCapacity : Nat := 256

/-- The source that a meta message names, or else its exit. -/
def sourceOf (rt : Runtime) (nodeId : String) (payload : MetaPayload) : String :=
  let sourceNode := normalizeNodeId rt.toLower payload.sourceNode
  if sourceNode = "" then nodeId else sourceNode

/-- `fm.NodeID = sourceNode` -/
def MetaPayload.withNode (payload : MetaPayload) (nodeId : String) : FileMeta where
  nodeId := nodeId
  sessionId := payload.sessionId
  filename := payload.filename
  totalSize := payload.totalSize
  chunkCount := payload.chunkCount
  crc32 := payload.crc32
  fragmentSize := payload.fragmentSize

namespace Client

/-- `case "meta"` -/
def onFileMeta (rt : Runtime) (c : Client) (nodeId : String)
    (payload : List UInt8) : Client :=
  match rt.unmarshal payload with
  | none => c
  | some fm =>
      let sourceNode := sourceOf rt nodeId fm
      let sources :=
        match parseInt64 fm.sessionId with
        | none => c.sessionSourceByExit
        | some sid64 =>
            Function.update c.sessionSourceByExit
              (makeExitSessionKey nodeId (sid64 % 2 ^ 16).toNat) (some sourceNode)
      { c with
        sessionSourceByExit := sources
        metaCh := if c.metaCh.length < metaChCapacity
          then c.metaCh ++ [fm.withNode sourceNode] else c.metaCh }

/-- The node a chunk is filed under: the source that a meta message of the same exit and
session has named, or else the exit. -/
def canonicalNode (c : Client) (nodeId : String) (sessionId : Nat) : String :=
  match c.sessionSourceByExit (makeExitSessionKey nodeId sessionId) with
  | none => nodeId
  | some src => if src ≠ "" then src else nodeId

/-- `case "data"` -/
def onFileData (c : Client) (nodeId : String) (payload : List UInt8) : Client :=
  match payload with
  | sidLow :: sidHigh :: seqLow :: seqHigh :: data =>
      let sessionId := sidLow.toNat + 256 * sidHigh.toNat
      let chunk : FileChunk :=
        { nodeId := c.canonicalNode nodeId sessionId
          sessionId := sessionId
          seqNum := seqLow.toNat + 256 * seqHigh.toNat
          data := data }
      { c with
        chunkCh := if c.chunkCh.length < chunkChCapacity
          then c.chunkCh ++ [chunk] else c.chunkCh }
  | _ => c

/-- The chunk that `onFileData` makes of the bytes. -/
def decodeFileData (c : Client) (nodeId : String) : List UInt8 → Option FileChunk
  | sidLow :: sidHigh :: seqLow :: seqHigh :: data =>
      let sessionId := sidLow.toNat + 256 * sidHigh.toNat
      some
        { nodeId := c.canonicalNode nodeId sessionId
          sessionId := sessionId
          seqNum := seqLow.toNat + 256 * seqHigh.toNat
          data := data }
  | _ => none

theorem onFileData_eq (c : Client) (nodeId : String) (payload : List UInt8) :
    c.onFileData nodeId payload =
      match c.decodeFileData nodeId payload with
      | none => c
      | some chunk =>
          { c with
            chunkCh := if c.chunkCh.length < chunkChCapacity
              then c.chunkCh ++ [chunk] else c.chunkCh } := by
  match payload with
  | [] | [_] | [_, _] | [_, _, _] | _ :: _ :: _ :: _ :: _ => rfl

theorem decodeFileData_eq_some {c : Client} {nodeId : String} {payload : List UInt8}
    {chunk : FileChunk} (decoded : c.decodeFileData nodeId payload = some chunk) :
    ∃ sidLow sidHigh seqLow seqHigh,
      payload = sidLow :: sidHigh :: seqLow :: seqHigh :: chunk.data ∧
      chunk.sessionId = sidLow.toNat + 256 * sidHigh.toNat ∧
      chunk.seqNum = seqLow.toNat + 256 * seqHigh.toNat ∧
      chunk.nodeId = c.canonicalNode nodeId chunk.sessionId := by
  match payload with
  | sidLow :: sidHigh :: seqLow :: seqHigh :: data =>
      cases decoded
      exact ⟨sidLow, sidHigh, seqLow, seqHigh, rfl, rfl, rfl, rfl⟩
  | [] | [_] | [_, _] | [_, _, _] => cases decoded

/-- `Client.onMessage` for the topics of kind `file`. -/
def onMessage (rt : Runtime) (c : Client) (parts : List String)
    (payload : List UInt8) : Client :=
  match parts with
  | _ :: nodeId :: "file" :: "meta" :: _ => c.onFileMeta rt nodeId payload
  | _ :: nodeId :: "file" :: "data" :: _ => c.onFileData nodeId payload
  | _ => c

end Client

/-! ## Client and engine -/

/-- The client and `RunEngine` with the channels between them. -/
structure Ingress where
  client : Client
  engine : Engine

/-- One message of the broker, or one turn of the loop of `RunEngine`. -/
inductive Arrival where
  | message (parts : List String) (payload : List UInt8)
  | receiveMeta (now : Int)
  | receiveChunk (now : Int)

namespace Ingress

/-- A receive from an empty channel does not happen. -/
def step (rt : Runtime) (s : Ingress) : Arrival → Option Ingress
  | .message parts payload => some { s with client := s.client.onMessage rt parts payload }
  | .receiveMeta now =>
      match s.client.metaCh with
      | [] => some s
      | m :: rest =>
          (s.engine.onMeta m now).map fun engine =>
            { client := { s.client with metaCh := rest }, engine := engine }
  | .receiveChunk now =>
      match s.client.chunkCh with
      | [] => some s
      | c :: rest =>
          (s.engine.onChunk c now).map fun engine =>
            { client := { s.client with chunkCh := rest }, engine := engine }

def run (rt : Runtime) (s : Ingress) : List Arrival → Option Ingress
  | [] => some s
  | arrival :: rest => do
      let s ← s.step rt arrival
      s.run rt rest

theorem run_cons (rt : Runtime) (s : Ingress) (arrival : Arrival) (rest : List Arrival) :
    s.run rt (arrival :: rest) = (s.step rt arrival).bind fun s => s.run rt rest := rfl

end Ingress

end ForestLink.Cloud
