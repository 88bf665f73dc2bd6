/-
Module: ForestLink.Proofs.PublishedChunks
Purpose: What the cloud reads out of the chunk messages of the two publishers of an exit.
Trusted boundary: none
Main exports: SentChunk, Publishes, SentChunk.Decodes, chunk_decodes_iff
-/
import ForestLink.Proofs.AckSessions
import ForestLink.Mqtt.FileMessages
import ForestLink.Cloud.Ingress

namespace ForestLink.Mqtt

open ForestLink.Lib
open ForestLink.Protocol

/-! ## The active session -/

namespace MqttClient

variable {m : MqttClient}

theorem activeTransferSession_drainLoop (sessionId depth : Nat) :
    (drainLoop sessionId depth m).2.activeTransferSession = m.activeTransferSession := by
  induction depth generalizing m with
  | zero => rfl
  | succ depth inductionHypothesis =>
      unfold drainLoop
      split
      · rfl
      · split
        · rfl
        · rw [inductionHypothesis]
          unfold putBack
          split <;> rfl

theorem activeTransferSession_processLoop (fuel : Nat) (msgIds : List Int) :
    (processLoop fuel msgIds m).2.activeTransferSession = m.activeTransferSession := by
  induction fuel generalizing m msgIds with
  | zero => rfl
  | succ fuel inductionHypothesis =>
      unfold processLoop
      split
      · rfl
      · rename_i req fromPending taken next
        have session : taken.activeTransferSession = m.activeTransferSession := by
          rw [(nextRequest_eq_some next).2.1]
        split
        · rw [inductionHypothesis, dropStale_eq next]
        · split
          · exact session
          · dsimp only
            rw [inductionHypothesis, (acknowledge_fields _ _).1, acceptFragment_eq next]

/-- Without an active session every request is dropped. -/
theorem processLoop_inactive (inactive : m.activeTransferSession = 0) (fuel : Nat)
    (msgIds : List Int) : (processLoop fuel msgIds m).1 = [] := by
  induction fuel generalizing m with
  | zero => rfl
  | succ fuel inductionHypothesis =>
      unfold processLoop
      split
      · rfl
      · rename_i req fromPending taken next
        have session : taken.activeTransferSession = 0 := by
          rw [(nextRequest_eq_some next).2.1, inactive]
        have stale : taken.droppable req = true := by
          simp [droppable, session]
        rw [if_pos stale]
        apply inductionHypothesis
        rw [dropStale_eq next]
        exact inactive

end MqttClient

/-- The session of the last `publish_transfer_meta` among the calls, which is what activates
a session. -/
def lastActivated (calls : List MqttCall) : Option Nat :=
  calls.foldl (fun last call =>
    match call with
    | .activateTransferSession sessionId => some sessionId
    | _ => last) none

namespace MqttCalls

theorem activeTransferSession_call (s : MqttCalls) (call : MqttCall) :
    (s.call call).client.activeTransferSession = 0 ∨
      (s.call call).client.activeTransferSession =
        match call with
        | .activateTransferSession sessionId => sessionId
        | _ => s.client.activeTransferSession := by
  cases call with
  | activateTransferSession sessionId =>
      right
      unfold MqttCalls.call MqttClient.activateTransferSession
      dsimp only
      split <;> rfl
  | clearTransferSession sessionId =>
      unfold MqttCalls.call MqttClient.clearTransferSession
      dsimp only
      split
      · exact .inl rfl
      · exact .inr rfl
  | publishFragment sessionId seq srcNode data filename =>
      exact .inr activeTransferSession_publishFragment
  | processFragmentPublish connected msgIds =>
      right
      unfold MqttCalls.call MqttClient.processFragmentPublish
      dsimp only
      split
      · exact MqttClient.activeTransferSession_processLoop _ _
      · rfl
  | drainFragmentAck sessionId =>
      exact .inr (MqttClient.activeTransferSession_drainLoop sessionId _)
  | requeueFragmentAck =>
      right
      unfold MqttCalls.call MqttClient.requeueFragmentAck
      dsimp only
      split
      · split
        · rfl
        · split <;> rfl
      · rfl
  | markFragmentForRepublish sessionId seq =>
      right
      unfold MqttCalls.call MqttClient.markFragmentForRepublish
      dsimp only
      split <;> rfl

/-- The active session, if there is one, is the last one activated. -/
theorem active_eq_lastActivated (nodeAddr : Nat) (calls : List MqttCall) :
    ((boot nodeAddr).run calls).client.activeTransferSession = 0 ∨
      lastActivated calls =
        some ((boot nodeAddr).run calls).client.activeTransferSession := by
  induction calls using List.reverseRecOn with
  | nil => exact .inl rfl
  | append_singleton calls call inductionHypothesis =>
      have step := activeTransferSession_call ((boot nodeAddr).run calls) call
      have ran : (boot nodeAddr).run (calls ++ [call]) = ((boot nodeAddr).run calls).call call :=
        List.foldl_concat ..
      rw [ran]
      rcases step with idle | step
      · exact .inl idle
      · rw [step]
        unfold lastActivated at inductionHypothesis ⊢
        rw [List.foldl_concat]
        cases call with
        | activateTransferSession sessionId => exact .inr rfl
        | _ => exact inductionHypothesis

/-- A fragment is published in the session of the last meta. -/
theorem session_of_published {nodeAddr : Nat} {calls : List MqttCall} {call : MqttCall}
    {req : FragmentPublishRequest}
    (accepted : req ∈ ((boot nodeAddr).run calls).accepts call) :
    lastActivated calls = some req.sessionId := by
  rw [session_of_accepts accepted]
  apply (active_eq_lastActivated nodeAddr calls).resolve_left
  intro inactive
  cases call with
  | processFragmentPublish connected msgIds =>
      unfold accepts MqttClient.processFragmentPublish at accepted
      dsimp only at accepted
      split at accepted
      · rw [MqttClient.processLoop_inactive inactive] at accepted
        exact absurd accepted List.not_mem_nil
      · exact absurd accepted List.not_mem_nil
  | _ => exact absurd accepted List.not_mem_nil

end MqttCalls

end ForestLink.Mqtt

namespace ForestLink.Cloud

open ForestLink.Lib
open ForestLink.Protocol
open ForestLink.Mqtt

/-! ## Decoding -/

/-- The number behind the first key of a meta message. -/
def metaSession (message : List UInt8) : Option Nat :=
  let start := ascii "\x7b\"session_id\":"
  if start.isPrefixOf message then
    some (digitsValue ((message.drop start.length).takeWhile isDigit))
  else none

theorem metaSession_eq (sessionId : Nat) {text : List UInt8} (ends : EndsNumber text) :
    metaSession (ascii "\x7b\"session_id\":" ++ decimal sessionId ++ text) = some sessionId := by
  rw [List.append_assoc]
  unfold metaSession
  simp [takeWhile_digits isDigit_of_mem_decimal ends]

/-! ## The two publishers -/

/-- `process_fragment_publish` and `process_file_publish` -/
inductive ChunkPublisher where
  | fragments
  | files
deriving Repr, DecidableEq

/-- A message on `file/data` with what it was made of, and the meta its publisher sent. -/
structure SentChunk where
  metaJson : List UInt8
  sessionId : Nat
  seq : Nat
  data : List UInt8
  message : List UInt8

def fragmentChunk (req : FragmentPublishRequest) (t : TransferMeta) : SentChunk where
  metaJson := transferMetaJson t
  sessionId := req.sessionId
  seq := req.seq
  data := req.data
  message := fragmentMessage req

def fileChunk (req : FilePublishRequest) (sessionId seq : Nat) : SentChunk where
  metaJson := req.metaJson sessionId
  sessionId := sessionId
  seq := seq
  data := req.chunkData seq
  message := req.chunkMessage seq

/-- The chunks of the two publishers.  A fragment goes out at any time in any run of the
client; `t` is what `publish_transfer_meta` was called with when it last activated a
session.  A file is any that `publish_file` takes, at any time of the clock. -/
inductive Publishes : ChunkPublisher → SentChunk → Prop
  | fragment {nodeAddr : Nat} {calls : List MqttCall} {call : MqttCall}
      {req : FragmentPublishRequest} {t : TransferMeta}
      (session : req.sessionId < 2 ^ 16) (seq : req.seq < 2 ^ 16)
      (accepted : req ∈ ((MqttCalls.boot nodeAddr).run calls).accepts call)
      (announced : lastActivated calls = some t.sessionId) :
      Publishes .fragments (fragmentChunk req t)
  | file {filename data : List UInt8} {srcNode sessionId seq : Nat}
      {req : FilePublishRequest} (queued : publishFile filename data srcNode = some req)
      (clock : sessionId < 2 ^ 32) (inside : seq < req.chunkCount) :
      Publishes .files (fileChunk req sessionId seq)

/-- The cloud reads session, sequence number and data of a chunk as they were sent, and the
session is that of the meta. -/
def SentChunk.Decodes (chunk : SentChunk) (c : Client) (nodeId : String) : Prop :=
  ∃ decoded, c.decodeFileData nodeId chunk.message = some decoded ∧
    decoded.sessionId = chunk.sessionId ∧ decoded.seqNum = chunk.seq ∧
    decoded.data = chunk.data ∧ metaSession chunk.metaJson = some decoded.sessionId

theorem bytes_of_lt {value : Nat} (small : value < 2 ^ 16) :
    (UInt8.ofNat (value % 256)).toNat + 256 * (UInt8.ofNat (value / 256 % 256)).toNat = value := by
  simp
  omega

theorem decodes_fragment {req : FragmentPublishRequest} {t : TransferMeta}
    (session : req.sessionId < 2 ^ 16) (seq : req.seq < 2 ^ 16)
    (announced : t.sessionId = req.sessionId) (c : Client) (nodeId : String) :
    (fragmentChunk req t).Decodes c nodeId := by
  refine ⟨_, rfl, bytes_of_lt session, bytes_of_lt seq, rfl, ?_⟩
  dsimp only
  rw [bytes_of_lt session, ← announced]
  unfold fragmentChunk
  delta transferMetaJson
  simp only [List.append_assoc]
  rw [← List.append_assoc]
  exact metaSession_eq t.sessionId (fun byte first => by simp [ascii] at first; subst first; rfl)

/-- Two bytes of the file stand where the cloud expects the sequence number. -/
theorem not_decodes_file {req : FilePublishRequest} {seq : Nat} (inside : seq < req.chunkCount)
    (sessionId : Nat) (c : Client) (nodeId : String) :
    ¬ (fileChunk req sessionId seq).Decodes c nodeId := by
  rintro ⟨decoded, read, -, -, data, -⟩
  have filled : 0 < (req.chunkData seq).length := by
    simp only [FilePublishRequest.chunkCount, chunkPayload] at inside
    simp only [FilePublishRequest.chunkData, chunkPayload, List.length_take, List.length_drop]
    omega
  change c.decodeFileData nodeId
    (UInt8.ofNat (seq % 256) :: UInt8.ofNat (seq / 256 % 256) :: req.chunkData seq) = _ at read
  change decoded.data = req.chunkData seq at data
  cases content : req.chunkData seq with
  | nil => simp [content] at filled
  | cons first rest =>
      cases rest with
      | nil => simp [content, Client.decodeFileData] at read
      | cons second rest =>
          rw [content] at read data
          obtain rfl := Option.some.inj read
          have length : rest.length = rest.length + 2 := congrArg List.length data
          omega

/-- Chunks of fragments decode, and no chunk of a whole file does. -/
theorem chunk_decodes_iff {publisher : ChunkPublisher} {chunk : SentChunk}
    (published : Publishes publisher chunk) (c : Client) (nodeId : String) :
    chunk.Decodes c nodeId ↔ publisher = .fragments := by
  cases published with
  | fragment session seq accepted announced =>
      have same := MqttCalls.session_of_published accepted
      rw [announced] at same
      simp [decodes_fragment session seq (Option.some.inj same)]
  | file queued clock inside => simp [not_decodes_file inside]

/-- One fragment of session 5, published after its meta. -/
def smallCalls : List MqttCall :=
  [.activateTransferSession 5, .publishFragment 5 7 9 (some [0xAA]) (some [0x66])]

def smallMeta : TransferMeta where
  sessionId := 5
  filename := [0x66]
  srcNode := 9
  exitNode := 1
  totalSize := 1
  chunkCount := 1
  fragmentSize := 200
  crc32 := 0

theorem small_fragment_decodes :
    (fragmentChunk ⟨5, 7, 9, [0xAA], [0x66]⟩ smallMeta).Decodes {} "0001" ↔
      ChunkPublisher.fragments = .fragments :=
  chunk_decodes_iff
    (.fragment (by decide) (by decide)
      (show _ ∈ ((MqttCalls.boot 1).run smallCalls).accepts (.processFragmentPublish true [0]) by
        decide +kernel)
      rfl) {} "0001"

/-- The file of the bytes 1, 2, 3. -/
def smallFile : FilePublishRequest where
  filename := [0x66]
  data := [1, 2, 3]
  srcNode := 9

/-- The cloud reads session 0, sequence number 513 and the byte 3. -/
theorem small_file_misread :
    publishFile [0x66] [1, 2, 3] 9 = some smallFile ∧
      Publishes .files (fileChunk smallFile 70000 0) ∧
      (fileChunk smallFile 70000 0).message = [0, 0, 1, 2, 3] ∧
      Client.decodeFileData {} "0001" (fileChunk smallFile 70000 0).message =
        some ⟨"0001", 0, 513, [3]⟩ ∧
      ¬ (fileChunk smallFile 70000 0).Decodes {} "0001" := by
  have queued : publishFile [0x66] [1, 2, 3] 9 = some smallFile := by decide
  have inside : 0 < smallFile.chunkCount := by decide
  exact ⟨queued, .file queued (by decide) inside, rfl, by decide,
    not_decodes_file inside 70000 {} "0001"⟩

end ForestLink.Cloud
