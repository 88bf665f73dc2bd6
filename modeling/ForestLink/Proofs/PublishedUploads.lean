/-
Module: ForestLink.Proofs.PublishedUploads
Purpose: The way of a file from the calls of an exit's MQTT client to the disk of the cloud: the
  meta as it is printed and read again, and the chunks of every run of the client.
Trusted boundary: none
Main exports: MqttClient.waiting_processLoop, NodeFile, MqttCall.Tells, Published,
  Published.truthful, published_files_saved
-/
import Mathlib.Algebra.GroupWithZero.Nat
import ForestLink.Proofs.CustodyAcks
import ForestLink.Proofs.IngressUploads
import ForestLink.Proofs.PublishedChunks
import ForestLink.Proofs.TransferMetaJson

/-! ## The requests of the client -/

namespace ForestLink.Mqtt.MqttClient

theorem waiting_publishFragment (m : MqttClient) (sessionId seq srcNode : Nat)
    (data filename : List UInt8) :
    ∀ req ∈ (m.publishFragment sessionId seq srcNode (some data) (some filename)).2.waiting,
      req ∈ m.waiting ∨ req = request sessionId seq srcNode data filename := by
  intro req
  unfold publishFragment enqueueFragment
  dsimp only
  split
  · exact .inl
  split
  · exact .inl
  split
  · rename_i known
    split at known
    · obtain ⟨-, rfl⟩ := Prod.mk.inj known
      split
      · unfold queueFragmentAck
        split
        · exact .inl
        · split <;> exact .inl
      · exact .inl
    · split at known <;> cases known
  · rename_i known
    split at known
    · cases known
    · split at known <;> cases known
      exact .inl
  · rename_i known
    split at known
    · cases known
    · split at known <;> cases known
      intro member
      unfold waiting at member ⊢
      dsimp only at member
      rw [← List.append_assoc] at member
      exact (List.mem_append.mp member).imp id List.mem_singleton.mp

/-- What the loop publishes and what it leaves has waited before. -/
theorem waiting_processLoop (fuel : Nat) (msgIds : List Int) (m : MqttClient) :
    (∀ req ∈ (processLoop fuel msgIds m).1, req ∈ m.waiting) ∧
      ∀ req ∈ (processLoop fuel msgIds m).2.waiting, req ∈ m.waiting := by
  induction fuel generalizing m msgIds with
  | zero => exact ⟨List.forall_mem_nil _, fun _ => id⟩
  | succ fuel inductionHypothesis =>
      unfold processLoop
      split
      · exact ⟨List.forall_mem_nil _, fun _ => id⟩
      rename_i req fromPending taken next
      obtain ⟨waits, same, -⟩ := nextRequest_eq_some next
      have later : ∀ other ∈ taken.fragmentPublishQueue, other ∈ m.waiting := by
        intro other member
        rw [waits]
        exact List.mem_cons_of_mem req member
      split
      · obtain ⟨accepted, left⟩ := inductionHypothesis msgIds (taken.dropStale req fromPending)
        rw [dropStale_eq next] at accepted left ⊢
        exact ⟨fun other member => later other (accepted other member),
          fun other member => later other (left other member)⟩
      split
      · refine ⟨List.forall_mem_nil _, fun other member => ?_⟩
        rw [waits]
        exact member
      · have behind : ((taken.acceptFragment req fromPending).acknowledge req).waiting =
            taken.fragmentPublishQueue := by
          rw [(acknowledge_fields _ _).2, acceptFragment_eq next]
          rfl
        obtain ⟨accepted, left⟩ := inductionHypothesis msgIds.tail
          ((taken.acceptFragment req fromPending).acknowledge req)
        rw [behind] at accepted left
        refine ⟨List.forall_mem_cons.mpr ⟨?_, fun other member => ?_⟩, fun other member => ?_⟩
        · rw [waits]
          exact List.mem_cons_self
        · exact later other (accepted other member)
        · exact later other (left other member)

theorem waiting_markFragmentForRepublish (m : MqttClient) (sessionId seq : Nat) :
    (m.markFragmentForRepublish sessionId seq).waiting = m.waiting := by
  unfold markFragmentForRepublish
  split <;> rfl

/-- Another session empties the queue. -/
theorem waiting_activateTransferSession (m : MqttClient) (sessionId : Nat) :
    ∀ req ∈ (m.activateTransferSession sessionId).waiting, req ∈ m.waiting := by
  unfold activateTransferSession
  dsimp only
  split
  · exact fun _ none => absurd none List.not_mem_nil
  · exact fun _ => id

theorem waiting_clearTransferSession (m : MqttClient) (sessionId : Nat) :
    ∀ req ∈ (m.clearTransferSession sessionId).waiting, req ∈ m.waiting := by
  unfold clearTransferSession
  split
  · exact fun _ none => absurd none List.not_mem_nil
  · exact fun _ => id

end ForestLink.Mqtt.MqttClient

/-! ## Runs of the client -/

namespace ForestLink.Mqtt

open ForestLink.Protocol

namespace MqttClient

theorem waiting_drainLoop (sessionId depth : Nat) (m : MqttClient) :
    (drainLoop sessionId depth m).2.waiting = m.waiting := by
  induction depth generalizing m with
  | zero => rfl
  | succ depth inductionHypothesis =>
      unfold drainLoop
      split
      · rfl
      · split
        · rfl
        · rw [inductionHypothesis]
          unfold putBack
          split <;> rfl

theorem waiting_requeueFragmentAck (m : MqttClient) (sessionId seq : Nat) :
    (m.requeueFragmentAck sessionId seq).2.waiting = m.waiting := by
  unfold requeueFragmentAck
  split
  · rfl
  · split <;> rfl

end MqttClient

/-- The condition holds of the request of each `publish_fragment` with data. -/
def MqttCall.Requests (holds : FragmentPublishRequest → Prop) : MqttCall → Prop
  | .publishFragment sessionId seq srcNode (some data) (some filename) =>
      holds (MqttClient.request sessionId seq srcNode data filename)
  | _ => True

namespace MqttCalls

variable {holds : FragmentPublishRequest → Prop}

theorem waiting_call {s : MqttCalls} (waiting : ∀ req ∈ s.client.waiting, holds req)
    {call : MqttCall} (requests : call.Requests holds) :
    ∀ req ∈ (s.call call).client.waiting, holds req := by
  cases call with
  | activateTransferSession sessionId =>
      exact fun req member => waiting req
        (MqttClient.waiting_activateTransferSession s.client sessionId req member)
  | clearTransferSession sessionId =>
      exact fun req member => waiting req
        (MqttClient.waiting_clearTransferSession s.client sessionId req member)
  | publishFragment sessionId seq srcNode data filename =>
      cases data with
      | none => exact waiting
      | some data =>
          cases filename with
          | none => exact waiting
          | some filename =>
              intro req member
              rcases MqttClient.waiting_publishFragment _ _ _ _ _ _ req member with old | rfl
              · exact waiting req old
              · exact requests
  | processFragmentPublish connected msgIds =>
      unfold MqttCalls.call MqttClient.processFragmentPublish
      dsimp only
      split
      · exact fun req member => waiting req
          ((MqttClient.waiting_processLoop _ msgIds s.client).2 req member)
      · exact waiting
  | drainFragmentAck sessionId =>
      unfold MqttCalls.call MqttClient.drainFragmentAck
      dsimp only
      change ∀ req ∈ (MqttClient.drainLoop sessionId _ s.client).2.waiting, holds req
      rw [MqttClient.waiting_drainLoop]
      exact waiting
  | requeueFragmentAck =>
      unfold MqttCalls.call
      dsimp only
      split
      · change ∀ req ∈ (s.client.requeueFragmentAck _ _).2.waiting, holds req
        rw [MqttClient.waiting_requeueFragmentAck]
        exact waiting
      · exact waiting
  | markFragmentForRepublish sessionId seq =>
      change ∀ req ∈ (s.client.markFragmentForRepublish sessionId seq).waiting, holds req
      rw [MqttClient.waiting_markFragmentForRepublish]
      exact waiting

theorem waiting_run {s : MqttCalls} (waiting : ∀ req ∈ s.client.waiting, holds req)
    {calls : List MqttCall} (requests : ∀ call ∈ calls, call.Requests holds) :
    ∀ req ∈ (s.run calls).client.waiting, holds req := by
  induction calls generalizing s with
  | nil => exact waiting
  | cons call rest inductionHypothesis =>
      obtain ⟨here, behind⟩ := List.forall_mem_cons.mp requests
      exact inductionHypothesis (waiting_call waiting here) behind

/-- A client publishes only what it was asked to publish. -/
theorem requested_of_accepts {nodeAddr : Nat} {calls : List MqttCall}
    (requests : ∀ call ∈ calls, call.Requests holds) {call : MqttCall}
    {req : FragmentPublishRequest}
    (accepted : req ∈ ((boot nodeAddr).run calls).accepts call) : holds req := by
  have waiting := waiting_run (s := boot nodeAddr) (List.forall_mem_nil holds) requests
  unfold accepts at accepted
  split at accepted
  · unfold MqttClient.processFragmentPublish at accepted
    split at accepted
    · exact waiting req ((MqttClient.waiting_processLoop _ _ _).1 req accepted)
    · exact absurd accepted List.not_mem_nil
  · exact absurd accepted List.not_mem_nil

end MqttCalls

end ForestLink.Mqtt

/-! ## The text of a meta -/

namespace ForestLink.Cloud

open ForestLink.Lib
open ForestLink.Mqtt
open ForestLink.Protocol

/-- A string of Go, which is bytes, as a text with a character for each. -/
def goText (bytes : List UInt8) : String :=
  String.ofList (bytes.map fun byte => Char.ofNat byte.toNat)

theorem goText_decimal (n : Nat) : goText (decimal n) = toString n := by
  have text : (toString n).toList = Nat.toDigits 10 n := Nat.toList_repr
  have byByte : ∀ c ∈ Nat.toDigits 10 n, Char.ofNat (UInt8.ofNat c.toNat).toNat = c := by
    intro c member
    have digit := Nat.isDigit_of_mem_toDigits (by decide) (by decide) member
    have small : c.toNat < 256 := by
      rw [Char.isDigit, Bool.and_eq_true, decide_eq_true_eq, decide_eq_true_eq] at digit
      exact Nat.lt_of_le_of_lt digit.2 (by decide)
    rw [UInt8.toNat_ofNat_of_lt' small, Char.ofNat_toNat]
  have same : (decimal n).map (fun byte => Char.ofNat byte.toNat) = (toString n).toList := by
    rw [decimal, List.map_map, text]
    exact (List.map_congr_left byByte).trans (List.map_id _)
  rw [goText, same, String.ofList_toList]

/-- A digit of a node in lower case. -/
theorem lower_upperHexDigit (digit : Nat) :
    Char.toLower (Char.ofNat (upperHexDigit (digit % 16)).toNat) = Nat.digitChar (digit % 16) := by
  have small := Nat.mod_lt digit (show 16 > 0 by decide)
  interval_cases digit % 16 <;> rfl

theorem isSpace_digitChar (digit : Nat) : isSpace (Nat.digitChar (digit % 16)) = false := by
  have small := Nat.mod_lt digit (show 16 > 0 by decide)
  interval_cases digit % 16 <;> rfl

theorem hexDigit_digitChar (digit : Nat) :
    hexDigit? (Nat.digitChar (digit % 16)) = some (digit % 16) := by
  have small := Nat.mod_lt digit (show 16 > 0 by decide)
  interval_cases digit % 16 <;> rfl

/-- The printed source of a meta is read as the id of the node. -/
theorem normalizeNodeId_nodeText {node : Nat} (small : node < 2 ^ 16) :
    normalizeNodeId Char.toLower (goText (nodeText node)) = formatHex4 node := by
  have lowered : (goText (nodeText node)).toList.map Char.toLower =
      '0' :: 'x' :: [node / 4096, node / 256, node / 16, node].map fun digit =>
        Nat.digitChar (digit % 16) := by
    have printed : nodeText node = 0x30 :: 0x78 :: upperHex4 node := rfl
    rw [goText, printed, String.toList_ofList, List.map_map]
    simp only [upperHex4, List.map_cons, List.map_nil, Function.comp_apply, lower_upperHexDigit]
    rfl
  have trimmed : trimSpace ((goText (nodeText node)).toList.map Char.toLower) =
      (goText (nodeText node)).toList.map Char.toLower := by
    have front : isSpace '0' = false := by decide
    rw [lowered, trimSpace, List.dropWhile_cons_of_neg (by rw [front]; exact Bool.false_ne_true)]
    simp only [List.map_cons, List.map_nil, List.reverse_cons, List.reverse_nil, List.nil_append,
      List.cons_append]
    rw [List.dropWhile_cons_of_neg (by rw [isSpace_digitChar]; exact Bool.false_ne_true)]
    rfl
  have value : parseUint16 ([node / 4096, node / 256, node / 16, node].map fun digit =>
      Nat.digitChar (digit % 16)) = some node := by
    have same : 16 * (16 * (16 * (16 * 0 + node / 4096 % 16) + node / 256 % 16) +
        node / 16 % 16) + node % 16 = node := by omega
    unfold parseUint16
    simp only [List.map_cons, List.map_nil, List.foldlM_cons, List.foldlM_nil,
      hexDigit_digitChar, Option.map_some, Option.bind_eq_bind, Option.bind_some, Option.pure_def,
      same, small, if_true]
  have stripped : trimHexPrefix (trimSpace ((goText (nodeText node)).toList.map Char.toLower)) =
      [node / 4096, node / 256, node / 16, node].map fun digit => Nat.digitChar (digit % 16) := by
    rw [trimmed, lowered]
    rfl
  unfold normalizeNodeId
  rw [stripped]
  dsimp only
  rw [value]
  rfl

theorem formatHex4_ne_empty (node : Nat) : formatHex4 node ≠ "" := by
  intro empty
  have none := congrArg String.toList empty
  rw [formatHex4, String.toList_ofList] at none
  cases none

/-! ## Files on their way to the cloud -/

/-- A file that a node uploads under a session, with a name that JSON leaves as it is. -/
structure NodeFile where
  srcNode : Nat
  filename : List UInt8
  file : List UInt8
  layout : Layout
  small : srcNode < 2 ^ 16
  plain : PlainText filename
  named : ∀ byte ∈ filename, byte ≠ 0
  noWrap : NoWrap layout file.length

namespace NodeFile

def upload (f : NodeFile) (sessionId : Nat) : Upload where
  nodeId := formatHex4 f.srcNode
  sessionId := toString sessionId
  filename := goText f.filename
  file := f.file
  layout := f.layout

/-- What an exit is told about the transfer. -/
def transferMeta (f : NodeFile) (sessionId exitNode : Nat) : TransferMeta where
  sessionId := sessionId
  filename := f.filename
  srcNode := f.srcNode
  exitNode := exitNode
  totalSize := f.file.length
  chunkCount := f.layout.chunkCount f.file.length
  fragmentSize := 1456
  crc32 := (crc32ChecksumIeee f.file).toNat

theorem typed (f : NodeFile) {sessionId exitNode : Nat} (session : sessionId < 2 ^ 16)
    (exit : exitNode < 2 ^ 16) : Typed (f.transferMeta sessionId exitNode) := by
  have unit : (1456 : Nat) < 2 ^ 16 := by decide
  refine ⟨session, f.small, exit, ?_, ?_, unit, UInt32.toNat_lt _, f.named⟩
  · have word : 2 ^ 27 < 2 ^ 32 := Nat.pow_lt_pow_right (by decide) (by decide)
    exact (size_lt_of_noWrap f.noWrap).trans word
  · change f.layout.chunkCount f.file.length < 2 ^ 16
    rw [Layout.chunkCount_eq f.noWrap]
    exact f.noWrap

/-- What the cloud reads in the meta. -/
def payload (f : NodeFile) (sessionId : Nat) : MetaPayload where
  sessionId := toString sessionId
  sourceNode := goText (nodeText f.srcNode)
  filename := goText f.filename
  totalSize := f.file.length
  chunkCount := f.layout.chunkCount f.file.length
  crc32 := (crc32ChecksumIeee f.file).toNat
  fragmentSize := 1456

theorem unmarshal_transferMeta (f : NodeFile) {sessionId exitNode : Nat}
    (session : sessionId < 2 ^ 16) (exit : exitNode < 2 ^ 16) :
    asciiRuntime.unmarshal (transferMetaJson (f.transferMeta sessionId exitNode)) =
      some (f.payload sessionId) := by
  have fields : MetaFields.toPayload (metaFields (f.transferMeta sessionId exitNode)) =
      f.payload sessionId := by
    unfold MetaFields.toPayload metaFields payload
    rw [← goText_decimal]
    rfl
  have read : ∀ message, asciiRuntime.unmarshal message =
      (unmarshalMeta message).map MetaFields.toPayload := fun _ => rfl
  rw [read, unmarshalMeta_plain (f.typed session exit) f.plain, Option.map_some, fields]

/-- The meta is filed under the node that uploads, whatever exit sends it. -/
theorem sourceOf_payload (f : NodeFile) (exit : String) (sessionId : Nat) :
    sourceOf asciiRuntime exit (f.payload sessionId) = formatHex4 f.srcNode := by
  have normal : normalizeNodeId asciiRuntime.toLower (f.payload sessionId).sourceNode =
      formatHex4 f.srcNode := normalizeNodeId_nodeText f.small
  unfold sourceOf
  rw [normal]
  exact if_neg (formatHex4_ne_empty f.srcNode)

end NodeFile

variable {files : Nat → Option NodeFile}

def uploadsOfFiles (files : Nat → Option NodeFile) (sessionId : Nat) : Option Upload :=
  (files sessionId).map fun f => f.upload sessionId

/-- The request is for a fragment of the file of its session. -/
def TellsFile (files : Nat → Option NodeFile) (req : FragmentPublishRequest) : Prop :=
  req.sessionId < 2 ^ 16 ∧ req.seq < 2 ^ 16 ∧ ∀ f, files req.sessionId = some f →
    req.seq < f.layout.chunkCount f.file.length ∧
      req.data = fragmentPayload f.layout f.file req.seq

/-- The messages of the exits: the meta of a file from `publish_transfer_meta`, in any state of
the client, and what `process_fragment_publish` sends in any run of the client that is asked to
publish fragments of the files. -/
inductive Published (files : Nat → Option NodeFile) : List String → List UInt8 → Prop
  | announced {f : NodeFile} {m : MqttClient} {sessionId exitNode outboxSize : Nat}
      {connected : Bool} {message : List UInt8} (session : sessionId < 2 ^ 16)
      (exit : exitNode < 2 ^ 16) (isFile : files sessionId = some f)
      (sent : (m.publishTransferMeta (f.transferMeta sessionId exitNode) outboxSize
        connected).1 = some message) :
      Published files ["flp", formatHex4 exitNode, "file", "meta"] message
  | fragment {exitNode : Nat} {calls : List MqttCall} {call : MqttCall}
      {req : FragmentPublishRequest} (requests : ∀ call ∈ calls, call.Requests (TellsFile files))
      (accepted : req ∈ ((MqttCalls.boot exitNode).run calls).accepts call) :
      Published files ["flp", formatHex4 exitNode, "file", "data"] (fragmentMessage req)

theorem message_of_publishTransferMeta {m : MqttClient} {t : TransferMeta} {outboxSize : Nat}
    {connected : Bool} {message : List UInt8}
    (sent : (m.publishTransferMeta t outboxSize connected).1 = some message) :
    message = transferMetaJson t := by
  unfold MqttClient.publishTransferMeta at sent
  dsimp only at sent
  split at sent
  · cases sent
  split at sent
  · dsimp only at sent
    unfold metaMessage at sent
    split at sent
    · cases sent
    · exact (Option.some.inj sent).symm
  · cases sent

/-- The cloud reads from a published message what is true of the file. -/
theorem Published.truthful {parts : List String} {payload : List UInt8}
    (published : Published files parts payload) :
    TruthfulMessage asciiRuntime (uploadsOfFiles files) parts payload := by
  cases published with
  | @announced f m sessionId exitNode outboxSize connected _ session exit isFile sent =>
      intro fm decoded
      rw [message_of_publishTransferMeta sent, f.unmarshal_transferMeta session exit] at decoded
      obtain rfl := Option.some.inj decoded
      refine ⟨sessionId, session, rfl, f.upload sessionId, ?_, ?_⟩
      · rw [uploadsOfFiles, isFile]
        rfl
      · rw [f.sourceOf_payload]
        exact ⟨rfl, rfl, rfl, rfl, rfl, rfl, rfl, f.noWrap⟩
  | @fragment exitNode calls call req requests accepted =>
      obtain ⟨session, seq, tells⟩ := MqttCalls.requested_of_accepts requests accepted
      intro u isUpload
      rw [bytes_of_lt session] at isUpload
      obtain ⟨f, isFile, rfl⟩ := Option.map_eq_some_iff.mp isUpload
      rw [bytes_of_lt seq]
      exact tells f isFile

/-- From the calls of the exits' clients to the disk: whatever the exits publish, in whatever
order and number it arrives, and whenever `RunEngine` takes it up, nothing panics and every file
that is saved is one that a node uploads. -/
theorem published_files_saved (files : Nat → Option NodeFile) (srWindow srTimeout : Nat)
    (turns : List Turn)
    (published : ∀ parts payload, Turn.arrival (.message parts payload) ∈ turns →
      Published files parts payload) :
    ∃ s, Ingress.turns asciiRuntime ⟨{}, newEngine srWindow srTimeout⟩ turns = some s ∧
      ∀ node name content, .save node name content ∈ s.engine.trace →
        ∃ sessionId f, files sessionId = some f ∧ node = formatHex4 f.srcNode ∧
          name = goText f.filename ∧ content = f.file := by
  have truthful : ∀ turn ∈ turns,
      TruthfulTurn asciiRuntime (uploadsOfFiles files) turn := by
    intro turn member
    cases turn with
    | tick now => trivial
    | arrival a =>
        cases a with
        | message parts payload => exact (published parts payload member).truthful
        | receiveMeta now => trivial
        | receiveChunk now => trivial
  obtain ⟨s, ran, saves⟩ := ingress_saves_uploads asciiRuntime (uploadsOfFiles files)
    srWindow srTimeout turns truthful
  refine ⟨s, ran, fun node name content saved => ?_⟩
  obtain ⟨sessionId, u, isUpload, isNode, isName, isFile⟩ := saves node name content saved
  obtain ⟨f, known, rfl⟩ := Option.map_eq_some_iff.mp isUpload
  exact ⟨sessionId, f, known, isNode.symm, isName.symm, isFile.symm⟩

/-! ## A file of one byte -/

/-- Node `000a` uploads one byte under session 300. -/
def sevenFile : NodeFile where
  srcNode := 10
  filename := [0x66]
  file := [7]
  layout := .mesh
  small := by decide
  plain := PlainText.of_ascii (List.forall_mem_singleton.mpr (by decide))
  named := List.forall_mem_singleton.mpr (by decide)
  noWrap := by decide

def sevenFiles (sessionId : Nat) : Option NodeFile :=
  if sessionId = 300 then some sevenFile else none

/-- Exit `000b` is asked to publish the only fragment. -/
def sevenCalls : List MqttCall :=
  [.activateTransferSession 300, .publishFragment 300 0 10 (some [7]) (some [0x66])]

def sevenRequest : FragmentPublishRequest := MqttClient.request 300 0 10 [7] [0x66]

/-- The fragment arrives before the meta and behind it. -/
def sevenTurns : List Turn :=
  let data := Turn.arrival (.message ["flp", formatHex4 11, "file", "data"]
    (fragmentMessage sevenRequest))
  [data, .arrival (.message ["flp", formatHex4 11, "file", "meta"]
      (transferMetaJson (sevenFile.transferMeta 300 11))), data,
    .arrival (.receiveMeta 1000), .arrival (.receiveChunk 1001), .tick 2000,
    .arrival (.receiveChunk 2001)]

theorem published_files_saved_seven : ∃ s,
    Ingress.turns asciiRuntime ⟨{}, newEngine 64 5⟩ sevenTurns = some s ∧
      .save "000a" "f" [7] ∈ s.engine.trace ∧
      ∀ node name content, .save node name content ∈ s.engine.trace →
        ∃ sessionId f, sevenFiles sessionId = some f ∧ node = formatHex4 f.srcNode ∧
          name = goText f.filename ∧ content = f.file := by
  have announced : Published sevenFiles ["flp", formatHex4 11, "file", "meta"]
      (transferMetaJson (sevenFile.transferMeta 300 11)) :=
    .announced (m := { nodeAddr := 11 }) (by decide) (by decide) rfl
      (by decide +kernel : (MqttClient.publishTransferMeta { nodeAddr := 11 }
        (sevenFile.transferMeta 300 11) 0 true).1 = _)
  have tells : TellsFile sevenFiles sevenRequest := by
    refine ⟨by decide, by decide, fun f isFile => ?_⟩
    obtain rfl := Option.some.inj isFile
    exact ⟨by decide, by decide⟩
  have requests : ∀ call ∈ sevenCalls, call.Requests (TellsFile sevenFiles) := by
    intro call member
    rcases List.mem_cons.mp member with rfl | last
    · trivial
    · rw [List.mem_singleton.mp last]
      exact tells
  have accepted : sevenRequest ∈ ((MqttCalls.boot 11).run sevenCalls).accepts
      (.processFragmentPublish true [1]) := by
    decide +kernel
  have fragment : Published sevenFiles ["flp", formatHex4 11, "file", "data"]
      (fragmentMessage sevenRequest) := .fragment requests accepted
  obtain ⟨s, ran, saves⟩ := published_files_saved sevenFiles 64 5 sevenTurns (by
    intro parts payload member
    simp only [sevenTurns, List.mem_cons, List.not_mem_nil, or_false, reduceCtorEq,
      Turn.arrival.injEq, Arrival.message.injEq] at member
    rcases member with ⟨rfl, rfl⟩ | ⟨rfl, rfl⟩ | ⟨rfl, rfl⟩
    · exact fragment
    · exact announced
    · exact fragment)
  have computed : (Ingress.turns asciiRuntime ⟨{}, newEngine 64 5⟩ sevenTurns).any
      (fun s => s.engine.trace.contains (.save "000a" "f" [7])) = true := by
    decide +kernel
  rw [ran, Option.any_some, List.contains_iff_mem] at computed
  exact ⟨s, ran, computed, saves⟩

end ForestLink.Cloud
