/-
Module: ForestLink.Proofs.LocalExitFile
Purpose: A node uploads its file over its own connection: whatever is lost, sent again and
  overtaken between the node and the cloud, each message of the node is true of the file, and
  so is every file that the cloud saves.
Trusted boundary: none
Main exports: ActiveTransfer.Holds, Output.FromFile, TransferEngine.TickUploads,
  ActiveTransfer.Described, LocalExit.start_spec, LocalExit.Ships, LocalExit.Ships.step,
  LocalExit.local_exit_saves_its_file
-/
import Mathlib.Algebra.GroupWithZero.Nat
import ForestLink.Proofs.LocalExitAcks
import ForestLink.Proofs.PublishedUploads
import ForestLink.Proofs.SentPayloads
import ForestLink.Uart.IngestRuns

/-! ## The checksum -/

namespace ForestLink.Lib

theorem crc32Le_append (crc : UInt32) (front back : List UInt8) :
    crc32Le crc (front ++ back) = crc32Le (crc32Le crc front) back := by
  simp [crc32Le, List.foldl_append]

theorem crc32Le_zero (data : List UInt8) : crc32Le 0 data = crc32ChecksumIeee data := rfl

end ForestLink.Lib

namespace ForestLink.Mesh

open ForestLink.Lib
open ForestLink.Mqtt
open ForestLink.Protocol
open ForestLink.Uart (slice)
open ForestLink.Cloud (Upload FileChunk)

/-- The checksum loop reads the file through. -/
theorem crcLoop_slice {io : Io} (whole : io.env.readLimits = []) (file : List UInt8) (fuel : Nat)
    {offset : Nat} (crc : UInt32) (enough : file.length - offset ≤ fuel) :
    (TransferEngine.crcLoop (slice file) file.length fuel offset crc io).1 =
      crc32Le crc (file.drop offset) := by
  induction fuel generalizing offset crc with
  | zero =>
      have past : file.length ≤ offset := by omega
      rw [List.drop_eq_nil_of_le past]
      simp [TransferEngine.crcLoop, crc32Le]
  | succ fuel inductionHypothesis =>
      unfold TransferEngine.crcLoop
      split
      · rename_i inside
        obtain ⟨len, lenEq⟩ : ∃ len, len = min (file.length - offset) 512 := ⟨_, rfl⟩
        have read : (slice file offset len).take len = (file.drop offset).take len := by
          rw [slice, List.take_take, Nat.min_self]
        have length : ((file.drop offset).take len).length = len := by
          rw [List.length_take, List.length_drop]
          omega
        rw [Io.readChunk_full whole, ← lenEq, read]
        dsimp only
        rw [if_neg (List.ne_nil_of_length_pos (by omega)), length,
          inductionHypothesis _ (by omega), ← crc32Le_append, ← List.drop_drop,
          List.take_append_drop]
      · rename_i past
        rw [List.drop_eq_nil_of_le (Nat.not_lt.mp past)]
        simp [crc32Le]

/-! ## The transfer -/

/-- The record of a transfer of this file over the own connection. -/
structure ActiveTransfer.Holds (t : ActiveTransfer) (file : List UInt8) : Prop where
  reads : t.readChunk = some (slice file)
  size : t.size = file.length
  fragmentSize : t.fragmentSize = 1456
  count : t.fragmentCount = dataFragments file.length
  crc32 : t.crc32 = (crc32ChecksumIeee file).toNat
  fits : dataFragments file.length ≤ TransferEngine.maxCloudFragments

/-- What a transfer of the file hands to MQTT is a fragment of it. -/
def Output.FromFile (session : Nat) (file : List UInt8) : Output → Prop
  | .toMqtt published seq _ data _ _ => published = session ∧ seq < dataFragments file.length ∧
      data = fragmentPayload .localExit file seq
  | _ => True

namespace TransferEngine

variable {F : Type} {e : TransferEngine F} {addr : Nat} {t : ActiveTransfer} {file : List UInt8}

theorem holds_of_started {after : TransferEngine F} {args : StartArgs}
    (started : e.startFileTransfer args = (true, after)) (chosen : args.onLocalExit = true)
    (reads : args.readChunk = slice file) (size : args.size = file.length)
    (fits : dataFragments file.length ≤ maxCloudFragments) (whole : e.io.env.readLimits = []) :
    after.transfer.Holds file ∧ after.cloudRetxQueue = [] := by
  have counted : dataFragCount args.size = dataFragments file.length := by
    have wide := dataFragments_eq file.length
    have limit : maxCloudFragments = 8192 := rfl
    have fragment : defaultTransferFragmentSize = 1456 := rfl
    have inWord : (file.length + 1456 - 1) % 2 ^ 32 = file.length + 1455 :=
      Nat.mod_eq_of_lt (by omega)
    unfold dataFragCount toU16
    rw [size, fragment, inWord, ← wide, Nat.mod_eq_of_lt (by omega)]
  have checksum := crcLoop_slice whole file args.size 0
    (by omega : file.length - 0 ≤ args.size)
  have path : (e.prepareTransfer args).localExit = true := chosen
  unfold startFileTransfer at started
  split at started
  · cases started
  split at started
  · cases started
  dsimp only at started
  rw [if_pos path] at started
  unfold startLocalExit at started
  dsimp only at started
  split at started
  · cases started
  split at started
  · cases started
  cases started
  refine ⟨⟨?_, size, rfl, counted, ?_, fits⟩, rfl⟩
  · exact congrArg some reads
  · rw [List.drop_zero, crc32Le_zero, ← size, ← reads] at checksum
    exact congrArg UInt32.toNat checksum

/-- The start publishes one meta: that of the record, with the name that the caller gives. -/
theorem forwardedMeta_started [PathArith F] {after : TransferEngine F} {args : StartArgs}
    (started : e.startFileTransfer args = (true, after)) (chosen : args.onLocalExit = true)
    (quiet : e.io.outputs = []) :
    after.myAddr = e.myAddr ∧ after.transfer.filename = args.filename.take 32 ∧
      after.io.outputs.reverse.filterMap (forwardedMeta e.myAddr) =
        [{ sessionId := after.transfer.sessionId
           filename := args.filename
           srcNode := after.myAddr
           exitNode := after.myAddr
           totalSize := after.transfer.size % 2 ^ 32
           chunkCount := after.transfer.fragmentCount
           fragmentSize := after.transfer.fragmentSize
           crc32 := after.transfer.crc32 }] := by
  have starts := starts_startFileTransfer e args
  rw [started] at starts
  cases starts with
  | onMesh after cap idle noExit onMesh role cloud io log =>
      rw [chosen] at onMesh
      cases onMesh
  | onLocalExit after io reading idle noExit _ role cloud later clock outputs log =>
      obtain ⟨fresh, grown, silent⟩ := later.outputs
      have none : fresh.reverse.filterMap (forwardedMeta e.myAddr) = [] := by
        refine List.filterMap_eq_nil_iff.mpr fun output member => ?_
        have plain := silent output (List.mem_reverse.mp member)
        cases output with
        | transferMeta => cases plain
        | _ => rfl
      have address : after.myAddr = e.myAddr := congrArg Role.myAddr role
      have session : after.transfer.sessionId = e.drawnSession := congrArg Role.sessionId role
      have size : after.transfer.size = args.size := congrArg Role.size role
      have count : after.transfer.fragmentCount = args.announcedCount :=
        congrArg Role.fragmentCount role
      have unit : after.transfer.fragmentSize = defaultTransferFragmentSize :=
        congrArg Role.fragmentSize role
      have checksum : after.transfer.crc32 = e.fileCrc args := congrArg Role.crc32 role
      refine ⟨address, congrArg Role.filename role, ?_⟩
      rw [outputs, grown, quiet, List.append_nil, List.reverse_cons, List.filterMap_append, none,
        address, session, size, count, unit, checksum]
      rfl

/-! ## A tick -/

/-- An engine in the middle of a tick: the file can be read, the requests are for its fragments,
and so is what the tick has handed over so far. -/
structure TickUploads (addr : Nat) (t : ActiveTransfer) (file : List UInt8)
    (e : TransferEngine F) : Prop where
  address : e.myAddr = addr
  transfer : e.transfer = t
  whole : e.io.env.readLimits = []
  queued : ∀ seq ∈ e.cloudRetxQueue, seq < t.fragmentCount
  outputs : ∀ output ∈ e.io.outputs, output.FromFile t.sessionId file

theorem TickUploads.markCloudAck (ticking : TickUploads addr t file e) (seq : Nat) :
    TickUploads addr t file (e.markCloudAck seq) := by
  unfold TransferEngine.markCloudAck
  split
  · exact ⟨ticking.address, ticking.transfer, ticking.whole, ticking.queued, ticking.outputs⟩
  · exact ticking

theorem TickUploads.advanceCloudBase (ticking : TickUploads addr t file e) (fuel : Nat) :
    TickUploads addr t file (advanceCloudBase fuel e) := by
  induction fuel generalizing e with
  | zero => exact ticking
  | succ fuel inductionHypothesis =>
      unfold TransferEngine.advanceCloudBase
      split
      · exact inductionHypothesis
          ⟨ticking.address, ticking.transfer, ticking.whole, ticking.queued, ticking.outputs⟩
      · exact ticking

theorem TickUploads.queueCloudNack (ticking : TickUploads addr t file e) (seq : Nat) :
    TickUploads addr t file (e.queueCloudNack seq) := by
  unfold TransferEngine.queueCloudNack
  split
  · exact ticking
  rename_i inside
  split
  · exact ticking
  have observed : ∀ output ∈ Output.nackObserved e.transfer.sessionId seq :: e.io.outputs,
      output.FromFile t.sessionId file := List.forall_mem_cons.mpr ⟨trivial, ticking.outputs⟩
  dsimp only
  split
  · refine ⟨ticking.address, ticking.transfer, ticking.whole, ?_, observed⟩
    intro other member
    rcases List.mem_append.mp member with old | new
    · exact ticking.queued other old
    · rw [List.mem_singleton.mp new, ← ticking.transfer]
      exact Nat.not_le.mp inside
  · exact ⟨ticking.address, ticking.transfer, ticking.whole, ticking.queued, observed⟩

/-- The fragment is cut out of the file. -/
theorem TickUploads.publishLocal (ticking : TickUploads addr t file e) (holds : t.Holds file)
    {seq : Nat} (inside : seq < t.fragmentCount) :
    TickUploads addr t file (e.publishLocal seq).2 := by
  have small : seq < dataFragments file.length := holds.count ▸ inside
  have fragment : dataFragment file seq =
      (slice file (seq * 1456) (min (sub32 file.length (seq * 1456)) 1456)).take
        (min (sub32 file.length (seq * 1456)) 1456) := by
    have wide := dataFragments_eq file.length
    have limit := holds.fits
    have most : maxCloudFragments = 8192 := rfl
    have left : sub32 file.length (seq * 1456) = file.length - seq * 1456 := by
      unfold sub32
      rw [Nat.mod_eq_of_lt (by omega : seq * 1456 < 2 ^ 32)]
      omega
    have unit : defaultTransferFragmentSize = 1456 := rfl
    rw [left, slice, List.take_take, Nat.min_self, dataFragment, unit, ← List.length_drop,
      Nat.min_comm, List.take_eq_take_min]
  unfold TransferEngine.publishLocal
  dsimp only
  rw [ticking.transfer, holds.reads, holds.size, holds.fragmentSize,
    Io.readChunk_full ticking.whole]
  refine ⟨ticking.address, rfl, ticking.whole, ticking.queued, ?_⟩
  exact List.forall_mem_cons.mpr ⟨⟨rfl, small, fragment.symm⟩, ticking.outputs⟩

theorem TickUploads.sendRetransmissions (ticking : TickUploads addr t file e) (holds : t.Holds file)
    {entries : List Nat} (inside : ∀ seq ∈ entries, seq < t.fragmentCount) (sent : Nat) :
    TickUploads addr t file (sendRetransmissions entries sent e).2 := by
  induction entries generalizing e sent with
  | nil => exact ticking
  | cons seq rest inductionHypothesis =>
      obtain ⟨here, behind⟩ := List.forall_mem_cons.mp inside
      have published := ticking.publishLocal holds here
      unfold TransferEngine.sendRetransmissions
      split
      · exact ticking
      split
      · exact inductionHypothesis ticking behind sent
      dsimp only
      split
      · exact inductionHypothesis published behind (sent + 1)
      · exact published

theorem TickUploads.sendNewLocal (ticking : TickUploads addr t file e) (holds : t.Holds file)
    (windowEnd fuel sent : Nat) : TickUploads addr t file (sendNewLocal windowEnd fuel sent e) := by
  induction fuel generalizing e sent with
  | zero => exact ticking
  | succ fuel inductionHypothesis =>
      unfold TransferEngine.sendNewLocal
      split
      · rename_i room
        have published := ticking.publishLocal holds (ticking.transfer ▸ room.1)
        dsimp only
        split
        · refine inductionHypothesis ?_ (sent + 1)
          exact ⟨published.address, published.transfer, published.whole, published.queued,
            published.outputs⟩
        · exact published
      · exact ticking

theorem TickUploads.serveLocalExit (ticking : TickUploads addr t file e) (holds : t.Holds file) :
    TickUploads addr t file e.serveLocalExit := by
  have drained : TickUploads addr t file (e.setEnv { e.io.env with cloudAcks := [] }) :=
    ⟨ticking.address, ticking.transfer, ticking.whole, ticking.queued, ticking.outputs⟩
  have acked := List.foldlRecOn e.io.env.cloudAcks TransferEngine.markCloudAck drained
    fun _ marked seq _ => marked.markCloudAck seq
  unfold TransferEngine.serveLocalExit
  dsimp only
  generalize e.io.env.cloudAcks.foldl TransferEngine.markCloudAck
    (e.setEnv { e.io.env with cloudAcks := [] }) = marked at acked ⊢
  have advanced := acked.advanceCloudBase (marked.transfer.fragmentCount - marked.cloudBaseSeq)
  generalize TransferEngine.advanceCloudBase
    (marked.transfer.fragmentCount - marked.cloudBaseSeq) marked = moved at advanced ⊢
  have emptied : TickUploads addr t file (moved.setEnv { moved.io.env with cloudNacks := [] }) :=
    ⟨advanced.address, advanced.transfer, advanced.whole, advanced.queued, advanced.outputs⟩
  have nacked := List.foldlRecOn moved.io.env.cloudNacks TransferEngine.queueCloudNack emptied
    fun _ asked seq _ => asked.queueCloudNack seq
  generalize moved.io.env.cloudNacks.foldl TransferEngine.queueCloudNack
    (moved.setEnv { moved.io.env with cloudNacks := [] }) = asked at nacked ⊢
  have resent := nacked.sendRetransmissions holds nacked.queued 0
  generalize TransferEngine.sendRetransmissions asked.cloudRetxQueue 0 asked = sent at resent ⊢
  have compacted : TickUploads addr t file (sent.2.compactRetxQueue sent.1) := by
    refine ⟨resent.address, resent.transfer, resent.whole, fun seq member => ?_, resent.outputs⟩
    exact resent.queued seq (List.mem_filter.mp (List.mem_of_mem_drop member)).1
  exact compacted.sendNewLocal holds _ _ _

/-- The tick that ends the transfer hands over nothing else. -/
theorem TickUploads.tickLocalExitArq [PathArith F] (ticking : TickUploads addr t file e)
    (holds : t.Holds file) :
    (∀ output ∈ e.tickLocalExitArq.io.outputs, output.FromFile t.sessionId file) ∧
      (e.tickLocalExitArq.transfer.active = true → e.tickLocalExitArq.myAddr = addr ∧
        e.tickLocalExitArq.transfer = t ∧
        ∀ seq ∈ e.tickLocalExitArq.cloudRetxQueue, seq < t.fragmentCount) := by
  have served := ticking.serveLocalExit holds
  unfold TransferEngine.tickLocalExitArq
  dsimp only
  split
  · constructor
    · unfold resetSenderTransferState
      dsimp only
      rw [if_pos rfl]
      refine List.forall_mem_cons.mpr ⟨trivial, ?_⟩
      split
      · exact List.forall_mem_cons.mpr ⟨trivial, served.outputs⟩
      · exact served.outputs
    · intro active
      rw [active_resetSenderTransferState] at active
      cases active
  · exact ⟨served.outputs, fun _ => ⟨served.address, served.transfer, served.queued⟩⟩

end TransferEngine

end ForestLink.Mesh

/-! ## The system -/

namespace ForestLink.Mesh

open ForestLink.Lib
open ForestLink.Mqtt
open ForestLink.Protocol
open ForestLink.Uart (slice)
open ForestLink.Cloud (Upload FileChunk NodeFile)
open ForestLink.Cloud.Engine (CarriesUpload Serving Truthful)

/-- What the transfer uploads for the node. -/
def ActiveTransfer.upload (t : ActiveTransfer) (nodeId : String) (file : List UInt8) :
    Upload where
  nodeId := nodeId
  sessionId := toString t.sessionId
  filename := String.ofList (t.filename.map fun byte => Char.ofNat byte.toNat)
  file := file
  layout := .localExit

/-- The chunk that a request of the node becomes in the cloud. -/
def requestedChunk (nodeId : String) (req : FragmentPublishRequest) : FileChunk where
  nodeId := nodeId
  sessionId := req.sessionId
  seqNum := req.seq
  data := req.data

variable {uploads : String → Option Upload} {nodeId : String} {addr : Nat}
  {t : ActiveTransfer} {file : List UInt8}

/-- The uploads know the transfer. -/
def ActiveTransfer.Known (t : ActiveTransfer) (uploads : String → Option Upload)
    (nodeId : String) (file : List UInt8) : Prop :=
  uploads (Cloud.transferKey (toString t.sessionId) nodeId) = some (t.upload nodeId file)

/-- The transfer is of this file, the uploads know it, and JSON leaves its name as it is. -/
structure ActiveTransfer.Described (t : ActiveTransfer) (uploads : String → Option Upload)
    (nodeId : String) (addr : Nat) (file : List UInt8) : Prop where
  holds : t.Holds file
  known : t.Known uploads nodeId file
  session : t.sessionId < 2 ^ 16
  plain : PlainText t.filename
  small : addr < 2 ^ 16
  own : nodeId = Cloud.formatHex4 addr

/-- A fragment of the file is one of the upload. -/
theorem carries_of_fromFile (holds : t.Holds file) (known : t.Known uploads nodeId file)
    {seq srcNode : Nat} {data filename : List UInt8} {session : Nat} {queued : Bool}
    (fromFile : (Output.toMqtt session seq srcNode data filename queued).FromFile t.sessionId
      file) :
    CarriesUpload uploads
      (requestedChunk nodeId (MqttClient.request session seq srcNode data filename)) := by
  obtain ⟨rfl, inside, rfl⟩ := fromFile
  intro u isUpload
  have same : uploads (Cloud.transferKey (toString t.sessionId) nodeId) = some u := isUpload
  rw [known] at same
  obtain rfl := Option.some.inj same
  have limit := holds.fits
  have most : TransferEngine.maxCloudFragments = 8192 := rfl
  refine ⟨?_, ?_⟩
  · change seq < Layout.localExit.chunkCount file.length
    rw [Layout.chunkCount_localExit (by omega)]
    exact inside
  · have short : (fragmentPayload .localExit file seq).length ≤ Mqtt.maxMtu := by
      change (dataFragment file seq).length ≤ _
      rw [dataFragment, List.length_take]
      exact (Nat.min_le_left ..).trans (by decide)
    exact List.take_of_length_le short

/-- The calls of a tick put only such requests into the queue. -/
theorem waiting_outputs (holds : t.Holds file) (known : t.Known uploads nodeId file)
    {outputs : List Output} (fromFile : ∀ output ∈ outputs, output.FromFile t.sessionId file)
    {before after : MqttNode} (called : outputs.foldlM MqttNode.output before = some after)
    (waiting : ∀ req ∈ before.client.waiting, CarriesUpload uploads (requestedChunk nodeId req)) :
    ∀ req ∈ after.client.waiting, CarriesUpload uploads (requestedChunk nodeId req) := by
  induction outputs generalizing before with
  | nil =>
      cases called
      exact waiting
  | cons output rest inductionHypothesis =>
      rw [List.foldlM_cons] at called
      obtain ⟨next, first, called⟩ := Option.bind_eq_some_iff.mp called
      obtain ⟨here, behind⟩ := List.forall_mem_cons.mp fromFile
      refine inductionHypothesis behind called ?_
      unfold MqttNode.output at first
      cases output with
      | toMqtt session seq srcNode data filename queued =>
          dsimp only at first
          split at first
          · cases first
            intro req member
            rcases MqttClient.waiting_publishFragment _ _ _ _ _ _ req member with old | rfl
            · exact waiting req old
            · exact carries_of_fromFile holds known here
          · cases first
      | nackObserved session seq =>
          cases first
          dsimp only
          rw [MqttClient.waiting_markFragmentForRepublish]
          exact waiting
      | sessionEnd session =>
          cases first
          intro req member
          exact waiting req (MqttClient.waiting_clearTransferSession _ session req member)
      | sent | transferMeta | nackRequeued | ackRequeued | transferComplete | exitNodeElected =>
          cases first
          exact waiting

namespace ActiveTransfer.Described

/-- The file with what its transfer says about it. -/
def nodeFile (described : t.Described uploads nodeId addr file) : NodeFile where
  srcNode := addr
  filename := t.filename
  file := file
  layout := .localExit
  small := described.small
  plain := described.plain
  named byte member zero := absurd (described.plain.ordinary byte member) (by rw [zero]; decide)
  noWrap := Nat.lt_of_le_of_lt described.holds.fits (by decide)

/-- What is published about the transfer, from the arguments of `publish_transfer_meta` to the
message that the cloud takes, is true of the file. -/
theorem truthful (described : t.Described uploads nodeId addr file) {F : Type} {x : LocalExit F}
    (node : x.nodeId = nodeId) {m : TransferMeta}
    (told : m = described.nodeFile.transferMeta t.sessionId addr) {outboxSize : Nat}
    {connected : Bool} :
    ∀ event ∈ ((x.node.publishTransferMeta m outboxSize connected).1.bind x.metaOf).toList,
      Truthful uploads event := by
  intro event member
  obtain rfl := described.own
  obtain ⟨message, sent, taken⟩ := Option.bind_eq_some_iff.mp (Option.mem_toList.mp member)
  have text : message = transferMetaJson m := Cloud.message_of_publishTransferMeta sent
  unfold LocalExit.metaOf at taken
  rw [text, told, described.nodeFile.unmarshal_transferMeta described.session described.small,
    Option.map_some, NodeFile.sourceOf_payload] at taken
  obtain rfl := Option.some.inj taken
  refine ⟨t.upload _ file, described.known, ?_⟩
  exact ⟨rfl, rfl, rfl, rfl, rfl, rfl, rfl, described.nodeFile.noWrap⟩

end ActiveTransfer.Described

namespace LocalExit

variable {F : Type} {x y : LocalExit F}

/-- The running transfer is published as what it is. -/
theorem transferMeta_eq (described : t.Described uploads nodeId addr file)
    (address : x.engine.myAddr = addr) (same : x.engine.transfer = t) :
    x.transferMeta = described.nodeFile.transferMeta t.sessionId addr := by
  have limit := described.holds.fits
  have most : TransferEngine.maxCloudFragments = 8192 := rfl
  have wide := dataFragments_eq file.length
  have size : t.size % 2 ^ 32 = file.length := by
    rw [described.holds.size]
    exact Nat.mod_eq_of_lt (by omega)
  have count : t.fragmentCount = Layout.localExit.chunkCount file.length := by
    rw [described.holds.count, Layout.chunkCount_localExit (by omega)]
  have unit := described.holds.fragmentSize
  have checksum := described.holds.crc32
  unfold LocalExit.transferMeta NodeFile.transferMeta
  rw [address, same, size, count, unit, checksum]
  rfl

/-- A start over the own connection publishes the meta of the transfer at once, under the name
that the caller gives. -/
theorem start_spec [PathArith F] {env : Env} {args : TransferEngine.StartArgs} {outboxSize : Nat}
    {connected : Bool} (started : x.start env args outboxSize connected = (true, y))
    (chosen : args.onLocalExit = true) :
    (x.engine.begin_ env).startFileTransfer args = (true, y.engine) ∧
      y.engine.myAddr = x.engine.myAddr ∧ y.engine.transfer.filename = args.filename.take 32 ∧
      y = { x.publishMeta { y.transferMeta with filename := args.filename } outboxSize connected
        with engine := y.engine } := by
  obtain ⟨accepted, rfl⟩ := Prod.mk.inj started
  have engine : (x.engine.begin_ env).startFileTransfer args =
      (true, ((x.engine.begin_ env).startFileTransfer args).2) := Prod.ext accepted rfl
  obtain ⟨address, name, told⟩ := TransferEngine.forwardedMeta_started engine chosen rfl
  refine ⟨engine, address, name, ?_⟩
  change List.filterMap (forwardedMeta x.engine.myAddr) _ = _ at told
  rw [told]
  rfl

/-- The transfer is the one that was started, and all that the node and the cloud have of it is
true of the file. -/
structure Ships (uploads : String → Option Upload) (nodeId : String) (addr : Nat)
    (t : ActiveTransfer) (x : LocalExit F) : Prop where
  node : x.nodeId = nodeId
  running : x.engine.transfer.active = true → x.engine.myAddr = addr ∧
    x.engine.transfer = t ∧ ∀ seq ∈ x.engine.cloudRetxQueue, seq < t.fragmentCount
  waiting : ∀ req ∈ x.node.client.waiting, CarriesUpload uploads (requestedChunk nodeId req)
  inTransit : ∀ event ∈ x.toCloud, Truthful uploads event
  serving : Serving uploads x.cloud

/-- The file can be read, and the messages of other nodes are true of their own uploads. -/
def Action.Fair (uploads : String → Option Upload) (nodeId : String) : Action → Prop
  | .tick env => env.readLimits = []
  | .cloud (.file m) _ => m.nodeId ≠ nodeId → Truthful uploads (.file m)
  | .cloud (.chunk c) _ => c.nodeId ≠ nodeId → Truthful uploads (.chunk c)
  | _ => True

theorem Ships.of_waiting (ships : x.Ships uploads nodeId addr t) {client : MqttClient}
    (fewer : ∀ req ∈ client.waiting, req ∈ x.node.client.waiting) (inbox : CloudInbox) :
    ({ x with node := { client := client, inbox := inbox } } : LocalExit F).Ships uploads nodeId
      addr t :=
  ⟨ships.node, ships.running, fun req member => ships.waiting req (fewer req member),
    ships.inTransit, ships.serving⟩

theorem Ships.publish (ships : x.Ships uploads nodeId addr t) (msgIds : List Int) (fuel : Nat)
    (inbox : CloudInbox) :
    ({ x with
      node := { client := (MqttClient.processLoop fuel msgIds x.node.client).2, inbox := inbox }
      toCloud := x.toCloud ++
        (MqttClient.processLoop fuel msgIds x.node.client).1.filterMap x.chunkOf } :
      LocalExit F).Ships uploads nodeId addr t := by
  obtain ⟨accepted, left⟩ := MqttClient.waiting_processLoop fuel msgIds x.node.client
  refine ⟨ships.node, ships.running, fun req member => ships.waiting req (left req member), ?_,
    ships.serving⟩
  refine List.forall_mem_append.mpr ⟨ships.inTransit, fun event member => ?_⟩
  obtain ⟨req, published, made⟩ := List.mem_filterMap.mp member
  unfold chunkOf at made
  split at made
  · obtain rfl := Option.some.inj made
    have carries := ships.waiting req (accepted req published)
    rw [← ships.node] at carries
    exact carries
  · cases made

/-- The periodic meta describes the file. -/
theorem Ships.publishMeta (ships : x.Ships uploads nodeId addr t)
    (described : t.Described uploads nodeId addr file)
    (active : x.engine.transfer.active = true) (outboxSize : Nat) (connected : Bool) :
    (x.publishMeta x.transferMeta outboxSize connected).Ships uploads nodeId addr t := by
  obtain ⟨address, same, -⟩ := ships.running active
  refine ⟨ships.node, ships.running, fun req member => ?_, ?_, ships.serving⟩
  · exact ships.waiting req
      (MqttClient.waiting_activateTransferSession x.node.client _ req member)
  · exact List.forall_mem_append.mpr ⟨ships.inTransit,
      described.truthful ships.node (transferMeta_eq described address same)⟩

/-- Only what is true of its upload reaches the cloud. -/
theorem Ships.reaches (ships : x.Ships uploads nodeId addr t) {event : Cloud.Engine.Event}
    {now : Int} (fair : Action.Fair uploads nodeId (.cloud event now)) (arrives : x.canReach event = true) :
    Truthful uploads event := by
  cases event with
  | tick => trivial
  | file m =>
      by_cases own : m.nodeId = nodeId
      · apply ships.inTransit
        simpa [canReach, ships.node, own] using arrives
      · exact fair own
  | chunk c =>
      by_cases own : c.nodeId = nodeId
      · apply ships.inTransit
        simpa [canReach, ships.node, own] using arrives
      · exact fair own

theorem Ships.cloudTurn (ships : x.Ships uploads nodeId addr t) {event : Cloud.Engine.Event}
    {now : Int} (fair : Action.Fair uploads nodeId (.cloud event now))
    (ran : x.cloudTurn event now = some y) : y.Ships uploads nodeId addr t := by
  unfold LocalExit.cloudTurn at ran
  split at ran
  · rename_i arrives
    obtain ⟨cloud, handled, rfl⟩ := Option.map_eq_some_iff.mp ran
    obtain ⟨after, served, serving⟩ := ships.serving.handle (ships.reaches fair arrives) now
    obtain rfl := Option.some.inj (handled.symm.trans served)
    refine ⟨ships.node, ships.running, ships.waiting, fun other member => ?_, serving⟩
    exact ships.inTransit other (List.mem_of_mem_erase member)
  · cases ran

section

variable [PathArith F]

theorem Ships.tick (ships : x.Ships uploads nodeId addr t)
    (described : t.Described uploads nodeId addr file) {env : Env}
    (whole : env.readLimits = []) (ran : x.tick env = some y) : y.Ships uploads nodeId addr t := by
  unfold LocalExit.tick at ran
  split at ran
  · rename_i serves
    rw [Bool.and_eq_true] at serves
    obtain ⟨address, same, queued⟩ := ships.running serves.1
    obtain ⟨node, called, rfl⟩ := Option.map_eq_some_iff.mp ran
    have ticking : TransferEngine.TickUploads addr t file (x.drained env) :=
      ⟨address, same, whole, queued, List.forall_mem_nil _⟩
    obtain ⟨outputs, goesOn⟩ := ticking.tickLocalExitArq described.holds
    refine ⟨ships.node, goesOn, ?_, ships.inTransit, ships.serving⟩
    refine waiting_outputs described.holds described.known (fun output member => ?_) called
      ships.waiting
    exact outputs output (List.mem_reverse.mp member)
  · cases ran

theorem Ships.step (ships : x.Ships uploads nodeId addr t)
    (described : t.Described uploads nodeId addr file) {action : Action}
    (fair : action.Fair uploads nodeId)
    (ran : x.step action = some y) : y.Ships uploads nodeId addr t := by
  cases action with
  | tick env => exact ships.tick described fair ran
  | publish connected msgIds =>
      cases ran
      unfold MqttClient.processFragmentPublish
      split
      · exact ships.publish msgIds _ x.node.inbox
      · refine ⟨ships.node, ships.running, ships.waiting, ?_, ships.serving⟩
        exact List.forall_mem_append.mpr ⟨ships.inTransit, List.forall_mem_nil _⟩
  | announce outboxSize connected =>
      simp only [LocalExit.step] at ran
      split at ran
      · rename_i serves
        rw [Bool.and_eq_true] at serves
        cases ran
        exact ships.publishMeta described serves.1 outboxSize connected
      · cases ran
  | activate sessionId =>
      cases ran
      exact ships.of_waiting (MqttClient.waiting_activateTransferSession _ _) _
  | clear sessionId =>
      cases ran
      exact ships.of_waiting (MqttClient.waiting_clearTransferSession _ _) _
  | cloud event now => exact ships.cloudTurn fair ran
  | lose event =>
      cases ran
      exact ⟨ships.node, ships.running, ships.waiting,
        fun other member => ships.inTransit other (List.mem_of_mem_erase member), ships.serving⟩
  | deliver message =>
      simp only [LocalExit.step] at ran
      split at ran
      · cases ran
        exact ⟨ships.node, ships.running, ships.waiting, ships.inTransit, ships.serving⟩
      · cases ran

theorem Ships.run (ships : x.Ships uploads nodeId addr t)
    (described : t.Described uploads nodeId addr file) {actions : List Action}
    (fair : ∀ action ∈ actions, action.Fair uploads nodeId) (ran : x.run actions = some y) :
    y.Ships uploads nodeId addr t := by
  induction actions generalizing x with
  | nil =>
      cases ran
      exact ships
  | cons action rest inductionHypothesis =>
      obtain ⟨here, behind⟩ := List.forall_mem_cons.mp fair
      unfold LocalExit.run at ran
      rw [List.foldlM_cons] at ran
      obtain ⟨next, stepped, ran⟩ := Option.bind_eq_some_iff.mp ran
      exact inductionHypothesis (ships.step described here stepped) behind ran

/-- The caller uploads this file over the node's own connection, under a name that JSON leaves
as it is and that the record holds whole. -/
structure Asks (args : TransferEngine.StartArgs) (file : List UInt8) : Prop where
  chosen : args.onLocalExit = true
  reads : args.readChunk = slice file
  size : args.size = file.length
  fits : dataFragments file.length ≤ TransferEngine.maxCloudFragments
  plain : PlainText args.filename
  short : args.filename.length ≤ 32

/-- The node has just started to send the file.  What waited in its queue and was on its way
before is true of earlier uploads, and so was all that the cloud has seen. -/
structure Begins (uploads : String → Option Upload) (file : List UInt8) (before x : LocalExit F) :
    Prop where
  started : ∃ env args outboxSize connected, Asks args file ∧ env.readLimits = [] ∧
    before.start env args outboxSize connected = (true, x)
  known : x.engine.transfer.Known uploads x.nodeId file
  small : before.engine.myAddr < 2 ^ 16
  own : before.nodeId = Cloud.formatHex4 before.engine.myAddr
  waiting : ∀ req ∈ before.node.client.waiting,
    CarriesUpload uploads (requestedChunk before.nodeId req)
  inTransit : ∀ event ∈ before.toCloud, Truthful uploads event
  cloud : ∃ srWindow srTimeout turns, (∀ turn ∈ turns, Truthful uploads turn.1) ∧
    (Cloud.newEngine srWindow srTimeout).run turns = some before.cloud

/-- The meta that the start publishes is true of the file, too. -/
theorem Begins.ships {before : LocalExit F} (begins : Begins uploads file before x) :
    x.engine.transfer.Described uploads x.nodeId x.engine.myAddr file ∧
      x.Ships uploads x.nodeId x.engine.myAddr x.engine.transfer := by
  obtain ⟨env, args, outboxSize, connected, asks, whole, started⟩ := begins.started
  obtain ⟨engine, address, name, xEq⟩ := start_spec started asks.chosen
  obtain ⟨holds, none⟩ := TransferEngine.holds_of_started engine asks.chosen asks.reads asks.size
    asks.fits whole
  have node : x.nodeId = before.nodeId := (congrArg LocalExit.nodeId xEq :)
  have sameName : x.engine.transfer.filename = args.filename :=
    name.trans (List.take_of_length_le asks.short)
  have described : x.engine.transfer.Described uploads x.nodeId x.engine.myAddr file :=
    { holds := holds
      known := begins.known
      session := (TransferEngine.numbers_of_started engine asks.chosen).2.1
      plain := sameName ▸ asks.plain
      small := address ▸ begins.small
      own := by rw [node, address, begins.own] }
  obtain ⟨srWindow, srTimeout, turns, truthful, built⟩ := begins.cloud
  obtain ⟨cloud, same, serving⟩ :=
    (Cloud.Engine.serving_newEngine uploads srWindow srTimeout).run turns truthful
  obtain rfl := Option.some.inj (built.symm.trans same)
  have told : { x.transferMeta with filename := args.filename } =
      described.nodeFile.transferMeta x.engine.transfer.sessionId x.engine.myAddr := by
    rw [← sameName]
    exact transferMeta_eq described rfl rfl
  refine ⟨described, rfl, fun _ => ⟨rfl, rfl, ?_⟩, ?_, ?_, ?_⟩
  · rw [none]
    exact List.forall_mem_nil _
  · rw [xEq]
    intro req member
    exact begins.waiting req
      (MqttClient.waiting_activateTransferSession before.node.client _ req member)
  · rw [xEq]
    refine List.forall_mem_append.mpr ⟨begins.inTransit, ?_⟩
    exact described.truthful node.symm told
  · have unchanged : x.cloud = before.cloud := (congrArg LocalExit.cloud xEq :)
    rw [unchanged]
    exact serving

/-- Whatever is lost, sent again and overtaken on the way, however often the cloud asks for
fragments and whatever other nodes upload: no message of the node makes the cloud panic, and
every file that the cloud saves is the one uploaded, this node's file among them. -/
theorem local_exit_saves_its_file {before x y : LocalExit F} {file : List UInt8}
    (begins : Begins uploads file before x) {actions : List Action}
    (fair : ∀ action ∈ actions, action.Fair uploads x.nodeId) (ran : x.run actions = some y) :
    (∀ event ∈ y.toCloud, ∀ now, (y.cloud.handle event now).isSome = true) ∧
      ∀ node name content, .save node name content ∈ y.cloud.trace →
        ∃ s u, .started s ∈ y.cloud.trace ∧ uploads s.key = some u ∧
          u.nodeId = node ∧ u.filename = name ∧ u.file = content ∧
          (s.key = Cloud.transferKey (toString x.engine.transfer.sessionId) x.nodeId →
            name = x.fileMeta.filename ∧ content = file) := by
  obtain ⟨described, start⟩ := begins.ships
  have ships := start.run described fair ran
  refine ⟨fun event member now => ?_, fun node name content saved => ?_⟩
  · obtain ⟨after, handled, -⟩ := ships.serving.handle (ships.inTransit event member) now
    rw [handled]
    rfl
  · obtain ⟨s, u, begun, isUpload, isNode, isName, isFile⟩ :=
      ships.serving.uploading.saves.files node name content saved
    refine ⟨s, u, begun, isUpload, isNode, isName, isFile, fun own => ?_⟩
    rw [own, begins.known] at isUpload
    rw [← isName, ← isFile, ← Option.some.inj isUpload]
    exact ⟨rfl, rfl⟩

end

/-! ## A file of one byte -/

def sevenArgs : TransferEngine.StartArgs where
  filename := ascii "f"
  size := 1
  readChunk := slice [7]
  hasInternet := true
  hasMqtt := true

def seven : LocalExit ℚ := (idleNine.start { random := 300 } sevenArgs 0 true).2

def sevenUploads (key : String) : Option Upload :=
  if key = "0009|300" then some (seven.engine.transfer.upload "0009" [7]) else none

theorem asks_seven : Asks sevenArgs [7] where
  chosen := rfl
  reads := rfl
  size := rfl
  fits := by decide
  plain := PlainText.of_ascii (by decide +kernel)
  short := by decide

theorem begins_seven : Begins sevenUploads [7] idleNine seven where
  started := ⟨_, _, _, _, asks_seven, rfl, Prod.ext (by decide +kernel) rfl⟩
  known := if_pos (by decide +kernel)
  small := by decide
  own := by decide +kernel
  waiting := List.forall_mem_nil _
  inTransit := List.forall_mem_nil _
  cloud := ⟨64, 2, [], List.forall_mem_nil _, rfl⟩

/-- The meta of the start arrives, and the chunk after a later meta. -/
def sevenRun : List Action :=
  [.cloud (.file seven.fileMeta) 1000, .tick {}, .announce 0 true,
    .cloud (.file seven.fileMeta) 1500, .publish true [1],
    .cloud (.chunk { nodeId := "0009", sessionId := 300, seqNum := 0, data := [7] }) 2000]

theorem local_exit_saves_its_file_one_byte : ∃ y, seven.run sevenRun = some y ∧
    .save "0009" "f" [7] ∈ y.cloud.trace ∧
    ∀ node name content, .save node name content ∈ y.cloud.trace →
      ∃ u : Upload, u.nodeId = node ∧ u.filename = name ∧ u.file = content := by
  have reached : (seven.run sevenRun).any (fun y =>
      y.cloud.trace.contains (.save "0009" "f" [7])) = true := by
    decide +kernel
  obtain ⟨y, ran, saved⟩ := (Option.any_eq_true ..).mp reached
  rw [List.contains_iff_mem] at saved
  refine ⟨y, ran, saved, fun node name content isSaved => ?_⟩
  have fair : ∀ action ∈ sevenRun, action.Fair sevenUploads seven.nodeId := by
    intro action member
    simp only [sevenRun, List.mem_cons, List.not_mem_nil, or_false] at member
    rcases member with rfl | rfl | rfl | rfl | rfl | rfl
    · exact fun foreign => absurd rfl foreign
    · rfl
    · trivial
    · exact fun foreign => absurd rfl foreign
    · trivial
    · exact fun foreign => absurd rfl foreign
  obtain ⟨-, saves⟩ := local_exit_saves_its_file begins_seven fair ran
  obtain ⟨s, u, -, -, isNode, isName, isFile, -⟩ := saves node name content isSaved
  exact ⟨u, isNode, isName, isFile⟩

end LocalExit

end ForestLink.Mesh
