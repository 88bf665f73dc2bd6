/-
Module: ForestLink.Proofs.SerialUpload
Purpose: A file that the host sends over the serial port reaches the transfer engine whole: every
  frame is answered once, and the transfer that FILE_END asks for reads the file.
Trusted boundary: none
Main exports: uploadFrames, Filling, Stage, SerialLoop.Uploads, commands_answered_in_order,
  serial_upload_reaches_engine
-/
import ForestLink.Proofs.IngestStorage
import ForestLink.Proofs.UartFraming
import ForestLink.Uart.SerialLoop

namespace ForestLink.Uart

open ForestLink.Lib
open ForestLink.Mesh
open ForestLink.Protocol

/-! ## The frames of an upload -/

def beginFrame (name : List UInt8) (size : Nat) : UartFrame where
  cmd := cmdFileBegin
  payload := writeLe size 4 ++ name

def dataFrame (chunk : List UInt8) : UartFrame where
  cmd := cmdFileData
  payload := chunk

def endFrame : UartFrame where
  cmd := cmdFileEnd
  payload := []

/-- What the host sends for a file that it has cut into chunks. -/
def uploadFrames (name : List UInt8) (chunks : List (List UInt8)) : List UartFrame :=
  beginFrame name chunks.flatten.length :: (chunks.map dataFrame ++ [endFrame])

/-- An answer to a command, as against an event. -/
def UartFrame.isAnswer (frame : UartFrame) : Bool :=
  frame.cmd == respAck || frame.cmd == respNack || frame.cmd == respStatus

/-- The frame is the answer to this command. -/
def UartFrame.Replies (reply command : UartFrame) : Prop :=
  (reply.cmd = respAck ∨ reply.cmd = respNack) ∧ reply.payload.head? = some command.cmd ∨
    reply.cmd = respStatus ∧ command.cmd = cmdStatus

theorem UartFrame.Replies.isAnswer {reply command : UartFrame} (replies : reply.Replies command) :
    reply.isAnswer = true := by
  rcases replies with ⟨ack | nack, _⟩ | ⟨status, _⟩
  · simp [UartFrame.isAnswer, ack]
  · simp [UartFrame.isAnswer, nack]
  · simp [UartFrame.isAnswer, status]

/-- Every command has its answer, also one that the node does not know. -/
theorem handleFrame_replies {F : Type} (config : UartConfig) (i : UartIngest)
    (e : TransferEngine F) (frame : UartFrame) (env : HandleEnv) :
    (handleFrame config i e frame env).1.Replies frame ∧
      (handleFrame config i e frame env).1.payload.length ≤ payloadBufSize := by
  have answered : ∀ result, (answer frame.cmd result).Replies frame ∧
      (answer frame.cmd result).payload.length ≤ payloadBufSize := by
    intro result
    cases result
    case ok => exact ⟨.inl ⟨.inl rfl, rfl⟩, by simp [answer, sendAck, payloadBufSize]⟩
    all_goals exact ⟨.inl ⟨.inr rfl, rfl⟩, by simp [answer, sendNack, payloadBufSize]⟩
  have refused : ∀ error, (sendNack frame.cmd error).Replies frame ∧
      (sendNack frame.cmd error).payload.length ≤ payloadBufSize :=
    fun error => ⟨.inl ⟨.inr rfl, rfl⟩, by simp [sendNack, payloadBufSize]⟩
  unfold handleFrame
  split
  · rename_i isBegin
    rw [← isBegin]
    split
    · exact refused _
    · exact answered _
  split
  · rename_i isData
    rw [← isData]
    exact answered _
  split
  · rename_i isEnd
    rw [← isEnd]
    exact answered _
  split
  · rename_i isStatus
    exact ⟨.inr ⟨rfl, isStatus⟩, by simp [StatusResp.toBytes, writeLe, payloadBufSize]⟩
  split
  · rename_i isAbort
    rw [← isAbort]
    exact answered _
  · exact refused _

theorem length_sendFrame (frame : UartFrame) :
    (sendFrame frame).length = 5 + frame.payload.length := by
  simp [sendFrame, writeLe]
  omega

namespace FrameParser

variable {p : FrameParser}

theorem feed_concat (p : FrameParser) (front back : List UInt8) :
    p.feed (front ++ back) =
      (((p.feed front).1.feed back).1, (p.feed front).2 ++ ((p.feed front).1.feed back).2) :=
  Mealy.feed_append receive p front back

theorem Cleared.feed_frames (cleared : p.Cleared) {frames : List UartFrame}
    (fits : ∀ frame ∈ frames, frame.payload.length ≤ payloadBufSize) :
    (p.feed (frames.flatMap sendFrame)).2 = frames := by
  have blocks := Mealy.feed_blocks sendFrame id
    (fun frame member q (rest : FrameParser.Cleared q) => rest.feed_frame (fits frame member))
    cleared
  rw [List.map_id] at blocks
  exact blocks.2

/-- The last frame is not complete before its last byte. -/
theorem Cleared.last_byte (cleared : p.Cleared) {frames : List UartFrame}
    (fits : ∀ frame ∈ frames, frame.payload.length ≤ payloadBufSize) {front : List UInt8}
    {last : UInt8} (bytes : front ++ [last] = frames.flatMap sendFrame) :
    ((p.feed front).1.feed [last]).2 ≠ [] := by
  intro nothing
  have all := cleared.feed_frames fits
  rw [← bytes, feed_concat, nothing, List.append_nil] at all
  have paid := Mealy.feed_potential taken (fun frame : UartFrame => 5 + frame.payload.length)
    (fun q byte (sound : Sound q) => sound.receive byte)
    (fun q byte (sound : Sound q) => sound.receive_taken byte) cleared.sound front
  have total : (frames.flatMap sendFrame).length =
      (frames.map fun frame => 5 + frame.payload.length).sum := by
    rw [List.length_flatMap]
    congr 1
    exact List.map_congr_left fun frame _ => length_sendFrame frame
  have none : p.taken = 0 := by
    unfold taken
    rw [cleared.state]
  change ((p.feed front).2.map _).sum + (p.feed front).1.taken ≤ p.taken + front.length at paid
  rw [all, none, ← total, ← bytes, List.length_append, List.length_singleton] at paid
  omega

end FrameParser

/-! ## The ingest -/

namespace UartIngest

variable {config : UartConfig} {i : UartIngest} {name bytes : List UInt8} {size : Nat}

/-- There is room for whatever the host sends, and every `fwrite` is complete. -/
structure Grants (config : UartConfig) (handle : UartFrame → HandleEnv) : Prop where
  room : ∀ frame, (handle frame).begin.psram = true ∨ config.sdEnabled = true ∧
    (handle frame).begin.sdInit = true ∧ (handle frame).begin.opened = true
  whole : ∀ frame, (handle frame).wrote = frame.payload.length

/-- An ingest of a file that has taken in these bytes. -/
structure Filling (config : UartConfig) (i : UartIngest) (name : List UInt8) (size : Nat)
    (bytes : List UInt8) : Prop where
  ingests : ∃ resource, Ingests config i bytes resource
  open_ : Open i
  waiting : i.transferStarted = false
  sized : i.ingestSize = size
  named : i.filename = name

/-- A node that can take up an ingest: it has none, or one whose transfer has not started. -/
structure Ready (config : UartConfig) (i : UartIngest) : Prop where
  sane : Idle i ∨ ∃ bytes resource, Ingests config i bytes resource
  waiting : i.transferStarted = false

theorem fileBegin_granted (waiting : i.transferStarted = false) (name : List UInt8)
    (filled : size ≠ 0) (fits : size ≤ config.ingestMaxSize) {env : BeginEnv}
    (room : env.psram = true ∨ config.sdEnabled = true ∧ env.sdInit = true ∧ env.opened = true) :
    (i.fileBegin config size name env).1 = .ok ∧
      (i.fileBegin config size name env).2.ingestSize = size ∧
      (i.fileBegin config size name env).2.filename = name.take 63 := by
  have accepted : ¬ (size = 0 ∨ config.ingestMaxSize < size) :=
    not_or.mpr ⟨filled, Nat.not_lt.mpr fits⟩
  unfold fileBegin
  rw [if_neg (by simp [waiting])]
  dsimp only
  rw [if_neg accepted]
  by_cases psram : env.psram = true
  · rw [if_pos psram]
    exact ⟨rfl, rfl, rfl⟩
  · obtain ⟨enabled, mounted, opened⟩ := room.resolve_left psram
    rw [if_neg psram, if_neg (by simp [enabled]), if_neg (by simp [mounted])]
    unfold beginSpool
    dsimp only
    rw [if_pos opened]
    exact ⟨rfl, rfl, rfl⟩

theorem Ready.begins (ready : Ready config i) (name : List UInt8) (filled : size ≠ 0)
    (fits : size ≤ config.ingestMaxSize) {env : BeginEnv}
    (room : env.psram = true ∨ config.sdEnabled = true ∧ env.sdInit = true ∧ env.opened = true) :
    (i.fileBegin config size name env).1 = .ok ∧
      Filling config (i.fileBegin config size name env).2 (name.take 63) size [] := by
  obtain ⟨taken, sized, named⟩ :=
    fileBegin_granted ready.waiting name filled fits room
  have outcome := begins_fileBegin ready.sane size name env
  generalize i.fileBegin config size name env = result at taken sized named outcome ⊢
  cases outcome with
  | busy started => cases taken
  | refused _ idle => cases taken
  | accepted _ ingests open_ kept => exact ⟨rfl, ⟨_, ingests⟩, open_, kept, sized, named⟩

theorem fileData_fields (i : UartIngest) (data : List UInt8) (wrote : Nat) :
    (i.fileData data wrote).2.ingestSize = i.ingestSize ∧
      (i.fileData data wrote).2.filename = i.filename := by
  unfold fileData
  repeat' split
  all_goals exact ⟨rfl, rfl⟩

theorem Filling.data (filling : Filling config i name size bytes) {data : List UInt8}
    (room : bytes.length + data.length ≤ size) :
    (i.fileData data data.length).1 = .ok ∧
      Filling config (i.fileData data data.length).2 name size (bytes ++ data) := by
  obtain ⟨resource, ingests⟩ := filling.ingests
  have taken : (i.fileData data data.length).1 = .ok := by
    have fits : ¬ i.ingestSize < i.receivedSize + data.length := by
      rw [filling.sized, ingests.received]
      exact Nat.not_lt.mpr room
    unfold fileData
    rw [if_neg (by simp [ingests.active]), if_neg (by simp [filling.waiting]), if_neg fits]
    cases ingests.stored with
    | psram onCard buf _ _ _ =>
        rw [if_neg (by simp [onCard]), buf]
    | spool _ onCard _ _ _ _ =>
        obtain ⟨path, isOpen⟩ := Option.isSome_iff_exists.mp (filling.open_ onCard)
        rw [if_pos onCard, isOpen]
        simp
  obtain ⟨sized, named⟩ := fileData_fields i data data.length
  have outcome := ingests.data data data.length
  generalize i.fileData data data.length = result at taken sized named outcome ⊢
  cases outcome with
  | refused failed => exact absurd taken failed
  | torn => cases taken
  | accepted _ same stored =>
      refine ⟨rfl, ⟨resource, stored⟩, fun onCard => ?_, same.started.trans filling.waiting,
        sized.trans filling.sized, named.trans filling.named⟩
      rw [same.file]
      exact filling.open_ (same.onCard ▸ onCard)

/-- FILE_END asks the engine for a transfer of the file. -/
theorem Filling.ends {F : Type} (filling : Filling config i name size bytes)
    (e : TransferEngine F) (env : EndEnv) :
    let started := (e.setEnv env.env).startFileTransfer (fileArgs name bytes env)
    (i.fileEnd config e env).1 = (if started.1 then .ok else .errNoTransfer) ∧
      (i.fileEnd config e env).2.2.1 = started.2 := by
  obtain ⟨resource, ingests⟩ := filling.ingests
  have outcome := ingests.ends e env
  obtain rfl := filling.named
  generalize i.fileEnd config e env = result at outcome ⊢
  cases outcome with
  | busy started => exact absurd filling.waiting (by simp [started])
  | closed _ shut => exact absurd filling.open_ shut
  | refused _ refusal => exact ⟨by simp [refusal], rfl⟩
  | started _ _ begun => exact ⟨by simp [begun], rfl⟩

end UartIngest

/-! ## The loop -/

/-- The answers to the frames that have been handled. -/
def uploadAnswers (done : Nat) : List UartFrame :=
  sendAck cmdFileBegin :: List.replicate done (sendAck cmdFileData)

/-- How far the upload is, by the ingest, the answers sent and the frames to come. -/
inductive Stage (config : UartConfig) (name : List UInt8) (chunks : List (List UInt8))
    (i : UartIngest) : List UartFrame → List UartFrame → Prop
  | fresh (ready : UartIngest.Ready config i) :
      Stage config name chunks i [] (uploadFrames name chunks)
  | filling (done rest : List (List UInt8)) (split : done ++ rest = chunks)
      (filling : UartIngest.Filling config i (name.take 63) chunks.flatten.length done.flatten) :
      Stage config name chunks i (uploadAnswers done.length) (rest.map dataFrame ++ [endFrame])

/-- What the host sends can be taken in by the node. -/
structure Acceptable (config : UartConfig) (name : List UInt8) (chunks : List (List UInt8)) :
    Prop where
  named : name ≠ []
  printable : ∀ c ∈ name, c ≠ 0
  nameFits : name.length + 4 ≤ payloadBufSize
  filled : chunks.flatten ≠ []
  sizeFits : chunks.flatten.length ≤ config.ingestMaxSize
  sizeEncodes : chunks.flatten.length < 2 ^ 32
  chunkFits : ∀ chunk ∈ chunks, chunk.length ≤ payloadBufSize

theorem length_beginFrame (name : List UInt8) (size : Nat) :
    (beginFrame name size).payload.length = name.length + 4 := by
  simp [beginFrame, writeLe]

theorem Acceptable.fits {config : UartConfig} {name : List UInt8} {chunks : List (List UInt8)}
    (acceptable : Acceptable config name chunks) :
    ∀ frame ∈ uploadFrames name chunks, frame.payload.length ≤ payloadBufSize := by
  intro frame member
  rcases List.mem_cons.mp member with rfl | rest
  · rw [length_beginFrame]
    exact acceptable.nameFits
  rcases List.mem_append.mp rest with isData | isEnd
  · obtain ⟨chunk, known, rfl⟩ := List.mem_map.mp isData
    exact acceptable.chunkFits chunk known
  · rw [List.mem_singleton.mp isEnd]
    exact Nat.zero_le _

variable {F : Type} {config : UartConfig} {name : List UInt8}
  {chunks : List (List UInt8)}

theorem handleFrame_begin (config : UartConfig) (i : UartIngest) (e : TransferEngine F)
    (acceptable : Acceptable config name chunks) (env : HandleEnv) :
    handleFrame config i e (beginFrame name chunks.flatten.length) env =
      (answer cmdFileBegin (i.fileBegin config chunks.flatten.length (name.take 63) env.begin).1,
        (i.fileBegin config chunks.flatten.length (name.take 63) env.begin).2, e, none) := by
  have long : ¬ (beginFrame name chunks.flatten.length).payload.length < 5 := by
    have some := List.length_pos_iff.mpr acceptable.named
    rw [length_beginFrame]
    omega
  have size : readLe (beginFrame name chunks.flatten.length).payload 0 4 =
      chunks.flatten.length := by
    have read := readLe_writeLe [] name chunks.flatten.length 4
    rw [List.nil_append, List.length_nil] at read
    exact read.trans (Nat.mod_eq_of_lt acceptable.sizeEncodes)
  have filename : beginFilename (beginFrame name chunks.flatten.length).payload =
      name.take 63 := by
    have behind : (beginFrame name chunks.flatten.length).payload.drop 4 = name := rfl
    have whole : name.takeWhile (· ≠ 0) = name :=
      List.takeWhile_eq_self_iff.mpr fun c member => by simpa using acceptable.printable c member
    rw [beginFilename, behind, whole]
  have isBegin : (beginFrame name chunks.flatten.length).cmd = cmdFileBegin := rfl
  unfold handleFrame
  rw [if_pos isBegin, if_neg long, size, filename]

theorem handleFrame_data (config : UartConfig) (i : UartIngest) (e : TransferEngine F)
    (chunk : List UInt8) (env : HandleEnv) :
    handleFrame config i e (dataFrame chunk) env =
      (answer cmdFileData (i.fileData chunk env.wrote).1, (i.fileData chunk env.wrote).2, e,
        none) := by
  have isData : (dataFrame chunk).cmd = cmdFileData := rfl
  unfold handleFrame
  rw [isData, if_neg (by decide), if_pos rfl]
  rfl

theorem handleFrame_end (config : UartConfig) (i : UartIngest) (e : TransferEngine F)
    (env : HandleEnv) :
    handleFrame config i e endFrame env =
      (answer cmdFileEnd (i.fileEnd config e env.endEnv).1, (i.fileEnd config e env.endEnv).2) := by
  have isEnd : endFrame.cmd = cmdFileEnd := rfl
  unfold handleFrame
  rw [isEnd, if_neg (by decide), if_neg (by decide), if_pos rfl]

/-- A frame of the upload other than the last one. -/
theorem Stage.handle (acceptable : Acceptable config name chunks) {i : UartIngest}
    {answered left : List UartFrame} {frame next : UartFrame}
    (stage : Stage config name chunks i answered (frame :: next :: left))
    {handle : UartFrame → HandleEnv} (grants : UartIngest.Grants config handle)
    (e : TransferEngine F) :
    ∃ reply after, handleFrame config i e frame (handle frame) = (reply, after, e, none) ∧
      Stage config name chunks after (answered ++ [reply]) (next :: left) ∧
      reply.isAnswer = true := by
  generalize all : frame :: next :: left = frames at stage
  cases stage with
  | fresh ready =>
      obtain ⟨rfl, behind⟩ := List.cons.inj all
      have filled := List.length_pos_iff.mpr acceptable.filled
      obtain ⟨taken, filling⟩ := ready.begins (name.take 63) (Nat.ne_of_gt filled)
        acceptable.sizeFits (grants.room _)
      rw [List.take_take, Nat.min_self] at filling
      refine ⟨_, _, handleFrame_begin config i e acceptable _, ?_, ?_⟩
      · rw [taken, behind]
        exact .filling [] chunks rfl filling
      · rw [taken]
        rfl
  | filling done rest split filling =>
      cases rest with
      | nil => cases all
      | cons chunk rest =>
          obtain ⟨rfl, behind⟩ := List.cons.inj all
          have room : done.flatten.length + chunk.length ≤ chunks.flatten.length := by
            rw [← split, List.flatten_append, List.length_append, List.flatten_cons,
              List.length_append]
            omega
          obtain ⟨taken, filled⟩ := filling.data room
          have whole : (handle (dataFrame chunk)).wrote = chunk.length := grants.whole _
          rw [← whole] at taken filled
          refine ⟨_, _, handleFrame_data config i e chunk _, ?_, ?_⟩
          · rw [taken, behind]
            have further : uploadAnswers done.length ++ [sendAck cmdFileData] =
                uploadAnswers (done ++ [chunk]).length := by
              rw [uploadAnswers, uploadAnswers, List.length_append, List.length_singleton,
                List.replicate_succ', List.cons_append]
            refine further ▸ .filling (done ++ [chunk]) rest ?_ ?_
            · rw [List.append_assoc, List.singleton_append, split]
            · rw [List.flatten_append, List.flatten_singleton]
              exact filled
          · rw [taken]
            rfl

/-- What `poll_transfer_progress` sends is a short event. -/
theorem poll_frame {i : UartIngest} {e : TransferEngine F} {nowMs : Nat} {frame : UartFrame}
    (sent : (i.pollTransferProgress config e nowMs).1 = some frame) :
    frame.isAnswer = false ∧ frame.payload.length ≤ 5 := by
  unfold UartIngest.pollTransferProgress at sent
  split at sent
  · cases sent
  split at sent
  · dsimp only at sent
    split at sent
    · cases sent
      exact ⟨rfl, by simp⟩
    · cases sent
  · cases sent
    exact ⟨rfl, by simp [UartIngest.completeFrame, writeLe]⟩

theorem Stage.waiting {i : UartIngest} {answered left : List UartFrame}
    (stage : Stage config name chunks i answered left) : i.transferStarted = false := by
  cases stage with
  | fresh ready => exact ready.waiting
  | filling done rest split filling => exact filling.waiting

namespace SerialLoop

variable {s : SerialLoop F}

/-- The answers among the frames sent. -/
def answers (s : SerialLoop F) : List UartFrame := s.sent.filter UartFrame.isAnswer

/-- A step that sends short frames, with these answers among them. -/
def Sends (s after : SerialLoop F) (replies : List UartFrame) : Prop :=
  ∃ frames, after.sent = s.sent ++ frames ∧ frames.filter UartFrame.isAnswer = replies ∧
    ∀ frame ∈ frames, frame.payload.length ≤ payloadBufSize

theorem Sends.trans {first second third : SerialLoop F} {replies others : List UartFrame}
    (left : first.Sends second replies) (right : second.Sends third others) :
    first.Sends third (replies ++ others) := by
  obtain ⟨frames, sent, rfl, short⟩ := left
  obtain ⟨further, after, rfl, others⟩ := right
  refine ⟨frames ++ further, ?_, List.filter_append frames further, ?_⟩
  · rw [after, sent, List.append_assoc]
  · exact List.forall_mem_append.mpr ⟨short, others⟩

theorem Sends.answers {after : SerialLoop F} {replies : List UartFrame}
    (sends : s.Sends after replies) : after.answers = s.answers ++ replies := by
  obtain ⟨frames, sent, rfl, -⟩ := sends
  rw [SerialLoop.answers, sent, List.filter_append]
  rfl

theorem sends_nothing {after : SerialLoop F} (same : after.sent = s.sent) : s.Sends after [] :=
  ⟨[], same.trans (List.append_nil _).symm, rfl, List.forall_mem_nil _⟩

/-- Events are no answers. -/
theorem sends_events {after : SerialLoop F} {events : List UartFrame}
    (sent : after.sent = s.sent ++ events) (none : ∀ frame ∈ events, frame.isAnswer = false)
    (short : ∀ frame ∈ events, frame.payload.length ≤ 64) : s.Sends after [] := by
  refine ⟨events, sent, ?_, fun frame member => (short frame member).trans (by decide)⟩
  exact List.filter_eq_nil_iff.mpr fun frame member => by simp [none frame member]

/-- What the polls leave alone. -/
structure Polled (s after : SerialLoop F) : Prop where
  config : after.config = s.config
  engine : after.engine = s.engine
  parser : after.parser = s.parser
  sends : s.Sends after []

theorem Polled.trans {first second third : SerialLoop F} (left : Polled first second)
    (right : Polled second third) : Polled first third :=
  ⟨right.config.trans left.config, right.engine.trans left.engine,
    right.parser.trans left.parser, left.sends.trans right.sends⟩

theorem polled_pollTransferProgress (s : SerialLoop F) (nowMs : Nat) :
    Polled s (s.pollTransferProgress nowMs) := by
  refine ⟨rfl, rfl, rfl, sends_events rfl ?_ ?_⟩
  · intro frame member
    exact (poll_frame (Option.mem_toList.mp member)).1
  · intro frame member
    exact (poll_frame (Option.mem_toList.mp member)).2.trans (by decide)

theorem polled_pollMeshState (s : SerialLoop F) (nowMs : Nat) (hops neighbors : UInt8) :
    Polled s (s.pollMeshState nowMs hops neighbors) ∧
      (s.pollMeshState nowMs hops neighbors).ingest = s.ingest := by
  unfold pollMeshState
  split
  · exact ⟨⟨rfl, rfl, rfl, sends_nothing rfl⟩, rfl⟩
  dsimp only
  split
  · refine ⟨⟨rfl, rfl, rfl, sends_events rfl ?_ ?_⟩, rfl⟩
    · intro frame member
      rw [List.mem_singleton.mp member]
      rfl
    · intro frame member
      rw [List.mem_singleton.mp member]
      simp [meshStateFrame]
  · exact ⟨⟨rfl, rfl, rfl, sends_nothing rfl⟩, rfl⟩

theorem polled_drainEventQueue (s : SerialLoop F) :
    Polled s s.drainEventQueue ∧ s.drainEventQueue.ingest = s.ingest := by
  refine ⟨⟨rfl, rfl, rfl, sends_events rfl ?_ ?_⟩, rfl⟩
  · intro frame member
    obtain ⟨event, -, rfl⟩ := List.mem_map.mp member
    rfl
  · intro frame member
    obtain ⟨event, -, rfl⟩ := List.mem_map.mp member
    exact event.fits

theorem polled_behind (s : SerialLoop F) (r : Round) :
    Polled s (((s.pollTransferProgress r.nowMs).pollMeshState r.meshNowMs r.hops
      r.neighbors).drainEventQueue) :=
  (polled_pollTransferProgress s r.nowMs).trans
    ((polled_pollMeshState _ r.meshNowMs r.hops r.neighbors).1.trans (polled_drainEventQueue _).1)

theorem sends_receiveByte (s : SerialLoop F) (byte : UInt8) (handle : UartFrame → HandleEnv) :
    ∃ replies, s.Sends (s.receiveByte byte handle) replies ∧
      List.Forall₂ UartFrame.Replies replies (s.parser.receive byte).2.toList := by
  unfold receiveByte
  dsimp only
  split
  · rename_i parsed
    rw [parsed]
    exact ⟨[], sends_nothing rfl, .nil⟩
  · rename_i frame parsed
    obtain ⟨replies, short⟩ :=
      handleFrame_replies s.config s.ingest s.bound frame (handle frame)
    rw [parsed]
    refine ⟨_, ⟨_, rfl, ?_, List.forall_mem_singleton.mpr short⟩, .cons replies .nil⟩
    rw [List.filter_singleton, replies.isAnswer]
    rfl

/-- A loop in the middle of an upload: the frames that `bytes` will bring are those to come. -/
structure Uploads (config : UartConfig) (name : List UInt8) (chunks : List (List UInt8))
    (s : SerialLoop F) (bytes : List UInt8) : Prop where
  built : s.config = config
  stage : Stage config name chunks s.ingest s.answers (s.parser.feed bytes).2

theorem Uploads.polled {after : SerialLoop F} {bytes : List UInt8}
    (uploads : s.Uploads config name chunks bytes) (polled : Polled s after)
    (same : after.ingest = s.ingest) : after.Uploads config name chunks bytes where
  built := polled.config.trans uploads.built
  stage := by
    rw [same, polled.sends.answers, List.append_nil, polled.parser]
    exact uploads.stage

/-- No transfer of the ingest runs during an upload, so there is no progress to report. -/
theorem Uploads.pollTransferProgress {bytes : List UInt8}
    (uploads : s.Uploads config name chunks bytes) (nowMs : Nat) :
    (s.pollTransferProgress nowMs).Uploads config name chunks bytes := by
  refine uploads.polled (polled_pollTransferProgress s nowMs) ?_
  unfold SerialLoop.pollTransferProgress UartIngest.pollTransferProgress
  rw [if_pos (by simp [uploads.stage.waiting])]

theorem Uploads.receiveByte (acceptable : Acceptable config name chunks) {byte : UInt8}
    {rest : List UInt8} (uploads : s.Uploads config name chunks (byte :: rest))
    {handle : UartFrame → HandleEnv} (grants : UartIngest.Grants config handle)
    (more : ((s.parser.receive byte).1.feed rest).2 ≠ []) :
    (s.receiveByte byte handle).Uploads config name chunks rest := by
  obtain ⟨rfl, stage⟩ := uploads
  have come : (s.parser.feed (byte :: rest)).2 =
      (s.parser.receive byte).2.toList ++ ((s.parser.receive byte).1.feed rest).2 := rfl
  rw [come] at stage
  unfold SerialLoop.receiveByte
  dsimp only
  split
  · rename_i parsed
    rw [parsed] at stage
    exact ⟨rfl, stage⟩
  · rename_i frame parsed
    obtain ⟨next, left, ahead⟩ := List.exists_cons_of_ne_nil more
    rw [parsed, ahead] at stage
    obtain ⟨reply, after, handled, further, isAnswer⟩ :=
      stage.handle acceptable grants s.bound
    have answered : (s.sent ++ [reply]).filter UartFrame.isAnswer = s.answers ++ [reply] := by
      rw [List.filter_append, List.filter_singleton, isAnswer]
      rfl
    rw [← ahead, ← answered] at further
    rw [handled]
    exact ⟨rfl, further⟩

/-- The byte that completes FILE_END. -/
theorem Uploads.lastByte {byte : UInt8} (uploads : s.Uploads config name chunks [byte])
    (more : (s.parser.feed [byte]).2 ≠ []) (handle : UartFrame → HandleEnv) :
    let env := (handle endFrame).endEnv
    let started := (s.bound.setEnv env.env).startFileTransfer
      (UartIngest.fileArgs (name.take 63) chunks.flatten env)
    (s.receiveByte byte handle).engine = started.2 ∧
      (s.receiveByte byte handle).answers = uploadAnswers chunks.length ++
        [answer cmdFileEnd (if started.1 then .ok else .errNoTransfer)] := by
  intro env started
  obtain ⟨rfl, stage⟩ := uploads
  have come : (s.parser.feed [byte]).2 = (s.parser.receive byte).2.toList :=
    List.append_nil _
  rw [come] at stage more
  unfold SerialLoop.receiveByte
  dsimp only
  split
  · rename_i parsed
    rw [parsed] at more
    exact absurd rfl more
  rename_i frame parsed
  rw [parsed] at stage
  generalize answeredEq : s.answers = answered at stage
  generalize left : (some frame).toList = frames at stage
  cases stage with
  | fresh ready =>
      have count := congrArg List.length left
      simp [uploadFrames] at count
  | filling done rest split filling =>
      obtain rfl : rest = [] := by
        have count := congrArg List.length left
        simpa using count
      obtain rfl : frame = endFrame := List.head_eq_of_cons_eq left
      rw [List.append_nil] at split
      subst split
      obtain ⟨replied, asked⟩ := filling.ends s.bound env
      rw [handleFrame_end]
      refine ⟨asked, ?_⟩
      change (s.sent ++ [answer cmdFileEnd _]).filter UartFrame.isAnswer = _
      have isAnswer : ∀ result, (answer cmdFileEnd result).isAnswer = true := by
        intro result
        cases result <;> rfl
      rw [List.filter_append, List.filter_singleton, isAnswer, replied, ← answeredEq]
      rfl

/-! ### Rounds -/

/-- The rounds of the loop grant the ingest what it asks for. -/
def Action.Granted (config : UartConfig) : Action → Prop
  | .round r => UartIngest.Grants config r.handle
  | _ => True

theorem parser_receiveByte (s : SerialLoop F) (byte : UInt8) (handle : UartFrame → HandleEnv) :
    (s.receiveByte byte handle).parser = (s.parser.receive byte).1 := by
  unfold SerialLoop.receiveByte
  dsimp only
  split <;> rfl

theorem Uploads.polls {bytes : List UInt8} (uploads : s.Uploads config name chunks bytes)
    (r : Round) :
    (((s.pollTransferProgress r.nowMs).pollMeshState r.meshNowMs r.hops
      r.neighbors).drainEventQueue).Uploads config name chunks bytes := by
  have reported := uploads.pollTransferProgress r.nowMs
  obtain ⟨polled, same⟩ :=
    polled_pollMeshState (s.pollTransferProgress r.nowMs) r.meshNowMs r.hops r.neighbors
  have told := reported.polled polled same
  obtain ⟨drained, kept⟩ := polled_drainEventQueue
    ((s.pollTransferProgress r.nowMs).pollMeshState r.meshNowMs r.hops r.neighbors)
  exact told.polled drained kept

/-- A host that has read everything the node has sent knows the answers. -/
theorem Sends.decoded {after : SerialLoop F} {replies : List UartFrame}
    (sends : s.Sends after replies) (fresh : s.sent = []) :
    (FrameParser.feed {} after.wire).2.filter UartFrame.isAnswer = replies := by
  obtain ⟨frames, sent, answers, short⟩ := sends
  rw [fresh, List.nil_append] at sent
  rw [wire, sent, FrameParser.Cleared.feed_frames FrameParser.cleared_new short]
  exact answers

section

variable [PathArith F]

theorem parser_act (s : SerialLoop F) (action : Action) :
    (s.act action).parser = (s.parser.feed action.bytes).1 := by
  cases action with
  | round r =>
      refine (polled_behind _ r).parser.trans ?_
      cases heard : r.byte with
      | none => simp [Action.bytes, heard, FrameParser.feed]
      | some byte =>
          simp only [Action.bytes, heard, parser_receiveByte]
          rfl
  | pushEvent event =>
      unfold act
      dsimp only
      split <;> rfl
  | call call => rfl

theorem parser_run (actions : List Action) (s : SerialLoop F) :
    (s.run actions).parser = (s.parser.feed (actions.flatMap Action.bytes)).1 := by
  induction actions generalizing s with
  | nil => rfl
  | cons action actions inductionHypothesis =>
      rw [List.flatMap_cons, FrameParser.feed_concat, ← parser_act]
      exact inductionHypothesis (s.act action)

theorem Uploads.act (acceptable : Acceptable config name chunks) {action : Action}
    {rest : List UInt8} (uploads : s.Uploads config name chunks (action.bytes ++ rest))
    (granted : action.Granted config)
    (more : ((s.parser.feed action.bytes).1.feed rest).2 ≠ []) :
    (s.act action).Uploads config name chunks rest := by
  cases action with
  | round r =>
      refine Uploads.polls ?_ r
      cases heard : r.byte with
      | none =>
          simp only [Action.bytes, heard, Option.toList_none, List.nil_append] at uploads
          exact uploads
      | some byte =>
          simp only [Action.bytes, heard, Option.toList_some, List.singleton_append] at uploads more
          exact uploads.receiveByte acceptable granted more
  | pushEvent event =>
      unfold SerialLoop.act
      dsimp only
      split
      · exact uploads.polled ⟨rfl, rfl, rfl, sends_nothing rfl⟩ rfl
      · exact uploads
  | call call => exact ⟨uploads.built, uploads.stage⟩

theorem Uploads.run (acceptable : Acceptable config name chunks) {actions : List Action}
    {rest : List UInt8}
    (uploads : s.Uploads config name chunks (actions.flatMap Action.bytes ++ rest))
    (granted : ∀ action ∈ actions, action.Granted config)
    (more : ((s.parser.feed (actions.flatMap Action.bytes)).1.feed rest).2 ≠ []) :
    (s.run actions).Uploads config name chunks rest := by
  induction actions generalizing s with
  | nil => exact uploads
  | cons action actions inductionHypothesis =>
      obtain ⟨first, others⟩ := List.forall_mem_cons.mp granted
      rw [List.flatMap_cons, List.append_assoc] at uploads
      rw [List.flatMap_cons, FrameParser.feed_concat] at more
      have ahead : ((s.parser.feed action.bytes).1.feed
          (actions.flatMap Action.bytes ++ rest)).2 ≠ [] := by
        rw [FrameParser.feed_concat]
        exact List.append_ne_nil_of_right_ne_nil _ more
      refine inductionHypothesis (uploads.act acceptable first ahead) others ?_
      rw [parser_act]
      exact more

/-! ### What the host reads -/

theorem sends_act (s : SerialLoop F) (action : Action) :
    ∃ replies, s.Sends (s.act action) replies ∧
      List.Forall₂ UartFrame.Replies replies (s.parser.feed action.bytes).2 := by
  cases action with
  | round r =>
      simp only [Action.bytes, act, round]
      cases r.byte with
      | none => exact ⟨[], (polled_behind s r).sends, .nil⟩
      | some byte =>
          obtain ⟨replies, sends, paired⟩ := sends_receiveByte s byte r.handle
          refine ⟨replies ++ [], sends.trans (polled_behind _ r).sends, ?_⟩
          have come : (s.parser.feed [byte]).2 = (s.parser.receive byte).2.toList :=
            List.append_nil _
          rw [List.append_nil, Option.toList_some, come]
          exact paired
  | pushEvent event =>
      refine ⟨[], sends_nothing ?_, .nil⟩
      unfold act
      dsimp only
      split <;> rfl
  | call call => exact ⟨[], sends_nothing rfl, .nil⟩

theorem sends_run (actions : List Action) (s : SerialLoop F) :
    ∃ replies, s.Sends (s.run actions) replies ∧
      List.Forall₂ UartFrame.Replies replies
        (s.parser.feed (actions.flatMap Action.bytes)).2 := by
  induction actions generalizing s with
  | nil => exact ⟨[], sends_nothing rfl, .nil⟩
  | cons action actions inductionHypothesis =>
      obtain ⟨first, sends, paired⟩ := sends_act s action
      obtain ⟨others, further, following⟩ := inductionHypothesis (s.act action)
      refine ⟨first ++ others, sends.trans further, ?_⟩
      rw [List.flatMap_cons, FrameParser.feed_concat, ← parser_act]
      exact List.rel_append paired following

/-- Whatever the host sends and whatever else the node does meanwhile, the host reads one answer
to each command, in the order of the commands. -/
theorem commands_answered_in_order (config : UartConfig) (engine : TransferEngine F)
    (actions : List Action) :
    let s : SerialLoop F := { config, engine }
    List.Forall₂ UartFrame.Replies
      ((FrameParser.feed {} (s.run actions).wire).2.filter UartFrame.isAnswer)
      (FrameParser.feed {} (actions.flatMap Action.bytes)).2 := by
  intro s
  obtain ⟨replies, sends, paired⟩ := sends_run actions s
  rw [sends.decoded rfl]
  exact paired

/-- The bytes of an upload, one a round, between rounds without a byte, events and calls of the
engine: with the last byte the engine is asked for a transfer of the file, and the host reads
the answers. -/
theorem serial_upload_reaches_engine {s : SerialLoop F} (cleared : s.parser.Cleared)
    (ready : UartIngest.Ready s.config s.ingest) (fresh : s.sent = [])
    (acceptable : Acceptable s.config name chunks) {before : List Action} {last : Round}
    {byte : UInt8} (granted : ∀ action ∈ before, action.Granted s.config)
    (heard : last.byte = some byte)
    (bytes : before.flatMap Action.bytes ++ [byte] =
      (uploadFrames name chunks).flatMap sendFrame) :
    let env := (last.handle endFrame).endEnv
    let started := ((s.run before).bound.setEnv env.env).startFileTransfer
      (UartIngest.fileArgs (name.take 63) chunks.flatten env)
    let after := (s.run before).round last
    after.engine = started.2 ∧
      (FrameParser.feed {} after.wire).2.filter UartFrame.isAnswer =
        uploadAnswers chunks.length ++
          [answer cmdFileEnd (if started.1 then .ok else .errNoTransfer)] := by
  intro env started after
  have all : (s.parser.feed (before.flatMap Action.bytes ++ [byte])).2 =
      uploadFrames name chunks := by
    rw [bytes]
    exact cleared.feed_frames acceptable.fits
  have begun : s.Uploads s.config name chunks (before.flatMap Action.bytes ++ [byte]) := by
    refine ⟨rfl, ?_⟩
    rw [all, answers, fresh]
    exact .fresh ready
  have more := cleared.last_byte acceptable.fits bytes
  have almost := begun.run acceptable granted more
  rw [← parser_run] at more
  obtain ⟨asked, answered⟩ := almost.lastByte more last.handle
  have behind : Polled ((s.run before).receiveByte byte last.handle) after := by
    have polled := polled_behind ((s.run before).receiveByte byte last.handle) last
    simpa only [after, round, heard] using polled
  refine ⟨behind.engine.trans asked, ?_⟩
  obtain ⟨replies, sends, -⟩ := sends_run (before ++ [.round last]) s
  have reached : s.run (before ++ [.round last]) = after := List.foldl_concat ..
  rw [reached] at sends
  rw [sends.decoded fresh, ← answered, ← List.append_nil (answers _), ← behind.sends.answers,
    sends.answers, answers, fresh]
  rfl

end

/-! ## A file of one byte -/

/-- A byte of the host, with room for its file. -/
def byteRound (byte : UInt8) : Round where
  byte := some byte
  handle := fun frame => { wrote := frame.payload.length }

/-- The upload up to its last byte, with an event of the mesh in between. -/
def oneByteUpload : List Action :=
  .pushEvent (.downlink [116] [5] (by decide)) ::
    ((uploadFrames [102] [[9]]).flatMap sendFrame).dropLast.map fun byte => .round (byteRound byte)

theorem serial_upload_reaches_engine_one_byte :
    let s : SerialLoop ℚ := { config := {}, engine := .boot 1 4 }
    let after := (s.run oneByteUpload).round (byteRound 0)
    after.engine.transfer.active = true ∧ after.engine.transfer.size = 1 ∧
      (FrameParser.feed {} after.wire).2.filter UartFrame.isAnswer =
        [sendAck cmdFileBegin, sendAck cmdFileData, sendAck cmdFileEnd] := by
  intro s after
  have acceptable : Acceptable s.config [102] [[9]] := by
    refine ⟨by decide, ?_, by decide, by decide, by decide, by decide, by decide⟩
    intro c member
    rw [List.mem_singleton.mp member]
    decide
  have granted : ∀ action ∈ oneByteUpload, action.Granted s.config := by
    intro action member
    rcases List.mem_cons.mp member with rfl | isRound
    · trivial
    · obtain ⟨byte, -, rfl⟩ := List.mem_map.mp isRound
      exact ⟨fun _ => .inl rfl, fun _ => rfl⟩
  have heard : (byteRound 0).byte = some 0 := rfl
  have bytes : oneByteUpload.flatMap Action.bytes ++ [0] =
      (uploadFrames [102] [[9]]).flatMap sendFrame := by decide +kernel
  obtain ⟨asked, answered⟩ := serial_upload_reaches_engine (s := s) FrameParser.cleared_new
    ⟨.inl UartIngest.idle_boot, rfl⟩ rfl acceptable granted heard bytes
  change after.engine = _ at asked
  rw [answered, asked]
  refine ⟨?_, ?_, ?_⟩ <;> decide +kernel

end SerialLoop

end ForestLink.Uart
