/-
Module: ForestLink.Proofs.IngestStorage
Purpose: Where an ingest keeps its bytes, and what each call of the serial port does to them.
Trusted boundary: none
Main exports: Stored, Ingests, Idle, Stored.cleanup, BeginOutcome, DataOutcome, EndOutcome,
  PollOutcome
-/
import ForestLink.Uart.IngestRuns

namespace ForestLink.Uart.UartIngest

open ForestLink.Mesh
open ForestLink.Mesh.TransferEngine (StartArgs)

/-! ## Where the bytes are -/

/-- The bytes are in a block of PSRAM, or in a spool file that may be open for writing. -/
inductive Stored (config : UartConfig) (i : UartIngest) (bytes : List UInt8) : Resource → Prop
  | psram {block : Nat} (onCard : i.ingestToSd = false) (buf : i.ingestBuf = some block)
      (noPath : i.ingestPath = none) (noFile : i.ingestFile = none)
      (content : i.storage.blocks block = some bytes) : Stored config i bytes (.block block)
  | spool {path : Nat} (enabled : config.sdEnabled = true) (onCard : i.ingestToSd = true)
      (noBuf : i.ingestBuf = none) (named : i.ingestPath = some path)
      (file : i.ingestFile = none ∨ i.ingestFile = some path)
      (content : i.storage.files path = some bytes) : Stored config i bytes (.spool path)

/-- An ingest that has counted exactly the bytes it stores. -/
structure Ingests (config : UartConfig) (i : UartIngest) (bytes : List UInt8)
    (resource : Resource) : Prop where
  active : i.ingestActive = true
  received : i.receivedSize = bytes.length
  stored : Stored config i bytes resource

/-- There is no ingest, and no pointer to the memory of one. -/
structure Idle (i : UartIngest) : Prop where
  inactive : i.ingestActive = false
  waiting : i.transferStarted = false
  noBuf : i.ingestBuf = none
  noFile : i.ingestFile = none

/-- A spool file is open for writing. -/
def Open (i : UartIngest) : Prop := i.ingestToSd = true → i.ingestFile.isSome = true

variable {config : UartConfig} {i : UartIngest} {bytes : List UInt8} {resource : Resource}

theorem idle_boot : Idle {} := ⟨rfl, rfl, rfl, rfl⟩

theorem Stored.resource_eq (stored : Stored config i bytes resource) :
    i.resource = some resource := by
  cases stored with
  | psram onCard buf noPath noFile content => simp [UartIngest.resource, onCard, buf]
  | spool enabled onCard noBuf named file content => simp [UartIngest.resource, onCard, named]

theorem Stored.content_eq (stored : Stored config i bytes resource) :
    i.storage.content resource = some bytes := by
  cases stored with
  | psram onCard buf noPath noFile content => exact content
  | spool enabled onCard noBuf named file content => exact content

/-! ## Cleanup -/

theorem Stored.held_eq (stored : Stored config i bytes resource) :
    i.held config = [resource] := by
  cases stored with
  | psram onCard buf noPath noFile content => simp [held, onCard, buf]
  | spool enabled onCard noBuf named file content => simp [held, enabled, onCard, noBuf, named]

/-- The ingest without its memory. -/
def released (i : UartIngest) (resource : Resource) : UartIngest :=
  { i with
    ingestBuf := none
    ingestFile := none
    ingestPath := none
    storage := i.storage.release resource }

/-- The cleanup code frees the memory of the ingest and nothing else. -/
theorem Stored.cleanup (stored : Stored config i bytes resource) :
    (i.freeBuf.closeFile).removeSpool config = i.released resource := by
  cases stored with
  | psram onCard buf noPath noFile content =>
      simp [freeBuf, closeFile, removeSpool, released, Storage.release, buf, noPath]
  | spool enabled onCard noBuf named file content =>
      simp [freeBuf, closeFile, removeSpool, released, Storage.release, enabled, onCard, noBuf,
        named]

theorem content_release (storage : Storage) (resource : Resource) :
    (storage.release resource).content resource = none := by
  cases resource with
  | block number => simp [Storage.release, Storage.content]
  | spool path => simp [Storage.release, Storage.content]

theorem Stored.idle_dropIngest (stored : Stored config i bytes resource)
    (waiting : i.transferStarted = false) : Idle (i.dropIngest config) := by
  unfold dropIngest
  rw [stored.cleanup]
  exact ⟨rfl, waiting, rfl, rfl⟩

theorem Stored.idle_abortTransfer (stored : Stored config i bytes resource)
    (active : i.ingestActive = true) (waiting : i.transferStarted = false) :
    Idle (i.abortTransfer config).2 := by
  simp only [abortTransfer, active, waiting, Bool.not_true, Bool.false_eq_true, if_false]
  rw [stored.cleanup]
  exact ⟨rfl, rfl, rfl, rfl⟩

theorem Stored.idle_finish (stored : Stored config i bytes resource) :
    Idle (i.finish config) := by
  unfold finish
  rw [stored.cleanup]
  exact ⟨rfl, rfl, rfl, rfl⟩

theorem Stored.content_finish (stored : Stored config i bytes resource) :
    (i.finish config).storage.content resource = none := by
  unfold finish
  rw [stored.cleanup]
  exact content_release i.storage resource

/-! ## `file_begin` -/

/-- The results that `file_begin` can have. -/
inductive BeginOutcome (config : UartConfig) (i : UartIngest) : UartResult × UartIngest → Prop
  | busy (started : i.transferStarted = true) : BeginOutcome config i (.errBusy, i)
  | refused {after : UartIngest} (waiting : i.transferStarted = false) (idle : Idle after) :
      BeginOutcome config i (.errAlloc, after)
  | accepted {after : UartIngest} {resource : Resource} (waiting : i.transferStarted = false)
      (ingests : Ingests config after [] resource) (open_ : Open after)
      (kept : after.transferStarted = false) : BeginOutcome config i (.ok, after)

/-- A new ingest on a node that keeps nothing of an old one. -/
theorem Idle.begins (idle : Idle i) (fileSize : Nat) (filename : List UInt8) (env : BeginEnv) :
    BeginOutcome config i
      (let named :=
        { i with
          filename := filename
          ingestToSd := false
          ingestPath := none
          ingestBuf := none }
      if env.psram then (.ok, named.beginPsram fileSize)
      else if !config.sdEnabled then (.errAlloc, named)
      else if !env.sdInit then (.errAlloc, named)
      else named.beginSpool fileSize env.timerUs env.opened) := by
  extract_lets named
  split
  · have stored : Stored config (named.beginPsram fileSize) [] (.block i.storage.nextBlock) :=
      .psram rfl rfl rfl idle.noFile (Function.update_self ..)
    exact .accepted idle.waiting ⟨rfl, rfl, stored⟩
      (fun onCard => absurd onCard Bool.false_ne_true) idle.waiting
  split
  · exact .refused idle.waiting ⟨idle.inactive, idle.waiting, rfl, idle.noFile⟩
  rename_i enabled
  split
  · exact .refused idle.waiting ⟨idle.inactive, idle.waiting, rfl, idle.noFile⟩
  unfold beginSpool
  dsimp only
  split
  · refine .accepted idle.waiting ⟨rfl, rfl, .spool ?_ rfl rfl rfl (.inr rfl)
      (Function.update_self ..)⟩ (fun _ => rfl) idle.waiting
    simpa using enabled
  · exact .refused idle.waiting ⟨idle.inactive, idle.waiting, rfl, rfl⟩

theorem begins_fileBegin (sane : Idle i ∨ ∃ bytes resource, Ingests config i bytes resource)
    (fileSize : Nat) (filename : List UInt8) (env : BeginEnv) :
    BeginOutcome config i (i.fileBegin config fileSize filename env) := by
  unfold fileBegin
  dsimp only
  split
  · rename_i started
    exact .busy started
  rename_i waiting
  have waiting : i.transferStarted = false := by simpa using waiting
  have fresh : Idle (if i.ingestActive then i.dropIngest config else i) := by
    rcases sane with idle | ⟨bytes, resource, ingests⟩
    · rw [if_neg (by simp [idle.inactive])]
      exact idle
    · rw [if_pos ingests.active]
      exact ingests.stored.idle_dropIngest waiting
  generalize (if i.ingestActive then i.dropIngest config else i) = j at fresh ⊢
  split
  · exact .refused waiting fresh
  have begun : BeginOutcome config j _ := fresh.begins fileSize (filename.take 63) env
  dsimp only at begun
  generalize (if env.psram then _ else _ : UartResult × UartIngest) = result at begun ⊢
  cases begun with
  | busy started => exact absurd (fresh.waiting.symm.trans started) Bool.false_ne_true
  | refused _ idle => exact .refused waiting idle
  | accepted _ ingests open_ kept => exact .accepted waiting ingests open_ kept

/-! ## `file_data` -/

/-- `file_data` reaches its call of `fwrite`. -/
def spools (i : UartIngest) (data : List UInt8) : Bool :=
  i.ingestActive && !i.transferStarted && decide (i.receivedSize + data.length ≤ i.ingestSize) &&
    i.ingestToSd && i.ingestFile.isSome

/-- The fields that `file_data` leaves alone. -/
structure SameIngest (i after : UartIngest) : Prop where
  active : after.ingestActive = i.ingestActive
  started : after.transferStarted = i.transferStarted
  file : after.ingestFile = i.ingestFile
  onCard : after.ingestToSd = i.ingestToSd

/-- The results that `file_data` can have. -/
inductive DataOutcome (config : UartConfig) (i : UartIngest) (bytes : List UInt8)
    (resource : Resource) (data : List UInt8) (wrote : Nat) : UartResult × UartIngest → Prop
  | refused {error : UartResult} (failed : error ≠ .ok) :
      DataOutcome config i bytes resource data wrote (error, i)
  | torn {after : UartIngest} (writes : i.spools data = true) (short : wrote ≠ data.length)
      (same : SameIngest i after) (received : after.receivedSize = i.receivedSize)
      (stored : Stored config after (bytes ++ data.take wrote) resource) :
      DataOutcome config i bytes resource data wrote (.errAlloc, after)
  | accepted {after : UartIngest} (waiting : i.transferStarted = false)
      (same : SameIngest i after) (ingests : Ingests config after (bytes ++ data) resource) :
      DataOutcome config i bytes resource data wrote (.ok, after)

theorem Ingests.data (ingests : Ingests config i bytes resource) (data : List UInt8)
    (wrote : Nat) : DataOutcome config i bytes resource data wrote (i.fileData data wrote) := by
  unfold fileData
  rw [if_neg (by simp [ingests.active])]
  split
  · exact .refused (by decide)
  rename_i waiting
  have waiting : i.transferStarted = false := by simpa using waiting
  split
  · exact .refused (by decide)
  rename_i fits
  have received : i.receivedSize + data.length = (bytes ++ data).length := by
    rw [List.length_append, ingests.received]
  cases ingests.stored with
  | @psram block onCard buf noPath noFile content =>
      rw [if_neg (by simp [onCard])]
      split
      · exact .refused (by decide)
      rename_i found
      obtain rfl : block = _ := Option.some.inj (buf.symm.trans found)
      refine .accepted waiting ⟨rfl, rfl, rfl, rfl⟩
        ⟨ingests.active, received, .psram onCard buf noPath noFile ?_⟩
      simp [append, content]
  | @spool path enabled onCard noBuf named file content =>
      rw [if_pos onCard]
      split
      · exact .refused (by decide)
      rename_i found
      have open_ : i.ingestFile = some path := by
        rcases file with closed | open_
        · rw [closed] at found
          cases found
        · exact open_
      obtain rfl : path = _ := Option.some.inj (open_.symm.trans found)
      dsimp only
      split
      · rename_i short
        refine .torn ?_ short ⟨rfl, rfl, rfl, rfl⟩ rfl
          (.spool enabled onCard noBuf named (.inr open_) ?_)
        · simp [spools, ingests.active, waiting, onCard, open_, Nat.le_of_not_lt fits]
        · simp [append, content]
      · rename_i whole
        have whole : wrote = data.length := by simpa using whole
        refine .accepted waiting ⟨rfl, rfl, rfl, rfl⟩
          ⟨ingests.active, received, .spool enabled onCard noBuf named (.inr open_) ?_⟩
        simp [append, content, whole]

theorem fileData_of_inactive (inactive : i.ingestActive = false) (data : List UInt8)
    (wrote : Nat) : i.fileData data wrote = (.errNoTransfer, i) := by
  simp [fileData, inactive]

/-! ## `file_end` -/

/-- What the closure of `file_end` reads is what is stored. -/
theorem Ingests.takes (ingests : Ingests config i bytes resource) (open_ : Open i) :
    ∃ source, i.takeSource config = some (source, i.closeFile) ∧
      i.closeFile.read source = slice bytes := by
  cases ingests.stored with
  | @psram block onCard buf noPath noFile content =>
      refine ⟨.buffer block i.receivedSize, ?_, ?_⟩
      · have closed : i.closeFile = i := by
          cases i
          simp_all [closeFile]
        simp [takeSource, onCard, buf, closed]
      · funext offset len
        simp [read, closeFile, slice, content, ingests.received]
  | @spool path enabled onCard noBuf named file content =>
      refine ⟨.spool, ?_, ?_⟩
      · simp [takeSource, onCard, enabled, open_ onCard]
      · funext offset len
        simp [read, closeFile, slice, named, content]

/-- The transfer of these bytes. -/
def fileArgs (filename bytes : List UInt8) (env : EndEnv) : StartArgs where
  filename := filename
  size := bytes.length
  readChunk := slice bytes
  hasInternet := env.hasInternet
  hasMqtt := env.mqttReady
  hopsToInternet := env.hopsToInternet

/-- The ingest with its transfer started. -/
def withTransfer (i : UartIngest) (nowMs : Nat) : UartIngest :=
  { i.closeFile with
    transferStarted := true
    transferStartMs := nowMs
    lastProgressPct := 0 }

variable {F : Type}

/-- The results that `file_end` can have during an ingest. -/
inductive EndOutcome (i : UartIngest) (bytes : List UInt8) (e : TransferEngine F)
    (env : EndEnv) : UartResult × UartIngest × TransferEngine F × Option Source → Prop
  | busy (started : i.transferStarted = true) : EndOutcome i bytes e env (.errBusy, i, e, none)
  | closed (waiting : i.transferStarted = false) (shut : ¬ Open i) :
      EndOutcome i bytes e env (.errNoTransfer, i, e, none)
  | refused (waiting : i.transferStarted = false)
      (refusal : ((e.setEnv env.env).startFileTransfer (fileArgs i.filename bytes env)).1 = false) :
      EndOutcome i bytes e env
        (.errNoTransfer, i.closeFile,
          ((e.setEnv env.env).startFileTransfer (fileArgs i.filename bytes env)).2, none)
  | started {source : Source} (waiting : i.transferStarted = false)
      (reads : i.closeFile.read source = slice bytes)
      (begun : ((e.setEnv env.env).startFileTransfer (fileArgs i.filename bytes env)).1 = true) :
      EndOutcome i bytes e env
        (.ok, i.withTransfer env.nowMs,
          ((e.setEnv env.env).startFileTransfer (fileArgs i.filename bytes env)).2, some source)

theorem Ingests.ends (ingests : Ingests config i bytes resource) (e : TransferEngine F)
    (env : EndEnv) : EndOutcome i bytes e env (i.fileEnd config e env) := by
  unfold fileEnd
  simp only [ingests.active, Bool.not_true, Bool.false_eq_true, if_false]
  split
  · rename_i started
    exact .busy started
  rename_i waiting
  have waiting : i.transferStarted = false := by simpa using waiting
  by_cases open_ : Open i
  · obtain ⟨source, taken, reads⟩ := ingests.takes open_
    have args : i.closeFile.startArgs source env = fileArgs i.filename bytes env := by
      unfold startArgs fileArgs
      rw [reads, ← ingests.received]
      rfl
    rw [taken]
    dsimp only
    rw [args]
    split
    · rename_i begun
      exact .started waiting reads begun
    · rename_i refusal
      exact .refused waiting (by simpa using refusal)
  · have shut : i.takeSource config = none := by
      unfold Open at open_
      push Not at open_
      simp [takeSource, open_.1, open_.2]
    rw [shut]
    exact .closed waiting open_

theorem fileEnd_of_inactive (inactive : i.ingestActive = false) (e : TransferEngine F)
    (env : EndEnv) : i.fileEnd config e env = (.errNoTransfer, i, e, none) := by
  simp [fileEnd, inactive]

/-! ## `poll_transfer_progress` -/

/-- The results that `poll_transfer_progress` can have. -/
inductive PollOutcome (config : UartConfig) (i : UartIngest) (e : TransferEngine F) :
    Option UartFrame × UartIngest → Prop
  | waiting (waiting : i.transferStarted = false) : PollOutcome config i e (none, i)
  | quiet (started : i.transferStarted = true) (active : e.transfer.active = true) :
      PollOutcome config i e (none, i)
  | progress (frame : UartFrame) (pct : Nat) (started : i.transferStarted = true)
      (active : e.transfer.active = true) :
      PollOutcome config i e (some frame, { i with lastProgressPct := pct })
  | finished (frame : UartFrame) (started : i.transferStarted = true)
      (ended : e.transfer.active = false) : PollOutcome config i e (some frame, i.finish config)

theorem polls_pollTransferProgress (config : UartConfig) (i : UartIngest) (e : TransferEngine F)
    (nowMs : Nat) : PollOutcome config i e (i.pollTransferProgress config e nowMs) := by
  unfold pollTransferProgress
  split
  · rename_i waiting
    exact .waiting (by simpa using waiting)
  rename_i started
  have started : i.transferStarted = true := by simpa using started
  split
  · rename_i active
    dsimp only
    split
    · exact .progress _ _ started active
    · exact .quiet started active
  · rename_i ended
    exact .finished _ started (by simpa using ended)

/-! ## The source stays in place -/

/-- Only the spool file can be closed between two states that store the same. -/
theorem Stored.keep (stored : Stored config i bytes resource) {after : UartIngest}
    (onCard : after.ingestToSd = i.ingestToSd) (buf : after.ingestBuf = i.ingestBuf)
    (path : after.ingestPath = i.ingestPath)
    (file : after.ingestFile = none ∨ after.ingestFile = i.ingestFile)
    (storage : after.storage = i.storage) : Stored config after bytes resource := by
  cases stored with
  | psram inPsram here noPath noFile content =>
      refine .psram (onCard.trans inPsram) (buf.trans here) (path.trans noPath) ?_ ?_
      · rcases file with closed | same
        · exact closed
        · exact same.trans noFile
      · rw [storage]
        exact content
  | spool enabled spooled noBuf named old content =>
      refine .spool enabled (onCard.trans spooled) (buf.trans noBuf) (path.trans named) ?_ ?_
      · rcases file with closed | same
        · exact .inl closed
        · exact same ▸ old
      · rw [storage]
        exact content

theorem Ingests.closeFile (ingests : Ingests config i bytes resource) :
    Ingests config i.closeFile bytes resource :=
  ⟨ingests.active, ingests.received, ingests.stored.keep rfl rfl rfl (.inl rfl) rfl⟩

theorem Ingests.withTransfer (ingests : Ingests config i bytes resource) (nowMs : Nat) :
    Ingests config (i.withTransfer nowMs) bytes resource :=
  ⟨ingests.active, ingests.received, ingests.stored.keep rfl rfl rfl (.inl rfl) rfl⟩

/-- A progress report leaves the ingest as it is. -/
theorem Ingests.withProgress (ingests : Ingests config i bytes resource) (pct : Nat) :
    Ingests config { i with lastProgressPct := pct } bytes resource :=
  ⟨ingests.active, ingests.received, ingests.stored.keep rfl rfl rfl (.inr rfl) rfl⟩

end ForestLink.Uart.UartIngest
