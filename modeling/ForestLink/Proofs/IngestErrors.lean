/-
Module: ForestLink.Proofs.IngestErrors
Purpose: What an ingest stores after failed calls, and when a refused `file_end` can be made
  again.
Trusted boundary: none
Main exports: IngestHistory.Survivable, ingest_kept_of_survivable,
  errors_damage_spooled_ingest
-/
import ForestLink.Lib.Trace
import ForestLink.Proofs.IngestStorage
import ForestLink.Proofs.TransferStart

namespace ForestLink.Uart.IngestHistory

open ForestLink.Lib
open ForestLink.Mesh
open ForestLink.Uart.UartIngest

variable {F : Type} {config : UartConfig} {h : IngestHistory}

/-- An `fwrite` writes everything or nothing, and a spool file that the engine cannot take is
not offered to it. -/
def Survivable (h : IngestHistory) : IngestCall F → Prop
  | .fileBegin _ _ _ => True
  | .fileData data wrote => h.ingest.spools data = true → wrote = 0 ∨ wrote = data.length
  | .fileEnd engine env =>
      h.ingest.endsIngest = true → h.ingest.ingestToSd = true →
        engine.transfer.active = false ∧ engine.isExitNode = false ∧
          ¬ (h.ingest.startArgs .spool env).tooLarge

/-- Either nothing is going on, or the accepted bytes are stored and can still be handed
over. -/
def Sound (config : UartConfig) (h : IngestHistory) : Prop :=
  Idle h.ingest ∨
    ∃ resource, Ingests config h.ingest h.accepted resource ∧
      (h.ingest.transferStarted = false → Open h.ingest)

theorem Sound.sane (sound : h.Sound config) :
    Idle h.ingest ∨ ∃ bytes resource, Ingests config h.ingest bytes resource := by
  rcases sound with idle | ⟨resource, ingests, _⟩
  · exact .inl idle
  · exact .inr ⟨h.accepted, resource, ingests⟩

theorem Sound.fileBegin (sound : h.Sound config) (fileSize : Nat) (filename : List UInt8)
    (env : BeginEnv) :
    (h.step config (.fileBegin fileSize filename env : IngestCall F)).Sound config := by
  have begins := begins_fileBegin sound.sane fileSize filename env
  unfold step
  dsimp only
  generalize h.ingest.fileBegin config fileSize filename env = outcome at begins ⊢
  cases begins with
  | busy started => exact sound
  | refused waiting idle => exact .inl idle
  | accepted waiting ingests open_ kept => exact .inr ⟨_, ingests, fun _ => open_⟩

theorem Sound.fileData (sound : h.Sound config) (data : List UInt8) (wrote : Nat)
    (survivable : h.Survivable (.fileData data wrote : IngestCall F)) :
    (h.step config (.fileData data wrote : IngestCall F)).Sound config := by
  unfold step
  dsimp only
  rcases sound with idle | ⟨resource, ingests, ready⟩
  · rw [fileData_of_inactive idle.inactive]
    exact .inl idle
  have outcome := ingests.data data wrote
  have kept : ∀ {after : UartIngest}, SameIngest h.ingest after →
      after.transferStarted = false → Open after := by
    intro after same waiting
    unfold Open
    rw [same.onCard, same.file]
    exact ready (same.started.symm.trans waiting)
  generalize h.ingest.fileData data wrote = result at outcome ⊢
  cases outcome with
  | refused failed =>
      dsimp only
      rw [if_neg failed]
      exact .inr ⟨resource, ingests, ready⟩
  | @torn after writes short same received stored =>
      -- Nothing was written, as not everything was.
      have nothing : wrote = 0 := (survivable writes).resolve_right short
      have stored : Stored config after h.accepted resource := by simpa [nothing] using stored
      exact .inr ⟨resource, ⟨same.active.trans ingests.active, received.trans ingests.received,
        stored⟩, kept same⟩
  | accepted waiting same ingests => exact .inr ⟨resource, ingests, kept same⟩

theorem Sound.fileEnd (sound : h.Sound config) (engine : TransferEngine F) (env : EndEnv)
    (survivable : h.Survivable (.fileEnd engine env)) :
    (h.step config (.fileEnd engine env)).Sound config := by
  unfold step
  dsimp only
  rcases sound with idle | ⟨resource, ingests, ready⟩
  · rw [fileEnd_of_inactive idle.inactive]
    exact .inl idle
  have outcome := ingests.ends engine env
  generalize h.ingest.fileEnd config engine env = result at outcome ⊢
  cases outcome with
  | busy started => exact .inr ⟨resource, ingests, ready⟩
  | closed waiting shut => exact .inr ⟨resource, ingests, ready⟩
  | refused waiting refusal =>
      -- Only a PSRAM ingest can have been refused, and it has no file to lose.
      refine .inr ⟨resource, ingests.closeFile, fun _ onCard => ?_⟩
      have ends : h.ingest.endsIngest = true := by simp [endsIngest, ingests.active, waiting]
      obtain ⟨free, noExit, small⟩ := survivable ends onCard
      have reason := (TransferEngine.startFileTransfer_refuses_iff _ _).mp refusal
      have large : (h.ingest.startArgs .spool env).tooLarge ↔
          (fileArgs h.ingest.filename h.accepted env).tooLarge := by
        unfold startArgs fileArgs
        rw [ingests.received]
        rfl
      rcases reason with active | exit | tooLarge
      · exact absurd (free.symm.trans active) Bool.false_ne_true
      · exact absurd (noExit.symm.trans exit) Bool.false_ne_true
      · exact absurd (large.mpr tooLarge) small
  | started waiting reads begun =>
      exact .inr ⟨resource, ingests.withTransfer env.nowMs, fun late =>
        absurd late.symm Bool.false_ne_true⟩

theorem Sound.step (sound : h.Sound config) (call : IngestCall F) (survivable : h.Survivable call) :
    (h.step config call).Sound config := by
  cases call with
  | fileBegin fileSize filename env => exact sound.fileBegin fileSize filename env
  | fileData data wrote => exact sound.fileData data wrote survivable
  | fileEnd engine env => exact sound.fileEnd engine env survivable

/-- In a run of survivable calls the storage of an ingest is exactly what was accepted, and
until its transfer has started, `file_end` starts it with any engine that takes it. -/
theorem ingest_kept_of_survivable (config : UartConfig) (calls : List (IngestCall F))
    (survivable : Along (IngestHistory.step config) Survivable {} calls) :
    let h := ({} : IngestHistory).run config calls
    h.ingest.ingestActive = true →
      (h.ingest.receivedSize = h.accepted.length ∧
        ∃ resource, h.ingest.resource = some resource ∧
          h.ingest.storage.content resource = some h.accepted) ∧
      (h.ingest.transferStarted = false → ∀ (engine : TransferEngine F) (env : EndEnv),
        let start := (engine.setEnv env.env).startFileTransfer
          (fileArgs h.ingest.filename h.accepted env)
        start.1 = true →
          (h.ingest.fileEnd config engine env).1 = .ok ∧
            (h.ingest.fileEnd config engine env).2.2.1 = start.2) := by
  intro h active
  have sound : h.Sound config :=
    survivable.keeps (Sound config) (fun _ call allowed sound => sound.step call allowed)
      (.inl idle_boot)
  rcases sound with idle | ⟨resource, ingests, ready⟩
  · exact absurd (idle.inactive.symm.trans active) Bool.false_ne_true
  refine ⟨⟨ingests.received, resource, ingests.stored.resource_eq, ingests.stored.content_eq⟩, ?_⟩
  intro waiting engine env start accepted
  have outcome := ingests.ends engine env
  generalize h.ingest.fileEnd config engine env = result at outcome ⊢
  cases outcome with
  | busy started => exact absurd (waiting.symm.trans started) Bool.false_ne_true
  | closed _ shut => exact absurd (ready waiting) shut
  | refused _ refusal => exact absurd (refusal.symm.trans accepted) Bool.false_ne_true
  | started _ reads begun => exact ⟨rfl, rfl⟩

/-! ## A spool file on a bad card, and one that is refused -/

/-- An engine that is sending a file of one byte. -/
def sendingEngine : TransferEngine ℚ :=
  ((TransferEngine.boot 1 4).startFileTransfer
    { filename := [102], size := 1, readChunk := slice [9], hasInternet := false, hasMqtt := false,
      hopsToInternet := 1 }).2

/-- A file without PSRAM, and its first three bytes. -/
def spoolThree (wrote : Nat) : List (IngestCall ℚ) :=
  [.fileBegin 9 [102] { psram := false }, .fileData [1, 2, 3] wrote]

/-- The host repeats a write that failed as a whole, drops the file and has another one
refused. -/
def survivedRun : List (IngestCall ℚ) :=
  spoolThree 0 ++
    [.fileData [1, 2, 3] 3, .fileBegin 2 [103] {}, .fileData [4, 5] 2, .fileEnd sendingEngine {}]

theorem survived_run_starts_transfer :
    let h := ({} : IngestHistory).run {} survivedRun
    h.accepted = [4, 5] ∧ h.ingest.storage.content (.block 0) = some [4, 5] ∧
      (h.ingest.fileEnd {} (TransferEngine.boot 1 4 : TransferEngine ℚ) {}).1 = .ok := by
  have survivable : Along (IngestHistory.step {}) Survivable {} survivedRun := by
    refine ⟨trivial, fun _ => .inl rfl, fun _ => .inr rfl, trivial, fun _ => .inr rfl, ?_, trivial⟩
    exact fun _ onCard => absurd onCard (by decide +kernel)
  have kept := ingest_kept_of_survivable {} survivedRun survivable (by decide +kernel)
  obtain ⟨⟨_, resource, here, content⟩, ends⟩ := kept
  have accepted : (({} : IngestHistory).run {} survivedRun).accepted = [4, 5] := by
    decide +kernel
  have block : (({} : IngestHistory).run {} survivedRun).ingest.resource = some (.block 0) := by
    decide +kernel
  obtain rfl : Resource.block 0 = resource := Option.some.inj (block.symm.trans here)
  refine ⟨accepted, content.trans (congrArg some accepted), ?_⟩
  exact (ends (by decide +kernel) _ {} (by decide +kernel)).1

/-- A write of one byte out of three is repeated. -/
def tornHistory : IngestHistory :=
  ({} : IngestHistory).run {} (spoolThree 1 ++ [.fileData [1, 2, 3] 3])

/-- The engine refuses a spool file. -/
def refusedHistory : IngestHistory :=
  ({} : IngestHistory).run {} (spoolThree 3 ++ [.fileEnd sendingEngine {}])

/-- The byte of the torn write is stored twice; the refused spool file is closed, and an engine
that would take it does not get it. -/
theorem errors_damage_spooled_ingest :
    (tornHistory.ingest.ingestActive = true ∧ tornHistory.accepted = [1, 2, 3] ∧
      tornHistory.ingest.receivedSize = 3 ∧ tornHistory.ingest.resource = some (.spool 0) ∧
      tornHistory.ingest.storage.content (.spool 0) = some [1, 1, 2, 3]) ∧
    refusedHistory.ingest.ingestActive = true ∧ refusedHistory.ingest.transferStarted = false ∧
      ((TransferEngine.boot 1 4 : TransferEngine ℚ).startFileTransfer
        (fileArgs refusedHistory.ingest.filename refusedHistory.accepted {})).1 = true ∧
      (refusedHistory.ingest.fileEnd {} (TransferEngine.boot 1 4 : TransferEngine ℚ) {}).1 =
        .errNoTransfer := by
  refine ⟨⟨?_, ?_, ?_, ?_, ?_⟩, ?_, ?_, ?_, ?_⟩ <;> decide +kernel

end ForestLink.Uart.IngestHistory
