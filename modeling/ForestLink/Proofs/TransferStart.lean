/-
Module: ForestLink.Proofs.TransferStart
Purpose: Which files `start_file_transfer` accepts, what an accepted start announces, and
  what a refused start leaves behind.
Trusted boundary: none
Main exports: StartArgs.tooLarge, startFileTransfer_refuses_iff, refused_start_keeps_state_iff,
  accepted_counts_exact_iff
-/
import ForestLink.Proofs.MeshStages

namespace ForestLink.Mesh.TransferEngine

open ForestLink.Lib
open ForestLink.Protocol

variable {F : Type}

/-! ## When a start is refused -/

/-- The size check of the chosen path refuses the file. -/
def StartArgs.tooLarge (args : StartArgs) : Prop :=
  if args.onLocalExit then maxCloudFragments < dataFragCount args.size
  else maxFragmentCount < meshFragmentCount (dataFragCount args.size)

instance (args : StartArgs) : Decidable args.tooLarge :=
  inferInstanceAs (Decidable (if args.onLocalExit then maxCloudFragments < dataFragCount args.size
    else maxFragmentCount < meshFragmentCount (dataFragCount args.size)))

theorem startLocalExit_refuses_iff (e : TransferEngine F) (args : StartArgs) :
    (e.startLocalExit args).1 = false ↔ maxCloudFragments < dataFragCount args.size := by
  have limits : maxCloudFragments < maxFragmentCount := by decide
  unfold startLocalExit
  dsimp only
  split
  · rename_i large
    exact ⟨fun _ => large, fun _ => rfl⟩
  rename_i small
  split
  · rename_i large
    exact absurd (limits.trans large) small
  · constructor
    · intro refused
      cases refused
    · exact fun large => absurd large small

theorem startMesh_refuses_iff (e : TransferEngine F) (args : StartArgs) :
    (e.startMesh args).1 = false ↔
      maxFragmentCount < meshFragmentCount (dataFragCount args.size) := by
  unfold startMesh
  dsimp only
  split
  · rename_i large
    exact ⟨fun _ => large, fun _ => rfl⟩
  · rename_i small
    constructor
    · intro refused
      cases refused
    · exact fun large => absurd large small

/-- The two entry checks and the size check are all that can refuse a start. -/
theorem startFileTransfer_refuses_iff (e : TransferEngine F) (args : StartArgs) :
    (e.startFileTransfer args).1 = false ↔
      e.transfer.active = true ∨ e.isExitNode = true ∨ args.tooLarge := by
  unfold startFileTransfer
  split
  · rename_i active
    simp [active]
  rename_i idle
  split
  · rename_i exit
    simp [exit]
  rename_i noExit
  have path : (e.prepareTransfer args).localExit = args.onLocalExit := rfl
  dsimp only
  rw [path]
  unfold StartArgs.tooLarge
  cases args.onLocalExit with
  | true => simpa [idle, noExit] using startLocalExit_refuses_iff (e.prepareTransfer args) args
  | false => simpa [idle, noExit] using startMesh_refuses_iff (e.prepareTransfer args) args

/-- A node that already sends or serves refuses without a trace. -/
theorem startFileTransfer_of_busy (e : TransferEngine F) (args : StartArgs)
    (busy : e.transfer.active = true ∨ e.isExitNode = true) :
    e.startFileTransfer args = (false, e) := by
  unfold startFileTransfer
  rcases busy with active | exit
  · simp [active]
  · simp [exit]

/-! ## What a refused start leaves behind -/

/-- The engine is as before, the outputs and the congestion back-off in `io` included; only
`io.env` may have moved on, the readings and answers that the surroundings give to calls. -/
def SameState (e after : TransferEngine F) : Prop := ∃ env, after = e.setEnv env

/-- A random number that gives a session other than the recorded one. -/
theorem exists_other_session (session : Nat) :
    ∃ random, (if toU16 random ≠ 0 then toU16 random else 1) ≠ session := by
  by_cases first : session = 1
  · exists 2
    simp [toU16, first]
  · exists 1
    simpa [toU16] using Ne.symm first

/-- A refusal behind the entry checks changes the recorded session, for some draw. -/
theorem exists_refusal_with_new_session (e : TransferEngine F) (args : StartArgs)
    (idle : ¬ e.transfer.active = true) (noExit : ¬ e.isExitNode = true)
    (large : args.tooLarge) :
    ∃ env, ((e.setEnv env).startFileTransfer args).1 = false ∧
      ((e.setEnv env).startFileTransfer args).2.transfer.sessionId ≠ e.transfer.sessionId := by
  obtain ⟨random, other⟩ := exists_other_session e.transfer.sessionId
  -- The draw of this call differs from the session the record holds.
  have refused := (startFileTransfer_refuses_iff (e.setEnv { random := random }) args).mpr
    (.inr (.inr large))
  refine ⟨{ random := random }, refused, ?_⟩
  have starts := starts_startFileTransfer (e.setEnv { random := random }) args
  generalize (e.setEnv { random := random }).startFileTransfer args = result at *
  cases starts with
  | refused busy =>
      rcases busy with active | exit
      · exact absurd active idle
      · exact absurd exit noExit
  | rejected after count inactive free tooLarge role cloud later log =>
      have drawn : after.role.sessionId = (e.setEnv { random := random }).drawnSession :=
        congrArg Role.sessionId role
      exact fun kept => other (drawn.symm.trans kept)
  | onLocalExit => cases refused
  | onMesh => cases refused

/-- A refused start leaves the engine as it was, whatever it draws and reads, exactly when
the refusal comes from an entry check; otherwise some draw changes the recorded session. -/
theorem refused_start_keeps_state_iff (e : TransferEngine F) (args : StartArgs) :
    ((∀ env, ((e.setEnv env).startFileTransfer args).1 = false →
      SameState e ((e.setEnv env).startFileTransfer args).2) ↔
      e.transfer.active = true ∨ e.isExitNode = true ∨ ¬ args.tooLarge) ∧
    (¬ (e.transfer.active = true ∨ e.isExitNode = true ∨ ¬ args.tooLarge) →
      ∃ env, ((e.setEnv env).startFileTransfer args).1 = false ∧
        ((e.setEnv env).startFileTransfer args).2.transfer.sessionId ≠
          e.transfer.sessionId) := by
  have late : ¬ (e.transfer.active = true ∨ e.isExitNode = true ∨ ¬ args.tooLarge) →
      ∃ env, ((e.setEnv env).startFileTransfer args).1 = false ∧
        ((e.setEnv env).startFileTransfer args).2.transfer.sessionId ≠
          e.transfer.sessionId := by
    intro late
    simp only [not_or, not_not] at late
    exact exists_refusal_with_new_session e args late.1 late.2.1 late.2.2
  refine ⟨⟨?_, ?_⟩, late⟩
  · intro keeps
    by_contra behind
    obtain ⟨env, refused, changed⟩ := late behind
    obtain ⟨_, same⟩ := keeps env refused
    have kept := congrArg (fun e : TransferEngine F => e.transfer.sessionId) same
    exact changed kept
  · intro early env refused
    have checks := (startFileTransfer_refuses_iff (e.setEnv env) args).mp refused
    have busy : e.transfer.active = true ∨ e.isExitNode = true := by
      rcases checks with active | exit | large
      · exact .inl active
      · exact .inr exit
      · rcases early with active | exit | small
        · exact .inl active
        · exact .inr exit
        · exact absurd large small
    rw [startFileTransfer_of_busy (e.setEnv env) args busy]
    exact ⟨env, rfl⟩

/-- An exit that has answered the advertisement of session 5 for node 1 is asked to send a
file of its own that is too large for the cloud.  Then the first fragment of session 5
arrives, and ten seconds pass. -/
def pendingExitStart : List Call :=
  [{ env := { clock := fun _ => 1000 }
     event := .transferAd 1
      (TransferAd.toBytes
        { sessionId := 5
          fileSize := 3
          fragmentSizeD8 := 182
          crc32 := 6
          fragmentCount := 1
          filenameLen := 1
          filename := [97] }) true },
    { env := { clock := fun _ => 2000, random := 9, readLimits := [0] }
      event := .startFileTransfer
        { filename := [98]
          size := 8193 * 1456
          readChunk := fun _ len => List.replicate len 0
          hasInternet := true
          hasMqtt := true } },
    { env := { clock := fun _ => 3000 }, event := .data 1 0 [1, 2, 3] },
    { event := .tick 13000 }]

/-- The refused file replaces the file of session 5 in its meta, and the periodic meta names
the session and the source of the refused start. -/
theorem refused_start_dirties_pending_exit :
    let started := (boot 2 4 : TransferEngine ℚ).run (pendingExitStart.take 2)
    let after := (boot 2 4 : TransferEngine ℚ).run pendingExitStart
    started.exitPending = true ∧ started.transfer.active = false ∧
      started.transfer.size = 8193 * 1456 ∧ started.localExit = true ∧
      after.activeSessionId = 5 ∧ after.sourceAddr = 1 ∧
      after.io.outputs.filter (fun output => match output with
        | .transferMeta .. => true
        | _ => false) =
        [.transferMeta 9 [98] 2 (8193 * 1456) 1 1456 0,
          .transferMeta 5 [98] 1 (8193 * 1456) 1 1456 0] := by
  decide +kernel

/-! ## The counts of an accepted start -/

/-- What the path announces for a file when nothing is truncated: the data fragments, and
over the mesh one parity for each full group. -/
def StartArgs.exactCount (args : StartArgs) : Nat :=
  if args.onLocalExit then dataFragments args.size
  else dataFragments args.size + dataFragments args.size / fecGroupSize

/-- The limit of the path. -/
def StartArgs.countLimit (args : StartArgs) : Nat :=
  if args.onLocalExit then maxCloudFragments else maxFragmentCount

/-- An accepted start announces the exact count within the limit, and a file whose exact
count is over the limit is refused. -/
def ExactCounts (e : TransferEngine F) (args : StartArgs) : Prop :=
  ((e.startFileTransfer args).1 = true →
    (e.startFileTransfer args).2.transfer.fragmentCount = args.exactCount ∧
      args.exactCount ≤ args.countLimit) ∧
  (args.countLimit < args.exactCount → (e.startFileTransfer args).1 = false)

/-- No truncation to 16 bits leads back under the limit.  Over the mesh 52500 data fragments
are the most that fit, and from 57344 on the count with its parity wraps. -/
def StartArgs.SizeInRange (args : StartArgs) : Prop :=
  let d := dataFragments args.size
  if args.onLocalExit then d ≤ maxCloudFragments ∨ maxCloudFragments < d % 2 ^ 16
  else d ≤ 52500 ∨ (52500 < d % 2 ^ 16 ∧ d % 2 ^ 16 < 57344)

theorem fragmentCount_of_accepted (e : TransferEngine F) (args : StartArgs)
    (accepted : (e.startFileTransfer args).1 = true) :
    (e.startFileTransfer args).2.transfer.fragmentCount = args.announcedCount := by
  have starts := starts_startFileTransfer e args
  generalize e.startFileTransfer args = result at *
  cases starts with
  | refused => cases accepted
  | rejected => cases accepted
  | onLocalExit after io reading idle noExit chosen role => exact congrArg Role.fragmentCount role
  | onMesh after cap idle noExit chosen wide role => exact congrArg Role.fragmentCount role

/-- The data fragments of a 32-bit size, which the sum with the rounding term may wrap. -/
theorem dataFragCount_eq {size : Nat} (fits : size < 2 ^ 32) :
    (size + 1455 < 2 ^ 32 ∧ dataFragCount size = dataFragments size % 2 ^ 16) ∨
      (2 ^ 32 ≤ size + 1455 ∧ dataFragCount size = 0) := by
  have fragment : defaultTransferFragmentSize = 1456 := rfl
  rw [dataFragments_eq]
  unfold dataFragCount toU16
  rw [fragment, Nat.add_sub_assoc (by decide)]
  by_cases wraps : size + 1455 < 2 ^ 32
  · exact .inl ⟨wraps, by rw [Nat.mod_eq_of_lt wraps]⟩
  · refine .inr ⟨not_lt.mp wraps, ?_⟩
    omega

/-- The mesh count of at most `2 ^ 16` data fragments wraps from 57344 on. -/
theorem meshFragmentCount_eq {dataFrags : Nat} (fits : dataFrags < 2 ^ 16) :
    (dataFrags < 57344 ∧ meshFragmentCount dataFrags = dataFrags + dataFrags / 7) ∨
      (57344 ≤ dataFrags ∧
        meshFragmentCount dataFrags + 2 ^ 16 = dataFrags + dataFrags / 7) := by
  have groups : dataFrags / 7 < 2 ^ 16 := by omega
  have rest : dataFrags % 7 < 2 ^ 16 := by omega
  have total : dataFrags / 7 * 8 + dataFrags % 7 = dataFrags + dataFrags / 7 := by omega
  simp only [meshFragmentCount, toU16, fecGroupSize]
  rw [Nat.mod_eq_of_lt groups, Nat.mod_eq_of_lt rest, total]
  omega

/-- The announced count is exact within the limit, and over it only for files over it,
exactly for the sizes in range. -/
theorem announcedCount_sound_iff {args : StartArgs} (fits : args.size < 2 ^ 32) :
    ((args.announcedCount ≤ args.countLimit →
        args.announcedCount = args.exactCount ∧ args.exactCount ≤ args.countLimit) ∧
      (args.countLimit < args.exactCount → args.countLimit < args.announcedCount)) ↔
      args.SizeInRange := by
  have counted := dataFragCount_eq fits
  have small : dataFragCount args.size < 2 ^ 16 := Nat.mod_lt _ (by decide)
  have wide := dataFragments_eq args.size
  unfold StartArgs.announcedCount StartArgs.exactCount StartArgs.countLimit
    StartArgs.SizeInRange
  cases args.onLocalExit with
  | true =>
      simp only [maxCloudFragments, if_true]
      omega
  | false =>
      have total := meshFragmentCount_eq small
      simp only [maxFragmentCount, fecGroupSize, Bool.false_eq_true, if_false]
      omega

/-- For an idle node an accepted start announces the exact count and an oversized file is
refused exactly when the size does not wrap back under the limit. -/
theorem accepted_counts_exact_iff (e : TransferEngine F) (args : StartArgs)
    (fits : args.size < 2 ^ 32) :
    ExactCounts e args ↔
      e.transfer.active = true ∨ e.isExitNode = true ∨ args.SizeInRange := by
  have refuses := startFileTransfer_refuses_iff e args
  by_cases busy : e.transfer.active = true ∨ e.isExitNode = true
  · have refused := refuses.mpr (busy.imp_right .inl)
    have exact : ExactCounts e args := by
      refine ⟨fun accepted => ?_, fun _ => refused⟩
      rw [refused] at accepted
      cases accepted
    exact ⟨fun _ => busy.imp_right .inl, fun _ => exact⟩
  · have large : (e.startFileTransfer args).1 = false ↔ args.countLimit < args.announcedCount := by
      rw [refuses, ← or_assoc, or_iff_right busy]
      unfold StartArgs.tooLarge StartArgs.countLimit StartArgs.announcedCount
      cases args.onLocalExit with
      | true => exact Iff.rfl
      | false => exact Iff.rfl
    rw [← or_assoc, or_iff_right busy, ← announcedCount_sound_iff fits]
    unfold ExactCounts
    rw [large]
    constructor
    · rintro ⟨accepts, refuses⟩
      refine ⟨fun small => ?_, refuses⟩
      have accepted : (e.startFileTransfer args).1 = true := by
        rw [← Bool.not_eq_false, large]
        exact not_lt.mpr small
      rw [← fragmentCount_of_accepted e args accepted]
      exact accepts accepted
    · rintro ⟨exact, refuses⟩
      refine ⟨fun accepted => ?_, refuses⟩
      rw [fragmentCount_of_accepted e args accepted]
      rw [← Bool.not_eq_false, large] at accepted
      exact exact (not_lt.mp accepted)

/-- A start on an idle node with a file of zeros. -/
def zeroFileArgs (size : Nat) (onLocalExit : Bool) : StartArgs where
  filename := [122]
  size := size
  readChunk _ len := List.replicate len 0
  hasInternet := onLocalExit
  hasMqtt := onLocalExit

theorem accepted_counts_exact_three_bytes :
    ExactCounts (boot 1 4 : TransferEngine ℚ) (zeroFileArgs 3 false) :=
  (accepted_counts_exact_iff (boot 1 4 : TransferEngine ℚ) (zeroFileArgs 3 false)
    (by decide)).mpr (.inr (.inr (.inl (by decide))))

/-- Two files far over the limits are accepted: one of 65537 fragments for the cloud with a
count of 1, one of 65536 fragments with its parity for the mesh with a count of 0. -/
theorem wrapped_counts_accepted :
    let e : TransferEngine ℚ := boot 1 4
    let cloud := zeroFileArgs (65537 * 1456) true
    let mesh := zeroFileArgs (57344 * 1456) false
    (cloud.size < 2 ^ 32 ∧ cloud.exactCount = 65537 ∧ (e.startFileTransfer cloud).1 = true ∧
      (e.startFileTransfer cloud).2.transfer.fragmentCount = 1) ∧
    (mesh.size < 2 ^ 32 ∧ mesh.exactCount = 65536 ∧ (e.startFileTransfer mesh).1 = true ∧
      (e.startFileTransfer mesh).2.transfer.fragmentCount = 0) := by
  have accepts : ∀ args : StartArgs, ¬ args.tooLarge →
      ((boot 1 4 : TransferEngine ℚ).startFileTransfer args).1 = true := by
    intro args small
    rw [← Bool.not_eq_false, startFileTransfer_refuses_iff]
    rintro (active | exit | large)
    · cases active
    · cases exit
    · exact small large
  have cloud := accepts (zeroFileArgs (65537 * 1456) true) (by decide)
  have mesh := accepts (zeroFileArgs (57344 * 1456) false) (by decide)
  refine ⟨⟨by decide, by decide, cloud, ?_⟩, ⟨by decide, by decide, mesh, ?_⟩⟩
  · rw [fragmentCount_of_accepted _ _ cloud]
    decide
  · rw [fragmentCount_of_accepted _ _ mesh]
    decide

end ForestLink.Mesh.TransferEngine
