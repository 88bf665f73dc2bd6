/-
Module: ForestLink.Proofs.StallWatchdog
Purpose: When the stall watchdog of a finished mesh upload is armed: only on a node
  that holds the exit role besides its own transfer.
Trusted boundary: none
Main exports: Armed, Watched, Watched.run, watchdog_armed_iff_exit_role
-/
import ForestLink.Proofs.MeshStages

namespace ForestLink.Mesh.TransferEngine

open ForestLink.Lib
open ForestLink.Lib.Dispatch
open ForestLink.Protocol

variable {F : Type} {e after : TransferEngine F}

/-! ## The watchdog -/

/-- The timestamp is set, and the first tick more than the stall timeout after it
ends the transfer. -/
def Armed [PathArith F] (e : TransferEngine F) : Prop :=
  e.lastCloudActivityMs ≠ 0 ∧
    ∀ env now, cloudStallTimeoutMs < sub32 now e.lastCloudActivityMs →
      ((e.setEnv env).tick now).transfer.active = false

/-- No clock reading of the call is the value zero, which marks an unset timestamp. -/
def Call.ReadsNonzero (call : Call) : Prop :=
  call.time % 2 ^ 32 ≠ 0 ∧ ∀ n, call.env.clock n % 2 ^ 32 ≠ 0

/-- The timestamp is set only where fragments are handed to the cloud; and it is set
in every exit role that can meet a transfer of this node, if `nonzero` says that no
reading is zero. -/
structure Watched (nonzero : Prop) (e : TransferEngine F) : Prop where
  serving : e.lastCloudActivityMs ≠ 0 → e.role.serving = true
  stamped : nonzero →
    e.role.exitPending = true ∨ (e.role.active = true ∧ e.role.isExitNode = true) →
    e.lastCloudActivityMs ≠ 0

namespace Watched

variable {nonzero : Prop} {now : Nat} {past : List (Move Nat)}

theorem of_same (watched : Watched nonzero e) (role : after.role = e.role)
    (cloud : after.lastCloudActivityMs = e.lastCloudActivityMs) : Watched nonzero after := by
  constructor
  · rw [role, cloud]
    exact watched.serving
  · rw [role, cloud]
    exact watched.stamped

/-- A stage whose readings are not zero. -/
theorem stage (watched : Watched nonzero e) (stage : Stage now past e after)
    (caller : nonzero → now % 2 ^ 32 ≠ 0)
    (readings : nonzero → ∀ n, e.io.env.clock n % 2 ^ 32 ≠ 0) : Watched nonzero after := by
  cases stage with
  | shift moved =>
      cases moved with
      | calm kept => exact watched.of_same kept.role kept.cloud
      | move move role cloud io placed log => exact watched.of_same role cloud
  | serve serving kept =>
      constructor
      · rw [kept.role]
        exact fun _ => serving
      · intro nonzero exit
        rw [kept.role] at exit
        rcases kept.stamp with same | now | ⟨n, own⟩
        · rw [same]
          exact watched.stamped nonzero exit
        · rw [now]
          exact caller nonzero
        · rw [own]
          exact readings nonzero n
  | silent index inRange busy stale unheard role cloud io log =>
      exact watched.of_same role cloud
  | finish index seq inRange first role cloud io log =>
      constructor
      · rw [role, cloud]
        exact watched.serving
      · rw [role, cloud]
        exact watched.stamped
  | reset active role cloud io log =>
      constructor
      · intro set
        exact absurd cloud set
      · intro _ exit
        rw [role] at exit
        rcases exit with pending | ⟨active, _⟩ <;> contradiction
  | clear exit role cloud io log =>
      constructor
      · intro set
        exact absurd cloud set
      · intro _ exit
        rw [role] at exit
        rcases exit with pending | ⟨_, isExit⟩ <;> contradiction
  | activate pending role cloud published log =>
      constructor
      · intro _
        rw [role]
        exact Role.serving_of_exit rfl
      · intro nonzero _
        rw [cloud]
        exact watched.stamped nonzero (.inl pending)
  | republish serving role cloud published log => exact watched.of_same role cloud
  | elect count reading exitNodes lastAckMs electing role heard clock cloud io log =>
      constructor
      · rw [role, cloud]
        exact watched.serving
      · rw [role, cloud]
        exact watched.stamped

theorem stages (watched : Watched nonzero e) (stages : Stages now past e after)
    (caller : nonzero → now % 2 ^ 32 ≠ 0)
    (readings : nonzero → ∀ n, e.io.env.clock n % 2 ^ 32 ≠ 0) :
    Watched nonzero after ∧ (nonzero → ∀ n, after.io.env.clock n % 2 ^ 32 ≠ 0) := by
  induction stages with
  | refl => exact ⟨watched, readings⟩
  | tail _ next inductionHypothesis =>
      obtain ⟨before, clocks⟩ := inductionHypothesis
      refine ⟨before.stage next caller clocks, ?_⟩
      intro nonzero n
      obtain ⟨m, same⟩ := next.clock n
      rw [same]
      exact clocks nonzero m

/-- An idle node keeps the watchdog's state with its role of exit. -/
theorem of_idle_role (watched : Watched nonzero e) (idle : e.role.active = false)
    (noExit : e.role.isExitNode = false)
    (isExit : after.role.isExitNode = e.role.isExitNode)
    (pending : after.role.exitPending = e.role.exitPending)
    (cloud : after.lastCloudActivityMs = e.lastCloudActivityMs) : Watched nonzero after := by
  have sameExit : after.role.hasExitRole = e.role.hasExitRole := by
    rw [Role.hasExitRole, Role.hasExitRole, isExit, pending]
  constructor
  · intro set
    rw [cloud] at set
    have serving := watched.serving set
    apply Role.serving_of_exit
    rw [sameExit]
    simpa [Role.serving, idle] using serving
  · intro nonzero either
    rw [isExit, noExit, pending] at either
    rw [cloud]
    rcases either with offered | ⟨_, impossible⟩
    · exact watched.stamped nonzero (.inl offered)
    · contradiction

theorem starts {args : StartArgs} {flag : Bool} (watched : Watched nonzero e)
    (starts : Starts e args (flag, after))
    (readings : nonzero → ∀ n, e.io.env.clock n % 2 ^ 32 ≠ 0) : Watched nonzero after := by
  cases starts with
  | refused busy => exact watched
  | rejected _ count idle noExit tooLarge role cloud io log =>
      have isExit := congrArg Role.isExitNode role
      have pending := congrArg Role.exitPending role
      exact watched.of_idle_role idle noExit isExit pending cloud
  | onLocalExit _ io reading idle noExit chosen role cloud later clock outputs log =>
      constructor
      · intro _
        rw [role]
        simp [Role.serving, Role.started, chosen]
      · intro nonzero _
        rw [cloud]
        exact readings nonzero reading
  | onMesh _ cap idle noExit chosen wide role cloud io log =>
      have isExit := congrArg Role.isExitNode role
      have pending := congrArg Role.exitPending role
      exact watched.of_idle_role idle noExit isExit pending cloud

theorem accepts {srcAddr : Nat} {ad : TransferAd} (accepts : Accepts e srcAddr ad after)
    (readings : nonzero → ∀ n, e.io.env.clock n % 2 ^ 32 ≠ 0) : Watched nonzero after := by
  constructor
  · intro _
    rw [accepts.role]
    apply Role.serving_of_exit
    simp [Role.hasExitRole]
  · intro nonzero _
    obtain ⟨reading, cloud⟩ := accepts.cloud
    rw [cloud]
    exact readings nonzero reading

variable [PathArith F]

theorem step (watched : Watched nonzero e) (tracked : Tracked e) (call : Call)
    (reads : nonzero → call.ReadsNonzero) : Watched nonzero (e.step call) := by
  have called : Watched nonzero (e.setEnv call.env) := watched.of_same rfl rfl
  have caller : nonzero → call.time % 2 ^ 32 ≠ 0 := fun nonzero => (reads nonzero).1
  have readings : nonzero → ∀ n, (e.setEnv call.env).io.env.clock n % 2 ^ 32 ≠ 0 :=
    fun nonzero => (reads nonzero).2
  rcases step_cases tracked call with ⟨args, _, started, stepEq⟩ | ⟨_, _, _, _, accepted⟩ |
    stages | ⟨now, before, _, _, stages, completes⟩
  · rw [stepEq]
    exact called.starts started readings
  · exact accepts accepted readings
  · exact (called.stages stages caller readings).1
  · obtain ⟨reached, clocks⟩ := called.stages stages caller readings
    have scheduled : Stages call.time e.log before before.scheduleFragments.2 :=
      stages_scheduleFragments before completes.active
    obtain ⟨final, _⟩ := reached.stages scheduled caller clocks
    rw [completes.done]
    exact ⟨final.serving, final.stamped⟩

theorem boot (myAddr maxElectedExits : Nat) :
    Watched nonzero (TransferEngine.boot (F := F) myAddr maxElectedExits) := by
  constructor
  · intro set
    exact absurd rfl set
  · rintro _ (pending | ⟨active, _⟩) <;> contradiction

theorem run (watched : Watched nonzero e) (tracked : Tracked e) (calls : List Call)
    (reads : nonzero → ∀ call ∈ calls, call.ReadsNonzero) : Watched nonzero (e.run calls) := by
  induction calls generalizing e with
  | nil => exact watched
  | cons call rest inductionHypothesis =>
      apply inductionHypothesis
      · exact watched.step tracked call fun nonzero => reads nonzero call List.mem_cons_self
      · exact tracked.step call
      · exact fun nonzero other member => reads nonzero other (List.mem_cons_of_mem _ member)

end Watched

/-! ## The tick after the upload -/

variable [PathArith F]

/-- With the timestamp set, the stall check of a finished mesh upload ends it. -/
theorem tick_stalled (e : TransferEngine F) (now : Nat) (active : e.transfer.active = true)
    (onMesh : e.localExit = false) (done : e.meshUploadDone = true)
    (set : e.lastCloudActivityMs ≠ 0)
    (stalled : cloudStallTimeoutMs < sub32 now e.lastCloudActivityMs) :
    (e.tick now).transfer.active = false := by
  have kept := keeps_tickArqs e
  have role : (e.tickArqs.republishMeta now).role = e.role := by
    rw [← kept.role]
    unfold republishMeta
    split <;> rfl
  have cloud : (e.tickArqs.republishMeta now).lastCloudActivityMs = e.lastCloudActivityMs := by
    rw [← kept.cloud]
    unfold republishMeta
    split <;> rfl
  obtain ⟨republished, republishedEq⟩ :
      ∃ republished, republished = e.tickArqs.republishMeta now := ⟨_, rfl⟩
  rw [← republishedEq] at role cloud
  have stillMesh : republished.localExit = false := (congrArg Role.localExit role).trans onMesh
  have stillDone : republished.meshUploadDone = true :=
    (congrArg Role.meshUploadDone role).trans done
  have stillActive : republished.transfer.active = true :=
    (congrArg Role.active role).trans active
  have due : republished.cloudStalled now = true := by
    rw [cloudStalled, cloud]
    simp [Nat.pos_of_ne_zero set, stalled]
  have before : e.tickBeforeTransfer now =
      (false, e.tickArqs.resetSenderTransferState false) ∨
      e.tickBeforeTransfer now = (false, republished.resetSenderTransferState false) := by
    unfold tickBeforeTransfer
    dsimp only
    rw [← republishedEq, due, stillMesh, stillDone, stillActive]
    split
    · exact .inl rfl
    · exact .inr rfl
  unfold tick
  rcases before with failed | ended
  · rw [failed]
    exact active_resetSenderTransferState _ false
  · rw [ended]
    exact active_resetSenderTransferState _ false

/-- In every state that a run reaches with a finished mesh upload of this node, the
watchdog is armed only if the node holds the exit role too, and then it is, as long
as no clock reading is zero. -/
theorem watchdog_armed_iff_exit_role (myAddr maxElectedExits : Nat) (calls : List Call) :
    let e := (TransferEngine.boot myAddr maxElectedExits : TransferEngine F).run calls
    e.transfer.active = true → e.localExit = false → e.meshUploadDone = true →
      (e.Armed → e.hasExitRole = true) ∧
        ((∀ call ∈ calls, call.ReadsNonzero) → e.hasExitRole = true → e.Armed) := by
  intro e active onMesh done
  have watched : Watched (∀ call ∈ calls, call.ReadsNonzero) e :=
    (Watched.boot myAddr maxElectedExits).run (Tracked.boot myAddr maxElectedExits) calls id
  constructor
  · rintro ⟨set, _⟩
    have serving := watched.serving set
    have sender : e.role.localExit = false := onMesh
    rw [Role.serving, sender, Bool.and_false, Bool.false_or] at serving
    exact serving
  · intro nonzero exit
    have set : e.lastCloudActivityMs ≠ 0 := by
      apply watched.stamped nonzero
      rcases (Bool.or_eq_true _ _).mp exit with isExit | pending
      · exact .inr ⟨active, isExit⟩
      · exact .inl pending
    exact ⟨set, fun env now stalled =>
      tick_stalled (e.setEnv env) now active onMesh done set stalled⟩

/-! ## A finished upload -/

/-- The first exit acknowledges the only fragment, and the next tick finds the
upload drained. -/
def smallDone : List Call :=
  smallRun ++ [{ env := { clock := fun _ => 9500 }, event := .ack 0 10 }, tickAt 10000]

/-- A source without the exit role ends its upload with the watchdog unset, and is
still active long after. -/
theorem watchdog_unset_after_upload :
    let e := (TransferEngine.boot 1 4 : TransferEngine ℚ).run smallDone
    e.transfer.active = true ∧ e.localExit = false ∧ e.meshUploadDone = true ∧
      e.lastCloudActivityMs = 0 ∧ (e.step (tickAt 80000)).transfer.active = true := by
  decide +kernel

/-- The node has offered itself as an exit to a neighbour before it starts. -/
def offeredExit : Call where
  env := { clock := fun _ => 900 }
  event := .transferAd 20
    (TransferAd.toBytes
      { sessionId := 9
        fileSize := 3
        fragmentSizeD8 := 182
        crc32 := 0
        fragmentCount := 1
        filenameLen := 1
        filename := [103] }) true

theorem watchdog_armed_with_pending_exit :
    let e := (TransferEngine.boot 1 4 : TransferEngine ℚ).run (offeredExit :: smallDone)
    e.transfer.active = true ∧ e.localExit = false ∧ e.meshUploadDone = true ∧
      e.hasExitRole = true ∧ e.Armed := by
  have active : ((TransferEngine.boot 1 4 : TransferEngine ℚ).run
      (offeredExit :: smallDone)).transfer.active = true := by decide +kernel
  have onMesh : ((TransferEngine.boot 1 4 : TransferEngine ℚ).run
      (offeredExit :: smallDone)).localExit = false := by decide +kernel
  have done : ((TransferEngine.boot 1 4 : TransferEngine ℚ).run
      (offeredExit :: smallDone)).meshUploadDone = true := by decide +kernel
  have exit : ((TransferEngine.boot 1 4 : TransferEngine ℚ).run
      (offeredExit :: smallDone)).hasExitRole = true := by decide +kernel
  refine ⟨active, onMesh, done, exit, ?_⟩
  refine (watchdog_armed_iff_exit_role 1 4 (offeredExit :: smallDone) active onMesh done).2 ?_ exit
  intro call member
  simp only [offeredExit, smallDone, smallRun, List.cons_append, List.nil_append,
    List.mem_cons, List.not_mem_nil, or_false] at member
  rcases member with rfl | rfl | rfl | rfl | rfl | rfl | rfl
  all_goals exact ⟨by decide, fun _ => Nat.ne_of_beq_eq_false rfl⟩

end ForestLink.Mesh.TransferEngine
