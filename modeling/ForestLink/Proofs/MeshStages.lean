/-
Module: ForestLink.Proofs.MeshStages
Purpose: Every call of the transfer engine as a sequence of stages: what one stage
  can do to the role, the placement log, the cloud activity timestamp and the
  published descriptions.
Trusted boundary: none
Main exports: Stage, Stages, stages_handleData, transferTick_cases,
  starts_startFileTransfer
-/
import Mathlib.Logic.Relation
import ForestLink.Proofs.MeshAccounting

namespace ForestLink.Mesh.TransferEngine

open ForestLink.Lib
open ForestLink.Lib.Dispatch
open ForestLink.Protocol

variable {F : Type}

/-! ## Stages -/

/-- The node serves, or has offered to serve, as an exit. -/
def Role.hasExitRole (role : Role) : Bool := role.isExitNode || role.exitPending

/-- The node hands fragments to the cloud, its own or those of a source. -/
def Role.serving (role : Role) : Bool := (role.active && role.localExit) || role.hasExitRole

theorem Role.serving_of_exit {role : Role} (exit : role.hasExitRole = true) :
    role.serving = true := by
  rw [Role.serving, exit, Bool.or_true]

/-- The description of the recorded file under a session. -/
def Role.description (role : Role) (session srcNode : Nat) : Output :=
  .transferMeta session role.filename srcNode (role.size % 2 ^ 32) role.fragmentCount
    role.fragmentSize role.crc32

/-- The description that a periodic publication repeats. -/
def Role.repeated (role : Role) : Output :=
  role.description (if role.localExit then role.sessionId else role.activeSessionId)
    (if role.localExit then role.myAddr else role.sourceAddr)

/-- Neither the role nor the log nor the activity timestamp changed. -/
structure Calm (e after : TransferEngine F) : Prop where
  role : after.role = e.role
  log : after.log = e.log
  cloud : after.lastCloudActivityMs = e.lastCloudActivityMs
  io : Io.Later e.io after.io

theorem Keeps.calm {e after : TransferEngine F} (keeps : Keeps e after) : Calm e after :=
  ⟨keeps.role, keeps.log, keeps.cloud, keeps.io⟩

/-- A move of the log that leaves the role alone; placements are made at `time`. -/
def Places (time : Nat) : Move Nat → Prop
  | .assign _ _ placed | .resume _ _ placed => placed = time
  | .skip _ | .fail _ | .lose _ => True
  | _ => False

/-- The move tells that an exit was heard, at its election or by a tracked ACK. -/
def Heard : Move Nat → Prop
  | .launch .. | .finish .. => True
  | _ => False

/-- The log grew from `past`, and no exit was heard since. -/
def Unheard (past log : List (Move Nat)) : Prop :=
  ∃ recent, log = recent ++ past ∧ ∀ move ∈ recent, ¬ Heard move

/-- One description was published. -/
structure Publishes (e after : TransferEngine F) (output : Output) : Prop where
  outputs : after.io.outputs = output :: e.io.outputs
  clock : after.io.env.clock = e.io.env.clock

/-- A change that leaves the role alone and hears of no exit. -/
inductive Shift (e after : TransferEngine F) : Prop
  | calm (kept : Calm e after)
  | move (move : Move Nat) (role : after.role = e.role)
      (cloud : after.lastCloudActivityMs = e.lastCloudActivityMs)
      (io : Io.Later e.io after.io) (placed : Places e.io.timerMs move)
      (log : after.log = move :: e.log)

/-- Any number of such changes. -/
abbrev Shifts : TransferEngine F → TransferEngine F → Prop := Relation.ReflTransGen Shift

/-- The changes of which every call consists; `now` is the time the caller read and
`past` the log at the begin of the call.  Starting a transfer, accepting an
advertisement and the completion flag are not among them. -/
inductive Stage (now : Nat) (past : List (Move Nat)) (e after : TransferEngine F) : Prop
  | shift (shifted : Shift e after)
  | serve (serving : e.role.serving = true) (kept : Serves now e after)
  | silent (index : Nat) (inRange : index < e.role.exitNodeCount)
      (busy : (e.board.window index).Nonempty)
      (stale : e.role.exitNodeTimeoutMs < sub32 now (e.role.lastAckMs index))
      (unheard : Unheard past e.log) (role : after.role = e.role)
      (cloud : after.lastCloudActivityMs = e.lastCloudActivityMs)
      (io : Io.Later e.io after.io)
      (log : after.log = .silent index now e.role.exitNodeTimeoutMs :: e.log)
  | finish (index seq : Nat) (inRange : index < e.role.exitNodeCount)
      (first : e.io.timerMs = now)
      (role : after.role =
        { e.role with
          lastAckMs := Function.update e.role.lastAckMs index (e.io.timerMs % 2 ^ 32) })
      (cloud : after.lastCloudActivityMs = e.lastCloudActivityMs)
      (io : Io.Later e.io after.io)
      (log : after.log = .finish index seq e.io.timerMs :: e.log)
  | reset (active : e.role.active = true) (role : after.role = e.role.resetSender)
      (cloud : after.lastCloudActivityMs = 0) (io : Io.Later e.io after.io)
      (log : after.log = .reset :: e.log)
  | clear (exit : e.role.hasExitRole = true) (role : after.role = e.role.clearExit)
      (cloud : after.lastCloudActivityMs = 0) (io : Io.Later e.io after.io)
      (log : after.log = e.log)
  | activate (pending : e.role.exitPending = true)
      (role : after.role = { e.role with isExitNode := true, exitPending := false })
      (cloud : after.lastCloudActivityMs = e.lastCloudActivityMs)
      (published : Publishes e after
        (e.role.description e.role.activeSessionId e.role.sourceAddr))
      (log : after.log = e.log)
  | republish (serving : (e.role.localExit && e.role.active) || e.role.isExitNode)
      (role : after.role = e.role)
      (cloud : after.lastCloudActivityMs = e.lastCloudActivityMs)
      (published : Publishes e after e.role.repeated) (log : after.log = e.log)
  | elect (count reading : Nat) (exitNodes lastAckMs : Nat → Nat)
      (electing : e.role.electionActive = true)
      (role : after.role =
        { e.role with
          electionActive := false
          exitNodeCount := count
          exitNodes := exitNodes
          lastAckMs := lastAckMs })
      (heard : ∀ index < count, lastAckMs index = e.io.env.clock reading % 2 ^ 32)
      (clock : ∀ n, ∃ later ≥ reading, after.io.env.clock n = e.io.env.clock later)
      (cloud : after.lastCloudActivityMs = e.lastCloudActivityMs)
      (io : Io.Later e.io after.io)
      (log : after.log =
        .launch (Finset.range count) e.role.meshWindowCap (e.io.env.clock reading) :: e.log)

/-- Any number of stages. -/
abbrev Stages (now : Nat) (past : List (Move Nat)) :
    TransferEngine F → TransferEngine F → Prop :=
  Relation.ReflTransGen (Stage now past)

/-- What a stage can do to the role. -/
inductive RoleChange (role : Role) : Role → Prop
  | same : RoleChange role role
  | heard (lastAckMs : Nat → Nat) : RoleChange role { role with lastAckMs := lastAckMs }
  | reset (active : role.active = true) : RoleChange role role.resetSender
  | clear (exit : role.hasExitRole = true) : RoleChange role role.clearExit
  | activate (pending : role.exitPending = true) :
      RoleChange role { role with isExitNode := true, exitPending := false }
  | elect (count : Nat) (exitNodes lastAckMs : Nat → Nat)
      (electing : role.electionActive = true) :
      RoleChange role
        { role with
          electionActive := false
          exitNodeCount := count
          exitNodes := exitNodes
          lastAckMs := lastAckMs }

section Stages

variable {e after : TransferEngine F} {now : Nat} {past : List (Move Nat)}

theorem Stage.roleChange (stage : Stage now past e after) : RoleChange e.role after.role := by
  cases stage with
  | shift moved =>
      cases moved with
      | calm kept =>
          rw [kept.role]
          exact .same
      | move move role cloud io placed log =>
          rw [role]
          exact .same
  | serve serving kept =>
      rw [kept.role]
      exact .same
  | silent index inRange busy stale unheard role cloud io log =>
      rw [role]
      exact .same
  | finish index seq inRange first role cloud io log =>
      rw [role]
      exact .heard _
  | reset active role cloud io log =>
      rw [role]
      exact .reset active
  | clear exit role cloud io log =>
      rw [role]
      exact .clear exit
  | activate pending role cloud published log =>
      rw [role]
      exact .activate pending
  | republish serving role cloud published log =>
      rw [role]
      exact .same
  | elect count reading exitNodes lastAckMs electing role heard clock cloud io log =>
      rw [role]
      exact .elect count exitNodes lastAckMs electing

theorem Stages.roleChanges (stages : Stages now past e after) :
    Relation.ReflTransGen RoleChange e.role after.role :=
  Relation.ReflTransGen.lift TransferEngine.role (fun _ _ => Stage.roleChange) _ _ stages

theorem Keeps.shifts (keeps : Keeps e after) : Shifts e after := .single (.calm keeps.calm)

theorem Calm.shifts (calm : Calm e after) : Shifts e after := .single (.calm calm)

theorem Shifts.stages (shifts : Shifts e after) : Stages now past e after :=
  Relation.ReflTransGen.mono (fun _ _ => Stage.shift) _ _ shifts

theorem Keeps.stages (keeps : Keeps e after) : Stages now past e after :=
  Shifts.stages keeps.shifts

theorem Shifts.unheard (shifts : Shifts e after) (unheard : Unheard past e.log) :
    Unheard past after.log := by
  induction shifts with
  | refl => exact unheard
  | tail _ shift inductionHypothesis =>
      cases shift with
      | calm kept =>
          rw [kept.log]
          exact inductionHypothesis
      | move move role cloud io placed log =>
          obtain ⟨recent, logEq, unheard⟩ := inductionHypothesis
          refine ⟨move :: recent, by rw [log, logEq]; rfl, ?_⟩
          intro other member
          rcases List.mem_cons.mp member with rfl | earlier
          · cases other <;> first | exact id | exact False.elim placed
          · exact unheard other earlier

/-! ## Scheduling -/

theorem calm_sendFragment (e : TransferEngine F) (index seq : Nat) (data : List UInt8) :
    Calm e (e.sendFragment index seq data).2 :=
  ⟨rfl, rfl, rfl, Io.later_radio.sendFragment e.io (e.arq index) seq data⟩

/-- A transmission that is then logged. -/
theorem shifts_placed (e : TransferEngine F) (index seq : Nat) (data : List UInt8)
    {move : Move Nat} (role : after.role = e.role)
    (cloud : after.lastCloudActivityMs = e.lastCloudActivityMs)
    (io : after.io = (e.sendFragment index seq data).2.io)
    (log : after.log = move :: e.log) (placed : Places e.io.timerMs move) :
    Shifts e after := by
  have later : Io.Later e.io after.io := by
    rw [io]
    exact (calm_sendFragment e index seq data).io
  exact .single (.move move role cloud later placed log)

theorem shifts_resume (e : TransferEngine F) (index seq : Nat) (data : List UInt8) :
    Shifts e ((e.sendFragment index seq data).2.note (.resume index seq e.io.timerMs)) :=
  shifts_placed e index seq data rfl rfl rfl rfl rfl

theorem shifts_fedFragment (e : TransferEngine F) (index seq now : Nat) (data : List UInt8)
    (encoder : FecEncoder) :
    Shifts e { (e.sendFragment index seq data).2.fedFragment index seq now e.io.timerMs with
      fecEncoder := encoder } :=
  shifts_placed e index seq data rfl rfl rfl rfl rfl

theorem shifts_foldl {α : Type} {f : TransferEngine F → α → TransferEngine F}
    (each : ∀ e entry, Shifts e (f e entry)) (entries : List α) (e : TransferEngine F) :
    Shifts e (entries.foldl f e) := by
  induction entries generalizing e with
  | nil => exact .refl
  | cons entry rest inductionHypothesis =>
      exact (each e entry).trans (inductionHypothesis (f e entry))

theorem shifts_drainRedistEntry [PathArith F] (e : TransferEngine F) (seq : Nat) :
    Shifts e (e.drainRedistEntry seq) := by
  have kept : ∀ e : TransferEngine F, Calm e (e.keepRedist seq) :=
    fun e => ⟨rfl, rfl, rfl, .refl e.io⟩
  have read : Shifts e (e.readFragment seq).2 := (keeps_readFragment e seq).shifts
  unfold drainRedistEntry
  split
  · exact (kept e).shifts
  split
  · dsimp only
    split
    · exact read.trans ((calm_sendFragment _ _ _ _).shifts.trans (kept _).shifts)
    · exact read.trans (shifts_resume _ _ _ _)
  · exact (kept e).shifts

theorem shifts_drainRedist [PathArith F] (e : TransferEngine F) : Shifts e e.drainRedist := by
  have taken : Calm e { e with redistPending := [] } := ⟨rfl, rfl, rfl, .refl e.io⟩
  exact taken.shifts.trans (shifts_foldl shifts_drainRedistEntry e.redistPending _)

theorem shifts_feed [PathArith F] (clock fuel newSent : Nat) (e : TransferEngine F) :
    Shifts e (feed clock fuel newSent e) := by
  induction fuel generalizing newSent e with
  | zero => exact .refl
  | succ fuel inductionHypothesis =>
      have read : Shifts e (e.readFragment e.transfer.nextFragment).2 :=
        (keeps_readFragment e _).shifts
      unfold feed
      dsimp only
      split
      swap
      · exact .refl
      split
      · exact .refl
      split
      · split
        · exact (calm_sendFragment _ _ _ _).shifts
        · refine Relation.ReflTransGen.trans ?_ (inductionHypothesis _ _)
          exact shifts_fedFragment _ _ _ _ _ _
      split
      · refine Relation.ReflTransGen.trans (.single ?_) (inductionHypothesis _ _)
        exact .move (.skip e.transfer.nextFragment) rfl rfl (.refl e.io) trivial rfl
      split
      · exact read.trans (calm_sendFragment _ _ _ _).shifts
      · refine read.trans (Relation.ReflTransGen.trans ?_ (inductionHypothesis _ _))
        exact shifts_fedFragment _ _ _ _ _ _

theorem shifts_feedNew [PathArith F] (e : TransferEngine F) (clock : Nat) :
    Shifts e (e.feedNew clock) :=
  (keeps_refreshWeights e).shifts.trans (shifts_feed clock _ 0 _)

theorem shifts_enqueueRedist (e : TransferEngine F) (seq : Nat) :
    Shifts e (e.enqueueRedist seq) := by
  unfold enqueueRedist
  split
  · exact Calm.shifts ⟨rfl, rfl, rfl, .refl e.io⟩
  · exact .single (.move (.lose seq) rfl rfl (.refl e.io) trivial rfl)

theorem shifts_redistributeFragment [PathArith F] (firstAlive : Nat) (e : TransferEngine F)
    (seq : Nat) : Shifts e (redistributeFragment firstAlive e seq) := by
  have read : Shifts e (e.readFragment seq).2 := (keeps_readFragment e seq).shifts
  unfold redistributeFragment
  dsimp only
  split
  · exact .refl
  split
  · split
    · exact read.trans (shifts_resume _ _ _ _)
    · exact read.trans ((calm_sendFragment _ _ _ _).shifts.trans (shifts_enqueueRedist _ seq))
  · exact shifts_enqueueRedist e seq

theorem shifts_redistributeDeadExit [PathArith F] (e : TransferEngine F) (dead : Nat) :
    Shifts e (e.redistributeDeadExit dead) := by
  have buried : Shifts e (e.buryExit dead) :=
    .single (.move (.fail dead) rfl rfl (.refl e.io) trivial rfl)
  unfold redistributeDeadExit
  dsimp only
  split
  · exact buried
  · exact buried.trans (shifts_foldl (shifts_redistributeFragment _) _ _)

/-! ## Leaving a role -/

theorem stages_resetSenderTransferState [PathArith F] (e : TransferEngine F)
    (signalComplete : Bool) (active : e.transfer.active = true) :
    Stages now past e (e.resetSenderTransferState signalComplete) := by
  have role := role_resetSenderTransferState e signalComplete
  have io : Io.Later e.io (e.resetSenderTransferState signalComplete).io := by
    unfold resetSenderTransferState
    dsimp only
    split <;> split
    · exact ⟨⟨0, fun _ => rfl⟩, ⟨[_, _], rfl, by simp [Output.isMeta]⟩⟩
    · exact Io.later_output rfl rfl rfl
    · exact Io.later_output rfl rfl rfl
    · exact Io.later_same rfl rfl
  refine .single (.reset active role ?_ io ?_)
  all_goals
    unfold resetSenderTransferState
    dsimp only
    split <;> split <;> rfl

theorem stages_clearExitNodeState (e : TransferEngine F) (exit : e.hasExitRole = true) :
    Stages now past e e.clearExitNodeState := by
  have io : Io.Later e.io e.clearExitNodeState.io := by
    unfold clearExitNodeState
    dsimp only
    split
    · exact Io.later_output rfl rfl rfl
    · exact Io.later_same rfl rfl
  refine .single (.clear exit (role_clearExitNodeState e) ?_ io ?_)
  all_goals
    unfold clearExitNodeState
    dsimp only
    split <;> rfl

/-! ## Exit health -/

theorem stages_checkExitHealth [PathArith F] (now : Nat) {index : Nat} (mirrors : Mirrors e [])
    (inRange : index < e.transfer.exitNodeCount) (unheard : Unheard past e.log) :
    Stages now past e (e.checkExitHealth now index) ∧
      Unheard past (e.checkExitHealth now index).log := by
  unfold checkExitHealth
  split
  · rename_i declared
    simp only [Bool.and_eq_true, decide_eq_true_eq] at declared
    have busy : (e.board.window index).Nonempty := by
      rw [mirrors.window]
      exact Finset.nonempty_iff_ne_empty.mpr
        ((SelectiveRepeat.hasPending_iff (mirrors.wf index)).mp declared.1.2)
    have noted : Stage now past e (e.note (.silent index now e.exitNodeTimeoutMs)) :=
      .silent index inRange busy declared.2 unheard rfl rfl (.refl e.io) rfl
    have buried := shifts_redistributeDeadExit (e.note (.silent index now e.exitNodeTimeoutMs))
      index
    refine ⟨.trans (.single noted) buried.stages, buried.unheard ?_⟩
    obtain ⟨recent, logEq, unheard⟩ := unheard
    refine ⟨.silent index now e.exitNodeTimeoutMs :: recent, congrArg (List.cons _) logEq, ?_⟩
    intro move member
    rcases List.mem_cons.mp member with rfl | earlier
    · exact id
    · exact unheard move earlier
  · exact ⟨.refl, unheard⟩

theorem stages_checkExits [PathArith F] {indices : List Nat} (mirrors : Mirrors e [])
    (inRange : ∀ index ∈ indices, index < e.transfer.exitNodeCount)
    (unheard : Unheard past e.log) :
    Stages now past e (indices.foldl (checkExitHealth now) e) := by
  induction indices generalizing e with
  | nil => exact .refl
  | cons index rest inductionHypothesis =>
      have here := inRange index List.mem_cons_self
      obtain ⟨checked, role⟩ := mirrors.checkExitHealth now here
      obtain ⟨stages, stillUnheard⟩ := stages_checkExitHealth now mirrors here unheard
      have sameCount : (e.checkExitHealth now index).transfer.exitNodeCount =
          e.transfer.exitNodeCount := congrArg Role.exitNodeCount role
      refine stages.trans (inductionHypothesis checked ?_ stillUnheard)
      intro other member
      rw [sameCount]
      exact inRange other (List.mem_cons_of_mem _ member)

/-- Where no window holds a fragment, no exit is given up. -/
theorem checkExits_idle [PathArith F] {indices : List Nat} (mirrors : Mirrors e [])
    (idle : ∀ index, e.board.window index = ∅) :
    indices.foldl (checkExitHealth now) e = e := by
  induction indices with
  | nil => rfl
  | cons index rest inductionHypothesis =>
      have nothing : (e.arq index).hasPending = false := by
        by_contra pending
        have busy := (SelectiveRepeat.hasPending_iff (mirrors.wf index)).mp (by simpa using pending)
        rw [← mirrors.window, idle index] at busy
        exact busy rfl
      have unchanged : e.checkExitHealth now index = e := by
        simp [checkExitHealth, nothing]
      rw [List.foldl_cons, unchanged]
      exact inductionHypothesis

theorem stages_exitNodeHealthTick [PathArith F] (mirrors : Mirrors e [])
    (unheard : Unheard past e.log ∨ ∀ index, e.board.window index = ∅) :
    Stages now past e (e.exitNodeHealthTick now) := by
  unfold exitNodeHealthTick
  split
  · exact .refl
  · rcases unheard with unheard | idle
    · exact stages_checkExits mirrors (fun index => List.mem_range.mp) unheard
    · rw [checkExits_idle mirrors idle]

/-! ## The tick -/

/-- The reading with which the elected exits start. -/
theorem electionClock_reading (e : TransferEngine F) :
    ∃ reading, e.electionClock.io.timerMs = e.io.env.clock reading ∧
      ∀ n, e.electionClock.nowMs.2.io.env.clock n = e.io.env.clock (n + (reading + 1)) := by
  unfold electionClock
  split
  · exact ⟨1, rfl, fun _ => rfl⟩
  · exact ⟨0, rfl, fun _ => rfl⟩

theorem stages_electExits [PathArith F] (e : TransferEngine F)
    (electing : e.electionActive = true) :
    Stages now past e e.electExits := by
  obtain ⟨exitNodes, lastAckMs, role, heard⟩ := role_electExits e
  obtain ⟨reading, timer, clock⟩ := electionClock_reading e
  have clocked := (keeps_electionClock e).trans (keeps_nowMs e.electionClock)
  obtain ⟨io, cloud⟩ := io_installExits e.electionClock.nowMs.1
    (electedExits e.candidates e.maxElectedExits).zipIdx e.electionClock.nowMs.2
  have ioEq : e.electExits.io = e.electionClock.nowMs.2.io.emit .exitNodeElected :=
    congrArg (fun io : Io => io.emit .exitNodeElected) io
  refine .single (.elect _ reading exitNodes lastAckMs electing role ?_ ?_ ?_ ?_ ?_)
  · intro index inRange
    rw [heard index inRange, ← timer]
    rfl
  · intro n
    rw [ioEq]
    exact ⟨n + (reading + 1), by omega, clock n⟩
  · exact cloud.trans clocked.cloud
  · rw [ioEq]
    exact clocked.io.trans (Io.later_output rfl rfl rfl)
  · rw [← timer]
    rfl

theorem stages_electionTimeoutTick [PathArith F] (tracked : Tracked e) :
    Stages now past e (e.electionTimeoutTick now) := by
  unfold electionTimeoutTick
  split
  · exact .refl
  rename_i due
  have electing : e.electionActive = true := by
    simp only [Bool.or_eq_true, not_or] at due
    simpa using due.1
  split
  · obtain ⟨active, _, _⟩ := tracked.scheduled.election electing
    -- The flag that the failed election clears first is cleared by the reset anyway.
    exact stages_resetSenderTransferState e false active
  · exact stages_electExits e electing

/-- Closing the election leaves the log alone or starts a board without fragments. -/
theorem electionTimeoutTick_log [PathArith F] (e : TransferEngine F) (now : Nat) :
    (e.electionTimeoutTick now).log = e.log ∨
      ∀ index, (e.electionTimeoutTick now).board.window index = ∅ := by
  unfold electionTimeoutTick
  split
  · exact .inl rfl
  refine .inr fun index => ?_
  split
  · unfold resetSenderTransferState
    dsimp only
    split <;> split <;> rfl
  · rfl

theorem tickExitRole_log (e : TransferEngine F) (now : Nat) : (e.tickExitRole now).log = e.log := by
  have relayed : (e.drainExitNacks now).drainFragmentAcks.log = e.log :=
    (keeps_drainFragmentAcks _).log.trans (serves_drainExitNacks e now).log
  unfold tickExitRole pollTransferComplete
  split
  · unfold forwardTransferDone clearExitNodeState
    dsimp only
    split <;> exact relayed
  · exact relayed

theorem stages_tickExitRole (e : TransferEngine F) : Stages now past e (e.tickExitRole now) := by
  have relayed : Stages now past e (e.drainExitNacks now).drainFragmentAcks := by
    refine Relation.ReflTransGen.trans ?_ (keeps_drainFragmentAcks _).stages
    by_cases exit : e.isExitNode = true
    · refine .single (.serve (Role.serving_of_exit ?_) (serves_drainExitNacks e now))
      simp [Role.hasExitRole, role, exit]
    · have unchanged : e.drainExitNacks now = e := by simp [drainExitNacks, exit]
      rw [unchanged]
  unfold tickExitRole pollTransferComplete
  split
  · rename_i complete
    simp only [Bool.and_eq_true] at complete
    refine relayed.trans ?_
    refine Relation.ReflTransGen.trans (keeps_sendPacket _ _ _ _ _).stages
      (stages_clearExitNodeState _ ?_)
    simp [hasExitRole, TransferEngine.sendPacket, complete.1]
  · exact relayed

theorem stages_tickStages [PathArith F] (tracked : Tracked e) (log : e.log = past) :
    Stages now past e (e.tickStages now) := by
  have exit : Tracked (e.tickExitRole now) := tracked.tickExitRole now
  have broadcast := keeps_broadcastRetryTick (e.tickExitRole now) now
  have elected := (exit.of_keeps broadcast).electionTimeoutTick now
  have sameLog : ((e.tickExitRole now).broadcastRetryTick now).log = past :=
    broadcast.log.trans ((tickExitRole_log e now).trans log)
  refine (((stages_tickExitRole e).trans broadcast.stages).trans
    (stages_electionTimeoutTick (exit.of_keeps broadcast))).trans ?_
  apply stages_exitNodeHealthTick elected.mirrors
  rcases electionTimeoutTick_log ((e.tickExitRole now).broadcastRetryTick now) now with
    same | idle
  · exact .inl ⟨[], same.trans sameLog, fun _ impossible => absurd impossible List.not_mem_nil⟩
  · exact .inr idle

theorem stages_republishMeta (e : TransferEngine F) (time : Nat) :
    Stages now past e (e.republishMeta time) := by
  unfold republishMeta
  split
  · rename_i due
    simp only [Bool.and_eq_true] at due
    refine .single (.republish due.2 rfl rfl ⟨?_, rfl⟩ rfl)
    unfold Role.repeated Role.description
    rfl
  · exact .refl

theorem republishMeta_log (e : TransferEngine F) (time : Nat) :
    (e.republishMeta time).log = e.log := by
  unfold republishMeta
  split <;> rfl

theorem stages_tickBeforeTransfer [PathArith F] (now : Nat) (tracked : Tracked e) :
    Stages now e.log e (e.tickBeforeTransfer now).2 := by
  have ticked := keeps_tickArqs e
  have republished : Tracked (e.tickArqs.republishMeta now) :=
    (tracked.of_keeps ticked).republishMeta now
  have begun : Stages now e.log e (e.tickArqs.republishMeta now) :=
    ticked.stages.trans (stages_republishMeta _ now)
  have log : (e.tickArqs.republishMeta now).log = e.log :=
    (republishMeta_log _ now).trans ticked.log
  unfold tickBeforeTransfer
  dsimp only
  split
  · rename_i failed
    simp only [arqFailed, Bool.and_eq_true] at failed
    exact ticked.stages.trans (stages_resetSenderTransferState _ false failed.1.1)
  split
  · split
    · rename_i stalled
      simp only [Bool.and_eq_true] at stalled
      exact begun.trans (stages_resetSenderTransferState _ true stalled.2)
    split
    · rename_i stalled
      simp only [Bool.and_eq_true] at stalled
      exact begun.trans (stages_resetSenderTransferState _ false stalled.1.2)
    split
    · rename_i exit
      refine (begun.trans (stages_clearExitNodeState _ exit)).trans
        (stages_tickStages republished.clearExitNodeState (Eq.trans ?_ log))
      unfold TransferEngine.clearExitNodeState
      dsimp only
      split <;> rfl
    · exact begun.trans (stages_tickStages republished log)
  · exact begun.trans (stages_tickStages republished log)

theorem stages_scheduleFragments [PathArith F] (e : TransferEngine F)
    (active : e.transfer.active = true) :
    Stages now past e e.scheduleFragments.2 := by
  have drained := (keeps_nowMs e).trans (keeps_drainOow e.nowMs.2 e.nowMs.1)
  unfold scheduleFragments
  dsimp only
  split
  · exact .refl
  split
  · exact stages_resetSenderTransferState e false active
  split
  · exact (drained.trans (keeps_signalCongestion _)).stages
  split
  · exact drained.stages
  split
  · exact drained.stages.trans (Shifts.stages (shifts_drainRedist _))
  · exact drained.stages.trans
      (Shifts.stages ((shifts_drainRedist _).trans (shifts_feedNew _ _)))

theorem stages_tickLocalExitArq [PathArith F] (e : TransferEngine F)
    (active : e.transfer.active = true) (onLocalExit : e.localExit = true) :
    Stages now past e e.tickLocalExitArq := by
  have kept := serves_serveLocalExit now e
  have served : Stages now past e e.serveLocalExit := by
    refine .single (.serve ?_ kept)
    simp [Role.serving, role, active, onLocalExit]
  have stillActive : e.serveLocalExit.transfer.active = true :=
    (congrArg Role.active kept.role).trans active
  unfold tickLocalExitArq
  dsimp only
  split
  · exact served.trans (stages_resetSenderTransferState _ true stillActive)
  · exact served

/-- The stage reaches its completion test, and the test raises the flag. -/
structure Completes [PathArith F] (e after : TransferEngine F) : Prop where
  active : e.transfer.active = true
  closed : e.electionActive = false
  noBackoff : e.io.congestionBackoffTicks = 0
  onMesh : e.localExit = false
  reached : e.scheduleFragments.1 = true
  drained : e.scheduleFragments.2.uploadDrained = true
  done : after = { e.scheduleFragments.2 with meshUploadDone := true }

theorem transferTick_cases [PathArith F] (e : TransferEngine F) (now : Nat)
    (past : List (Move Nat)) :
    Stages now past e e.transferTick ∨ Completes e e.transferTick := by
  unfold transferTick
  split
  · exact .inl .refl
  rename_i running
  simp only [Bool.or_eq_true, Bool.not_eq_true', not_or, Bool.not_eq_true,
    Bool.not_eq_false] at running
  split
  · refine .inl (Keeps.stages (keeps_io ?_))
    exact Io.later_same rfl rfl
  rename_i backoff
  split
  · rename_i onLocalExit
    exact .inl (stages_tickLocalExitArq e running.1 onLocalExit)
  rename_i onMesh
  have stages : Stages now past e e.scheduleFragments.2 :=
    stages_scheduleFragments e running.1
  unfold tickMeshArq checkUploadDrained
  split
  · rename_i reached
    split
    · rename_i drained
      exact .inr ⟨running.1, running.2, Nat.eq_zero_of_not_pos backoff, by simpa using onMesh,
        reached, drained, rfl⟩
    · exact .inl stages
  · exact .inl stages

/-! ## Handlers -/

/-- The advertisement gives the node the pending exit role. -/
structure Accepts (e : TransferEngine F) (srcAddr : Nat) (ad : TransferAd)
    (after : TransferEngine F) : Prop where
  inactive : e.role.active = false
  free : e.role.hasExitRole = false
  role : after.role =
    { e.role with
      exitPending := true
      activeSessionId := ad.sessionId
      sourceAddr := srcAddr
      size := ad.fileSize
      fragmentCount := ad.fragmentCount
      fragmentSize := ad.fragmentSizeD8 * 8
      crc32 := ad.crc32
      filename := adFilename ad }
  cloud : ∃ reading, after.lastCloudActivityMs = e.io.env.clock reading % 2 ^ 32
  io : Io.Later e.io after.io
  log : after.log = e.log

theorem handleTransferAd_cases (e : TransferEngine F) (srcAddr : Nat) (payload : List UInt8)
    (hasInternet : Bool) :
    Keeps e (e.handleTransferAd srcAddr payload hasInternet) ∨
      (minTransferAdLen ≤ payload.length ∧ hasInternet = true ∧
        Accepts e srcAddr (TransferAd.ofBytes payload)
          (e.handleTransferAd srcAddr payload hasInternet)) := by
  unfold handleTransferAd
  dsimp only
  split
  · exact .inl (.refl e)
  rename_i complete
  split
  · exact .inl (.refl e)
  rename_i online
  split
  · exact .inl (.refl e)
  rename_i notActive
  have inactive : e.transfer.active = false := by simpa using notActive
  split
  · exact .inl (.refl e)
  split
  · exact .inl (keeps_sendTransferAck e _ _ _)
  rename_i notExit
  have free : e.hasExitRole = false := by simpa using notExit
  have answered := keeps_sendTransferAck e srcAddr (TransferAd.ofBytes payload).sessionId 0
  obtain ⟨readings, clock⟩ := answered.io.clock
  refine .inr ⟨Nat.le_of_not_lt complete, by simpa using online, inactive, free, rfl,
    ⟨readings, ?_⟩, ?_, rfl⟩
  · have reading := clock 0
    rw [Nat.zero_add] at reading
    rw [← reading]
    rfl
  · exact answered.io.trans (Io.later_nowMs _)

theorem stages_handleData (e : TransferEngine F) (srcAddr seq : Nat) (payload : List UInt8) :
    Stages now past e (e.handleData srcAddr seq payload) := by
  unfold handleData
  split
  · rename_i exit
    unfold activateExit
    split
    · rename_i first
      simp only [Bool.and_eq_true] at first
      refine .trans (.single (.activate first.1.1 ?_ ?_ ⟨?_, ?_⟩ ?_))
        (.single (.serve (Role.serving_of_exit ?_) (serves_forwardFragment now _ seq payload)))
      all_goals rfl
    · exact .single (.serve (Role.serving_of_exit exit) (serves_forwardFragment now e seq payload))
  · exact (keeps_setPeer e srcAddr).stages

theorem stages_handleAck [PathArith F] (e : TransferEngine F) (seq fromAddr : Nat) :
    Stages e.io.timerMs past e (e.handleAck seq fromAddr) := by
  unfold handleAck
  split
  · exact .refl
  rename_i index found
  have later : Io.Later e.io
      (SelectiveRepeat.handleAck Io.radio e.nowMs.2.io (e.arq index) seq).2 :=
    (Io.later_nowMs e.io).trans (Io.later_radio.handleAck _ _ _)
  dsimp only
  split
  · exact .single (.finish index seq (Tracked.arqIndexForPeer_lt found) rfl rfl rfl later rfl)
  · exact Shifts.stages (Calm.shifts ⟨rfl, rfl, rfl, later⟩)

theorem stages_handleTransferDone [PathArith F] (e : TransferEngine F) (sender : Nat)
    (payload : List UInt8) : Stages now past e (e.handleTransferDone sender payload) := by
  unfold handleTransferDone
  dsimp only
  split
  · exact .refl
  rename_i active
  split
  · exact .refl
  split
  · exact .refl
  split
  · exact .refl
  · exact stages_resetSenderTransferState e true (by simpa using active)

theorem stages_handleExitOffline [PathArith F] (e : TransferEngine F) (exitAddr sessionId : Nat) :
    Stages now past e (e.handleExitOffline exitAddr sessionId) := by
  unfold handleExitOffline
  split
  · exact .refl
  split
  · exact .refl
  split
  · exact .refl
  · exact Shifts.stages (shifts_redistributeDeadExit e _)

/-! ## Starting a transfer -/

/-- The session id that a start draws. -/
def drawnSession (e : TransferEngine F) : Nat :=
  if toU16 e.io.env.random ≠ 0 then toU16 e.io.env.random else 1

/-- The checksum of the file as a start reads it. -/
def fileCrc (e : TransferEngine F) (args : StartArgs) : Nat :=
  (crcLoop args.readChunk args.size args.size 0 0 e.io).1.toNat

/-- The arguments choose the local-exit path. -/
def StartArgs.onLocalExit (args : StartArgs) : Bool := args.hasInternet && args.hasMqtt

/-- The number of fragments that the chosen path announces. -/
def StartArgs.announcedCount (args : StartArgs) : Nat :=
  if args.onLocalExit then dataFragCount args.size
  else meshFragmentCount (dataFragCount args.size)

/-- The role after `start_file_transfer` filled in the record. -/
def Role.started (role : Role) (args : StartArgs) (session crc count : Nat) : Role :=
  { role with
    active := true
    localExit := args.onLocalExit
    sessionId := session
    size := args.size
    crc32 := crc
    fragmentCount := count
    fragmentSize := defaultTransferFragmentSize
    filename := args.filename.take 32
    exitNodeTimeoutMs :=
      if args.onLocalExit then 30000
      else computeExitTimeoutMs (sanitizeHopsToExit args.hopsToInternet) }

/-- What `start_file_transfer` can do. -/
inductive Starts (e : TransferEngine F) (args : StartArgs) : Bool × TransferEngine F → Prop
  | refused (busy : e.role.active = true ∨ e.role.isExitNode = true) : Starts e args (false, e)
  | rejected (after : TransferEngine F) (count : Nat) (idle : e.role.active = false)
      (noExit : e.role.isExitNode = false)
      (tooLarge : args.onLocalExit = true → maxCloudFragments < dataFragCount args.size)
      (role : after.role =
        { e.role.started args e.drawnSession (e.fileCrc args) count with active := false })
      (cloud : after.lastCloudActivityMs = e.lastCloudActivityMs)
      (io : Io.Later e.io after.io) (log : after.log = e.log) : Starts e args (false, after)
  | onLocalExit (after : TransferEngine F) (io : Io) (reading : Nat)
      (idle : e.role.active = false) (noExit : e.role.isExitNode = false)
      (chosen : args.onLocalExit = true)
      (role : after.role =
        e.role.started args e.drawnSession (e.fileCrc args) args.announcedCount)
      (cloud : after.lastCloudActivityMs = e.io.env.clock reading % 2 ^ 32)
      (later : Io.Later e.io io) (clock : after.io.env.clock = io.env.clock)
      (outputs : after.io.outputs =
        .transferMeta e.drawnSession args.filename e.role.myAddr (args.size % 2 ^ 32)
          args.announcedCount defaultTransferFragmentSize (e.fileCrc args) :: io.outputs)
      (log : after.log = e.log) : Starts e args (true, after)
  | onMesh (after : TransferEngine F) (cap : Nat) (idle : e.role.active = false)
      (noExit : e.role.isExitNode = false) (chosen : args.onLocalExit = false) (wide : 0 < cap)
      (role : after.role =
        { e.role.started args e.drawnSession (e.fileCrc args) args.announcedCount with
          electionActive := true
          meshWindowCap := cap })
      (cloud : after.lastCloudActivityMs = e.lastCloudActivityMs)
      (io : Io.Later e.io after.io) (log : after.log = e.log) : Starts e args (true, after)

theorem later_prepareTransfer (e : TransferEngine F) (args : StartArgs) :
    Io.Later e.io (e.prepareTransfer args).io :=
  io_prepareTransfer .refl .trans Io.later_nowMs Io.later_readChunk e args

theorem starts_startLocalExit (e : TransferEngine F) (args : StartArgs)
    (idle : e.role.active = false) (noExit : e.role.isExitNode = false)
    (chosen : args.onLocalExit = true) :
    Starts e args ((e.prepareTransfer args).startLocalExit args) := by
  have later := later_prepareTransfer e args
  have count : args.announcedCount = dataFragCount args.size := by
    rw [StartArgs.announcedCount, if_pos chosen]
  unfold startLocalExit
  dsimp only
  split
  · rename_i tooLarge
    exact .rejected _ e.transfer.fragmentCount idle noExit (fun _ => tooLarge) rfl rfl later rfl
  rename_i inBitmap
  split
  · rename_i tooLarge
    exact absurd (lt_trans (by decide) tooLarge) inBitmap
  · obtain ⟨readings, clock⟩ := later.clock
    refine .onLocalExit _ _ readings idle noExit chosen ?_ ?_ (later.trans (Io.later_nowMs _))
      rfl ?_ rfl
    · rw [count]
      rfl
    · have reading := clock 0
      rw [Nat.zero_add] at reading
      rw [← reading]
      rfl
    · rw [count]
      rfl

theorem computeMeshWindowCap_pos (hops : Nat) : 0 < computeMeshWindowCap hops := by
  unfold computeMeshWindowCap
  split
  · decide
  split <;> decide

theorem starts_startMesh (e : TransferEngine F) (args : StartArgs)
    (idle : e.role.active = false) (noExit : e.role.isExitNode = false)
    (chosen : args.onLocalExit = false) :
    Starts e args ((e.prepareTransfer args).startMesh args) := by
  have later := later_prepareTransfer e args
  have count : args.announcedCount = meshFragmentCount (dataFragCount args.size) := by
    rw [StartArgs.announcedCount, chosen]
    rfl
  unfold startMesh sendBroadcastWithRetry
  dsimp only
  split
  · refine .rejected _ (meshFragmentCount (dataFragCount args.size)) idle noExit ?_ rfl rfl later
      rfl
    intro onLocalExit
    rw [chosen] at onLocalExit
    contradiction
  · have clocked := later.trans (Io.later_nowMs _)
    split
    all_goals
      refine .onMesh _ (computeMeshWindowCap (sanitizeHopsToExit args.hopsToInternet)) idle
        noExit chosen (computeMeshWindowCap_pos _) ?_ rfl clocked rfl
      rw [count]
      rfl

theorem starts_startFileTransfer (e : TransferEngine F) (args : StartArgs) :
    Starts e args (e.startFileTransfer args) := by
  unfold startFileTransfer
  split
  · rename_i active
    exact .refused (.inl active)
  rename_i inactive
  have idle : e.role.active = false := eq_false_of_ne_true inactive
  split
  · rename_i exit
    exact .refused (.inr exit)
  rename_i notExit
  have noExit : e.role.isExitNode = false := eq_false_of_ne_true notExit
  dsimp only
  split
  · rename_i chosen
    exact starts_startLocalExit e args idle noExit chosen
  · rename_i chosen
    exact starts_startMesh e args idle noExit (eq_false_of_ne_true chosen)

/-- A stage reads the clock of its call. -/
theorem Stage.clock (stage : Stage now past e after) (n : Nat) :
    ∃ m, after.io.env.clock n = e.io.env.clock m := by
  have shifted : Io.Later e.io after.io → ∃ m, after.io.env.clock n = e.io.env.clock m := by
    intro later
    obtain ⟨readings, clock⟩ := later.clock
    exact ⟨n + readings, clock n⟩
  cases stage with
  | shift moved =>
      cases moved with
      | calm kept => exact shifted kept.io
      | move move role cloud io placed log => exact shifted io
  | serve serving kept => exact shifted kept.io
  | silent index inRange busy stale unheard role cloud io log => exact shifted io
  | finish index seq inRange first role cloud io log => exact shifted io
  | reset active role cloud io log => exact shifted io
  | clear exit role cloud io log => exact shifted io
  | activate pending role cloud published log => exact ⟨n, congrFun published.clock n⟩
  | republish serving role cloud published log => exact ⟨n, congrFun published.clock n⟩
  | elect count reading exitNodes lastAckMs electing role heard clock cloud io log =>
      exact shifted io

/-! ## Calls -/

/-- The time of a call: the one its caller read, or the first reading inside. -/
def Call.time (call : Call) : Nat :=
  match call.event with
  | .tick now | .healthTick now => now
  | _ => call.env.clock 0

/-- What one call can do. -/
theorem step_cases [PathArith F] (tracked : Tracked e) (call : Call) :
    (∃ args, call.event = .startFileTransfer args ∧
        Starts (e.setEnv call.env) args ((e.setEnv call.env).startFileTransfer args) ∧
        e.step call = ((e.setEnv call.env).startFileTransfer args).2) ∨
      (∃ srcAddr payload hasInternet, call.event = .transferAd srcAddr payload hasInternet ∧
        Accepts (e.setEnv call.env) srcAddr (TransferAd.ofBytes payload) (e.step call)) ∨
      Stages call.time e.log (e.setEnv call.env) (e.step call) ∨
      ∃ now before, call.event = .tick now ∧
        (e.setEnv call.env).tickBeforeTransfer now = (true, before) ∧
        Stages call.time e.log (e.setEnv call.env) before ∧ Completes before (e.step call) := by
  have called : Tracked (e.setEnv call.env) := tracked.of_flags rfl rfl rfl rfl rfl rfl rfl
  obtain ⟨env, event⟩ := call
  cases event with
  | startFileTransfer args => exact .inl ⟨args, rfl, starts_startFileTransfer _ args, rfl⟩
  | transferAd srcAddr payload hasInternet =>
      rcases handleTransferAd_cases (e.setEnv env) srcAddr payload hasInternet with
        kept | ⟨_, _, accepts⟩
      · exact .inr (.inr (.inl kept.stages))
      · exact .inr (.inl ⟨srcAddr, payload, hasInternet, rfl, accepts⟩)
  | transferAck payload => exact .inr (.inr (.inl (keeps_handleTransferAck _ payload).stages))
  | data srcAddr seq payload => exact .inr (.inr (.inl (stages_handleData _ srcAddr seq payload)))
  | ack seq fromAddr => exact .inr (.inr (.inl (stages_handleAck (e.setEnv env) seq fromAddr)))
  | nack seq fromAddr => exact .inr (.inr (.inl (keeps_handleNack _ seq fromAddr).stages))
  | exitOffline exitAddr sessionId =>
      exact .inr (.inr (.inl (stages_handleExitOffline _ exitAddr sessionId)))
  | transferDone sender payload =>
      exact .inr (.inr (.inl (stages_handleTransferDone _ sender payload)))
  | congestion => exact .inr (.inr (.inl (keeps_signalCongestion _).stages))
  | healthTick now =>
      refine .inr (.inr (.inl (stages_exitNodeHealthTick called.mirrors (.inl ⟨[], rfl, ?_⟩))))
      exact fun _ impossible => absurd impossible List.not_mem_nil
  | tick now =>
      have before := stages_tickBeforeTransfer now called
      have stepEq : e.step ⟨env, .tick now⟩ = (e.setEnv env).tick now := rfl
      rw [stepEq]
      unfold tick
      dsimp only
      split
      · rename_i goesOn
        rcases transferTick_cases ((e.setEnv env).tickBeforeTransfer now).2 now e.log with
          stages | completes
        · exact .inr (.inr (.inl (before.trans stages)))
        · exact .inr (.inr (.inr ⟨now, _, rfl, Prod.ext goesOn rfl, before, completes⟩))
      · exact .inr (.inr (.inl before))

end Stages

end ForestLink.Mesh.TransferEngine
