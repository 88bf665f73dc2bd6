/-
Module: ForestLink.Proofs.RoleExclusion
Purpose: When the sender role and the exit role of one node exclude each other, and
  what that means for the transfer record they share and the descriptions published
  from it.
Trusted boundary: none
Main exports: Announcement, FreeFor, Apart, roles_apart_in_free_runs
-/
import ForestLink.Proofs.StallWatchdog

namespace ForestLink.Mesh.TransferEngine

open ForestLink.Lib
open ForestLink.Lib.Dispatch
open ForestLink.Protocol

variable {F : Type} {e after : TransferEngine F}

/-! ## Sessions and their files -/

/-- The fields of the transfer record that both roles use. -/
def Role.file (role : Role) : List UInt8 × Nat × Nat × Nat × Nat :=
  (role.filename, role.size, role.fragmentCount, role.fragmentSize, role.crc32)

/-- What a session announced about its file when the node took its role in it. -/
structure Announcement where
  session : Nat
  srcNode : Nat
  filename : List UInt8
  size : Nat
  fragmentCount : Nat
  fragmentSize : Nat
  crc32 : Nat
deriving Repr, DecidableEq

namespace Announcement

/-- The session that a successful start opens. -/
def ofStart (e : TransferEngine F) (args : StartArgs) : Announcement where
  session := e.drawnSession
  srcNode := e.myAddr
  filename := args.filename
  size := args.size
  fragmentCount := args.announcedCount
  fragmentSize := defaultTransferFragmentSize
  crc32 := e.fileCrc args

/-- The session of another node that an advertisement offers. -/
def ofAd (srcAddr : Nat) (ad : TransferAd) : Announcement where
  session := ad.sessionId
  srcNode := srcAddr
  filename := adFilename ad
  size := ad.fileSize
  fragmentCount := ad.fragmentCount
  fragmentSize := ad.fragmentSizeD8 * 8
  crc32 := ad.crc32

/-- The announced file as the transfer record holds it, with 32 bytes of the name. -/
def file (a : Announcement) : List UInt8 × Nat × Nat × Nat × Nat :=
  (a.filename.take 32, a.size, a.fragmentCount, a.fragmentSize, a.crc32)

/-- A published description is that of the announced file. -/
def Describes (a : Announcement) : Output → Prop
  | .transferMeta session filename srcNode totalSize chunkCount fragmentSize crc32 =>
      session = a.session ∧ srcNode = a.srcNode ∧ filename = a.filename ∧
        totalSize = a.size % 2 ^ 32 ∧ chunkCount = a.fragmentCount ∧
        fragmentSize = a.fragmentSize ∧ crc32 = a.crc32
  | _ => False

theorem describes_recorded {a : Announcement} {role : Role} (recorded : role.file = a.file)
    (fits : a.filename.length ≤ 32) : a.Describes (role.description a.session a.srcNode) := by
  simp only [Role.file, file, Prod.mk.injEq] at recorded
  obtain ⟨filename, size, fragmentCount, fragmentSize, crc32⟩ := recorded
  refine ⟨rfl, rfl, ?_, ?_, fragmentCount, fragmentSize, crc32⟩
  · rw [filename, List.take_of_length_le fits]
  · rw [size]

theorem length_adFilename_le (ad : TransferAd) : (adFilename ad).length ≤ 32 := by
  unfold adFilename
  split
  · rename_i fits
    exact (List.takeWhile_sublist _).length_le.trans
      ((List.length_take_le _ _).trans fits.2)
  · exact Nat.zero_le _

end Announcement

/-- The session that a call opens: a start that succeeds, or an advertisement that gives
the node the exit role. -/
def announcedBy [PathArith F] (e : TransferEngine F) (call : Call) : Option Announcement :=
  match call.event with
  | .startFileTransfer args =>
      if ((e.setEnv call.env).startFileTransfer args).1 then
        some (.ofStart (e.setEnv call.env) args)
      else none
  | .transferAd srcAddr payload _ =>
      if !e.hasExitRole && (e.step call).hasExitRole then
        some (.ofAd srcAddr (TransferAd.ofBytes payload))
      else none
  | _ => none

/-- The session opened last in a run. -/
def announced [PathArith F] :
    TransferEngine F → List Call → Option Announcement → Option Announcement
  | _, [], last => last
  | e, call :: rest, last => announced (e.step call) rest ((e.announcedBy call).or last)

/-! ## Roles apart -/

/-- No transfer is started while an exit offer is pending, none on the node's own exit
with a name longer than the record holds, and no advertisement is taken up while the
local-exit flag of a refused start is still set. -/
def FreeFor (e : TransferEngine F) (call : Call) : Prop :=
  match call.event with
  | .startFileTransfer args =>
      e.exitPending = false ∧ (args.onLocalExit = true → args.filename.length ≤ 32)
  | .transferAd _ payload hasInternet =>
      minTransferAdLen ≤ payload.length → hasInternet = true → e.transfer.active = false →
        e.localExit = false
  | _ => True

/-- Every call of the run is of that kind. -/
def FreeRun [PathArith F] : TransferEngine F → List Call → Prop
  | _, [] => True
  | e, call :: rest => e.FreeFor call ∧ FreeRun (e.step call) rest

/-- The roles exclude each other, and the record holds the file of the session that was
opened last; where the record is published, it holds the whole name. -/
structure Apart (last : Option Announcement) (role : Role) : Prop where
  exclusive : role.active = true → role.hasExitRole = false
  sender : role.active = true →
    ∃ a, last = some a ∧ a.session = role.sessionId ∧ a.srcNode = role.myAddr ∧
      role.file = a.file ∧ (role.localExit = true → a.filename.length ≤ 32)
  exit : role.hasExitRole = true → role.localExit = false ∧
    ∃ a, last = some a ∧ a.session = role.activeSessionId ∧ a.srcNode = role.sourceAddr ∧
      role.file = a.file ∧ a.filename.length ≤ 32

/-- The outputs grew, and every new description is that of the session opened last. -/
def Truthful (last : Option Announcement) (io after : Io) : Prop :=
  ∃ recent, after.outputs = recent ++ io.outputs ∧
    ∀ output ∈ recent, output.isMeta = true → ∃ a, last = some a ∧ a.Describes output

section Outputs

variable {last : Option Announcement} {io mid final : Io}

theorem Truthful.refl (last : Option Announcement) (io : Io) : Truthful last io io :=
  ⟨[], rfl, fun _ impossible => absurd impossible List.not_mem_nil⟩

theorem Truthful.trans (first : Truthful last io mid) (second : Truthful last mid final) :
    Truthful last io final := by
  obtain ⟨early, earlyEq, earlyTrue⟩ := first
  obtain ⟨late, lateEq, lateTrue⟩ := second
  refine ⟨late ++ early, by rw [lateEq, earlyEq, List.append_assoc], ?_⟩
  intro output member isMeta
  rcases List.mem_append.mp member with new | old
  · exact lateTrue output new isMeta
  · exact earlyTrue output old isMeta

theorem truthful_of_later (later : Io.Later io final) : Truthful last io final := by
  obtain ⟨recent, outputs, noMeta⟩ := later.outputs
  refine ⟨recent, outputs, fun output member isMeta => ?_⟩
  rw [noMeta output member] at isMeta
  contradiction

theorem truthful_published {output : Output} {a : Announcement} (current : last = some a)
    (describes : a.Describes output) (outputs : final.outputs = output :: io.outputs) :
    Truthful last io final := by
  refine ⟨[output], outputs, fun other member _ => ?_⟩
  obtain rfl : other = output := List.mem_singleton.mp member
  exact ⟨a, current, describes⟩

end Outputs

/-! ## Stages -/

namespace Apart

variable {last : Option Announcement} {now : Nat} {past : List (Move Nat)} {role : Role}

/-- The fields of the roles and of the record are the same. -/
theorem of_fields (apart : Apart last role) {next : Role} (active : next.active = role.active)
    (exit : next.hasExitRole = role.hasExitRole) (localExit : next.localExit = role.localExit)
    (session : next.sessionId = role.sessionId) (myAddr : next.myAddr = role.myAddr)
    (serving : next.activeSessionId = role.activeSessionId)
    (source : next.sourceAddr = role.sourceAddr)
    (file : next.file = role.file) : Apart last next := by
  constructor
  · rw [active, exit]
    exact apart.exclusive
  · intro isActive
    obtain ⟨a, current, sameSession, sameAddr, recorded, fits⟩ :=
      apart.sender (active.symm.trans isActive)
    exact ⟨a, current, sameSession.trans session.symm, sameAddr.trans myAddr.symm,
      file.trans recorded, fun isLocal => fits (localExit.symm.trans isLocal)⟩
  · intro isExit
    obtain ⟨onMesh, a, current, sameSession, sameAddr, recorded, fits⟩ :=
      apart.exit (exit.symm.trans isExit)
    exact ⟨localExit.trans onMesh, a, current, sameSession.trans serving.symm,
      sameAddr.trans source.symm, file.trans recorded, fits⟩

/-- Without a role there is nothing to keep apart. -/
theorem of_idle (inactive : role.active = false) (free : role.hasExitRole = false) :
    Apart last role := by
  constructor
  · exact fun active => absurd (inactive.symm.trans active) Bool.false_ne_true
  · exact fun active => absurd (inactive.symm.trans active) Bool.false_ne_true
  · exact fun exit => absurd (free.symm.trans exit) Bool.false_ne_true

theorem inactive_of_exit (apart : Apart last role) (exit : role.hasExitRole = true) :
    role.active = false := by
  by_contra active
  have free := apart.exclusive (by simpa using active)
  rw [free] at exit
  contradiction

theorem stage (apart : Apart last e.role) (stage : Stage now past e after) :
    Apart last after.role ∧ Truthful last e.io after.io := by
  cases stage with
  | shift moved =>
      cases moved with
      | calm kept =>
          rw [kept.role]
          exact ⟨apart, truthful_of_later kept.io⟩
      | move move role cloud io placed log =>
          rw [role]
          exact ⟨apart, truthful_of_later io⟩
  | serve serving kept =>
      rw [kept.role]
      exact ⟨apart, truthful_of_later kept.io⟩
  | silent index inRange busy stale unheard role cloud io log =>
      rw [role]
      exact ⟨apart, truthful_of_later io⟩
  | finish index seq inRange first role cloud io log =>
      rw [role]
      exact ⟨apart.of_fields rfl rfl rfl rfl rfl rfl rfl rfl, truthful_of_later io⟩
  | reset active role cloud io log =>
      rw [role]
      refine ⟨of_idle rfl ?_, truthful_of_later io⟩
      have free := apart.exclusive active
      simp only [Role.hasExitRole, Bool.or_eq_false_iff] at free
      simp [Role.hasExitRole, Role.resetSender, free.1]
  | clear exit role cloud io log =>
      rw [role]
      exact ⟨of_idle (apart.inactive_of_exit exit) rfl, truthful_of_later io⟩
  | activate pending role cloud published log =>
      have exit : e.role.hasExitRole = true := by simp [Role.hasExitRole, pending]
      obtain ⟨onMesh, a, current, session, source, recorded, fits⟩ := apart.exit exit
      constructor
      · rw [role]
        exact apart.of_fields rfl exit.symm rfl rfl rfl rfl rfl rfl
      · apply truthful_published current (Announcement.describes_recorded recorded fits)
        rw [session, source]
        exact published.outputs
  | republish serving role cloud published log =>
      rw [role]
      refine ⟨apart, ?_⟩
      rcases (Bool.or_eq_true _ _).mp serving with own | exit
      · obtain ⟨onLocalExit, active⟩ := (Bool.and_eq_true _ _).mp own
        obtain ⟨a, current, session, source, recorded, fits⟩ := apart.sender active
        apply truthful_published current
          (Announcement.describes_recorded recorded (fits onLocalExit))
        rw [published.outputs, Role.repeated, if_pos onLocalExit, if_pos onLocalExit, session,
          source]
      · obtain ⟨onMesh, a, current, session, source, recorded, fits⟩ :=
          apart.exit (by simp [Role.hasExitRole, exit])
        apply truthful_published current (Announcement.describes_recorded recorded fits)
        rw [published.outputs, Role.repeated, onMesh, session, source]
        rfl
  | elect count reading exitNodes lastAckMs electing role heard clock cloud io log =>
      rw [role]
      exact ⟨apart.of_fields rfl rfl rfl rfl rfl rfl rfl rfl, truthful_of_later io⟩

theorem stages (apart : Apart last e.role) (stages : Stages now past e after) :
    Apart last after.role ∧ Truthful last e.io after.io := by
  induction stages with
  | refl => exact ⟨apart, .refl last _⟩
  | tail _ next inductionHypothesis =>
      obtain ⟨before, early⟩ := inductionHypothesis
      obtain ⟨final, late⟩ := before.stage next
      exact ⟨final, early.trans late⟩

/-- The node just became the sender of the session opened last. -/
theorem of_sender {a : Announcement} (free : role.hasExitRole = false)
    (session : a.session = role.sessionId) (myAddr : a.srcNode = role.myAddr)
    (recorded : role.file = a.file)
    (fits : role.localExit = true → a.filename.length ≤ 32) : Apart (some a) role := by
  constructor
  · exact fun _ => free
  · exact fun _ => ⟨a, rfl, session, myAddr, recorded, fits⟩
  · intro exit
    rw [free] at exit
    contradiction

theorem starts {args : StartArgs} {result : Bool × TransferEngine F}
    (apart : Apart last e.role) (starts : Starts e args result)
    (free : e.role.exitPending = false)
    (fits : args.onLocalExit = true → args.filename.length ≤ 32) :
    Apart ((if result.1 then some (.ofStart e args) else none).or last) result.2.role ∧
      Truthful ((if result.1 then some (.ofStart e args) else none).or last) e.io
        result.2.io := by
  have stillFree : ∀ session crc count, e.role.isExitNode = false →
      (e.role.started args session crc count).hasExitRole = false := by
    intro session crc count noExit
    simp [Role.hasExitRole, Role.started, noExit, free]
  cases starts with
  | refused busy => exact ⟨apart, .refl _ _⟩
  | rejected after count idle noExit tooLarge role cloud io log =>
      rw [role]
      exact ⟨of_idle rfl (stillFree e.drawnSession (e.fileCrc args) count noExit),
        truthful_of_later io⟩
  | onLocalExit after io reading idle noExit chosen role cloud later clock outputs log =>
      rw [role]
      refine ⟨of_sender (stillFree _ _ _ noExit) rfl rfl rfl fits, ?_⟩
      have start : Truthful (some (.ofStart e args)) e.io io := truthful_of_later later
      refine start.trans (truthful_published rfl ?_ outputs)
      exact ⟨rfl, rfl, rfl, rfl, rfl, rfl, rfl⟩
  | onMesh after cap idle noExit chosen wide role cloud io log =>
      rw [role]
      exact ⟨of_sender (stillFree e.drawnSession (e.fileCrc args) args.announcedCount noExit)
        rfl rfl rfl fits, truthful_of_later io⟩

theorem accepts {srcAddr : Nat} {ad : TransferAd} (accepts : Accepts e srcAddr ad after)
    (onMesh : e.role.localExit = false) :
    Apart (some (.ofAd srcAddr ad)) after.role := by
  have inactive : after.role.active = false := by
    rw [accepts.role]
    exact accepts.inactive
  constructor
  · exact fun active => absurd (inactive.symm.trans active) Bool.false_ne_true
  · exact fun active => absurd (inactive.symm.trans active) Bool.false_ne_true
  · intro _
    rw [accepts.role]
    have fits := Announcement.length_adFilename_le ad
    refine ⟨onMesh, .ofAd srcAddr ad, rfl, rfl, rfl, ?_, fits⟩
    exact congrArg (·, _) (List.take_of_length_le fits).symm

/-! ## Calls and runs -/

variable [PathArith F]

/-- Calls that open no session. -/
theorem quiet (apart : Apart last e.role) (tracked : Tracked e) (call : Call)
    (noStart : ∀ args, call.event ≠ .startFileTransfer args)
    (noAd : ∀ srcAddr payload hasInternet,
      call.event ≠ .transferAd srcAddr payload hasInternet) :
    Apart last (e.step call).role ∧ Truthful last e.io (e.step call).io := by
  have called : Apart last (e.setEnv call.env).role := apart
  rcases step_cases tracked call with ⟨args, isStart, _⟩ |
    ⟨srcAddr, payload, hasInternet, isAd, _⟩ | stages | ⟨now, mid, _, _, stages, completes⟩
  · exact absurd isStart (noStart args)
  · exact absurd isAd (noAd srcAddr payload hasInternet)
  · exact called.stages stages
  · have scheduled : Stages call.time e.log mid mid.scheduleFragments.2 :=
      stages_scheduleFragments mid completes.active
    obtain ⟨final, outputs⟩ := called.stages (stages.trans scheduled)
    rw [completes.done]
    exact ⟨final.of_fields rfl rfl rfl rfl rfl rfl rfl rfl, outputs⟩

theorem step (apart : Apart last e.role) (tracked : Tracked e) (call : Call)
    (free : e.FreeFor call) :
    Apart ((e.announcedBy call).or last) (e.step call).role ∧
      Truthful ((e.announcedBy call).or last) e.io (e.step call).io := by
  obtain ⟨env, event⟩ := call
  have called : Apart last (e.setEnv env).role := apart
  cases event with
  | startFileTransfer args =>
      exact called.starts (starts_startFileTransfer (e.setEnv env) args) free.1 free.2
  | transferAd srcAddr payload hasInternet =>
      rcases handleTransferAd_cases (e.setEnv env) srcAddr payload hasInternet with
        kept | ⟨complete, online, accepted⟩
      · have sameRole : (e.step ⟨env, .transferAd srcAddr payload hasInternet⟩).role = e.role :=
          kept.role
        have sameExit : (e.step ⟨env, .transferAd srcAddr payload hasInternet⟩).hasExitRole =
            e.hasExitRole := congrArg Role.hasExitRole sameRole
        have none : e.announcedBy ⟨env, .transferAd srcAddr payload hasInternet⟩ = none := by
          simp [announcedBy, sameExit]
        have outputs : Truthful last (e.setEnv env).io
            ((e.setEnv env).handleTransferAd srcAddr payload hasInternet).io :=
          truthful_of_later kept.io
        rw [none, sameRole]
        exact ⟨apart, outputs⟩
      · have exit : (e.step ⟨env, .transferAd srcAddr payload hasInternet⟩).hasExitRole =
            true := by
          have role := congrArg Role.hasExitRole accepted.role
          exact role.trans (by simp [Role.hasExitRole])
        have opened : e.announcedBy ⟨env, .transferAd srcAddr payload hasInternet⟩ =
            some (.ofAd srcAddr (TransferAd.ofBytes payload)) := by
          have noRole : e.hasExitRole = false := accepted.free
          simp [announcedBy, noRole, exit]
        have outputs : Truthful (some (.ofAd srcAddr (TransferAd.ofBytes payload)))
            (e.setEnv env).io ((e.setEnv env).handleTransferAd srcAddr payload hasInternet).io :=
          truthful_of_later accepted.io
        rw [opened]
        exact ⟨accepts accepted (free complete online accepted.inactive), outputs⟩
  | _ => exact apart.quiet tracked _ (fun _ => by simp) (fun _ _ _ => by simp)

theorem run (apart : Apart last e.role) (tracked : Tracked e) {calls : List Call}
    (free : FreeRun e calls) : Apart (e.announced calls last) (e.run calls).role := by
  induction calls generalizing e last with
  | nil => exact apart
  | cons call rest inductionHypothesis =>
      exact inductionHypothesis (apart.step tracked call free.1).1 (tracked.step call) free.2

end Apart

/-! ## What exclusive roles guarantee -/

variable [PathArith F]

/-- Only a node without a role opens a session. -/
theorem idle_of_announcedBy {call : Call} {a : Announcement} (free : e.FreeFor call)
    (opened : e.announcedBy call = some a) :
    e.role.active = false ∧ e.role.hasExitRole = false := by
  obtain ⟨env, event⟩ := call
  cases event with
  | startFileTransfer args =>
      obtain ⟨succeeded, _⟩ := Option.ite_none_right_eq_some.mp opened
      have started := starts_startFileTransfer (e.setEnv env) args
      have noRole : e.role.isExitNode = false → e.role.hasExitRole = false :=
        fun noExit => (Bool.or_eq_false_iff ..).mpr ⟨noExit, free.1⟩
      obtain ⟨result, resultEq⟩ :
          ∃ result, result = (e.setEnv env).startFileTransfer args := ⟨_, rfl⟩
      rw [← resultEq] at started succeeded
      cases started with
      | refused busy => contradiction
      | rejected after count idle noExit tooLarge role cloud io log => contradiction
      | onLocalExit after io reading idle noExit chosen role cloud later clock outputs log =>
          exact ⟨idle, noRole noExit⟩
      | onMesh after cap idle noExit chosen wide role cloud io log =>
          exact ⟨idle, noRole noExit⟩
  | transferAd srcAddr payload hasInternet =>
      obtain ⟨gained, _⟩ := Option.ite_none_right_eq_some.mp opened
      simp only [Bool.and_eq_true, Bool.not_eq_true'] at gained
      refine ⟨?_, gained.1⟩
      rcases handleTransferAd_cases (e.setEnv env) srcAddr payload hasInternet with
        kept | ⟨_, _, accepted⟩
      · have same : (e.step ⟨env, .transferAd srcAddr payload hasInternet⟩).hasExitRole =
            e.hasExitRole := congrArg Role.hasExitRole kept.role
        rw [gained.1, gained.2] at same
        contradiction
      · exact accepted.inactive
  | _ => exact nomatch opened

/-- In every run in which no transfer is started while an exit offer is pending, none on
the node's own exit with a name over 32 bytes, and no advertisement is taken up under a
left-over local-exit flag: the roles exclude each other, no call changes the shared record
under a role that goes on, and every description published is that of the session opened
last. -/
theorem roles_apart_in_free_runs (myAddr maxElectedExits : Nat) (calls : List Call)
    (free : FreeRun (TransferEngine.boot myAddr maxElectedExits : TransferEngine F) calls) :
    let boot := (TransferEngine.boot myAddr maxElectedExits : TransferEngine F)
    let e := boot.run calls
    ¬ (e.transfer.active = true ∧ (e.isExitNode = true ∨ e.exitPending = true)) ∧
      ∀ call, e.FreeFor call →
        (e.transfer.active = true → (e.step call).transfer.active = true →
          (e.step call).role.file = e.role.file) ∧
        (e.hasExitRole = true → (e.step call).hasExitRole = true →
          (e.step call).role.file = e.role.file) ∧
        Truthful ((e.announcedBy call).or (boot.announced calls none)) e.io
          (e.step call).io := by
  intro boot e
  have booted := Tracked.boot (F := F) myAddr maxElectedExits
  have tracked : Tracked e := booted.run calls
  have apart : Apart (boot.announced calls none) e.role :=
    (Apart.of_idle rfl rfl).run booted free
  have sameFile : ∀ call, e.FreeFor call →
      (e.role.active = true ∨ e.role.hasExitRole = true) →
      (∃ a, boot.announced calls none = some a ∧ e.role.file = a.file) →
      (∃ a, (e.announcedBy call).or (boot.announced calls none) = some a ∧
        (e.step call).role.file = a.file) →
      (e.step call).role.file = e.role.file := by
    intro call free busy before after
    cases opened : e.announcedBy call with
    | some a =>
        obtain ⟨inactive, noRole⟩ := idle_of_announcedBy free opened
        rw [inactive, noRole] at busy
        rcases busy with impossible | impossible <;> contradiction
    | none =>
        obtain ⟨a, current, recorded⟩ := before
        obtain ⟨b, stillCurrent, stillRecorded⟩ := after
        rw [opened, Option.none_or, current] at stillCurrent
        obtain rfl : a = b := Option.some.inj stillCurrent
        exact stillRecorded.trans recorded.symm
  constructor
  · rintro ⟨active, exit⟩
    have noRole := apart.exclusive active
    rw [Role.hasExitRole, Bool.or_eq_false_iff] at noRole
    rcases exit with isExit | pending
    · exact absurd (isExit.symm.trans noRole.1) (by decide)
    · exact absurd (pending.symm.trans noRole.2) (by decide)
  · intro call freeCall
    obtain ⟨next, outputs⟩ := apart.step tracked call freeCall
    refine ⟨fun active stillActive => ?_, fun exit stillExit => ?_, outputs⟩
    · obtain ⟨a, current, _, _, recorded, _⟩ := apart.sender active
      obtain ⟨b, stillCurrent, _, _, stillRecorded, _⟩ := next.sender stillActive
      exact sameFile call freeCall (.inl active) ⟨a, current, recorded⟩
        ⟨b, stillCurrent, stillRecorded⟩
    · obtain ⟨_, a, current, _, _, recorded, _⟩ := apart.exit exit
      obtain ⟨_, b, stillCurrent, _, _, stillRecorded, _⟩ := next.exit stillExit
      exact sameFile call freeCall (.inr exit) ⟨a, current, recorded⟩
        ⟨b, stillCurrent, stillRecorded⟩

/-! ## A start under a pending offer -/

/-- The node offered itself as an exit for session 9 and then starts a transfer of its
own: both roles at once, and the record of session 9 is overwritten. -/
theorem start_under_pending_offer :
    let offered := (TransferEngine.boot 1 4 : TransferEngine ℚ).run [offeredExit]
    let e := offered.step smallStart
    e.transfer.active = true ∧ e.exitPending = true ∧ e.activeSessionId = 9 ∧
      offered.role.file = ([103], 3, 1, 1456, 0) ∧ e.role.file ≠ offered.role.file := by
  decide +kernel

/-- Alone, the start keeps the roles apart. -/
theorem roles_apart_after_small_run :
    let boot := (TransferEngine.boot 1 4 : TransferEngine ℚ)
    FreeRun boot smallRun ∧ (boot.run smallRun).transfer.active = true ∧
      (boot.run smallRun).exitPending = false ∧
      ((boot.run smallRun).step (tickAt 9500)).role.file = (boot.run smallRun).role.file := by
  have free : FreeRun (TransferEngine.boot 1 4 : TransferEngine ℚ) smallRun :=
    ⟨⟨rfl, fun _ => by decide⟩, trivial, trivial, trivial, trivial⟩
  have active : ((TransferEngine.boot 1 4 : TransferEngine ℚ).run
      smallRun).transfer.active = true := by decide +kernel
  obtain ⟨apart, calls⟩ := roles_apart_in_free_runs 1 4 smallRun free
  refine ⟨free, active, ?_, (calls (tickAt 9500) trivial).1 active (by decide +kernel)⟩
  by_contra pending
  exact apart ⟨active, .inr (by simpa using pending)⟩

end ForestLink.Mesh.TransferEngine
