/-
Module: ForestLink.Proofs.CompletionReports
Purpose: Success is signalled only for transfers whose every fragment the cloud has
  acknowledged, or whose completion an exit has reported, as long as no aborted transfer is
  taken for a finished one.
Trusted boundary: none
Main exports: TransferLog.Fits, traced_turns, traced_call, UartNode.Honest, Regular,
  success_reported_of_completed, stalled_transfer_reported_as_success
-/
import ForestLink.Proofs.EngineTurns
import ForestLink.Uart.Node

namespace ForestLink.Uart

open ForestLink.Lib
open ForestLink.Mesh
open ForestLink.Protocol
open ForestLink.Mesh.TransferEngine

namespace TransferLog

/-- The engine runs the transfer of the log: what it has marked is acknowledged, and it has
marked everything below its base. -/
structure Fits (log : TransferLog) (s : Standing) : Prop where
  localExit : s.localExit = log.localExit
  session : s.sessionId = log.session
  fragments : s.localExit = true → s.fragmentCount = log.fragments
  acked : s.localExit = true → ∀ seq, s.cloudAckBitmap seq = true → seq ∈ log.acked
  base : s.localExit = true → ∀ seq < s.cloudBaseSeq, s.cloudAckBitmap seq = true

/-- The transfer has ended, in one way or the other. -/
def Settled (log : TransferLog) : Prop := log.Completed ∨ log.aborted = true

/-- A running transfer fits the log; one that is over is settled. -/
structure Traces (log : TransferLog) (s : Standing) : Prop where
  running : s.active = true → log.Fits s
  isOver : s.active = false → log.Settled

/-- The transfer counts as a success. -/
def Succeeded (log : TransferLog) : Prop := log.Completed ∧ log.aborted = false

variable {log : TransferLog} {s s' : Standing}

theorem completed_of_base (fits : log.Fits s) (onLocalExit : s.localExit = true)
    (all : s.fragmentCount ≤ s.cloudBaseSeq) : log.Completed := by
  refine .inl ⟨fits.localExit ▸ onLocalExit, fun seq inRange => ?_⟩
  rw [← fits.fragments onLocalExit] at inRange
  exact fits.acked onLocalExit seq (fits.base onLocalExit seq (Nat.lt_of_lt_of_le inRange all))

theorem Completed.observe {F : Type} (completed : log.Completed) (e : TransferEngine F)
    (o : Occasion) : (log.observe e o).Completed := by
  rcases completed with ⟨onLocalExit, acked⟩ | done
  · exact .inl ⟨onLocalExit, fun seq inRange => List.mem_append_right _ (acked seq inRange)⟩
  · refine .inr ?_
    change (log.done || _) = true
    rw [done, Bool.true_or]

theorem Fits.observe {F : Type} (fits : log.Fits s) (e : TransferEngine F) (o : Occasion) :
    (log.observe e o).Fits s where
  localExit := fits.localExit
  session := fits.session
  fragments := fits.fragments
  acked onLocalExit seq marked := List.mem_append_right _ (fits.acked onLocalExit seq marked)
  base := fits.base

/-! ## One turn of the engine -/

/-- The log knows what the occasion brings, which is nothing that would pass an aborted
transfer off as a finished one. -/
structure Covers (log : TransferLog) (o : Occasion) : Prop where
  acks : ∀ seq ∈ o.acks, seq ∈ log.acked
  aborted : ∀ abort, o.aborts abort = true → log.aborted = true
  regular : (∀ abort, o.aborts abort = false) → log.aborted = false
  stalled : log.localExit = true → o.aborts .stalled = false
  isOver : o.servesOver = false

/-- An output that announces success announces it of this log. -/
def Announced (log : TransferLog) (output : Output) : Prop :=
  output = .transferComplete → log.Succeeded

theorem announced_of_plain (log : TransferLog) {output : Output}
    (plain : output.isPlain = true) : log.Announced output := by
  rintro rfl
  exact absurd plain (by decide)

theorem announced_plain (log : TransferLog) {io after : Io} (plain : Io.Plain io after) :
    Extends log.Announced io.outputs after.outputs :=
  plain.outputs.mono fun _ => log.announced_of_plain

variable {F : Type} [PathArith F] {o : Occasion} {e after : TransferEngine F}

theorem announced_reset (log : TransferLog) (e : TransferEngine F) (signal : Bool)
    (succeeded : signal = true → log.Succeeded) :
    Extends log.Announced e.io.outputs (e.resetSenderTransferState signal).io.outputs := by
  have ended : log.Announced (.sessionEnd e.transfer.sessionId) :=
    fun impossible => absurd impossible (by simp)
  rw [outputs_resetSenderTransferState]
  have closed : Extends log.Announced e.io.outputs
      ((if e.transfer.sessionId ≠ 0 then [.sessionEnd e.transfer.sessionId] else []) ++
        e.io.outputs) := by
    split
    · exact .cons ended _
    · exact .refl _ _
  split
  · rename_i raised
    rw [List.append_assoc]
    exact closed.trans (.cons (fun _ => succeeded raised) _)
  · exact closed

/-- One turn keeps the log true of the transfer, and announces success only of a success. -/
theorem traced_turn (turn : Turn o e after) (covers : log.Covers o) (done : o.done = none)
    (traces : log.Traces e.standing) :
    log.Traces after.standing ∧ Extends log.Announced e.io.outputs after.io.outputs := by
  cases turn with
  | steady kept => exact ⟨kept.standing ▸ traces, log.announced_plain kept.io⟩
  | mark seq listed onLocalExit inRange standing io =>
      refine ⟨?_, log.announced_plain io⟩
      rw [standing]
      refine ⟨fun active => ?_, traces.isOver⟩
      have fits := traces.running active
      refine ⟨fits.localExit, fits.session, fits.fragments, ?_, ?_⟩
      · intro _ other marked
        by_cases here : other = seq
        · exact here ▸ covers.acks seq listed
        · change Function.update e.cloudAckBitmap seq true other = true at marked
          rw [Function.update_of_ne here] at marked
          exact fits.acked onLocalExit other marked
      · intro _ other below
        by_cases here : other = seq
        · exact here ▸ Function.update_self ..
        · change Function.update e.cloudAckBitmap seq true other = true
          rw [Function.update_of_ne here]
          exact fits.base onLocalExit other below
  | advance inRange acked standing io =>
      refine ⟨?_, log.announced_plain io⟩
      rw [standing]
      refine ⟨fun active => ?_, traces.isOver⟩
      have fits := traces.running active
      refine ⟨fits.localExit, fits.session, fits.fragments, fits.acked, ?_⟩
      intro onLocalExit seq below
      rcases Nat.lt_succ_iff_lt_or_eq.mp below with before | rfl
      · exact fits.base onLocalExit seq before
      · exact acked
  | reset signal active cause ended =>
      have fits := traces.running active
      rw [ended, standing_resetSenderTransferState]
      have settled : log.Settled ∧ (signal = true → log.Succeeded) := by
        cases cause with
        | acked onLocalExit all regular =>
            have completed := completed_of_base fits onLocalExit all
            exact ⟨.inl completed, fun _ => ⟨completed, covers.regular regular⟩⟩
        | done sender payload delivered session exit regular =>
            exact absurd (done.symm.trans delivered) (by simp)
        | aborted abort taken signal localStall =>
            refine ⟨.inr (covers.aborted abort taken), fun raised => ?_⟩
            obtain ⟨rfl, onLocalExit⟩ := localStall raised
            have clear := covers.stalled (fits.localExit ▸ onLocalExit)
            exact absurd (taken.symm.trans clear) (by decide)
      refine ⟨⟨fun impossible => absurd impossible Bool.false_ne_true, fun _ => settled.1⟩, ?_⟩
      exact log.announced_reset e signal settled.2
  | clear exit cleared isOver =>
      rw [cleared, standing_clearExitNodeState]
      have onMesh : e.transfer.active = true → ¬ e.localExit = true := by
        intro active onLocalExit
        have served := isOver (by rw [active, onLocalExit]; rfl)
        exact absurd (served.symm.trans covers.isOver) (by decide)
      constructor
      · refine ⟨fun active => ?_, traces.isOver⟩
        have fits := traces.running active
        exact ⟨fits.localExit, fits.session, fun impossible => absurd impossible (onMesh active),
          fits.acked, fits.base⟩
      · rw [outputs_clearExitNodeState]
        split
        · exact .cons (fun impossible => absurd impossible (by simp)) _
        · exact .refl _ _
  | publish serving standing announces =>
      obtain ⟨_, _, _, _, _, _, _, outputs⟩ := announces
      rw [standing, outputs]
      exact ⟨traces, .cons (fun impossible => absurd impossible (by simp)) _⟩
  | activate pending standing announces =>
      obtain ⟨_, _, _, _, _, _, _, outputs⟩ := announces
      rw [standing, outputs]
      refine ⟨⟨fun active => ?_, traces.isOver⟩,
        .cons (fun impossible => absurd impossible (by simp)) _⟩
      have fits := traces.running active
      exact ⟨fits.localExit, fits.session, fits.fragments, fits.acked, fits.base⟩
  | elect electing some elected =>
      obtain ⟨io, standing⟩ := electExits_fields e
      rw [elected, standing]
      refine ⟨⟨fun active => ?_, traces.isOver⟩, log.announced_plain io⟩
      have fits := traces.running active
      exact ⟨fits.localExit, fits.session, fits.fragments, fits.acked, fits.base⟩

theorem traced_turns (turns : Turns o e after) (covers : log.Covers o) (done : o.done = none)
    (traces : log.Traces e.standing) :
    log.Traces after.standing ∧ Extends log.Announced e.io.outputs after.io.outputs := by
  induction turns with
  | refl => exact ⟨traces, .refl _ _⟩
  | tail _ turn inductionHypothesis =>
      obtain ⟨middle, early⟩ := inductionHypothesis
      obtain ⟨late, added⟩ := traced_turn turn covers done middle
      exact ⟨late, early.trans added⟩

/-! ## Calls that announce nothing -/

/-- The output does not announce the end of a transfer. -/
def Silent (output : Output) : Prop := output ≠ .transferComplete

theorem silent_plain {io after : Io} (plain : Io.Plain io after) :
    Extends Silent io.outputs after.outputs := by
  refine plain.outputs.mono ?_
  rintro output isPlain rfl
  exact absurd isPlain (by decide)

theorem silent_cons {output : Output} (other : output ≠ .transferComplete)
    (outputs : List Output) : Extends Silent outputs (output :: outputs) :=
  .cons (P := Silent) other outputs

/-- A turn ends the transfer, or it leaves its activity as it is and announces nothing. -/
theorem ends_or_silent (turn : Turn o e after) :
    (e.transfer.active = true ∧ ∃ signal, after = e.resetSenderTransferState signal) ∨
      after.transfer.active = e.transfer.active ∧
        Extends Silent e.io.outputs after.io.outputs := by
  cases turn with
  | steady kept => exact .inr ⟨congrArg Standing.active kept.standing, silent_plain kept.io⟩
  | mark seq listed onLocalExit inRange standing io =>
      exact .inr ⟨congrArg Standing.active standing, silent_plain io⟩
  | advance inRange acked standing io =>
      exact .inr ⟨congrArg Standing.active standing, silent_plain io⟩
  | reset signal active cause ended => exact .inl ⟨active, signal, ended⟩
  | clear exit cleared isOver =>
      rw [cleared, outputs_clearExitNodeState]
      refine .inr ⟨congrArg Standing.active (standing_clearExitNodeState e), ?_⟩
      split
      · exact silent_cons (by simp) _
      · exact .refl _ _
  | publish serving standing announces =>
      obtain ⟨_, _, _, _, _, _, _, outputs⟩ := announces
      rw [outputs]
      exact .inr ⟨congrArg Standing.active standing, silent_cons (by simp) _⟩
  | activate pending standing announces =>
      obtain ⟨_, _, _, _, _, _, _, outputs⟩ := announces
      rw [outputs]
      exact .inr ⟨congrArg Standing.active standing, silent_cons (by simp) _⟩
  | elect electing some elected =>
      obtain ⟨io, standing⟩ := electExits_fields e
      rw [elected]
      exact .inr ⟨congrArg Standing.active standing, silent_plain io⟩

/-- Without a transfer of its own the engine stays without one and announces nothing. -/
theorem idle_turns (turns : Turns o e after) (idle : e.transfer.active = false) :
    after.transfer.active = false ∧ Extends Silent e.io.outputs after.io.outputs := by
  induction turns with
  | refl => exact ⟨idle, .refl _ _⟩
  | tail _ turn inductionHypothesis =>
      obtain ⟨inactive, early⟩ := inductionHypothesis
      rcases ends_or_silent turn with ⟨active, _⟩ | ⟨same, late⟩
      · exact absurd (active.symm.trans inactive) (by decide)
      · exact ⟨same.trans inactive, early.trans late⟩

/-- While the transfer goes on, nothing is announced. -/
theorem silent_turns (turns : Turns o e after) (active : after.transfer.active = true) :
    Extends Silent e.io.outputs after.io.outputs := by
  induction turns with
  | refl => exact .refl _ _
  | tail _ turn inductionHypothesis =>
      rcases ends_or_silent turn with ⟨_, signal, ended⟩ | ⟨same, late⟩
      · rw [ended, active_resetSenderTransferState] at active
        exact absurd active Bool.false_ne_true
      · exact (inductionHypothesis (same.symm.trans active)).trans late

/-! ## One call -/

/-- What `handle_transfer_done` does: nothing, or it ends the transfer that the packet
confirms. -/
theorem handleTransferDone_cases (log : TransferLog) (e : TransferEngine F) (sender : Nat)
    (payload : List UInt8) (session : e.transfer.sessionId = log.session) :
    e.handleTransferDone sender payload = e ∨
      log.confirms e (sender, payload) = true ∧
        e.handleTransferDone sender payload = e.resetSenderTransferState true := by
  unfold handleTransferDone confirms
  dsimp only
  split
  · exact .inl rfl
  split
  · exact .inl rfl
  split
  · exact .inl rfl
  rename_i current
  split
  · exact .inl rfl
  rename_i accepted
  rw [not_or, not_not] at accepted
  obtain ⟨named, known⟩ := accepted
  refine .inr ⟨?_, rfl⟩
  obtain ⟨index, found⟩ := Option.ne_none_iff_exists'.mp (by simpa using known)
  rw [Bool.and_eq_true, beq_iff_eq, List.any_eq_true]
  refine ⟨(not_not.mp current).trans session, index, List.mem_of_find?_eq_some found, ?_⟩
  rw [named]
  simpa using List.find?_some found

omit [PathArith F] in
theorem aborted_observe (log : TransferLog) (e : TransferEngine F) (o : Occasion) :
    (log.observe e o).aborted = true ↔ ∃ abort, o.aborts abort = true := by
  change (o.aborts .arqFailed || o.aborts .stalled || o.aborts .noCandidates ||
    o.aborts .noExits) = true ↔ _
  constructor
  · intro taken
    simp only [Bool.or_eq_true] at taken
    rcases taken with ((taken | taken) | taken) | taken
    · exact ⟨_, taken⟩
    · exact ⟨_, taken⟩
    · exact ⟨_, taken⟩
    · exact ⟨_, taken⟩
  · rintro ⟨abort, taken⟩
    cases abort <;> simp [taken]

/-- A call during the transfer. -/
theorem traced_call (orderly : e.standing.Orderly) (active : e.transfer.active = true)
    (fits : log.Fits e.standing) (call : Call)
    (stalled : e.localExit = true → (e.occasion call).aborts .stalled = false)
    (isOver : (e.occasion call).servesOver = false) :
    (log.observe e (e.occasion call)).Traces (e.step call).standing ∧
      Extends (log.observe e (e.occasion call)).Announced e.io.outputs
        (e.step call).io.outputs ∧
      ((e.step call).transfer.active = true →
        Extends Silent e.io.outputs (e.step call).io.outputs) := by
  have observed : (log.observe e (e.occasion call)).Fits (e.setEnv call.env).standing :=
    fits.observe e _
  have traces : (log.observe e (e.occasion call)).Traces (e.setEnv call.env).standing :=
    ⟨fun _ => observed, fun inactive => absurd (active.symm.trans inactive) (by decide)⟩
  have covers : (log.observe e (e.occasion call)).Covers (e.occasion call) :=
    { acks := fun seq listed => List.mem_append_left _ listed
      aborted := fun abort taken => (aborted_observe log e _).mpr ⟨abort, taken⟩
      regular := by
        intro regular
        rw [← Bool.not_eq_true, aborted_observe]
        rintro ⟨abort, taken⟩
        exact absurd ((regular abort).symm.trans taken) (by decide)
      stalled := fun onLocalExit => stalled (fits.localExit.trans onLocalExit)
      isOver := isOver }
  have keeps : ∀ {s : Standing}, s.active = true →
      (log.observe e (e.occasion call)).Fits s →
        (log.observe e (e.occasion call)).Traces s := fun going fits =>
    ⟨fun _ => fits, fun inactive => absurd (going.symm.trans inactive) (by decide)⟩
  rcases step_turns orderly call with ⟨args, _, begins⟩ | ⟨payload, _, hears⟩ |
    ⟨srcAddr, payload, hasInternet, _, answers⟩ | turns
  · have busy : ¬ (e.setEnv call.env).transfer.active = false :=
      fun inactive => absurd (active.symm.trans inactive) (by decide)
    cases begins with
    | refused _ same => exact same ▸ ⟨traces, .refl _ _, fun _ => .refl _ _⟩
    | rejected inactive count standing io => exact absurd inactive busy
    | onLocalExit inactive free io later standing announces => exact absurd inactive busy
    | onMesh inactive free standing io => exact absurd inactive busy
  · cases hears with
    | ignored same => exact same ▸ ⟨traces, .refl _ _, fun _ => .refl _ _⟩
    | candidate candidate addr electing standing io =>
        rw [standing, io]
        exact ⟨keeps active ⟨observed.localExit, observed.session,
          observed.fragments, observed.acked, observed.base⟩, .refl _ _, fun _ => .refl _ _⟩
  · cases answers with
    | ignored same => exact same ▸ ⟨traces, .refl _ _, fun _ => .refl _ _⟩
    | again exit session standing offers =>
        obtain ⟨_, dst, seq, result, ack, outputs, _⟩ := offers
        rw [standing, outputs]
        exact ⟨traces, .cons (fun impossible => absurd impossible (by simp)) _,
          fun _ => silent_cons (by simp) _⟩
    | pending inactive free standing offers =>
        exact absurd (active.symm.trans inactive) (by decide)
  · cases delivered : (e.occasion call).done with
    | none =>
        obtain ⟨traced, announced⟩ :=
          traced_turns (e := e.setEnv call.env) turns covers delivered traces
        exact ⟨traced, announced, silent_turns (e := e.setEnv call.env) turns⟩
    | some done =>
        obtain ⟨env, event⟩ := call
        cases event with
        | transferDone sender payload =>
            rcases handleTransferDone_cases log (e.setEnv env) sender payload fits.session with
              same | ⟨confirmed, ended⟩
            · have unchanged : e.step ⟨env, .transferDone sender payload⟩ = e.setEnv env := same
              exact unchanged ▸ ⟨traces, .refl _ _, fun _ => .refl _ _⟩
            · have completed : (log.observe e
                  (e.occasion ⟨env, .transferDone sender payload⟩)).Succeeded := by
                refine ⟨.inr ?_, covers.regular fun _ => rfl⟩
                change (log.done || log.confirms (e.setEnv env) (sender, payload)) = true
                rw [confirmed, Bool.or_true]
              have stepped : e.step ⟨env, .transferDone sender payload⟩ =
                  (e.setEnv env).resetSenderTransferState true := ended
              rw [stepped, standing_resetSenderTransferState]
              refine ⟨⟨fun impossible => absurd impossible Bool.false_ne_true,
                fun _ => .inl completed.1⟩,
                announced_reset _ (e.setEnv env) true fun _ => completed, fun active => ?_⟩
              rw [active_resetSenderTransferState] at active
              exact absurd active Bool.false_ne_true
        | _ => exact absurd delivered (by simp [occasion])

omit [PathArith F] in
theorem fits_start (e : TransferEngine F) (acked : e.localExit = true →
    e.cloudAckBitmap = (fun _ => false) ∧ e.cloudBaseSeq = 0) :
    (start e).Fits e.standing where
  localExit := rfl
  session := rfl
  fragments _ := rfl
  acked onLocalExit seq marked := by
    change e.cloudAckBitmap seq = true at marked
    rw [(acked onLocalExit).1] at marked
    exact absurd marked Bool.false_ne_true
  base onLocalExit seq below := by
    change seq < e.cloudBaseSeq at below
    rw [(acked onLocalExit).2] at below
    exact absurd below (Nat.not_lt_zero seq)

/-- A call without a transfer: it announces nothing, and a transfer that it starts fits its
log. -/
theorem idle_call (orderly : e.standing.Orderly) (idle : e.transfer.active = false)
    (call : Call) : Extends Silent e.io.outputs (e.step call).io.outputs ∧
      ((e.step call).transfer.active = true →
        (start (e.step call)).Fits (e.step call).standing) := by
  have inactive : (e.setEnv call.env).transfer.active = false := idle
  have none : ∀ {s : Standing}, (e.step call).standing = s → s.active = false →
      ¬ (e.step call).transfer.active = true := by
    intro s standing still active
    have now := (congrArg Standing.active standing).symm.trans active
    exact absurd (now.symm.trans still) (by decide)
  rcases step_turns orderly call with ⟨args, _, begins⟩ | ⟨payload, _, hears⟩ |
    ⟨srcAddr, payload, hasInternet, _, answers⟩ | turns
  · cases begins with
    | refused busy same =>
        rw [same]
        exact ⟨.refl _ _, fun active => absurd (active.symm.trans inactive) (by decide)⟩
    | rejected _ count standing io =>
        have silent := silent_plain io
        exact ⟨silent, fun active => absurd active (none standing rfl)⟩
    | onLocalExit _ free io later standing announces =>
        obtain ⟨_, _, _, _, _, _, _, outputs⟩ := announces
        rw [outputs]
        refine ⟨(silent_plain later).trans (silent_cons (by simp) _), fun _ => fits_start _ fun _ => ?_⟩
        exact ⟨congrArg Standing.cloudAckBitmap standing, congrArg Standing.cloudBaseSeq standing⟩
    | onMesh _ free standing io =>
        have silent := silent_plain io
        refine ⟨silent, fun _ => fits_start _ fun onLocalExit => ?_⟩
        have onMesh : (e.step call).localExit = false := congrArg Standing.localExit standing
        exact absurd (onMesh.symm.trans onLocalExit) (by decide)
  · cases hears with
    | ignored same =>
        rw [same]
        exact ⟨.refl _ _, fun active => absurd (active.symm.trans inactive) (by decide)⟩
    | candidate candidate addr electing standing io =>
        rw [io]
        exact ⟨.refl _ _, fun active => absurd active (none standing inactive)⟩
  · cases answers with
    | ignored same =>
        rw [same]
        exact ⟨.refl _ _, fun active => absurd (active.symm.trans inactive) (by decide)⟩
    | again exit session standing offers =>
        obtain ⟨_, dst, seq, result, ack, outputs, _⟩ := offers
        rw [outputs]
        exact ⟨silent_cons (by simp) _, fun active => absurd active (none standing inactive)⟩
    | pending _ free standing offers =>
        obtain ⟨_, dst, seq, result, ack, outputs, _⟩ := offers
        rw [outputs]
        exact ⟨silent_cons (by simp) _, fun active => absurd active (none standing inactive)⟩
  · obtain ⟨still, silent⟩ := idle_turns turns inactive
    exact ⟨silent, fun active => absurd (active.symm.trans still) (by decide)⟩

end TransferLog

/-! ## Runs of the node -/

namespace UartNode

open TransferLog

variable {F : Type} {n : UartNode F} {e after : TransferEngine F} {o : Occasion}

/-- Nothing is recorded of the transfer any more. -/
def Closed (n : UartNode F) (transfer : Nat) : Prop :=
  transfer < n.started ∨ transfer = n.started ∧ n.engine.transfer.active = false

/-- The running transfer fits its log, every other one is settled, and what was reported as a
success is one. -/
structure Honest (n : UartNode F) : Prop where
  orderly : n.engine.standing.Orderly
  running : n.engine.transfer.active = true →
    0 < n.started ∧ (n.logs n.started).Fits n.engine.standing
  isOver : n.engine.transfer.active = false → 0 < n.started → (n.logs n.started).Settled
  earlier : ∀ transfer < n.started, 0 < transfer → (n.logs transfer).Settled
  tracked : n.ingest.transferStarted = true → 0 < n.tracked ∧ n.tracked ≤ n.started
  reported : ∀ report ∈ n.reports, ∀ transfer, report.success? = some transfer →
    n.Closed transfer ∧ (n.logs transfer).Succeeded

/-- What an installed call needs of the record. -/
theorem Honest.install {m : UartNode F} (orderly : after.standing.Orderly)
    (running : after.transfer.active = true →
      0 < m.started ∧ (m.logs m.started).Fits after.standing)
    (isOver : after.transfer.active = false → 0 < m.started → (m.logs m.started).Settled)
    (earlier : ∀ transfer < m.started, 0 < transfer → (m.logs transfer).Settled)
    (tracked : m.ingest.transferStarted = true → 0 < m.tracked ∧ m.tracked ≤ m.started)
    (reported : ∀ report ∈ m.reports, ∀ transfer, report.success? = some transfer →
      (transfer < m.started ∨ transfer = m.started ∧ after.transfer.active = false) ∧
        (m.logs transfer).Succeeded)
    (raised : Output.transferComplete ∈ e.recentOutputs after →
      after.transfer.active = false ∧ (m.logs m.started).Succeeded) :
    (m.install e after).Honest where
  orderly := orderly
  running := running
  isOver := isOver
  earlier := earlier
  tracked := tracked
  reported := by
    intro report member transfer success
    unfold UartNode.install at member
    dsimp only at member
    split at member
    · rename_i announced
      rcases List.mem_cons.mp member with rfl | before
      · obtain rfl := Option.some.inj success
        obtain ⟨inactive, succeeded⟩ := raised announced
        exact ⟨.inr ⟨rfl, inactive⟩, succeeded⟩
      · exact reported report before transfer success
    · exact reported report member transfer success

theorem not_raised (silent : Extends Silent e.io.outputs after.io.outputs) :
    ¬ Output.transferComplete ∈ e.recentOutputs after :=
  fun raised => silent.recent _ raised rfl

/-- A call during the running transfer. -/
theorem Honest.during (honest : n.Honest) (standing : e.standing = n.engine.standing)
    (active : e.transfer.active = true) (orderly : after.standing.Orderly)
    (traces : ((n.logs n.started).observe e o).Traces after.standing)
    (announced : Extends ((n.logs n.started).observe e o).Announced e.io.outputs
      after.io.outputs)
    (silent : after.transfer.active = true → Extends Silent e.io.outputs after.io.outputs) :
    ((n.record e after o).install e after).Honest := by
  have engaged : n.engine.transfer.active = true :=
    (congrArg Standing.active standing).symm.trans active
  obtain ⟨logs, recorded, current, other⟩ : ∃ logs, n.record e after o = { n with logs := logs } ∧
      logs n.started = (n.logs n.started).observe e o ∧
        ∀ transfer < n.started, logs transfer = n.logs transfer := by
    refine ⟨Function.update n.logs n.started ((n.logs n.started).observe e o), ?_,
      Function.update_self .., fun _ before => Function.update_of_ne (Nat.ne_of_lt before) ..⟩
    unfold record
    rw [if_pos active]
  rw [← current] at traces announced
  rw [recorded]
  apply Honest.install orderly
  · exact fun going => ⟨(honest.running engaged).1, traces.running going⟩
  · exact fun ended _ => traces.isOver ended
  · intro transfer before positive
    change (logs transfer).Settled
    rw [other transfer before]
    exact honest.earlier transfer before positive
  · exact honest.tracked
  · intro report member transfer success
    obtain ⟨closed, succeeded⟩ := honest.reported report member transfer success
    rcases closed with before | ⟨_, inactive⟩
    · refine ⟨.inl before, ?_⟩
      change (logs transfer).Succeeded
      rw [other transfer before]
      exact succeeded
    · exact absurd (engaged.symm.trans inactive) (by decide)
  · intro raised
    refine ⟨?_, announced.recent _ raised rfl⟩
    rw [← Bool.not_eq_true]
    exact fun going => not_raised (silent going) raised

/-- A call without a transfer, which may start one. -/
theorem Honest.between (honest : n.Honest) (standing : e.standing = n.engine.standing)
    (idle : e.transfer.active = false) (orderly : after.standing.Orderly)
    (silent : Extends Silent e.io.outputs after.io.outputs)
    (fits : after.transfer.active = true → (start after).Fits after.standing) :
    ((n.record e after o).install e after).Honest := by
  have inactive : n.engine.transfer.active = false :=
    (congrArg Standing.active standing).symm.trans idle
  have notBusy : ¬ e.transfer.active = true := by
    rw [idle]
    exact Bool.false_ne_true
  cases begun : after.transfer.active with
  | true =>
      obtain ⟨logs, recorded, current, other⟩ : ∃ logs,
          n.record e after o = { n with started := n.started + 1, logs := logs } ∧
            logs (n.started + 1) = start after ∧
              ∀ transfer < n.started + 1, logs transfer = n.logs transfer := by
        refine ⟨Function.update n.logs (n.started + 1) (start after), ?_,
          Function.update_self .., fun _ before => Function.update_of_ne (Nat.ne_of_lt before) ..⟩
        unfold record
        rw [if_neg notBusy, if_pos begun]
      rw [recorded]
      apply Honest.install orderly
      · intro _
        refine ⟨Nat.succ_pos _, ?_⟩
        change (logs (n.started + 1)).Fits after.standing
        rw [current]
        exact fits begun
      · exact fun ended => absurd (begun.symm.trans ended) (by decide)
      · intro transfer before positive
        change (logs transfer).Settled
        rw [other transfer before]
        rcases Nat.lt_succ_iff_lt_or_eq.mp before with earlier | rfl
        · exact honest.earlier transfer earlier positive
        · exact honest.isOver inactive positive
      · intro started
        obtain ⟨positive, known⟩ := honest.tracked started
        exact ⟨positive, Nat.le_succ_of_le known⟩
      · intro report member transfer success
        obtain ⟨closed, succeeded⟩ := honest.reported report member transfer success
        have before : transfer < n.started + 1 := by
          rcases closed with before | ⟨rfl, _⟩
          · exact Nat.lt_succ_of_lt before
          · exact Nat.lt_succ_self _
        refine ⟨.inl before, ?_⟩
        change (logs transfer).Succeeded
        rw [other transfer before]
        exact succeeded
      · exact fun raised => absurd raised (not_raised silent)
  | false =>
      have recorded : n.record e after o = n := by
        unfold record
        rw [if_neg notBusy, begun]
        rfl
      rw [recorded]
      apply Honest.install orderly
      · exact fun going => absurd (begun.symm.trans going) (by decide)
      · exact fun _ => honest.isOver inactive
      · exact honest.earlier
      · exact honest.tracked
      · intro report member transfer success
        obtain ⟨closed, succeeded⟩ := honest.reported report member transfer success
        refine ⟨?_, succeeded⟩
        rcases closed with before | ⟨here, _⟩
        · exact .inl before
        · exact .inr ⟨here, begun⟩
      · exact fun raised => absurd raised (not_raised silent)

/-! ## The ingest -/

theorem standing_bindReader (n : UartNode F) : n.bindReader.standing = n.engine.standing := by
  unfold bindReader
  split <;> rfl

theorem transferStarted_freeBuf (i : UartIngest) :
    i.freeBuf.transferStarted = i.transferStarted := by
  unfold UartIngest.freeBuf
  split <;> rfl

theorem transferStarted_removeSpool (config : UartConfig) (i : UartIngest) :
    (i.removeSpool config).transferStarted = i.transferStarted := by
  unfold UartIngest.removeSpool
  split
  · rfl
  split <;> rfl

theorem transferStarted_dropIngest (config : UartConfig) (i : UartIngest) :
    (i.dropIngest config).transferStarted = i.transferStarted :=
  (transferStarted_removeSpool config i.freeBuf.closeFile).trans (transferStarted_freeBuf i)

theorem transferStarted_fileBegin (config : UartConfig) (i : UartIngest) (fileSize : Nat)
    (filename : List UInt8) (env : UartIngest.BeginEnv) :
    (i.fileBegin config fileSize filename env).2.transferStarted = i.transferStarted := by
  have fresh : (if i.ingestActive then i.dropIngest config else i).transferStarted =
      i.transferStarted := by
    split
    · exact transferStarted_dropIngest config i
    · rfl
  unfold UartIngest.fileBegin UartIngest.beginSpool
  dsimp only
  split
  · rfl
  split
  · exact fresh
  split
  · exact fresh
  split
  · exact fresh
  split
  · exact fresh
  split
  · exact fresh
  · exact fresh

theorem transferStarted_fileData (i : UartIngest) (data : List UInt8) (wrote : Nat) :
    (i.fileData data wrote).2.transferStarted = i.transferStarted := by
  unfold UartIngest.fileData
  dsimp only
  split
  · rfl
  split
  · rfl
  split
  · rfl
  split
  · split
    · rfl
    · split <;> rfl
  · split <;> rfl

theorem transferStarted_abortTransfer (config : UartConfig) (i : UartIngest)
    (started : (i.abortTransfer config).2.transferStarted = true) :
    i.transferStarted = true := by
  unfold UartIngest.abortTransfer at started
  dsimp only at started
  split at started
  · exact started
  · exact absurd started Bool.false_ne_true

/-- Calls that leave engine and record alone. -/
theorem Honest.ingest (honest : n.Honest) (ingest : UartIngest)
    (kept : ingest.transferStarted = true → n.ingest.transferStarted = true) :
    ({ n with ingest := ingest } : UartNode F).Honest where
  orderly := honest.orderly
  running := honest.running
  isOver := honest.isOver
  earlier := honest.earlier
  tracked started := honest.tracked (kept started)
  reported := honest.reported

theorem ingest_install (n : UartNode F) (e after : TransferEngine F) (o : Occasion) :
    ((n.record e after o).install e after).ingest = n.ingest := by
  unfold record
  split
  · rfl
  split <;> rfl

theorem tracked_install (n : UartNode F) (e after : TransferEngine F) (o : Occasion) :
    ((n.record e after o).install e after).tracked = n.tracked := by
  unfold record
  split
  · rfl
  split <;> rfl

/-- A call that leaves the engine as it is. -/
theorem Honest.recordNone (honest : n.Honest) (o : Occasion) :
    ((n.record n.bindReader n.bindReader o).install n.bindReader n.bindReader).Honest := by
  have standing := standing_bindReader n
  have orderly : n.bindReader.standing.Orderly := standing ▸ honest.orderly
  cases active : n.bindReader.transfer.active with
  | true =>
      have engaged : n.engine.transfer.active = true :=
        (congrArg Standing.active standing).symm.trans active
      have fits : (n.logs n.started).Fits n.bindReader.standing :=
        standing ▸ (honest.running engaged).2
      refine honest.during standing active orderly ⟨fun _ => fits.observe _ o, ?_⟩ (.refl _ _)
        fun _ => .refl _ _
      exact fun inactive => absurd (active.symm.trans inactive) (by decide)
  | false =>
      exact honest.between standing active orderly (.refl _ _)
        fun going => absurd (active.symm.trans going) (by decide)

section Steps

variable [PathArith F]

/-- The step brings nothing that passes an aborted transfer off as a finished one: the stall
check does not abort a transfer over the local exit, no completion of a served session is
forwarded during one, and the end of a transfer that a poll finds was not an abort. -/
def Regular (n : UartNode F) : Action → Prop
  | .call call =>
      (n.engine.localExit = true → (n.bindReader.occasion call).aborts .stalled = false) ∧
        (n.bindReader.occasion call).servesOver = false
  | .poll _ =>
      n.ingest.transferStarted = true → n.engine.transfer.active = false →
        (n.logs n.tracked).aborted = false
  | _ => True

def RegularRun (n : UartNode F) : List Action → Prop
  | [] => True
  | action :: rest => n.Regular action ∧ (n.act action).RegularRun rest

theorem Honest.recordCall (honest : n.Honest) (call : Call)
    (stalled : n.engine.localExit = true → (n.bindReader.occasion call).aborts .stalled = false)
    (isOver : (n.bindReader.occasion call).servesOver = false) :
    ((n.record n.bindReader (n.bindReader.step call) (n.bindReader.occasion call)).install
      n.bindReader (n.bindReader.step call)).Honest := by
  have standing := standing_bindReader n
  have orderly : n.bindReader.standing.Orderly := standing ▸ honest.orderly
  cases active : n.bindReader.transfer.active with
  | true =>
      have engaged : n.engine.transfer.active = true :=
        (congrArg Standing.active standing).symm.trans active
      have fits : (n.logs n.started).Fits n.bindReader.standing :=
        standing ▸ (honest.running engaged).2
      have onLocalExit : n.bindReader.localExit = n.engine.localExit :=
        congrArg Standing.localExit standing
      obtain ⟨traces, announced, silent⟩ := traced_call orderly active fits call
        (fun mine => stalled (onLocalExit ▸ mine)) isOver
      exact honest.during standing active (orderly_step orderly call) traces announced silent
  | false =>
      obtain ⟨silent, fits⟩ := idle_call orderly active call
      exact honest.between standing active (orderly_step orderly call) silent fits

theorem Honest.callEngine (honest : n.Honest) (call : Call)
    (regular : n.Regular (.call call)) : (n.callEngine call).Honest :=
  have recorded := honest.recordCall call regular.1 regular.2
  ⟨recorded.orderly, recorded.running, recorded.isOver, recorded.earlier, recorded.tracked,
    recorded.reported⟩

/-- What `file_end` does to the engine. -/
inductive Ends (i : UartIngest) (e : TransferEngine F) (env : UartIngest.EndEnv)
    (ended : UartResult × UartIngest × TransferEngine F × Option UartIngest.Source) : Prop
  | refused (engine : ended.2.2.1 = e) (source : ended.2.2.2 = none)
      (kept : ended.2.1.transferStarted = i.transferStarted)
  | rejected (args : StartArgs)
      (engine : ended.2.2.1 = e.step ⟨env.env, .startFileTransfer args⟩)
      (source : ended.2.2.2 = none) (kept : ended.2.1.transferStarted = i.transferStarted)
  | started (args : StartArgs)
      (engine : ended.2.2.1 = e.step ⟨env.env, .startFileTransfer args⟩)
      (source : ended.2.2.2.isSome = true)
      (begun : ((e.setEnv env.env).startFileTransfer args).1 = true)

theorem ends_fileEnd (config : UartConfig) (i : UartIngest) (e : TransferEngine F)
    (env : UartIngest.EndEnv) : Ends i e env (i.fileEnd config e env) := by
  have closed : ∀ {source : UartIngest.Source} {closed : UartIngest},
      i.takeSource config = some (source, closed) →
        closed.transferStarted = i.transferStarted := by
    intro source closed taken
    unfold UartIngest.takeSource at taken
    split at taken
    · split at taken
      · obtain ⟨_, rfl⟩ := Prod.mk.inj (Option.some.inj taken)
        rfl
      · exact absurd taken (by simp)
    · obtain ⟨_, _, same⟩ := Option.map_eq_some_iff.mp taken
      obtain ⟨_, rfl⟩ := Prod.mk.inj same
      rfl
  unfold UartIngest.fileEnd
  split
  · exact .refused rfl rfl rfl
  split
  · exact .refused rfl rfl rfl
  split
  · exact .refused rfl rfl rfl
  rename_i source spooled taken
  dsimp only
  split
  · rename_i begun
    exact .started _ rfl rfl begun
  · exact .rejected _ rfl rfl (closed taken)

omit [PathArith F] in
/-- A start that succeeds leaves a transfer running. -/
theorem active_of_started (e : TransferEngine F) (args : StartArgs)
    (begun : (e.startFileTransfer args).1 = true) :
    (e.startFileTransfer args).2.transfer.active = true := by
  unfold startFileTransfer at begun ⊢
  split at begun
  · exact absurd begun Bool.false_ne_true
  rename_i idle
  rw [if_neg idle]
  split at begun
  · exact absurd begun Bool.false_ne_true
  rename_i free
  rw [if_neg free]
  dsimp only at begun ⊢
  split at begun
  · rename_i onLocalExit
    rw [if_pos onLocalExit]
    unfold startLocalExit at begun ⊢
    dsimp only at begun ⊢
    split at begun
    · exact absurd begun Bool.false_ne_true
    rename_i small
    rw [if_neg small]
    split at begun
    · exact absurd begun Bool.false_ne_true
    rename_i fitting
    rw [if_neg fitting]
    rfl
  · rename_i onMesh
    rw [if_neg onMesh]
    unfold startMesh sendBroadcastWithRetry at begun ⊢
    dsimp only at begun ⊢
    split at begun
    · exact absurd begun Bool.false_ne_true
    rename_i fitting
    rw [if_neg fitting]
    dsimp only
    split <;> rfl

theorem Honest.fileEnd (honest : n.Honest) (env : UartIngest.EndEnv) :
    (n.fileEnd env).Honest := by
  have keeps : ∀ {m : UartNode F} {ingest : UartIngest} {source : Option UartIngest.Source}
      {bit : Bool} {tracked : Nat}, m.Honest →
        (ingest.transferStarted = true → 0 < tracked ∧ tracked ≤ m.started) →
          UartNode.Honest { m with
            ingest := ingest
            source := source
            completeBit := bit
            tracked := tracked } :=
    fun honest tracked => ⟨honest.orderly, honest.running, honest.isOver, honest.earlier,
      tracked, honest.reported⟩
  have ends := ends_fileEnd n.config n.ingest n.bindReader env
  unfold UartNode.fileEnd
  dsimp only
  cases ends with
  | refused engine source kept =>
      have recorded := honest.recordNone ⟨[], none, fun _ => false, false⟩
      rw [engine, source]
      apply keeps recorded
      intro started
      have tracked := recorded.tracked
      rw [ingest_install, tracked_install] at tracked
      exact tracked (kept.symm.trans started)
  | rejected args engine source kept =>
      have recorded := honest.recordCall ⟨env.env, .startFileTransfer args⟩ (fun _ => rfl) rfl
      rw [engine, source]
      apply keeps recorded
      intro started
      have tracked := recorded.tracked
      rw [ingest_install, tracked_install] at tracked
      exact tracked (kept.symm.trans started)
  | started args engine source begun =>
      have recorded := honest.recordCall ⟨env.env, .startFileTransfer args⟩ (fun _ => rfl) rfl
      have active : (n.bindReader.step ⟨env.env, .startFileTransfer args⟩).transfer.active =
          true := active_of_started (n.bindReader.setEnv env.env) args begun
      rw [engine, if_pos source, if_pos source]
      apply keeps recorded
      exact fun _ => ⟨(recorded.running active).1, Nat.le_refl _⟩

theorem Honest.poll (honest : n.Honest) (nowMs : Nat) (regular : n.Regular (.poll nowMs)) :
    (n.poll nowMs).Honest := by
  unfold UartNode.poll UartIngest.pollTransferProgress
  dsimp only
  split
  · exact honest.ingest n.ingest id
  rename_i going
  have started : n.ingest.transferStarted = true := by simpa using going
  split
  · split
    · refine ⟨honest.orderly, honest.running, honest.isOver, honest.earlier, honest.tracked, ?_⟩
      intro report member transfer success
      rcases List.mem_cons.mp member with rfl | before
      · exact absurd success (by simp [Report.success?, evtTransferProgress, evtTransferComplete])
      · exact honest.reported report before transfer success
    · exact honest.ingest n.ingest id
  · rename_i ended
    have inactive : n.engine.transfer.active = false := eq_false_of_ne_true ended
    obtain ⟨positive, known⟩ := honest.tracked started
    have closed : n.Closed n.tracked := by
      rcases Nat.lt_or_eq_of_le known with before | here
      · exact .inl before
      · exact .inr ⟨here, inactive⟩
    have settled : (n.logs n.tracked).Settled := by
      rcases Nat.lt_or_eq_of_le known with before | here
      · exact honest.earlier n.tracked before positive
      · rw [here] at positive ⊢
        exact honest.isOver inactive positive
    have kept := regular started inactive
    have succeeded : (n.logs n.tracked).Succeeded := by
      rcases settled with completed | aborted
      · exact ⟨completed, kept⟩
      · exact absurd (kept.symm.trans aborted) (by decide)
    refine ⟨honest.orderly, honest.running, honest.isOver, honest.earlier,
      fun impossible => absurd impossible Bool.false_ne_true, ?_⟩
    intro report member transfer success
    rcases List.mem_cons.mp member with rfl | before
    · unfold Report.success? at success
      dsimp only at success
      split at success
      · obtain rfl := Option.some.inj success
        exact ⟨closed, succeeded⟩
      · exact absurd success (by simp)
    · exact honest.reported report before transfer success

theorem Honest.act (honest : n.Honest) {action : Action} (regular : n.Regular action) :
    (n.act action).Honest := by
  cases action with
  | call call => exact honest.callEngine call regular
  | fileBegin fileSize filename env =>
      apply honest.ingest
      intro started
      rw [transferStarted_fileBegin] at started
      exact started
  | fileData data wrote =>
      apply honest.ingest
      intro started
      rw [transferStarted_fileData] at started
      exact started
  | fileEnd env => exact honest.fileEnd env
  | abortTransfer => exact honest.ingest _ (transferStarted_abortTransfer n.config n.ingest)
  | poll nowMs => exact honest.poll nowMs regular

theorem Honest.run (honest : n.Honest) {actions : List Action} (regular : n.RegularRun actions) :
    (n.run actions).Honest := by
  induction actions generalizing n with
  | nil => exact honest
  | cons action rest inductionHypothesis =>
      exact inductionHypothesis (honest.act regular.1) regular.2

theorem honest_boot (config : UartConfig) (myAddr maxElectedExits : Nat) :
    (boot config myAddr maxElectedExits : UartNode F).Honest where
  orderly := orderly_boot myAddr maxElectedExits
  running impossible := absurd impossible Bool.false_ne_true
  isOver _ impossible := absurd impossible (Nat.lt_irrefl 0)
  earlier transfer impossible := absurd impossible (Nat.not_lt_zero transfer)
  tracked impossible := absurd impossible Bool.false_ne_true
  reported _ impossible := absurd impossible List.not_mem_nil

/-- In every run of regular steps, whatever is signalled as a success is a transfer that was
not aborted, and whose every fragment the cloud has acknowledged or whose completion one of
its exits has reported. -/
theorem success_reported_of_completed (config : UartConfig) (myAddr maxElectedExits : Nat)
    (actions : List Action)
    (regular : (boot config myAddr maxElectedExits : UartNode F).RegularRun actions) :
    let n := (boot config myAddr maxElectedExits : UartNode F).run actions
    ∀ report ∈ n.reports, ∀ transfer, report.success? = some transfer →
      (n.logs transfer).Completed ∧ (n.logs transfer).aborted = false := by
  intro n report member transfer success
  have honest : n.Honest := (honest_boot config myAddr maxElectedExits).run regular
  exact (honest.reported report member transfer success).2

end Steps

/-! ## A stall over the local exit -/

/-- A host stores three bytes and starts their transfer on a node with internet. -/
def ingestRun : List Action :=
  [.fileBegin 3 [102] {}, .fileData [1, 2, 3] 3,
    .fileEnd
      { env := { clock := fun _ => 1000, random := 7 }
        hasInternet := true
        mqttReady := true
        nowMs := 1000 }]

/-- The cloud acknowledges the fragment. -/
def acknowledgedRun : List Action :=
  ingestRun ++
    [.call { env := { clock := fun _ => 1100 }, event := .tick 1100 },
      .call { env := { clock := fun _ => 1200, cloudAcks := [0] }, event := .tick 1200 },
      .poll 1300]

theorem acknowledged_transfer_reported :
    let n := (boot {} 1 4 : UartNode ℚ).run acknowledgedRun
    n.reports = [.frame 1 (UartIngest.completeFrame 300), .event 1] ∧
      (n.logs 1).Completed ∧ (n.logs 1).aborted = false := by
  have reports : ((boot {} 1 4 : UartNode ℚ).run acknowledgedRun).reports =
      [.frame 1 (UartIngest.completeFrame 300), .event 1] := by decide +kernel
  have regular : (boot {} 1 4 : UartNode ℚ).RegularRun acknowledgedRun := by
    refine ⟨trivial, trivial, trivial, ⟨?_, ?_⟩, ⟨?_, ?_⟩, ?_, trivial⟩
    · exact fun _ => by decide +kernel
    · decide +kernel
    · exact fun _ => by decide +kernel
    · decide +kernel
    · exact fun _ _ => by decide +kernel
  have member : Report.event 1 ∈ ((boot {} 1 4 : UartNode ℚ).run acknowledgedRun).reports := by
    rw [reports]
    decide
  exact ⟨reports, success_reported_of_completed {} 1 4 acknowledgedRun regular _ member 1 rfl⟩

/-- The cloud does not answer for 39 seconds. -/
def stalledRun : List Action :=
  ingestRun ++ [.call { env := { clock := fun _ => 40000 }, event := .tick 40000 }, .poll 40100]

/-- The aborted transfer raises the event, and the host is told that it succeeded. -/
theorem stalled_transfer_reported_as_success :
    let n := (boot {} 1 4 : UartNode ℚ).run stalledRun
    n.reports = [.frame 1 (UartIngest.completeFrame 39100), .event 1] ∧
      (n.logs 1).aborted = true ∧ ¬ (n.logs 1).Completed := by
  refine ⟨by decide +kernel, by decide +kernel, ?_⟩
  rintro (⟨_, acked⟩ | done)
  · exact absurd (acked 0 (by decide +kernel)) (by decide +kernel)
  · exact absurd done (by decide +kernel)

end UartNode

end ForestLink.Uart
