/-
Module: ForestLink.Proofs.ElectionSessions
Purpose: Every elected exit has answered the session it is elected for, as long as no answer
  to an earlier session is taken for a candidate.
Trusted boundary: none
Main exports: Answered, Standing.Elected, takesAnswer, elected_step, Timely,
  elected_exits_answered_session, late_answer_elects_exit_of_earlier_session
-/
import ForestLink.Mesh.ElectionNetwork
import ForestLink.Proofs.EngineTurns
import ForestLink.Proofs.ExitIsolation

namespace ForestLink.Mesh

open ForestLink.Lib
open ForestLink.Protocol

/-! ## The answers of one call -/

/-- If the output puts a TRANSFER_ACK on the air, the packet names its sender. -/
def Output.Genuine (addr : UInt16) (output : Output) : Prop :=
  ∀ answer, output.answer? addr = some answer → answer.exitNodeAddr = answer.src.toNat

theorem Output.genuine_of_plain {output : Output} (addr : UInt16)
    (plain : output.isPlain = true) : output.Genuine addr := by
  intro answer sent
  unfold isPlain at plain
  unfold answer? at sent
  split at sent
  · exact absurd plain Bool.false_ne_true
  · exact absurd sent (by simp)

theorem Output.genuine_of_none {output : Output} {addr : UInt16}
    (none : output.answer? addr = none) : output.Genuine addr :=
  fun _ sent => absurd (none.symm.trans sent) (by simp)

namespace TransferEngine

variable {F : Type} [PathArith F] {o : Occasion} {e after : TransferEngine F} {addr : UInt16}

theorem genuine_plain {io final : Io} (plain : Io.Plain io final) (addr : UInt16) :
    Extends (Output.Genuine addr) io.outputs final.outputs :=
  plain.outputs.mono fun _ => Output.genuine_of_plain addr

theorem Turn.genuine (turn : Turn o e after) (addr : UInt16) :
    Extends (Output.Genuine addr) e.io.outputs after.io.outputs := by
  have silent : ∀ (outputs : List Output) {output : Output}, output.answer? addr = none →
      Extends (Output.Genuine addr) outputs (output :: outputs) :=
    fun outputs _ none => .cons (Output.genuine_of_none none) outputs
  cases turn with
  | steady kept => exact genuine_plain kept.io addr
  | mark seq listed onLocalExit inRange standing io => exact genuine_plain io addr
  | advance inRange acked standing io => exact genuine_plain io addr
  | reset signal active cause ended =>
      rw [ended, outputs_resetSenderTransferState]
      split <;> split
      · exact (silent _ rfl).trans (silent _ rfl)
      · exact silent _ rfl
      · exact silent _ rfl
      · exact .refl _ _
  | clear exit cleared isOver =>
      rw [cleared, outputs_clearExitNodeState]
      split
      · exact silent _ rfl
      · exact .refl _ _
  | publish serving standing announces =>
      obtain ⟨_, _, _, _, _, _, _, outputs⟩ := announces
      rw [outputs]
      exact silent _ rfl
  | activate pending standing announces =>
      obtain ⟨_, _, _, _, _, _, _, outputs⟩ := announces
      rw [outputs]
      exact silent _ rfl
  | elect electing some elected =>
      rw [elected]
      exact genuine_plain (electExits_fields e).1 addr

theorem Turns.genuine (turns : Turns o e after) (addr : UInt16) :
    Extends (Output.Genuine addr) e.io.outputs after.io.outputs := by
  induction turns with
  | refl => exact .refl _ _
  | tail _ turn inductionHypothesis => exact inductionHypothesis.trans (turn.genuine addr)

omit [PathArith F] in
theorem Offers.genuine {sessionId : Nat} (offers : Offers e after sessionId)
    (mine : e.myAddr = addr.toNat) :
    Extends (Output.Genuine addr) e.io.outputs after.io.outputs := by
  obtain ⟨_, dst, seq, result, ack, outputs, named, _⟩ := offers
  rw [outputs]
  refine .cons ?_ _
  intro answer sent
  unfold Output.answer? at sent
  dsimp only at sent
  split at sent
  · obtain rfl := Option.some.inj sent
    change (TransferAck.ofBytes ack.toBytes).exitNodeAddr = addr.toNat
    rw [TransferAck.exitNodeAddr_ofBytes, named, mine]
    exact Nat.mod_eq_of_lt addr.toNat_lt
  · exact absurd sent (by simp)

/-- Every answer that a call sends names this node. -/
theorem genuine_step (orderly : e.standing.Orderly) (mine : e.myAddr = addr.toNat)
    (call : Call) : Extends (Output.Genuine addr) e.io.outputs (e.step call).io.outputs := by
  rcases step_turns orderly call with ⟨args, _, begins⟩ | ⟨payload, _, hears⟩ |
    ⟨srcAddr, payload, hasInternet, _, answers⟩ | turns
  · cases begins with
    | refused busy same => exact same ▸ .refl _ _
    | rejected inactive count standing io => exact genuine_plain io addr
    | onLocalExit inactive free io later standing announces =>
        obtain ⟨_, _, _, _, _, _, _, outputs⟩ := announces
        rw [outputs]
        refine (genuine_plain later addr).trans (.cons ?_ _)
        exact Output.genuine_of_none rfl
    | onMesh inactive free standing io => exact genuine_plain io addr
  · cases hears with
    | ignored same => exact same ▸ .refl _ _
    | candidate candidate addr electing standing io => exact io ▸ .refl _ _
  · cases answers with
    | ignored same => exact same ▸ .refl _ _
    | again exit session standing offers => exact offers.genuine mine
    | pending inactive free standing offers => exact offers.genuine mine
  · exact turns.genuine addr

/-! ## Candidates and exits -/

/-- A TRANSFER_ACK of node `addr` for the session was sent. -/
def Answered (answers : List Answer) (addr session : Nat) : Prop :=
  ∃ answer ∈ answers, answer.src.toNat = addr ∧ answer.session = session

theorem Answered.mono {before after : List Answer} (more : ∀ answer ∈ before, answer ∈ after)
    {addr session : Nat} (answered : Answered before addr session) :
    Answered after addr session := by
  obtain ⟨answer, sent, here⟩ := answered
  exact ⟨answer, more answer sent, here⟩

/-- Every candidate of an open election and every elected exit has answered the current
session; without a transfer there is no exit. -/
structure Standing.Elected (answers : List Answer) (s : Standing) : Prop extends s.Orderly where
  none : s.active = false → s.exitNodeCount = 0
  candidates : s.electionActive = true → ∀ candidate ∈ s.candidates,
    Answered answers candidate.addr s.sessionId
  exits : ∀ i < s.exitNodeCount, Answered answers (s.exitNodes i) s.sessionId

namespace Standing.Elected

variable {answers : List Answer} {s s' : Standing}

theorem mono {more : List Answer} (elected : s.Elected answers)
    (grown : ∀ answer ∈ answers, answer ∈ more) : s.Elected more where
  toOrderly := elected.toOrderly
  none := elected.none
  candidates electing candidate member := (elected.candidates electing candidate member).mono grown
  exits i inRange := (elected.exits i inRange).mono grown

/-- Without an open election and without exits there is nothing to show. -/
theorem vacant (orderly : s.Orderly) (closed : s.electionActive = false)
    (empty : s.exitNodeCount = 0) : s.Elected answers where
  toOrderly := orderly
  none _ := empty
  candidates electing := absurd (electing.symm.trans closed) (by decide)
  exits i inRange := absurd (empty ▸ inRange) (Nat.not_lt_zero i)

theorem change (change : StandingChange acks s s') (elected : s.Elected answers) :
    s'.Elected answers := by
  have orderly := change.orderly elected.toOrderly
  cases change with
  | same => exact elected
  | ended active => exact vacant orderly rfl rfl
  | elected count exitNodes electing chosen =>
      refine ⟨orderly, ?_, fun impossible => absurd impossible Bool.false_ne_true, ?_⟩
      · intro inactive
        exact absurd (inactive.symm.trans (elected.electing electing)) (by decide)
      · intro i inRange
        obtain ⟨candidate, member, addr⟩ := chosen i inRange
        change Answered answers (exitNodes i) s.sessionId
        rw [addr]
        exact elected.candidates electing candidate member
  | mark | advance | cleared | activated =>
      exact ⟨orderly, elected.none, elected.candidates, elected.exits⟩

/-- A transfer that is not active leaves no election and no exit behind. -/
theorem inactive (elected : s.Elected answers) (inactive : s.active = false) :
    s.electionActive = false ∧ s.exitNodeCount = 0 := by
  refine ⟨?_, elected.none inactive⟩
  rw [← Bool.not_eq_true]
  exact fun electing => absurd (inactive.symm.trans (elected.electing electing)) (by decide)

end Standing.Elected

/-- `handle_transfer_ack` takes the answer for a candidate. -/
def takesAnswer (e : TransferEngine F) (payload : List UInt8) : Bool :=
  decide (transferAckLen ≤ payload.length) && e.electionActive &&
    !(e.candidates.any fun candidate =>
      candidate.addr == (TransferAck.ofBytes payload).exitNodeAddr) &&
    decide (e.candidates.length < maxExitNodes)

omit [PathArith F] in
theorem handleTransferAck_of_not_takes {payload : List UInt8}
    (refused : e.takesAnswer payload = false) : e.handleTransferAck payload = e := by
  unfold takesAnswer at refused
  unfold handleTransferAck
  dsimp only
  split
  · rfl
  rename_i complete
  split
  · rfl
  rename_i electing
  split
  · rfl
  rename_i fresh
  split
  · rename_i room
    have election : e.electionActive = true := by simpa using electing
    simp [Nat.not_lt.mp complete, election, fresh, room] at refused
  · rfl

/-- One call keeps candidates and exits answered, if the answer that it takes is to the
session or from a node that has answered the session before. -/
theorem elected_step {answers : List Answer} (elected : e.standing.Elected answers) (call : Call)
    (timely : ∀ payload, call.event = .transferAck payload → e.takesAnswer payload = true →
      Answered answers (TransferAck.ofBytes payload).exitNodeAddr e.transfer.sessionId) :
    (e.step call).standing.Elected answers := by
  have called : (e.setEnv call.env).standing.Elected answers := elected
  have orderly := orderly_step elected.toOrderly call
  rcases step_turns elected.toOrderly call with ⟨args, _, begins⟩ | ⟨payload, received, hears⟩ |
    ⟨srcAddr, payload, hasInternet, _, answers⟩ | turns
  · cases begins with
    | refused busy same => exact same ▸ called
    | rejected idle count standing io =>
        have vacant := elected.inactive idle
        rw [standing] at orderly ⊢
        exact .vacant orderly vacant.1 vacant.2
    | onLocalExit idle free io later standing announces =>
        have vacant := elected.inactive idle
        rw [standing] at orderly ⊢
        exact .vacant orderly vacant.1 vacant.2
    | onMesh idle free standing io =>
        have vacant := elected.inactive idle
        rw [standing] at orderly ⊢
        exact ⟨orderly, fun impossible => absurd impossible Bool.false_ne_true.symm,
          fun _ _ impossible => absurd impossible List.not_mem_nil,
          fun i inRange => absurd (vacant.2 ▸ inRange) (Nat.not_lt_zero i)⟩
  · have stepped : e.step call = (e.setEnv call.env).handleTransferAck payload := by
      unfold step
      rw [received]
      rfl
    by_cases takes : e.takesAnswer payload = true
    · cases hears with
      | ignored same => exact same ▸ called
      | candidate candidate addr electing standing io =>
          rw [standing] at orderly ⊢
          refine ⟨orderly, elected.none, ?_, elected.exits⟩
          intro _ other member
          rcases List.mem_append.mp member with known | new
          · exact elected.candidates electing other known
          · rw [List.mem_singleton.mp new, addr]
            exact timely payload received takes
    · rw [stepped, handleTransferAck_of_not_takes]
      · exact called
      · exact eq_false_of_ne_true takes
  · cases answers with
    | ignored same => exact same ▸ called
    | again exit session standing offers => exact standing ▸ called
    | pending idle free standing offers =>
        rw [standing] at orderly ⊢
        exact ⟨orderly, elected.none, elected.candidates, elected.exits⟩
  · exact turns.keeps (fun _ _ change => Standing.Elected.change change) called

end TransferEngine

/-! ## Runs of the network -/

namespace ElectionNetwork

open TransferEngine

variable {F : Type} [PathArith F] {n : ElectionNetwork F}

/-- Every answer names its sender, and every node elects among answers to its session. -/
structure Sound (n : ElectionNetwork F) : Prop where
  genuine : ∀ answer ∈ n.answers, answer.exitNodeAddr = answer.src.toNat
  mine : ∀ addr, (n.nodes addr).myAddr = addr.toNat
  elected : ∀ addr, (n.nodes addr).standing.Elected n.answers

/-- A TRANSFER_ACK that a node takes for a candidate is an answer to its current session, or
its sender has sent such an answer as well. -/
def Timely (n : ElectionNetwork F) : Action → Prop
  | .receive addr answer _ =>
      answer ∈ n.answers → (n.nodes addr).takesAnswer answer.payload = true →
        Answered n.answers answer.src.toNat (n.nodes addr).transfer.sessionId
  | _ => True

def TimelyRun (n : ElectionNetwork F) : List Action → Prop
  | [] => True
  | action :: rest => n.Timely action ∧ (n.act action).TimelyRun rest

theorem myAddr_step {e : TransferEngine F} (orderly : e.standing.Orderly) (call : Call) :
    (e.step call).myAddr = e.myAddr := by
  change (e.step call).standing.myAddr = (e.setEnv call.env).standing.myAddr
  rcases step_turns orderly call with ⟨args, _, begins⟩ | ⟨payload, _, hears⟩ |
    ⟨srcAddr, payload, hasInternet, _, answers⟩ | turns
  · cases begins with
    | refused busy same => rw [same]
    | rejected inactive count standing io => rw [standing]
    | onLocalExit inactive free io later standing announces => rw [standing]
    | onMesh inactive free standing io => rw [standing]
  · cases hears with
    | ignored same => rw [same]
    | candidate candidate addr electing standing io => rw [standing]
  · cases answers with
    | ignored same => rw [same]
    | again exit session standing offers => rw [standing]
    | pending inactive free standing offers => rw [standing]
  · have each : ∀ s s', StandingChange (e.occasion call).acks s s' →
        s.myAddr = (e.setEnv call.env).standing.myAddr →
          s'.myAddr = (e.setEnv call.env).standing.myAddr := by
      intro s s' change same
      cases change with
      | same | mark | advance | ended | cleared | activated | elected => exact same
    exact turns.keeps each rfl

theorem Sound.callNode (sound : n.Sound) (addr : UInt16) (call : Call)
    (timely : ∀ payload, call.event = .transferAck payload →
      (n.nodes addr).takesAnswer payload = true →
        Answered n.answers (TransferAck.ofBytes payload).exitNodeAddr
          (n.nodes addr).transfer.sessionId) : (n.callNode addr call).Sound := by
  have orderly := (sound.elected addr).toOrderly
  have grown : ∀ answer ∈ n.answers, answer ∈ (n.callNode addr call).answers :=
    fun answer member => List.mem_append_right _ member
  constructor
  · intro answer member
    rcases List.mem_append.mp member with new | old
    · obtain ⟨output, emitted, sent⟩ := List.mem_filterMap.mp new
      exact (genuine_step orderly (sound.mine addr) call).recent output emitted answer sent
    · exact sound.genuine answer old
  · intro other
    by_cases here : other = addr
    · subst here
      change (Function.update n.nodes other _ other).myAddr = other.toNat
      rw [Function.update_self, myAddr_step orderly]
      exact sound.mine other
    · change (Function.update n.nodes addr _ other).myAddr = other.toNat
      rw [Function.update_of_ne here]
      exact sound.mine other
  · intro other
    by_cases here : other = addr
    · subst here
      change (Function.update n.nodes other _ other).standing.Elected _
      rw [Function.update_self]
      exact (elected_step (sound.elected other) call timely).mono grown
    · change (Function.update n.nodes addr _ other).standing.Elected _
      rw [Function.update_of_ne here]
      exact (sound.elected other).mono grown

theorem Sound.act (sound : n.Sound) {action : Action} (timely : n.Timely action) :
    (n.act action).Sound := by
  cases action with
  | call addr call =>
      unfold ElectionNetwork.act
      dsimp only
      split
      · exact sound
      · rename_i other
        refine sound.callNode addr call fun payload received => ?_
        exact absurd received (other payload)
  | receive addr answer env =>
      unfold ElectionNetwork.act
      dsimp only
      split
      · rename_i onAir
        refine sound.callNode addr _ fun payload received takes => ?_
        obtain rfl := Event.transferAck.inj received
        have named : (TransferAck.ofBytes answer.payload).exitNodeAddr = answer.src.toNat :=
          sound.genuine answer onAir.1
        rw [named]
        exact timely onAir.1 takes
      · exact sound

theorem Sound.run (sound : n.Sound) {actions : List Action} (timely : n.TimelyRun actions) :
    (n.run actions).Sound := by
  induction actions generalizing n with
  | nil => exact sound
  | cons action rest inductionHypothesis =>
      exact inductionHypothesis (sound.act timely.1) timely.2

theorem sound_boot (maxElectedExits : Nat) : (boot maxElectedExits : ElectionNetwork F).Sound where
  genuine _ impossible := absurd impossible List.not_mem_nil
  mine _ := rfl
  elected addr := .vacant (orderly_boot addr.toNat maxElectedExits) rfl rfl

/-- In every run in which the answers taken for candidates are to the current session, or
from nodes that have answered it, every elected exit is a node that has sent a TRANSFER_ACK
with the session id of the transfer. -/
theorem elected_exits_answered_session (maxElectedExits : Nat) (actions : List Action)
    (timely : (boot maxElectedExits : ElectionNetwork F).TimelyRun actions) (addr : UInt16)
    (i : Nat) (elected : i < (((boot maxElectedExits : ElectionNetwork F).run
      actions).nodes addr).transfer.exitNodeCount) :
    Answered ((boot maxElectedExits : ElectionNetwork F).run actions).answers
      ((((boot maxElectedExits : ElectionNetwork F).run actions).nodes addr).transfer.exitNodes i)
      (((boot maxElectedExits : ElectionNetwork F).run actions).nodes addr).transfer.sessionId :=
  (((sound_boot maxElectedExits).run timely).elected addr).exits i elected

/-! ## An answer that is late by one election -/

/-- The answer of node 2 to the advertisement of node 1 in session 7. -/
def smallAnswer : Answer where
  src := 2
  dst := 1
  payload := TransferAck.toBytes
    { sessionId := 7
      exitNodeAddr := 2
      rssiToGw := 0
      hopsToGw := 0
      activeTransfers := 0 }

/-- Node 1 advertises session 7 and node 2 answers. -/
def offeredRun : List Action := [.call 1 smallStart, .call 2 (TransferNetwork.smallAd 1)]

/-- The answer arrives in time. -/
def timelyRun : List Action :=
  offeredRun ++ [.receive 1 smallAnswer { clock := fun _ => 1100 }, .call 1 (tickAt 9000)]

theorem timely_answer_elects_exit :
    let n := (boot 4 : ElectionNetwork ℚ).run timelyRun
    (n.nodes 1).transfer.exitNodeCount = 1 ∧ (n.nodes 1).transfer.exitNodes 0 = 2 ∧
      (n.nodes 1).transfer.sessionId = 7 ∧ Answered n.answers 2 7 := by
  have timely : (boot 4 : ElectionNetwork ℚ).TimelyRun timelyRun := by
    refine ⟨trivial, trivial, fun _ _ => ?_, trivial, trivial⟩
    exact ⟨smallAnswer, by decide +kernel, by decide +kernel⟩
  have count : (((boot 4 : ElectionNetwork ℚ).run timelyRun).nodes
      1).transfer.exitNodeCount = 1 := by decide +kernel
  have exit : (((boot 4 : ElectionNetwork ℚ).run timelyRun).nodes
      1).transfer.exitNodes 0 = 2 := by decide +kernel
  have session : (((boot 4 : ElectionNetwork ℚ).run timelyRun).nodes
      1).transfer.sessionId = 7 := by decide +kernel
  have answered := elected_exits_answered_session 4 timelyRun timely 1 0 (count ▸ Nat.one_pos)
  rw [exit, session] at answered
  exact ⟨count, exit, session, answered⟩

/-- The election of session 7 finds no candidate; node 1 starts again and draws session 8
before the answer to session 7 arrives. -/
def lateAnswerRun : List Action :=
  offeredRun ++
    [.call 1 (tickAt 9000),
      .call 1
        { env := { clock := fun _ => 10000, random := 8 }
          event := .startFileTransfer
            { filename := [102]
              size := 3
              readChunk := fun offset len => ([4, 5, 6].drop offset).take len } },
      .receive 1 smallAnswer { clock := fun _ => 10100 },
      .call 1 (tickAt 19000)]

/-- Node 2 is elected for session 8, which it never answered. -/
theorem late_answer_elects_exit_of_earlier_session :
    let n := (boot 4 : ElectionNetwork ℚ).run lateAnswerRun
    (n.nodes 1).transfer.exitNodeCount = 1 ∧ (n.nodes 1).transfer.exitNodes 0 = 2 ∧
      (n.nodes 1).transfer.sessionId = 8 ∧ ¬ Answered n.answers 2 8 := by
  have answers : ((boot 4 : ElectionNetwork ℚ).run lateAnswerRun).answers = [smallAnswer] := by
    decide +kernel
  refine ⟨by decide +kernel, by decide +kernel, by decide +kernel, ?_⟩
  rintro ⟨answer, sent, _, session⟩
  rw [answers] at sent
  rw [List.mem_singleton.mp sent] at session
  exact absurd session (by decide)

end ElectionNetwork

end ForestLink.Mesh
