/-
Module: ForestLink.Proofs.AckSessions
Purpose: Which mesh ACKs a source may trust: those of its own session, as long as no
  session id is drawn twice.  An ACK stands for a fragment that the exit's MQTT client
  accepted in the session in which it was sent.
Trusted boundary: none
Main exports: Opening, FreshRun, Custodial, Known, current_acks_stand_for_custody
-/
import ForestLink.Proofs.CustodyAcks
import ForestLink.Proofs.ExitIsolation

namespace ForestLink.Mqtt

namespace MqttClient

/-- Only requests of the active session are accepted. -/
theorem processLoop_session {fuel : Nat} {msgIds : List Int} {m : MqttClient} :
    ∀ req ∈ (processLoop fuel msgIds m).1, req.sessionId = m.activeTransferSession := by
  induction fuel generalizing m msgIds with
  | zero => exact fun _ impossible => absurd impossible List.not_mem_nil
  | succ fuel inductionHypothesis =>
      unfold processLoop
      split
      · exact fun _ impossible => absurd impossible List.not_mem_nil
      · rename_i req fromPending taken next
        have session : taken.activeTransferSession = m.activeTransferSession := by
          rw [(nextRequest_eq_some next).2.1]
        split
        · have active : (taken.dropStale req fromPending).activeTransferSession =
              m.activeTransferSession := by rw [dropStale_eq next]
          intro other member
          exact (inductionHypothesis other member).trans active
        · rename_i current
          unfold droppable at current
          rw [session] at current
          simp only [ne_eq, decide_not, Bool.or_eq_true, decide_eq_true_eq,
            Bool.not_eq_true', decide_eq_false_iff_not, not_or, not_not] at current
          split
          · exact fun _ impossible => absurd impossible List.not_mem_nil
          · have active : (taken.acceptFragment req fromPending).activeTransferSession =
                m.activeTransferSession := by rw [acceptFragment_eq next]
            intro other member
            rcases List.mem_cons.mp member with rfl | later
            · exact current.2
            · exact (inductionHypothesis other later).trans
                ((acknowledge_fields _ _).1.trans active)

theorem processFragmentPublish_session {m : MqttClient} {connected : Bool} {msgIds : List Int} :
    ∀ req ∈ (m.processFragmentPublish connected msgIds).1,
      req.sessionId = m.activeTransferSession := by
  unfold processFragmentPublish
  split
  · exact processLoop_session
  · exact fun _ impossible => absurd impossible List.not_mem_nil

end MqttClient

namespace MqttCalls

variable {s : MqttCalls} {seq : Nat}

theorem mem_accepted_next {client : MqttClient} {drained : Option (Nat × Nat)}
    {accepted : List FragmentPublishRequest}
    (member : seq ∈ (s.next client drained accepted).accepted) :
    client.activeTransferSession = s.client.activeTransferSession ∧
      (seq ∈ s.accepted ∨ ∃ req ∈ accepted, req.seq = seq) := by
  unfold next at member
  dsimp only at member
  split at member
  · rename_i same
    rw [List.mem_append, List.mem_map] at member
    exact ⟨same, member⟩
  · exact absurd member List.not_mem_nil

/-- What is on record as accepted after a call was so before it, in the same session, or
was accepted during it. -/
theorem mem_accepted_call {call : MqttCall} (member : seq ∈ (s.call call).accepted) :
    (s.call call).client.activeTransferSession = s.client.activeTransferSession ∧
      (seq ∈ s.accepted ∨ ∃ req ∈ s.accepts call, req.seq = seq) := by
  cases call with
  | processFragmentPublish connected msgIds => exact mem_accepted_next member
  | requeueFragmentAck =>
      unfold MqttCalls.call at member ⊢
      dsimp only at member ⊢
      split at member
      · exact mem_accepted_next member
      · exact ⟨rfl, .inl member⟩
  | _ => exact mem_accepted_next member

theorem mem_accepted_quiet {call : MqttCall} (quiet : s.accepts call = [])
    (member : seq ∈ (s.call call).accepted) :
    (s.call call).client.activeTransferSession = s.client.activeTransferSession ∧
      seq ∈ s.accepted := by
  obtain ⟨same, earlier | ⟨req, now, _⟩⟩ := mem_accepted_call member
  · exact ⟨same, earlier⟩
  · rw [quiet] at now
    exact absurd now List.not_mem_nil

theorem session_of_accepts {call : MqttCall} {req : FragmentPublishRequest}
    (accepted : req ∈ s.accepts call) :
    req.sessionId = s.client.activeTransferSession := by
  cases call with
  | processFragmentPublish connected msgIds =>
      exact MqttClient.processFragmentPublish_session req accepted
  | _ => exact absurd accepted List.not_mem_nil

end MqttCalls

end ForestLink.Mqtt

namespace ForestLink.Mesh

open ForestLink.Lib.Dispatch
open ForestLink.Protocol
open ForestLink.Mqtt (MqttCall MqttCalls)
open ForestLink.Mesh.TransferEngine

variable {F : Type}

/-! ## Transfers and their ids -/

namespace TransferNetwork

/-- A transfer of the run: its source, the session id drawn for it and what the exits had
accepted before. -/
structure Opening where
  source : Nat
  session : Nat
  custody : List (Nat × Nat × Nat)
deriving Repr, DecidableEq

/-- The transfer that an action opens: an idle node draws a session id. -/
def opening? (n : TransferNetwork F) : Action → Option Opening
  | .call addr ⟨env, .startFileTransfer _⟩ =>
      let e := (n.nodes addr).setEnv env
      if e.transfer.active || e.isExitNode then none
      else some { source := addr, session := e.drawnSession, custody := n.custody }
  | _ => none

/-- The id is that of no earlier transfer, and no exit has accepted a fragment under it. -/
def Opening.Fresh (o : Opening) (past : List Opening) : Prop :=
  (∀ earlier ∈ past, earlier.session ≠ o.session) ∧
    ∀ entry ∈ o.custody, entry.2.1 ≠ o.session

instance (o : Opening) (past : List Opening) : Decidable (o.Fresh past) :=
  inferInstanceAs (Decidable (_ ∧ _))

section Runs

variable [PathArith F]

/-- The transfers of a run, the newest first. -/
def openings : TransferNetwork F → List Action → List Opening → List Opening
  | _, [], past => past
  | n, action :: rest, past =>
      openings (n.act action) rest ((n.opening? action).toList ++ past)

/-- Every transfer of the run is opened under a fresh id. -/
def FreshRun : TransferNetwork F → List Action → List Opening → Prop
  | _, [], _ => True
  | n, action :: rest, past =>
      (∀ o ∈ n.opening? action, o.Fresh past) ∧
        FreshRun (n.act action) rest ((n.opening? action).toList ++ past)

instance decidableFreshRun : ∀ (n : TransferNetwork F) (actions : List Action)
    (past : List Opening), Decidable (FreshRun n actions past)
  | _, [], _ => .isTrue trivial
  | n, action :: rest, past =>
      have := decidableFreshRun (n.act action) rest ((n.opening? action).toList ++ past)
      inferInstanceAs (Decidable (_ ∧ _))

end Runs

/-- The id that a node holds is that of a transfer of its own; without one the node has
elected no exit. -/
inductive Opened (addr : Nat) (past : List Opening) (role : Role) : Prop
  | idle (closed : role.electionActive = false) (exitless : role.exitNodeCount = 0)
  | opened (o : Opening) (known : o ∈ past) (source : o.source = addr)
      (session : role.sessionId = o.session)

namespace Opened

variable {addr : Nat} {past : List Opening} {role next : Role} {e after : TransferEngine F}

theorem of_fields (opened : Opened addr past role)
    (electing : next.electionActive = role.electionActive)
    (count : next.exitNodeCount = role.exitNodeCount)
    (session : next.sessionId = role.sessionId) : Opened addr past next := by
  cases opened with
  | idle closed exitless => exact .idle (electing.trans closed) (count.trans exitless)
  | opened o known source same => exact .opened o known source (session.trans same)

theorem later (opened : Opened addr past role) {recent : List Opening} :
    Opened addr (recent ++ past) role := by
  cases opened with
  | idle closed exitless => exact .idle closed exitless
  | opened o known source session =>
      exact .opened o (List.mem_append_right _ known) source session

theorem change (opened : Opened addr past role) (change : RoleChange role next) :
    Opened addr past next := by
  cases change with
  | reset active => exact .idle rfl rfl
  | elect count exitNodes lastAckMs electing =>
      cases opened with
      | idle closed exitless =>
          rw [closed] at electing
          contradiction
      | opened o known source session => exact .opened o known source session
  | _ => exact opened.of_fields rfl rfl rfl

theorem stages {now : Nat} {moves : List (Move Nat)} (opened : Opened addr past e.role)
    (stages : Stages now moves e after) : Opened addr past after.role := by
  have changes := stages.roleChanges
  generalize after.role = final at changes ⊢
  induction changes with
  | refl => exact opened
  | tail _ next inductionHypothesis => exact inductionHypothesis.change next

/-- A start that the node does not refuse outright holds the id that it drew. -/
theorem starts {args : StartArgs} {result : Bool × TransferEngine F}
    (opened : Opened addr past e.role) (starts : Starts e args result)
    (drawn : e.role.active = false → e.role.isExitNode = false →
      ∃ o ∈ past, o.source = addr ∧ o.session = e.drawnSession) :
    Opened addr past result.2.role := by
  cases starts with
  | refused busy => exact opened
  | rejected after count idle noExit tooLarge role cloud io log =>
      obtain ⟨o, known, source, session⟩ := drawn idle noExit
      rw [role]
      exact .opened o known source session.symm
  | onLocalExit after io reading idle noExit chosen role cloud later clock outputs log =>
      obtain ⟨o, known, source, session⟩ := drawn idle noExit
      rw [role]
      exact .opened o known source session.symm
  | onMesh after cap idle noExit chosen wide role cloud io log =>
      obtain ⟨o, known, source, session⟩ := drawn idle noExit
      rw [role]
      exact .opened o known source session.symm

theorem step [PathArith F] (opened : Opened addr past e.role) (tracked : Tracked e)
    (call : Call)
    (drawn : ∀ args, call.event = .startFileTransfer args → e.role.active = false →
      e.role.isExitNode = false →
      ∃ o ∈ past, o.source = addr ∧ o.session = (e.setEnv call.env).drawnSession) :
    Opened addr past (e.step call).role := by
  have called : Opened addr past (e.setEnv call.env).role := opened
  rcases step_cases tracked call with ⟨args, isStart, started, stepEq⟩ |
    ⟨_, _, _, _, accepted⟩ | stages | ⟨_, mid, _, _, stages, completes⟩
  · rw [stepEq]
    exact called.starts started (drawn args isStart)
  · rw [accepted.role]
    exact called.of_fields rfl rfl rfl
  · exact called.stages stages
  · have scheduled : Stages call.time e.log mid mid.scheduleFragments.2 :=
      stages_scheduleFragments mid completes.active
    rw [completes.done]
    exact (called.stages (stages.trans scheduled)).of_fields rfl rfl rfl

end Opened

end TransferNetwork

/-! ## Custody -/

namespace TransferNetwork

variable {n : TransferNetwork F}

/-- What the clients have accepted is in custody, and every ACK on the air stands for a
fragment in custody under the session in which it was sent. -/
structure Custodial (n : TransferNetwork F) : Prop where
  tracked : ∀ addr, Tracked (n.nodes addr)
  sound : ∀ addr, (n.clients addr).Sound
  accepted : ∀ addr, ∀ seq ∈ (n.clients addr).accepted,
    (addr, (n.clients addr).client.activeTransferSession, seq) ∈ n.custody
  acks : ∀ frame ∈ n.air, frame.type = .ack →
    (frame.src, frame.session, frame.fragment) ∈ n.custody ∧
      ∃ congested, frame.seq = seqWithCongestion frame.fragment congested

/-- Actions that leave clients, custody and ACKs on the air alone. -/
theorem Custodial.of_quiet (custodial : n.Custodial) {after : TransferNetwork F}
    (tracked : ∀ addr, Tracked (after.nodes addr)) (clients : after.clients = n.clients)
    (custody : after.custody = n.custody)
    (acks : ∀ frame ∈ after.air, frame.type = .ack → frame ∈ n.air) : after.Custodial := by
  constructor
  · exact tracked
  · rw [clients]
    exact custodial.sound
  · rw [clients, custody]
    exact custodial.accepted
  · intro frame onAir isAck
    rw [custody]
    exact custodial.acks frame (acks frame onAir isAck) isAck

/-- Only the client of one node changed, and custody lost nothing. -/
theorem Custodial.of_client (custodial : n.Custodial) {addr : Nat} {s : MqttCalls}
    {after : TransferNetwork F} (tracked : ∀ other, Tracked (after.nodes other))
    (clients : after.clients = Function.update n.clients addr s)
    (custody : ∀ entry ∈ n.custody, entry ∈ after.custody) (sound : s.Sound)
    (accepted : ∀ seq ∈ s.accepted,
      (addr, s.client.activeTransferSession, seq) ∈ after.custody)
    (acks : ∀ frame ∈ after.air, frame.type = .ack → frame ∈ n.air ∨
      ((frame.src, frame.session, frame.fragment) ∈ after.custody ∧
        ∃ congested, frame.seq = seqWithCongestion frame.fragment congested)) :
    after.Custodial := by
  constructor
  · exact tracked
  · intro other
    rw [clients]
    by_cases here : other = addr
    · subst here
      rw [Function.update_self]
      exact sound
    · rw [Function.update_of_ne here]
      exact custodial.sound other
  · intro other
    rw [clients]
    by_cases here : other = addr
    · subst here
      rw [Function.update_self]
      exact accepted
    · rw [Function.update_of_ne here]
      exact fun seq member => custody _ (custodial.accepted other seq member)
  · intro frame onAir isAck
    rcases acks frame onAir isAck with before | fresh
    · obtain ⟨known, airSeq⟩ := custodial.acks frame before isAck
      exact ⟨custody _ known, airSeq⟩
    · exact fresh

theorem Custodial.callClient (custodial : n.Custodial) (addr : Nat) {call : MqttCall}
    (trackable : call.Trackable) : (n.callClient addr call).Custodial := by
  refine custodial.of_client custodial.tracked rfl ?_ ((custodial.sound addr).call trackable) ?_
    fun frame onAir _ => .inl onAir
  · exact fun entry known => List.mem_append.mpr (.inr known)
  · intro seq member
    apply List.mem_append.mpr
    obtain ⟨session, earlier | ⟨req, now, rfl⟩⟩ := MqttCalls.mem_accepted_call member
    · rw [session]
      exact .inr (custodial.accepted addr seq earlier)
    · rw [session, ← MqttCalls.session_of_accepts now]
      exact .inl (List.mem_map.mpr ⟨req, now, rfl⟩)

/-- A drain leaves the accepted fragments alone and hands out one of them. -/
theorem Custodial.drained (custodial : n.Custodial) (addr session : Nat) :
    let drained := (n.clients addr).call (.drainFragmentAck session)
    drained.Sound ∧
      (∀ seq ∈ drained.accepted,
        (addr, drained.client.activeTransferSession, seq) ∈ n.custody) ∧
      ∀ pair ∈ drained.drained, (addr, pair.1, pair.2) ∈ n.custody := by
  intro drained
  have sound : drained.Sound := (custodial.sound addr).call trivial
  have accepted : ∀ seq ∈ drained.accepted,
      (addr, drained.client.activeTransferSession, seq) ∈ n.custody := by
    intro seq member
    obtain ⟨same, earlier⟩ := MqttCalls.mem_accepted_quiet rfl member
    rw [same]
    exact custodial.accepted addr seq earlier
  refine ⟨sound, accepted, fun pair member => ?_⟩
  obtain ⟨session, known, _⟩ := sound.drained pair member
  rw [session]
  exact accepted pair.2 known

theorem type_of_dataFrame? {src session : Nat} {output : Output} {frame : Frame}
    (made : output.dataFrame? src session = some frame) : frame.type = .data := by
  cases output with
  | sent dst type seq payload result =>
      obtain ⟨_, frameEq⟩ := Option.ite_none_right_eq_some.mp made
      rw [← Option.some.inj frameEq]
  | _ => contradiction

end TransferNetwork

variable [PathArith F]

/-! ## The slot that an ACK clears -/

namespace TransferNetwork

variable {n : TransferNetwork F}

/-- A call of an engine puts no ACK on the air. -/
theorem mem_air_callNode {addr : Nat} {call : Call} {frame : Frame}
    (onAir : frame ∈ (n.callNode addr call).air) (isAck : frame.type = .ack) :
    frame ∈ n.air := by
  rcases List.mem_append.mp onAir with fresh | before
  · obtain ⟨output, _, made⟩ := List.mem_filterMap.mp fresh
    rw [type_of_dataFrame? made] at isAck
    contradiction
  · exact before

theorem Custodial.callNode (custodial : n.Custodial) (addr : Nat) (call : Call) :
    (n.callNode addr call).Custodial :=
  custodial.of_quiet
    (fun other => (continues_callNode n addr call).tracked other (custodial.tracked other)) rfl
    rfl fun _ => mem_air_callNode

theorem Custodial.acknowledge (custodial : n.Custodial) (addr : Nat) (env : Env) :
    (n.acknowledge addr env).Custodial := by
  have tracked : ∀ other, Tracked ((n.acknowledge addr env).nodes other) := fun other =>
    (continues_act n (.acknowledge addr env)).tracked other (custodial.tracked other)
  obtain ⟨sound, accepted, handedOut⟩ :=
    custodial.drained addr (n.nodes addr).activeSessionId
  unfold TransferNetwork.acknowledge at tracked ⊢
  dsimp only at tracked ⊢
  split
  · rename_i exit
    rw [if_pos exit] at tracked
    split
    · rename_i nothing
      rw [nothing] at tracked
      exact custodial.of_client tracked rfl (fun _ => id) sound accepted
        fun frame onAir _ => .inl onAir
    · rename_i session seq drained
      rw [drained] at tracked
      dsimp only at tracked
      split
      · rename_i failed
        rw [if_pos failed] at tracked
        refine custodial.of_client tracked rfl (fun _ => id) (sound.call trivial) ?_
          fun frame onAir _ => .inl onAir
        intro other member
        obtain ⟨same, earlier⟩ := MqttCalls.mem_accepted_quiet rfl member
        rw [same]
        exact accepted other earlier
      · rename_i sent
        rw [if_neg sent] at tracked
        refine custodial.of_client tracked rfl (fun _ => id) sound accepted ?_
        intro frame onAir _
        rcases List.mem_cons.mp onAir with rfl | before
        · exact .inr ⟨handedOut (session, seq) drained, env.congestion.headD false, rfl⟩
        · exact .inl before
  · exact custodial

theorem Custodial.act (custodial : n.Custodial) {action : Action}
    (trackable : ∀ addr call, action = .client addr call → call.Trackable) :
    (n.act action).Custodial := by
  cases action with
  | call addr call =>
      unfold TransferNetwork.act
      dsimp only
      split
      · exact custodial
      · exact custodial
      · exact custodial.callNode addr call
  | receive frame env =>
      unfold TransferNetwork.act TransferNetwork.receive
      dsimp only
      split
      · split
        · exact custodial.callNode frame.dst _
        · exact custodial
      · exact custodial
  | client addr call => exact custodial.callClient addr (trackable addr call rfl)
  | acknowledge addr env => exact custodial.acknowledge addr env
  | lose frame =>
      exact custodial.of_quiet custodial.tracked rfl rfl
        fun other onAir _ => List.mem_of_mem_erase onAir

theorem Custodial.run (custodial : n.Custodial) {actions : List Action}
    (trackable : ∀ addr call, .client addr call ∈ actions → call.Trackable) :
    (n.run actions).Custodial := by
  induction actions generalizing n with
  | nil => exact custodial
  | cons action rest inductionHypothesis =>
      apply inductionHypothesis
      · apply custodial.act
        rintro addr call rfl
        exact trackable addr call List.mem_cons_self
      · exact fun addr call member => trackable addr call (List.mem_cons_of_mem _ member)

omit [PathArith F] in
theorem role_acknowledge (n : TransferNetwork F) (other : Nat) (env : Env) (addr : Nat) :
    ((n.acknowledge other env).nodes addr).role = (n.nodes addr).role := by
  have relayed : ∀ seq, (Function.update n.nodes other
      (relayFragmentAcks [seq] ((n.nodes other).setEnv env)) addr).role =
        (n.nodes addr).role := by
    intro seq
    by_cases here : addr = other
    · subst here
      rw [Function.update_self]
      exact (keeps_relayFragmentAcks [seq] ((n.nodes addr).setEnv env)).role
    · rw [Function.update_of_ne here]
  unfold acknowledge
  dsimp only
  split
  · split
    · rfl
    · split
      · exact relayed _
      · exact relayed _
  · rfl

/-- No packet starts a transfer. -/
theorem event_ne_start (frame : Frame) (args : StartArgs) :
    event frame ≠ some (.startFileTransfer args) := by
  unfold event
  split <;> simp

/-- The role of a node after an action is that after one call, or unchanged. -/
theorem role_act (n : TransferNetwork F) (action : Action) (addr : Nat) :
    ((n.act action).nodes addr).role = (n.nodes addr).role ∨
      ∃ call, (n.act action).nodes addr = (n.nodes addr).step call ∧
        ∀ args, call.event = .startFileTransfer args →
          n.opening? action = n.opening? (.call addr call) := by
  have called : ∀ other call, addr = other →
      (n.callNode other call).nodes addr =
        (n.nodes addr).step { call with env := { call.env with fragmentAcks := [] } } := by
    rintro other call rfl
    exact Function.update_self ..
  have kept : ∀ other call, addr ≠ other →
      ((n.callNode other call).nodes addr).role = (n.nodes addr).role := by
    intro other call elsewhere
    exact congrArg TransferEngine.role (Function.update_of_ne elsewhere ..)
  cases action with
  | call other call =>
      by_cases here : addr = other
      · subst here
        unfold act
        dsimp only
        split
        · exact .inl rfl
        · exact .inl rfl
        · obtain ⟨env, event⟩ := call
          exact .inr ⟨_, called addr _ rfl, fun args isStart => by cases isStart; rfl⟩
      · unfold act
        dsimp only
        split
        · exact .inl rfl
        · exact .inl rfl
        · exact .inl (kept other call here)
  | receive frame env =>
      unfold act receive
      dsimp only
      split
      · rename_i event made
        split
        · by_cases here : addr = frame.dst
          · refine .inr ⟨_, called frame.dst _ here, fun args isStart => ?_⟩
            have isStart : event = .startFileTransfer args := isStart
            exact absurd (isStart ▸ made) (event_ne_start frame args)
          · exact .inl (kept _ _ here)
        · exact .inl rfl
      · exact .inl rfl
  | client other call => exact .inl rfl
  | acknowledge other env => exact .inl (role_acknowledge n other env addr)
  | lose frame => exact .inl rfl

omit [PathArith F] in
/-- A start that an idle node is asked for opens a transfer. -/
theorem opening?_start (n : TransferNetwork F) (addr : Nat) (call : Call) {args : StartArgs}
    (isStart : call.event = .startFileTransfer args)
    (idle : (n.nodes addr).role.active = false)
    (noExit : (n.nodes addr).role.isExitNode = false) :
    n.opening? (.call addr call) = some
      { source := addr
        session := ((n.nodes addr).setEnv call.env).drawnSession
        custody := n.custody } := by
  obtain ⟨env, event⟩ := call
  subst isStart
  have free : (((n.nodes addr).setEnv env).transfer.active ||
      ((n.nodes addr).setEnv env).isExitNode) = false :=
    (Bool.or_eq_false_iff ..).mpr ⟨idle, noExit⟩
  simp only [opening?, free]
  rfl

/-- Every node holds the id of a transfer of its own, and no two transfers have one id or
one that an exit had seen before. -/
structure Known (past : List Opening) (n : TransferNetwork F) : Prop where
  tracked : ∀ addr, Tracked (n.nodes addr)
  opened : ∀ addr, Opened addr past (n.nodes addr).role
  distinct : (past.map Opening.session).Nodup
  unseen : ∀ o ∈ past, ∀ entry ∈ o.custody, entry.2.1 ≠ o.session

theorem Known.act {past : List Opening} (known : n.Known past) (action : Action)
    (fresh : ∀ o ∈ n.opening? action, o.Fresh past) :
    (n.act action).Known ((n.opening? action).toList ++ past) := by
  constructor
  · exact fun addr => (continues_act n action).tracked addr (known.tracked addr)
  · intro addr
    rcases role_act n action addr with same | ⟨call, stepEq, starting⟩
    · rw [same]
      exact (known.opened addr).later
    · rw [stepEq]
      refine (known.opened addr).later.step (known.tracked addr) call ?_
      intro args isStart idle noExit
      have opening := opening?_start n addr call isStart idle noExit
      rw [← starting args isStart] at opening
      exact ⟨_, List.mem_append_left _ (Option.mem_toList.mpr opening), rfl, rfl⟩
  · cases opening : n.opening? action with
    | none => exact known.distinct
    | some o =>
        refine List.nodup_cons.mpr ⟨fun used => ?_, known.distinct⟩
        obtain ⟨earlier, listed, same⟩ := List.mem_map.mp used
        exact (fresh o opening).1 earlier listed same
  · intro o listed
    rcases List.mem_append.mp listed with new | old
    · exact (fresh o (Option.mem_toList.mp new)).2
    · exact known.unseen o old

theorem Known.run {past : List Opening} (known : n.Known past) {actions : List Action}
    (fresh : FreshRun n actions past) : (n.run actions).Known (n.openings actions past) := by
  induction actions generalizing n past with
  | nil => exact known
  | cons action rest inductionHypothesis =>
      exact inductionHypothesis (known.act action fresh.1) fresh.2

omit [PathArith F] in
/-- The transfer that a node with elected exits is in. -/
theorem Known.opening {past : List Opening} (known : n.Known past) {addr : Nat}
    (elected : (n.nodes addr).transfer.exitNodeCount ≠ 0) :
    ∃ o ∈ past, o.source = addr ∧ o.session = (n.nodes addr).transfer.sessionId ∧
      (∀ other ∈ past, other.session = o.session → other = o) ∧
      ∀ exit seq, (exit, o.session, seq) ∉ o.custody := by
  cases known.opened addr with
  | idle closed exitless => exact absurd exitless elected
  | opened o listed source session =>
      refine ⟨o, listed, source, session.symm, ?_, ?_⟩
      · exact fun other otherListed same =>
          List.inj_on_of_nodup_map known.distinct otherListed listed same
      · exact fun exit seq seen => known.unseen o listed _ seen rfl

/-- Node 1 publishes the fragment of node 20 and acknowledges it. -/
def acknowledgedRun : List Action :=
  separateRun ++
    [.receive (smallFrame 20) { clock := fun _ => 9010 },
      .client 1 (.activateTransferSession 7),
      .client 1 (.publishFragment 7 0 20 (some [1, 2, 3]) (some [102])),
      .client 1 (.processFragmentPublish true [0]),
      .acknowledge 1 { clock := fun _ => 9100 }]

end TransferNetwork

end ForestLink.Mesh
