/-
Module: ForestLink.Proofs.ExitIsolation
Purpose: When an exit hands only fragments of its own source and session to MQTT: exactly
  as long as no DATA packet of another source or session reaches it in its role.
Trusted boundary: none
Main exports: Belongs, HandsOverOwn, Separated, exit_isolates_session_iff
-/
import ForestLink.Mesh.TransferNetwork
import ForestLink.Proofs.MeshStages

namespace ForestLink.Mesh

open ForestLink.Lib
open ForestLink.Lib.Dispatch
open ForestLink.Protocol
open ForestLink.Mqtt (MqttCall MqttCalls)
open ForestLink.Mesh.TransferEngine

variable {F : Type}

/-! ## What reaches MQTT -/

/-- The packet was sent by the source that the node serves, in the session it serves. -/
def Belongs (e : TransferEngine F) (frame : Frame) : Prop :=
  frame.src = e.sourceAddr ∧ frame.session = e.activeSessionId

instance (e : TransferEngine F) (frame : Frame) : Decidable (Belongs e frame) :=
  inferInstanceAs (Decidable (_ ∧ _))

namespace TransferEngine

variable {e after : TransferEngine F}

theorem recentOutputs_of_append {recent : List Output}
    (outputs : after.io.outputs = recent ++ e.io.outputs) : e.recentOutputs after = recent := by
  unfold recentOutputs
  rw [outputs, List.length_append, Nat.add_sub_cancel, List.take_left]

/-- An exit hands every DATA packet over under the session and source it serves. -/
theorem recentOutputs_handleData (e : TransferEngine F) (srcAddr seq : Nat)
    (payload : List UInt8) (exit : e.hasExitRole = true) :
    ∃ queued before, (∀ output ∈ before, output.isMeta = true) ∧
      e.recentOutputs (e.handleData srcAddr seq payload) =
        .toMqtt e.activeSessionId seq e.sourceAddr payload e.transfer.filename queued ::
          before := by
  have forwarded : ∀ e : TransferEngine F, ∃ queued, (e.forwardFragment seq payload).io.outputs =
      .toMqtt e.activeSessionId seq e.sourceAddr payload e.transfer.filename queued ::
        e.io.outputs := by
    intro e
    unfold forwardFragment
    dsimp only
    split <;> exact ⟨_, rfl⟩
  unfold handleData
  rw [if_pos exit]
  unfold activateExit
  split
  · obtain ⟨queued, outputs⟩ := forwarded (({ e with
      isExitNode := true
      exitPending := false }).publishMeta e.activeSessionId e.sourceAddr)
    refine ⟨queued, [_], ?_, recentOutputs_of_append outputs⟩
    intro output member
    obtain rfl := List.mem_singleton.mp member
    rfl
  · obtain ⟨queued, outputs⟩ := forwarded e
    exact ⟨queued, [], fun _ impossible => absurd impossible List.not_mem_nil,
      recentOutputs_of_append outputs⟩

/-! ## The role of an exit -/

/-- A stage gives no node the exit role, and one that keeps it keeps its session. -/
theorem RoleChange.serving {before after : Role} (change : RoleChange before after)
    (exit : after.hasExitRole = true) :
    before.hasExitRole = true ∧ after.activeSessionId = before.activeSessionId ∧
      after.sourceAddr = before.sourceAddr := by
  cases change with
  | reset active =>
      have isExit : before.isExitNode = true := by
        simpa [Role.hasExitRole, Role.resetSender] using exit
      exact ⟨by simp [Role.hasExitRole, isExit], rfl, rfl⟩
  | clear exited => contradiction
  | activate pending => exact ⟨by simp [Role.hasExitRole, pending], rfl, rfl⟩
  | _ => exact ⟨exit, rfl, rfl⟩

theorem Stages.serving {now : Nat} {past : List (Move Nat)} (stages : Stages now past e after)
    (exit : after.role.hasExitRole = true) :
    e.role.hasExitRole = true ∧ after.role.activeSessionId = e.role.activeSessionId ∧
      after.role.sourceAddr = e.role.sourceAddr := by
  have changes := stages.roleChanges
  generalize after.role = role at changes exit ⊢
  induction changes with
  | refl => exact ⟨exit, rfl, rfl⟩
  | tail _ next inductionHypothesis =>
      obtain ⟨midExit, session, source⟩ := next.serving exit
      obtain ⟨before, midSession, midSource⟩ := inductionHypothesis midExit
      exact ⟨before, session.trans midSession, source.trans midSource⟩

theorem Starts.serving {args : StartArgs} {result : Bool × TransferEngine F}
    (starts : Starts e args result) :
    result.2.role.activeSessionId = e.role.activeSessionId ∧
      result.2.role.sourceAddr = e.role.sourceAddr := by
  cases starts with
  | refused busy => exact ⟨rfl, rfl⟩
  | rejected after count idle noExit tooLarge role cloud io log =>
      rw [role]
      exact ⟨rfl, rfl⟩
  | onLocalExit after io reading idle noExit chosen role cloud later clock outputs log =>
      rw [role]
      exact ⟨rfl, rfl⟩
  | onMesh after cap idle noExit chosen wide role cloud io log =>
      rw [role]
      exact ⟨rfl, rfl⟩

/-- A node that has the exit role before and after a call serves the same session of the
same source. -/
theorem serving_step [PathArith F] (tracked : Tracked e) (call : Call)
    (exit : e.hasExitRole = true) (still : (e.step call).hasExitRole = true) :
    (e.step call).activeSessionId = e.activeSessionId ∧
      (e.step call).sourceAddr = e.sourceAddr := by
  rcases step_cases tracked call with ⟨args, _, started, stepEq⟩ | ⟨_, _, _, _, accepted⟩ |
    stages | ⟨now, mid, _, _, stages, completes⟩
  · rw [stepEq]
    exact started.serving
  · have free : e.hasExitRole = false := accepted.free
    rw [free] at exit
    contradiction
  · exact (stages.serving still).2
  · have scheduled : Stages call.time e.log mid mid.scheduleFragments.2 :=
      stages_scheduleFragments mid completes.active
    have whole : Stages call.time e.log (e.setEnv call.env) mid.scheduleFragments.2 :=
      stages.trans scheduled
    rw [completes.done] at still ⊢
    exact (whole.serving still).2

end TransferEngine

/-! ## Deliveries -/

namespace TransferNetwork

variable [PathArith F] {n : TransferNetwork F}

/-- Whatever the node hands to MQTT when the packet reaches it, it hands over under the
source and the session of the packet. -/
def HandsOverOwn (n : TransferNetwork F) (frame : Frame) (env : Env) : Prop :=
  ∀ session seq srcNode data filename queued,
    .toMqtt session seq srcNode data filename queued ∈
      (n.nodes frame.dst).recentOutputs ((n.receive frame env).nodes frame.dst) →
    frame.src = srcNode ∧ frame.session = session

/-- The engine that a DATA packet reaches. -/
theorem nodes_receive_data {frame : Frame} (env : Env) (onAir : frame ∈ n.air)
    (isData : frame.type = .data) :
    (n.receive frame env).nodes frame.dst =
      ((n.nodes frame.dst).setEnv { env with fragmentAcks := [] }).handleData frame.src
        frame.seq frame.payload := by
  unfold receive event
  rw [isData]
  dsimp only
  rw [if_pos onAir]
  exact Function.update_self ..

theorem handsOverOwn_iff {frame : Frame} (env : Env) (onAir : frame ∈ n.air)
    (isData : frame.type = .data) :
    n.HandsOverOwn frame env ↔
      ((n.nodes frame.dst).hasExitRole = true → Belongs (n.nodes frame.dst) frame) := by
  unfold HandsOverOwn
  rw [nodes_receive_data env onAir isData]
  obtain ⟨e, eEq⟩ : ∃ e, e = (n.nodes frame.dst).setEnv { env with fragmentAcks := [] } :=
    ⟨_, rfl⟩
  have exitEq : (n.nodes frame.dst).hasExitRole = e.hasExitRole := by
    rw [eEq]
    rfl
  have belongsEq : Belongs (n.nodes frame.dst) frame ↔ Belongs e frame := by
    rw [eEq]
    rfl
  have recentEq : ∀ after : TransferEngine F,
      (n.nodes frame.dst).recentOutputs after = e.recentOutputs after := by
    intro after
    rw [eEq]
    rfl
  rw [← eEq, exitEq, belongsEq, recentEq]
  by_cases exit : e.hasExitRole = true
  · obtain ⟨queued, before, metas, outputs⟩ :=
      recentOutputs_handleData e frame.src frame.seq frame.payload exit
    rw [outputs]
    constructor
    · exact fun own _ => own _ _ _ _ _ _ List.mem_cons_self
    · intro belongs session seq srcNode data filename queued' handed
      rcases List.mem_cons.mp handed with here | earlier
      · injection here with sameSession _ sameSource
        rw [sameSession, sameSource]
        exact belongs exit
      · exact absurd (metas _ earlier) (by simp [Output.isMeta])
  · have nothing : e.recentOutputs (e.handleData frame.src frame.seq frame.payload) = [] := by
      apply recentOutputs_of_append
      unfold TransferEngine.handleData
      rw [if_neg exit]
      rfl
    rw [nothing]
    exact ⟨fun _ isExit => absurd isExit exit,
      fun _ _ _ _ _ _ _ impossible => absurd impossible List.not_mem_nil⟩

/-! ## Runs -/

/-- A DATA packet that the action puts on the air, or that is on its way to a node that
takes up a session with this action, belongs to the session of the node it goes to, if
that node is an exit. -/
def KeepsApart (n : TransferNetwork F) (action : Action) : Prop :=
  ∀ frame ∈ (n.act action).air, frame.type = .data →
    ((n.act action).nodes frame.dst).hasExitRole = true →
    frame ∉ n.air ∨ (n.nodes frame.dst).hasExitRole = false →
    Belongs ((n.act action).nodes frame.dst) frame

instance (n : TransferNetwork F) (action : Action) : Decidable (n.KeepsApart action) :=
  inferInstanceAs (Decidable (∀ frame ∈ (n.act action).air, frame.type = .data →
    ((n.act action).nodes frame.dst).hasExitRole = true →
    frame ∉ n.air ∨ (n.nodes frame.dst).hasExitRole = false →
    Belongs ((n.act action).nodes frame.dst) frame))

/-- Sources and sessions do not meet at an exit in this run. -/
def Separated : TransferNetwork F → List Action → Prop
  | _, [] => True
  | n, action :: rest => n.KeepsApart action ∧ Separated (n.act action) rest

/-- All DATA packets on their way to an exit belong to its session. -/
structure Isolated (n : TransferNetwork F) : Prop where
  tracked : ∀ addr, Tracked (n.nodes addr)
  belongs : ∀ frame ∈ n.air, frame.type = .data →
    (n.nodes frame.dst).hasExitRole = true → Belongs (n.nodes frame.dst) frame

/-- An action leaves the nodes tracked and the sessions of lasting exits unchanged. -/
structure Continues (n after : TransferNetwork F) : Prop where
  tracked : ∀ addr, Tracked (n.nodes addr) → Tracked (after.nodes addr)
  serving : ∀ addr, Tracked (n.nodes addr) → (n.nodes addr).hasExitRole = true →
    (after.nodes addr).hasExitRole = true →
    (after.nodes addr).activeSessionId = (n.nodes addr).activeSessionId ∧
      (after.nodes addr).sourceAddr = (n.nodes addr).sourceAddr

omit [PathArith F] in
theorem Continues.of_nodes {after : TransferNetwork F} (same : after.nodes = n.nodes) :
    Continues n after := by
  constructor
  · rw [same]
    exact fun _ => id
  · rw [same]
    exact fun _ _ _ _ => ⟨rfl, rfl⟩

omit [PathArith F] in
/-- Only one node changed. -/
theorem Continues.of_update {after : TransferNetwork F} {changed : Nat}
    {e : TransferEngine F} (nodes : after.nodes = Function.update n.nodes changed e)
    (tracked : Tracked (n.nodes changed) → Tracked e)
    (serving : Tracked (n.nodes changed) → (n.nodes changed).hasExitRole = true →
      e.hasExitRole = true → e.activeSessionId = (n.nodes changed).activeSessionId ∧
        e.sourceAddr = (n.nodes changed).sourceAddr) : Continues n after := by
  constructor
  · intro addr
    rw [nodes]
    by_cases here : addr = changed
    · subst here
      rw [Function.update_self]
      exact tracked
    · rw [Function.update_of_ne here]
      exact id
  · intro addr
    rw [nodes]
    by_cases here : addr = changed
    · subst here
      rw [Function.update_self]
      exact serving
    · rw [Function.update_of_ne here]
      exact fun _ _ _ => ⟨rfl, rfl⟩

theorem continues_callNode (n : TransferNetwork F) (addr : Nat) (call : Call) :
    Continues n (n.callNode addr call) :=
  .of_update rfl (fun tracked => tracked.step _) fun tracked => serving_step tracked _

theorem continues_act (n : TransferNetwork F) (action : Action) :
    Continues n (n.act action) := by
  cases action with
  | call addr call =>
      unfold act
      dsimp only
      split
      · exact .of_nodes rfl
      · exact .of_nodes rfl
      · exact continues_callNode n addr call
  | receive frame env =>
      unfold act receive
      dsimp only
      split
      · split
        · exact continues_callNode n frame.dst _
        · exact .of_nodes rfl
      · exact .of_nodes rfl
  | client addr call => exact .of_nodes rfl
  | acknowledge addr env =>
      have relays : ∀ seq, Keeps ((n.nodes addr).setEnv env)
          (TransferEngine.relayFragmentAcks [seq] ((n.nodes addr).setEnv env)) :=
        fun seq => keeps_relayFragmentAcks _ _
      have continues : ∀ seq (after : TransferNetwork F),
          after.nodes = Function.update n.nodes addr
            (TransferEngine.relayFragmentAcks [seq] ((n.nodes addr).setEnv env)) →
          Continues n after := by
        intro seq after nodes
        refine .of_update nodes ?_ ?_
        · intro tracked
          have called : Tracked ((n.nodes addr).setEnv env) :=
            tracked.of_flags rfl rfl rfl rfl rfl rfl rfl
          exact called.of_keeps (relays seq)
        · intro _ _ _
          have role := (relays seq).role
          exact ⟨congrArg Role.activeSessionId role, congrArg Role.sourceAddr role⟩
      unfold act acknowledge
      dsimp only
      split
      · split
        · exact .of_nodes rfl
        · split
          · exact continues _ _ rfl
          · exact continues _ _ rfl
      · exact .of_nodes rfl
  | lose frame => exact .of_nodes rfl

theorem Isolated.act (isolated : n.Isolated) {action : Action} (apart : n.KeepsApart action) :
    (n.act action).Isolated := by
  have continues := continues_act n action
  refine ⟨fun addr => continues.tracked addr (isolated.tracked addr), ?_⟩
  intro frame onAir isData exit
  by_cases fresh : frame ∉ n.air ∨ (n.nodes frame.dst).hasExitRole = false
  · exact apart frame onAir isData exit fresh
  · simp only [not_or, not_not, Bool.not_eq_false] at fresh
    obtain ⟨source, session⟩ := isolated.belongs frame fresh.1 isData fresh.2
    obtain ⟨sameSession, sameSource⟩ :=
      continues.serving frame.dst (isolated.tracked frame.dst) fresh.2 exit
    exact ⟨source.trans sameSource.symm, session.trans sameSession.symm⟩

theorem Isolated.run (isolated : n.Isolated) {actions : List Action}
    (separated : Separated n actions) : (n.run actions).Isolated := by
  induction actions generalizing n with
  | nil => exact isolated
  | cons action rest inductionHypothesis =>
      exact inductionHypothesis (isolated.act separated.1) separated.2

theorem isolated_boot (maxElectedExits : Nat) :
    (boot maxElectedExits : TransferNetwork F).Isolated where
  tracked addr := .boot addr maxElectedExits
  belongs _ impossible := absurd impossible List.not_mem_nil

/-- If no exit takes up a session while other packets are on their way to it, and none is
sent to it by another source or in another session, every DATA packet is handed over under
its own source and session, whatever is delayed, duplicated, reordered or lost in the run.
Without that condition a single delivery still keeps the two apart if and only if the node
is no exit or the packet is of the source and session that the node serves. -/
theorem exit_isolates_session_iff (maxElectedExits : Nat) (actions : List Action) :
    let n := (boot maxElectedExits : TransferNetwork F).run actions
    (∀ frame ∈ n.air, frame.type = .data → ∀ env,
        (n.HandsOverOwn frame env ↔
          ((n.nodes frame.dst).hasExitRole = true → Belongs (n.nodes frame.dst) frame))) ∧
      (Separated (boot maxElectedExits : TransferNetwork F) actions →
        ∀ frame ∈ n.air, frame.type = .data → ∀ env, n.HandsOverOwn frame env) := by
  intro n
  refine ⟨fun frame onAir isData env => handsOverOwn_iff env onAir isData, ?_⟩
  intro separated frame onAir isData env
  have isolated : n.Isolated := (isolated_boot maxElectedExits).run separated
  exact (handsOverOwn_iff env onAir isData).mpr (isolated.belongs frame onAir isData)

/-! ## Two sources with one session id -/

/-- The advertisement of the small transfer from the node at `srcAddr`. -/
def smallAd (srcAddr : Nat) : Call where
  env := { clock := fun _ => 1050 }
  event := .transferAd srcAddr
    (TransferAd.toBytes
      { sessionId := 7
        fileSize := 3
        fragmentSizeD8 := 182
        crc32 := 0x55BC801D
        fragmentCount := 1
        filenameLen := 1
        filename := [102] }) true

/-- Node 1 takes up session 7 of node 20 and answers the advertisement of node 30, which
drew the same session id, once more.  Node 30 elects node 1 and sends its fragment. -/
def crossedRun : List Action :=
  [.call 20 smallStart, .call 30 smallStart, .call 1 (smallAd 20), .call 1 (smallAd 30),
    .call 30 (smallOffer 1), .call 30 (tickAt 9000)]

/-- The fragment of the node at `srcAddr` on its way to node 1. -/
def smallFrame (srcAddr : Nat) : Frame where
  src := srcAddr
  dst := 1
  type := .data
  seq := 0
  payload := [1, 2, 3]
  session := 7
  fragment := 0

/-- Node 1 hands the fragment of node 30 over as a fragment of node 20. -/
theorem exit_hands_over_foreign_fragment :
    let n := (boot 4 : TransferNetwork ℚ).run crossedRun
    smallFrame 30 ∈ n.air ∧ ¬ n.HandsOverOwn (smallFrame 30) {} := by
  have handed : .toMqtt 7 0 20 [1, 2, 3] [102] true ∈
      (((boot 4 : TransferNetwork ℚ).run crossedRun).nodes 1).recentOutputs
        ((((boot 4 : TransferNetwork ℚ).run crossedRun).receive (smallFrame 30) {}).nodes 1) := by
    decide +kernel
  refine ⟨by decide +kernel, fun own => ?_⟩
  have source := (own 7 0 20 [1, 2, 3] [102] true handed).1
  exact absurd source (by decide)

/-- Node 20 alone with node 1. -/
def separateRun : List Action :=
  [.call 20 smallStart, .call 1 (smallAd 20), .call 20 (smallOffer 1), .call 20 (tickAt 9000)]

theorem exit_hands_over_own_fragment :
    let n := (boot 4 : TransferNetwork ℚ).run separateRun
    smallFrame 20 ∈ n.air ∧ (n.nodes 1).hasExitRole = true ∧
      n.HandsOverOwn (smallFrame 20) {} := by
  have separated : Separated (boot 4 : TransferNetwork ℚ) separateRun :=
    ⟨by decide +kernel, by decide +kernel, by decide +kernel, by decide +kernel, trivial⟩
  have onAir : smallFrame 20 ∈ ((boot 4 : TransferNetwork ℚ).run separateRun).air := by
    decide +kernel
  exact ⟨onAir, by decide +kernel,
    (exit_isolates_session_iff 4 separateRun).2 separated _ onAir rfl {}⟩

end TransferNetwork

end ForestLink.Mesh
