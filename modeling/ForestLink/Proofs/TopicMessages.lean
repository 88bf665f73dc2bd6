/-
Module: ForestLink.Proofs.TopicMessages
Purpose: The topic and the data of a topic message from the request that the admin server
  accepts to `handle_topic_msg` at the target.
Trusted boundary: none
Main exports: topicMsgParts, TopicMsgReaches, topic_messages_intact_iff
-/
import ForestLink.Proofs.ForwardedPayloads
import ForestLink.Cloud.Server
import ForestLink.Mqtt.CloudEvents

namespace ForestLink.Mesh

open ForestLink.Lib
open ForestLink.Protocol

namespace MeshManager

/-! ## The arguments of the handler -/

/-- The topic and the payload that `handle_topic_msg` takes out of its bytes. -/
def topicMsgParts : List UInt8 → Option (List UInt8 × List UInt8)
  | [] => none
  | topicLen :: rest =>
      if topicLen = 0 ∨ topicLen.toNat > topicBufLen - 1 ∨ topicLen.toNat > rest.length then none
      else some (rest.take topicLen.toNat, rest.drop topicLen.toNat)

theorem handleTopicMsg_eq (m : MeshManager) (bytes : List UInt8) :
    m.handleTopicMsg bytes =
      match topicMsgParts bytes with
      | none => m
      | some (topic, payload) =>
          if m.subscribedTopics.contains (topic.takeWhile (· ≠ 0)) then
            m.emit (.downlink (downlinkEvent topic payload))
          else m := by
  cases bytes with
  | nil => rfl
  | cons topicLen rest =>
      unfold handleTopicMsg topicMsgParts
      by_cases bad : topicLen = 0 ∨ topicLen.toNat > topicBufLen - 1 ∨
          topicLen.toNat > rest.length
      · simp [bad]
      · simp only [if_neg bad]

/-- What `handle_mesh_cmd` hands to `handle_topic_msg` of the command `payload`. -/
def topicMsgArgument (m : MeshManager) : List UInt8 → Option (List UInt8)
  | [] => none
  | cmdId :: data =>
      if cmdId.toNat = MeshCmd.topicMsg ∧
          m.ignoresMeshCmd cmdId.toNat (m.env.commandMs % 2 ^ 32) = false then some data
      else none

theorem handleMeshCmd_topicMsg {m : MeshManager} {payload bytes : List UInt8}
    (handed : m.topicMsgArgument payload = some bytes) :
    m.handleMeshCmd payload =
      (m.noteMeshCmd MeshCmd.topicMsg (m.env.commandMs % 2 ^ 32)).handleTopicMsg bytes := by
  cases payload with
  | nil => cases handed
  | cons cmdId data =>
      unfold topicMsgArgument at handed
      dsimp only at handed
      split at handed
      · rename_i passed
        obtain rfl := Option.some.inj handed
        obtain ⟨topicMsg, passed⟩ := passed
        rw [topicMsg] at passed
        simp only [handleMeshCmd, topicMsg, passed, Bool.false_eq_true, ↓reduceIte]
        rfl
      · cases handed

theorem topicMsgArgument_tail {m : MeshManager} {payload bytes : List UInt8}
    (handed : m.topicMsgArgument payload = some bytes) : bytes = payload.drop 1 := by
  cases payload with
  | nil => cases handed
  | cons cmdId data =>
      unfold topicMsgArgument at handed
      dsimp only at handed
      split at handed
      · exact (Option.some.inj handed).symm
      · cases handed

/-- The bytes that reach `handle_topic_msg` of a command the exit took from its queue: at
the exit itself, or at the node that a packet of the exit came to. -/
inductive TopicMsgReaches (cmd : CloudCmd) : List UInt8 → Prop
  | direct {exit : MeshManager} {bytes : List UInt8} (here : cmd.targetAddr = exit.myAddr)
      (handed : exit.topicMsgArgument (cmd.cmdId :: cmd.data.take meshCmdMaxDataLen) =
        some bytes) : TopicMsgReaches cmd bytes
  | routed {exit target : MeshManager} {env : MeshEnv} {packet last : MeshPacket}
      {bytes : List UInt8} (away : cmd.targetAddr ≠ exit.myAddr)
      (sent : exit.Transmits ⟨env, .cloudCmd cmd⟩ packet false)
      (along : ForwardsAlong packet last) (mine : target.forUs last = true)
      (handed : target.topicMsgArgument last.payload = some bytes) : TopicMsgReaches cmd bytes

/-- In the first case the exit calls the handler with these bytes. -/
theorem handleCloudCmd_direct {exit : MeshManager} {cmd : CloudCmd} {bytes : List UInt8}
    (here : cmd.targetAddr = exit.myAddr)
    (handed : exit.topicMsgArgument (cmd.cmdId :: cmd.data.take meshCmdMaxDataLen) =
      some bytes) :
    exit.handleCloudCmd cmd =
      (exit.noteMeshCmd MeshCmd.topicMsg (exit.env.commandMs % 2 ^ 32)).handleTopicMsg
        bytes := by
  rw [handleCloudCmd, if_pos here]
  exact handleMeshCmd_topicMsg handed

/-- In the second case the target does. -/
theorem dispatch_meshCmd {target : MeshManager} {last : MeshPacket} {bytes : List UInt8}
    (type : last.header.type = .meshCmd)
    (handed : target.topicMsgArgument last.payload = some bytes) :
    target.dispatch last =
      (target.noteMeshCmd MeshCmd.topicMsg (target.env.commandMs % 2 ^ 32)).handleTopicMsg
        bytes := by
  simp only [dispatch, type]
  exact handleMeshCmd_topicMsg handed

/-! ## The way of a command -/

/-- A packet that is sent carries the whole command. -/
def CarriesCommand (cmd : CloudCmd) : MeshOutput → Prop
  | .sent _ _ packet _ _ =>
      packet.header.type = .meshCmd ∧ packet.payload = cmd.cmdId :: cmd.data
  | _ => True

/-- The packets of an exit for a command to another node carry the whole command. -/
theorem payload_of_cloudCmd {exit : MeshManager} {env : MeshEnv} {cmd : CloudCmd}
    {packet : MeshPacket} (short : cmd.data.length ≤ meshCmdMaxDataLen)
    (away : cmd.targetAddr ≠ exit.myAddr)
    (sent : exit.Transmits ⟨env, .cloudCmd cmd⟩ packet false) :
    packet.header.type = .meshCmd ∧ packet.payload = cmd.cmdId :: cmd.data := by
  obtain ⟨transport, peer, result, new⟩ := sent
  have step : exit.step ⟨env, .cloudCmd cmd⟩ =
      ((exit.setEnv env).sendPacket cmd.targetAddr .meshCmd (cmd.cmdId :: cmd.data) 0).2 := by
    change (exit.setEnv env).handleCloudCmd cmd = _
    rw [handleCloudCmd, if_neg (show ¬cmd.targetAddr = (exit.setEnv env).myAddr from away),
      if_pos short]
  rw [step] at new
  have named : ∀ code, MeshPacketType.meshCmd ≠ .unnamed code := fun code => by simp
  have carries : Extends (CarriesCommand cmd) (exit.setEnv env).outputs _ :=
    extends_sendPacket (exit.setEnv env) cmd.targetAddr .meshCmd (cmd.cmdId :: cmd.data) 0
      fun _ _ _ => ⟨type_freshPacket _ _ _ _ _ named, rfl⟩
  exact carries.recent _ new

/-- Whatever way a command takes, the handler gets its data. -/
theorem TopicMsgReaches.eq {cmd : CloudCmd} {bytes : List UInt8}
    (short : cmd.data.length ≤ meshCmdMaxDataLen) (reaches : TopicMsgReaches cmd bytes) :
    bytes = cmd.data := by
  cases reaches with
  | direct here handed =>
      rw [topicMsgArgument_tail handed, List.take_of_length_le short]
      rfl
  | routed away sent along mine handed =>
      obtain ⟨type, payload⟩ := payload_of_cloudCmd short away sent
      obtain ⟨kept, -, -, -⟩ := along.keeps (by rw [type]; rfl)
      rw [topicMsgArgument_tail handed, kept, payload]
      rfl

/-- A topic message reaches an exit that it is addressed to. -/
theorem reaches_direct (cmd : CloudCmd) (topicMsg : cmd.cmdId = 0x10)
    (short : cmd.data.length ≤ meshCmdMaxDataLen) : TopicMsgReaches cmd cmd.data := by
  have here : cmd.targetAddr = (boot cmd.targetAddr [] [] false).myAddr := rfl
  apply TopicMsgReaches.direct here
  rw [List.take_of_length_le short, topicMsg]
  rfl

end MeshManager

end ForestLink.Mesh

namespace ForestLink.Cloud

open ForestLink.Mesh.MeshManager

/-! ## The request -/

variable {nodeId payload : List UInt8} {body : TopicBody}

/-- What an accepted request publishes. -/
theorem topicMsg_ok (accepted : topicMsg nodeId body = .ok payload) :
    ∃ target data, targetAddress nodeId = .ok target ∧ body.dataBytes = some data ∧
      body.topic ≠ [] ∧ body.topic.length ≤ 31 ∧ body.topic.length + data.length ≤ 64 ∧
      payload = topicCommand target body.topic data := by
  unfold topicMsg at accepted
  cases address : targetAddress nodeId with
  | error text =>
      rw [address] at accepted
      cases accepted
  | ok target =>
      rw [address] at accepted
      cases bytes : body.dataBytes with
      | none =>
          rw [bytes] at accepted
          by_cases empty : body.topic = [] <;> by_cases long : body.topic.length > 31 <;>
            simp [empty, long, bind, Except.bind, throw, throwThe, MonadExceptOf.throw] at accepted
      | some data =>
          rw [bytes] at accepted
          by_cases empty : body.topic = [] <;> by_cases long : body.topic.length > 31 <;>
            by_cases isOver : body.topic.length + data.length > 64 <;>
            simp [empty, long, isOver, bind, Except.bind, throw, throwThe, MonadExceptOf.throw,
              pure, Except.pure] at accepted
          exact ⟨target, data, rfl, rfl, empty, by omega, by omega, accepted.symm⟩

/-- The queued command keeps all but what does not fit behind the topic length. -/
theorem adminCmd_topicCommand (target : Nat) (topic data : List UInt8) :
    ∃ cmd, Mqtt.adminCmd (topicCommand target topic data) = some cmd ∧ cmd.cmdId = 0x10 ∧
      cmd.data = UInt8.ofNat topic.length :: (topic ++ data).take 63 :=
  ⟨_, rfl, rfl, rfl⟩

theorem topicMsgParts_take {topic data : List UInt8} (filled : topic ≠ [])
    (short : topic.length ≤ 31) :
    topicMsgParts (UInt8.ofNat topic.length :: (topic ++ data).take 63) =
      some (topic, data.take (63 - topic.length)) := by
  have positive := List.length_pos_of_ne_nil filled
  have count : (UInt8.ofNat topic.length).toNat = topic.length := by
    rw [UInt8.toNat_ofNat']
    exact Nat.mod_eq_of_lt (by omega)
  have nonzero : UInt8.ofNat topic.length ≠ 0 := by
    intro zero
    rw [zero] at count
    exact positive.ne count
  have split : (topic ++ data).take 63 = topic ++ data.take (63 - topic.length) := by
    rw [List.take_append, List.take_of_length_le (by omega)]
  rw [split, topicMsgParts, count, if_neg, List.take_left, List.drop_left]
  simp only [nonzero, false_or, List.length_append, topicBufLen]
  omega

/-- An accepted topic message reaches `handle_topic_msg` whole on every way exactly when
topic and data leave room for the length byte in the 64 bytes of the queued command. -/
theorem topic_messages_intact_iff (accepted : topicMsg nodeId body = .ok payload) :
    ∃ cmd data, Mqtt.adminCmd payload = some cmd ∧ body.dataBytes = some data ∧
      ((∀ bytes, TopicMsgReaches cmd bytes →
          topicMsgParts bytes = some (body.topic, data)) ↔
        body.topic.length + data.length ≤ 63) := by
  obtain ⟨target, data, -, bytes, filled, short, -, rfl⟩ := topicMsg_ok accepted
  obtain ⟨cmd, queued, cmdId, content⟩ := adminCmd_topicCommand target body.topic data
  have fits : cmd.data.length ≤ meshCmdMaxDataLen := by
    rw [content, List.length_cons, List.length_take]
    simp only [meshCmdMaxDataLen]
    omega
  have parts := @topicMsgParts_take _ data filled short
  refine ⟨cmd, data, queued, bytes, ?_, ?_⟩
  · intro intact
    have here := intact cmd.data (reaches_direct cmd cmdId fits)
    rw [content, parts] at here
    have whole : data.take (63 - body.topic.length) = data :=
      congrArg Prod.snd (Option.some.inj here)
    have length := congrArg List.length whole
    rw [List.length_take] at length
    omega
  · intro room arrived reaches
    rw [reaches.eq fits, content, parts, List.take_of_length_le (by omega)]

/-- The topic `t` with one byte for the node `0001`. -/
def shortBody : TopicBody where
  topic := [0x74]
  message := [0x21]

theorem topic_messages_intact_short :
    ∃ cmd data, Mqtt.adminCmd [1, 0, 0x10, 1, 0x74, 0x21] = some cmd ∧
      shortBody.dataBytes = some data ∧
      ((∀ bytes, TopicMsgReaches cmd bytes → topicMsgParts bytes = some ([0x74], data)) ↔
        1 + data.length ≤ 63) :=
  topic_messages_intact_iff (show topicMsg [0x30, 0x30, 0x30, 0x31] shortBody = _ by decide)

/-- The topic `t` with 63 bytes of data: 64 bytes, which the server accepts. -/
def fullBody : TopicBody where
  topic := [0x74]
  message := List.replicate 62 0x2E ++ [0x21]

/-- The last byte of the message is lost on the way to node `0001`. -/
theorem full_topic_message_cut :
    ∃ payload cmd bytes, topicMsg [0x30, 0x30, 0x30, 0x31] fullBody = .ok payload ∧
      Mqtt.adminCmd payload = some cmd ∧ TopicMsgReaches cmd bytes ∧
      topicMsgParts bytes = some ([0x74], List.replicate 62 0x2E) ∧
      fullBody.dataBytes = some (List.replicate 62 0x2E ++ [0x21]) := by
  refine ⟨topicCommand 1 [0x74] fullBody.message, _, _, by decide, rfl,
    reaches_direct _ rfl (by decide), by decide, by decide⟩

end ForestLink.Cloud
