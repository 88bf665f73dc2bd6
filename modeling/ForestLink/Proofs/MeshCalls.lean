/-
Module: ForestLink.Proofs.MeshCalls
Purpose: What a call of a mesh node is made of: the kinds of changes it makes to the node,
  one specification for each function.
Trusted boundary: none
Main exports: MeshManager.MeshChange, apply, Disciplined, Traffic, Handling, Calling,
  step_spec
-/
import ForestLink.Lib.Trace
import ForestLink.Mesh.Packets
import ForestLink.Proofs.RouteLoops

namespace ForestLink.Mesh.MeshManager

open ForestLink.Lib
open ForestLink.Protocol

variable {m : MeshManager} {addr : Nat} {received : Option MeshPacket}

/-! ## Kinds of changes -/

inductive MeshChange where
  | emit (output : MeshOutput)
  | answer (env : MeshEnv)
  | hear (packet : MeshPacket)
  | discovery (packet : MeshPacket) (disc : Discovery)
  | routeError (rerr : RouteError)
  | route (event : Router.Event)
  | record (packet : MeshPacket) (now : Nat)
  | note (cmdId now : Nat)
  | reparent
  | restart

def apply (m : MeshManager) : MeshChange → MeshManager
  | .emit output => m.emit output
  | .answer env => m.setEnv env
  | .hear packet => m.hear packet
  | .discovery packet disc =>
      { m with
        router := (m.router.handleDiscovery (routeFrame packet) disc m.saturatedQueueLoad).1 }
  | .routeError rerr => { m with router := (m.router.handleRouteError rerr).1 }
  | .route event => { m with router := (m.router.step event).1 }
  | .record packet now => m.recordSeen packet now
  | .note cmdId now => m.noteMeshCmd cmdId now
  | .reparent => m.updatePreferredParent
  | .restart => m.restart

/-- What a node with address `addr` puts on the air: packets of its own with a full time to
live, and the received packet one hop further. -/
def Disciplined (addr : Nat) (received : Option MeshPacket) : MeshOutput → Prop
  | .sent _ _ packet _ false =>
      packet.header.ttl = defaultTtl ∧ packet.header.hopCount = 0 ∧
        packet.header.srcAddr = addr
  | .sent _ _ packet _ true =>
      ∃ origin, received = some origin ∧ origin.header.ttl ≠ 0 ∧
        packet.header.ttlHops = (nextHeader origin.header).ttlHops ∧
        packet.header.srcAddr = origin.header.srcAddr
  | _ => True

/-- Changes of the send path: transmissions and the link reports of unicasts. -/
def Traffic (addr : Nat) (received : Option MeshPacket) : MeshChange → Prop
  | .emit output => Disciplined addr received output
  | .answer _ => True
  | .route (.linkTx _ _) => True
  | _ => False

/-- Changes of the handlers: a discovery or route error of the received packet, and what a
command brings. -/
def Handling (addr : Nat) (received : Option MeshPacket) : MeshChange → Prop
  | .discovery packet disc => received = some packet ∧ routePayload packet = .discovery disc
  | .routeError _ => True
  | .note _ _ => True
  | .restart => True
  | change => Traffic addr received change

/-- The packet that a call receives. -/
def Event.received? : Event → Option MeshPacket
  | .receive packet => some packet
  | _ => none

/-- Changes of a call. -/
def Calling (addr : Nat) (event : Event) : MeshChange → Prop
  | .hear packet => event = .receive packet
  | .record packet _ => event = .receive packet
  | .route (.discover _) => event = .discover
  | .route (.age _ _) => True
  | .route (.setInternet value) => event = .setInternet value
  | .reparent => event = .discover
  | change => Handling addr event.received? change

theorem Traffic.handling {change : MeshChange} (traffic : Traffic addr received change) :
    Handling addr received change := by
  cases change with
  | emit _ | answer _ | route _ => exact traffic
  | _ => exact traffic.elim

theorem Handling.calling {event : Event} {change : MeshChange}
    (handling : Handling addr event.received? change) : Calling addr event change := by
  cases change with
  | emit _ | answer _ | discovery _ _ | routeError _ | note _ _ | restart => exact handling
  | route routed =>
      cases routed with
      | linkTx _ _ => exact handling
      | _ => exact handling.elim
  | _ => exact handling.elim

/-- The hysteresis changes the preferred parent and what it tracks, nothing else. -/
theorem updatePreferredParent_fields (m : MeshManager) :
    ∃ parent tracked,
      m.updatePreferredParent = { m with preferredParent := parent, betterRoute := tracked } := by
  unfold updatePreferredParent
  split
  · exact ⟨_, _, rfl⟩
  · dsimp only
    split
    · exact ⟨_, _, rfl⟩
    · split <;> exact ⟨_, _, rfl⟩

/-- No change gives a node another address. -/
theorem myAddr_apply (m : MeshManager) (change : MeshChange) :
    (m.apply change).myAddr = m.myAddr := by
  cases change with
  | hear packet =>
      change (m.router.hear _ _).myAddr = m.router.myAddr
      unfold Router.hear
      split <;> rfl
  | discovery packet disc =>
      change (m.router.handleDiscovery (routeFrame packet) disc m.saturatedQueueLoad).1.myAddr =
        m.router.myAddr
      rw [Router.handleDiscovery_table]
  | route event =>
      change (m.router.step event).1.myAddr = m.router.myAddr
      exact (Router.identity_step m.router event).1
  | reparent =>
      obtain ⟨parent, tracked, fields⟩ := updatePreferredParent_fields m
      change m.updatePreferredParent.myAddr = m.myAddr
      rw [fields]
      rfl
  | _ => rfl

theorem myAddr_via {allowed : MeshChange → Prop} {after : MeshManager}
    (via : Via apply allowed m after) : after.myAddr = m.myAddr :=
  via.keeps (fun state => state.myAddr = m.myAddr)
    (fun state change _ same => (myAddr_apply state change).trans same) rfl

theorem change_spec {allowed : MeshChange → Prop} (m : MeshManager) (change : MeshChange)
    (permitted : allowed change) : Via apply allowed m (m.apply change) :=
  Via.one permitted

/-! ## The send path -/

theorem disciplined_fresh (received : Option MeshPacket) (addr dst : Nat)
    (type : MeshPacketType) (payload : List UInt8) (seq : Nat) (transport : Transport)
    (peer : Nat) (result : Int) :
    Disciplined addr received
      (.sent transport peer (freshPacket addr dst type payload seq) result false) :=
  ⟨ttl_freshPacket .., hopCount_freshPacket .., rfl⟩

theorem sendRaw_spec {packet : MeshPacket} {forwarded : Bool}
    (sound : ∀ transport peer result,
      Disciplined addr received (.sent transport peer packet result forwarded))
    (m : MeshManager) (transport : Transport) (peer : Nat) :
    Via apply (Traffic addr received) m (m.sendRaw transport packet peer forwarded).2 := by
  unfold sendRaw
  split
  · exact .refl ..
  · have answered : Via apply (Traffic addr received) m
        (m.setEnv { m.env with sendResults := m.env.sendResults.tail }) :=
      change_spec m (.answer _) trivial
    have sent := answered.trans (change_spec _
      (.emit (.sent transport peer packet (m.env.sendResults.headD 0) forwarded)) (sound ..))
    dsimp only
    split
    · exact sent.trans (change_spec _ (.route (.linkTx _ _)) trivial)
    · exact sent

theorem sendBoth_spec {packet : MeshPacket} {forwarded : Bool}
    (sound : ∀ transport peer result,
      Disciplined addr received (.sent transport peer packet result forwarded))
    (m : MeshManager) : Via apply (Traffic addr received) m (m.sendBoth packet forwarded) :=
  (sendRaw_spec sound m _ _).trans (sendRaw_spec sound _ _ _)

theorem sendVia_spec {packet : MeshPacket} {forwarded : Bool}
    (sound : ∀ transport peer result,
      Disciplined addr received (.sent transport peer packet result forwarded))
    (m : MeshManager) (peer : Nat) :
    Via apply (Traffic addr received) m (m.sendVia packet peer forwarded).2 := by
  have selected : Via apply (Traffic addr received) m
      (m.selectTransport packet.header.type).2 := by
    unfold selectTransport
    split
    · exact .refl ..
    · exact change_spec m (.answer _) trivial
  exact selected.trans (sendRaw_spec sound _ _ _)

theorem sendPacket_spec (mine : m.myAddr = addr) (dst : Nat) (type : MeshPacketType)
    (payload : List UInt8) (seq : Nat) :
    Via apply (Traffic addr received) m (m.sendPacket dst type payload seq).2 := by
  subst mine
  have own := disciplined_fresh received m.myAddr dst type payload seq
  unfold sendPacket
  split
  · exact .refl ..
  · dsimp only
    split
    · exact sendBoth_spec own m
    · split
      · split
        · exact sendBoth_spec own m
        · exact .refl ..
      · exact sendVia_spec own m _

theorem sendRouteError_spec (mine : m.myAddr = addr) (rerr : RouteError) :
    Via apply (Traffic addr received) m (m.sendRouteError rerr) :=
  sendPacket_spec mine ..

theorem broadcastExitOffline_spec (mine : m.myAddr = addr) (sessionId : Nat) :
    Via apply (Traffic addr received) m (m.broadcastExitOffline sessionId) := by
  subst mine
  exact sendBoth_spec (disciplined_fresh received m.myAddr _ _ _ _) m

theorem broadcastDiscovery_spec (mine : m.myAddr = addr) (disc : Discovery) :
    Via apply (Traffic addr received) m (m.broadcastDiscovery disc) := by
  subst mine
  have own := disciplined_fresh received m.myAddr broadcastAddr .discovery
    (m.discoveryBytes disc) 0
  have first := sendRaw_spec own m .espnow broadcastAddr
  unfold broadcastDiscovery
  dsimp only
  split
  · exact first.trans (sendRaw_spec own _ .lora broadcastAddr)
  · exact first

/-! ## Telemetry and commands -/

theorem emit_spec (m : MeshManager) {output : MeshOutput}
    (sound : Disciplined addr received output) :
    Via apply (Traffic addr received) m (m.emit output) :=
  change_spec m (.emit output) sound

theorem relayPublish_spec (mine : m.myAddr = addr) (relayTopic : Nat) (data : List UInt8) :
    Via apply (Traffic addr received) m (m.relayPublish relayTopic data) := by
  unfold relayPublish
  split
  · exact emit_spec m (by trivial)
  · exact sendPacket_spec mine ..

theorem publishTelemetry_spec (mine : m.myAddr = addr) (relayTopic : Nat) (data : List UInt8) :
    Via apply (Traffic addr received) m (m.publishTelemetry relayTopic data) := by
  unfold publishTelemetry
  split
  · exact .refl ..
  · exact relayPublish_spec mine ..

theorem publishAllTelemetry_spec (mine : m.myAddr = addr) :
    Via apply (Traffic addr received) m m.publishAllTelemetry := by
  unfold publishAllTelemetry
  have first : Via apply (Traffic addr received) m
      (m.publishTelemetry RelayTopic.topology m.router.table.serialize) :=
    publishTelemetry_spec mine ..
  have second := first.trans (publishTelemetry_spec ((myAddr_via first).trans mine)
    RelayTopic.metrics m.env.metrics)
  exact second.trans (publishTelemetry_spec ((myAddr_via second).trans mine) ..)

theorem handleMeshPub_spec (m : MeshManager) (srcAddr : Nat) (payload : List UInt8) :
    Via apply (Traffic addr received) m (m.handleMeshPub srcAddr payload) := by
  unfold handleMeshPub
  split
  · exact emit_spec m (by trivial)
  · exact .refl ..

theorem handleTopicMsg_spec (m : MeshManager) (data : List UInt8) :
    Via apply (Traffic addr received) m (m.handleTopicMsg data) := by
  unfold handleTopicMsg
  split
  · exact .refl ..
  · split
    · exact .refl ..
    · dsimp only
      split
      · exact emit_spec m (by trivial)
      · exact .refl ..

/-- Every command but a reboot only sends. -/
theorem executeMeshCmd_traffic (mine : m.myAddr = addr) {cmdId : Nat}
    (running : cmdId ≠ MeshCmd.reboot) (data : List UInt8) :
    Via apply (Traffic addr received) m (m.executeMeshCmd cmdId data) := by
  unfold executeMeshCmd
  rw [if_neg running]
  split
  · exact publishAllTelemetry_spec mine
  · split
    · split
      · exact emit_spec m (by trivial)
      · exact .refl ..
    · split
      · exact handleTopicMsg_spec m data
      · exact .refl ..

theorem executeMeshCmd_reboot (m : MeshManager) (data : List UInt8) :
    m.executeMeshCmd MeshCmd.reboot data = m.restart := rfl

theorem executeMeshCmd_spec (mine : m.myAddr = addr) (cmdId : Nat) (data : List UInt8) :
    Via apply (Handling addr received) m (m.executeMeshCmd cmdId data) := by
  by_cases reboots : cmdId = MeshCmd.reboot
  · rw [reboots, executeMeshCmd_reboot]
    exact change_spec m .restart trivial
  · exact (executeMeshCmd_traffic mine reboots data).mono fun _ => Traffic.handling

theorem handleMeshCmd_spec (mine : m.myAddr = addr) (payload : List UInt8) :
    Via apply (Handling addr received) m (m.handleMeshCmd payload) := by
  unfold handleMeshCmd
  split
  · exact .refl ..
  · dsimp only
    split
    · exact .refl ..
    · rename_i cmdId data _
      have noted : Via apply (Handling addr received) m
          (m.noteMeshCmd cmdId.toNat (m.env.commandMs % 2 ^ 32)) :=
        change_spec m (.note _ _) trivial
      exact noted.trans (executeMeshCmd_spec ((myAddr_via noted).trans mine) ..)

theorem handleCloudCmd_spec (mine : m.myAddr = addr) (cmd : CloudCmd) :
    Via apply (Handling addr received) m (m.handleCloudCmd cmd) := by
  unfold handleCloudCmd
  split
  · exact handleMeshCmd_spec mine _
  · exact (sendPacket_spec mine ..).mono fun _ => Traffic.handling

/-! ## Reception -/

theorem answerDiscovery_spec (mine : m.myAddr = addr) (frame : RouteFrame) :
    Via apply (Traffic addr received) m (m.answerDiscovery frame) := by
  subst mine
  unfold answerDiscovery
  split
  · split
    · exact sendRaw_spec (disciplined_fresh received m.myAddr _ _ _ _) m .lora _
    · exact sendPacket_spec rfl ..
  · exact .refl ..

theorem handleDiscovery_spec (mine : m.myAddr = addr) {packet : MeshPacket} {disc : Discovery}
    (payload : routePayload packet = .discovery disc) :
    Via apply (Handling addr (some packet)) m (m.handleDiscovery packet disc) := by
  have taken : Via apply (Handling addr (some packet)) m (m.apply (.discovery packet disc)) :=
    change_spec m _ ⟨rfl, payload⟩
  unfold handleDiscovery
  apply taken.trans
  apply Via.foldl
  intro middle reached frame _
  have same := (myAddr_via reached).trans ((myAddr_via taken).trans mine)
  exact (answerDiscovery_spec same frame).mono fun _ => Traffic.handling

theorem handleRouteError_spec (mine : m.myAddr = addr) (rerr : RouteError) :
    Via apply (Handling addr received) m (m.handleRouteError rerr) := by
  have taken : Via apply (Handling addr received) m (m.apply (.routeError rerr)) :=
    change_spec m _ trivial
  unfold handleRouteError
  apply taken.trans
  apply Via.foldl
  intro middle reached _ _
  have same := (myAddr_via reached).trans ((myAddr_via taken).trans mine)
  exact (sendRouteError_spec same rerr).mono fun _ => Traffic.handling

theorem dispatch_spec (mine : m.myAddr = addr) (packet : MeshPacket) :
    Via apply (Handling addr (some packet)) m (m.dispatch packet) := by
  unfold dispatch
  split
  case h_1 | h_2 =>
    split
    · exact handleDiscovery_spec mine ‹_›
    · exact handleRouteError_spec mine _
    · exact .refl ..
  case h_10 => exact (handleMeshPub_spec m ..).mono fun _ => Traffic.handling
  case h_11 => exact handleMeshCmd_spec mine _
  case h_12 => exact .refl ..
  all_goals exact (emit_spec m (by trivial)).mono fun _ => Traffic.handling

theorem dropCongested_spec (mine : m.myAddr = addr) (packet : MeshPacket) :
    Via apply (Traffic addr received) m (m.dropCongested packet) := by
  unfold dropCongested
  split
  · exact sendPacket_spec mine ..
  · exact sendPacket_spec mine ..
  · exact .refl ..

@[simp] theorem ttlHops_markCongestion (header : PacketHeader) (congested : Bool) :
    (markCongestion header congested).ttlHops = header.ttlHops := by
  unfold markCongestion
  split <;> rfl

@[simp] theorem srcAddr_markCongestion (header : PacketHeader) (congested : Bool) :
    (markCongestion header congested).srcAddr = header.srcAddr := by
  unfold markCongestion
  split <;> rfl

theorem forwardPacket_spec (mine : m.myAddr = addr) {packet : MeshPacket}
    (alive : packet.header.ttl ≠ 0) :
    Via apply (Traffic addr (some packet)) m (m.forwardPacket packet) := by
  unfold forwardPacket
  dsimp only
  split
  · exact dropCongested_spec mine packet
  · split
    · apply sendBoth_spec
      intro transport peer result
      exact ⟨packet, rfl, alive, rfl, rfl⟩
    · split
      · exact .refl ..
      · apply sendVia_spec
        intro transport peer result
        exact ⟨packet, rfl, alive, ttlHops_markCongestion .., srcAddr_markCongestion ..⟩

theorem hearOffline_spec (m : MeshManager) (packet : MeshPacket) :
    Via apply (Traffic addr received) m (m.hearOffline packet) := by
  unfold hearOffline
  split
  · exact emit_spec m (by trivial)
  · exact .refl ..

theorem alreadySeen_spec (m : MeshManager) (packet : MeshPacket) (window : Nat) :
    Via apply (Calling addr (.receive packet)) m (m.alreadySeen packet window).2 := by
  unfold alreadySeen
  split
  · exact .refl ..
  · exact change_spec m (.record packet _) rfl

theorem relay_spec (mine : m.myAddr = addr) {packet : MeshPacket}
    (alive : packet.header.ttl ≠ 0) :
    Via apply (Calling addr (.receive packet)) m (m.relay packet) := by
  have checked : Via apply (Calling addr (.receive packet)) m
      (m.alreadySeen packet (dedupWindow packet.header.type)).2 := alreadySeen_spec m packet _
  unfold relay
  dsimp only
  split
  · exact checked
  · have same := (myAddr_via checked).trans mine
    exact checked.trans ((forwardPacket_spec same alive).mono fun _ traffic =>
      traffic.handling.calling)

theorem processSlab_spec (mine : m.myAddr = addr) (packet : MeshPacket) :
    Via apply (Calling addr (.receive packet)) m (m.processSlab packet) := by
  have informed : Via apply (Calling addr (.receive packet)) m (m.hearOffline packet) :=
    (hearOffline_spec m packet).mono fun _ traffic => traffic.handling.calling
  unfold processSlab
  split
  · exact .refl ..
  · dsimp only
    split
    · exact informed
    · rename_i alive
      have heard := informed.trans (change_spec _ (.hear packet) rfl)
      have same := (myAddr_via heard).trans mine
      split
      · exact heard.trans ((dispatch_spec same packet).mono fun _ => Handling.calling)
      · exact heard.trans (relay_spec same alive)

/-! ## One call -/

theorem sendDiscovery_spec (mine : m.myAddr = addr) :
    Via apply (Calling addr .discover) m m.sendDiscovery := by
  have counted : Via apply (Calling addr .discover) m
      (m.apply (.route (.discover m.saturatedQueueLoad))) := change_spec m (.route _) rfl
  have same := (myAddr_via counted).trans mine
  have probed := counted.trans ((broadcastDiscovery_spec same
    ((m.apply (.route (.discover m.saturatedQueueLoad))).router.advertisement
      m.saturatedQueueLoad)).mono fun _ traffic => traffic.handling.calling)
  exact probed.trans (change_spec _ .reparent rfl)

theorem age_spec (mine : m.myAddr = addr) (staleNow pruneNow : Nat) :
    Via apply (Calling addr (.age staleNow pruneNow)) m (m.age staleNow pruneNow) := by
  have aged : Via apply (Calling addr (.age staleNow pruneNow)) m
      (m.apply (.route (.age staleNow pruneNow))) := change_spec m (.route _) trivial
  unfold age
  apply aged.trans
  apply Via.foldl
  intro middle reached entry _
  have same := (myAddr_via reached).trans ((myAddr_via aged).trans mine)
  exact (sendRouteError_spec same _).mono fun _ traffic => traffic.handling.calling

/-- A call makes only the changes of its kind. -/
theorem step_spec (m : MeshManager) (call : Call) :
    Via apply (Calling m.myAddr call.event) m (m.step call) := by
  have entered : Via apply (Calling m.myAddr call.event) m (m.setEnv call.env) :=
    change_spec m (.answer call.env) trivial
  have mine : (m.setEnv call.env).myAddr = m.myAddr := rfl
  apply entered.trans
  obtain ⟨env, event⟩ := call
  cases event with
  | receive packet => exact processSlab_spec mine packet
  | send dst type payload seq =>
      exact (sendPacket_spec mine ..).mono fun _ traffic => traffic.handling.calling
  | discover => exact sendDiscovery_spec mine
  | age staleNow pruneNow => exact age_spec mine ..
  | exitOffline sessionId =>
      exact (broadcastExitOffline_spec mine sessionId).mono fun _ traffic =>
        traffic.handling.calling
  | telemetry =>
      exact (publishAllTelemetry_spec mine).mono fun _ traffic => traffic.handling.calling
  | cloudCmd cmd => exact (handleCloudCmd_spec mine cmd).mono fun _ => Handling.calling
  | setInternet value => exact change_spec _ (.route (.setInternet value)) rfl

end ForestLink.Mesh.MeshManager
