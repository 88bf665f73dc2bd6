/-
Module: ForestLink.Proofs.SessionCrossing
Purpose: When the accepted and pending bits of the MQTT client stay with the active
  session although the mesh task can switch sessions while the MQTT task publishes.
Trusted boundary: none
Main exports: MqttTasks.InSession, MqttTasks.Orderly,
  bookkeeping_stays_in_session
-/
import ForestLink.Mqtt.Tasks

namespace ForestLink.Mqtt

/-! ## Bits of one session -/

namespace MqttClient

variable {m : MqttClient} {hand : List FragmentAckItem} {published : List (Nat × Nat)}

/-- Accepted bits are for published fragments of the active session. -/
def AcceptedIn (m : MqttClient) (published : List (Nat × Nat)) : Prop :=
  ∀ seq, m.fragmentAccepted.test seq = true → (m.activeTransferSession, seq) ∈ published

/-- Pending bits are for items of the active session, queued or in hand. -/
def PendingIn (m : MqttClient) (hand : List FragmentAckItem) : Prop :=
  ∀ seq, m.fragmentAckPending.test seq = true →
    { sessionId := m.activeTransferSession, seq := seq } ∈ m.fragmentAckQueue ++ hand

/-- Items, queued or in hand, are of the active session. -/
def ItemsIn (m : MqttClient) (hand : List FragmentAckItem) : Prop :=
  ∀ item ∈ m.fragmentAckQueue ++ hand, item.sessionId = m.activeTransferSession

theorem PendingIn.congr {after : MqttClient} (pending : m.PendingIn hand)
    (active : after.activeTransferSession = m.activeTransferSession)
    (bits : after.fragmentAckPending = m.fragmentAckPending)
    (queue : after.fragmentAckQueue = m.fragmentAckQueue) : after.PendingIn hand := by
  unfold PendingIn
  rw [active, bits, queue]
  exact pending

theorem ItemsIn.congr {after : MqttClient} (items : m.ItemsIn hand)
    (active : after.activeTransferSession = m.activeTransferSession)
    (queue : after.fragmentAckQueue = m.fragmentAckQueue) : after.ItemsIn hand := by
  unfold ItemsIn
  rw [active, queue]
  exact items

/-- An item of the active session enters the queue at one end or the other, together with
its bit. -/
theorem PendingIn.enqueue {seq : Nat} {queue : List FragmentAckItem}
    (pending : m.PendingIn hand)
    (grown : ∀ item, item ∈ queue ↔
      item = { sessionId := m.activeTransferSession, seq := seq } ∨
        item ∈ m.fragmentAckQueue) :
    ({ m with
      fragmentAckQueue := queue
      fragmentAckPending := m.fragmentAckPending.set seq } : MqttClient).PendingIn hand := by
  intro other marked
  rcases (FragmentBitmap.test_set ..).mp marked with ⟨rfl, _⟩ | old
  · exact List.mem_append_left _ ((grown _).mpr (.inl rfl))
  · rcases List.mem_append.mp (pending other old) with queued | held
    · exact List.mem_append_left _ ((grown _).mpr (.inr queued))
    · exact List.mem_append_right _ held

theorem ItemsIn.enqueue {seq : Nat} {queue : List FragmentAckItem}
    (items : m.ItemsIn hand)
    (grown : ∀ item, item ∈ queue ↔
      item = { sessionId := m.activeTransferSession, seq := seq } ∨
        item ∈ m.fragmentAckQueue) :
    ({ m with
      fragmentAckQueue := queue
      fragmentAckPending := m.fragmentAckPending.set seq } : MqttClient).ItemsIn hand := by
  intro item member
  rcases List.mem_append.mp member with queued | held
  · rcases (grown item).mp queued with rfl | old
    · rfl
    · exact items item (List.mem_append_left _ old)
  · exact items item (List.mem_append_right _ held)

/-- What `queue_fragment_ack` and `requeue_fragment_ack` can do: nothing, or add an
item with its bit. -/
def Adds (m after : MqttClient) (sessionId seq : Nat) : Prop :=
  after = m ∨ ∃ queue, (∀ item, item ∈ queue ↔
      item = { sessionId := sessionId, seq := seq } ∨ item ∈ m.fragmentAckQueue) ∧
    after = { m with
      fragmentAckQueue := queue
      fragmentAckPending := m.fragmentAckPending.set seq }

theorem adds_queueFragmentAck (m : MqttClient) (sessionId seq : Nat) :
    m.Adds (m.queueFragmentAck sessionId seq).2 sessionId seq := by
  unfold MqttClient.queueFragmentAck
  split
  · exact .inl rfl
  · split
    · refine .inr ⟨_, fun item => ?_, rfl⟩
      rw [List.mem_append, List.mem_singleton]
      exact Or.comm
    · exact .inl rfl

theorem adds_requeueFragmentAck (m : MqttClient) (sessionId seq : Nat) :
    m.Adds (m.requeueFragmentAck sessionId seq).2 sessionId seq := by
  unfold MqttClient.requeueFragmentAck
  split
  · exact .inl rfl
  · split
    · exact .inr ⟨_, fun item => List.mem_cons, rfl⟩
    · exact .inl rfl

theorem adds_acknowledge (m : MqttClient) (req : FragmentPublishRequest) :
    m.Adds (m.acknowledge req) req.sessionId req.seq := by
  unfold MqttClient.acknowledge
  split
  · exact adds_queueFragmentAck ..
  · exact .inl rfl

theorem Adds.pending {after : MqttClient} {sessionId seq : Nat}
    (adds : m.Adds after sessionId seq) (active : sessionId = m.activeTransferSession)
    (pending : m.PendingIn hand) : after.PendingIn hand := by
  subst active
  rcases adds with rfl | ⟨queue, grown, rfl⟩
  · exact pending
  · exact pending.enqueue grown

theorem Adds.items {after : MqttClient} {sessionId seq : Nat}
    (adds : m.Adds after sessionId seq) (active : sessionId = m.activeTransferSession)
    (items : m.ItemsIn hand) : after.ItemsIn hand := by
  subst active
  rcases adds with rfl | ⟨queue, grown, rfl⟩
  · exact items
  · exact items.enqueue grown

/-- The rest of the client is left alone. -/
theorem Adds.rest {after : MqttClient} {sessionId seq : Nat}
    (adds : m.Adds after sessionId seq) :
    after.activeTransferSession = m.activeTransferSession ∧
      after.fragmentAccepted = m.fragmentAccepted := by
  rcases adds with rfl | ⟨queue, _, rfl⟩
  · exact ⟨rfl, rfl⟩
  · exact ⟨rfl, rfl⟩

end MqttClient

/-! ## The invariant -/

/-- The item that the drain loop has taken from the queue. -/
def MeshPc.inHand : MeshPc → List FragmentAckItem
  | .drainClear _ item | .drainPutBack _ _ item => [item]
  | _ => []

/-- Between the exchange of the session and the mutex section that clears the bitmaps. -/
def MeshPc.resetting : MeshPc → Bool
  | .resetPublishQueue | .resetAckQueue | .resetBitmaps => true
  | _ => false

/-- Before the acknowledgement queue has been reset. -/
def MeshPc.oldItems : MeshPc → Bool
  | .resetPublishQueue | .resetAckQueue => true
  | _ => false

/-- The request that has passed its session check and is not yet booked. -/
def MqttPc.checked : MqttPc → Option FragmentPublishRequest
  | .publish req _ | .accept req _ | .acknowledge req => some req
  | _ => none

/-- The request that has been published and is not yet booked. -/
def MqttPc.unbooked : MqttPc → Option FragmentPublishRequest
  | .accept req _ | .acknowledge req => some req
  | _ => none

namespace MqttTasks

variable {s : MqttTasks} {strict : Bool}

/-- The bookkeeping belongs to the active session: accepted bits are for its published
fragments, pending bits for its items, queued or just taken by the drainer. -/
structure InSession (s : MqttTasks) : Prop where
  accepted : s.client.AcceptedIn s.published
  pending : s.client.PendingIn s.mesh.inHand

/-- The session may be switched: no request is between its session check and its
booking, and for the strict reading no bit of the old session is set. -/
def MaySwitch (strict : Bool) (s : MqttTasks) : Prop :=
  s.mqtt.checked = none ∧
    (strict = true → ∀ seq, s.client.fragmentAccepted.test seq = false ∧
      s.client.fragmentAckPending.test seq = false)

/-- Before this step: sessions are switched only when they may be, and an item that the
drainer puts back finds the queue with room. For the strict reading the acknowledgement
queue is reset only when no bit refers to it. -/
def Orderly (strict : Bool) (s : MqttTasks) : MqttAction → Prop
  | .activateTransferSession sessionId =>
      s.client.activeTransferSession ≠ sessionId → s.MaySwitch strict
  | .clearTransferSession sessionId =>
      s.client.activeTransferSession = sessionId → s.MaySwitch strict
  | .mesh =>
      match s.mesh with
      | .drainPutBack _ _ _ => s.client.fragmentAckQueue.length < fragmentQueueDepth
      | .resetAckQueue => strict = true → ∀ seq, s.client.fragmentAckPending.test seq = false
      | _ => True
  | _ => True

/-- What the mesh task relies on inside a call. -/
def MeshKnows (m : MqttClient) : MeshPc → Prop
  | .enqueue req => m.staleFor req.sessionId = false
  | .acknowledge sessionId _ => sessionId = m.activeTransferSession
  | .drainClear sessionId item => item.sessionId = sessionId
  | _ => True

/-- The invariant; while the state is being reset, the bits are in session on the strict
reading only. -/
structure Sound (strict : Bool) (s : MqttTasks) : Prop where
  checked : ∀ req ∈ s.mqtt.checked, req.sessionId = s.client.activeTransferSession ∧
    s.client.activeTransferSession ≠ 0
  unbooked : ∀ req ∈ s.mqtt.unbooked, (req.sessionId, req.seq) ∈ s.published
  published : ∀ pair ∈ s.published, pair.1 = s.client.activeTransferSession ∧
    s.client.activeTransferSession ≠ 0
  bits : strict = true ∨ s.mesh.resetting = false → s.InSession
  items : s.mesh.oldItems = false → s.client.ItemsIn s.mesh.inHand
  mesh : MeshKnows s.client s.mesh
  drained : ∀ pair ∈ s.drained, pair.1 = s.client.activeTransferSession

/-! ## The MQTT task -/

theorem meshKnows_of_active {m after : MqttClient} {pc : MeshPc}
    (active : after.activeTransferSession = m.activeTransferSession)
    (knows : MeshKnows m pc) : MeshKnows after pc := by
  cases pc with
  | enqueue req =>
      simp only [MeshKnows, MqttClient.staleFor, active] at knows ⊢
      exact knows
  | acknowledge sessionId seq => exact knows.trans active.symm
  | drainClear sessionId item => exact knows
  | _ => trivial

/-- What a step of the MQTT task has to keep. -/
theorem Sound.mqttMoves {client : MqttClient} {mqtt : MqttPc} {published : List (Nat × Nat)}
    (sound : s.Sound strict)
    (active : client.activeTransferSession = s.client.activeTransferSession)
    (checked : ∀ req ∈ mqtt.checked, req.sessionId = s.client.activeTransferSession ∧
      s.client.activeTransferSession ≠ 0)
    (unbooked : ∀ req ∈ mqtt.unbooked, (req.sessionId, req.seq) ∈ published)
    (real : ∀ pair ∈ published, pair.1 = s.client.activeTransferSession ∧
      s.client.activeTransferSession ≠ 0)
    (accepted : s.client.AcceptedIn s.published → client.AcceptedIn published)
    (pending : ∀ hand, s.client.PendingIn hand → client.PendingIn hand)
    (items : ∀ hand, s.client.ItemsIn hand → client.ItemsIn hand) :
    ({ s with client := client, mqtt := mqtt, published := published } : MqttTasks).Sound
      strict where
  checked := by
    rw [active]
    exact checked
  unbooked := unbooked
  published := by
    rw [active]
    exact real
  bits settled := ⟨accepted (sound.bits settled).accepted, pending _ (sound.bits settled).pending⟩
  items fresh := items _ (sound.items fresh)
  mesh := meshKnows_of_active active sound.mesh
  drained := by
    rw [active]
    exact sound.drained

/-- A step of the MQTT task that touches neither the bits nor the items. -/
theorem Sound.mqttGoes {client : MqttClient} {mqtt : MqttPc} (sound : s.Sound strict)
    (active : client.activeTransferSession = s.client.activeTransferSession)
    (accepted : client.fragmentAccepted = s.client.fragmentAccepted)
    (pending : client.fragmentAckPending = s.client.fragmentAckPending)
    (queue : client.fragmentAckQueue = s.client.fragmentAckQueue)
    (unchecked : mqtt.checked = none) (booked : mqtt.unbooked = none) :
    ({ s with client := client, mqtt := mqtt } : MqttTasks).Sound strict := by
  apply sound.mqttMoves active
  · intro req checked
    rw [unchecked] at checked
    exact absurd checked (by simp)
  · intro req published
    rw [booked] at published
    exact absurd published (by simp)
  · exact sound.published
  · intro old
    unfold MqttClient.AcceptedIn at old ⊢
    rw [accepted, active]
    exact old
  · exact fun hand old => old.congr active pending queue
  · exact fun hand old => old.congr active queue

theorem freePending_fields (m : MqttClient) (fromPending : Bool) :
    (m.freePending fromPending).activeTransferSession = m.activeTransferSession ∧
      (m.freePending fromPending).fragmentAccepted = m.fragmentAccepted ∧
      (m.freePending fromPending).fragmentAckPending = m.fragmentAckPending ∧
      (m.freePending fromPending).fragmentAckQueue = m.fragmentAckQueue := by
  unfold MqttClient.freePending
  split <;> exact ⟨rfl, rfl, rfl, rfl⟩

theorem Sound.mqttStep {msgId : Int} (sound : s.Sound strict) :
    (s.mqttStep msgId).Sound strict := by
  unfold MqttTasks.mqttStep
  cases here : s.mqtt with
  | idle => exact sound
  | readPending =>
      dsimp only
      split
      · exact sound.mqttGoes rfl rfl rfl rfl rfl rfl
      · exact sound.mqttGoes rfl rfl rfl rfl rfl rfl
  | receive =>
      dsimp only
      split
      · exact sound.mqttGoes rfl rfl rfl rfl rfl rfl
      · exact sound.mqttGoes rfl rfl rfl rfl rfl rfl
  | check req fromPending =>
      dsimp only
      split
      · exact sound.mqttGoes rfl rfl rfl rfl rfl rfl
      · rename_i current
        unfold MqttClient.droppable at current
        simp only [ne_eq, decide_not, Bool.or_eq_true, decide_eq_true_eq,
          Bool.not_eq_true', decide_eq_false_iff_not, not_or, not_not] at current
        apply sound.mqttMoves rfl
        · intro request checked
          obtain rfl := Option.some.inj checked
          exact ⟨current.2, current.1⟩
        · exact fun _ none => absurd none (by simp [MqttPc.unbooked])
        · exact sound.published
        · exact fun old => old
        · exact fun _ old => old
        · exact fun _ old => old
  | dropStale req fromPending =>
      obtain ⟨active, accepted, pending, queue⟩ := freePending_fields
        { s.client with fragmentQueued := s.client.fragmentQueued.clear req.seq } fromPending
      exact sound.mqttGoes active accepted pending queue rfl rfl
  | publish req fromPending =>
      have mine := sound.checked req (by rw [here]; rfl)
      dsimp only
      split
      · exact sound.mqttGoes rfl rfl rfl rfl rfl rfl
      · apply sound.mqttMoves rfl
        · intro request checked
          obtain rfl := Option.some.inj checked
          exact mine
        · intro request published
          obtain rfl := Option.some.inj published
          exact List.mem_append_right _ List.mem_cons_self
        · intro pair member
          rcases List.mem_append.mp member with old | new
          · exact sound.published pair old
          · obtain rfl := List.mem_singleton.mp new
            exact mine
        · exact fun old seq marked => List.mem_append_left _ (old seq marked)
        · exact fun _ old => old
        · exact fun _ old => old
  | deferring req => exact sound.mqttGoes rfl rfl rfl rfl rfl rfl
  | accept req fromPending =>
      have mine := sound.checked req (by rw [here]; rfl)
      have published := sound.unbooked req (by rw [here]; rfl)
      obtain ⟨active, accepted, pending, queue⟩ := freePending_fields s.client fromPending
      apply sound.mqttMoves
      · exact active
      · intro request checked
        obtain rfl := Option.some.inj checked
        exact mine
      · intro request unbooked
        obtain rfl := Option.some.inj unbooked
        exact published
      · exact sound.published
      · intro old seq marked
        have bits : (s.client.acceptFragment req fromPending).fragmentAccepted =
            s.client.fragmentAccepted.set req.seq := congrArg (·.set req.seq) accepted
        have session : (s.client.acceptFragment req fromPending).activeTransferSession =
            s.client.activeTransferSession := active
        rw [bits] at marked
        rw [session]
        rcases (FragmentBitmap.test_set ..).mp marked with ⟨rfl, _⟩ | before
        · rw [← mine.1]
          exact published
        · exact old seq before
      · exact fun hand old => old.congr active pending queue
      · exact fun hand old => old.congr active queue
  | acknowledge req =>
      have mine := sound.checked req (by rw [here]; rfl)
      have adds := MqttClient.adds_acknowledge s.client req
      apply sound.mqttMoves adds.rest.1
      · exact fun _ none => absurd none (by simp [MqttPc.checked])
      · exact fun _ none => absurd none (by simp [MqttPc.unbooked])
      · exact sound.published
      · intro old seq marked
        rw [adds.rest.2] at marked
        rw [adds.rest.1]
        exact old seq marked
      · exact fun hand old => adds.pending mine.1 old
      · exact fun hand old => adds.items mine.1 old

/-! ## The mesh task -/

/-- What a step of the mesh task inside a session has to keep. -/
theorem Sound.meshMoves {client : MqttClient} {mesh : MeshPc} {drained : Option (Nat × Nat)}
    (sound : s.Sound strict)
    (active : client.activeTransferSession = s.client.activeTransferSession)
    (accepted : strict = true ∨ mesh.resetting = false → client.AcceptedIn s.published)
    (pending : strict = true ∨ mesh.resetting = false → client.PendingIn mesh.inHand)
    (items : mesh.oldItems = false → client.ItemsIn mesh.inHand)
    (knows : MeshKnows s.client mesh)
    (returned : ∀ pair ∈ drained, pair.1 = s.client.activeTransferSession) :
    ({ s with client := client, mesh := mesh, drained := drained } : MqttTasks).Sound
      strict where
  checked := by
    rw [active]
    exact sound.checked
  unbooked := sound.unbooked
  published := by
    rw [active]
    exact sound.published
  bits settled := ⟨accepted settled, pending settled⟩
  items := items
  mesh := meshKnows_of_active active knows
  drained := by
    rw [active]
    exact returned

/-- The mesh task is outside a reset. -/
theorem Sound.settled (sound : s.Sound strict) (settled : s.mesh.resetting = false) :
    s.client.AcceptedIn s.published ∧ s.client.PendingIn s.mesh.inHand ∧
      s.client.ItemsIn s.mesh.inHand := by
  have fresh : s.mesh.oldItems = false := by
    cases here : s.mesh <;> simp_all [MeshPc.resetting, MeshPc.oldItems]
  have bits := sound.bits (.inr settled)
  exact ⟨bits.accepted, bits.pending, sound.items fresh⟩

/-- A step outside resets that leaves bits and items alone. -/
theorem Sound.meshGoes {mesh : MeshPc} {drained : Option (Nat × Nat)}
    (sound : s.Sound strict) (settled : s.mesh.resetting = false)
    (before : s.mesh.inHand = []) (hand : mesh.inHand = []) (knows : MeshKnows s.client mesh)
    (returned : drained = none) :
    ({ s with mesh := mesh, drained := drained } : MqttTasks).Sound strict := by
  obtain ⟨accepted, pending, items⟩ := sound.settled settled
  rw [before] at pending items
  apply sound.meshMoves rfl
  · exact fun _ => accepted
  · rw [hand]
    exact fun _ => pending
  · rw [hand]
    exact fun _ => items
  · exact knows
  · rw [returned]
    exact fun _ none => absurd none (by simp)

/-- The mesh task adds an item of the active session and ends its call. -/
theorem Sound.meshAdds {client : MqttClient} {sessionId seq : Nat}
    {drained : Option (Nat × Nat)} (sound : s.Sound strict)
    (settled : s.mesh.resetting = false) (hand : s.mesh.inHand = [])
    (adds : s.client.Adds client sessionId seq)
    (active : sessionId = s.client.activeTransferSession)
    (returned : ∀ pair ∈ drained, pair.1 = s.client.activeTransferSession) :
    ({ s with client := client, mesh := .idle, drained := drained } : MqttTasks).Sound
      strict := by
  obtain ⟨accepted, pending, items⟩ := sound.settled settled
  rw [hand] at pending items
  apply sound.meshMoves adds.rest.1
  · intro _ other marked
    rw [adds.rest.2] at marked
    rw [adds.rest.1]
    exact accepted other marked
  · exact fun _ => adds.pending active pending
  · exact fun _ => adds.items active items
  · trivial
  · exact returned

/-- The exchange of the session. -/
theorem sound_enter {sessionId : Nat} (may : s.MaySwitch strict) :
    (s.enter sessionId).Sound strict where
  checked req checked := by
    have none : s.mqtt.checked = some req := checked
    rw [may.1] at none
    exact absurd none (by simp)
  unbooked req unbooked := by
    have booked : s.mqtt.unbooked = none := by
      have unchecked := may.1
      cases here : s.mqtt <;> simp_all [MqttPc.checked, MqttPc.unbooked]
    have found : s.mqtt.unbooked = some req := unbooked
    rw [booked] at found
    exact absurd found (by simp)
  published _ member := absurd member List.not_mem_nil
  bits settled := by
    have reading : strict = true := by
      rcases settled with reading | settled
      · exact reading
      · exact absurd settled (by simp [MqttTasks.enter, MeshPc.resetting])
    constructor
    · intro seq marked
      have clear := (may.2 reading seq).1
      exact absurd (clear.symm.trans marked) (by simp)
    · intro seq marked
      have clear := (may.2 reading seq).2
      exact absurd (clear.symm.trans marked) (by simp)
  items fresh := absurd fresh (by simp [MqttTasks.enter, MeshPc.oldItems])
  mesh := trivial
  drained _ none := absurd none (by simp [MqttTasks.enter])

/-- The mesh task begins a call. -/
theorem Sound.begin {action : MqttAction} (sound : s.Sound strict) (idle : s.mesh = .idle)
    (orderly : s.Orderly strict action) : (s.begin action).Sound strict := by
  have settled : s.mesh.resetting = false := by rw [idle]; rfl
  have hand : s.mesh.inHand = [] := by rw [idle]; rfl
  have ends : ({ s with drained := none } : MqttTasks).Sound strict :=
    sound.meshGoes settled hand hand sound.mesh rfl
  unfold MqttTasks.begin
  cases action with
  | activateTransferSession sessionId =>
      dsimp only
      split
      · rename_i different
        exact sound_enter (orderly different)
      · exact ends
  | clearTransferSession sessionId =>
      dsimp only
      split
      · rename_i same
        exact sound_enter (orderly same)
      · exact ends
  | publishFragment sessionId seq srcNode data filename =>
      dsimp only
      split
      · split
        · exact ends
        · rename_i current
          refine sound.meshGoes settled hand rfl ?_ rfl
          exact Bool.eq_false_iff.mpr fun stale => current (.inr stale)
      · exact ends
  | drainFragmentAck sessionId => exact sound.meshGoes settled hand rfl trivial rfl
  | requeueFragmentAck =>
      dsimp only
      split
      · rename_i sessionId seq drained
        have active := sound.drained _ drained
        have adds := MqttClient.adds_requeueFragmentAck s.client sessionId seq
        have after : ({ s with
            client := (s.client.requeueFragmentAck sessionId seq).2
            mesh := .idle
            drained := none } : MqttTasks).Sound strict :=
          sound.meshAdds settled hand adds active fun _ none => absurd none (by simp)
        rw [← idle] at after
        exact after
      · exact sound
  | markFragmentForRepublish sessionId seq =>
      dsimp only
      split
      · exact ends
      · exact sound.meshGoes settled hand rfl trivial rfl
  | mesh => exact sound
  | processFragmentPublish connected => exact sound
  | mqtt msgId => exact sound

/-- The mutex section of `publish_fragment` does not touch what the bits refer to, and an
accepted duplicate is one of the active session. -/
theorem Sound.enqueue {req : FragmentPublishRequest} (sound : s.Sound strict)
    (here : s.mesh = .enqueue req) : s.meshStep.Sound strict := by
  have settled : s.mesh.resetting = false := by rw [here]; rfl
  have hand : s.mesh.inHand = [] := by rw [here]; rfl
  obtain ⟨accepted, pending, items⟩ := sound.settled settled
  rw [hand] at pending items
  have current : s.client.staleFor req.sessionId = false := by
    have knows := sound.mesh
    rw [here] at knows
    exact knows
  have idles : ∀ client : MqttClient,
      client.activeTransferSession = s.client.activeTransferSession →
      client.fragmentAccepted = s.client.fragmentAccepted →
      client.fragmentAckPending = s.client.fragmentAckPending →
      client.fragmentAckQueue = s.client.fragmentAckQueue →
      ({ s with client := client, mesh := .idle } : MqttTasks).Sound strict := by
    intro client active acceptedSame pendingSame queue
    apply sound.meshMoves active
    · intro _ seq marked
      rw [acceptedSame] at marked
      rw [active]
      exact accepted seq marked
    · exact fun _ => pending.congr active pendingSame queue
    · exact fun _ => items.congr active queue
    · trivial
    · exact sound.drained
  unfold MqttTasks.meshStep
  rw [here]
  dsimp only
  unfold MqttClient.enqueueFragment
  dsimp only
  by_cases known : s.client.fragmentAccepted.test req.seq = true ∨
      s.client.fragmentQueued.test req.seq = true
  · rw [if_pos known]
    dsimp only
    split
    · rename_i acknowledges
      have marked : s.client.fragmentAccepted.test req.seq = true := by
        unfold MqttClient.acknowledges at acknowledges
        exact (Bool.and_eq_true _ _ ▸ acknowledges).1
      have active := (sound.published _ (accepted req.seq marked)).2
      apply sound.meshMoves rfl
      · exact fun _ => accepted
      · exact fun _ => pending
      · exact fun _ => items
      · unfold MqttClient.staleFor at current
        show req.sessionId = s.client.activeTransferSession
        simpa [active] using current
      · exact sound.drained
    · exact idles _ rfl rfl rfl rfl
  · rw [if_neg known]
    split
    · rename_i found
      split at found
      · exact absurd (Prod.mk.inj found).1 (by simp)
      · exact absurd (Prod.mk.inj found).1 (by simp)
    · rename_i found
      split at found
      · obtain ⟨_, rfl⟩ := Prod.mk.inj found
        exact idles _ rfl rfl rfl rfl
      · obtain ⟨_, rfl⟩ := Prod.mk.inj found
        exact idles _ rfl rfl rfl rfl

/-- The drainer takes the first item into its hand. -/
theorem Sound.drainReceive {sessionId left : Nat} (sound : s.Sound strict)
    (here : s.mesh = .drainReceive sessionId left) : s.meshStep.Sound strict := by
  have settled : s.mesh.resetting = false := by rw [here]; rfl
  have hand : s.mesh.inHand = [] := by rw [here]; rfl
  obtain ⟨accepted, pending, items⟩ := sound.settled settled
  rw [hand] at pending items
  have ends : ({ s with mesh := .idle } : MqttTasks).Sound strict := by
    apply sound.meshMoves
    · rfl
    · exact fun _ => accepted
    · exact fun _ => pending
    · exact fun _ => items
    · trivial
    · exact sound.drained
  unfold MqttTasks.meshStep
  rw [here]
  cases left with
  | zero => exact ends
  | succ left =>
      dsimp only
      split
      · exact ends
      · rename_i item rest queue
        have moved : ∀ other, other ∈ s.client.fragmentAckQueue ++ [] →
            other ∈ rest ++ [item] := by
          intro other member
          rw [List.append_nil, queue] at member
          rcases List.mem_cons.mp member with rfl | behind
          · exact List.mem_append_right _ List.mem_cons_self
          · exact List.mem_append_left _ behind
        have own : ({ s.client with fragmentAckQueue := rest } : MqttClient).ItemsIn
            [item] := by
          intro other member
          apply items other
          rw [List.append_nil, queue]
          rcases List.mem_append.mp member with behind | first
          · exact List.mem_cons_of_mem _ behind
          · obtain rfl := List.mem_singleton.mp first
            exact List.mem_cons_self
        split
        · rename_i matching
          apply sound.meshMoves
          · rfl
          · exact fun _ => accepted
          · exact fun _ seq marked => moved _ (pending seq marked)
          · exact fun _ => own
          · exact matching
          · exact sound.drained
        · apply sound.meshMoves
          · rfl
          · exact fun _ => accepted
          · exact fun _ seq marked => moved _ (pending seq marked)
          · exact fun _ => own
          · trivial
          · exact sound.drained

/-- The drainer clears the bit of the item in its hand and returns it. -/
theorem Sound.drainClear {sessionId : Nat} {item : FragmentAckItem} (sound : s.Sound strict)
    (here : s.mesh = .drainClear sessionId item) : s.meshStep.Sound strict := by
  have settled : s.mesh.resetting = false := by rw [here]; rfl
  have hand : s.mesh.inHand = [item] := by rw [here]; rfl
  obtain ⟨accepted, pending, items⟩ := sound.settled settled
  rw [hand] at pending items
  have matching : item.sessionId = sessionId := by
    have knows := sound.mesh
    rw [here] at knows
    exact knows
  unfold MqttTasks.meshStep
  rw [here]
  dsimp only
  apply sound.meshMoves
  · rfl
  · exact fun _ => accepted
  · intro _ seq marked
    obtain ⟨different, old⟩ := (FragmentBitmap.test_clear ..).mp marked
    rcases List.mem_append.mp (pending seq old) with queued | mine
    · exact List.mem_append_left _ queued
    · have same := List.mem_singleton.mp mine
      exact absurd (congrArg (·.seq) same) different
  · intro _ other member
    rcases List.mem_append.mp member with queued | nothing
    · exact items other (List.mem_append_left _ queued)
    · exact absurd nothing List.not_mem_nil
  · trivial
  · intro pair returned
    obtain rfl := Option.some.inj returned
    exact matching.symm.trans (items item (List.mem_append_right _ List.mem_cons_self))

/-- The drainer puts an item back, into a queue with room. -/
theorem Sound.drainPutBack {sessionId left : Nat} {item : FragmentAckItem}
    (sound : s.Sound strict) (here : s.mesh = .drainPutBack sessionId left item)
    (room : s.client.fragmentAckQueue.length < fragmentQueueDepth) :
    s.meshStep.Sound strict := by
  have settled : s.mesh.resetting = false := by rw [here]; rfl
  have hand : s.mesh.inHand = [item] := by rw [here]; rfl
  obtain ⟨accepted, pending, items⟩ := sound.settled settled
  rw [hand] at pending items
  have back : s.client.putBack item =
      { s.client with fragmentAckQueue := s.client.fragmentAckQueue ++ [item] } := if_pos room
  unfold MqttTasks.meshStep
  rw [here]
  dsimp only
  rw [back]
  apply sound.meshMoves
  · rfl
  · exact fun _ => accepted
  · exact fun _ seq marked => List.mem_append_left _ (pending seq marked)
  · exact fun _ other member => items other (by simpa [MeshPc.inHand] using member)
  · trivial
  · exact sound.drained

/-- The next access of the mesh task. -/
theorem Sound.meshStep (sound : s.Sound strict) (orderly : s.Orderly strict .mesh) :
    s.meshStep.Sound strict := by
  cases here : s.mesh with
  | idle =>
      unfold MqttTasks.meshStep
      rw [here]
      exact sound
  | resetPublishQueue =>
      unfold MqttTasks.meshStep
      rw [here]
      dsimp only
      have bits : strict = true → s.InSession := fun reading => sound.bits (.inl reading)
      apply sound.meshMoves
      · rfl
      · intro settled
        exact (bits (settled.resolve_right (by simp [MeshPc.resetting]))).accepted
      · intro settled
        have pending := (bits (settled.resolve_right (by simp [MeshPc.resetting]))).pending
        rw [here] at pending
        exact pending
      · exact fun fresh => absurd fresh (by simp [MeshPc.oldItems])
      · trivial
      · exact sound.drained
  | resetAckQueue =>
      unfold MqttTasks.meshStep
      rw [here]
      dsimp only
      simp only [Orderly, here] at orderly
      apply sound.meshMoves
      · rfl
      · intro settled
        exact (sound.bits (.inl (settled.resolve_right (by simp [MeshPc.resetting])))).accepted
      · intro settled seq marked
        have clear := orderly (settled.resolve_right (by simp [MeshPc.resetting])) seq
        exact absurd (clear.symm.trans marked) (by simp)
      · exact fun _ _ member => absurd member List.not_mem_nil
      · trivial
      · exact sound.drained
  | resetBitmaps =>
      unfold MqttTasks.meshStep
      rw [here]
      dsimp only
      have items := sound.items (by rw [here]; rfl)
      rw [here] at items
      apply sound.meshMoves
      · rfl
      · intro _ seq marked
        exact absurd marked (by simp [MqttClient.resetBitmaps])
      · intro _ seq marked
        exact absurd marked (by simp [MqttClient.resetBitmaps])
      · exact fun _ => items
      · trivial
      · exact sound.drained
  | enqueue req => exact sound.enqueue here
  | acknowledge sessionId seq =>
      have knows := sound.mesh
      rw [here] at knows
      unfold MqttTasks.meshStep
      rw [here]
      exact sound.meshAdds (by rw [here]; rfl) (by rw [here]; rfl)
        (MqttClient.adds_queueFragmentAck ..) knows sound.drained
  | drainReceive sessionId left => exact sound.drainReceive here
  | drainClear sessionId item => exact sound.drainClear here
  | drainPutBack sessionId left item =>
      simp only [Orderly, here] at orderly
      exact sound.drainPutBack here orderly
  | republish seq =>
      have settled : s.mesh.resetting = false := by rw [here]; rfl
      obtain ⟨accepted, pending, items⟩ := sound.settled settled
      unfold MqttTasks.meshStep
      rw [here] at pending items ⊢
      dsimp only
      apply sound.meshMoves
      · rfl
      · intro _ other marked
        exact accepted other ((FragmentBitmap.test_clear ..).mp marked).2
      · exact fun _ => pending
      · exact fun _ => items
      · trivial
      · exact sound.drained

/-! ## Runs -/

theorem Sound.step {action : MqttAction} (sound : s.Sound strict)
    (orderly : s.Orderly strict action) : (s.step action).Sound strict := by
  have begins : (if s.mesh = .idle then s.begin action else s).Sound strict := by
    split
    · rename_i idle
      exact sound.begin idle orderly
    · exact sound
  cases action with
  | mesh => exact sound.meshStep orderly
  | mqtt msgId => exact sound.mqttStep
  | processFragmentPublish connected =>
      unfold MqttTasks.step
      dsimp only
      split
      · exact sound.mqttGoes rfl rfl rfl rfl rfl rfl
      · exact sound
  | _ => exact begins

theorem sound_boot (strict : Bool) (nodeAddr : Nat) : (boot nodeAddr).Sound strict where
  checked _ none := absurd none (by simp [boot, MqttPc.checked])
  unbooked _ none := absurd none (by simp [boot, MqttPc.unbooked])
  published _ member := absurd member List.not_mem_nil
  bits _ := ⟨fun _ marked => absurd marked (by simp [boot]),
    fun _ marked => absurd marked (by simp [boot])⟩
  items _ _ member := absurd member List.not_mem_nil
  mesh := trivial
  drained _ none := absurd none (by simp [boot])

/-- Every step of the run is orderly. -/
def OrderlyRun (strict : Bool) (s : MqttTasks) : List MqttAction → Prop
  | [] => True
  | action :: rest => s.Orderly strict action ∧ (s.step action).OrderlyRun strict rest

/-- In every interleaving of the two tasks in which sessions are switched only while no
request is between its session check and its booking, and in which put back items find
room, the bookkeeping belongs to the active session whenever the mesh task is not
resetting it; and at every moment if no bits are set when a reset begins. -/
theorem bookkeeping_stays_in_session (nodeAddr : Nat) (strict : Bool)
    (actions : List MqttAction) (orderly : (boot nodeAddr).OrderlyRun strict actions) :
    ∀ before after, actions = before ++ after →
      strict = true ∨ ((boot nodeAddr).run before).mesh.resetting = false →
      ((boot nodeAddr).run before).InSession := by
  have sound : (boot nodeAddr).Sound strict := sound_boot strict nodeAddr
  generalize boot nodeAddr = s at orderly sound
  induction actions generalizing s with
  | nil =>
      intro before after split settled
      obtain ⟨rfl, _⟩ := List.append_eq_nil_iff.mp split.symm
      exact sound.bits settled
  | cons action rest inductionHypothesis =>
      intro before after split settled
      cases before with
      | nil => exact sound.bits settled
      | cons first before =>
          obtain ⟨rfl, tail⟩ := List.cons.inj split
          exact inductionHypothesis (s.step action) orderly.2 (sound.step orderly.1)
            before after tail settled

/-! ## A session switched during a publish -/

/-- Session 1 is entered, and fragment 0 of node 2 is published up to the message id. -/
def publishing : List MqttAction :=
  [.activateTransferSession 1, .mesh, .mesh, .mesh,
    .publishFragment 1 0 2 (some [0x41]) (some []), .mesh,
    .processFragmentPublish true, .mqtt 0, .mqtt 0, .mqtt 0, .mqtt 0]

/-- Then the mesh task enters session 2 before the MQTT task books the fragment. -/
def switchedWhilePublishing : List MqttAction :=
  publishing ++ [.activateTransferSession 2, .mesh, .mesh, .mesh, .mqtt 0, .mqtt 0]

/-- In session 2 nothing has been published, but fragment 0 counts as accepted and its
acknowledgement as queued, which the queue holds for session 1 only. -/
theorem switched_while_publishing_crosses :
    let s := (boot 9).run switchedWhilePublishing
    s.mesh = .idle ∧ s.client.activeTransferSession = 2 ∧ s.published = [] ∧
      s.client.fragmentAccepted.test 0 = true ∧ s.client.fragmentAckPending.test 0 = true ∧
      s.client.fragmentAckQueue = [{ sessionId := 1, seq := 0 }] := by
  decide +kernel

/-- The same publish, booked before anything else happens. -/
theorem undisturbed_publish_in_session :
    (boot 9).OrderlyRun true (publishing ++ [.mqtt 0, .mqtt 0]) ∧
      ((boot 9).run (publishing ++ [.mqtt 0, .mqtt 0])).InSession := by
  have orderly : (boot 9).OrderlyRun true (publishing ++ [.mqtt 0, .mqtt 0]) := by
    refine ⟨fun _ => ⟨rfl, fun _ seq => ⟨?_, ?_⟩⟩, trivial, fun _ seq => ?_, trivial, trivial,
      trivial, trivial, trivial, trivial, trivial, trivial, trivial, trivial, trivial⟩
    · exact FragmentBitmap.test_empty seq
    · exact FragmentBitmap.test_empty seq
    · exact FragmentBitmap.test_empty seq
  exact ⟨orderly, bookkeeping_stays_in_session 9 true _ orderly _ [] (List.append_nil _).symm
    (.inl rfl)⟩

end MqttTasks

end ForestLink.Mqtt
