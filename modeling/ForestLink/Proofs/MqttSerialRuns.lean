/-
Module: ForestLink.Proofs.MqttSerialRuns
Purpose: Complete calls on the MQTT client are runs of its tasks in which nobody
  interferes, so both models are about the same code.
Trusted boundary: none
Main exports: MqttTasks.Serves, calls_are_undisturbed_runs
-/
import ForestLink.Mqtt.Tasks
import ForestLink.Proofs.CustodyAcks

namespace ForestLink.Mqtt

namespace MqttTasks

variable {s : MqttTasks} {c : MqttCalls}

/-- Both tasks are between calls and have left behind this client. -/
structure Serves (s : MqttTasks) (c : MqttCalls) : Prop where
  client : s.client = c.client
  mesh : s.mesh = .idle
  mqtt : s.mqtt = .idle
  drained : ∀ pair ∈ c.drained, pair ∈ s.drained

theorem run_append (s : MqttTasks) (first second : List MqttAction) :
    s.run (first ++ second) = (s.run first).run second := List.foldl_append

/-- The reset, access by access. -/
theorem run_enter (s : MqttTasks) (sessionId : Nat) :
    (s.enter sessionId).run [.mesh, .mesh, .mesh] =
      { s with
        client := ({ s.client with
          activeTransferSession := sessionId } : MqttClient).resetTransferRuntimeState
        mesh := .idle
        drained := none
        published := [] } := rfl

/-- The drain loop, access by access. -/
theorem run_drain {sessionId left : Nat} (here : s.mesh = .drainReceive sessionId left) :
    ∃ actions, (s.run actions).client = (MqttClient.drainLoop sessionId left s.client).2 ∧
      (s.run actions).mesh = .idle ∧ (s.run actions).mqtt = s.mqtt ∧
      ∀ seq ∈ (MqttClient.drainLoop sessionId left s.client).1,
        (sessionId, seq) ∈ (s.run actions).drained := by
  induction left generalizing s with
  | zero =>
      refine ⟨[.mesh], ?_⟩
      simp [run, step, meshStep, here, MqttClient.drainLoop]
  | succ left inductionHypothesis =>
      cases queue : s.client.fragmentAckQueue with
      | nil =>
          refine ⟨[.mesh], ?_⟩
          simp [run, step, meshStep, here, queue, MqttClient.drainLoop]
      | cons item rest =>
          by_cases matching : item.sessionId = sessionId
          · refine ⟨[.mesh, .mesh], ?_⟩
            simp [run, step, meshStep, here, queue, matching, MqttClient.drainLoop]
          · let after : MqttTasks := { s with
              client := ({ s.client with fragmentAckQueue := rest } : MqttClient).putBack item
              mesh := .drainReceive sessionId left }
            have turned : s.run [.mesh, .mesh] = after := by
              simp [run, step, meshStep, here, queue, matching, after]
            have loop : MqttClient.drainLoop sessionId (left + 1) s.client =
                MqttClient.drainLoop sessionId left after.client := by
              simp [MqttClient.drainLoop, queue, matching, after]
            obtain ⟨actions, goes⟩ := inductionHypothesis (s := after) rfl
            refine ⟨([.mesh, .mesh] : List MqttAction) ++ actions, ?_⟩
            rw [run_append, turned, loop]
            exact goes

/-- The MQTT task takes its next request. -/
theorem run_nextRequest {req : FragmentPublishRequest} {fromPending : Bool}
    {taken : MqttClient} (here : s.mqtt = .readPending)
    (next : s.client.nextRequest = some (req, fromPending, taken)) :
    ∃ actions, s.run actions =
      { s with client := taken, mqtt := .check req fromPending } := by
  unfold MqttClient.nextRequest at next
  split at next
  · rename_i pending
    obtain ⟨rfl, rfl, rfl⟩ := next
    refine ⟨[.mqtt 0], ?_⟩
    simp [run, step, mqttStep, here, pending]
  · rename_i pending queue
    obtain ⟨rfl, rfl, rfl⟩ := next
    refine ⟨[.mqtt 0, .mqtt 0], ?_⟩
    simp [run, step, mqttStep, here, pending, queue]
  · exact absurd next (by simp)

/-- The publish loop, access by access. -/
theorem run_process (fuel : Nat) (msgIds : List Int) (here : s.mqtt = .readPending)
    (enough : s.client.waiting.length ≤ fuel) :
    ∃ actions, s.run actions =
      { s with
        client := (MqttClient.processLoop fuel msgIds s.client).2
        mqtt := .idle
        published := (s.run actions).published } := by
  induction fuel generalizing s msgIds with
  | zero =>
      have nothing := List.length_eq_zero_iff.mp (Nat.le_zero.mp enough)
      unfold MqttClient.waiting at nothing
      obtain ⟨pending, queue⟩ := List.append_eq_nil_iff.mp nothing
      refine ⟨[.mqtt 0, .mqtt 0], ?_⟩
      have slot : s.client.pendingFragment = none := by
        cases filled : s.client.pendingFragment with
        | none => rfl
        | some req =>
            rw [filled] at pending
            exact absurd pending (by simp)
      simp [run, step, mqttStep, here, slot, queue, MqttClient.processLoop]
  | succ fuel inductionHypothesis =>
      cases next : s.client.nextRequest with
      | none =>
          obtain ⟨slot, queue⟩ : s.client.pendingFragment = none ∧
              s.client.fragmentPublishQueue = [] := by
            unfold MqttClient.nextRequest at next
            split at next
            · exact absurd next (by simp)
            · exact absurd next (by simp)
            · rename_i pending queue
              exact ⟨pending, queue⟩
          refine ⟨[.mqtt 0, .mqtt 0], ?_⟩
          simp [run, step, mqttStep, here, slot, queue, MqttClient.processLoop, next]
      | some found =>
          obtain ⟨req, fromPending, taken⟩ := found
          obtain ⟨takes, checks⟩ := run_nextRequest here next
          have behind : taken.fragmentPublishQueue.length ≤ fuel := by
            rw [(MqttClient.nextRequest_eq_some next).1] at enough
            exact Nat.le_of_succ_le_succ enough
          by_cases stale : taken.droppable req = true
          · let after : MqttTasks :=
              { s with client := taken.dropStale req fromPending, mqtt := .readPending }
            have drops : s.run (takes ++ ([.mqtt 0, .mqtt 0] : List MqttAction)) = after := by
              rw [run_append, checks]
              simp [run, step, mqttStep, stale, after]
            have waits : after.client.waiting.length ≤ fuel := by
              show (taken.dropStale req fromPending).waiting.length ≤ fuel
              rw [MqttClient.dropStale_eq next]
              exact behind
            obtain ⟨actions, goes⟩ := inductionHypothesis (s := after) msgIds rfl waits
            refine ⟨takes ++ ([.mqtt 0, .mqtt 0] : List MqttAction) ++ actions, ?_⟩
            have loop : MqttClient.processLoop (fuel + 1) msgIds s.client =
                MqttClient.processLoop fuel msgIds after.client := by
              simp [MqttClient.processLoop, next, stale, after]
            rw [run_append, drops, loop]
            exact goes
          · by_cases failed : msgIds.headD (-1) < 0
            · refine ⟨takes ++ ([.mqtt 0, .mqtt (-1), .mqtt 0] : List MqttAction), ?_⟩
              have loop : MqttClient.processLoop (fuel + 1) msgIds s.client =
                  ([], taken.deferFragment req) := by
                rw [MqttClient.processLoop, next]
                dsimp only
                rw [if_neg stale, if_pos failed]
              rw [run_append, checks, loop]
              simp [run, step, mqttStep, stale]
            · let booked := (taken.acceptFragment req fromPending).acknowledge req
              let after : MqttTasks := { s with
                client := booked
                mqtt := .readPending
                published := s.published ++ [(req.sessionId, req.seq)] }
              let accesses : List MqttAction := [.mqtt 0, .mqtt 0, .mqtt 0, .mqtt 0]
              have books : s.run (takes ++ accesses) = after := by
                rw [run_append, checks]
                simp [run, step, mqttStep, stale, after, booked, accesses]
              have waits : after.client.waiting.length ≤ fuel := by
                show booked.waiting.length ≤ fuel
                rw [(MqttClient.acknowledge_fields _ _).2, MqttClient.acceptFragment_eq next]
                exact behind
              obtain ⟨actions, goes⟩ := inductionHypothesis (s := after) msgIds.tail
                rfl waits
              refine ⟨takes ++ accesses ++ actions, ?_⟩
              have loop : (MqttClient.processLoop (fuel + 1) msgIds s.client).2 =
                  (MqttClient.processLoop fuel msgIds.tail after.client).2 := by
                rw [MqttClient.processLoop, next]
                dsimp only
                rw [if_neg stale, if_neg failed]
              rw [run_append, books, loop]
              exact goes

/-- The mesh task has made a call and left behind this client. -/
def Makes (s : MqttTasks) (actions : List MqttAction) (client : MqttClient) : Prop :=
  (s.run actions).client = client ∧ (s.run actions).mesh = .idle ∧
    (s.run actions).mqtt = s.mqtt

theorem makes_activate (idle : s.mesh = .idle) (sessionId : Nat) :
    s.Makes [.activateTransferSession sessionId, .mesh, .mesh, .mesh]
      (s.client.activateTransferSession sessionId) := by
  unfold MqttClient.activateTransferSession
  by_cases different : s.client.activeTransferSession ≠ sessionId
  · rw [if_pos different]
    have enters : s.step (.activateTransferSession sessionId) = s.enter sessionId := by
      simp [step, idle, begin, different]
    have after : s.run [.activateTransferSession sessionId, .mesh, .mesh, .mesh] =
        (s.enter sessionId).run [.mesh, .mesh, .mesh] := by
      rw [← enters]
      rfl
    unfold Makes
    rw [after, run_enter]
    exact ⟨rfl, rfl, rfl⟩
  · rw [if_neg different]
    have same := not_not.mp different
    subst same
    simp [Makes, run, step, idle, begin, meshStep]

theorem makes_clear (idle : s.mesh = .idle) (sessionId : Nat) :
    s.Makes [.clearTransferSession sessionId, .mesh, .mesh, .mesh]
      (s.client.clearTransferSession sessionId) := by
  unfold MqttClient.clearTransferSession
  by_cases same : s.client.activeTransferSession = sessionId
  · rw [if_pos same]
    have enters : s.step (.clearTransferSession sessionId) = s.enter 0 := by
      simp [step, idle, begin, same]
    have after : s.run [.clearTransferSession sessionId, .mesh, .mesh, .mesh] =
        (s.enter 0).run [.mesh, .mesh, .mesh] := by
      rw [← enters]
      rfl
    unfold Makes
    rw [after, run_enter]
    exact ⟨rfl, rfl, rfl⟩
  · rw [if_neg same]
    simp [Makes, run, step, idle, begin, meshStep, same]

theorem makes_publish (idle : s.mesh = .idle) (sessionId seq srcNode : Nat)
    (data filename : Option (List UInt8)) :
    s.Makes [.publishFragment sessionId seq srcNode data filename, .mesh, .mesh]
      (s.client.publishFragment sessionId seq srcNode data filename).2 := by
  cases data with
  | none => simp [Makes, run, step, idle, begin, meshStep, MqttClient.publishFragment]
  | some data =>
      cases filename with
      | none => simp [Makes, run, step, idle, begin, meshStep, MqttClient.publishFragment]
      | some filename =>
          by_cases empty : data = []
          · simp [Makes, run, step, idle, begin, meshStep, MqttClient.publishFragment, empty]
          · by_cases stale : s.client.staleFor sessionId = true
            · simp [Makes, run, step, idle, begin, meshStep, MqttClient.publishFragment,
                empty, stale]
            · -- past the session check: the mutex section, then perhaps the item
              let req := MqttClient.request sessionId seq srcNode data filename
              have starts : s.step (.publishFragment sessionId seq srcNode (some data)
                  (some filename)) = { s with mesh := .enqueue req, drained := none } := by
                simp [step, idle, begin, empty, stale, req]
              have after : s.run [.publishFragment sessionId seq srcNode (some data)
                  (some filename), .mesh, .mesh] =
                  ({ s with
                    mesh := .enqueue req
                    drained := none } : MqttTasks).meshStep.meshStep := by
                rw [← starts]
                rfl
              unfold Makes MqttClient.publishFragment
              rw [after]
              dsimp only
              rw [if_neg empty, if_neg stale]
              unfold meshStep
              dsimp only
              cases s.client.enqueueFragment req with
              | mk result client =>
                  cases result with
                  | duplicate alreadyAccepted =>
                      dsimp only
                      by_cases repeats : client.acknowledges req alreadyAccepted = true
                      · rw [if_pos repeats, if_pos repeats]
                        exact ⟨rfl, rfl, rfl⟩
                      · rw [if_neg repeats, if_neg repeats]
                        exact ⟨rfl, rfl, rfl⟩
                  | full => exact ⟨rfl, rfl, rfl⟩
                  | queued => exact ⟨rfl, rfl, rfl⟩

theorem makes_requeue (idle : s.mesh = .idle) {sessionId seq : Nat}
    (drained : s.drained = some (sessionId, seq)) :
    s.Makes [.requeueFragmentAck] (s.client.requeueFragmentAck sessionId seq).2 := by
  simp [Makes, run, step, idle, begin, drained]

theorem makes_republish (idle : s.mesh = .idle) (sessionId seq : Nat) :
    s.Makes [.markFragmentForRepublish sessionId seq, .mesh]
      (s.client.markFragmentForRepublish sessionId seq) := by
  unfold MqttClient.markFragmentForRepublish
  split
  · rename_i stale
    simp [Makes, run, step, idle, begin, meshStep, stale]
  · rename_i current
    simp [Makes, run, step, idle, begin, meshStep, current]

/-- A call of the mesh task that drains nothing. -/
theorem Serves.made {actions : List MqttAction} {after : MqttCalls} (serves : s.Serves c)
    (makes : s.Makes actions after.client) (drained : after.drained = none) :
    (s.run actions).Serves after where
  client := makes.1
  mesh := makes.2.1
  mqtt := makes.2.2.trans serves.mqtt
  drained pair member := by
    rw [drained] at member
    exact absurd member (by simp)

/-- Each complete call is a run of the tasks from rest to rest. -/
theorem Serves.call (serves : s.Serves c) (call : MqttCall) :
    ∃ actions, (s.run actions).Serves (c.call call) := by
  have idle := serves.mesh
  obtain ⟨client, pair, accepted⟩ := c
  obtain rfl : s.client = client := serves.client
  cases call with
  | activateTransferSession sessionId => exact ⟨_, serves.made (makes_activate idle _) rfl⟩
  | clearTransferSession sessionId => exact ⟨_, serves.made (makes_clear idle _) rfl⟩
  | publishFragment sessionId seq srcNode data filename =>
      exact ⟨_, serves.made (makes_publish idle ..) rfl⟩
  | processFragmentPublish connected msgIds =>
      cases connected with
      | false => exact ⟨[], rfl, idle, serves.mqtt, fun _ none => absurd none (by
          simp [MqttCalls.call, MqttCalls.next])⟩
      | true =>
          have starts : s.run [.processFragmentPublish true] =
              { s with mqtt := .readPending } := by
            simp [run, step, serves.mqtt]
          obtain ⟨actions, goes⟩ := run_process
            (s := { s with mqtt := .readPending }) (s.client.waiting.length + 1) msgIds rfl
            (Nat.le_succ _)
          refine ⟨([.processFragmentPublish true] : List MqttAction) ++ actions, ?_⟩
          rw [run_append, starts, goes]
          exact ⟨rfl, idle, rfl, fun _ none => absurd none (by
            simp [MqttCalls.call, MqttCalls.next])⟩
  | drainFragmentAck sessionId =>
      have starts : s.run [.drainFragmentAck sessionId] =
          { s with
            mesh := .drainReceive sessionId s.client.fragmentAckQueue.length
            drained := none } := by
        simp [run, step, idle, begin]
      obtain ⟨actions, client, mesh, mqtt, drains⟩ := run_drain
        (s := { s with
          mesh := .drainReceive sessionId s.client.fragmentAckQueue.length
          drained := none }) rfl
      refine ⟨([.drainFragmentAck sessionId] : List MqttAction) ++ actions, ?_⟩
      rw [run_append, starts]
      refine ⟨client, mesh, mqtt.trans serves.mqtt, fun pair member => ?_⟩
      obtain ⟨seq, returned, rfl⟩ := Option.map_eq_some_iff.mp member
      exact drains seq returned
  | requeueFragmentAck =>
      cases pair with
      | none => exact ⟨[], serves⟩
      | some pair =>
          exact ⟨_, serves.made (makes_requeue idle (serves.drained pair rfl)) rfl⟩
  | markFragmentForRepublish sessionId seq =>
      exact ⟨_, serves.made (makes_republish idle _ _) rfl⟩

/-- Whatever complete calls can do to the client, an interleaving of the two tasks can
do. -/
theorem calls_are_undisturbed_runs (nodeAddr : Nat) (calls : List MqttCall) :
    ∃ actions, ((boot nodeAddr).run actions).Serves
      ((MqttCalls.boot nodeAddr).run calls) := by
  have serves : (boot nodeAddr).Serves (MqttCalls.boot nodeAddr) :=
    ⟨rfl, rfl, rfl, fun _ none => absurd none (by simp [MqttCalls.boot])⟩
  generalize boot nodeAddr = s at serves ⊢
  generalize MqttCalls.boot nodeAddr = c at serves ⊢
  induction calls generalizing s c with
  | nil => exact ⟨[], serves⟩
  | cons call rest inductionHypothesis =>
      obtain ⟨first, made⟩ := serves.call call
      obtain ⟨second, rested⟩ := inductionHypothesis _ _ made
      refine ⟨first ++ second, ?_⟩
      rw [run_append]
      exact rested

end MqttTasks

end ForestLink.Mqtt
