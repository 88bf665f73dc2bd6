/-
Module: ForestLink.Mqtt.Client
Purpose: The fragment side of the MQTT client on an exit node (`mqtt_client.cpp`): publish
  queue, pending fragment, acknowledgement queue and the three fragment bitmaps, with
  the operations on them cut into their mutex sections.
Trusted boundary: none
Main exports: FragmentBitmap, FragmentPublishRequest, FragmentAckItem, MqttClient,
  MqttClient.publishFragment, MqttClient.processFragmentPublish,
  MqttClient.drainFragmentAck, MqttClient.requeueFragmentAck, MqttCall, MqttCalls.run
-/
import ForestLink.Lib.Bitmap

namespace ForestLink.Mqtt

open ForestLink.Lib

/-! ## Fragment bitmaps -/

/-- `MAX_TRACKED_TRANSFER_FRAGMENTS` -/
def maxTrackedTransferFragments : Nat := 60000

/-- `is_trackable_fragment` -/
def isTrackableFragment (seq : Nat) : Bool := seq < maxTrackedTransferFragments

/-- One of the arrays of `FRAGMENT_BITMAP_BYTES` bytes. -/
structure FragmentBitmap where
  bits : Bitmap
  covers : bits.length = (maxTrackedTransferFragments + 7) / 8

namespace FragmentBitmap

def empty : FragmentBitmap where
  bits := .zeros maxTrackedTransferFragments
  covers := Bitmap.length_zeros _

/-- `bitmap_test` -/
def test (map : FragmentBitmap) (seq : Nat) : Bool :=
  isTrackableFragment seq && (map.bits.test? seq).getD false

theorem inside (map : FragmentBitmap) {seq : Nat} (tracked : isTrackableFragment seq = true) :
    seq / 8 < map.bits.length :=
  Bitmap.div_lt_length map.covers (of_decide_eq_true tracked)

/-- `bitmap_set` -/
def set (map : FragmentBitmap) (seq : Nat) : FragmentBitmap :=
  if tracked : isTrackableFragment seq = true then
    { bits := (map.bits.set? seq).getD map.bits
      covers := by
        obtain ⟨after, written, length, _⟩ := Bitmap.set?_spec (map.inside tracked)
        rw [written, Option.getD_some, length]
        exact map.covers }
  else map

/-- `bitmap_clear` -/
def clear (map : FragmentBitmap) (seq : Nat) : FragmentBitmap :=
  if tracked : isTrackableFragment seq = true then
    { bits := (map.bits.clear? seq).getD map.bits
      covers := by
        obtain ⟨after, written, length, _⟩ := Bitmap.clear?_spec (map.inside tracked)
        rw [written, Option.getD_some, length]
        exact map.covers }
  else map

theorem test_iff (map : FragmentBitmap) (seq : Nat) :
    map.test seq = true ↔ isTrackableFragment seq = true ∧ map.bits.Marked seq := by
  unfold test Bitmap.Marked
  rw [Bool.and_eq_true]
  refine and_congr_right fun tracked => ?_
  obtain ⟨flag, read⟩ := Bitmap.test?_isSome (map.inside tracked)
  rw [read, Option.getD_some, Option.some.injEq]

@[simp] theorem test_empty (seq : Nat) : empty.test seq = false := by
  rw [← Bool.not_eq_true, test_iff]
  exact fun marked => Bitmap.not_marked_zeros _ _ marked.2

@[simp] theorem test_set (map : FragmentBitmap) (seq other : Nat) :
    (map.set seq).test other = true ↔
      (other = seq ∧ isTrackableFragment seq = true) ∨ map.test other = true := by
  unfold set
  split
  · rename_i tracked
    obtain ⟨after, written, _, marks⟩ := Bitmap.set?_spec (map.inside tracked)
    rw [test_iff, test_iff]
    dsimp only
    rw [written, Option.getD_some, marks]
    constructor
    · rintro ⟨inRange, rfl | marked⟩
      · exact .inl ⟨rfl, inRange⟩
      · exact .inr ⟨inRange, marked⟩
    · rintro (⟨rfl, inRange⟩ | ⟨inRange, marked⟩)
      · exact ⟨inRange, .inl rfl⟩
      · exact ⟨inRange, .inr marked⟩
  · rename_i untracked
    constructor
    · exact .inr
    · rintro (⟨_, tracked⟩ | marked)
      · exact absurd tracked untracked
      · exact marked

@[simp] theorem test_clear (map : FragmentBitmap) (seq other : Nat) :
    (map.clear seq).test other = true ↔ other ≠ seq ∧ map.test other = true := by
  unfold clear
  split
  · rename_i tracked
    obtain ⟨after, written, _, marks⟩ := Bitmap.clear?_spec (map.inside tracked)
    rw [test_iff, test_iff]
    dsimp only
    rw [written, Option.getD_some, marks]
    exact and_left_comm
  · rename_i untracked
    constructor
    · intro marked
      refine ⟨?_, marked⟩
      rintro rfl
      exact untracked ((test_iff _ _).mp marked).1
    · exact fun marked => marked.2

end FragmentBitmap

/-! ## State -/

structure FragmentPublishRequest where
  sessionId : Nat
  seq : Nat
  srcNode : Nat
  data : List UInt8
  filename : List UInt8
deriving Repr, DecidableEq

structure FragmentAckItem where
  sessionId : Nat
  seq : Nat
deriving Repr, DecidableEq

/-- `MAX_MTU` -/
def maxMtu : Nat := 1470

/-- `MQTT_FRAGMENT_QUEUE_DEPTH`: the budget of 512 legacy requests of 296 bytes, in
requests of 1516 bytes. -/
def fragmentQueueDepth : Nat := 512 * 296 / 1516

/-- The fragment state of `MqttClient`. `pendingFragment` is `have_pending_fragment_` with
`pending_fragment_`. -/
structure MqttClient where
  nodeAddr : Nat
  activeTransferSession : Nat := 0
  fragmentPublishQueue : List FragmentPublishRequest := []
  pendingFragment : Option FragmentPublishRequest := none
  fragmentAckQueue : List FragmentAckItem := []
  fragmentQueued : FragmentBitmap := .empty
  fragmentAccepted : FragmentBitmap := .empty
  fragmentAckPending : FragmentBitmap := .empty

namespace MqttClient

/-! ## Sessions -/

/-- The mutex section at the end of `reset_transfer_runtime_state`. -/
def resetBitmaps (m : MqttClient) : MqttClient :=
  { m with
    pendingFragment := none
    fragmentQueued := .empty
    fragmentAccepted := .empty
    fragmentAckPending := .empty }

def resetPublishQueue (m : MqttClient) : MqttClient := { m with fragmentPublishQueue := [] }

def resetAckQueue (m : MqttClient) : MqttClient := { m with fragmentAckQueue := [] }

def resetTransferRuntimeState (m : MqttClient) : MqttClient :=
  m.resetPublishQueue.resetAckQueue.resetBitmaps

def activateTransferSession (m : MqttClient) (sessionId : Nat) : MqttClient :=
  let exchanged := { m with activeTransferSession := sessionId }
  if m.activeTransferSession ≠ sessionId then exchanged.resetTransferRuntimeState
  else exchanged

def clearTransferSession (m : MqttClient) (sessionId : Nat) : MqttClient :=
  if m.activeTransferSession = sessionId then
    { m with activeTransferSession := 0 }.resetTransferRuntimeState
  else m

/-! ## Acknowledgements -/

/-- `queue_fragment_ack`, one mutex section. -/
def queueFragmentAck (m : MqttClient) (sessionId seq : Nat) : Bool × MqttClient :=
  if m.fragmentAckPending.test seq = true then (true, m)
  else if m.fragmentAckQueue.length < fragmentQueueDepth then
    (true, { m with
      fragmentAckQueue := m.fragmentAckQueue ++ [{ sessionId := sessionId, seq := seq }]
      fragmentAckPending := m.fragmentAckPending.set seq })
  else (false, m)

/-- `requeue_fragment_ack`, one mutex section. -/
def requeueFragmentAck (m : MqttClient) (sessionId seq : Nat) : Bool × MqttClient :=
  if m.fragmentAckPending.test seq = true then (true, m)
  else if m.fragmentAckQueue.length < fragmentQueueDepth then
    (true, { m with
      fragmentAckQueue := { sessionId := sessionId, seq := seq } :: m.fragmentAckQueue
      fragmentAckPending := m.fragmentAckPending.set seq })
  else (false, m)

/-- The mutex section of `drain_fragment_ack`: its item is no longer pending. -/
def drained (m : MqttClient) (seq : Nat) : MqttClient :=
  { m with fragmentAckPending := m.fragmentAckPending.clear seq }

/-- `drain_fragment_ack` sends an item of another session back to the end of the queue,
whatever `xQueueSend` returns. -/
def putBack (m : MqttClient) (item : FragmentAckItem) : MqttClient :=
  if m.fragmentAckQueue.length < fragmentQueueDepth then
    { m with fragmentAckQueue := m.fragmentAckQueue ++ [item] }
  else m

/-- The loop of `drain_fragment_ack` over the items that were waiting at its start. -/
def drainLoop (sessionId : Nat) : Nat → MqttClient → Option Nat × MqttClient
  | 0, m => (none, m)
  | depth + 1, m =>
      match m.fragmentAckQueue with
      | [] => (none, m)
      | item :: rest =>
          let taken := { m with fragmentAckQueue := rest }
          if item.sessionId = sessionId then (some item.seq, taken.drained item.seq)
          else drainLoop sessionId depth (taken.putBack item)

def drainFragmentAck (m : MqttClient) (sessionId : Nat) : Option Nat × MqttClient :=
  drainLoop sessionId m.fragmentAckQueue.length m

/-! ## Publishing -/

/-- The request of `publish_fragment`: data truncated to the MTU, the file name to 32
bytes. -/
def request (sessionId seq srcNode : Nat) (data filename : List UInt8) :
    FragmentPublishRequest where
  sessionId := sessionId
  seq := seq
  srcNode := srcNode
  data := data.take maxMtu
  filename := filename.take 32

/-- A session other than the active one, if there is an active one. -/
def staleFor (m : MqttClient) (sessionId : Nat) : Bool :=
  m.activeTransferSession ≠ 0 && sessionId ≠ m.activeTransferSession

/-- What the mutex section of `publish_fragment` finds or does. -/
inductive EnqueueResult where
  | duplicate (alreadyAccepted : Bool)
  | full
  | queued
deriving Repr, DecidableEq

/-- The mutex section of `publish_fragment`. -/
def enqueueFragment (m : MqttClient) (req : FragmentPublishRequest) :
    EnqueueResult × MqttClient :=
  let alreadyAccepted := m.fragmentAccepted.test req.seq
  if alreadyAccepted = true ∨ m.fragmentQueued.test req.seq = true then
    (.duplicate alreadyAccepted, m)
  else if m.fragmentPublishQueue.length < fragmentQueueDepth then
    (.queued, { m with
      fragmentPublishQueue := m.fragmentPublishQueue ++ [req]
      fragmentQueued := m.fragmentQueued.set req.seq })
  else (.full, m)

/-- A duplicate that has been accepted is acknowledged again, unless it is the node's
own. -/
def acknowledges (m : MqttClient) (req : FragmentPublishRequest) (alreadyAccepted : Bool) :
    Bool :=
  alreadyAccepted && req.srcNode ≠ m.nodeAddr

/-- `publish_fragment`; a null pointer is `none`. -/
def publishFragment (m : MqttClient) (sessionId seq srcNode : Nat)
    (data filename : Option (List UInt8)) : Bool × MqttClient :=
  match data, filename with
  | some data, some filename =>
      if data = [] then (false, m)
      else
        let req := request sessionId seq srcNode data filename
        if m.staleFor sessionId = true then (false, m)
        else
          match m.enqueueFragment req with
          | (.duplicate alreadyAccepted, m) =>
              if m.acknowledges req alreadyAccepted = true then
                (true, (m.queueFragmentAck sessionId seq).2)
              else (true, m)
          | (.full, m) => (false, m)
          | (.queued, m) => (true, m)
  | _, _ => (false, m)

/-- `mark_fragment_for_republish` -/
def markFragmentForRepublish (m : MqttClient) (sessionId seq : Nat) : MqttClient :=
  if m.activeTransferSession = 0 ∨ sessionId ≠ m.activeTransferSession then m
  else { m with fragmentAccepted := m.fragmentAccepted.clear seq }

/-! ## The MQTT task -/

/-- The session check of `process_fragment_publish`. -/
def droppable (m : MqttClient) (req : FragmentPublishRequest) : Bool :=
  m.activeTransferSession = 0 || req.sessionId ≠ m.activeTransferSession

/-- A request from the pending slot frees it. -/
def freePending (m : MqttClient) (fromPending : Bool) : MqttClient :=
  if fromPending = true then { m with pendingFragment := none } else m

/-- The mutex section for a request of another session. -/
def dropStale (m : MqttClient) (req : FragmentPublishRequest) (fromPending : Bool) :
    MqttClient :=
  { m with fragmentQueued := m.fragmentQueued.clear req.seq }.freePending fromPending

/-- The mutex section after a failed publish. -/
def deferFragment (m : MqttClient) (req : FragmentPublishRequest) : MqttClient :=
  { m with pendingFragment := some req }

/-- The mutex section after a successful publish. -/
def acceptFragment (m : MqttClient) (req : FragmentPublishRequest) (fromPending : Bool) :
    MqttClient :=
  let freed := m.freePending fromPending
  { freed with
    fragmentQueued := freed.fragmentQueued.clear req.seq
    fragmentAccepted := freed.fragmentAccepted.set req.seq }

/-- Fragments of other nodes are acknowledged once they are accepted. -/
def acknowledge (m : MqttClient) (req : FragmentPublishRequest) : MqttClient :=
  if req.srcNode ≠ m.nodeAddr then (m.queueFragmentAck req.sessionId req.seq).2 else m

/-- The request to publish next: the pending one, else the oldest in the queue. -/
def nextRequest (m : MqttClient) : Option (FragmentPublishRequest × Bool × MqttClient) :=
  match m.pendingFragment, m.fragmentPublishQueue with
  | some req, _ => some (req, true, m)
  | none, req :: rest => some (req, false, { m with fragmentPublishQueue := rest })
  | none, [] => none

/-- The loop of `process_fragment_publish`, with the message ids that
`esp_mqtt_client_publish` returns. It returns the requests that were accepted. -/
def processLoop : Nat → List Int → MqttClient → List FragmentPublishRequest × MqttClient
  | 0, _, m => ([], m)
  | fuel + 1, msgIds, m =>
      match m.nextRequest with
      | none => ([], m)
      | some (req, fromPending, m) =>
          if m.droppable req = true then
            processLoop fuel msgIds (m.dropStale req fromPending)
          else if msgIds.headD (-1) < 0 then ([], m.deferFragment req)
          else
            let (accepted, after) := processLoop fuel msgIds.tail
              ((m.acceptFragment req fromPending).acknowledge req)
            (req :: accepted, after)

/-- Requests that are still to be published. -/
def waiting (m : MqttClient) : List FragmentPublishRequest :=
  m.pendingFragment.toList ++ m.fragmentPublishQueue

/-- `process_fragment_publish`. The loop takes one request per round, so the requests
waiting bound it. -/
def processFragmentPublish (m : MqttClient) (connected : Bool) (msgIds : List Int) :
    List FragmentPublishRequest × MqttClient :=
  if connected = true then processLoop (m.waiting.length + 1) msgIds m else ([], m)

end MqttClient

/-! ## Complete calls -/

/-- A complete call on the client. `requeueFragmentAck` is for the pair that the call
before it drained. -/
inductive MqttCall where
  | activateTransferSession (sessionId : Nat)
  | clearTransferSession (sessionId : Nat)
  | publishFragment (sessionId seq srcNode : Nat) (data filename : Option (List UInt8))
  | processFragmentPublish (connected : Bool) (msgIds : List Int)
  | drainFragmentAck (sessionId : Nat)
  | requeueFragmentAck
  | markFragmentForRepublish (sessionId seq : Nat)
deriving Repr, DecidableEq

/-- The client between calls, with the pair the last call drained and, as a record only,
the fragments that `esp_mqtt_client_publish` has accepted since the active session was
entered. -/
structure MqttCalls where
  client : MqttClient
  drained : Option (Nat × Nat) := none
  accepted : List Nat := []

namespace MqttCalls

def boot (nodeAddr : Nat) : MqttCalls := { client := { nodeAddr := nodeAddr } }

/-- After a call that left this client behind. -/
def next (s : MqttCalls) (client : MqttClient) (drained : Option (Nat × Nat))
    (accepted : List FragmentPublishRequest) : MqttCalls where
  client := client
  drained := drained
  accepted :=
    if client.activeTransferSession = s.client.activeTransferSession then
      s.accepted ++ accepted.map (·.seq)
    else []

def call (s : MqttCalls) : MqttCall → MqttCalls
  | .activateTransferSession sessionId =>
      s.next (s.client.activateTransferSession sessionId) none []
  | .clearTransferSession sessionId =>
      s.next (s.client.clearTransferSession sessionId) none []
  | .publishFragment sessionId seq srcNode data filename =>
      s.next (s.client.publishFragment sessionId seq srcNode data filename).2 none []
  | .processFragmentPublish connected msgIds =>
      let (accepted, client) := s.client.processFragmentPublish connected msgIds
      s.next client none accepted
  | .drainFragmentAck sessionId =>
      let (seq, client) := s.client.drainFragmentAck sessionId
      s.next client (seq.map fun seq => (sessionId, seq)) []
  | .requeueFragmentAck =>
      match s.drained with
      | some (sessionId, seq) =>
          s.next (s.client.requeueFragmentAck sessionId seq).2 none []
      | none => s
  | .markFragmentForRepublish sessionId seq =>
      s.next (s.client.markFragmentForRepublish sessionId seq) none []

/-- The requests that `esp_mqtt_client_publish` accepts during a call. -/
def accepts (s : MqttCalls) : MqttCall → List FragmentPublishRequest
  | .processFragmentPublish connected msgIds =>
      (s.client.processFragmentPublish connected msgIds).1
  | _ => []

def run (s : MqttCalls) (calls : List MqttCall) : MqttCalls := calls.foldl call s

end MqttCalls

end ForestLink.Mqtt
