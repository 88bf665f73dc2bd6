/-
Module: ForestLink.Transport.Receive
Purpose: The way of a received packet through slab pool and receive queues:
  `EspNowTransport::on_recv`, the LoRa receive task and the queue drain of
  `MeshManager::run`, interleaved at single pool accesses and queue operations.
Trusted boundary: none
Main exports: isHighPri, RxAgent, RxSystem, RxSystem.step, RxSystem.run
-/
import ForestLink.Protocol.BufferPool

namespace ForestLink.Transport

open ForestLink.Protocol

/-- `MAX_MTU` -/
def maxMtu : Nat := 1470

/-- `LORA_MAX_PACKET` -/
def loraMaxPacket : Nat := 255

/-- `kQueueDepth` -/
def rxQueueDepth : Nat := 256

/-- The packet types that both receive paths put into the high priority queue: ACK,
NACK, DISCOVERY, ROUTE_ERROR, TRANSFER_ACK and ROUTE_REPLY. -/
def highPriTypes : List Nat := [0x02, 0x03, 0x10, 0x13, 0x21, 0x12]

def isHighPri : List UInt8 → Bool
  | [] => false
  | first :: _ => highPriTypes.contains (first.toNat &&& 0x3F)

/-- The three tasks that touch slabs, and the two queues between them. -/
inductive RxAgent where
  | espnow
  | lora
  | mesh
  | hiQueue
  | loQueue
deriving Repr, DecidableEq

/-- The slab pool with its tasks, where a queue holds the slabs of its entries, newest
first; and the packet that a receive path is delivering. -/
structure RxSystem where
  tasks : PoolTasks RxAgent
  job : RxAgent → Option (List UInt8) := fun _ => none

namespace RxSystem

def boot (size : Nat) : RxSystem := { tasks := .boot size }

def setJob (sys : RxSystem) (agent : RxAgent) (job : Option (List UInt8)) : RxSystem :=
  { sys with job := Function.update sys.job agent job }

/-- Packets that a receive path begins to deliver: the ESP-NOW callback returns early on
an invalid length, the LoRa radio reports up to 255 bytes. -/
def accepts : RxAgent → List UInt8 → Bool
  | .espnow, packet => decide (0 < packet.length ∧ packet.length ≤ maxMtu)
  | .lora, packet => decide (packet.length ≤ loraMaxPacket)
  | _, _ => false

/-- A packet arrives and its receive path calls `acquire`. -/
def arrive (sys : RxSystem) (agent : RxAgent) (packet : List UInt8) : RxSystem :=
  if accepts agent packet = true ∧ sys.job agent = none ∧ sys.tasks.pc agent = .idle then
    { sys with tasks := sys.tasks.step (.acquire agent) }.setJob agent (some packet)
  else sys

/-- The queue a packet goes to; without a type byte the fallback queue, which is the
high priority one. -/
def target (packet : List UInt8) : RxAgent :=
  if packet = [] ∨ isHighPri packet = true then .hiQueue else .loQueue

/-- What a receive path does once `acquire` has returned: without a slab it drops the
packet; otherwise it sends the slab to the queue. A full queue makes it release the slab
again, except on the fallback path, which does not look at the result. -/
def deliver (sys : RxSystem) (agent : RxAgent) : RxSystem :=
  match sys.job agent, sys.tasks.pc agent with
  | some packet, .idle =>
      let done := sys.setJob agent none
      match sys.tasks.held agent with
      | [] => done
      | slab :: _ =>
          if (sys.tasks.held (target packet)).length < rxQueueDepth then
            { done with tasks := sys.tasks.step (.hand agent (target packet) slab) }
          else if packet = [] then
            { done with
              tasks := { sys.tasks with
                held := Function.update sys.tasks.held agent
                  ((sys.tasks.held agent).erase slab) } }
          else { done with tasks := sys.tasks.step (.release agent slab) }
  | _, _ => sys

/-- The mesh loop takes the oldest entry of a queue. -/
def receive (sys : RxSystem) (queue : RxAgent) : RxSystem :=
  if (queue = .hiQueue ∨ queue = .loQueue) ∧ sys.tasks.pc .mesh = .idle ∧
      sys.tasks.held .mesh = [] then
    match (sys.tasks.held queue).getLast? with
    | none => sys
    | some slab => { sys with tasks := sys.tasks.step (.hand queue .mesh slab) }
  else sys

/-- The mesh loop has processed its slab and releases it. -/
def processed (sys : RxSystem) : RxSystem :=
  match sys.tasks.held .mesh with
  | [] => sys
  | slab :: _ => { sys with tasks := sys.tasks.step (.release .mesh slab) }

inductive Action where
  | arrive (agent : RxAgent) (packet : List UInt8)
  | access (agent : RxAgent) (spurious : Bool)
  | deliver (agent : RxAgent)
  | receive (queue : RxAgent)
  | processed
deriving Repr, DecidableEq

def step (sys : RxSystem) : Action → RxSystem
  | .arrive agent packet => sys.arrive agent packet
  | .access agent spurious => { sys with tasks := sys.tasks.step (.advance agent spurious) }
  | .deliver agent => sys.deliver agent
  | .receive queue => sys.receive queue
  | .processed => sys.processed

def run (sys : RxSystem) (actions : List Action) : RxSystem := actions.foldl step sys

end RxSystem

end ForestLink.Transport
