/-
Module: ForestLink.Transport.EspNowTx
Purpose: The transmit side of `EspNowTransport` (`espnow_transport.cpp`, `send` and
  `on_send`): two counting semaphores and the ring that remembers the pool of each
  slot, one access at a time.
Trusted boundary: `esp_now_send` calls `on_send` once for each accepted frame, in order.
Main exports: isCtrlPacket, EspNowTx, EspNowTx.step, EspNowTx.run
-/
import Mathlib.Logic.Function.Basic

namespace ForestLink.Transport

/-- `TX_CTRL_DEPTH` -/
def txCtrlDepth : Nat := 8

/-- `TX_DATA_DEPTH` -/
def txDataDepth : Nat := 20

/-- `TX_SLOT_DEPTH` -/
def txSlotDepth : Nat := txCtrlDepth + txDataDepth

/-- `ESP_NOW_MAX_DATA_LEN_V2` -/
def espNowMaxDataLen : Nat := 1470

/-- The packet types that `send` treats as control: ACK, NACK, TRANSFER_ACK, DISCOVERY,
ROUTE_ERROR, ROUTE_REPLY and TRANSFER_DONE. -/
def ctrlTypes : List Nat := [0x02, 0x03, 0x21, 0x10, 0x13, 0x12, 0x23]

/-- The class of a packet: the low six bits of its first byte; an empty packet is
data. -/
def isCtrlPacket : List UInt8 → Bool
  | [] => false
  | first :: _ => ctrlTypes.contains (first.toNat &&& 0x3F)

/-- Where `send` stands, with the class of its packet. -/
inductive SendPc where
  | idle
  | record (isCtrl : Bool)
  | advance (isCtrl : Bool)
  | submit (isCtrl : Bool)
  | rewind (isCtrl : Bool)
  | giveBack (isCtrl : Bool)
deriving Repr, DecidableEq

/-- Where `on_send` stands, with the class of the frame it was called for, which it
does not see. -/
inductive CallbackPc where
  | idle
  | start (frame : Bool)
  | load (frame : Bool) (ridx : Nat)
  | advance (frame : Bool) (ridx : Nat) (isCtrl : Bool)
  | give (frame : Bool) (isCtrl : Bool)
deriving Repr, DecidableEq

/-- The transmit state: free slots, the class ring, the sending task, the callback, and
the classes of the frames that the driver has accepted and not yet reported. -/
structure EspNowTx where
  ctrlSlots : Nat := txCtrlDepth
  dataSlots : Nat := txDataDepth
  txSlotClass : Nat → Bool := fun _ => false
  txRingWrite : Nat := 0
  txRingRead : Nat := 0
  sender : SendPc := .idle
  callback : CallbackPc := .idle
  flying : List Bool := []

namespace EspNowTx

/-- Free slots of a class. -/
def slots (tx : EspNowTx) (isCtrl : Bool) : Nat := if isCtrl then tx.ctrlSlots else tx.dataSlots

def setSlots (tx : EspNowTx) (isCtrl : Bool) (value : Nat) : EspNowTx :=
  if isCtrl then { tx with ctrlSlots := value } else { tx with dataSlots := value }

@[simp] theorem setSlots_txSlotClass (tx : EspNowTx) (isCtrl : Bool) (value : Nat) :
    (tx.setSlots isCtrl value).txSlotClass = tx.txSlotClass := by
  cases isCtrl <;> rfl

@[simp] theorem setSlots_txRingWrite (tx : EspNowTx) (isCtrl : Bool) (value : Nat) :
    (tx.setSlots isCtrl value).txRingWrite = tx.txRingWrite := by
  cases isCtrl <;> rfl

@[simp] theorem setSlots_txRingRead (tx : EspNowTx) (isCtrl : Bool) (value : Nat) :
    (tx.setSlots isCtrl value).txRingRead = tx.txRingRead := by
  cases isCtrl <;> rfl

@[simp] theorem setSlots_sender (tx : EspNowTx) (isCtrl : Bool) (value : Nat) :
    (tx.setSlots isCtrl value).sender = tx.sender := by
  cases isCtrl <;> rfl

@[simp] theorem setSlots_callback (tx : EspNowTx) (isCtrl : Bool) (value : Nat) :
    (tx.setSlots isCtrl value).callback = tx.callback := by
  cases isCtrl <;> rfl

@[simp] theorem setSlots_flying (tx : EspNowTx) (isCtrl : Bool) (value : Nat) :
    (tx.setSlots isCtrl value).flying = tx.flying := by
  cases isCtrl <;> rfl

/-- The maximum of a class. -/
def depth (isCtrl : Bool) : Nat := if isCtrl then txCtrlDepth else txDataDepth

/-- `xSemaphoreGive` of a counting semaphore: refused at the maximum. -/
def give (tx : EspNowTx) (isCtrl : Bool) : EspNowTx :=
  if tx.slots isCtrl < depth isCtrl then tx.setSlots isCtrl (tx.slots isCtrl + 1) else tx

@[simp] theorem give_txSlotClass (tx : EspNowTx) (isCtrl : Bool) :
    (tx.give isCtrl).txSlotClass = tx.txSlotClass := by
  unfold give
  split <;> simp

@[simp] theorem give_txRingWrite (tx : EspNowTx) (isCtrl : Bool) :
    (tx.give isCtrl).txRingWrite = tx.txRingWrite := by
  unfold give
  split <;> simp

@[simp] theorem give_txRingRead (tx : EspNowTx) (isCtrl : Bool) :
    (tx.give isCtrl).txRingRead = tx.txRingRead := by
  unfold give
  split <;> simp

@[simp] theorem give_sender (tx : EspNowTx) (isCtrl : Bool) :
    (tx.give isCtrl).sender = tx.sender := by
  unfold give
  split <;> simp

@[simp] theorem give_callback (tx : EspNowTx) (isCtrl : Bool) :
    (tx.give isCtrl).callback = tx.callback := by
  unfold give
  split <;> simp

@[simp] theorem give_flying (tx : EspNowTx) (isCtrl : Bool) :
    (tx.give isCtrl).flying = tx.flying := by
  unfold give
  split <;> simp

/-- `send` up to and including the semaphore: a packet that is too long or finds no slot
in time is refused. -/
def call (tx : EspNowTx) (packet : List UInt8) : EspNowTx :=
  if tx.sender = .idle ∧ packet.length ≤ espNowMaxDataLen ∧
      0 < tx.slots (isCtrlPacket packet) then
    { tx.setSlots (isCtrlPacket packet) (tx.slots (isCtrlPacket packet) - 1) with
      sender := .record (isCtrlPacket packet) }
  else tx

/-- The next access of `send`. `accepted` says whether the peer is known and
`esp_now_send` returns ESP_OK. -/
def advanceSend (tx : EspNowTx) (accepted : Bool) : EspNowTx :=
  match tx.sender with
  | .idle => tx
  | .record isCtrl =>
      { tx with
        txSlotClass := Function.update tx.txSlotClass tx.txRingWrite isCtrl
        sender := .advance isCtrl }
  | .advance isCtrl =>
      { tx with
        txRingWrite := (tx.txRingWrite + 1) % txSlotDepth
        sender := .submit isCtrl }
  | .submit isCtrl =>
      if accepted then { tx with flying := tx.flying ++ [isCtrl], sender := .idle }
      else { tx with sender := .rewind isCtrl }
  | .rewind isCtrl =>
      { tx with
        txRingWrite := (tx.txRingWrite + txSlotDepth - 1) % txSlotDepth
        sender := .giveBack isCtrl }
  | .giveBack isCtrl => { tx.give isCtrl with sender := .idle }

/-- The driver reports the oldest accepted frame. -/
def complete (tx : EspNowTx) : EspNowTx :=
  match tx.callback, tx.flying with
  | .idle, frame :: rest => { tx with callback := .start frame, flying := rest }
  | _, _ => tx

/-- The next access of `on_send`. -/
def advanceCallback (tx : EspNowTx) : EspNowTx :=
  match tx.callback with
  | .idle => tx
  | .start frame => { tx with callback := .load frame tx.txRingRead }
  | .load frame ridx => { tx with callback := .advance frame ridx (tx.txSlotClass ridx) }
  | .advance frame ridx isCtrl =>
      { tx with
        txRingRead := (ridx + 1) % txSlotDepth
        callback := .give frame isCtrl }
  | .give _ isCtrl => { tx.give isCtrl with callback := .idle }

inductive Action where
  | call (packet : List UInt8)
  | advanceSend (accepted : Bool)
  | complete
  | advanceCallback
deriving Repr, DecidableEq

def step (tx : EspNowTx) : Action → EspNowTx
  | .call packet => tx.call packet
  | .advanceSend accepted => tx.advanceSend accepted
  | .complete => tx.complete
  | .advanceCallback => tx.advanceCallback

def run (tx : EspNowTx) (actions : List Action) : EspNowTx := actions.foldl step tx

end EspNowTx

end ForestLink.Transport
