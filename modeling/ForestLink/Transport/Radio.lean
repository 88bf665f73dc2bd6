/-
Module: ForestLink.Transport.Radio
Purpose: What the two radios answer to a send and whether they took the packet
  (`EspNowTransport::send`, `LoraTransport::send_raw`, `itransport.hpp`).
Trusted boundary: `esp_now_send`, the semaphores and the radio interrupt are answers of the
  surroundings; `ESP_ERR_TIMEOUT` is the constant of ESP-IDF.
Main exports: EspNowRadio.send, LoraRadio.sendRaw, Radios.send
-/
import ForestLink.Mesh.Manager
import ForestLink.Transport.EspNowTx
import ForestLink.Transport.Receive

namespace ForestLink.Transport

open ForestLink.Protocol
open ForestLink.Mesh (Transport)

/-- `TRANSPORT_SEND_OK` -/
def transportSendOk : Int := 0

/-- `TRANSPORT_SEND_FAILED` -/
def transportSendFailed : Int := -1

/-- `ESP_ERR_TIMEOUT` -/
def espErrTimeout : Int := 0x107

/-- What `esp_now_send` returns. -/
inductive EspNowSendResult where
  | ok
  | noMem
  | failed
deriving Repr, DecidableEq

/-- What one `send` over ESP-NOW meets: a free slot in time, the peer in the table, and the
driver's answer. -/
structure EspNowRadio where
  slotFree : Bool := true
  peerKnown : Bool := true
  driver : EspNowSendResult := .ok
deriving Repr, DecidableEq

/-- `EspNowTransport::send`: the result, and whether the driver took the packet. -/
def EspNowRadio.send (radio : EspNowRadio) (peer len : Nat) : Int × Bool :=
  if len > espNowMaxDataLen then (transportSendFailed, false)
  else if !radio.slotFree then (sendBackpressure, false)
  else if peer ≠ broadcastAddr ∧ radio.peerKnown = false then (transportSendFailed, false)
  else
    match radio.driver with
    | .ok => (transportSendOk, true)
    | .noMem => (sendBackpressure, false)
    | .failed => (transportSendFailed, false)

/-- What one `send_raw` over LoRa meets: the radio is initialised, its mutex comes within
200 ms, and the end of the transmission is reported within five seconds. -/
structure LoraRadio where
  initialized : Bool := true
  mutexTaken : Bool := true
  txDone : Bool := true
deriving Repr, DecidableEq

/-- `LoraTransport::send_raw`: the result, and whether the radio was set to transmit. -/
def LoraRadio.sendRaw (radio : LoraRadio) (len : Nat) : Int × Bool :=
  if !radio.initialized then (-1, false)
  else if len > loraMaxPacket then (-1, false)
  else if !radio.mutexTaken then (espErrTimeout, false)
  else if !radio.txDone then (-1, true)
  else (0, true)

/-- Both radios during one `send_packet`. -/
structure Radios where
  espnow : EspNowRadio := {}
  lora : LoraRadio := {}
deriving Repr, DecidableEq

/-- `ITransport::send`; LoRa ignores the peer. -/
def Radios.send (radios : Radios) (transport : Transport) (peer len : Nat) : Int × Bool :=
  match transport with
  | .espnow => radios.espnow.send peer len
  | .lora => radios.lora.sendRaw len

/-- The one answer that is neither a failure nor a transmission: the LoRa mutex was not
free in time. -/
theorem Radios.silent_iff (radios : Radios) (transport : Transport) (peer len : Nat)
    (short : len ≤ loraMaxPacket) :
    (0 ≤ (radios.send transport peer len).1 ∧ (radios.send transport peer len).2 = false) ↔
      transport = .lora ∧ radios.lora.initialized = true ∧ radios.lora.mutexTaken = false := by
  have fits : ¬ len > espNowMaxDataLen := not_lt.mpr (short.trans (by decide))
  cases transport with
  | espnow =>
      simp only [send, EspNowRadio.send, if_neg fits]
      split
      · simp [sendBackpressure]
      split
      · simp [transportSendFailed]
      · cases radios.espnow.driver <;>
          simp [sendBackpressure, transportSendFailed]
  | lora =>
      simp only [send, LoraRadio.sendRaw, if_neg (not_lt.mpr short)]
      cases radios.lora.initialized <;> cases radios.lora.mutexTaken <;>
        cases radios.lora.txDone <;> simp [espErrTimeout]

end ForestLink.Transport
