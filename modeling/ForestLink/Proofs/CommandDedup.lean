/-
Module: ForestLink.Proofs.CommandDedup
Purpose: Which mesh commands the duplicate filter of `handle_mesh_cmd` ignores: it looks
  at the command executed last and at the clock, not at the data.
Trusted boundary: none
Main exports: MeshManager.Delivery, deliver, lastExecuted, Repeats, command_ignored_iff_repeats,
  led_off_ignored_after_led_on
-/
import ForestLink.Proofs.MeshCalls

namespace ForestLink.Mesh.MeshManager

open ForestLink.Lib
open ForestLink.Protocol

variable {m : MeshManager}

/-! ## Deliveries -/

/-- A command payload that reaches `handle_mesh_cmd`, over the mesh or from the cloud. -/
structure Delivery where
  env : MeshEnv := {}
  cmdId : UInt8
  data : List UInt8 := []
deriving Repr, DecidableEq

/-- The clock reading at the delivery. -/
def Delivery.now (d : Delivery) : Nat := d.env.commandMs % 2 ^ 32

def deliver (m : MeshManager) (d : Delivery) : MeshManager :=
  (m.setEnv d.env).handleMeshCmd (d.cmdId :: d.data)

def deliverAll (m : MeshManager) (deliveries : List Delivery) : MeshManager :=
  deliveries.foldl deliver m

/-- The duplicate filter drops the delivery. -/
def ignores (m : MeshManager) (d : Delivery) : Bool :=
  m.ignoresMeshCmd d.cmdId.toNat d.now

/-- The command that was executed last since the node booted; a reboot boots it. -/
def lastExecuted (m : MeshManager) (last : Option Delivery) : List Delivery → Option Delivery
  | [] => last
  | d :: rest =>
      lastExecuted (m.deliver d)
        (if m.ignores d then last
          else if d.cmdId.toNat = MeshCmd.reboot then none
          else some d)
        rest

/-- The delivery has the command id of the command executed last, less than two seconds of
the 32-bit clock ago; the filter of a booted node stands for id 0xFF at clock zero. -/
def Repeats (d : Delivery) : Option Delivery → Prop
  | some last => d.cmdId = last.cmdId ∧ sub32 d.now last.now < 2000
  | none => d.cmdId = 0xFF ∧ d.now < 2000

instance (d : Delivery) (last : Option Delivery) : Decidable (Repeats d last) := by
  unfold Repeats
  split <;> infer_instance

/-! ## What the filter remembers -/

/-- The filter stands for the command executed last. -/
def Remembers (m : MeshManager) : Option Delivery → Prop
  | some last => m.lastMeshCmdId = last.cmdId.toNat ∧ m.lastMeshCmdMs = last.now
  | none => m.lastMeshCmdId = 0xFF ∧ m.lastMeshCmdMs = 0

theorem ignores_iff_repeats {last : Option Delivery} (remembers : m.Remembers last)
    (d : Delivery) : m.ignores d = true ↔ Repeats d last := by
  unfold ignores ignoresMeshCmd
  rw [Bool.and_eq_true, beq_iff_eq, decide_eq_true_iff]
  cases last with
  | none =>
      obtain ⟨id, time⟩ := remembers
      rw [id, time]
      have small : d.now < 2 ^ 32 := Nat.mod_lt _ (by decide)
      have same : sub32 d.now 0 = d.now := by
        rw [sub32_eq (Nat.zero_le _), Nat.sub_zero, Nat.mod_eq_of_lt small]
      rw [same]
      exact and_congr_left fun _ => UInt8.toNat_inj (b := 0xFF)
  | some last =>
      obtain ⟨id, time⟩ := remembers
      rw [id, time]
      exact and_congr_left fun _ => UInt8.toNat_inj

/-- A delivery that is dropped changes nothing, any other one is executed. -/
theorem deliver_eq (m : MeshManager) (d : Delivery) :
    m.deliver d =
      if m.ignores d then m.setEnv d.env
      else ((m.setEnv d.env).noteMeshCmd d.cmdId.toNat d.now).executeMeshCmd d.cmdId.toNat
        d.data := rfl

/-- Sending does not touch the filter. -/
theorem filter_via_traffic {addr : Nat} {received : Option MeshPacket} {after : MeshManager}
    (via : Via apply (Traffic addr received) m after) :
    after.lastMeshCmdId = m.lastMeshCmdId ∧ after.lastMeshCmdMs = m.lastMeshCmdMs := by
  apply via.keeps fun state =>
    state.lastMeshCmdId = m.lastMeshCmdId ∧ state.lastMeshCmdMs = m.lastMeshCmdMs
  · intro state change traffic before
    cases change with
    | emit _ | answer _ | route _ => exact before
    | _ => exact traffic.elim
  · exact ⟨rfl, rfl⟩

theorem Remembers.deliver {last : Option Delivery} (remembers : m.Remembers last)
    (d : Delivery) :
    (m.deliver d).Remembers
      (if m.ignores d then last
        else if d.cmdId.toNat = MeshCmd.reboot then none
        else some d) := by
  rw [deliver_eq]
  cases m.ignores d with
  | true =>
      rw [if_pos rfl, if_pos rfl]
      cases last <;> exact remembers
  | false =>
      rw [if_neg Bool.false_ne_true, if_neg Bool.false_ne_true]
      by_cases reboots : d.cmdId.toNat = MeshCmd.reboot
      · rw [if_pos reboots, reboots, executeMeshCmd_reboot]
        exact ⟨rfl, rfl⟩
      · rw [if_neg reboots]
        have traffic : Via apply (Traffic m.myAddr none)
            ((m.setEnv d.env).noteMeshCmd d.cmdId.toNat d.now)
            (((m.setEnv d.env).noteMeshCmd d.cmdId.toNat d.now).executeMeshCmd d.cmdId.toNat
              d.data) := executeMeshCmd_traffic rfl reboots d.data
        exact filter_via_traffic traffic

theorem Remembers.deliverAll {last : Option Delivery} (remembers : m.Remembers last)
    (deliveries : List Delivery) :
    (m.deliverAll deliveries).Remembers (lastExecuted m last deliveries) := by
  induction deliveries generalizing m last with
  | nil => exact remembers
  | cons d rest inductionHypothesis => exact inductionHypothesis (remembers.deliver d)

/-- In every sequence of deliveries a command is dropped if and only if its id is that of
the command executed last since the node booted, less than two seconds ago by the 32-bit
clock, whatever its data; a booted node drops id 0xFF in its first two seconds. A command
that is not dropped is executed. -/
theorem command_ignored_iff_repeats (myAddr : Nat) (blockedPeers : List Nat)
    (subscribedTopics : List (List UInt8)) (ledEnabled : Bool) (before : List Delivery)
    (d : Delivery) :
    let booted := boot myAddr blockedPeers subscribedTopics ledEnabled
    let m := booted.deliverAll before
    let last := booted.lastExecuted none before
    (m.ignores d = true ↔ Repeats d last) ∧
      (Repeats d last → m.deliver d = m.setEnv d.env) ∧
      (¬ Repeats d last →
        m.deliver d =
          ((m.setEnv d.env).noteMeshCmd d.cmdId.toNat d.now).executeMeshCmd d.cmdId.toNat
            d.data) := by
  intro booted m last
  have start : booted.Remembers none := ⟨rfl, rfl⟩
  have ignored := ignores_iff_repeats (start.deliverAll before) d
  refine ⟨ignored, fun repeats => ?_, fun fresh => ?_⟩
  · rw [deliver_eq, if_pos (ignored.mpr repeats)]
  · rw [deliver_eq, if_neg fun dropped => fresh (ignored.mp dropped)]

/-! ## LED on, LED off -/

/-- Half a second after LED on, LED off is dropped as a duplicate, although no command with
its data was ever executed. -/
theorem led_off_ignored_after_led_on :
    let ledOn : Delivery := { env := { commandMs := 5000 }, cmdId := 0x04, data := [1] }
    let ledOff : Delivery := { env := { commandMs := 5500 }, cmdId := 0x04, data := [0] }
    ((boot 0x0101 [] [] true).deliverAll [ledOn]).ignores ledOff = true ∧
      ∀ earlier ∈ [ledOn], ¬ (earlier.cmdId = ledOff.cmdId ∧ earlier.data = ledOff.data) := by
  decide +kernel

end ForestLink.Mesh.MeshManager
