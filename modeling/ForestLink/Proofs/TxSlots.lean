/-
Module: ForestLink.Proofs.TxSlots
Purpose: Transmit slot accounting of the ESP-NOW transport: the class ring holds the
  frames in flight in order, and no slot is lost or returned to the wrong pool.
Trusted boundary: none
Main exports: EspNowTx.inRing, EspNowTx.inFlight, EspNowTx.Accounted, Accounted.step,
  EspNowTx.Returns, tx_slots_accounted
-/
import Mathlib.Data.Bool.Count
import ForestLink.Lib.Ring
import ForestLink.Lib.Trace
import ForestLink.Transport.EspNowTx

namespace ForestLink.Transport

open ForestLink.Lib

/-- The frame of `send` whose ring entry lies before the write index. -/
def SendPc.entry : SendPc → List Bool
  | .submit isCtrl | .rewind isCtrl => [isCtrl]
  | _ => []

/-- The frame of `send` that holds a slot. -/
def SendPc.holds : SendPc → List Bool
  | .idle => []
  | .record isCtrl | .advance isCtrl | .submit isCtrl | .rewind isCtrl
  | .giveBack isCtrl => [isCtrl]

/-- The frame of `on_send` whose ring entry is not read yet. -/
def CallbackPc.entry : CallbackPc → List Bool
  | .start frame | .load frame _ | .advance frame _ _ => [frame]
  | _ => []

/-- The frame of `on_send` that holds a slot. -/
def CallbackPc.holds : CallbackPc → List Bool
  | .idle => []
  | .start frame | .load frame _ | .advance frame _ _ | .give frame _ => [frame]

/-- The frame of `send` and the accesses made for it. -/
def SendPc.progress : SendPc → Option (Bool × Nat)
  | .idle => none
  | .record isCtrl => some (isCtrl, 0)
  | .advance isCtrl => some (isCtrl, 1)
  | .submit isCtrl => some (isCtrl, 2)
  | .rewind isCtrl => some (isCtrl, 3)
  | .giveBack isCtrl => some (isCtrl, 4)

/-- The frame of `on_send` and the accesses made for it. -/
def CallbackPc.progress : CallbackPc → Option (Bool × Nat)
  | .idle => none
  | .start frame => some (frame, 0)
  | .load frame _ => some (frame, 1)
  | .advance frame _ _ => some (frame, 2)
  | .give frame _ => some (frame, 3)

namespace EspNowTx

variable {tx : EspNowTx}

/-- An access of `send` after its call. -/
def Action.isSend : Action → Bool
  | .advanceSend _ => true
  | _ => false

/-- An access of `on_send`. -/
def Action.isCallback : Action → Bool
  | .advanceCallback => true
  | _ => false

/-- The frames with an unread ring entry, oldest first: the one being reported, those
that fly, and the one being submitted. -/
def inRing (tx : EspNowTx) : List Bool := tx.callback.entry ++ tx.flying ++ tx.sender.entry

/-- The frames that hold a slot. -/
def inFlight (tx : EspNowTx) : List Bool := tx.callback.holds ++ tx.flying ++ tx.sender.holds

/-- Between calls and callbacks both are the frames that the driver has accepted. -/
theorem inRing_quiescent (sendIdle : tx.sender = .idle) (callbackIdle : tx.callback = .idle) :
    tx.inRing = tx.flying ∧ tx.inFlight = tx.flying := by
  simp [inRing, inFlight, sendIdle, callbackIdle, SendPc.entry, SendPc.holds,
    CallbackPc.entry, CallbackPc.holds]

/-! ## The invariant -/

structure Accounted (tx : EspNowTx) : Prop where
  readInside : tx.txRingRead < txSlotDepth
  entries : Ring.window txSlotDepth tx.txSlotClass tx.txRingRead tx.inRing.length = tx.inRing
  write : tx.txRingWrite = Ring.position txSlotDepth tx.txRingRead tx.inRing.length
  free : ∀ isCtrl, tx.slots isCtrl + tx.inFlight.count isCtrl = depth isCtrl
  recorded : ∀ isCtrl, tx.sender = .advance isCtrl → tx.txSlotClass tx.txRingWrite = isCtrl
  loading : ∀ frame ridx, tx.callback = .load frame ridx → ridx = tx.txRingRead
  loaded : ∀ frame ridx isCtrl, tx.callback = .advance frame ridx isCtrl →
    ridx = tx.txRingRead ∧ isCtrl = frame
  giving : ∀ frame isCtrl, tx.callback = .give frame isCtrl → isCtrl = frame

namespace Accounted

/-- All frames that hold a slot fit into the ring. -/
theorem inFlight_le (accounted : tx.Accounted) : tx.inFlight.length ≤ txSlotDepth := by
  have ctrl := accounted.free true
  have data := accounted.free false
  rw [← List.count_true_add_count_false]
  change _ ≤ depth true + depth false
  omega

/-- A frame that holds a slot and has no entry yet leaves room in the ring. -/
theorem room (accounted : tx.Accounted) (isCtrl : Bool) (holds : tx.sender.holds = [isCtrl])
    (noEntry : tx.sender.entry = []) : tx.inRing.length < txSlotDepth := by
  have fits := accounted.inFlight_le
  have callback : tx.callback.entry.length ≤ tx.callback.holds.length := by
    cases tx.callback <;> simp [CallbackPc.entry, CallbackPc.holds]
  unfold inFlight at fits
  unfold inRing
  rw [holds] at fits
  rw [noEntry]
  simp only [List.length_append, List.length_singleton, List.length_nil] at fits ⊢
  omega

/-! ## The semaphores -/

theorem slots_setSlots (tx : EspNowTx) (isCtrl other : Bool) (value : Nat) :
    (tx.setSlots isCtrl value).slots other = if other = isCtrl then value else tx.slots other := by
  cases isCtrl <;> cases other <;> simp [setSlots, slots]

theorem slots_give (accounted : tx.Accounted) {isCtrl : Bool}
    (held : isCtrl ∈ tx.inFlight) (other : Bool) :
    (tx.give isCtrl).slots other =
      if other = isCtrl then tx.slots isCtrl + 1 else tx.slots other := by
  have positive := List.count_pos_iff.mpr held
  have total := accounted.free isCtrl
  have notFull : tx.slots isCtrl < depth isCtrl := by omega
  unfold give
  rw [if_pos notFull, slots_setSlots]

/-- The pools balance when a frame leaves those in flight and its slot is given back. -/
theorem free_give (accounted : tx.Accounted) {isCtrl : Bool} {rest : List Bool}
    (leaves : tx.inFlight.Perm (isCtrl :: rest)) (other : Bool) :
    (tx.give isCtrl).slots other + rest.count other = depth other := by
  have held : isCtrl ∈ tx.inFlight := leaves.mem_iff.mpr List.mem_cons_self
  have before := accounted.free other
  rw [leaves.count_eq, List.count_cons] at before
  rw [slots_give accounted held]
  by_cases same : other = isCtrl
  · subst same
    simp only [beq_self_eq_true, if_true] at before ⊢
    omega
  · have apart : ¬ (isCtrl == other) = true := by simpa using fun eq => same eq.symm
    rw [if_neg apart] at before
    rw [if_neg same]
    exact before

/-! ## The steps of `send` -/

theorem call (accounted : tx.Accounted) (packet : List UInt8) : (tx.call packet).Accounted := by
  unfold EspNowTx.call
  split
  · rename_i taken
    obtain ⟨idle, _, some⟩ := taken
    have ring : inRing { tx.setSlots (isCtrlPacket packet)
        (tx.slots (isCtrlPacket packet) - 1) with
        sender := .record (isCtrlPacket packet) } = tx.inRing := by
      simp [inRing, idle, SendPc.entry]
    refine ⟨?_, ?_, ?_, ?_, by simp, ?_, ?_, ?_⟩
    · simpa using accounted.readInside
    · rw [ring]
      simpa using accounted.entries
    · rw [ring]
      simpa using accounted.write
    · intro isCtrl
      have before := accounted.free isCtrl
      have slots := slots_setSlots tx (isCtrlPacket packet) isCtrl
        (tx.slots (isCtrlPacket packet) - 1)
      change (tx.setSlots _ _).slots isCtrl + _ = _
      rw [slots]
      simp only [inFlight, idle, SendPc.holds, setSlots_callback, setSlots_flying,
        List.append_nil, List.count_append] at before ⊢
      by_cases same : isCtrl = isCtrlPacket packet
      · subst same
        rw [if_pos rfl, List.count_singleton_self]
        omega
      · rw [if_neg same, List.count_singleton, if_neg (by simpa using fun eq => same eq.symm)]
        omega
    · simpa using accounted.loading
    · simpa using accounted.loaded
    · simpa using accounted.giving
  · exact accounted

/-- The ring entry is written where nothing unread is. -/
theorem record (accounted : tx.Accounted) {isCtrl : Bool} (here : tx.sender = .record isCtrl) :
    Accounted { tx with
      txSlotClass := Function.update tx.txSlotClass tx.txRingWrite isCtrl
      sender := .advance isCtrl } := by
  have room := accounted.room isCtrl (by rw [here]; rfl) (by rw [here]; rfl)
  have ring : inRing { tx with
      txSlotClass := Function.update tx.txSlotClass tx.txRingWrite isCtrl
      sender := .advance isCtrl } = tx.inRing := by
    simp [inRing, here, SendPc.entry]
  have entries := accounted.entries
  refine ⟨accounted.readInside, ?_, ?_, ?_, ?_, accounted.loading, accounted.loaded,
    accounted.giving⟩
  · rw [ring]
    change Ring.window _ (Function.update tx.txSlotClass tx.txRingWrite isCtrl)
      tx.txRingRead _ = _
    rw [accounted.write, Ring.window_frame _ _ room]
    exact entries
  · rw [ring]
    exact accounted.write
  · intro other
    have before := accounted.free other
    unfold inFlight at before ⊢
    rw [here] at before
    exact before
  · intro other same
    obtain rfl := SendPc.advance.inj same
    exact Function.update_self ..

theorem inRing_submit {isCtrl : Bool} (sender : SendPc) (entry : tx.sender.entry = [])
    (next : sender.entry = [isCtrl]) (write : Nat) :
    inRing { tx with txRingWrite := write, sender := sender } = tx.inRing ++ [isCtrl] := by
  unfold inRing
  rw [entry, next, List.append_nil]

/-- The write index moves behind the recorded entry. -/
theorem advance (accounted : tx.Accounted) {isCtrl : Bool} (here : tx.sender = .advance isCtrl) :
    Accounted { tx with
      txRingWrite := (tx.txRingWrite + 1) % txSlotDepth
      sender := .submit isCtrl } := by
  have ring : inRing { tx with
      txRingWrite := (tx.txRingWrite + 1) % txSlotDepth
      sender := .submit isCtrl } = tx.inRing ++ [isCtrl] :=
    inRing_submit (.submit isCtrl) (by rw [here]; rfl) rfl _
  have cell := accounted.recorded isCtrl here
  rw [accounted.write] at cell
  refine ⟨accounted.readInside, ?_, ?_, ?_, by simp, accounted.loading, accounted.loaded,
    accounted.giving⟩
  · rw [ring, List.length_append, List.length_singleton]
    change Ring.window _ tx.txSlotClass tx.txRingRead _ = _
    have longer : Ring.window txSlotDepth tx.txSlotClass tx.txRingRead (tx.inRing.length + 1) =
        Ring.window txSlotDepth tx.txSlotClass tx.txRingRead tx.inRing.length ++
          [tx.txSlotClass (Ring.position txSlotDepth tx.txRingRead tx.inRing.length)] := by
      unfold Ring.window
      rw [List.range_succ, List.map_append, List.map_singleton]
    rw [longer, accounted.entries, cell]
  · rw [ring, List.length_append, List.length_singleton, ← Ring.position_add,
      ← accounted.write]
    rfl
  · intro other
    have before := accounted.free other
    unfold inFlight at before ⊢
    rw [here] at before
    exact before

/-- The driver accepts the frame: it flies behind the others. -/
theorem accept (accounted : tx.Accounted) {isCtrl : Bool} (here : tx.sender = .submit isCtrl) :
    Accounted { tx with flying := tx.flying ++ [isCtrl], sender := .idle } := by
  have ring : inRing { tx with flying := tx.flying ++ [isCtrl], sender := .idle } =
      tx.inRing := by
    simp [inRing, here, SendPc.entry]
  have flight : inFlight { tx with flying := tx.flying ++ [isCtrl], sender := .idle } =
      tx.inFlight := by
    simp [inFlight, here, SendPc.holds]
  refine ⟨accounted.readInside, ring ▸ accounted.entries, ring ▸ accounted.write, ?_, by simp,
    accounted.loading, accounted.loaded, accounted.giving⟩
  rw [flight]
  exact accounted.free

/-- The driver or the peer table refuses the frame. -/
theorem refuse (accounted : tx.Accounted) {isCtrl : Bool} (here : tx.sender = .submit isCtrl) :
    Accounted { tx with sender := .rewind isCtrl } := by
  have ring : inRing { tx with sender := .rewind isCtrl } = tx.inRing := by
    simp [inRing, here, SendPc.entry]
  have flight : inFlight { tx with sender := .rewind isCtrl } = tx.inFlight := by
    simp [inFlight, here, SendPc.holds]
  refine ⟨accounted.readInside, ring ▸ accounted.entries, ring ▸ accounted.write, ?_, by simp,
    accounted.loading, accounted.loaded, accounted.giving⟩
  rw [flight]
  exact accounted.free

/-- The entry of a refused frame is the newest one, and is taken back. -/
theorem rewind (accounted : tx.Accounted) {isCtrl : Bool} (here : tx.sender = .rewind isCtrl) :
    Accounted { tx with
      txRingWrite := (tx.txRingWrite + txSlotDepth - 1) % txSlotDepth
      sender := .giveBack isCtrl } := by
  have ring : tx.inRing = inRing { tx with
      txRingWrite := (tx.txRingWrite + txSlotDepth - 1) % txSlotDepth
      sender := .giveBack isCtrl } ++ [isCtrl] := by
    simp [inRing, here, SendPc.entry]
  have entries := accounted.entries
  have write := accounted.write
  rw [ring, List.length_append, List.length_singleton] at entries write
  refine ⟨accounted.readInside, ?_, ?_, ?_, by simp, accounted.loading, accounted.loaded,
    accounted.giving⟩
  · rw [Ring.window_unpush]
    change (Ring.window _ tx.txSlotClass tx.txRingRead _).dropLast = _
    rw [entries, List.dropLast_concat]
  · change (tx.txRingWrite + txSlotDepth - 1) % txSlotDepth = _
    rw [write]
    exact Ring.position_pred (by decide) _ _
  · intro other
    have before := accounted.free other
    unfold inFlight at before ⊢
    rw [here] at before
    exact before

/-- The slot of a refused frame returns to its pool. -/
theorem giveBack (accounted : tx.Accounted) {isCtrl : Bool}
    (here : tx.sender = .giveBack isCtrl) :
    Accounted { tx.give isCtrl with sender := .idle } := by
  have leaves : tx.inFlight.Perm (isCtrl :: (tx.callback.holds ++ tx.flying)) := by
    unfold inFlight
    rw [here]
    exact List.perm_append_singleton isCtrl _
  have ring : inRing { tx.give isCtrl with sender := .idle } = tx.inRing := by
    simp [inRing, here, SendPc.entry]
  refine ⟨?_, ?_, ?_, ?_, by simp, ?_, ?_, ?_⟩
  · simpa using accounted.readInside
  · rw [ring]
    simpa using accounted.entries
  · rw [ring]
    simpa using accounted.write
  · intro other
    have balanced := accounted.free_give leaves other
    change (tx.give isCtrl).slots other + _ = _
    simpa [inFlight, SendPc.holds] using balanced
  · simpa using accounted.loading
  · simpa using accounted.loaded
  · simpa using accounted.giving

theorem advanceSend (accounted : tx.Accounted) (accepted : Bool) :
    (tx.advanceSend accepted).Accounted := by
  unfold EspNowTx.advanceSend
  cases here : tx.sender with
  | idle => exact accounted
  | record isCtrl => exact accounted.record here
  | advance isCtrl => exact accounted.advance here
  | submit isCtrl =>
      cases accepted with
      | true => exact accounted.accept here
      | false => exact accounted.refuse here
  | rewind isCtrl => exact accounted.rewind here
  | giveBack isCtrl => exact accounted.giveBack here

/-! ## The steps of `on_send` -/

/-- The oldest flying frame is reported. -/
theorem complete (accounted : tx.Accounted) : tx.complete.Accounted := by
  unfold EspNowTx.complete
  split
  · rename_i frame rest idle flying
    have ring : inRing { tx with callback := .start frame, flying := rest } = tx.inRing := by
      simp [inRing, idle, flying, CallbackPc.entry]
    have flight : inFlight { tx with callback := .start frame, flying := rest } =
        tx.inFlight := by
      simp [inFlight, idle, flying, CallbackPc.holds]
    refine ⟨accounted.readInside, ring ▸ accounted.entries, ring ▸ accounted.write, ?_,
      accounted.recorded, by simp, by simp, by simp⟩
    rw [flight]
    exact accounted.free
  · exact accounted

/-- A step of `on_send` that leaves the ring and the slots alone. -/
theorem callback_quiet (accounted : tx.Accounted) {callback : CallbackPc}
    (entry : callback.entry = tx.callback.entry) (holds : callback.holds = tx.callback.holds)
    (loading : ∀ frame ridx, callback = .load frame ridx → ridx = tx.txRingRead)
    (loaded : ∀ frame ridx isCtrl, callback = .advance frame ridx isCtrl →
      ridx = tx.txRingRead ∧ isCtrl = frame)
    (giving : ∀ frame isCtrl, callback = .give frame isCtrl → isCtrl = frame) :
    Accounted { tx with callback := callback } := by
  have ring : inRing { tx with callback := callback } = tx.inRing := by
    simp [inRing, entry]
  have flight : inFlight { tx with callback := callback } = tx.inFlight := by
    simp [inFlight, holds]
  refine ⟨accounted.readInside, ring ▸ accounted.entries, ring ▸ accounted.write, ?_,
    accounted.recorded, loading, loaded, giving⟩
  rw [flight]
  exact accounted.free

/-- The entry at the read index is that of the reported frame. -/
theorem class_at_read (accounted : tx.Accounted) {frame : Bool}
    (entry : tx.callback.entry = [frame]) : tx.txSlotClass tx.txRingRead = frame := by
  have entries := accounted.entries
  have ring : tx.inRing = frame :: (tx.flying ++ tx.sender.entry) := by
    simp [inRing, entry]
  rw [ring, List.length_cons, Ring.window_pop _ accounted.readInside] at entries
  exact (List.cons.inj entries).1

/-- The read index moves behind the entry of the reported frame. -/
theorem read (accounted : tx.Accounted) {frame isCtrl : Bool} {ridx : Nat}
    (here : tx.callback = .advance frame ridx isCtrl) :
    Accounted { tx with
      txRingRead := (ridx + 1) % txSlotDepth
      callback := .give frame isCtrl } := by
  obtain ⟨rfl, rfl⟩ := accounted.loaded frame ridx isCtrl here
  have ring : tx.inRing = isCtrl :: inRing { tx with
      txRingRead := (tx.txRingRead + 1) % txSlotDepth
      callback := .give isCtrl isCtrl } := by
    simp [inRing, here, CallbackPc.entry]
  have entries := accounted.entries
  have write := accounted.write
  rw [ring, List.length_cons] at entries write
  rw [Ring.window_pop _ accounted.readInside] at entries
  refine ⟨Nat.mod_lt _ (by decide), (List.cons.inj entries).2, ?_, ?_, accounted.recorded,
    by simp, by simp, by simp⟩
  · rw [Nat.add_comm, ← Ring.position_add] at write
    exact write
  · intro other
    have before := accounted.free other
    unfold inFlight at before ⊢
    rw [here] at before
    exact before

/-- The slot of the reported frame returns to its pool. -/
theorem handBack (accounted : tx.Accounted) {frame isCtrl : Bool}
    (here : tx.callback = .give frame isCtrl) :
    Accounted { tx.give isCtrl with callback := .idle } := by
  obtain rfl := accounted.giving frame isCtrl here
  have leaves : tx.inFlight.Perm (isCtrl :: (tx.flying ++ tx.sender.holds)) := by
    unfold inFlight
    rw [here]
    exact .refl _
  have ring : inRing { tx.give isCtrl with callback := .idle } = tx.inRing := by
    simp [inRing, here, CallbackPc.entry]
  refine ⟨?_, ?_, ?_, ?_, ?_, by simp, by simp, by simp⟩
  · simpa using accounted.readInside
  · rw [ring]
    simpa using accounted.entries
  · rw [ring]
    simpa using accounted.write
  · intro other
    have balanced := accounted.free_give leaves other
    change (tx.give isCtrl).slots other + _ = _
    simpa [inFlight, CallbackPc.holds] using balanced
  · simpa using accounted.recorded

theorem advanceCallback (accounted : tx.Accounted) : tx.advanceCallback.Accounted := by
  unfold EspNowTx.advanceCallback
  cases here : tx.callback with
  | idle => exact accounted
  | start frame =>
      apply accounted.callback_quiet
      · rw [here]
        rfl
      · rw [here]
        rfl
      · rintro _ ridx same
        exact (CallbackPc.load.inj same).2.symm
      · simp
      · simp
  | load frame ridx =>
      have read := accounted.loading frame ridx here
      have cell : tx.txSlotClass tx.txRingRead = frame :=
        accounted.class_at_read (by rw [here]; rfl)
      apply accounted.callback_quiet
      · rw [here]
        rfl
      · rw [here]
        rfl
      · simp
      · rintro other index isCtrl same
        obtain ⟨rfl, rfl, rfl⟩ := CallbackPc.advance.inj same
        exact ⟨read, read ▸ cell⟩
      · simp
  | advance frame ridx isCtrl => exact accounted.read here
  | give frame isCtrl => exact accounted.handBack here

/-! ## Runs -/

theorem step (accounted : tx.Accounted) (action : Action) : (tx.step action).Accounted := by
  cases action with
  | call packet => exact accounted.call packet
  | advanceSend accepted => exact accounted.advanceSend accepted
  | complete => exact accounted.complete
  | advanceCallback => exact accounted.advanceCallback

theorem init : Accounted {} := by
  refine ⟨by decide, rfl, rfl, ?_, by simp, by simp, by simp, by simp⟩
  intro isCtrl
  cases isCtrl <;> rfl

theorem run (accounted : tx.Accounted) (actions : List Action) : (tx.run actions).Accounted := by
  induction actions generalizing tx with
  | nil => exact accounted
  | cons action rest inductionHypothesis => exact inductionHypothesis (accounted.step action)

end Accounted

/-! ## Slots that return -/

/-- A step returns one slot, to the pool of the frame. -/
def Returns (tx after : EspNowTx) (frame : Bool) : Prop :=
  after.slots frame = tx.slots frame + 1 ∧ after.slots (!frame) = tx.slots (!frame)

namespace Accounted

theorem returns_give (accounted : tx.Accounted) {isCtrl : Bool} (held : isCtrl ∈ tx.inFlight) :
    tx.Returns (tx.give isCtrl) isCtrl := by
  refine ⟨?_, ?_⟩
  · rw [accounted.slots_give held, if_pos rfl]
  · rw [accounted.slots_give held, if_neg (Bool.not_ne_self isCtrl)]

theorem returns_callback (accounted : tx.Accounted) {frame isCtrl : Bool}
    (here : tx.callback = .give frame isCtrl) :
    tx.advanceCallback.callback = .idle ∧ tx.Returns tx.advanceCallback frame := by
  obtain rfl := accounted.giving frame isCtrl here
  have held : isCtrl ∈ tx.inFlight := by simp [inFlight, here, CallbackPc.holds]
  have moved : tx.advanceCallback = { tx.give isCtrl with callback := .idle } := by
    unfold EspNowTx.advanceCallback
    rw [here]
  rw [moved]
  exact ⟨rfl, accounted.returns_give held⟩

theorem returns_send (accounted : tx.Accounted) {isCtrl : Bool} (accepted : Bool)
    (here : tx.sender = .giveBack isCtrl) :
    (tx.advanceSend accepted).sender = .idle ∧ tx.Returns (tx.advanceSend accepted) isCtrl := by
  have held : isCtrl ∈ tx.inFlight := by simp [inFlight, here, SendPc.holds]
  have moved : tx.advanceSend accepted = { tx.give isCtrl with sender := .idle } := by
    unfold EspNowTx.advanceSend
    rw [here]
  rw [moved]
  exact ⟨rfl, accounted.returns_give held⟩

end Accounted

/-! ## Progress -/

theorem give_of_progress {frame : Bool} (last : tx.callback.progress = some (frame, 3)) :
    ∃ isCtrl, tx.callback = .give frame isCtrl := by
  cases here : tx.callback with
  | give other isCtrl =>
      rw [here] at last
      obtain rfl := (Prod.mk.inj (Option.some.inj last)).1
      exact ⟨isCtrl, rfl⟩
  | _ => simp [here, CallbackPc.progress] at last

theorem submit_of_progress {isCtrl : Bool} (last : tx.sender.progress = some (isCtrl, 2)) :
    tx.sender = .submit isCtrl := by
  cases here : tx.sender with
  | submit other =>
      rw [here] at last
      rw [(Prod.mk.inj (Option.some.inj last)).1]
  | _ => simp [here, SendPc.progress] at last

theorem giveBack_of_progress {isCtrl : Bool} (last : tx.sender.progress = some (isCtrl, 4)) :
    tx.sender = .giveBack isCtrl := by
  cases here : tx.sender with
  | giveBack other =>
      rw [here] at last
      rw [(Prod.mk.inj (Option.some.inj last)).1]
  | _ => simp [here, SendPc.progress] at last

/-- `on_send` keeps its frame to the end; only its own accesses move it on. -/
theorem callback_paced :
    Paced step (fun tx => tx.callback.progress) Action.isCallback (· < 3) where
  moves {tx action frame k} here own before := by
    cases action with
    | advanceCallback =>
        change tx.advanceCallback.callback.progress = _
        unfold advanceCallback
        cases callback : tx.callback with
        | idle =>
            rw [callback] at here
            contradiction
        | give other isCtrl =>
            rw [callback] at here
            obtain ⟨_, rfl⟩ := Prod.mk.inj (Option.some.inj here)
            contradiction
        | _ =>
            rw [callback] at here
            obtain ⟨rfl, rfl⟩ := Prod.mk.inj (Option.some.inj here)
            rfl
    | _ => contradiction
  waits {tx action} busy other := by
    refine congrArg CallbackPc.progress ?_
    cases action with
    | call packet =>
        unfold step call
        dsimp only
        split
        · exact setSlots_callback ..
        · rfl
    | advanceSend accepted =>
        unfold step advanceSend
        dsimp only
        split
        · rfl
        · rfl
        · rfl
        · split <;> rfl
        · rfl
        · exact give_callback ..
    | complete =>
        unfold step complete
        dsimp only
        split
        · rename_i idle _
          exact absurd (congrArg CallbackPc.progress idle) busy
        · rfl
    | advanceCallback => contradiction

/-- `send` keeps its frame up to the driver's answer, and after a refusal to the end; only
its own accesses move it on. -/
theorem send_paced :
    Paced step (fun tx => tx.sender.progress) Action.isSend (fun k => k < 4 ∧ k ≠ 2) where
  moves {tx action isCtrl k} here own ahead := by
    cases action with
    | advanceSend accepted =>
        change (tx.advanceSend accepted).sender.progress = _
        unfold advanceSend
        cases sender : tx.sender with
        | idle =>
            rw [sender] at here
            contradiction
        | submit other =>
            rw [sender] at here
            obtain ⟨_, rfl⟩ := Prod.mk.inj (Option.some.inj here)
            exact absurd rfl ahead.2
        | giveBack other =>
            rw [sender] at here
            obtain ⟨_, rfl⟩ := Prod.mk.inj (Option.some.inj here)
            exact absurd ahead.1 (Nat.lt_irrefl 4)
        | _ =>
            rw [sender] at here
            obtain ⟨rfl, rfl⟩ := Prod.mk.inj (Option.some.inj here)
            rfl
    | _ => contradiction
  waits {tx action} busy other := by
    refine congrArg SendPc.progress ?_
    cases action with
    | call packet =>
        unfold step call
        dsimp only
        rw [if_neg fun taken => busy (congrArg SendPc.progress taken.1)]
    | advanceSend accepted => contradiction
    | complete =>
        unfold step complete
        dsimp only
        split <;> rfl
    | advanceCallback =>
        unfold step advanceCallback
        dsimp only
        split
        · rfl
        · rfl
        · rfl
        · rfl
        · exact give_sender ..

/-- In every state of every interleaving of `send` with `on_send`: the unread ring
entries are the classes of the frames in flight, in order; free and used slots of each
pool add up to its depth; a frame that is reported or refused returns its slot to the
pool it came from; and an entry is written only where no unread one is.  The driver
reports the accepted frames in order; whatever the other side does meanwhile, the fourth
access of `on_send` for a frame and the second of `send` after a refusal hand the slot of
that frame back. -/
theorem tx_slots_accounted (actions : List Action) :
    let tx := run {} actions
    Ring.window txSlotDepth tx.txSlotClass tx.txRingRead tx.inRing.length = tx.inRing ∧
      tx.txRingWrite = Ring.position txSlotDepth tx.txRingRead tx.inRing.length ∧
      tx.ctrlSlots + tx.inFlight.count true = txCtrlDepth ∧
      tx.dataSlots + tx.inFlight.count false = txDataDepth ∧
      (tx.sender = .idle → tx.callback = .idle →
        tx.inRing = tx.flying ∧ tx.inFlight = tx.flying) ∧
      (∀ frame isCtrl, tx.callback = .give frame isCtrl →
        tx.advanceCallback.slots frame = tx.slots frame + 1 ∧
          tx.advanceCallback.slots (!frame) = tx.slots (!frame)) ∧
      (∀ isCtrl accepted, tx.sender = .giveBack isCtrl →
        (tx.advanceSend accepted).slots isCtrl = tx.slots isCtrl + 1 ∧
          (tx.advanceSend accepted).slots (!isCtrl) = tx.slots (!isCtrl)) ∧
      (∀ isCtrl, tx.sender = .record isCtrl → ∀ k, k < tx.inRing.length →
        Ring.position txSlotDepth tx.txRingRead k ≠ tx.txRingWrite) ∧
      (∀ frame rest, tx.callback = .idle → tx.flying = frame :: rest →
        tx.complete.callback = .start frame ∧ tx.complete.flying = rest) ∧
      (∀ frame, tx.callback = .start frame → ∀ more, more.countP Action.isCallback = 3 →
        (tx.run more).advanceCallback.callback = .idle ∧
          (tx.run more).Returns (tx.run more).advanceCallback frame) ∧
      (∀ isCtrl, tx.sender = .record isCtrl → ∀ more, more.countP Action.isSend = 2 →
        (tx.run more).sender = .submit isCtrl) ∧
      (∀ isCtrl, tx.sender = .submit isCtrl →
        (tx.advanceSend true).flying = tx.flying ++ [isCtrl] ∧
        ∀ more, more.countP Action.isSend = 1 → ∀ accepted,
          let last := (tx.advanceSend false).run more
          (last.advanceSend accepted).sender = .idle ∧
            last.Returns (last.advanceSend accepted) isCtrl) := by
  intro tx
  have accounted : tx.Accounted := Accounted.init.run actions
  refine ⟨accounted.entries, accounted.write, accounted.free true, accounted.free false,
    inRing_quiescent, fun frame isCtrl here => (accounted.returns_callback here).2,
    fun isCtrl accepted here => (accounted.returns_send accepted here).2, ?_, ?_, ?_, ?_, ?_⟩
  · intro isCtrl here k before same
    have room := accounted.room isCtrl (by rw [here]; rfl) (by rw [here]; rfl)
    rw [accounted.write] at same
    exact absurd (Ring.position_injective (before.trans room) room same) (Nat.ne_of_lt before)
  · intro frame rest idle flying
    unfold complete
    rw [idle, flying]
    exact ⟨rfl, rfl⟩
  · intro frame start more accesses
    have here : tx.callback.progress = some (frame, 0) := by
      rw [start]
      rfl
    have last : (tx.run more).callback.progress = some (frame, 0 + 3) :=
      accesses ▸ callback_paced.run here fun k _ before => by omega
    obtain ⟨isCtrl, giving⟩ := give_of_progress last
    exact (accounted.run more).returns_callback giving
  · intro isCtrl start more accesses
    have here : tx.sender.progress = some (isCtrl, 0) := by
      rw [start]
      rfl
    have last : (tx.run more).sender.progress = some (isCtrl, 0 + 2) :=
      accesses ▸ send_paced.run here fun k _ before => by omega
    exact submit_of_progress last
  · intro isCtrl start
    refine ⟨?_, fun more accesses accepted => ?_⟩
    · unfold advanceSend
      rw [start]
      rfl
    · have here : (tx.advanceSend false).sender.progress = some (isCtrl, 3) := by
        unfold advanceSend
        rw [start]
        rfl
      have last : ((tx.advanceSend false).run more).sender.progress = some (isCtrl, 3 + 1) :=
        accesses ▸ send_paced.run here fun k _ before => by omega
      exact ((accounted.advanceSend false).run more).returns_send accepted
        (giveBack_of_progress last)

/-- An ACK was accepted and is reported while a data packet waits for the driver's
answer. -/
def reportedRun : List Action :=
  [.call [0x02], .advanceSend true, .advanceSend true, .advanceSend true, .call [0x01],
    .advanceSend true, .advanceSend true, .complete]

/-- The data packet is refused while the callback runs. -/
def refusedMeanwhile : List Action :=
  [.advanceCallback, .advanceSend false, .advanceCallback, .advanceSend false, .advanceCallback]

/-- Both slots return to their pools, and then all slots are free. -/
theorem tx_slots_return_after_refusal :
    let tx := run {} reportedRun
    let last := tx.run refusedMeanwhile
    let done := last.advanceCallback.advanceSend false
    tx.callback = .start true ∧ tx.sender = .submit false ∧
      tx.ctrlSlots = 7 ∧ tx.dataSlots = 19 ∧ last.Returns last.advanceCallback true ∧
      done.ctrlSlots = txCtrlDepth ∧ done.dataSlots = txDataDepth := by
  have start : (run {} reportedRun).callback = .start true := by decide
  obtain ⟨_, _, _, _, _, _, _, _, _, completed, _⟩ := tx_slots_accounted reportedRun
  have returns := (completed true start refusedMeanwhile (by decide)).2
  exact ⟨start, by decide, by decide, by decide, returns, by decide, by decide⟩

end EspNowTx

end ForestLink.Transport
