/-
Module: ForestLink.Proofs.SentPayloads
Purpose: Windows that hold the recorded bytes of their fragments send nothing else, and what
  this means for the surroundings of the transfer engine.
Trusted boundary: none
Main exports: SelectiveRepeat.Speaks, Output.Carries, Io.Speaks, Recorded, Quiet
-/
import ForestLink.Lib.Trace
import ForestLink.Mesh.Engine
import ForestLink.Proofs.MeshFrames
import ForestLink.Proofs.SenderInvariant

namespace ForestLink.Protocol.SelectiveRepeat

variable {σ : Type} {radio : Radio σ} {made : Nat → List UInt8} {later : σ → σ → Prop}
  {sr : SelectiveRepeat}

/-! ## One window -/

/-- `later` is a relation along which a window moves the radio as long as it sends the
recorded bytes. -/
structure Speaks (radio : Radio σ) (made : Nat → List UInt8) (later : σ → σ → Prop) : Prop where
  refl : ∀ io, later io io
  trans : ∀ {first second third}, later first second → later second third → later first third
  nowMs : ∀ io, later io (radio.nowMs io).2
  send : ∀ io dst seq, later io (radio.send io dst .data seq (made seq)).2

theorem Speaks.sendFragment (speaks : Speaks radio made later) (io : σ) (sr : SelectiveRepeat)
    (seq : Nat) : later io (SelectiveRepeat.sendFragment radio io sr seq (made seq)).2.2 := by
  have transmitted := speaks.trans (speaks.nowMs io)
    (speaks.send (radio.nowMs io).2 sr.peerAddr seq)
  have outcome := sendFragment_outcome radio io sr seq (made seq)
  generalize SelectiveRepeat.sendFragment radio io sr seq (made seq) = result at outcome ⊢
  cases outcome with
  | duplicate sent tag => exact speaks.refl io
  | refused => exact speaks.refl io
  | failed free negative => exact transmitted
  | placed free nonempty accepted => exact transmitted

theorem Speaks.handleAck (speaks : Speaks radio made later) (io : σ) (sr : SelectiveRepeat)
    (seq : Nat) : later io (SelectiveRepeat.handleAck radio io sr seq).2 := by
  unfold SelectiveRepeat.handleAck
  dsimp only
  split
  · exact speaks.refl io
  split
  · exact speaks.nowMs io
  · exact speaks.refl io

theorem Genuine.slotOf (genuine : sr.Genuine made) (sized : 0 < sr.windowSize) {seq : Nat}
    (active : sr.acknowledges seq = true) : (sr.slotOf seq).data = made seq := by
  have inUse : sr.slotIndex seq ∈ sr.occupied :=
    mem_occupied.mpr ⟨Nat.mod_lt seq sized, sent_of_acknowledges active⟩
  have tag : (sr.slotOf seq).seqTag = seq := by
    simp only [acknowledges, Bool.and_eq_true, beq_iff_eq] at active
    exact active.1.2
  exact (genuine _ inUse).trans (congrArg made tag)

theorem Speaks.handleNack (speaks : Speaks radio made later) (genuine : sr.Genuine made)
    (sized : 0 < sr.windowSize) (io : σ) (seq : Nat) :
    later io (SelectiveRepeat.handleNack radio io sr seq).2 := by
  have transmitted (active : sr.acknowledges seq = true) : later io
      (radio.send (radio.nowMs io).2 sr.peerAddr .data seq (sr.slotOf seq).data).2 := by
    rw [genuine.slotOf sized active]
    exact speaks.trans (speaks.nowMs io) (speaks.send (radio.nowMs io).2 sr.peerAddr seq)
  have outcome := handleNack_outcome radio io sr seq
  generalize SelectiveRepeat.handleNack radio io sr seq = result at outcome ⊢
  cases outcome with
  | ignored => exact speaks.refl io
  | putOff active busy => exact transmitted active
  | failed active negative => exact transmitted active
  | resent active accepted time failed => exact transmitted active

theorem Genuine.touch (genuine : sr.Genuine made) (index sendTimeMs retries : Nat) :
    (sr.setSlot index
      { sr.window index with sendTimeMs := sendTimeMs, retries := retries }).Genuine made := by
  refine genuine.sameFragments ⟨rfl, rfl, ?_, ?_, ?_, ?_⟩
  all_goals
    intro other
    by_cases same : other = index
    · simp [setSlot, same]
    · simp [setSlot, same]

theorem Speaks.tickSlots (speaks : Speaks radio made later) (genuine : sr.Genuine made)
    (now maxSends : Nat) {indices : List Nat} (inside : ∀ index ∈ indices, index < sr.windowSize)
    (io : σ) (sentCount : Nat) :
    later io (SelectiveRepeat.tickSlots radio now maxSends indices io sr sentCount).2.2 := by
  induction indices generalizing io sr sentCount with
  | nil => exact speaks.refl io
  | cons index rest inductionHypothesis =>
      have behind : ∀ later ∈ rest, later < sr.windowSize := fun later member =>
        inside later (List.mem_cons_of_mem _ member)
      have transmitted (sent : (sr.window index).sent = true) : later io (radio.send io
          sr.peerAddr .data (sr.window index).seqTag (sr.window index).data).2 := by
        rw [genuine index (mem_occupied.mpr ⟨inside index List.mem_cons_self, sent⟩)]
        exact speaks.send io sr.peerAddr _
      have outcome := tickSlots_outcome radio now maxSends index rest io sr sentCount
      generalize SelectiveRepeat.tickSlots radio now maxSends (index :: rest) io sr sentCount =
        result at outcome ⊢
      cases outcome with
      | skipped => exact inductionHypothesis genuine behind io sentCount
      | spent => exact speaks.refl io
      | putOff sent busy => exact transmitted sent
      | failed sent negative => exact transmitted sent
      | resent sent more accepted =>
          exact speaks.trans (transmitted sent)
            (inductionHypothesis (genuine.touch index now _) behind _ (sentCount + 1))

theorem Speaks.tick (speaks : Speaks radio made later) (genuine : sr.Genuine made) (io : σ)
    (maxSends : Nat) : later io (SelectiveRepeat.tick radio io sr maxSends).2.2 :=
  speaks.trans (speaks.nowMs io)
    (speaks.tickSlots genuine _ maxSends (fun _ member => List.mem_range.mp member) _ 0)

/-! ## What stays recorded -/

theorem Genuine.sendFragment (genuine : sr.Genuine made) (radio : Radio σ) (io : σ) (seq : Nat) :
    (SelectiveRepeat.sendFragment radio io sr seq (made seq)).2.1.Genuine made := by
  have outcome := sendFragment_outcome radio io sr seq (made seq)
  generalize SelectiveRepeat.sendFragment radio io sr seq (made seq) = result at outcome ⊢
  cases outcome with
  | duplicate sent tag => exact genuine
  | refused => exact genuine
  | failed free negative => exact genuine.vacate rfl rfl
  | placed free nonempty accepted => exact genuine.place

theorem Genuine.handleAck (genuine : sr.Genuine made) (radio : Radio σ) (io : σ) (seq : Nat) :
    (SelectiveRepeat.handleAck radio io sr seq).1.Genuine made := by
  obtain ⟨srtt, rttvar, rto, initialized, sampledEq⟩ := sampled_eq radio io sr seq
  rw [handleAck_eq, sampledEq]
  split
  · exact genuine.vacate rfl rfl
  · exact genuine

theorem sendFragment_windowSize (radio : Radio σ) (io : σ) (sr : SelectiveRepeat) (seq : Nat)
    (data : List UInt8) :
    (SelectiveRepeat.sendFragment radio io sr seq data).2.1.windowSize = sr.windowSize := by
  have outcome := sendFragment_outcome radio io sr seq data
  generalize SelectiveRepeat.sendFragment radio io sr seq data = result at outcome ⊢
  cases outcome <;> rfl

theorem handleAck_windowSize (radio : Radio σ) (io : σ) (sr : SelectiveRepeat) (seq : Nat) :
    (SelectiveRepeat.handleAck radio io sr seq).1.windowSize = sr.windowSize := by
  obtain ⟨srtt, rttvar, rto, initialized, sampledEq⟩ := sampled_eq radio io sr seq
  rw [handleAck_eq, sampledEq]
  split <;> rfl

theorem genuine_resetSender (sr : SelectiveRepeat) (made : Nat → List UInt8) :
    sr.resetSender.Genuine made := by
  intro index inUse
  simp [SelectiveRepeat.resetSender, occupied] at inUse

end ForestLink.Protocol.SelectiveRepeat

namespace ForestLink.Mesh

open ForestLink.Lib
open ForestLink.Protocol

variable {made : Nat → List UInt8}

/-! ## Surroundings -/

/-- A data packet carries the recorded bytes of its sequence number. -/
def Output.Carries (made : Nat → List UInt8) : Output → Prop
  | .sent _ .data seq payload _ => payload = made seq
  | _ => True

namespace Io

/-- The surroundings later in the same call: data packets carried the recorded bytes, and reads
that were not cut are not cut now. -/
structure Speaks (made : Nat → List UInt8) (io after : Io) : Prop where
  outputs : Extends (Output.Carries made) io.outputs after.outputs
  full : io.env.readLimits = [] → after.env.readLimits = []

theorem Speaks.refl (made : Nat → List UInt8) (io : Io) : Speaks made io io := ⟨.refl .., id⟩

theorem Speaks.trans {first second third : Io} (left : Speaks made first second)
    (right : Speaks made second third) : Speaks made first third :=
  ⟨left.outputs.trans right.outputs, fun limits => right.full (left.full limits)⟩

theorem speaks_same {io after : Io} (outputs : after.outputs = io.outputs)
    (limits : after.env.readLimits = io.env.readLimits) : Speaks made io after :=
  ⟨outputs ▸ .refl .., fun full => limits.trans full⟩

theorem speaks_output {io after : Io} {output : Output} (carries : output.Carries made)
    (outputs : after.outputs = output :: io.outputs)
    (limits : after.env.readLimits = io.env.readLimits) : Speaks made io after :=
  ⟨outputs ▸ .cons carries _, fun full => limits.trans full⟩

theorem speaks_emit (io : Io) {output : Output} (carries : output.Carries made) :
    Speaks made io (io.emit output) :=
  speaks_output carries rfl rfl

theorem speaks_nowMs (io : Io) : Speaks made io io.nowMs.2 := speaks_same rfl rfl

theorem speaks_sendPacket (io : Io) (dst : Nat) {type : PacketType} {payload : List UInt8}
    {seq : Nat} (right : type = .data → payload = made seq) :
    Speaks made io (io.sendPacket dst type payload seq).2 := by
  have carries : ∀ result,
      (Output.sent dst type (io.airSeq type seq) payload result).Carries made := by
    intro result
    cases type with
    | data => exact right rfl
    | _ => trivial
  unfold sendPacket
  dsimp only
  split <;> exact speaks_output (carries _) rfl rfl

theorem speaks_forwardToMqtt (io : Io) (session seq srcNode : Nat) (data filename : List UInt8) :
    Speaks made io (io.forwardToMqtt session seq srcNode data filename).2 := by
  have carries : ∀ queued,
      (Output.toMqtt session seq srcNode data filename queued).Carries made := fun _ => trivial
  exact speaks_output (carries _) rfl rfl

theorem readChunk_full {io : Io} (full : io.env.readLimits = []) (file : Nat → Nat → List UInt8)
    (offset len : Nat) :
    io.readChunk (some file) offset len = ((file offset len).take len, io) := by
  simp [readChunk, full]

theorem speaks_readChunk (io : Io) (file : Option (Nat → Nat → List UInt8)) (offset len : Nat) :
    Speaks made io (io.readChunk file offset len).2 := by
  unfold readChunk
  dsimp only
  split
  · exact .refl made io
  · rename_i limit rest limits
    exact ⟨.refl .., fun full => absurd (limits.symm.trans full) (List.cons_ne_nil _ _)⟩

theorem speaks_radio : SelectiveRepeat.Speaks radio made (Speaks made) where
  refl := .refl made
  trans := .trans
  nowMs := speaks_nowMs
  send io dst _ := speaks_sendPacket io dst fun _ => rfl

end Io

namespace TransferEngine

variable {F : Type} {e after : TransferEngine F}

/-! ## Quiet stages -/

/-- The part of the state that decides which bytes are sent next. -/
structure Coding where
  active : Bool
  localExit : Bool
  readChunk : Option (Nat → Nat → List UInt8)
  size : Nat
  fragmentSize : Nat
  fragmentCount : Nat
  nextFragment : Nat
  encoder : FecEncoder
  retryType : PacketType

def coding (e : TransferEngine F) : Coding where
  active := e.transfer.active
  localExit := e.localExit
  readChunk := e.transfer.readChunk
  size := e.transfer.size
  fragmentSize := e.transfer.fragmentSize
  fragmentCount := e.transfer.fragmentCount
  nextFragment := e.transfer.nextFragment
  encoder := e.fecEncoder
  retryType := e.broadcastRetry.type

/-- The windows hold the recorded bytes, and no parity waits for redistribution. -/
structure Recorded (made : Nat → List UInt8) (e : TransferEngine F) : Prop where
  genuine : ∀ index, (e.arq index).Genuine made
  sized : ∀ index, 0 < (e.arq index).windowSize
  waiting : ∀ seq ∈ e.redistPending, isParitySlot seq = false

/-- A stage that sends only recorded bytes and leaves the rest of the coding alone. -/
structure Quiet (made : Nat → List UInt8) (e after : TransferEngine F) : Prop where
  coding : after.coding = e.coding
  recorded : Recorded made e → Recorded made after
  speaks : Recorded made e → Io.Speaks made e.io after.io

theorem Quiet.refl (made : Nat → List UInt8) (e : TransferEngine F) : Quiet made e e :=
  ⟨rfl, id, fun _ => .refl made e.io⟩

theorem Quiet.trans {first second third : TransferEngine F} (left : Quiet made first second)
    (right : Quiet made second third) : Quiet made first third :=
  ⟨right.coding.trans left.coding, fun recorded => right.recorded (left.recorded recorded),
    fun recorded => (left.speaks recorded).trans (right.speaks (left.recorded recorded))⟩

/-- Only fields outside the windows changed. -/
theorem quiet_fields (coding : after.coding = e.coding) (arq : after.arq = e.arq)
    (redist : after.redistPending = e.redistPending) (speaks : Io.Speaks made e.io after.io) :
    Quiet made e after :=
  ⟨coding, fun recorded =>
    ⟨arq ▸ recorded.genuine, arq ▸ recorded.sized, redist ▸ recorded.waiting⟩, fun _ => speaks⟩

theorem quiet_nowMs (e : TransferEngine F) : Quiet made e e.nowMs.2 :=
  quiet_fields rfl rfl rfl (Io.speaks_nowMs e.io)

theorem quiet_setEnv (e : TransferEngine F) {env : Env}
    (limits : env.readLimits = e.io.env.readLimits) : Quiet made e (e.setEnv env) :=
  quiet_fields rfl rfl rfl (Io.speaks_same rfl limits)

theorem quiet_emit (e : TransferEngine F) {output : Output} (carries : output.Carries made) :
    Quiet made e (e.emit output) :=
  quiet_fields rfl rfl rfl (Io.speaks_emit e.io carries)

theorem quiet_sendPacket (e : TransferEngine F) (dst : Nat) {type : PacketType}
    {payload : List UInt8} {seq : Nat} (right : type = .data → payload = made seq) :
    Quiet made e (e.sendPacket dst type payload seq).2 :=
  quiet_fields rfl rfl rfl (Io.speaks_sendPacket e.io dst right)

theorem quiet_signalCongestion (e : TransferEngine F) : Quiet made e e.signalCongestion :=
  quiet_fields rfl rfl rfl (Io.speaks_same rfl rfl)

/-- One window is exchanged for one that holds the recorded bytes. -/
theorem quiet_setArq (e : TransferEngine F) {index : Nat} {sr : SelectiveRepeat} {io : Io}
    (genuine : (e.arq index).Genuine made → sr.Genuine made)
    (size : sr.windowSize = (e.arq index).windowSize)
    (speaks : Recorded made e → Io.Speaks made e.io io) :
    Quiet made e { e.setArq index sr with io := io } := by
  have holds : Recorded made e → ∀ other, ((e.setArq index sr).arq other).Genuine made ∧
      0 < ((e.setArq index sr).arq other).windowSize := by
    intro recorded other
    by_cases here : other = index
    · subst here
      simpa [setArq, size] using ⟨genuine (recorded.genuine other), recorded.sized other⟩
    · simpa [setArq, here] using ⟨recorded.genuine other, recorded.sized other⟩
  exact ⟨rfl, fun recorded => ⟨fun other => (holds recorded other).1,
    fun other => (holds recorded other).2, recorded.waiting⟩, speaks⟩

/-- A window takes the recorded bytes of a fragment, or refuses an empty one. -/
theorem quiet_sendFragment (e : TransferEngine F) (index seq : Nat) {data : List UInt8}
    (right : data = made seq ∨ data = []) : Quiet made e (e.sendFragment index seq data).2 := by
  rcases right with rfl | rfl
  · exact quiet_setArq e (fun genuine => genuine.sendFragment Io.radio e.io seq)
      (SelectiveRepeat.sendFragment_windowSize ..)
      fun _ => Io.speaks_radio.sendFragment e.io (e.arq index) seq
  · exact quiet_setArq e id rfl fun _ => .refl made e.io

/-! ## Retransmission -/

theorem quiet_tickArq (e : TransferEngine F) (index budget : Nat) :
    Quiet made e (e.tickArq index budget).2 := by
  have same := SelectiveRepeat.tick_sameFragments Io.radio e.io (e.arq index) budget
  exact quiet_setArq e (fun genuine => genuine.sameFragments same) same.windowSize
    fun recorded => Io.speaks_radio.tick (recorded.genuine index) e.io budget

theorem quiet_nackWindow (e : TransferEngine F) (index seq : Nat) :
    Quiet made e (e.nackWindow index seq) := by
  have same := SelectiveRepeat.handleNack_sameFragments Io.radio e.io (e.arq index) seq
  have sent : Quiet made e
      { e.setArq index (SelectiveRepeat.handleNack Io.radio e.io (e.arq index) seq).1 with
        io := (SelectiveRepeat.handleNack Io.radio e.io (e.arq index) seq).2 } :=
    quiet_setArq e (fun genuine => genuine.sameFragments same) same.windowSize
      fun recorded => Io.speaks_radio.handleNack (recorded.genuine index) (recorded.sized index)
        e.io seq
  exact sent.trans (quiet_fields rfl rfl rfl (.refl ..))

theorem quiet_handleAck [PathArith F] (e : TransferEngine F) (seq fromAddr : Nat) :
    Quiet made e (e.handleAck seq fromAddr) := by
  unfold handleAck
  split
  · exact .refl made e
  · rename_i index _
    have clock : Quiet made e e.nowMs.2 := quiet_nowMs e
    have released := clock.trans (quiet_setArq e.nowMs.2
      (fun genuine : (e.nowMs.2.arq index).Genuine made => genuine.handleAck Io.radio
        e.nowMs.2.io seq)
      (SelectiveRepeat.handleAck_windowSize ..)
      fun _ => Io.speaks_radio.handleAck e.nowMs.2.io (e.arq index) seq)
    dsimp only
    split
    · exact released.trans (quiet_fields rfl rfl rfl (.refl ..))
    · exact released

/-! ## Routine stages -/

theorem carries_of_isNotice {output : Output} (notice : output.isNotice = true) :
    output.Carries made := by
  cases output with
  | sent => exact absurd notice Bool.false_ne_true
  | _ => trivial

theorem stamped_quiet (made : Nat → List UInt8) (now : Nat) :
    Stamped now (Quiet made : TransferEngine F → TransferEngine F → Prop) where
  refl := .refl made
  trans := .trans
  nowMs := quiet_nowMs
  setEnv e _ _ _ limits := quiet_setEnv e limits
  notice e _ notice := quiet_emit e (carries_of_isNotice notice)
  sendPacket e dst _ _ _ noData _ := quiet_sendPacket e dst fun isData => absurd isData noData
  readChunk e _ _ _ := quiet_fields rfl rfl rfl (Io.speaks_readChunk e.io _ _ _)
  retry e retry same := by
    refine quiet_fields ?_ rfl rfl (.refl made e.io)
    change { e.coding with retryType := retry.type } = e.coding
    rw [same]
    rfl
  oowQueue e _ := quiet_fields rfl rfl rfl (.refl made e.io)
  oowRing e _ _ _ := quiet_fields rfl rfl rfl (.refl made e.io)
  tickArq := quiet_tickArq
  nackWindow := quiet_nackWindow
  stamp e := quiet_fields rfl rfl rfl (.refl made e.io)

theorem routine_quiet (made : Nat → List UInt8) :
    Routine (Quiet made : TransferEngine F → TransferEngine F → Prop) :=
  (stamped_quiet made 0).toRoutine

/-- Broadcasts that wait for a retry are advertisements. -/
theorem quiet_broadcastRetryTick (e : TransferEngine F) (now : Nat)
    (retry : e.broadcastRetry.type ≠ .data) : Quiet made e (e.broadcastRetryTick now) :=
  (routine_quiet made).broadcastRetryTick e now
    (quiet_sendPacket e _ fun isData => absurd isData retry)

/-! ## Duties without fragments -/

theorem quiet_publishMeta (e : TransferEngine F) (session srcNode : Nat) :
    Quiet made e (e.publishMeta session srcNode) :=
  quiet_emit e trivial

theorem quiet_republishMeta (e : TransferEngine F) (now : Nat) :
    Quiet made e (e.republishMeta now) := by
  unfold republishMeta
  dsimp only
  split
  · exact (quiet_publishMeta e _ _).trans (quiet_fields rfl rfl rfl (.refl ..))
  · exact .refl made e

theorem quiet_handleTransferAck (e : TransferEngine F) (payload : List UInt8) :
    Quiet made e (e.handleTransferAck payload) := by
  unfold handleTransferAck
  dsimp only
  split
  · exact .refl made e
  split
  · exact .refl made e
  split
  · exact .refl made e
  split
  · exact quiet_fields rfl rfl rfl (.refl ..)
  · exact .refl made e

theorem quiet_activateExit (e : TransferEngine F) : Quiet made e e.activateExit := by
  unfold activateExit
  split
  · have entered : Quiet made e { e with isExitNode := true, exitPending := false } :=
      quiet_fields rfl rfl rfl (.refl made e.io)
    exact entered.trans (quiet_publishMeta _ _ _)
  · exact .refl made e

theorem quiet_forwardFragment (e : TransferEngine F) (seq : Nat) (payload : List UInt8) :
    Quiet made e (e.forwardFragment seq payload) := by
  have forwarded : Io.Speaks made e.io (e.io.forwardToMqtt e.activeSessionId seq e.sourceAddr
      payload e.transfer.filename).2 := Io.speaks_forwardToMqtt ..
  unfold forwardFragment
  dsimp only
  split
  · exact quiet_fields rfl rfl rfl (forwarded.trans (Io.speaks_nowMs _))
  · exact quiet_fields rfl rfl rfl (forwarded.trans (Io.speaks_same rfl rfl))

theorem quiet_handleData (e : TransferEngine F) (srcAddr seq : Nat) (payload : List UInt8) :
    Quiet made e (e.handleData srcAddr seq payload) := by
  unfold handleData
  split
  · exact (quiet_activateExit e).trans (quiet_forwardFragment _ seq payload)
  · exact quiet_setArq e (fun genuine => genuine) rfl fun _ => .refl made e.io

/-! ## Bookkeeping of the queues -/

theorem quiet_note (e : TransferEngine F) (move : Dispatch.Move Nat) :
    Quiet made e (e.note move) :=
  quiet_fields rfl rfl rfl (.refl made e.io)

/-- A data fragment waits for redistribution. -/
theorem quiet_keepRedist (e : TransferEngine F) {seq : Nat} (data : isParitySlot seq = false) :
    Quiet made e (e.keepRedist seq) where
  coding := rfl
  recorded recorded :=
    ⟨recorded.genuine, recorded.sized, fun other member => by
      rcases List.mem_append.mp member with already | here
      · exact recorded.waiting other already
      · rwa [List.mem_singleton.mp here]⟩
  speaks _ := .refl made e.io

theorem quiet_enqueueRedist (e : TransferEngine F) {seq : Nat} (data : isParitySlot seq = false) :
    Quiet made e (e.enqueueRedist seq) := by
  unfold enqueueRedist
  split
  · exact quiet_keepRedist e data
  · exact quiet_note e _

theorem quiet_buryExit (e : TransferEngine F) (dead : Nat) : Quiet made e (e.buryExit dead) := by
  have emptied : Quiet made e (e.setArq dead (e.arq dead).resetSender) :=
    quiet_setArq e (fun _ => SelectiveRepeat.genuine_resetSender (e.arq dead) made) rfl
      fun _ => .refl made e.io
  exact emptied.trans (quiet_fields rfl rfl rfl (.refl ..))

theorem quiet_refreshWeights [PathArith F] (e : TransferEngine F) :
    Quiet made e e.refreshWeights := by
  unfold refreshWeights
  split
  · exact quiet_fields rfl rfl rfl (.refl made e.io)
  · exact .refl made e

theorem quiet_checkUploadDrained (e : TransferEngine F) : Quiet made e e.checkUploadDrained := by
  unfold checkUploadDrained
  split
  · exact quiet_fields rfl rfl rfl (.refl made e.io)
  · exact .refl made e

/-! ## Election -/

theorem quiet_installExit [PathArith F] (now : Nat) (e : TransferEngine F)
    (elected : ExitCandidate × Nat) : Quiet made e (installExit now e elected) := by
  have installed : Quiet made e (e.setArq elected.2
      { (e.arq elected.2).resetSender with peerAddr := elected.1.addr }) :=
    quiet_setArq e
      (fun _ => (SelectiveRepeat.genuine_resetSender (e.arq elected.2) made).sameFragments
        ⟨rfl, rfl, fun _ => rfl, fun _ => rfl, fun _ => rfl, fun _ => rfl⟩)
      rfl fun _ => .refl made e.io
  exact installed.trans (quiet_fields rfl rfl rfl (.refl ..))

/-- An election before the first fragment leaves the coding alone. -/
theorem quiet_electExits [PathArith F] (e : TransferEngine F)
    (first : e.transfer.nextFragment = 0) : Quiet made e e.electExits := by
  have clocked : Quiet made e e.electionClock.nowMs.2 := by
    unfold electionClock
    split
    · exact (quiet_nowMs e).trans (quiet_nowMs _)
    · exact quiet_nowMs e
  have installed := clocked.trans ((routine_quiet made).foldl
    (quiet_installExit e.electionClock.nowMs.1)
    (electedExits e.candidates e.maxElectedExits).zipIdx e.electionClock.nowMs.2)
  refine ⟨?_, fun recorded => ⟨(installed.recorded recorded).genuine,
    (installed.recorded recorded).sized, (installed.recorded recorded).waiting⟩,
    fun recorded => (installed.speaks recorded).trans (Io.speaks_emit _ trivial)⟩
  have coding : e.electExits.coding =
      { ((electedExits e.candidates e.maxElectedExits).zipIdx.foldl
        (installExit e.electionClock.nowMs.1) e.electionClock.nowMs.2).coding with
        nextFragment := 0 } := rfl
  rw [coding, installed.coding, ← first]
  rfl

end TransferEngine

end ForestLink.Mesh
