/-
Module: ForestLink.Proofs.ParityTransmission
Purpose: The parity that a sender transmits over the mesh is the XOR of the data fragments of
  its group, whatever fails and is sent again on the way.
Trusted boundary: none
Main exports: sentPayload, encoderAt, Coding.Records, Sending, Coded, parity_of_mesh_transfer
-/
import ForestLink.Proofs.MeshAccounting
import ForestLink.Proofs.ReceiverIntegrity
import ForestLink.Proofs.SentPayloads
import ForestLink.Proofs.TransferStart

namespace ForestLink.Mesh

open ForestLink.Lib
open ForestLink.Lib.Dispatch
open ForestLink.Protocol

/-! ## The payloads of a file -/

/-- The bytes that every sequence number of the mesh layout stands for. -/
def sentPayload (file : List UInt8) : Nat → List UInt8 :=
  meshPayload defaultTransferFragmentSize file

/-- The padded XOR of the seven data fragments of a group. -/
def groupParity (file : List UInt8) (group : Nat) : List UInt8 :=
  xorPad (groupFragments file group)

/-- The encoder before sequence number `next`: the fragments of its group so far. -/
def encoderAt (file : List UInt8) (next : Nat) : FecEncoder :=
  ((groupFragments file (next / (fecGroupSize + 1))).take (next % (fecGroupSize + 1))).foldl
    FecEncoder.ingest FecEncoder.reset

variable {file : List UInt8} {seq : Nat}

@[simp] theorem length_groupFragments (file : List UInt8) (group : Nat) :
    (groupFragments file group).length = fecGroupSize := by
  simp [groupFragments]

theorem sentPayload_data (data : isParitySlot seq = false) :
    sentPayload file seq = dataFragment file (dataIdx seq) :=
  meshPayload_of_data data

theorem maxLength_groupFragments (file : List UInt8) (group : Nat) :
    maxLength (groupFragments file group) ≤ maxMtu := by
  apply maxLength_le
  intro fragment member
  obtain ⟨position, -, rfl⟩ := List.mem_map.mp member
  exact (List.length_take_le _ _).trans (by decide)

theorem sentPayload_parity (parity : isParitySlot seq = true) :
    sentPayload file seq = groupParity file (seq / (fecGroupSize + 1)) := by
  unfold sentPayload meshPayload
  rw [if_pos parity]
  exact parityData_foldl (maxLength_groupFragments file _)

/-- Taking the fragment of `seq` in. -/
theorem encoderAt_succ_data (file : List UInt8) (data : isParitySlot seq = false) :
    encoderAt file (seq + 1) = (encoderAt file seq).ingest (sentPayload file seq) := by
  have place : seq % 8 < 7 := by
    have notParity : seq % 8 ≠ 7 := fun parity => by
      rw [(isParitySlot_iff seq).mpr parity] at data
      contradiction
    omega
  have group : (seq + 1) / (fecGroupSize + 1) = seq / (fecGroupSize + 1) := by
    simp only [fecGroupSize]
    omega
  have position : (seq + 1) % (fecGroupSize + 1) = seq % (fecGroupSize + 1) + 1 := by
    simp only [fecGroupSize]
    omega
  have inside : seq % (fecGroupSize + 1) <
      (groupFragments file (seq / (fecGroupSize + 1))).length := by
    rwa [length_groupFragments]
  have here : (groupFragments file (seq / (fecGroupSize + 1)))[seq % (fecGroupSize + 1)] =
      sentPayload file seq := by
    rw [sentPayload_data data]
    simp [groupFragments, dataIdx]
  unfold encoderAt
  rw [group, position, List.take_succ_eq_append_getElem inside, List.foldl_append, here]
  rfl

/-- A group begins with an empty encoder. -/
theorem encoderAt_succ_parity (file : List UInt8) (parity : isParitySlot seq = true) :
    encoderAt file (seq + 1) = FecEncoder.reset := by
  have start : (seq + 1) % (fecGroupSize + 1) = 0 := by
    have slot := (isParitySlot_iff seq).mp parity
    simp only [fecGroupSize]
    omega
  unfold encoderAt
  rw [start, List.take_zero]
  rfl

/-- The encoder of a full group holds its parity. -/
theorem encoderAt_parity (file : List UInt8) (parity : isParitySlot seq = true) :
    (encoderAt file seq).parityData = sentPayload file seq := by
  have slot : seq % (fecGroupSize + 1) = fecGroupSize := (isParitySlot_iff seq).mp parity
  unfold encoderAt
  rw [slot, List.take_of_length_le (by simp), sentPayload_parity parity]
  exact parityData_foldl (maxLength_groupFragments file _)

/-- A parity on the air is the padded XOR of the data fragments of its group. -/
def Output.CarriesParity (file : List UInt8) : Output → Prop
  | .sent _ .data seq payload _ =>
      isParitySlot seq = true → payload = groupParity file (seq / (fecGroupSize + 1))
  | _ => True

theorem Output.Carries.parity {output : Output} (carries : output.Carries (sentPayload file)) :
    output.CarriesParity file := by
  cases output with
  | sent dst type seq payload result =>
      cases type with
      | data => exact fun parity => carries.trans (sentPayload_parity parity)
      | _ => trivial
  | _ => trivial

/-! ## A transfer that goes on -/

/-- Reads inside the file return the bytes there. -/
def Reads (file : List UInt8) (read : Nat → Nat → List UInt8) : Prop :=
  ∀ offset len, offset + len ≤ file.length → read offset len = (file.drop offset).take len

namespace TransferEngine

variable {F : Type} {e after : TransferEngine F} {base : List Output}

/-- The announced layout of the file, or what the exit role leaves of it. -/
inductive FileLayout (file : List UInt8) (size fragmentSize fragmentCount : Nat) : Prop
  | announced (whole : size = file.length) (stride : fragmentSize = defaultTransferFragmentSize)
      (count : fragmentCount = meshFragmentCount (dataFragCount file.length))
  | wiped (whole : size = 0) (stride : fragmentSize = 0) (count : fragmentCount = 0)

/-- The record of a mesh transfer of the file and the encoder that belongs to it. -/
structure Coding.Records (file : List UInt8) (c : Coding) : Prop where
  active : c.active = true
  meshPath : c.localExit = false
  reads : ∃ read, c.readChunk = some read ∧ Reads file read
  small : file.length < 2 ^ 32
  layout : FileLayout file c.size c.fragmentSize c.fragmentCount
  bounded : c.nextFragment ≤ meshFragmentCount (dataFragCount file.length)
  encoder : c.encoder = encoderAt file c.nextFragment
  retry : c.retryType ≠ .data

/-- A transfer of the file goes on that has sent only right payloads since `base`. -/
structure Sending (file : List UInt8) (base : List Output) (e : TransferEngine F) : Prop where
  records : e.coding.Records file
  recorded : Recorded (sentPayload file) e
  full : e.io.env.readLimits = []
  outputs : Extends (Output.Carries (sentPayload file)) base e.io.outputs

namespace Sending

theorem quiet (sending : Sending file base e) (quiet : Quiet (sentPayload file) e after) :
    Sending file base after where
  records := quiet.coding ▸ sending.records
  recorded := quiet.recorded sending.recorded
  full := (quiet.speaks sending.recorded).full sending.full
  outputs := sending.outputs.trans (quiet.speaks sending.recorded).outputs

theorem layout (sending : Sending file base e) :
    FileLayout file e.transfer.size e.transfer.fragmentSize e.transfer.fragmentCount :=
  sending.records.layout

/-! ## Reading -/

theorem readChunk (sending : Sending file base e) {offset len : Nat}
    (inside : offset + len ≤ file.length) :
    e.io.readChunk e.transfer.readChunk offset len = ((file.drop offset).take len, e.io) := by
  obtain ⟨read, known, reads⟩ := sending.records.reads
  have callback : e.transfer.readChunk = some read := known
  rw [callback, Io.readChunk_full sending.full, reads offset len inside, List.take_take,
    Nat.min_self]

theorem sub32_of_le {size offset : Nat} (small : size < 2 ^ 32) (inside : offset ≤ size) :
    sub32 size offset = size - offset := by
  unfold sub32
  omega

/-- A data fragment of the layout. -/
def InFile (file : List UInt8) (seq : Nat) : Prop :=
  isParitySlot seq = false ∧ dataIdx seq * defaultTransferFragmentSize < file.length

/-- What a fragment that was dispatched stands for is in the file. -/
theorem inFile (sending : Sending file base e) (data : isParitySlot seq = false)
    (dispatched : seq < e.transfer.nextFragment) : InFile file seq :=
  ⟨data, Tracked.dataIdx_mul_lt (lt_of_lt_of_le dispatched sending.records.bounded) data⟩

theorem take_min_length (bytes : List UInt8) (len : Nat) :
    bytes.take (min bytes.length len) = bytes.take len := by
  rw [Nat.min_comm, ← List.take_take, List.take_length]

/-- With the announced layout a read of a fragment returns its payload. -/
theorem readFragment_whole (sending : Sending file base e)
    (whole : e.transfer.size = file.length)
    (stride : e.transfer.fragmentSize = defaultTransferFragmentSize) (inFile : InFile file seq) :
    e.readFragment seq = (sentPayload file seq, e) := by
  obtain ⟨data, inside⟩ := inFile
  unfold TransferEngine.readFragment
  dsimp only
  rw [whole, stride, sub32_of_le sending.records.small inside.le, sending.readChunk (by omega),
    sentPayload_data data, ← List.length_drop, take_min_length]
  rfl

/-- Once the record is wiped a read returns nothing. -/
theorem readFragment (sending : Sending file base e) (inFile : InFile file seq) :
    ((e.readFragment seq).1 = sentPayload file seq ∨ (e.readFragment seq).1 = []) ∧
      (e.readFragment seq).2 = e := by
  cases sending.layout with
  | announced whole stride =>
      rw [sending.readFragment_whole whole stride inFile]
      exact ⟨.inl rfl, rfl⟩
  | wiped whole stride =>
      unfold TransferEngine.readFragment
      dsimp only
      rw [stride, Nat.mul_zero, Nat.min_zero, sending.readChunk (Nat.zero_le _)]
      exact ⟨.inr rfl, rfl⟩

/-! ## Parity from the file -/

/-- The out-of-window path takes in the same fragments, as long as all are in the file. -/
theorem regenerateParity (sending : Sending file base e) (group : Nat) (positions : List Nat)
    (encoder : FecEncoder) :
    TransferEngine.regenerateParity group positions encoder e =
      (if ∀ position ∈ positions,
          (group * fecGroupSize + position) * e.transfer.fragmentSize < e.transfer.size then
        some ((positions.map fun position =>
          dataFragment file (group * fecGroupSize + position)).foldl FecEncoder.ingest encoder)
      else none, e) := by
  induction positions generalizing encoder with
  | nil => simp [TransferEngine.regenerateParity]
  | cons position rest inductionHypothesis =>
      unfold TransferEngine.regenerateParity
      dsimp only
      split
      · rename_i outside
        rw [if_neg]
        intro all
        exact absurd (all position List.mem_cons_self) (Nat.not_lt.mpr outside)
      · rename_i notOutside
        have inside : (group * fecGroupSize + position) * e.transfer.fragmentSize <
            e.transfer.size := Nat.not_le.mp notOutside
        cases sending.layout with
        | wiped whole =>
            rw [whole] at inside
            exact absurd inside (Nat.not_lt_zero _)
        | announced whole stride =>
            rw [sending.readChunk (by rw [whole] at inside ⊢; omega)]
            have chunk : (file.drop ((group * fecGroupSize + position) *
                e.transfer.fragmentSize)).take
                  (min (e.transfer.size - (group * fecGroupSize + position) *
                    e.transfer.fragmentSize) e.transfer.fragmentSize) =
                dataFragment file (group * fecGroupSize + position) := by
              rw [whole, ← List.length_drop, take_min_length, stride]
              rfl
            dsimp only
            rw [chunk, inductionHypothesis]
            simp [inside]

theorem parityLen_pos {group : Nat}
    (inside : group * fecGroupSize * defaultTransferFragmentSize < file.length) :
    ((groupFragments file group).foldl FecEncoder.ingest FecEncoder.reset).parityLen ≠ 0 := by
  have first : dataFragment file (group * fecGroupSize) ∈ groupFragments file group :=
    List.mem_map.mpr ⟨0, List.mem_range.mpr (by decide), rfl⟩
  have length : (dataFragment file (group * fecGroupSize)).length =
      min defaultTransferFragmentSize
        (file.length - group * fecGroupSize * defaultTransferFragmentSize) := by
    rw [dataFragment, List.length_take, List.length_drop]
  have positive : 0 < defaultTransferFragmentSize := by decide
  have bound := length_le_maxLength first
  have sum : ((groupFragments file group).foldl FecEncoder.ingest FecEncoder.reset).parityLen =
      maxLength (groupFragments file group) := by
    rw [FecEncoder.foldl_ingest_parityLen, FecDecoder.foldl_max]
    exact Nat.zero_max _
  omega

/-- The group of a parity slot lies in what the record describes. -/
abbrev GroupInside (e : TransferEngine F) (seq : Nat) : Prop :=
  ∀ position ∈ List.range fecGroupSize,
    (seq / (fecGroupSize + 1) * fecGroupSize + position) * e.transfer.fragmentSize <
      e.transfer.size

/-- Out of the window the parity of a whole group is built from the file again. -/
theorem oowPayload_inside (sending : Sending file base e) (parity : isParitySlot seq = true)
    (inside : GroupInside e seq) : e.oowPayload seq = (some (sentPayload file seq), e) := by
  have nonempty : ((groupFragments file (seq / (fecGroupSize + 1))).foldl
      FecEncoder.ingest FecEncoder.reset).parityLen ≠ 0 := by
    have first := inside 0 (List.mem_range.mpr (by decide))
    cases sending.layout with
    | announced whole stride =>
        rw [whole, stride] at first
        exact parityLen_pos first
    | wiped whole =>
        rw [whole] at first
        exact absurd first (Nat.not_lt_zero _)
  unfold TransferEngine.oowPayload
  rw [if_pos parity, sending.regenerateParity, if_pos inside]
  change (if ((groupFragments file (seq / (fecGroupSize + 1))).foldl
      FecEncoder.ingest FecEncoder.reset).parityLen = 0 then _ else _) = _
  rw [if_neg nonempty, sentPayload_parity parity]
  exact congrArg (fun bytes => (some bytes, e))
    (parityData_foldl (maxLength_groupFragments file _))

/-- The parity of every announced slot can be built again. -/
theorem oowPayload_parity (sending : Sending file base e) (parity : isParitySlot seq = true)
    (announced : seq < e.transfer.fragmentCount) :
    e.oowPayload seq = (some (sentPayload file seq), e) := by
  apply sending.oowPayload_inside parity
  intro position member
  cases sending.layout with
  | wiped whole stride count =>
      rw [count] at announced
      exact absurd announced (Nat.not_lt_zero _)
  | announced whole stride count =>
      have slot := (isParitySlot_iff seq).mp parity
      have inGroup : position < 7 := List.mem_range.mp member
      have data : isParitySlot (seq / 8 * 8 + position) = false := by
        rw [← Bool.not_eq_true, isParitySlot_iff]
        omega
      have place : dataIdx (seq / 8 * 8 + position) =
          seq / (fecGroupSize + 1) * fecGroupSize + position := by
        simp only [dataIdx, fecGroupSize]
        omega
      rw [whole, stride, ← place]
      exact Tracked.dataIdx_mul_lt (by omega) data

/-- What is sent out of the window is the payload of its sequence number. -/
theorem oowPayload (sending : Sending file base e) (seq : Nat) :
    (e.oowPayload seq).2 = e ∧ ∀ payload, (e.oowPayload seq).1 = some payload →
      payload = sentPayload file seq ∨ payload = [] := by
  cases parity : isParitySlot seq with
  | true =>
      by_cases inside : GroupInside e seq
      · rw [sending.oowPayload_inside parity inside]
        exact ⟨rfl, fun _ same => .inl (Option.some.inj same).symm⟩
      · unfold TransferEngine.oowPayload
        rw [if_pos parity, sending.regenerateParity, if_neg inside]
        exact ⟨rfl, fun _ impossible => nomatch impossible⟩
  | false =>
      unfold TransferEngine.oowPayload
      rw [if_neg (by simp [parity])]
      split
      · exact ⟨rfl, fun _ impossible => nomatch impossible⟩
      · rename_i notOutside
        have inside : dataIdx seq * e.transfer.fragmentSize < e.transfer.size :=
          Nat.not_le.mp notOutside
        have inFile : InFile file seq := by
          cases sending.layout with
          | announced whole stride =>
              rw [whole, stride] at inside
              exact ⟨parity, inside⟩
          | wiped whole =>
              rw [whole] at inside
              exact absurd inside (Nat.not_lt_zero _)
        obtain ⟨right, same⟩ := sending.readFragment inFile
        exact ⟨same, fun _ loaded => Option.some.inj loaded ▸ right⟩

/-! ## Keeping the record -/

/-- The bookkeeping behind a fragment that a window took. -/
theorem fed (sending : Sending file base e) (index now time : Nat) {encoder : FecEncoder}
    (more : e.transfer.nextFragment < meshFragmentCount (dataFragCount file.length))
    (takenIn : encoder = encoderAt file (e.transfer.nextFragment + 1)) :
    Sending file base
      { e.fedFragment index e.transfer.nextFragment now time with fecEncoder := encoder } where
  records :=
    { active := sending.records.active
      meshPath := sending.records.meshPath
      reads := sending.records.reads
      small := sending.records.small
      layout := sending.records.layout
      bounded := more
      encoder := takenIn
      retry := sending.records.retry }
  recorded := ⟨sending.recorded.genuine, sending.recorded.sized, sending.recorded.waiting⟩
  full := sending.full
  outputs := sending.outputs

/-- A sender that leaves the exit role keeps its windows and its encoder. -/
theorem clearExitNodeState (sending : Sending file base e) :
    Sending file base e.clearExitNodeState := by
  have cleared : ∀ {after : TransferEngine F},
      after.coding = { e.coding with size := 0, fragmentSize := 0, fragmentCount := 0 } →
      after.arq = e.arq → after.redistPending = e.redistPending →
      Io.Speaks (sentPayload file) e.io after.io → Sending file base after := by
    intro after coding arq redist speaks
    refine ⟨?_, ⟨arq ▸ sending.recorded.genuine, arq ▸ sending.recorded.sized,
      redist ▸ sending.recorded.waiting⟩,
      speaks.full sending.full, sending.outputs.trans speaks.outputs⟩
    rw [coding]
    exact { sending.records with layout := .wiped rfl rfl rfl }
  have calm : Io.Speaks (sentPayload file) e.io { e.io with congestionBackoffTicks := 0 } :=
    Io.speaks_same rfl rfl
  unfold TransferEngine.clearExitNodeState
  dsimp only
  split
  · exact cleared rfl rfl rfl (calm.trans (Io.speaks_emit _ trivial))
  · exact cleared rfl rfl rfl calm

theorem forwardTransferDone (sending : Sending file base e) :
    Sending file base e.forwardTransferDone := by
  have reported : Quiet (sentPayload file) e (e.sendPacket e.sourceAddr .transferDone
      (TransferDone.toBytes { sessionId := e.activeSessionId, exitNodeAddr := e.myAddr }) 0).2 :=
    quiet_sendPacket e _ fun impossible => PacketType.noConfusion impossible
  exact (sending.quiet reported).clearExitNodeState

theorem tickExitRole (sending : Sending file base e) (now : Nat) :
    Sending file base (e.tickExitRole now) := by
  have relayed := sending.quiet
    (((stamped_quiet _ now).drainExitNacks e).trans ((routine_quiet _).drainFragmentAcks _))
  unfold TransferEngine.tickExitRole pollTransferComplete
  split
  · exact relayed.forwardTransferDone
  · exact relayed

/-! ## Sending again -/

theorem foldl {α : Type} {f : TransferEngine F → α → TransferEngine F} {entries : List α}
    (sending : Sending file base e)
    (each : ∀ e, Sending file base e → ∀ entry ∈ entries,
      Quiet (sentPayload file) e (f e entry)) :
    Quiet (sentPayload file) e (entries.foldl f e) := by
  induction entries generalizing e with
  | nil => exact .refl ..
  | cons entry rest inductionHypothesis =>
      have first := each e sending entry List.mem_cons_self
      exact first.trans (inductionHypothesis (sending.quiet first) fun e sending later member =>
        each e sending later (List.mem_cons_of_mem _ member))

theorem drainOow (sending : Sending file base e) (now : Nat) :
    Quiet (sentPayload file) e (e.drainOow now) := by
  refine ((routine_quiet _).guarded Sending.quiet).drainOow ?_ e now sending
  intro e dst payload seq loaded nonempty sending
  obtain ⟨same, right⟩ := sending.oowPayload seq
  rw [same]
  exact quiet_sendPacket e dst fun _ => (right payload loaded).resolve_right nonempty

/-- A fragment is read again for another window. -/
theorem resend (sending : Sending file base e) (inFile : InFile file seq) (target : Nat) :
    Quiet (sentPayload file) e
      ((e.readFragment seq).2.sendFragment target seq (e.readFragment seq).1).2 := by
  obtain ⟨right, same⟩ := sending.readFragment inFile
  rw [same]
  exact quiet_sendFragment e target seq right

/-- What the window of an exit holds was dispatched. -/
theorem snapshot_dispatched (mirrors : Mirrors e []) (index : Nat) :
    ∀ seq ∈ (e.arq index).snapshotPendingSequences arqWindow,
      seq < e.transfer.nextFragment := by
  intro seq member
  rw [← mirrors.next]
  exact mirrors.sound.windowBelow index seq ((mirrors.snapshot index).1 seq |>.mp member)

variable [PathArith F]

theorem drainRedistEntry (sending : Sending file base e) (inFile : InFile file seq) :
    Quiet (sentPayload file) e (e.drainRedistEntry seq) := by
  unfold TransferEngine.drainRedistEntry
  split
  · exact quiet_keepRedist e inFile.1
  rename_i target _
  have resent := sending.resend inFile target
  split
  · dsimp only
    split
    · exact resent.trans (quiet_keepRedist _ inFile.1)
    · exact resent.trans (quiet_note _ _)
  · exact quiet_keepRedist e inFile.1

theorem drainRedist (sending : Sending file base e) (tracked : Tracked e) :
    Quiet (sentPayload file) e e.drainRedist := by
  have emptied : Quiet (sentPayload file) e { e with redistPending := [] } :=
    ⟨rfl, fun recorded => ⟨recorded.genuine, recorded.sized, fun _ none =>
      absurd none List.not_mem_nil⟩, fun _ => .refl ..⟩
  apply emptied.trans
  apply (sending.quiet emptied).foldl
  intro middle sendingStill seq member
  have dispatched : seq < e.transfer.nextFragment := by
    rw [← tracked.mirrors.next]
    exact tracked.mirrors.sound.waitingBelow seq (tracked.mem_redistPending.mp member)
  exact sendingStill.drainRedistEntry
    (sending.inFile (sending.recorded.waiting seq member) dispatched)

theorem redistributeFragment (sending : Sending file base e) (firstAlive : Nat)
    (dispatched : isParitySlot seq = false → InFile file seq) :
    Quiet (sentPayload file) e (e.redistributeFragment firstAlive seq) := by
  unfold TransferEngine.redistributeFragment
  split
  · exact .refl ..
  rename_i notParity
  have data : isParitySlot seq = false := by simpa using notParity
  dsimp only
  split
  · have resent := sending.resend (dispatched data)
      ((e.selectMeshTargetForSeq seq).getD firstAlive)
    split
    · exact resent.trans (quiet_note _ _)
    · exact resent.trans (quiet_enqueueRedist _ data)
  · exact quiet_enqueueRedist e data

theorem redistributeDeadExit (sending : Sending file base e) {dead : Nat}
    (dispatched : ∀ seq ∈ (e.arq dead).snapshotPendingSequences arqWindow,
      seq < e.transfer.nextFragment) :
    Quiet (sentPayload file) e (e.redistributeDeadExit dead) := by
  have buried : Quiet (sentPayload file) e (e.buryExit dead) := quiet_buryExit e dead
  unfold TransferEngine.redistributeDeadExit
  dsimp only
  split
  · exact buried
  · apply buried.trans
    apply (sending.quiet buried).foldl
    intro middle sendingStill seq member
    exact sendingStill.redistributeFragment _ fun data =>
      sending.inFile data (dispatched seq member)

theorem checkExitHealth (sending : Sending file base e) (mirrors : Mirrors e []) (now index : Nat) :
    Quiet (sentPayload file) e (e.checkExitHealth now index) := by
  unfold TransferEngine.checkExitHealth
  split
  · have noted : Quiet (sentPayload file) e
        (e.note (.silent index now e.exitNodeTimeoutMs)) := quiet_note e _
    exact noted.trans ((sending.quiet noted).redistributeDeadExit
      (snapshot_dispatched mirrors index))
  · exact .refl ..

theorem checkExits (sending : Sending file base e) (mirrors : Mirrors e []) (now : Nat)
    {indices : List Nat} (inRange : ∀ index ∈ indices, index < e.transfer.exitNodeCount) :
    Quiet (sentPayload file) e (indices.foldl (TransferEngine.checkExitHealth now) e) := by
  induction indices generalizing e with
  | nil => exact .refl ..
  | cons index rest inductionHypothesis =>
      have first := sending.checkExitHealth mirrors now index
      obtain ⟨checked, role⟩ := mirrors.checkExitHealth now (inRange index List.mem_cons_self)
      have sameCount : (e.checkExitHealth now index).transfer.exitNodeCount =
          e.transfer.exitNodeCount := congrArg Role.exitNodeCount role
      exact first.trans (inductionHypothesis (sending.quiet first) checked fun other member =>
        sameCount ▸ inRange other (List.mem_cons_of_mem _ member))

theorem exitNodeHealthTick (sending : Sending file base e) (tracked : Tracked e) (now : Nat) :
    Quiet (sentPayload file) e (e.exitNodeHealthTick now) := by
  unfold TransferEngine.exitNodeHealthTick
  split
  · exact .refl ..
  · exact sending.checkExits tracked.mirrors now fun _ member => List.mem_range.mp member

theorem handleExitOffline (sending : Sending file base e) (tracked : Tracked e)
    (exitAddr sessionId : Nat) :
    Quiet (sentPayload file) e (e.handleExitOffline exitAddr sessionId) := by
  unfold TransferEngine.handleExitOffline
  split
  · exact .refl ..
  split
  · exact .refl ..
  split
  · exact .refl ..
  · exact sending.redistributeDeadExit (snapshot_dispatched tracked.mirrors _)

/-! ## New fragments -/

/-- One fragment of a group goes into the encoder when a window took it, and the parity empties
the encoder. -/
theorem feed (sending : Sending file base e) (now fuel newSent : Nat) :
    Sending file base (TransferEngine.feed now fuel newSent e) := by
  induction fuel generalizing newSent e with
  | zero => exact sending
  | succ fuel inductionHypothesis =>
      unfold TransferEngine.feed
      dsimp only
      split
      swap
      · exact sending
      rename_i more
      split
      · exact sending
      rename_i index selected
      cases sending.layout with
      | wiped whole stride count =>
          rw [count] at more
          exact absurd more.1 (Nat.not_lt_zero _)
      | announced whole stride count =>
          have announced := count ▸ more.1
          have encoder : e.fecEncoder = encoderAt file e.transfer.nextFragment :=
            sending.records.encoder
          split
          · rename_i parity
            have sent : Quiet (sentPayload file) e
                (e.sendFragment index e.transfer.nextFragment e.fecEncoder.parityData).2 :=
              quiet_sendFragment e index _
                (.inl (encoder ▸ encoderAt_parity file parity))
            split
            · exact sending.quiet sent
            · exact inductionHypothesis ((sending.quiet sent).fed index now _ announced
                (encoderAt_succ_parity file parity).symm) _
          · rename_i notParity
            have data : isParitySlot e.transfer.nextFragment = false := by simpa using notParity
            have inside := Tracked.dataIdx_mul_lt announced data
            split
            · rename_i behindEnd
              rw [whole, stride] at behindEnd
              exact absurd inside (Nat.not_lt.mpr behindEnd)
            · rw [sending.readFragment_whole whole stride ⟨data, inside⟩]
              dsimp only
              have sent : Quiet (sentPayload file) e (e.sendFragment index
                  e.transfer.nextFragment (sentPayload file e.transfer.nextFragment)).2 :=
                quiet_sendFragment e index _ (.inl rfl)
              split
              · exact sending.quiet sent
              · refine inductionHypothesis ((sending.quiet sent).fed index now _ announced ?_) _
                rw [encoder]
                exact (encoderAt_succ_data file data).symm

theorem feedNew (sending : Sending file base e) (now : Nat) :
    Sending file base (e.feedNew now) :=
  (sending.quiet (quiet_refreshWeights e)).feed now _ 0

end Sending

/-! ## The tick -/

/-- The transfer goes on, or it has ended; either way its payloads were right. -/
inductive Coded (file : List UInt8) (base : List Output) (e : TransferEngine F) : Prop
  | sending (sending : Sending file base e)
  | ended (inactive : e.transfer.active = false)
      (outputs : Extends (Output.Carries (sentPayload file)) base e.io.outputs)

theorem Coded.outputs (coded : Coded file base e) :
    Extends (Output.Carries (sentPayload file)) base e.io.outputs := by
  cases coded with
  | sending sending => exact sending.outputs
  | ended inactive outputs => exact outputs

/-- A running transfer goes on. -/
theorem Coded.active (coded : Coded file base e) (active : e.transfer.active = true) :
    Sending file base e := by
  cases coded with
  | sending sending => exact sending
  | ended inactive outputs => exact absurd (inactive.symm.trans active) Bool.false_ne_true

namespace Sending

variable [PathArith F]

theorem resetSenderTransferState (sending : Sending file base e) (signalComplete : Bool) :
    Coded file base (e.resetSenderTransferState signalComplete) := by
  have ended : ∀ {after : TransferEngine F}, after.transfer = {} →
      Io.Speaks (sentPayload file) e.io after.io → Coded file base after := by
    intro after transfer speaks
    exact .ended (congrArg ActiveTransfer.active transfer)
      (sending.outputs.trans speaks.outputs)
  have calm : Io.Speaks (sentPayload file) e.io { e.io with congestionBackoffTicks := 0 } :=
    Io.speaks_same rfl rfl
  have closed : Io.Speaks (sentPayload file) e.io
      (({ e.io with congestionBackoffTicks := 0 } : Io).emit
        (.sessionEnd e.transfer.sessionId)) := calm.trans (Io.speaks_emit _ trivial)
  unfold TransferEngine.resetSenderTransferState
  dsimp only
  split
  · split
    · exact ended rfl (closed.trans (Io.speaks_emit _ trivial))
    · exact ended rfl (calm.trans (Io.speaks_emit _ trivial))
  · split
    · exact ended rfl closed
    · exact ended rfl calm

theorem scheduleFragments (sending : Sending file base e) (tracked : Tracked e) :
    Coded file base e.scheduleFragments.2 := by
  have clocked : Quiet (sentPayload file) e e.nowMs.2 := quiet_nowMs e
  have drained := clocked.trans ((sending.quiet clocked).drainOow e.nowMs.1)
  have sendingStill := sending.quiet drained
  have trackedStill := tracked.of_keeps ((keeps_nowMs e).trans (keeps_drainOow _ e.nowMs.1))
  have resent := sendingStill.quiet (sendingStill.drainRedist trackedStill)
  unfold TransferEngine.scheduleFragments
  dsimp only
  split
  · exact .sending sending
  split
  · exact sending.resetSenderTransferState false
  split
  · exact .sending (sendingStill.quiet (quiet_signalCongestion _))
  split
  · exact .sending sendingStill
  split
  · exact .sending resent
  · exact .sending (resent.feedNew _)

theorem tickMeshArq (sending : Sending file base e) (tracked : Tracked e) :
    Coded file base e.tickMeshArq := by
  unfold TransferEngine.tickMeshArq
  split
  · cases sending.scheduleFragments tracked with
    | sending sendingStill => exact .sending (sendingStill.quiet (quiet_checkUploadDrained _))
    | ended inactive outputs =>
        unfold TransferEngine.checkUploadDrained
        split <;> exact .ended inactive outputs
  · exact sending.scheduleFragments tracked

theorem electionTimeoutTick (sending : Sending file base e) (tracked : Tracked e) (now : Nat) :
    Coded file base (e.electionTimeoutTick now) := by
  unfold TransferEngine.electionTimeoutTick
  split
  · exact .sending sending
  rename_i due
  have electing : e.electionActive = true := by
    simp only [Bool.or_eq_true, not_or] at due
    simpa using due.1
  split
  · have closed : Quiet (sentPayload file) e { e with electionActive := false } :=
      quiet_fields rfl rfl rfl (.refl ..)
    exact (sending.quiet closed).resetSenderTransferState false
  · have noExits := (tracked.scheduled.election electing).2.2
    have first : e.transfer.nextFragment = 0 := by
      rw [← tracked.mirrors.next, tracked.mirrors.idle noExits]
    exact .sending (sending.quiet (quiet_electExits e first))

theorem tickStages (sending : Sending file base e) (tracked : Tracked e) (now : Nat) :
    Coded file base (e.tickStages now) := by
  have served := sending.tickExitRole now
  have retried := served.quiet (quiet_broadcastRetryTick _ now served.records.retry)
  have trackedRetry := (tracked.tickExitRole now).of_keeps (keeps_broadcastRetryTick _ now)
  have elected := retried.electionTimeoutTick trackedRetry now
  unfold TransferEngine.tickStages
  cases elected with
  | sending sendingStill =>
      exact .sending (sendingStill.quiet
        (sendingStill.exitNodeHealthTick (trackedRetry.electionTimeoutTick now) now))
  | ended inactive outputs =>
      unfold TransferEngine.exitNodeHealthTick
      rw [if_pos (by simp [inactive])]
      exact .ended inactive outputs

theorem tickBeforeTransfer (sending : Sending file base e) (tracked : Tracked e) (now : Nat) :
    Coded file base (e.tickBeforeTransfer now).2 := by
  have ticked := sending.quiet ((routine_quiet _).tickArqs e)
  have republished := ticked.quiet (quiet_republishMeta _ now)
  have trackedStill := (tracked.of_keeps (keeps_tickArqs e)).republishMeta now
  unfold TransferEngine.tickBeforeTransfer
  dsimp only
  split
  · exact ticked.resetSenderTransferState false
  split
  · split
    · exact republished.resetSenderTransferState true
    split
    · exact republished.resetSenderTransferState false
    split
    · exact republished.clearExitNodeState.tickStages trackedStill.clearExitNodeState now
    · exact republished.tickStages trackedStill now
  · exact republished.tickStages trackedStill now

end Sending

theorem Coded.transferTick [PathArith F] (coded : Coded file base e) (tracked : Tracked e) :
    Coded file base e.transferTick := by
  unfold TransferEngine.transferTick
  split
  · exact coded
  rename_i running
  have active : e.transfer.active = true := by
    simp only [Bool.or_eq_true, not_or] at running
    simpa using running.1
  have sending := coded.active active
  split
  · exact .sending (sending.quiet (quiet_fields rfl rfl rfl (Io.speaks_same rfl rfl)))
  split
  · rename_i onLocalExit
    exact absurd (sending.records.meshPath.symm.trans onLocalExit) Bool.false_ne_true
  · exact sending.tickMeshArq tracked

namespace Sending

variable [PathArith F]

theorem tick (sending : Sending file base e) (tracked : Tracked e) (now : Nat) :
    Coded file base (e.tick now) := by
  unfold TransferEngine.tick
  dsimp only
  split
  · exact (sending.tickBeforeTransfer tracked now).transferTick (tracked.tickBeforeTransfer now)
  · exact sending.tickBeforeTransfer tracked now

/-! ## One call -/

omit [PathArith F] in
/-- A sender takes no advertisement. -/
theorem handleTransferAd (sending : Sending file base e) (srcAddr : Nat) (payload : List UInt8)
    (hasInternet : Bool) : e.handleTransferAd srcAddr payload hasInternet = e := by
  have active : e.transfer.active = true := sending.records.active
  unfold TransferEngine.handleTransferAd
  simp [active]

theorem handleTransferDone (sending : Sending file base e) (sender : Nat)
    (payload : List UInt8) : Coded file base (e.handleTransferDone sender payload) := by
  unfold TransferEngine.handleTransferDone
  dsimp only
  split
  · exact .sending sending
  split
  · exact .sending sending
  split
  · exact .sending sending
  split
  · exact .sending sending
  · exact sending.resetSenderTransferState true

theorem handle (sending : Sending file base e) (tracked : Tracked e) (event : Event) :
    Coded file base (e.handle event) := by
  have active : e.transfer.active = true := sending.records.active
  cases event with
  | startFileTransfer args =>
      have busy : e.handle (.startFileTransfer args) = e :=
        congrArg Prod.snd (startFileTransfer_of_busy e args (.inl active))
      rw [busy]
      exact .sending sending
  | transferAd srcAddr payload hasInternet =>
      have refused : e.handle (.transferAd srcAddr payload hasInternet) = e :=
        sending.handleTransferAd srcAddr payload hasInternet
      rw [refused]
      exact .sending sending
  | transferAck payload => exact .sending (sending.quiet (quiet_handleTransferAck e payload))
  | data srcAddr seq payload =>
      exact .sending (sending.quiet (quiet_handleData e srcAddr seq payload))
  | ack seq fromAddr => exact .sending (sending.quiet (quiet_handleAck e seq fromAddr))
  | nack seq fromAddr =>
      exact .sending (sending.quiet ((routine_quiet _).handleNack e seq fromAddr))
  | exitOffline exitAddr sessionId =>
      exact .sending (sending.quiet (sending.handleExitOffline tracked exitAddr sessionId))
  | transferDone sender payload => exact sending.handleTransferDone sender payload
  | congestion => exact .sending (sending.quiet (quiet_signalCongestion e))
  | healthTick now => exact .sending (sending.quiet (sending.exitNodeHealthTick tracked now))
  | tick now => exact sending.tick tracked now

theorem step (sending : Sending file base e) (tracked : Tracked e) {call : Call}
    (full : call.env.readLimits = []) : Coded file base (e.step call) := by
  have called : Quiet (sentPayload file) e (e.setEnv call.env) :=
    quiet_setEnv e (full.trans sending.full.symm)
  have trackedStill : Tracked (e.setEnv call.env) :=
    tracked.of_flags rfl rfl rfl rfl rfl rfl rfl
  exact (sending.quiet called).handle trackedStill call.event

end Sending

/-! ## The start -/

/-- The arguments hand over the whole file, for the mesh. -/
structure StartArgs.Sends (args : StartArgs) (file : List UInt8) : Prop where
  size : args.size = file.length
  small : file.length < 2 ^ 32
  reads : Reads file args.readChunk
  meshPath : args.onLocalExit = false

theorem length_transferAd (ad : TransferAd) : ad.toBytes.length = 46 := rfl

/-- Before a transfer no window holds a fragment. -/
theorem Tracked.recorded (tracked : Tracked e) (inactive : e.transfer.active = false)
    (made : Nat → List UInt8) : Recorded made e := by
  have empty : e.board = {} := tracked.mirrors.idle (tracked.idle inactive)
  constructor
  · intro index slot inUse
    have held := SelectiveRepeat.tag_mem_pending inUse
    rw [← tracked.mirrors.window, empty] at held
    exact absurd held (Finset.notMem_empty _)
  · exact fun index => (tracked.mirrors.wf index).sized
  · intro seq member
    have waits := tracked.mem_redistPending.mp member
    rw [empty] at waits
    exact absurd waits (Finset.notMem_empty _)

theorem Sending.start (tracked : Tracked e) {args : StartArgs} (sends : args.Sends file)
    (full : e.io.env.readLimits = []) (accepted : (e.startFileTransfer args).1 = true) :
    Sending file e.io.outputs (e.startFileTransfer args).2 := by
  have entry : ¬ (e.transfer.active = true ∨ e.isExitNode = true ∨ args.tooLarge) := by
    rw [← startFileTransfer_refuses_iff, accepted]
    exact Bool.noConfusion
  simp only [not_or] at entry
  obtain ⟨idle, noExit, fits⟩ := entry
  have begun : e.startFileTransfer args = (e.prepareTransfer args).startMesh args := by
    have meshPath : (e.prepareTransfer args).localExit = false := sends.meshPath
    unfold startFileTransfer
    rw [if_neg idle, if_neg noExit, if_neg (by simp [meshPath])]
  have announced : ¬ meshFragmentCount (dataFragCount args.size) > maxFragmentCount := by
    simpa [StartArgs.tooLarge, sends.meshPath] using fits
  have prepared : Io.Speaks (sentPayload file) e.io (e.prepareTransfer args).io :=
    io_prepareTransfer (.refl _) .trans Io.speaks_nowMs Io.speaks_readChunk e args
  have advertised := prepared.trans (Io.speaks_nowMs _)
  have idleNow := tracked.recorded (eq_false_of_ne_true idle) (sentPayload file)
  rw [begun]
  unfold startMesh
  dsimp only
  rw [if_neg announced]
  unfold sendBroadcastWithRetry
  rw [if_neg (by rw [length_transferAd]; decide)]
  exact
    { records :=
        { active := rfl
          meshPath := sends.meshPath
          reads := ⟨args.readChunk, rfl, sends.reads⟩
          small := sends.small
          layout := .announced sends.size rfl
            (congrArg (fun size => meshFragmentCount (dataFragCount size)) sends.size)
          bounded := Nat.zero_le _
          encoder := rfl
          retry := fun impossible => PacketType.noConfusion impossible }
      recorded :=
        ⟨fun index => (idleNow.genuine index).sameFragments
          ⟨rfl, rfl, fun _ => rfl, fun _ => rfl, fun _ => rfl, fun _ => rfl⟩,
        idleNow.sized, idleNow.waiting⟩
      full := advertised.full full
      outputs := advertised.outputs }

/-! ## What the encoder holds -/

/-- The data fragments of a group that windows have taken, in the order of their numbers. -/
def handedOver (e : TransferEngine F) (group : Nat) : List Nat :=
  (assigned e.log).reverse.filter fun seq =>
    seq / (fecGroupSize + 1) == group && !isParitySlot seq

/-- The fragments of the current group that windows have taken are those below the next one. -/
theorem Tracked.handedOver_eq (tracked : Tracked e) :
    e.handedOver (e.transfer.nextFragment / (fecGroupSize + 1)) =
      (List.range (e.transfer.nextFragment % (fecGroupSize + 1))).map fun position =>
        e.transfer.nextFragment / (fecGroupSize + 1) * (fecGroupSize + 1) + position := by
  have handed := tracked.mirrors.valid.handedOut
  have next : (Board.replay senderRules e.log).next = e.transfer.nextFragment :=
    tracked.mirrors.next
  have ascending : (assigned e.log).reverse.Pairwise (· < ·) :=
    List.pairwise_reverse.mpr handed.descending
  apply List.Pairwise.eq_of_mem_iff (ascending.filter _)
  · apply List.pairwise_map.mpr
    exact List.pairwise_lt_range.imp fun earlier => Nat.add_lt_add_left earlier _
  intro seq
  rw [List.mem_filter, List.mem_reverse, List.mem_map]
  simp only [Bool.and_eq_true, beq_iff_eq, Bool.not_eq_true', fecGroupSize, List.mem_range]
  constructor
  · rintro ⟨taken, group, data⟩
    have before := handed.below seq taken
    rw [next] at before
    exact ⟨seq % 8, by omega, by omega⟩
  · rintro ⟨position, inside, rfl⟩
    have data : isParitySlot (e.transfer.nextFragment / 8 * 8 + position) = false := by
      rw [← Bool.not_eq_true, isParitySlot_iff]
      omega
    exact ⟨handed.complete _ (by omega) (by simp [senderRules, data]), by omega, data⟩

/-- The encoder of the position is that of the fragments taken. -/
theorem Tracked.encoderAt_handedOver (tracked : Tracked e) (file : List UInt8) :
    encoderAt file e.transfer.nextFragment =
      ((e.handedOver (e.transfer.nextFragment / (fecGroupSize + 1))).map fun seq =>
        dataFragment file (dataIdx seq)).foldl FecEncoder.ingest FecEncoder.reset := by
  have short : e.transfer.nextFragment % (fecGroupSize + 1) ≤ fecGroupSize :=
    Nat.le_of_lt_succ (Nat.mod_lt _ (Nat.succ_pos _))
  rw [tracked.handedOver_eq, List.map_map, encoderAt, groupFragments, ← List.map_take,
    List.take_range, Nat.min_eq_left short]
  apply congrArg (List.foldl FecEncoder.ingest FecEncoder.reset)
  apply List.map_congr_left
  intro position member
  have inside := List.mem_range.mp member
  have place : dataIdx (e.transfer.nextFragment / (fecGroupSize + 1) * (fecGroupSize + 1) +
      position) = e.transfer.nextFragment / (fecGroupSize + 1) * fecGroupSize + position := by
    simp only [dataIdx, fecGroupSize] at short inside ⊢
    omega
  exact congrArg (dataFragment file) place.symm

/-! ## Runs -/

/-- `start_file_transfer` with the surroundings it meets. -/
def startIn (e : TransferEngine F) (env : Env) (args : StartArgs) : Bool × TransferEngine F :=
  (e.setEnv env).startFileTransfer args

/-- The transfer is running before the call, and the reads of the call return all bytes. -/
def Transferring (e : TransferEngine F) (call : Call) : Prop :=
  e.transfer.active = true ∧ call.env.readLimits = []

theorem coded_run [PathArith F] {calls : List Call} (sending : Sending file base e)
    (tracked : Tracked e) (running : Along step Transferring e calls) :
    Tracked (e.run calls) ∧ Coded file base (e.run calls) := by
  refine running.keeps (fun e => Tracked e ∧ Coded file base e) ?_ ⟨tracked, .sending sending⟩
  intro e call ⟨active, full⟩ ⟨tracked, coded⟩
  exact ⟨tracked.step call, (coded.active active).step tracked full⟩

/-- After any run of calls during a mesh transfer whose reads return all bytes, whatever was
accepted, lost, sent again or redistributed: every parity on the air is the padded XOR of the
seven data fragments of its group; and as long as the transfer runs the windows have taken
every fragment at most once, the encoder holds the XOR of those of the current group, and the
out-of-window path builds the same parity from the file. -/
theorem parity_of_mesh_transfer [PathArith F] (myAddr maxElectedExits : Nat)
    (earlier : List Call) (env : Env) (args : StartArgs) (file : List UInt8) (calls : List Call)
    (sends : args.Sends file) (full : env.readLimits = [])
    (accepted : (((boot myAddr maxElectedExits : TransferEngine F).run earlier).startIn
      env args).1 = true)
    (running : Along step Transferring
      (((boot myAddr maxElectedExits : TransferEngine F).run earlier).startIn env args).2 calls) :
    let e := (boot myAddr maxElectedExits : TransferEngine F).run earlier
    let h := (e.startIn env args).2.run calls
    let group := h.transfer.nextFragment / (fecGroupSize + 1)
    let taken := (h.handedOver group).map fun seq => dataFragment file (dataIdx seq)
    Extends (Output.CarriesParity file) e.io.outputs h.io.outputs ∧
      (h.transfer.active = true →
        (assigned h.log).Pairwise (· > ·) ∧
        h.fecEncoder = taken.foldl FecEncoder.ingest FecEncoder.reset ∧
        h.fecEncoder.parityData = xorPad taken ∧
        ∀ seq < h.transfer.fragmentCount, isParitySlot seq = true →
          (h.oowPayload seq).1 = some (groupParity file (seq / (fecGroupSize + 1)))) := by
  intro e h group taken
  have reached : Tracked (e.setEnv env) :=
    ((Tracked.boot myAddr maxElectedExits).run earlier).of_flags rfl rfl rfl rfl rfl rfl rfl
  have begun : Sending file e.io.outputs (e.startIn env args).2 :=
    Sending.start reached sends full accepted
  obtain ⟨tracked, coded⟩ := coded_run begun (reached.startFileTransfer args) running
  refine ⟨coded.outputs.mono fun _ => Output.Carries.parity, fun active => ?_⟩
  have sending := coded.active active
  have encoder : h.fecEncoder = taken.foldl FecEncoder.ingest FecEncoder.reset :=
    sending.records.encoder.trans (tracked.encoderAt_handedOver file)
  have fits : maxLength taken ≤ maxMtu := by
    apply maxLength_le
    intro fragment member
    obtain ⟨seq, -, rfl⟩ := List.mem_map.mp member
    exact (List.length_take_le _ _).trans (by decide)
  refine ⟨tracked.mirrors.valid.handedOut.descending, encoder,
    (congrArg FecEncoder.parityData encoder).trans (parityData_foldl fits), ?_⟩
  intro seq announced parity
  rw [sending.oowPayload_parity parity announced, sentPayload_parity parity]

/-! ## A parity group -/

/-- Seven fragments, the last one of one byte. -/
def groupFile : List UInt8 := (List.range (6 * 1456 + 1)).map UInt8.ofNat

def groupArgs : StartArgs where
  filename := [102]
  size := 6 * 1456 + 1
  readChunk offset len := (List.range' offset len).map UInt8.ofNat

theorem sends_groupArgs : groupArgs.Sends groupFile where
  size := by rw [groupFile, List.length_map, List.length_range]; rfl
  small := by rw [groupFile, List.length_map, List.length_range]; decide
  meshPath := rfl
  reads := by
    intro offset len inside
    rw [groupFile, List.length_map, List.length_range] at inside
    have part : ((List.range (6 * 1456 + 1)).drop offset).take len = List.range' offset len :=
      List.ext_getElem (by simp; omega) fun _ _ _ => by simp
    rw [groupFile, ← List.map_drop, ← List.map_take, part]
    rfl

instance (e : TransferEngine F) (call : Call) : Decidable (Transferring e call) :=
  inferInstanceAs (Decidable (_ ∧ _))

/-- Two exits are elected, and eight ticks send the group and its parity. -/
def groupRun : List Call :=
  [smallOffer 10, smallOffer 11] ++ (List.range 8).map fun tick => tickAt (9000 + 100 * tick)

def Output.isFirstParity : Output → Bool
  | .sent _ .data 7 _ _ => true
  | _ => false

/-- The parity of the first group among the outputs. -/
theorem exists_groupParity {file : List UInt8} {before after : List Output}
    (coded : Extends (Output.CarriesParity file) before after) (silent : before = [])
    (sent : after.any Output.isFirstParity = true) :
    ∃ dst result, .sent dst .data 7 (groupParity file 0) result ∈ after := by
  obtain ⟨recent, grown, carry⟩ := coded
  rw [silent, List.append_nil] at grown
  obtain ⟨output, member, parity⟩ := List.any_eq_true.mp sent
  have carries := carry output (grown ▸ member)
  unfold Output.isFirstParity at parity
  split at parity
  · rename_i dst payload result
    obtain rfl : payload = groupParity file 0 := carries (by decide)
    exact ⟨dst, result, member⟩
  · contradiction

def groupStart : Bool × TransferEngine ℚ :=
  ((boot 1 4 : TransferEngine ℚ).run []).startIn smallStart.env groupArgs

/-- The parity on the air is that of the group. -/
theorem parity_of_group :
    (groupStart.2.run groupRun).transfer.active = true ∧
      ∃ dst result,
        .sent dst .data 7 (groupParity groupFile 0) result ∈
          (groupStart.2.run groupRun).io.outputs := by
  -- One evaluation of the run for all facts about it.
  have evaluated : groupStart.1 = true ∧ Along step Transferring groupStart.2 groupRun ∧
      (groupStart.2.run groupRun).transfer.active = true ∧
      (groupStart.2.run groupRun).io.outputs.any Output.isFirstParity = true := by
    decide +kernel
  obtain ⟨accepted, running, active, sent⟩ := evaluated
  obtain ⟨coded, _⟩ := parity_of_mesh_transfer 1 4 [] smallStart.env groupArgs groupFile groupRun
    sends_groupArgs rfl accepted running
  have start : ((boot 1 4 : TransferEngine ℚ).run []).startIn smallStart.env groupArgs =
      groupStart := rfl
  rw [start] at coded
  exact ⟨active, exists_groupParity coded rfl sent⟩

end TransferEngine

end ForestLink.Mesh
