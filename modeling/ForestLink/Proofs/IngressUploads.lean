/-
Module: ForestLink.Proofs.IngressUploads
Purpose: The way from the broker to the saved files: whatever exits relay a session, and in
  whatever order its messages arrive, are dropped by full channels and are taken up by
  `RunEngine`, every file that is saved is the upload of its session.
Trusted boundary: the two library functions in `Runtime`
Main exports: Ingress.turns, TruthfulMessage, TruthfulTurn, Flows, Flows.turn,
  ingress_saves_uploads
-/
import ForestLink.Proofs.SavedUploads
import ForestLink.Proofs.OvertakenMeta
import ForestLink.Proofs.ExitCount

namespace ForestLink.Cloud

open ForestLink.Lib
open ForestLink.Protocol

def Ingress.turns (rt : Runtime) (s : Ingress) : List Turn → Option Ingress
  | [] => some s
  | turn :: rest => do
      let s ← s.turn rt turn
      s.turns rt rest

/-! ## The uploads by their session ids -/

variable {rt : Runtime} {bySession : Nat → Option Upload}

/-- The number behind the last bar of a transfer key. -/
def keySession (key : String) : Option Int :=
  parseInt64 (String.ofList (key.toList.reverse.takeWhile (· != '|')).reverse)

/-- The upload behind a transfer key: the one of its session, whatever node it is filed under. -/
def uploadsOf (bySession : Nat → Option Upload) (key : String) : Option Upload :=
  (keySession key).bind fun sid => bySession sid.toNat

/-- A chunk is filed under the text of its session id. -/
theorem uploadsOf_transferKey (bySession : Nat → Option Upload) {sid : Nat} (small : sid < 2 ^ 16)
    (node : String) : uploadsOf bySession (transferKey (toString sid) node) = bySession sid := by
  have digits : (toString sid).toList = Nat.toDigits 10 sid := Nat.toList_repr
  have noBar : ∀ c ∈ (toString sid).toList.reverse, (c != '|') = true := by
    intro c member
    rw [List.mem_reverse, digits] at member
    have digit := Nat.isDigit_of_mem_toDigits (by decide) (by decide) member
    rw [bne_iff_ne]
    rintro rfl
    revert digit
    decide
  have tail : (((transferKey (toString sid) node).toList.reverse.takeWhile (· != '|')).reverse) =
      (toString sid).toList := by
    unfold transferKey
    rw [String.toList_append, String.toList_append, List.reverse_append, List.reverse_append,
      List.takeWhile_append_of_pos noBar]
    change ((toString sid).toList.reverse ++ []).reverse = _
    rw [List.append_nil, List.reverse_reverse]
  unfold uploadsOf keySession
  rw [tail, String.ofList_toList, parseInt64_toString (by omega), Option.bind_some,
    Int.toNat_natCast]

/-- What a message of the broker says is true of the upload of its session.  The meta message
names the session by its 16-bit id; a data message may come from any exit. -/
def TruthfulMessage (rt : Runtime) (bySession : Nat → Option Upload) (parts : List String)
    (payload : List UInt8) : Prop :=
  match parts with
  | _ :: exit :: "file" :: "meta" :: _ =>
      ∀ fm, rt.unmarshal payload = some fm → ∃ sid < 2 ^ 16, fm.sessionId = toString sid ∧
        ∃ u, bySession sid = some u ∧ u.Describes (fm.withNode (sourceOf rt exit fm))
  | _ :: _ :: "file" :: "data" :: _ =>
      match payload with
      | sidLow :: sidHigh :: seqLow :: seqHigh :: data =>
          ∀ u, bySession (sidLow.toNat + 256 * sidHigh.toNat) = some u →
            seqLow.toNat + 256 * seqHigh.toNat < u.layout.chunkCount u.file.length ∧
            data = fragmentPayload u.layout u.file (seqLow.toNat + 256 * seqHigh.toNat)
      | _ => True
  | _ => True

/-- Every message of a turn is truthful. -/
def TruthfulTurn (rt : Runtime) (bySession : Nat → Option Upload) : Turn → Prop
  | .arrival (.message parts payload) => TruthfulMessage rt bySession parts payload
  | _ => True

/-- The engine serves the uploads, and what waits in the channels is true of them. -/
structure Flows (bySession : Nat → Option Upload) (s : Ingress) : Prop where
  serving : Engine.Serving (uploadsOf bySession) s.engine
  metas : ∀ m ∈ s.client.metaCh, Engine.Truthful (uploadsOf bySession) (.file m)
  chunks : ∀ c ∈ s.client.chunkCh, Engine.Truthful (uploadsOf bySession) (.chunk c)

/-- A channel takes a message or drops it. -/
theorem mem_sent {α : Type} {channel : List α} {capacity : Nat} {x y : α}
    (member : y ∈ if channel.length < capacity then channel ++ [x] else channel) :
    y ∈ channel ∨ y = x := by
  split at member
  · rcases List.mem_append.mp member with old | new
    · exact .inl old
    · exact .inr (List.mem_singleton.mp new)
  · exact .inl member

theorem Flows.onMessage {s : Ingress} (flows : Flows bySession s) {parts : List String}
    {payload : List UInt8} (truthful : TruthfulMessage rt bySession parts payload) :
    Flows bySession { s with client := s.client.onMessage rt parts payload } := by
  unfold Client.onMessage
  split
  · rename_i topic exit rest
    unfold Client.onFileMeta
    cases decoded : rt.unmarshal payload with
    | none => exact flows
    | some fm =>
        obtain ⟨sid, small, printed, u, isUpload, describes⟩ := truthful fm decoded
        refine ⟨flows.serving, fun m member => ?_, flows.chunks⟩
        rcases mem_sent member with waiting | rfl
        · exact flows.metas m waiting
        · refine ⟨u, ?_, describes⟩
          change uploadsOf bySession (transferKey fm.sessionId (sourceOf rt exit fm)) = some u
          rw [printed, uploadsOf_transferKey bySession small]
          exact isUpload
  · rename_i topic exit rest
    rw [Client.onFileData_eq]
    cases decoded : s.client.decodeFileData exit payload with
    | none => exact flows
    | some chunk =>
        obtain ⟨sidLow, sidHigh, seqLow, seqHigh, rfl, session, seq, -⟩ :=
          Client.decodeFileData_eq_some decoded
        refine ⟨flows.serving, flows.metas, fun c member => ?_⟩
        rcases mem_sent member with waiting | rfl
        · exact flows.chunks c waiting
        · intro u isUpload
          have lowSmall := sidLow.toNat_lt
          have highSmall := sidHigh.toNat_lt
          have known : uploadsOf bySession _ = some u := isUpload
          unfold FileChunk.key at known
          rw [uploadsOf_transferKey bySession (by rw [session]; omega), session] at known
          obtain ⟨inRange, dataEq⟩ := truthful u known
          rw [← seq] at inRange dataEq
          exact ⟨inRange, dataEq⟩
  · exact flows

/-- A turn with a truthful message does not panic. -/
theorem Flows.turn {s : Ingress} (flows : Flows bySession s) {turn : Turn}
    (truthful : TruthfulTurn rt bySession turn) :
    ∃ after, s.turn rt turn = some after ∧ Flows bySession after := by
  cases turn with
  | tick now =>
      obtain ⟨engine, ran, serving⟩ := flows.serving.onTick now
      exact ⟨{ s with engine := engine }, by rw [Ingress.turn, ran]; rfl, serving, flows.metas,
        flows.chunks⟩
  | arrival a =>
      cases a with
      | message parts payload => exact ⟨_, rfl, flows.onMessage truthful⟩
      | receiveMeta now =>
          rw [Ingress.turn, Ingress.step]
          cases waiting : s.client.metaCh with
          | nil => exact ⟨s, rfl, flows⟩
          | cons m rest =>
              have isTrue := flows.metas
              rw [waiting] at isTrue
              obtain ⟨engine, ran, serving⟩ :=
                flows.serving.onMeta (isTrue m List.mem_cons_self) now
              refine ⟨⟨{ s.client with metaCh := rest }, engine⟩, ?_, serving,
                fun other member => isTrue other (List.mem_cons_of_mem m member), flows.chunks⟩
              dsimp only
              rw [ran]
              rfl
      | receiveChunk now =>
          rw [Ingress.turn, Ingress.step]
          cases waiting : s.client.chunkCh with
          | nil => exact ⟨s, rfl, flows⟩
          | cons c rest =>
              have isTrue := flows.chunks
              rw [waiting] at isTrue
              obtain ⟨engine, ran, serving⟩ :=
                flows.serving.onChunk (isTrue c List.mem_cons_self) now
              refine ⟨⟨{ s.client with chunkCh := rest }, engine⟩, ?_, serving, flows.metas,
                fun other member => isTrue other (List.mem_cons_of_mem c member)⟩
              dsimp only
              rw [ran]
              rfl

theorem Flows.turns {s : Ingress} (flows : Flows bySession s) {turns : List Turn}
    (truthful : ∀ turn ∈ turns, TruthfulTurn rt bySession turn) :
    ∃ after, s.turns rt turns = some after ∧ Flows bySession after := by
  induction turns generalizing s with
  | nil => exact ⟨s, rfl, flows⟩
  | cons turn rest inductionHypothesis =>
      obtain ⟨next, here, nextFlows⟩ := flows.turn (truthful turn List.mem_cons_self)
      obtain ⟨after, behind, served⟩ := inductionHypothesis nextFlows fun other member =>
        truthful other (List.mem_cons_of_mem turn member)
      refine ⟨after, ?_, served⟩
      rw [Ingress.turns, here]
      exact behind

/-- Messages of any exits in any order, any channel overflows, any times: nothing panics, and
every file saved is the upload of a session, with its content, under its own node and name. -/
theorem ingress_saves_uploads (rt : Runtime) (bySession : Nat → Option Upload)
    (srWindow srTimeout : Nat) (turns : List Turn)
    (truthful : ∀ turn ∈ turns, TruthfulTurn rt bySession turn) :
    ∃ s, Ingress.turns rt ⟨{}, newEngine srWindow srTimeout⟩ turns = some s ∧
      ∀ node name content, .save node name content ∈ s.engine.trace →
        ∃ sid u, bySession sid = some u ∧
          u.nodeId = node ∧ u.filename = name ∧ u.file = content := by
  have start : Flows bySession ⟨{}, newEngine srWindow srTimeout⟩ :=
    ⟨Engine.serving_newEngine _ _ _, fun _ none => absurd none List.not_mem_nil,
      fun _ none => absurd none List.not_mem_nil⟩
  obtain ⟨s, ran, flows⟩ := start.turns truthful
  refine ⟨s, ran, fun node name content saved => ?_⟩
  obtain ⟨session, u, _, isUpload, rest⟩ :=
    flows.serving.uploading.saves.files node name content saved
  obtain ⟨sid, _, known⟩ := Option.bind_eq_some_iff.mp isUpload
  exact ⟨sid.toNat, u, known, rest⟩

/-- The upload of session 7, whose messages node `000b` relays for node `000a`. -/
def relayedUpload : Upload where
  nodeId := "000a"
  sessionId := "7"
  filename := "f"
  file := [7]
  layout := .mesh

def relayedUploads (sid : Nat) : Option Upload := if sid = 7 then some relayedUpload else none

/-- The fields of its meta message. -/
def relayedMeta : MetaPayload where
  sessionId := "7"
  sourceNode := "0x000A"
  filename := "f"
  totalSize := 1
  chunkCount := 1
  crc32 := (crc32ChecksumIeee [7]).toNat
  fragmentSize := 1456

/-- A library to which one text is the meta message. -/
def oneTextRuntime (text : List UInt8) : Runtime where
  toLower := Char.toLower
  unmarshal := fun payload => if payload = text then some relayedMeta else none

/-- The chunk, its meta message, and the engine taking them up in the other order. -/
def relayedTurns (text : List UInt8) : List Turn :=
  let data := Turn.arrival (.message ["flp", "000b", "file", "data"] [7, 0, 0, 0, 7])
  [data, .arrival (.message ["flp", "000b", "file", "meta"] text), data,
    .arrival (.receiveMeta 1000), .arrival (.receiveChunk 1001), .tick 2000,
    .arrival (.receiveChunk 2001)]

theorem ingress_saves_uploads_relayed : ∃ s,
    Ingress.turns (oneTextRuntime [1]) ⟨{}, newEngine 64 5⟩ (relayedTurns [1]) = some s ∧
    .save "000a" "f" [7] ∈ s.engine.trace ∧
    ∀ node name content, .save node name content ∈ s.engine.trace →
      ∃ sid u, relayedUploads sid = some u ∧
        u.nodeId = node ∧ u.filename = name ∧ u.file = content := by
  have data : TruthfulMessage (oneTextRuntime [1]) relayedUploads
      ["flp", "000b", "file", "data"] [7, 0, 0, 0, 7] := by
    intro u isUpload
    cases isUpload
    exact ⟨by decide, by decide⟩
  have metaTruthful : TruthfulMessage (oneTextRuntime [1]) relayedUploads
      ["flp", "000b", "file", "meta"] [1] := by
    intro fm decoded
    cases decoded
    refine ⟨7, by decide, by decide, relayedUpload, rfl, ?_, rfl, rfl, rfl, rfl, rfl, rfl, ?_⟩
    · decide +kernel
    · decide
  obtain ⟨s, ran, saves⟩ := ingress_saves_uploads (oneTextRuntime [1]) relayedUploads 64 5
    (relayedTurns [1]) (by
      intro turn member
      simp only [relayedTurns, List.mem_cons, List.not_mem_nil, or_false] at member
      rcases member with rfl | rfl | rfl | rfl | rfl | rfl | rfl
      · exact data
      · exact metaTruthful
      · exact data
      all_goals exact trivial)
  have computed : (Ingress.turns (oneTextRuntime [1]) ⟨{}, newEngine 64 5⟩
      (relayedTurns [1])).any (fun s =>
        s.engine.trace.contains (.save "000a" "f" [7])) = true := by
    decide +kernel
  rw [ran, Option.any_some, List.contains_iff_mem] at computed
  exact ⟨s, ran, computed, saves⟩

end ForestLink.Cloud
