/-
Module: ForestLink.Proofs.TransferMetaJson
Purpose: The meta of a mesh transfer from `publish_transfer_meta` to `json.Unmarshal`: which
  file names survive.
Trusted boundary: none
Main exports: transferMetaJson_written, transfer_meta_survives_iff
-/
import ForestLink.Lib.JsonObject
import ForestLink.Cloud.MetaJson
import ForestLink.Mqtt.FileMessages
import ForestLink.Mesh.Handlers

namespace ForestLink.Cloud

open ForestLink.Lib
open ForestLink.Mqtt
open ForestLink.Protocol
open ForestLink.Mesh

/-! ## Plain pieces -/

theorem upperHexDigit_plain (digit : Nat) :
    upperHexDigit (digit % 16) < 0x80 ∧ isSpecial (upperHexDigit (digit % 16)) = false := by
  have small := Nat.mod_lt digit (show 16 > 0 by decide)
  interval_cases digit % 16 <;> decide

/-- `0x%04X` -/
def nodeText (node : Nat) : List UInt8 := ascii "0x" ++ upperHex4 node

theorem nodeText_plain (node : Nat) : PlainText (nodeText node) := by
  apply PlainText.of_ascii
  have start : ∀ byte ∈ ascii "0x", byte < 0x80 ∧ isSpecial byte = false := by
    decide +kernel
  intro byte member
  rcases List.mem_append.mp member with front | digits
  · exact start byte front
  · simp only [upperHex4, List.map_cons, List.map_nil, List.mem_cons, List.not_mem_nil,
      or_false] at digits
    rcases digits with rfl | rfl | rfl | rfl <;> exact upperHexDigit_plain _

theorem metaField_name (field : MetaField) : metaField field.name = some field := by
  cases field <;> rfl

theorem name_plain (field : MetaField) : PlainText field.name := by
  apply PlainText.of_ascii
  cases field <;> decide +kernel

/-! ## The message as an object -/

/-- The values that a meta stands for. -/
def metaFields (t : TransferMeta) : MetaFields where
  sessionId := decimal t.sessionId
  sourceNode := nodeText t.srcNode
  filename := t.filename
  totalSize := t.totalSize
  chunkCount := t.chunkCount
  crc32 := t.crc32
  fragmentSize := t.fragmentSize

/-- The arguments of `publish_transfer_meta` have the types it gives them. -/
structure Typed (t : TransferMeta) : Prop where
  sessionId : t.sessionId < 2 ^ 16
  srcNode : t.srcNode < 2 ^ 16
  exitNode : t.exitNode < 2 ^ 16
  totalSize : t.totalSize < 2 ^ 32
  chunkCount : t.chunkCount < 2 ^ 16
  fragmentSize : t.fragmentSize < 2 ^ 16
  crc32 : t.crc32 < 2 ^ 32
  filename : ∀ byte ∈ t.filename, byte ≠ 0

def metaMembers (t : TransferMeta) : List (List UInt8 × JsonValue) :=
  [(MetaField.sessionId.name, .number (decimal t.sessionId)),
    (MetaField.filename.name, .string t.filename),
    (MetaField.sourceNode.name, .string (nodeText t.srcNode)),
    (ascii "exit_node", .string (nodeText t.exitNode)),
    (MetaField.totalSize.name, .number (decimal t.totalSize)),
    (MetaField.chunkCount.name, .number (decimal t.chunkCount)),
    (MetaField.fragmentSize.name, .number (decimal t.fragmentSize)),
    (MetaField.crc32.name, .number (decimal t.crc32))]

/-- With a plain name the message is an object that is written out. -/
theorem transferMetaJson_written {t : TransferMeta} (typed : Typed t)
    (plain : PlainText t.filename) :
    ∃ text, transferMetaJson t = 0x7B :: (text ++ [0x7D]) ∧
      WrittenMembers text (metaMembers t) := by
  have exitNode : PlainText (ascii "exit_node") := by
    apply PlainText.of_ascii
    decide +kernel
  have written : WrittenMembers _ (metaMembers t) :=
    .cons (name_plain _) (.number _) <| .cons (name_plain _) (.string plain) <|
      .cons (name_plain _) (.string (nodeText_plain _)) <|
      .cons exitNode (.string (nodeText_plain _)) <| .cons (name_plain _) (.number _) <|
      .cons (name_plain _) (.number _) <| .cons (name_plain _) (.number _) <|
      .last (name_plain _) (.number _)
  refine ⟨_, ?_, written⟩
  delta transferMetaJson
  rw [cString_eq typed.filename]
  simp [ascii, MetaField.name, nodeText]

/-! ## Reading the members -/

theorem any_decimal (n : Nat) : (decimal n).any (fun byte => !isDigit byte) = false := by
  rw [List.any_eq_false]
  intro byte member
  simp [isDigit_of_mem_decimal byte member]

theorem parseInt_decimal {n : Nat} (small : n < 2 ^ 63) : parseInt (decimal n) = some (n : Int) := by
  obtain ⟨first, digits, written, digit⟩ := decimal_cons n
  have unsigned : cSign (decimal n) = (false, decimal n) := by
    rw [written]
    unfold cSign
    split
    · rename_i same
      obtain ⟨rfl, -⟩ := List.cons.inj same
      cases digit
    · rename_i same
      obtain ⟨rfl, -⟩ := List.cons.inj same
      cases digit
    · rfl
  have digits := any_decimal n
  simp [parseInt, unsigned, decimal_ne_nil, digits]
  omega

theorem parseUint32_decimal {n : Nat} (small : n < 2 ^ 32) :
    parseUint32 (decimal n) = some n := by
  have digits := any_decimal n
  simp [parseUint32, decimal_ne_nil, digits]
  omega

theorem storeMember_name (fields : MetaFields) (field : MetaField) (value : JsonValue) :
    fields.storeMember (field.name, value) = fields.store field value := by
  rw [MetaFields.storeMember, metaField_name]

/-- The exit's address has no field. -/
theorem storeMember_exitNode (fields : MetaFields) (value : JsonValue) :
    fields.storeMember (ascii "exit_node", value) = some fields := rfl

theorem foldlM_metaMembers {t : TransferMeta} (typed : Typed t) :
    (metaMembers t).foldlM MetaFields.storeMember {} = some (metaFields t) := by
  have totalSize := parseInt_decimal (typed.totalSize.trans (by decide))
  have chunkCount := parseInt_decimal (typed.chunkCount.trans (by decide))
  have fragmentSize := parseInt_decimal (typed.fragmentSize.trans (by decide))
  have crc32 := parseUint32_decimal typed.crc32
  simp only [metaMembers, List.foldlM_cons, List.foldlM_nil, storeMember_name,
    storeMember_exitNode, MetaFields.store, totalSize, chunkCount, fragmentSize, crc32,
    Option.map_some, Option.bind_eq_bind, Option.bind_some, Option.pure_def]
  rfl

/-- A plain name comes back, and so does everything else. -/
theorem unmarshalMeta_plain {t : TransferMeta} (typed : Typed t)
    (plain : PlainText t.filename) :
    unmarshalMeta (transferMetaJson t) = some (metaFields t) := by
  obtain ⟨text, shape, written⟩ := transferMetaJson_written typed plain
  have read := written.readObject []
  rw [shape]
  change ((readObject (jsonFuel (text ++ [0x7D])) (text ++ [0x7D])).bind fun read =>
    if skipSpace read.2 = [] then read.1.foldlM MetaFields.storeMember {} else none) = _
  rw [read, Option.bind_some]
  exact foldlM_metaMembers typed

/-! ## Where the name comes from -/

theorem store_filename {fields next : MetaFields} {field : MetaField} {value : JsonValue}
    (stored : fields.store field value = some next) :
    next.filename = fields.filename ∨ value = .string next.filename := by
  unfold MetaFields.store at stored
  split at stored
  case h_5 =>
    cases stored
    exact .inr rfl
  case h_3 =>
    split at stored
    · cases stored
      exact .inl rfl
    · cases stored
  case h_6 | h_7 | h_8 | h_9 =>
    obtain ⟨number, -, rfl⟩ := Option.map_eq_some_iff.mp stored
    exact .inl rfl
  case h_1 | h_2 | h_4 =>
    cases stored
    exact .inl rfl
  case h_10 => cases stored

theorem storeMember_filename {fields next : MetaFields} {member : List UInt8 × JsonValue}
    (stored : fields.storeMember member = some next) :
    next.filename = fields.filename ∨ member.2 = .string next.filename := by
  unfold MetaFields.storeMember at stored
  split at stored
  · exact store_filename stored
  · cases stored
    exact .inl rfl

/-- The name of a reading is the string of a member, when there is a name. -/
theorem foldlM_filename {members : List (List UInt8 × JsonValue)} {fields result : MetaFields}
    (stored : members.foldlM MetaFields.storeMember fields = some result) :
    result.filename = fields.filename ∨ ∃ key, (key, .string result.filename) ∈ members := by
  induction members generalizing fields with
  | nil =>
      cases stored
      exact .inl rfl
  | cons member members inductionHypothesis =>
      rw [List.foldlM_cons] at stored
      obtain ⟨next, here, later⟩ := Option.bind_eq_some_iff.mp stored
      rcases inductionHypothesis later with same | ⟨key, inside⟩
      · rcases storeMember_filename here with kept | string
        · exact .inl (same.trans kept)
        · refine .inr ⟨member.1, ?_⟩
          rw [same, ← string]
          exact List.mem_cons_self
      · exact .inr ⟨key, List.mem_cons_of_mem _ inside⟩

/-- A name that is read stands between quotes. -/
theorem unmarshalMeta_quoted {text : List UInt8} {fields : MetaFields}
    (read : unmarshalMeta (0x7B :: text) = some fields) :
    fields.filename = [] ∨ Quoted text fields.filename := by
  change ((readObject (jsonFuel text) text).bind fun read =>
    if skipSpace read.2 = [] then read.1.foldlM MetaFields.storeMember {} else none) = _ at read
  obtain ⟨⟨members, rest⟩, readObject, read⟩ := Option.bind_eq_some_iff.mp read
  dsimp only at read
  split at read
  · rcases foldlM_filename read with empty | ⟨key, member⟩
    · exact .inl empty
    · exact .inr (((readersKeep _).object readObject).2 key _ member)
  · cases read

/-! ## Only plain names come back -/

theorem backslash_not_mem_decimal (n : Nat) : 0x5C ∉ decimal n :=
  fun member => nomatch isDigit_of_mem_decimal 0x5C member

theorem backslash_not_mem_nodeText (node : Nat) : 0x5C ∉ nodeText node :=
  count_eq_zero_of_ordinary (nodeText_plain node).ordinary isSpecial_backslash

/-- What stands around the name has no backslash. -/
theorem transferMetaJson_around {t : TransferMeta} (typed : Typed t) :
    ∃ front rest, transferMetaJson t = 0x7B :: (front ++ 0x22 :: (t.filename ++ 0x22 :: rest)) ∧
      0x5C ∉ front ∧ 0x5C ∉ rest := by
  refine ⟨ascii "\"session_id\":" ++ decimal t.sessionId ++ ascii ",\"filename\":",
    ascii ",\"src_node\":\"" ++ nodeText t.srcNode ++
      ascii "\",\"exit_node\":\"" ++ nodeText t.exitNode ++
      ascii "\",\"total_size\":" ++ decimal t.totalSize ++
      ascii ",\"chunk_count\":" ++ decimal t.chunkCount ++
      ascii ",\"fragment_size\":" ++ decimal t.fragmentSize ++
      ascii ",\"crc32\":" ++ decimal t.crc32 ++ ascii "\x7d", ?_, ?_, ?_⟩
  · delta transferMetaJson
    rw [cString_eq typed.filename]
    simp [ascii, nodeText]
  · simp [ascii, backslash_not_mem_decimal]
  · simp [ascii, backslash_not_mem_nodeText, backslash_not_mem_decimal]

theorem plainText_nil : PlainText [] where
  valid := rfl
  ordinary _ member := nomatch member

/-- A name that comes back as it was is plain. -/
theorem plainText_of_unmarshalMeta {t : TransferMeta} (typed : Typed t) {fields : MetaFields}
    (read : unmarshalMeta (transferMetaJson t) = some fields)
    (same : fields.filename = t.filename) : PlainText t.filename := by
  obtain ⟨front, rest, shape, frontClean, restClean⟩ := transferMetaJson_around typed
  rw [shape] at read
  rcases unmarshalMeta_quoted read with empty | quoted
  · rw [← same, empty]
    exact plainText_nil
  · rw [same] at quoted
    exact quoted.plain frontClean restClean

/-! ## Transfer metas -/

/-- The message that `publish_transfer_meta` sends for a transfer is read as exactly its values
if and only if the file name is well-formed UTF-8 without quotes, backslashes and control
bytes. -/
theorem transfer_meta_survives_iff {m : MqttClient} {t : TransferMeta} {outboxSize : Nat}
    {connected : Bool} {message : List UInt8} (typed : Typed t)
    (published : (m.publishTransferMeta t outboxSize connected).1 = some message) :
    unmarshalMeta message = some (metaFields t) ↔ PlainText t.filename := by
  have sent : message = transferMetaJson t := by
    unfold MqttClient.publishTransferMeta at published
    dsimp only at published
    split at published
    · cases published
    · split at published
      · dsimp only at published
        unfold metaMessage at published
        split at published
        · cases published
        · exact (Option.some.inj published).symm
      · cases published
  rw [sent]
  exact ⟨fun read => plainText_of_unmarshalMeta typed read rfl, unmarshalMeta_plain typed⟩

/-- A transfer of 13 fragments of 1000 bytes from node beef through exit 0012. -/
def sampleMeta (filename : List UInt8) : TransferMeta where
  sessionId := 300
  filename := filename
  srcNode := 0xBEEF
  exitNode := 0x0012
  totalSize := 12345
  chunkCount := 13
  fragmentSize := 1000
  crc32 := 4294967295

def sampleClient : MqttClient where
  nodeAddr := 0x0012

/-- The name `a.bin`. -/
theorem sample_meta_survives :
    unmarshalMeta (transferMetaJson (sampleMeta (ascii "a.bin"))) =
      some (metaFields (sampleMeta (ascii "a.bin"))) := by
  have plain : PlainText (ascii "a.bin") := by
    apply PlainText.of_ascii
    decide +kernel
  have typed : Typed (sampleMeta (ascii "a.bin")) := by
    constructor <;> decide +kernel
  have published : (sampleClient.publishTransferMeta (sampleMeta (ascii "a.bin")) 0 true).1 =
      some (transferMetaJson (sampleMeta (ascii "a.bin"))) := by decide +kernel
  exact (transfer_meta_survives_iff typed published).mpr plain

/-- An advertisement of a file named `a"b`. -/
def quotedAd : TransferAd where
  sessionId := 300
  fileSize := 12345
  fragmentSizeD8 := 125
  crc32 := 4294967295
  fragmentCount := 13
  filenameLen := 3
  filename := ascii "a\"b"

/-- The exit publishes the name of the advertisement as it is, and the cloud drops the
message. -/
theorem quoted_name_dropped :
    TransferEngine.adFilename quotedAd = ascii "a\"b" ∧
      Typed (sampleMeta (ascii "a\"b")) ∧
      (sampleClient.publishTransferMeta (sampleMeta (ascii "a\"b")) 0 true).1 =
        some (transferMetaJson (sampleMeta (ascii "a\"b"))) ∧
      unmarshalMeta (transferMetaJson (sampleMeta (ascii "a\"b"))) = none := by
  refine ⟨by decide, ?_, by decide +kernel, by decide +kernel⟩
  constructor <;> decide +kernel

end ForestLink.Cloud
