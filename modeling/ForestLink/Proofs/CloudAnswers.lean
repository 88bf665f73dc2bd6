/-
Module: ForestLink.Proofs.CloudAnswers
Purpose: The acknowledgements and NACKs of the cloud, read by the firmware without a JSON
  parser.
Trusted boundary: none
Main exports: seqsLoop_ends, seqsLoop_numbers, cloud_answers_round_trip
-/
import ForestLink.Cloud.Publish
import ForestLink.Mqtt.CloudEvents

namespace ForestLink.Mqtt

open ForestLink.Lib
open ForestLink.Cloud

/-! ## The loop ends -/

/-- A round shortens the text. -/
theorem seqsStep_shorter {sessionId : Nat} {text : List UInt8} {nackQueue : List SessionItem}
    {next : List UInt8 × List SessionItem}
    (step : seqsStep sessionId (text, nackQueue) = some next) : next.1.length < text.length := by
  cases text with
  | nil => cases step
  | cons byte after =>
      have reads := length_strtol longBits (byte :: after)
      unfold seqsStep at step
      dsimp only at step
      split at step
      · cases step
      · split at step
        · obtain rfl := Option.some.inj step
          exact Nat.lt_succ_self _
        · rename_i read
          have shorter := reads.resolve_left read
          split at step
          · rename_i rest comma
            obtain rfl := Option.some.inj step
            rw [comma] at shorter
            exact (Nat.lt_succ_self _).trans shorter
          · obtain rfl := Option.some.inj step
            exact shorter

/-- As many rounds as there are bytes are enough, whatever the bytes are. -/
theorem seqsLoop_ends (sessionId : Nat) {rounds : Nat} {text : List UInt8}
    (nackQueue : List SessionItem) (enough : text.length ≤ rounds) :
    seqsStep sessionId (seqsLoop sessionId rounds (text, nackQueue)) = none := by
  induction rounds generalizing text nackQueue with
  | zero =>
      obtain rfl := List.length_eq_zero_iff.mp (Nat.le_zero.mp enough)
      rfl
  | succ rounds inductionHypothesis =>
      unfold seqsLoop
      cases step : seqsStep sessionId (text, nackQueue) with
      | none => exact step
      | some next =>
          have shorter := seqsStep_shorter step
          exact inductionHypothesis next.2 (by omega)

/-! ## Numbers -/

theorem endsNumber_cons {byte : UInt8} (other : isDigit byte = false) (text : List UInt8) :
    EndsNumber (byte :: text) := by
  simpa [EndsNumber] using other

/-- A number of 16 bits with other text behind it. -/
theorem strtol_uint16 {n : Nat} {text : List UInt8} (small : n < 2 ^ 16) (ends : EndsNumber text) :
    strtol longBits (decimal n ++ text) = ((n : Int), text) :=
  strtol_decimal (small.trans (by decide)) ends

theorem decimal_append_ne (n : Nat) (text : List UInt8) : text ≠ decimal n ++ text := by
  intro same
  have length := congrArg List.length same
  have filled := List.length_pos_of_ne_nil (decimal_ne_nil n)
  rw [List.length_append] at length
  omega

theorem topicSession_decimal {sessionId : Nat} (small : sessionId < 2 ^ 16) :
    topicSession (decimal sessionId) = some sessionId := by
  have read := @strtol_uint16 sessionId [] small (by simp [EndsNumber])
  rw [List.append_nil] at read
  unfold topicSession
  rw [read]
  have filled := (decimal_ne_nil sessionId).symm
  simp [filled, uint16Max]
  omega

theorem seqField_decimal {seq : Nat} (small : seq < 2 ^ 16) {text : List UInt8}
    (ends : EndsNumber text) : seqField (decimal seq ++ text) = some seq := by
  unfold seqField
  rw [strtol_uint16 small ends]
  have other := decimal_append_ne seq text
  simp [other, uint16Max]
  omega

/-! ## The array -/

/-- The items of a session for numbers, in their order. -/
def sessionItems (sessionId : Nat) (seqs : List Nat) : List SessionItem :=
  seqs.map fun seq => { sessionId := sessionId, seq := seq }

theorem send_of_room {nackQueue : List SessionItem} (room : nackQueue.length < nackQueueDepth)
    (item : SessionItem) :
    (SessionQueue.send nackQueueDepth nackQueue item).2 = nackQueue ++ [item] := by
  simp [SessionQueue.send, room]

/-- The round that meets a number: it is queued, and a comma behind it skipped. -/
theorem seqsStep_number (sessionId : Nat) {n : Nat} {nackQueue : List SessionItem} {next : UInt8}
    {text : List UInt8} (small : n < 2 ^ 16) (room : nackQueue.length < nackQueueDepth)
    (ends : isDigit next = false) :
    seqsStep sessionId (decimal n ++ next :: text, nackQueue) =
      some (if next = 0x2C then text else next :: text,
        nackQueue ++ sessionItems sessionId [n]) := by
  obtain ⟨byte, digits, written, digit⟩ := decimal_cons n
  have read := strtol_uint16 small (endsNumber_cons ends text)
  have other := decimal_append_ne n (next :: text)
  have notEnd : byte ≠ 0x5D := by
    rintro rfl
    cases digit
  have inRange : (n : Int) ≥ 0 ∧ (n : Int) ≤ uint16Max := by
    simp only [uint16Max]
    omega
  rw [written, List.cons_append] at read other ⊢
  unfold seqsStep
  dsimp only
  rw [if_neg notEnd, read]
  dsimp only
  rw [if_neg other, if_pos inRange, send_of_room room, Int.toNat_natCast]
  by_cases comma : next = 0x2C
  · subst comma
    rfl
  · rw [if_neg comma]
    split
    · rename_i same
      exact absurd (List.cons.inj same).1 comma
    · rfl

/-- The loop queues all numbers of an array, as long as there is room. -/
theorem seqsLoop_numbers (sessionId : Nat) {seqs : List Nat} {nackQueue : List SessionItem}
    (small : ∀ seq ∈ seqs, seq < 2 ^ 16)
    (room : nackQueue.length + seqs.length ≤ nackQueueDepth) (text : List UInt8) {rounds : Nat}
    (enough : seqs.length ≤ rounds) :
    (seqsLoop sessionId rounds (jsonNumbers seqs ++ 0x5D :: text, nackQueue)).2 =
      nackQueue ++ sessionItems sessionId seqs := by
  induction seqs generalizing nackQueue rounds with
  | nil =>
      simp only [jsonNumbers, sessionItems, List.nil_append, List.map_nil, List.append_nil]
      cases rounds with
      | zero => rfl
      | succ rounds => rfl
  | cons n rest inductionHypothesis =>
      rw [List.length_cons] at room enough
      obtain ⟨rounds, rfl⟩ : ∃ fewer, rounds = fewer + 1 := ⟨rounds - 1, by omega⟩
      have here := small n List.mem_cons_self
      have there : ∀ seq ∈ rest, seq < 2 ^ 16 :=
        fun seq member => small seq (List.mem_cons_of_mem _ member)
      cases rest with
      | nil =>
          have step := @seqsStep_number sessionId n nackQueue 0x5D text here
            (show nackQueue.length < nackQueueDepth by omega) rfl
          rw [jsonNumbers, seqsLoop, step]
          cases rounds with
          | zero => rfl
          | succ rounds => rfl
      | cons m more =>
          have step := @seqsStep_number sessionId n nackQueue 0x2C
            (jsonNumbers (m :: more) ++ 0x5D :: text) here
            (show nackQueue.length < nackQueueDepth by omega) rfl
          have shape : jsonNumbers (n :: m :: more) ++ 0x5D :: text =
              decimal n ++ 0x2C :: (jsonNumbers (m :: more) ++ 0x5D :: text) := by
            have comma : ascii "," = [0x2C] := rfl
            simp [jsonNumbers, comma]
          rw [shape, seqsLoop, step]
          dsimp only
          rw [if_pos rfl, inductionHypothesis there
            (by simp [sessionItems, nackQueueDepth] at room ⊢; omega) (by omega)]
          simp [sessionItems]

/-- A number takes a byte at least. -/
theorem length_jsonNumbers (seqs : List Nat) : seqs.length ≤ (jsonNumbers seqs).length := by
  induction seqs with
  | nil => exact Nat.zero_le _
  | cons n rest inductionHypothesis =>
      have filled := List.length_pos_of_ne_nil (decimal_ne_nil n)
      cases rest with
      | nil => exact filled
      | cons m more =>
          simp only [jsonNumbers, List.length_append, List.length_cons] at inductionHypothesis ⊢
          omega

/-! ## Messages -/

/-- Text without NUL that fits its buffer is read as it is. -/
theorem cString_take {text : List UInt8} {size : Nat} (fits : text.length ≤ size)
    (noNul : ∀ byte ∈ text, byte ≠ 0) : cString (text.take size) = text := by
  rw [List.take_of_length_le fits, cString_eq noNul]

theorem noNul_ascii {text : String} (noNul : (ascii text).all (· != 0) = true) :
    ∀ byte ∈ ascii text, byte ≠ 0 := by
  simpa using noNul

theorem noNul_append {front back : List UInt8} (first : ∀ byte ∈ front, byte ≠ 0)
    (second : ∀ byte ∈ back, byte ≠ 0) : ∀ byte ∈ front ++ back, byte ≠ 0 := by
  intro byte member
  rcases List.mem_append.mp member with here | there
  · exact first byte here
  · exact second byte there

theorem noNul_jsonNumbers (seqs : List Nat) : ∀ byte ∈ jsonNumbers seqs, byte ≠ 0 := by
  induction seqs with
  | nil => simp [jsonNumbers]
  | cons n rest inductionHypothesis =>
      cases rest with
      | nil => exact ne_zero_of_mem_decimal
      | cons m more =>
          exact noNul_append (noNul_append ne_zero_of_mem_decimal (noNul_ascii rfl))
            inductionHypothesis

theorem length_decimal_uint16 {n : Nat} (small : n < 2 ^ 16) : (decimal n).length ≤ 5 :=
  length_decimal_le (by decide) (small.trans (by decide))

/-- No digit opens a text. -/
theorem not_quote_of_mem_decimal {n : Nat} : ∀ byte ∈ decimal n, byte ≠ 0x22 := by
  intro byte member same
  have digit := isDigit_of_mem_decimal byte member
  rw [same] at digit
  cases digit

namespace CloudInbox

variable {q : CloudInbox} {sessionId seq : Nat}

/-- The topic of an answer leads to its handler. -/
theorem handle_ackTopic (small : sessionId < 2 ^ 16) {data : List UInt8} (filled : data ≠ []) :
    q.handleMqttEvent (ackTopic sessionId) data = q.onAck (decimal sessionId) data := by
  have short : (ackTopic sessionId).length ≤ 127 := by
    have digits := length_decimal_uint16 small
    have front : (ascii "flp/admin/ack/").length = 14 := rfl
    rw [ackTopic, List.length_append]
    omega
  have topic : cString ((ackTopic sessionId).take 127) = ackTopic sessionId :=
    cString_take short (noNul_append (noNul_ascii rfl) ne_zero_of_mem_decimal)
  have notCmd : ¬ ackTopic sessionId = ascii "flp/admin/cmd" :=
    fun same => absurd (congrArg (List.take 11) same) (by
      simp only [ackTopic]
      exact fun same => nomatch same)
  unfold handleMqttEvent
  rw [topic]
  dsimp only
  rw [if_neg (fun both => notCmd both.1), if_pos ⟨rfl, filled⟩]
  rfl

theorem handle_transferNackTopic (small : sessionId < 2 ^ 16) {data : List UInt8}
    (filled : data ≠ []) :
    q.handleMqttEvent (transferNackTopic sessionId) data =
      q.onTransferNack (decimal sessionId) data := by
  have short : (transferNackTopic sessionId).length ≤ 127 := by
    have digits := length_decimal_uint16 small
    have front : (ascii "flp/admin/transfer_nack/").length = 24 := rfl
    rw [transferNackTopic, List.length_append]
    omega
  have topic : cString ((transferNackTopic sessionId).take 127) = transferNackTopic sessionId :=
    cString_take short (noNul_append (noNul_ascii rfl) ne_zero_of_mem_decimal)
  have notCmd : ¬ transferNackTopic sessionId = ascii "flp/admin/cmd" :=
    fun same => absurd (congrArg (List.take 11) same) (by
      unfold transferNackTopic
      rw [List.take_append_of_le_length (by decide)]
      decide)
  have notAck : ¬ (ascii "flp/admin/ack/").isPrefixOf (transferNackTopic sessionId) = true :=
    fun same => nomatch same
  unfold handleMqttEvent
  rw [topic]
  dsimp only
  rw [if_neg (fun both => notCmd both.1), if_neg (fun both => notAck both.1),
    if_pos ⟨rfl, filled⟩]
  rfl

theorem isStale_active (positive : 0 < sessionId) (active : q.activeTransferSession = sessionId) :
    q.isStale sessionId = false := by
  simp [isStale, active]
  omega

theorem onAck_of_fields (small : sessionId < 2 ^ 16) (current : q.isStale sessionId = false)
    {data found : List UInt8} (ackBuf : cString (data.take 255) = data)
    (field : strstr (ascii "\"seq\":") data = some found)
    (number : seqField (found.drop (ascii "\"seq\":").length) = some seq) :
    q.onAck (decimal sessionId) data =
      if (strstr (ascii "\"ACK\"") data).isSome then
        { q with ackQueue := (SessionQueue.send ackQueueDepth q.ackQueue ⟨sessionId, seq⟩).2 }
      else if (strstr (ascii "\"NACK\"") data).isSome then
        { q with nackQueue := (SessionQueue.send nackQueueDepth q.nackQueue ⟨sessionId, seq⟩).2 }
      else q := by
  unfold onAck
  rw [topicSession_decimal small]
  dsimp only
  rw [current, ackBuf, field]
  dsimp only
  rw [number]
  rfl

/-- The fields of an answer, whatever its type is. -/
theorem ackPayload_fields (small : seq < 2 ^ 16) {msgType : List UInt8}
    (noNul : ∀ byte ∈ msgType, byte ≠ 0) (short : msgType.length ≤ 4) :
    cString ((ackPayload msgType seq).take 255) = ackPayload msgType seq ∧
      strstr (ascii "\"seq\":") (ackPayload msgType seq) =
        some ((ackPayload msgType seq).drop 1) ∧
      seqField (((ackPayload msgType seq).drop 1).drop (ascii "\"seq\":").length) = some seq := by
  have length : (ackPayload msgType seq).length ≤ 255 := by
    have digits := length_decimal_uint16 small
    simp only [ackPayload, jsonText, List.length_append]
    have texts : (ascii "\x7b\"seq\":").length = 7 ∧ (ascii ",\"type\":").length = 8 ∧
        (ascii "\"").length = 1 ∧ (ascii "\x7d").length = 1 := ⟨rfl, rfl, rfl, rfl⟩
    omega
  have text : ackPayload msgType seq =
      ascii "\x7b\"seq\":" ++
        (decimal seq ++ (ascii ",\"type\":" ++ (jsonText msgType ++ ascii "\x7d"))) := by
    simp [ackPayload]
  refine ⟨cString_take length ?_, ?_, ?_⟩
  · exact noNul_append (noNul_append (noNul_append (noNul_append (noNul_ascii rfl)
      ne_zero_of_mem_decimal) (noNul_ascii rfl)) (noNul_append (noNul_append (noNul_ascii rfl)
        noNul) (noNul_ascii rfl))) (noNul_ascii rfl)
  · rw [text]
    rfl
  · rw [text]
    exact seqField_decimal small (endsNumber_cons rfl _)

/-- Looking for a type passes over the number. -/
theorem strstr_ackPayload (msgType : List UInt8) {needle : List UInt8}
    (passes : ∀ text, strstr (0x22 :: needle) (ascii "\x7b\"seq\":" ++ text) =
      strstr (0x22 :: needle) text) :
    strstr (0x22 :: needle) (ackPayload msgType seq) =
      strstr (0x22 :: needle) (ascii ",\"type\":" ++ jsonText msgType ++ ascii "\x7d") := by
  simp only [ackPayload, List.append_assoc]
  rw [passes, strstr_append not_quote_of_mem_decimal]

theorem onAck_ack (small : sessionId < 2 ^ 16) (fits : seq < 2 ^ 16)
    (current : q.isStale sessionId = false) :
    q.onAck (decimal sessionId) (ackPayload (ascii "ACK") seq) =
      { q with ackQueue := (SessionQueue.send ackQueueDepth q.ackQueue ⟨sessionId, seq⟩).2 } := by
  obtain ⟨ackBuf, field, number⟩ :=
    @ackPayload_fields seq fits (ascii "ACK") (noNul_ascii rfl) (by decide)
  have isAck : (strstr (ascii "\"ACK\"") (ackPayload (ascii "ACK") seq)).isSome = true := by
    have found := @strstr_ackPayload seq (ascii "ACK") (ascii "ACK\"") fun _ => rfl
    exact (congrArg Option.isSome found).trans rfl
  rw [onAck_of_fields small current ackBuf field number, if_pos isAck]

theorem onAck_nack (small : sessionId < 2 ^ 16) (fits : seq < 2 ^ 16)
    (current : q.isStale sessionId = false) :
    q.onAck (decimal sessionId) (ackPayload (ascii "NACK") seq) =
      { q with nackQueue :=
          (SessionQueue.send nackQueueDepth q.nackQueue ⟨sessionId, seq⟩).2 } := by
  obtain ⟨ackBuf, field, number⟩ :=
    @ackPayload_fields seq fits (ascii "NACK") (noNul_ascii rfl) (by decide)
  have notAck : ¬ (strstr (ascii "\"ACK\"") (ackPayload (ascii "NACK") seq)).isSome = true := by
    have found := @strstr_ackPayload seq (ascii "NACK") (ascii "ACK\"") fun _ => rfl
    rw [show ascii "\"ACK\"" = 0x22 :: ascii "ACK\"" from rfl, found]
    decide
  have isNack : (strstr (ascii "\"NACK\"") (ackPayload (ascii "NACK") seq)).isSome = true := by
    have found := @strstr_ackPayload seq (ascii "NACK") (ascii "NACK\"") fun _ => rfl
    exact (congrArg Option.isSome found).trans rfl
  rw [onAck_of_fields small current ackBuf field number, if_neg notAck, if_pos isNack]

theorem onTransferNack_seqs (small : sessionId < 2 ^ 16) (current : q.isStale sessionId = false)
    {seqs : List Nat} (fits : ∀ seq ∈ seqs, seq < 2 ^ 16)
    (short : (transferNackPayload sessionId seqs).length ≤ 511)
    (room : q.nackQueue.length + seqs.length ≤ nackQueueDepth) :
    q.onTransferNack (decimal sessionId) (transferNackPayload sessionId seqs) =
      { q with nackQueue := q.nackQueue ++ sessionItems sessionId seqs } := by
  have noNul : ∀ byte ∈ transferNackPayload sessionId seqs, byte ≠ 0 :=
    noNul_append (noNul_append (noNul_append (noNul_append (noNul_ascii rfl)
      (noNul_jsonNumbers seqs)) (noNul_ascii rfl)) (noNul_append (noNul_append (noNul_ascii rfl)
        ne_zero_of_mem_decimal) (noNul_ascii rfl))) (noNul_ascii rfl)
  have text : transferNackPayload sessionId seqs =
      ascii "\x7b\"seqs\":[" ++ (jsonNumbers seqs ++ 0x5D ::
        (ascii ",\"session_id\":" ++ (jsonText (decimal sessionId) ++ ascii "\x7d"))) := by
    have close : ascii "],\"session_id\":" = 0x5D :: ascii ",\"session_id\":" := rfl
    simp [transferNackPayload, close]
  have field : ∀ array, strstr (ascii "\"seqs\":[") (ascii "\x7b\"seqs\":[" ++ array) =
      some (ascii "\"seqs\":[" ++ array) := fun _ => rfl
  unfold onTransferNack
  rw [topicSession_decimal small]
  dsimp only
  rw [current, cString_take short noNul, text]
  simp only [Bool.false_eq_true, ↓reduceIte, queueSeqs, field]
  rw [List.drop_left, seqsLoop_numbers sessionId fits room]
  rw [List.length_append]
  exact (length_jsonNumbers seqs).trans (Nat.le_add_right _ _)

end CloudInbox

/-- For the active session: an ACK, a NACK and a transfer NACK of the cloud put exactly their
items into the queues that have room for them; and the loop over the numbers of a transfer
NACK ends on every text after at most as many rounds as it has bytes. -/
theorem cloud_answers_round_trip :
    (∀ (q : CloudInbox) (sessionId seq : Nat), 0 < sessionId → sessionId < 2 ^ 16 →
      q.activeTransferSession = sessionId → seq < 2 ^ 16 →
      (q.ackQueue.length < ackQueueDepth →
        q.handleMqttEvent (ackTopic sessionId) (ackPayload (ascii "ACK") seq) =
          { q with ackQueue := q.ackQueue ++ [⟨sessionId, seq⟩] }) ∧
      (q.nackQueue.length < nackQueueDepth →
        q.handleMqttEvent (ackTopic sessionId) (ackPayload (ascii "NACK") seq) =
          { q with nackQueue := q.nackQueue ++ [⟨sessionId, seq⟩] })) ∧
    (∀ (q : CloudInbox) (sessionId : Nat) (seqs : List Nat), 0 < sessionId →
      sessionId < 2 ^ 16 → q.activeTransferSession = sessionId → (∀ seq ∈ seqs, seq < 2 ^ 16) →
      (transferNackPayload sessionId seqs).length ≤ 511 →
      q.nackQueue.length + seqs.length ≤ nackQueueDepth →
      q.handleMqttEvent (transferNackTopic sessionId) (transferNackPayload sessionId seqs) =
        { q with nackQueue := q.nackQueue ++ seqs.map fun seq => ⟨sessionId, seq⟩ }) ∧
    ∀ (sessionId : Nat) (text : List UInt8) (nackQueue : List SessionItem),
      seqsStep sessionId (seqsLoop sessionId text.length (text, nackQueue)) = none := by
  refine ⟨?_, ?_, fun sessionId text nackQueue => seqsLoop_ends sessionId nackQueue le_rfl⟩
  · intro q sessionId seq positive small active fits
    have current := CloudInbox.isStale_active positive active
    constructor
    · intro room
      rw [CloudInbox.handle_ackTopic small (by simp [ackPayload, ascii]),
        CloudInbox.onAck_ack small fits current]
      simp [SessionQueue.send, room]
    · intro room
      rw [CloudInbox.handle_ackTopic small (by simp [ackPayload, ascii]),
        CloudInbox.onAck_nack small fits current, send_of_room room]
  · intro q sessionId seqs positive small active fits short room
    rw [CloudInbox.handle_transferNackTopic small (by simp [transferNackPayload, ascii])]
    exact CloudInbox.onTransferNack_seqs small (CloudInbox.isStale_active positive active) fits
      short room

/-- Session 300 with nothing queued. -/
def smallInbox : CloudInbox where
  activeTransferSession := 300

theorem small_answers_read :
    smallInbox.handleMqttEvent (ackTopic 300) (ackPayload (ascii "ACK") 65535) =
        { smallInbox with ackQueue := [⟨300, 65535⟩] } ∧
      smallInbox.handleMqttEvent (ackTopic 300) (ackPayload (ascii "NACK") 0) =
        { smallInbox with nackQueue := [⟨300, 0⟩] } ∧
      smallInbox.handleMqttEvent (transferNackTopic 300) (transferNackPayload 300 [3, 0, 1200]) =
        { smallInbox with nackQueue := [⟨300, 3⟩, ⟨300, 0⟩, ⟨300, 1200⟩] } := by
  have answers := cloud_answers_round_trip
  refine ⟨?_, ?_, ?_⟩
  · exact (answers.1 smallInbox 300 65535 (by decide) (by decide) rfl (by decide)).1 (by decide)
  · exact (answers.1 smallInbox 300 0 (by decide) (by decide) rfl (by decide)).2 (by decide)
  · exact answers.2.1 smallInbox 300 [3, 0, 1200] (by decide) (by decide) rfl (by decide)
      (by decide) (by decide)

end ForestLink.Mqtt
