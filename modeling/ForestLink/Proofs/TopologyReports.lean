/-
Module: ForestLink.Proofs.TopologyReports
Purpose: A topology report says in the cloud what the route table of its node says, over
  every relay path, and no report can make the cloud read outside it.
Trusted boundary: none
Main exports: RouteTable.serializeInto, RouteTable.Typed, Neighbor.ofEntry,
  readNeighbors_records, readNeighbors_spec, reportPacket, transmits_relayPublish,
  topology_reports_intact
-/
import ForestLink.Cloud.Topology
import ForestLink.Proofs.ForwardedPayloads

namespace ForestLink.Cloud

open ForestLink.Lib
open ForestLink.Protocol
open ForestLink.Mesh

/-! ## The report of a route table -/

/-- The values of the C++ fields that a report carries. -/
structure EntryTyped (entry : NeighborEntry) : Prop where
  addr : entry.addr < 2 ^ 16
  rssi : -128 ≤ entry.rssi ∧ entry.rssi < 128
  hopCount : entry.hopCount < 256
  hopsToInternet : entry.hopsToInternet < 256
  queueLoad : entry.queueLoad < 256

/-- A state of the C++ class: at most `MAX_NEIGHBORS` entries of its field types. -/
structure TableTyped (table : RouteTable) : Prop where
  capacity : table.neighbors.length ≤ maxNeighbors
  entries : ∀ entry ∈ table.neighbors, EntryTyped entry

/-- `serialize(buf, max_len)`: nothing where the report does not fit. -/
def serializeInto (table : RouteTable) (maxLen : Nat) : List UInt8 :=
  if 1 + table.neighbors.length * 7 > maxLen then [] else table.serialize

/-- The flags byte. -/
def flagsByte (entry : NeighborEntry) : UInt8 :=
  UInt8.ofNat (((if entry.espnowReachable then 1 else 0) |||
    (if entry.loraReachable then 2 else 0) ||| (if entry.hasInternet then 4 else 0)) % 256)

/-- The seven bytes of an entry. -/
def entryRecord (entry : NeighborEntry) : List UInt8 :=
  [UInt8.ofNat (entry.addr % 256), UInt8.ofNat (entry.addr / 256 % 256),
    UInt8.ofNat ((entry.rssi % 256).toNat % 256), UInt8.ofNat (entry.hopCount % 256),
    UInt8.ofNat (entry.hopsToInternet % 256), flagsByte entry,
    UInt8.ofNat (entry.queueLoad % 256)]

theorem serialize_eq (table : RouteTable) :
    table.serialize =
      UInt8.ofNat (table.neighbors.length % 256) :: table.neighbors.flatMap entryRecord := rfl

/-- What the cloud is to store of an entry. -/
def Neighbor.ofEntry (entry : NeighborEntry) : Neighbor where
  addr := formatUpperHex4 entry.addr
  rssi := entry.rssi
  hops := entry.hopCount
  hopsToInternet := entry.hopsToInternet
  espnow := entry.espnowReachable
  lora := entry.loraReachable
  hasInternet := entry.hasInternet
  queueLoad := entry.queueLoad

/-! ## One record -/

theorem toNat_ofNat_mod (value : Nat) : (UInt8.ofNat (value % 256)).toNat = value % 256 := by
  simp

theorem toNat_ofNat_of_lt {value : Nat} (small : value < 256) :
    (UInt8.ofNat (value % 256)).toNat = value := by
  rw [toNat_ofNat_mod, Nat.mod_eq_of_lt small]

theorem flags_flagsByte (entry : NeighborEntry) :
    ((flagsByte entry).toNat &&& 0x01 != 0) = entry.espnowReachable ∧
      ((flagsByte entry).toNat &&& 0x02 != 0) = entry.loraReachable ∧
      ((flagsByte entry).toNat &&& 0x04 != 0) = entry.hasInternet := by
  unfold flagsByte
  cases entry.espnowReachable <;> cases entry.loraReachable <;> cases entry.hasInternet <;>
    decide

theorem toInt8_emod {value : Int} (low : -128 ≤ value) (high : value < 128) :
    toInt8 ((value % 256).toNat % 256) = value := by
  unfold toInt8
  split <;> omega

/-- A record read back is its entry. -/
theorem readNeighbor_record {entry : NeighborEntry} (typed : EntryTyped entry)
    (front back : List UInt8) :
    readNeighbor (front ++ entryRecord entry ++ back) front.length =
      some (Neighbor.ofEntry entry) := by
  have addr : entry.addr % 256 + 256 * (entry.addr / 256 % 256) = entry.addr := by
    have bound := typed.addr
    omega
  obtain ⟨espnow, lora, internet⟩ := flags_flagsByte entry
  unfold readNeighbor
  rw [List.append_assoc, List.drop_left]
  simp only [entryRecord, List.cons_append, toNat_ofNat_of_lt typed.hopCount,
    toNat_ofNat_of_lt typed.hopsToInternet, toNat_ofNat_of_lt typed.queueLoad,
    toNat_ofNat_mod, addr, espnow, lora, internet, toInt8_emod typed.rssi.1 typed.rssi.2]
  rfl

theorem length_flatMap_record (entries : List NeighborEntry) :
    (entries.flatMap entryRecord).length = entries.length * 7 := by
  induction entries with
  | nil => rfl
  | cons entry rest inductionHypothesis =>
      simp [entryRecord, inductionHypothesis]
      omega

/-! ## The loop -/

/-- The loop of `Update` reads the records of all entries back in order. -/
theorem readNeighbors_records {entries : List NeighborEntry}
    (typed : ∀ entry ∈ entries, EntryTyped entry) (front : List UInt8) (i : Nat)
    (start : front.length = 1 + i * 7) :
    readNeighbors (front ++ entries.flatMap entryRecord) entries.length i =
      some (entries.map Neighbor.ofEntry) := by
  induction entries generalizing front i with
  | nil => rfl
  | cons entry rest inductionHypothesis =>
      have here := readNeighbor_record (typed entry List.mem_cons_self) front
        (rest.flatMap entryRecord)
      have later := inductionHypothesis
        (fun other member => typed other (List.mem_cons_of_mem _ member))
        (front ++ entryRecord entry) (i + 1) (by simp [entryRecord, start]; omega)
      have whole : ¬ 1 + i * 7 + 7 >
          (front ++ (entry :: rest).flatMap entryRecord).length := by
        rw [List.length_append, length_flatMap_record, start, List.length_cons]
        omega
      rw [List.append_assoc] at here later
      rw [start] at here
      rw [List.length_cons, readNeighbors, if_neg whole, List.flatMap_cons, here, later]
      rfl

/-- The loop never reads outside the report; it keeps at most the declared number of
records, each of them whole and read from its own place. -/
theorem readNeighbors_spec (payload : List UInt8) (remaining i : Nat)
    (inside : 1 + i * 7 ≤ payload.length) :
    ∃ neighbors, readNeighbors payload remaining i = some neighbors ∧
      neighbors.length ≤ remaining ∧ 1 + (i + neighbors.length) * 7 ≤ payload.length ∧
      ∀ k neighbor, neighbors[k]? = some neighbor →
        readNeighbor payload (1 + (i + k) * 7) = some neighbor := by
  induction remaining generalizing i with
  | zero => exact ⟨[], rfl, le_rfl, inside, by simp⟩
  | succ remaining inductionHypothesis =>
      unfold readNeighbors
      dsimp only
      split
      · exact ⟨[], rfl, Nat.zero_le _, inside, by simp⟩
      · rename_i whole
        rw [not_lt] at whole
        obtain ⟨rest, read, count, bound, places⟩ := inductionHypothesis (i + 1) (by omega)
        obtain ⟨neighbor, here⟩ : ∃ neighbor,
            readNeighbor payload (1 + i * 7) = some neighbor := by
          have long : 7 ≤ (payload.drop (1 + i * 7)).length := by
            rw [List.length_drop]
            omega
          unfold readNeighbor
          split
          · exact ⟨_, rfl⟩
          · rename_i short
            match shape : payload.drop (1 + i * 7), long with
            | a :: b :: c :: d :: e :: f :: g :: rest, _ =>
                exact absurd shape (short a b c d e f g rest)
        refine ⟨neighbor :: rest, by rw [here, read]; rfl, Nat.succ_le_succ count, ?_, ?_⟩
        · rw [List.length_cons]
          omega
        · intro k other found
          cases k with
          | zero =>
              obtain rfl := Option.some.inj found
              exact here
          | succ k =>
              have place := places k other found
              rwa [show i + 1 + k = i + (k + 1) by omega] at place

/-! ## Addresses -/

theorem upperDigit_injective : ∀ a < 16, ∀ b < 16,
    (Nat.digitChar a).toUpper = (Nat.digitChar b).toUpper → a = b := by
  decide

/-- Four digits tell 16-bit addresses apart. -/
theorem formatUpperHex4_injective {a b : Nat} (small : a < 2 ^ 16) (other : b < 2 ^ 16)
    (same : formatUpperHex4 a = formatUpperHex4 b) : a = b := by
  have digits := congrArg String.toList same
  simp only [formatUpperHex4, String.toList_ofList, List.map_cons, List.map_nil,
    List.cons.injEq, and_true] at digits
  obtain ⟨first, second, third, fourth⟩ := digits
  have digit : ∀ x y : Nat,
      (Nat.digitChar (x % 16)).toUpper = (Nat.digitChar (y % 16)).toUpper → x % 16 = y % 16 :=
    fun x y => upperDigit_injective _ (Nat.mod_lt _ (by decide)) _ (Nat.mod_lt _ (by decide))
  have one := digit _ _ first
  have two := digit _ _ second
  have three := digit _ _ third
  have four := digit _ _ fourth
  omega

/-! ## The way of a report -/

/-- The topology report of a table as `relay_publish` wraps it. -/
def wrappedReport (report : List UInt8) : List UInt8 :=
  UInt8.ofNat RelayTopic.topology :: report

theorem relayPublish_exit (m : MeshManager) (report : List UInt8)
    (internet : m.router.hasInternet = true) :
    m.relayPublish RelayTopic.topology report =
      m.emit (.publish (RelayTopic.topic m.myAddr RelayTopic.topology) report) := by
  simp [MeshManager.relayPublish, internet]

/-- The packet in which a node sends its report to any exit. -/
def reportPacket (src : Nat) (report : List UInt8) : MeshPacket :=
  freshPacket src exitAnyAddr .meshPub (wrappedReport report) 0

theorem type_reportPacket (src : Nat) (report : List UInt8) :
    (reportPacket src report).header.type = .meshPub :=
  type_freshPacket _ _ _ _ _ fun _ same => nomatch same

/-- A radio takes what `send_packet` hands to it for any exit: the one of the next hop, or
the one that every node has. -/
def canSendToExit (m : MeshManager) : Bool :=
  m.nextHop exitAnyAddr == broadcastAddr ||
    MeshManager.transportFor m.env .meshPub == .espnow || m.env.loraInitialized

section Relayed

variable {report : List UInt8} {src : Nat} {packet : MeshPacket}

/-- A report of at most 255 bytes is wrapped whole. -/
theorem relayPublish_relay (m : MeshManager) (short : report.length ≤ 255)
    (internet : m.router.hasInternet = false) :
    m.relayPublish RelayTopic.topology report =
      (m.sendPacket exitAnyAddr .meshPub (wrappedReport report) 0).2 := by
  have whole : report.take (MeshManager.relayBufSize - 1) = report := List.take_of_length_le short
  simp [MeshManager.relayPublish, internet, whole, wrappedReport]

/-- Nothing but the whole report goes out. -/
theorem recent_relayPublish (m : MeshManager) (short : report.length ≤ 255)
    (internet : m.router.hasInternet = false) :
    ∀ output ∈ m.recentOutputs (m.relayPublish RelayTopic.topology report),
      ∃ transport peer result,
        output = .sent transport peer (reportPacket m.myAddr report) result false := by
  rw [relayPublish_relay m short internet]
  exact (MeshManager.extends_sendPacket m exitAnyAddr .meshPub (wrappedReport report) 0
    fun transport peer result => ⟨transport, peer, result, rfl⟩).recent

/-- With a radio for it the report does go out. -/
theorem transmits_relayPublish (m : MeshManager) (short : report.length ≤ 255)
    (internet : m.router.hasInternet = false) (ready : canSendToExit m = true) :
    ∃ transport peer result,
      .sent transport peer (reportPacket m.myAddr report) result false ∈
        m.recentOutputs (m.relayPublish RelayTopic.topology report) := by
  have fits : ¬ packetHeaderSize + (wrappedReport report).length > maxMtu := by
    have length : (wrappedReport report).length = report.length + 1 := rfl
    change ¬ _ > 1470
    rw [length, show packetHeaderSize = 8 from rfl]
    omega
  suffices sent : ∃ transport peer result recent,
      (m.relayPublish RelayTopic.topology report).outputs =
        recent ++ .sent transport peer (reportPacket m.myAddr report) result false ::
          m.outputs by
    obtain ⟨transport, peer, result, recent, outputs⟩ := sent
    refine ⟨transport, peer, result, ?_⟩
    rw [MeshManager.recentOutputs, outputs, List.append_cons, Extends.recent_append]
    exact List.mem_append_right _ (List.mem_singleton_self _)
  rw [relayPublish_relay m short internet]
  unfold MeshManager.sendPacket
  rw [if_neg fits]
  dsimp only
  rw [if_neg (by decide)]
  by_cases unreachable : m.nextHop exitAnyAddr = broadcastAddr
  · rw [if_pos unreachable, if_pos rfl]
    have first := MeshManager.outputs_sendRaw m .espnow (reportPacket m.myAddr report)
      broadcastAddr false (.inl rfl)
    let tried := m.sendRaw .espnow (reportPacket m.myAddr report) broadcastAddr false
    have more : Extends (fun _ => True) tried.2.outputs
        (tried.2.sendRaw .lora (reportPacket m.myAddr report) broadcastAddr false).2.outputs :=
      MeshManager.extends_sendRaw (fun _ _ _ => trivial) tried.2 .lora broadcastAddr
    obtain ⟨recent, outputs, _⟩ := more
    exact ⟨_, _, _, recent, outputs.trans (congrArg (recent ++ ·) first)⟩
  · rw [if_neg unreachable]
    have type : (freshPacket m.myAddr exitAnyAddr .meshPub (wrappedReport report) 0).header.type =
        .meshPub := type_reportPacket m.myAddr report
    have lit : (m.selectTransport .meshPub).2.env.loraInitialized = m.env.loraInitialized := by
      unfold MeshManager.selectTransport
      dsimp only
      split <;> rfl
    have usable : MeshManager.transportFor m.env .meshPub = .espnow ∨
        (m.selectTransport .meshPub).2.env.loraInitialized = true := by
      rw [lit]
      simpa [canSendToExit, unreachable] using ready
    unfold MeshManager.sendVia
    dsimp only
    rw [type]
    have sent := MeshManager.outputs_sendRaw (m.selectTransport .meshPub).2
      (MeshManager.transportFor m.env .meshPub) (reportPacket m.myAddr report)
      (m.nextHop exitAnyAddr) false usable
    rw [MeshManager.outputs_selectTransport] at sent
    exact ⟨_, _, _, [], sent⟩

/-- A relay that has to pass the report on, and can, passes the whole of it on. -/
theorem transmits_report (along : ForwardsAlong (reportPacket src report) packet)
    {relay : MeshManager} {env : MeshEnv} (pass : relay.passes env packet = true)
    (can : (relay.setEnv env).sendable packet = true) :
    relay.Transmits ⟨env, .receive packet⟩
      { packet with header := MeshManager.nextHeader packet.header } true := by
  obtain ⟨_, type, _⟩ := along.keeps (by rw [type_reportPacket]; rfl)
  exact MeshManager.transmits_of_passes (by rw [type, type_reportPacket]; rfl) pass can

/-- However many relays pass the packet on, the exit publishes the same bytes for the node
that wrapped them. -/
theorem dispatch_wrapped (filled : report ≠ [])
    (along : ForwardsAlong (reportPacket src report) packet) (exit : MeshManager) :
    exit.dispatch packet =
      exit.emit (.publish (RelayTopic.topic src RelayTopic.topology) report) := by
  obtain ⟨payload, kept, source, _⟩ := along.keeps (by rw [type_reportPacket]; rfl)
  obtain ⟨byte, rest, rfl⟩ := List.exists_cons_of_ne_nil filled
  unfold MeshManager.dispatch
  rw [kept, type_reportPacket]
  dsimp only
  rw [payload, source]
  rfl

/-- That is all an exit does with a packet that it takes. -/
theorem processSlab_wrapped (filled : report ≠ [])
    (along : ForwardsAlong (reportPacket src report) packet) {exit : MeshManager}
    (accepted : exit.refuses packet = false) (alive : packet.header.ttl ≠ 0)
    (mine : exit.forUs packet = true) :
    exit.processSlab packet =
      (exit.hear packet).emit
        (.publish (RelayTopic.topic src RelayTopic.topology) report) := by
  obtain ⟨_, kept, _⟩ := along.keeps (by rw [type_reportPacket]; rfl)
  have bridge : isBridgeType packet.header.type = true := by
    rw [kept, type_reportPacket]
    rfl
  have heard : (exit.hear packet).forUs packet = true :=
    (MeshManager.forUs_hear exit packet).trans mine
  unfold MeshManager.processSlab
  rw [if_neg (by rw [accepted]; decide)]
  dsimp only
  rw [MeshManager.hearOffline_of_isBridgeType exit bridge, if_neg alive, if_pos heard]
  exact dispatch_wrapped filled along _

end Relayed

/-! ## The report as a whole -/

theorem serialize_length (table : RouteTable) :
    table.serialize.length = 1 + table.neighbors.length * 7 := by
  rw [serialize_eq, List.length_cons, length_flatMap_record, Nat.add_comm]

/-- The state of a node after a report. -/
def reported (a : Aggregator) (nodeId : String) (nowMs : Nat) (neighbors : List Neighbor) :
    Aggregator where
  nodes := Function.update a.nodes nodeId
    (some
      { lastSeenMs := nowMs
        neighbors := neighbors
        heap := (a.nodes nodeId).bind NodeState.heap })

theorem update_serialize (a : Aggregator) (nodeId : String) (nowMs : Nat) {table : RouteTable}
    (typed : TableTyped table) :
    a.update nodeId table.serialize nowMs =
      some (reported a nodeId nowMs (table.neighbors.map Neighbor.ofEntry)) := by
  have capacity : table.neighbors.length ≤ 16 := typed.capacity
  have count : (UInt8.ofNat (table.neighbors.length % 256)).toNat = table.neighbors.length := by
    rw [toNat_ofNat_mod]
    exact Nat.mod_eq_of_lt (by omega)
  have read := readNeighbors_records typed.entries
    [UInt8.ofNat (table.neighbors.length % 256)] 0 rfl
  rw [List.singleton_append] at read
  rw [serialize_eq, Aggregator.update, count, read]
  rfl

/-- Every table fits its buffer and reaches the cloud unchanged: published at once, or sent
whole in one packet, passed on whole by every relay and published whole by the exit.  The
cloud stores its entries in order, with addresses that stay apart.  No payload makes the
cloud read outside it: it stores whole records, at most as many as declared. -/
theorem topology_reports_intact :
    (∀ table, TableTyped table →
      serializeInto table (1 + 16 * 7) = table.serialize ∧ table.serialize ≠ [] ∧
      (∀ m : MeshManager, m.router.hasInternet = true →
        m.relayPublish RelayTopic.topology table.serialize =
          m.emit (.publish (RelayTopic.topic m.myAddr RelayTopic.topology) table.serialize)) ∧
      (∀ m : MeshManager, m.router.hasInternet = false →
        m.relayPublish RelayTopic.topology table.serialize =
          (m.sendPacket exitAnyAddr .meshPub (wrappedReport table.serialize) 0).2) ∧
      (∀ m : MeshManager, m.router.hasInternet = false →
        (∀ output ∈ m.recentOutputs (m.relayPublish RelayTopic.topology table.serialize),
          ∃ transport peer result,
            output =
              .sent transport peer (reportPacket m.myAddr table.serialize) result false) ∧
        (canSendToExit m = true → ∃ transport peer result,
          .sent transport peer (reportPacket m.myAddr table.serialize) result false ∈
            m.recentOutputs (m.relayPublish RelayTopic.topology table.serialize))) ∧
      (∀ src packet, ForwardsAlong (reportPacket src table.serialize) packet →
        (∀ (relay : MeshManager) env, relay.passes env packet = true →
          (relay.setEnv env).sendable packet = true →
          relay.Transmits ⟨env, .receive packet⟩
            { packet with header := MeshManager.nextHeader packet.header } true) ∧
        (∀ exit : MeshManager, exit.dispatch packet =
          exit.emit (.publish (RelayTopic.topic src RelayTopic.topology) table.serialize)) ∧
        ∀ exit : MeshManager, exit.refuses packet = false → packet.header.ttl ≠ 0 →
          exit.forUs packet = true →
          exit.processSlab packet =
            (exit.hear packet).emit
              (.publish (RelayTopic.topic src RelayTopic.topology) table.serialize)) ∧
      ∀ (a : Aggregator) nodeId nowMs,
        a.update nodeId table.serialize nowMs =
          some (reported a nodeId nowMs (table.neighbors.map Neighbor.ofEntry))) ∧
    (∀ a < 2 ^ 16, ∀ b < 2 ^ 16, formatUpperHex4 a = formatUpperHex4 b → a = b) ∧
    (∀ (a : Aggregator) nodeId nowMs, a.update nodeId [] nowMs = some a) ∧
    ∀ (a : Aggregator) nodeId count rest nowMs, ∃ neighbors,
      a.update nodeId (count :: rest) nowMs = some (reported a nodeId nowMs neighbors) ∧
        neighbors.length ≤ count.toNat ∧ neighbors.length * 7 ≤ rest.length ∧
        ∀ k neighbor, neighbors[k]? = some neighbor →
          readNeighbor (count :: rest) (1 + k * 7) = some neighbor := by
  refine ⟨fun table typed => ?_, fun a small b other => formatUpperHex4_injective small other,
    fun _ _ _ => rfl, ?_⟩
  · have capacity : table.neighbors.length ≤ 16 := typed.capacity
    have length := serialize_length table
    have filled : table.serialize ≠ [] := by
      rw [serialize_eq]
      exact List.cons_ne_nil _ _
    have fits : ¬ 1 + table.neighbors.length * 7 > 1 + 16 * 7 := by omega
    exact ⟨if_neg fits, filled, fun m => relayPublish_exit m _,
      fun m => relayPublish_relay m (by omega),
      fun m internet => ⟨recent_relayPublish m (by omega) internet,
        transmits_relayPublish m (by omega) internet⟩,
      fun src packet along => ⟨fun relay env => transmits_report along,
        dispatch_wrapped filled along, fun exit => processSlab_wrapped filled along⟩,
      fun a nodeId nowMs => update_serialize a nodeId nowMs typed⟩
  · intro a nodeId count rest nowMs
    obtain ⟨neighbors, read, declared, bound, places⟩ :=
      readNeighbors_spec (count :: rest) count.toNat 0 (by simp)
    refine ⟨neighbors, ?_, declared, ?_, fun k neighbor found => ?_⟩
    · rw [Aggregator.update, read]
      rfl
    · rw [List.length_cons] at bound
      omega
    · have place := places k neighbor found
      rwa [Nat.zero_add] at place

/-- Two neighbours, one of them over LoRa and weak. -/
def smallTable : RouteTable where
  neighbors :=
    [{ addr := 0x1234, rssi := -70, hopsToInternet := 1, espnowReachable := true,
       hasInternet := true },
      { addr := 0xFF03, rssi := -128, hopCount := 2, loraReachable := true, queueLoad := 200 }]

/-- A node without internet whose route table it is; 0x1234 is its way to an exit. -/
def reportingNode : MeshManager where
  router := { myAddr := 1, table := smallTable }

/-- The relay hears the exit 0x00AA. -/
def reportRelay : MeshManager where
  router :=
    { myAddr := 0x1234
      table :=
        { neighbors :=
            [{ addr := 0xAA, hopsToInternet := 1, espnowReachable := true,
               hasInternet := true }] } }

def reportExit : MeshManager where
  router := { myAddr := 0xAA, hasInternet := true }
  env := { mqttConnected := true }

/-- Its packet as the relay passes it on. -/
def relayedReport : MeshPacket :=
  let packet := reportPacket 1 smallTable.serialize
  { packet with header := MeshManager.nextHeader packet.header }

theorem small_table_reported :
    (∃ transport peer result,
      .sent transport peer (reportPacket 1 smallTable.serialize) result false ∈
        reportingNode.recentOutputs
          (reportingNode.relayPublish RelayTopic.topology smallTable.serialize)) ∧
      Forwards (reportPacket 1 smallTable.serialize) relayedReport ∧
      reportExit.processSlab relayedReport =
        (reportExit.hear relayedReport).emit
          (.publish (RelayTopic.topic 1 RelayTopic.topology) smallTable.serialize) ∧
      ({} : Aggregator).update "0001" smallTable.serialize 5 =
        some (reported {} "0001" 5 (smallTable.neighbors.map Neighbor.ofEntry)) := by
  have typed : TableTyped smallTable := by
    refine ⟨by decide, ?_⟩
    intro entry member
    simp only [smallTable, List.mem_cons, List.not_mem_nil, or_false] at member
    rcases member with rfl | rfl
    · exact ⟨by decide, by decide, by decide, by decide, by decide⟩
    · exact ⟨by decide, by decide, by decide, by decide, by decide⟩
  obtain ⟨_, _, _, _, published, passedOn, stored⟩ := topology_reports_intact.1 smallTable typed
  have forwards : Forwards (reportPacket 1 smallTable.serialize) relayedReport :=
    ⟨reportRelay, {}, (passedOn 1 _ .refl).1 reportRelay {} (by decide +kernel)
      (by decide +kernel)⟩
  exact ⟨(published reportingNode rfl).2 (by decide +kernel), forwards,
    (passedOn 1 relayedReport (.single forwards)).2.2 reportExit (by decide +kernel)
      (by decide +kernel) (by decide +kernel),
    stored {} "0001" 5⟩

end ForestLink.Cloud
