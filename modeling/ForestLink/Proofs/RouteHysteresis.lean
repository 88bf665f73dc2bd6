/-
Module: ForestLink.Proofs.RouteHysteresis
Purpose: When the next hop towards the internet is the preferred parent of the route
  hysteresis: exactly while the parent is the first cheapest neighbour.
Trusted boundary: none
Main exports: RouteTable.nextHop_exit_eq_iff, MeshManager.ParentEligible, FollowsParent,
  ParentCheapest, reportHistory, exit_hop_follows_parent_iff, next_hop_leaves_eligible_parent
-/
import ForestLink.Proofs.NextHop
import ForestLink.Proofs.RelayDedup

namespace ForestLink.Mesh

open ForestLink.Lib
open ForestLink.Protocol

/-! ## Costs -/

/-- The advertised values of an entry came in bytes, and its ETX is capped. -/
structure NeighborEntry.Bounded (entry : NeighborEntry) : Prop where
  hops : entry.hopsToInternet ≤ 0xFF
  etx : entry.etxX100 ≤ 1000
  load : entry.queueLoad ≤ 0xFF

theorem NeighborEntry.Bounded.typed {entry : NeighborEntry} (bounded : entry.Bounded) :
    entry.Typed where
  hops := Nat.lt_succ_of_le bounded.hops
  etx := Nat.lt_of_le_of_lt bounded.etx (by decide)
  load := Nat.lt_succ_of_le bounded.load

namespace RouteTable

variable {table : RouteTable} {myAddr parent : Nat}

theorem FirstCheapest.unique {entries : List NeighborEntry} {a b : NeighborEntry}
    (first : FirstCheapest entries a) (second : FirstCheapest entries b) : a = b := by
  obtain ⟨aBefore, aAfter, aSplit, aFirst, aLater⟩ := first
  obtain ⟨bBefore, bAfter, bSplit, bFirst, bLater⟩ := second
  induction entries generalizing aBefore bBefore with
  | nil => exact absurd aSplit (by simp)
  | cons head rest inductionHypothesis =>
      cases aBefore with
      | nil =>
          obtain ⟨rfl, rfl⟩ := List.cons.inj aSplit
          cases bBefore with
          | nil => exact (List.cons.inj bSplit).1
          | cons _ bBefore =>
              obtain ⟨rfl, rfl⟩ := List.cons.inj bSplit
              have less := bFirst head List.mem_cons_self
              have least := aLater b (List.mem_append_right _ List.mem_cons_self)
              omega
      | cons _ aBefore =>
          obtain ⟨rfl, tail⟩ := List.cons.inj aSplit
          cases bBefore with
          | nil =>
              obtain ⟨rfl, rfl⟩ := List.cons.inj bSplit
              have less := aFirst head List.mem_cons_self
              have least := bLater a (tail ▸ List.mem_append_right _ List.mem_cons_self)
              omega
          | cons _ bBefore =>
              obtain ⟨_, bTail⟩ := List.cons.inj bSplit
              exact inductionHypothesis aBefore tail
                (fun other member => aFirst other (List.mem_cons_of_mem _ member)) bBefore bTail
                (fun other member => bFirst other (List.mem_cons_of_mem _ member))

/-- The neighbour `parent` is the one that a search for the cheapest route ends at: a
neighbour with the address for any exit, which is taken without a search, or the first
eligible neighbour of least cost. -/
def Cheapest (table : RouteTable) (myAddr parent : Nat) : Prop :=
  if table.neighbors.any fun entry => entry.addr == exitAnyAddr then parent = exitAnyAddr
  else ∃ entry, FirstCheapest (table.candidates exitAnyAddr myAddr) entry ∧ entry.addr = parent

/-- While a neighbour is eligible, the next hop towards the internet is the cheapest one. -/
theorem nextHop_exit_eq_iff (bounded : ∀ entry ∈ table.neighbors, entry.Bounded)
    {eligible : NeighborEntry} (member : eligible ∈ table.candidates exitAnyAddr myAddr) :
    table.nextHop exitAnyAddr myAddr = parent ↔ table.Cheapest myAddr parent := by
  unfold nextHop Cheapest
  split
  · exact eq_comm
  · dsimp only
    rw [if_neg (by simp)]
    rcases cheapest_spec (broadcastAddr, 2 ^ 32 - 1) (table.candidates exitAnyAddr myAddr) with
      ⟨_, least⟩ | ⟨entry, first, _, chosen⟩
    · have small := routeCost_lt (bounded eligible (List.mem_of_mem_filter member)).typed
      exact absurd (least eligible member) (Nat.not_le_of_lt small)
    · rw [chosen]
      constructor
      · exact fun same => ⟨entry, first, same⟩
      · rintro ⟨other, alsoFirst, same⟩
        rw [first.unique alsoFirst]
        exact same

end RouteTable

namespace MeshManager

variable {m : MeshManager} {addr : Nat}

/-! ## Advertised values stay in their bytes -/

/-- Every entry of the route table came from packets. -/
def TableBounded (m : MeshManager) : Prop := ∀ entry ∈ m.router.table.neighbors, entry.Bounded

theorem discovery_bounded {packet : MeshPacket} {disc : Discovery}
    (payload : routePayload packet = .discovery disc) :
    disc.hopsToInternet ≤ 0xFF ∧ disc.queueLoad ≤ 0xFF := by
  have byte : ∀ offset, readLe packet.payload offset 1 ≤ 0xFF := fun offset =>
    Nat.le_of_lt_succ (UInt8.toNat_lt_size (packet.payload.getD offset 0))
  unfold routePayload at payload
  split at payload
  · split at payload
    · cases payload
    · obtain rfl := RoutePayload.discovery.inj payload
      exact ⟨byte 1, byte 7⟩
  · split at payload <;> cases payload
  · cases payload

theorem bounded_takeDiscovery {disc : Discovery} {entry : NeighborEntry}
    (bounded : entry.Bounded) (values : disc.hopsToInternet ≤ 0xFF ∧ disc.queueLoad ≤ 0xFF) :
    (entry.takeDiscovery disc).Bounded := by
  have flagged : (if disc.internet then { entry with hasInternet := true, hopsToInternet := 0 }
      else entry).Bounded := by
    split
    · exact ⟨Nat.zero_le _, bounded.etx, bounded.load⟩
    · exact bounded
  unfold NeighborEntry.takeDiscovery
  rcases RouteTable.takeRoute_cases disc.hopsToInternet disc.inetSeq disc.inetOrigin
    (if disc.internet then { entry with hasInternet := true, hopsToInternet := 0 } else entry)
    with kept | taken
  · rw [kept]
    exact ⟨flagged.hops, flagged.etx, values.2⟩
  · rw [taken]
    exact ⟨values.1, flagged.etx, values.2⟩

theorem tableBounded_hear (bounded : m.TableBounded) (packet : MeshPacket) :
    (m.hear packet).TableBounded := by
  intro entry member
  change entry ∈ (m.router.hear m.reception (routeFrame packet)).table.neighbors at member
  unfold Router.hear at member
  split at member
  · rcases RouteTable.mem_updateNeighbor member with kept | ⟨old, known, _, refreshed⟩ | new
    · exact bounded entry kept
    · obtain ⟨hops, etx, load⟩ := bounded old known
      rw [refreshed]
      exact ⟨hops, etx, load⟩
    · rw [new]
      have fresh : 100 ≤ 1000 := by decide
      exact ⟨Nat.le_refl _, fresh, Nat.zero_le _⟩
  · exact bounded entry member

theorem tableBounded_route (bounded : m.TableBounded) {event : Router.Event}
    (local_ : ∀ rx frame, event ≠ .receive rx frame) :
    (m.apply (.route event)).TableBounded := by
  cases event with
  | receive rx frame => exact absurd rfl (local_ rx frame)
  | discover load =>
      intro entry member
      change entry ∈ (m.router.sendDiscovery load).1.table.neighbors at member
      unfold Router.sendDiscovery at member
      dsimp only at member
      split at member <;> exact bounded entry member
  | age staleNow pruneNow =>
      intro entry member
      have reported := List.mem_of_mem_filter member
      obtain ⟨old, known, changed⟩ := List.mem_map.mp reported
      obtain ⟨hops, etx, load⟩ := bounded old known
      split at changed
      · exact changed ▸ ⟨hops, etx, load⟩
      · exact changed ▸ ⟨hops, etx, load⟩
  | linkTx peer success =>
      intro entry member
      rcases RouteTable.mem_adjust member with kept | ⟨old, known, _, changed⟩
      · exact bounded entry kept
      · obtain ⟨hops, etx, load⟩ := bounded old known
        have capped : ∀ etx : Nat, (if etx > 1000 then 1000 else etx) ≤ 1000 := by
          intro etx
          split <;> omega
        rw [changed]
        exact ⟨hops, capped _, load⟩
  | setInternet _ | transmit _ => exact bounded

theorem tableBounded_apply {event : Event} {change : MeshChange}
    (calling : Calling addr event change) (bounded : m.TableBounded) :
    (m.apply change).TableBounded := by
  cases change with
  | hear packet => exact tableBounded_hear bounded packet
  | discovery packet disc =>
      have values := discovery_bounded calling.2
      intro entry member
      change entry ∈ (m.router.handleDiscovery (routeFrame packet) disc
        m.saturatedQueueLoad).1.table.neighbors at member
      rw [Router.handleDiscovery_table] at member
      rcases RouteTable.mem_adjust member with kept | ⟨old, known, _, changed⟩
      · exact bounded entry kept
      · rw [changed]
        exact bounded_takeDiscovery (bounded old known) values
  | routeError rerr =>
      intro entry member
      obtain ⟨old, known, changed⟩ := List.mem_map.mp member
      obtain ⟨hops, etx, load⟩ := bounded old known
      split at changed
      · exact changed ▸ ⟨Nat.le_refl _, etx, load⟩
      · exact changed ▸ ⟨hops, etx, load⟩
  | route event =>
      apply tableBounded_route bounded
      rintro rx frame rfl
      exact calling.elim
  | restart => exact fun _ member => absurd member List.not_mem_nil
  | reparent =>
      obtain ⟨parent, tracked, fields⟩ := updatePreferredParent_fields m
      change m.updatePreferredParent.TableBounded
      rw [fields]
      exact bounded
  | _ => exact bounded

theorem tableBounded_step (bounded : m.TableBounded) (call : Call) :
    (m.step call).TableBounded :=
  (step_spec m call).keeps TableBounded (fun _ _ calling => tableBounded_apply calling) bounded

/-! ## The hop that packets take -/

/-- A transmission towards any exit goes to `hop`. -/
def HeadsFor (hop : Nat) : MeshOutput → Prop
  | .sent _ peer packet _ _ => packet.header.dstAddr = exitAnyAddr → peer = hop
  | _ => True

/-- Every packet to any exit that `send_packet` and `forward_packet` send goes to the
preferred parent, but for the types that go to everybody in range. -/
def FollowsParent (m : MeshManager) : Prop :=
  (∀ env type payload seq, ∀ output ∈
    m.recentOutputs ((m.setEnv env).sendPacket exitAnyAddr type payload seq).2,
      HeadsFor m.preferredParent output) ∧
  ∀ env packet, rebroadcast packet.header.type = false → ∀ output ∈
    m.recentOutputs ((m.setEnv env).forwardPacket packet), HeadsFor m.preferredParent output

/-- The preferred parent is in the table, has a route to the internet, and its route does
not come from this node. -/
def ParentEligible (m : MeshManager) : Prop :=
  m.preferredParent ≠ broadcastAddr ∧
    ∃ entry ∈ m.router.table.candidates exitAnyAddr m.myAddr, entry.addr = m.preferredParent

instance (m : MeshManager) : Decidable m.ParentEligible :=
  inferInstanceAs (Decidable (_ ∧ ∃ entry ∈ _, _))

/-- The preferred parent is the first cheapest neighbour. -/
def ParentCheapest (m : MeshManager) : Prop :=
  m.router.table.Cheapest m.myAddr m.preferredParent

theorem heads_sendRaw {hop : Nat} {packet : MeshPacket} {peer : Nat} {forwarded : Bool}
    (heads : packet.header.dstAddr = exitAnyAddr → peer = hop) (m : MeshManager)
    (transport : Transport) :
    Extends (HeadsFor hop) m.outputs (m.sendRaw transport packet peer forwarded).2.outputs := by
  unfold sendRaw
  split
  · exact .refl ..
  · have sound : HeadsFor hop
        (.sent transport peer packet (m.env.sendResults.headD 0) forwarded) := heads
    dsimp only
    split <;> exact .cons sound _

theorem heads_sendVia {hop : Nat} {packet : MeshPacket} {peer : Nat} {forwarded : Bool}
    (heads : packet.header.dstAddr = exitAnyAddr → peer = hop) (m : MeshManager) :
    Extends (HeadsFor hop) m.outputs (m.sendVia packet peer forwarded).2.outputs := by
  have selected : (m.selectTransport packet.header.type).2.outputs = m.outputs := by
    unfold selectTransport
    dsimp only
    split <;> rfl
  rw [← selected]
  exact heads_sendRaw heads _ _

theorem heads_sendBoth {hop : Nat} {packet : MeshPacket} {forwarded : Bool}
    (heads : packet.header.dstAddr = exitAnyAddr → broadcastAddr = hop) (m : MeshManager) :
    Extends (HeadsFor hop) m.outputs (m.sendBoth packet forwarded).outputs :=
  (heads_sendRaw heads m .espnow).trans (heads_sendRaw heads _ .lora)

/-- While the next hop towards the internet is `hop`, `send_packet` uses it. -/
theorem heads_sendPacket {hop : Nat} (next : m.nextHop exitAnyAddr = hop) (dst : Nat)
    (type : MeshPacketType) (payload : List UInt8) (seq : Nat) :
    Extends (HeadsFor hop) m.outputs (m.sendPacket dst type payload seq).2.outputs := by
  unfold sendPacket
  split
  · exact .refl ..
  · dsimp only
    split
    · rename_i everybody
      apply heads_sendBoth
      intro toExit
      exact absurd (everybody.symm.trans toExit) (by decide)
    · split
      · rename_i unreachable
        split
        · rename_i toExit
          apply heads_sendBoth
          intro _
          rw [← next, ← toExit, unreachable]
        · exact .refl ..
      · apply heads_sendVia
        intro toExit
        rw [← next]
        exact congrArg m.nextHop toExit

theorem dstAddr_markCongestion (header : PacketHeader) (congested : Bool) :
    (markCongestion header congested).dstAddr = header.dstAddr := by
  unfold markCongestion
  split <;> rfl

/-- While the next hop towards the internet is `hop`, `forward_packet` uses it. -/
theorem heads_forwardPacket {hop : Nat} (next : m.nextHop exitAnyAddr = hop)
    {packet : MeshPacket} (unicast : rebroadcast packet.header.type = false) :
    Extends (HeadsFor hop) m.outputs (m.forwardPacket packet).outputs := by
  unfold forwardPacket
  dsimp only
  split
  · unfold dropCongested
    split
    · exact heads_sendPacket next ..
    · exact heads_sendPacket next ..
    · exact .refl ..
  · rw [unicast, if_neg Bool.false_ne_true]
    split
    · exact .refl ..
    · apply heads_sendVia
      intro toExit
      dsimp only at toExit
      rw [dstAddr_markCongestion] at toExit
      rw [← next]
      exact congrArg m.nextHop toExit

/-- A fragment to any exit leaves over ESP-NOW to the next hop. -/
theorem sent_data (m : MeshManager) :
    ∃ packet result, packet.header.dstAddr = exitAnyAddr ∧
      MeshOutput.sent .espnow (m.nextHop exitAnyAddr) packet result false ∈
        m.recentOutputs (m.sendPacket exitAnyAddr .data [] 0).2 := by
  have sentFirst : ∀ peer, ((m.sendRaw .espnow (freshPacket m.myAddr exitAnyAddr .data [] 0)
      peer false).2).outputs = _ := fun peer =>
    outputs_sendRaw m .espnow (freshPacket m.myAddr exitAnyAddr .data [] 0) peer false (.inl rfl)
  have followed : ∃ recent, (m.sendPacket exitAnyAddr .data [] 0).2.outputs =
      recent ++ .sent .espnow (m.nextHop exitAnyAddr)
        (freshPacket m.myAddr exitAnyAddr .data [] 0) (m.env.sendResults.headD 0) false ::
          m.outputs := by
    unfold sendPacket
    rw [if_neg (by decide)]
    dsimp only
    rw [if_neg (by decide)]
    split
    · rename_i unreachable
      rw [if_pos rfl, unreachable, ← sentFirst broadcastAddr]
      have second : Extends (HeadsFor broadcastAddr) _
          (m.sendBoth (freshPacket m.myAddr exitAnyAddr .data [] 0) false).outputs :=
        heads_sendRaw (fun _ => rfl)
          (m.sendRaw .espnow (freshPacket m.myAddr exitAnyAddr .data [] 0) broadcastAddr false).2
          .lora
      obtain ⟨recent, eq, _⟩ := second
      exact ⟨recent, eq⟩
    · have fragment : (freshPacket m.myAddr exitAnyAddr .data [] 0).header.type = .data := by
        change (({} : PacketHeader).setVerType protocolVersion .data).type = .data
        decide
      refine ⟨[], ?_⟩
      unfold sendVia selectTransport transportFor
      rw [fragment]
      exact sentFirst _
  obtain ⟨recent, eq⟩ := followed
  refine ⟨freshPacket m.myAddr exitAnyAddr .data [] 0, m.env.sendResults.headD 0, rfl, ?_⟩
  unfold recentOutputs
  rw [eq, List.append_cons, Extends.recent_append]
  exact List.mem_append_right _ (List.mem_singleton_self _)

/-- The packets follow the preferred parent exactly when it is the next hop. -/
theorem followsParent_iff_nextHop :
    m.FollowsParent ↔ m.nextHop exitAnyAddr = m.preferredParent := by
  constructor
  · rintro ⟨sends, _⟩
    obtain ⟨packet, result, toExit, sent⟩ := sent_data m
    exact sends m.env .data [] 0 _ sent toExit
  · intro next
    constructor
    · intro env type payload seq
      exact (heads_sendPacket (m := m.setEnv env) next ..).recent
    · intro env packet unicast
      exact (heads_forwardPacket (m := m.setEnv env) next unicast).recent

/-! ## Findings of `check_better_route` -/

/-- What `check_better_route` finds in a call, if the call asks it. -/
def reports (m : MeshManager) (call : Call) : List (Option Nat) :=
  if call.event = .discover ∧ m.router.hasInternet = false then
    [m.router.table.improvement m.currentParent m.myAddr]
  else []

/-- The findings of a run, oldest first. -/
def reportHistory (m : MeshManager) : List Call → List (Option Nat)
  | [] => []
  | call :: rest => m.reports call ++ (m.step call).reportHistory rest

theorem reportHistory_snoc (m : MeshManager) (calls : List Call) (call : Call) :
    m.reportHistory (calls ++ [call]) = m.reportHistory calls ++ (m.run calls).reports call := by
  induction calls generalizing m with
  | nil =>
      change m.reports call ++ [] = [] ++ m.reports call
      rw [List.append_nil, List.nil_append]
  | cons first rest inductionHypothesis =>
      change m.reports first ++ (m.step first).reportHistory (rest ++ [call]) =
        (m.reports first ++ (m.step first).reportHistory rest) ++
          ((m.step first).run rest).reports call
      rw [inductionHypothesis, List.append_assoc]

/-- The candidate was the finding of each of the last calls that are counted. -/
def Tracks (history : List (Option Nat)) (tracked : BetterRoute) : Prop :=
  List.replicate tracked.consecutiveCycles (some tracked.candidateAddr) <:+ history

theorem Tracks.blank (history : List (Option Nat)) : Tracks history {} := List.nil_suffix

/-- One more finding is counted; a switch takes as many equal findings as the hysteresis
asks for. -/
theorem Tracks.checkBetterRoute {history : List (Option Nat)} {tracked : BetterRoute}
    (tracks : Tracks history tracked) (table : RouteTable) (current myAddr : Nat) :
    Tracks (history ++ [table.improvement current myAddr])
        (table.checkBetterRoute tracked current myAddr).2 ∧
      ∀ newAddr, (table.checkBetterRoute tracked current myAddr).1 = some newAddr →
        List.replicate RouteTable.routeHysteresisCycles (some newAddr) <:+
          history ++ [table.improvement current myAddr] := by
  unfold RouteTable.checkBetterRoute
  cases found : table.improvement current myAddr with
  | none => exact ⟨.blank _, fun _ switched => absurd switched (by simp)⟩
  | some alternative =>
      dsimp only
      obtain ⟨counted, countedEq⟩ : ∃ counted, counted =
          (if tracked.candidateAddr = alternative then
            { tracked with consecutiveCycles := tracked.consecutiveCycles + 1 }
          else
            { candidateAddr := alternative
              currentBestAddr := current
              consecutiveCycles := 1 } : BetterRoute) := ⟨_, rfl⟩
      have continues : Tracks (history ++ [some alternative]) counted := by
        rw [countedEq]
        split
        · rename_i same
          obtain ⟨earlier, split⟩ := tracks
          refine ⟨earlier, ?_⟩
          rw [← split, same, List.append_assoc, ← List.replicate_succ']
        · exact List.suffix_append history [some alternative]
      rw [← countedEq]
      split
      · rename_i enough
        refine ⟨.blank _, fun newAddr switched => ?_⟩
        obtain rfl := Option.some.inj switched
        have counts : counted.consecutiveCycles = (counted.consecutiveCycles -
            RouteTable.routeHysteresisCycles) + RouteTable.routeHysteresisCycles := by omega
        unfold Tracks at continues
        rw [counts, List.replicate_add] at continues
        exact (List.suffix_append _ _).trans continues
      · exact ⟨continues, fun _ switched => absurd switched (by simp)⟩

/-! ## The preferred parent along a run -/

/-- The broadcast of a discovery leaves the routing state and the hysteresis alone. -/
theorem broadcastDiscovery_fields (m : MeshManager) (disc : Discovery) :
    ∃ env outputs, m.broadcastDiscovery disc = { m with env := env, outputs := outputs } := by
  have broadcasts : ∀ (m : MeshManager) (transport : Transport) (packet : MeshPacket),
      ∃ env outputs, (m.sendRaw transport packet broadcastAddr false).2 =
        { m with env := env, outputs := outputs } := by
    intro m transport packet
    unfold sendRaw
    split
    · exact ⟨_, _, rfl⟩
    · dsimp only
      rw [if_neg (by simp)]
      exact ⟨_, _, rfl⟩
  unfold broadcastDiscovery
  dsimp only
  obtain ⟨env, outputs, first⟩ := broadcasts m .espnow
    (freshPacket m.myAddr broadcastAddr .discovery (m.discoveryBytes disc) 0)
  rw [first]
  split
  · obtain ⟨env', outputs', second⟩ := broadcasts { m with env := env, outputs := outputs } .lora
      (freshPacket m.myAddr broadcastAddr .discovery (m.discoveryBytes disc) 0)
    rw [second]
    exact ⟨_, _, rfl⟩
  · exact ⟨_, _, rfl⟩

/-- What `updatePreferredParent` makes of the findings of `check_better_route`. -/
theorem updatePreferredParent_cases (offline : m.router.hasInternet = false) :
    m.updatePreferredParent.betterRoute =
        (m.router.table.checkBetterRoute m.betterRoute m.currentParent m.myAddr).2 ∧
      ((m.router.table.checkBetterRoute m.betterRoute m.currentParent m.myAddr).1 =
          some m.updatePreferredParent.preferredParent ∨
        m.updatePreferredParent.preferredParent = m.preferredParent ∨
        m.preferredParent = broadcastAddr) := by
  unfold updatePreferredParent
  rw [if_neg (by rw [offline]; exact Bool.false_ne_true)]
  dsimp only
  split
  · rename_i newAddr switched
    exact ⟨rfl, .inl switched⟩
  · split
    · rename_i unset
      exact ⟨rfl, .inr (.inr unset.1)⟩
    · exact ⟨rfl, .inr (.inl rfl)⟩

/-- Only a discovery of a node without internet changes the preferred parent and what is
tracked; a restart forgets both. -/
theorem parent_step (m : MeshManager) (call : Call) :
    ((m.step call).preferredParent = m.preferredParent ∧
        (m.step call).betterRoute = m.betterRoute ∧ m.reports call = []) ∨
      ((m.step call).preferredParent = broadcastAddr ∧ (m.step call).betterRoute = {}) ∨
      (call.event = .discover ∧ m.router.hasInternet = false ∧
        (m.step call).router.table = m.router.table ∧
        (m.step call).betterRoute =
          (m.router.table.checkBetterRoute m.betterRoute m.currentParent m.myAddr).2 ∧
        ((m.router.table.checkBetterRoute m.betterRoute m.currentParent m.myAddr).1 =
            some (m.step call).preferredParent ∨
          (m.step call).preferredParent = m.preferredParent ∨
          m.preferredParent = broadcastAddr)) := by
  by_cases discovers : call.event = .discover
  · have stepped : m.step call = (m.setEnv call.env).sendDiscovery := by
      unfold step
      rw [discovers]
      rfl
    obtain ⟨router, env, outputs, sent⟩ : ∃ router env outputs,
        router = (m.router.step (.discover (m.setEnv call.env).saturatedQueueLoad)).1 ∧
        (m.setEnv call.env).sendDiscovery =
          { m with router := router, env := env, outputs := outputs }.updatePreferredParent := by
      unfold sendDiscovery
      dsimp only
      obtain ⟨env, outputs, sent⟩ := broadcastDiscovery_fields
        { m.setEnv call.env with
          router := (m.router.step (.discover (m.setEnv call.env).saturatedQueueLoad)).1 }
        ((m.router.step (.discover (m.setEnv call.env).saturatedQueueLoad)).1.advertisement
          (m.setEnv call.env).saturatedQueueLoad)
      exact ⟨_, env, outputs, rfl, congrArg updatePreferredParent sent⟩
    obtain ⟨counted, sent⟩ := sent
    rw [stepped, sent]
    cases online : m.router.hasInternet with
    | true =>
        have stays : router.hasInternet = true := by
          rw [counted]
          unfold Router.step Router.sendDiscovery
          dsimp only
          split <;> exact online
        refine .inl ?_
        unfold updatePreferredParent reports
        rw [if_pos stays, if_neg (by rw [online]; simp)]
        exact ⟨rfl, rfl, rfl⟩
    | false =>
        have same : router = m.router := by
          rw [counted]
          unfold Router.step Router.sendDiscovery
          rw [online]
          rfl
        subst same
        refine .inr (.inr ⟨discovers, rfl, ?_, updatePreferredParent_cases online⟩)
        obtain ⟨parent, tracked, fields⟩ := updatePreferredParent_fields
          { m with env := env, outputs := outputs }
        rw [fields]
  · have silent : m.reports call = [] := if_neg fun asked => discovers asked.1
    have kept := (step_spec m call).keeps
      (fun state => (state.preferredParent = m.preferredParent ∧
          state.betterRoute = m.betterRoute) ∨
        (state.preferredParent = broadcastAddr ∧ state.betterRoute = {}))
      (fun state change calling holds => by
        cases change with
        | restart => exact .inr ⟨rfl, rfl⟩
        | reparent => exact absurd calling discovers
        | _ => exact holds)
      (.inl ⟨rfl, rfl⟩)
    rcases kept with ⟨parent, tracked⟩ | forgotten
    · exact .inl ⟨parent, tracked, silent⟩
    · exact .inr (.inl forgotten)

/-- Along a run the tracked candidate is what the last counted calls found. -/
theorem tracks_step {history : List (Option Nat)} (tracks : Tracks history m.betterRoute)
    (call : Call) : Tracks (history ++ m.reports call) (m.step call).betterRoute := by
  rcases parent_step m call with ⟨_, same, silent⟩ | ⟨_, blank⟩ | ⟨discovers, offline, _, next, _⟩
  · rw [same, silent, List.append_nil]
    exact tracks
  · rw [blank]
    exact .blank _
  · unfold reports
    rw [if_pos ⟨discovers, offline⟩, next]
    exact (tracks.checkBetterRoute _ _ _).1

/-- What holds of the table and the hysteresis in every reachable state. -/
structure HysteresisInv (history : List (Option Nat)) (m : MeshManager) : Prop where
  bounded : m.TableBounded
  tracks : Tracks history m.betterRoute

theorem hysteresisInv_run {history : List (Option Nat)} (holds : HysteresisInv history m)
    (calls : List Call) : HysteresisInv (history ++ m.reportHistory calls) (m.run calls) := by
  induction calls generalizing m history with
  | nil =>
      unfold reportHistory
      rw [List.append_nil]
      exact holds
  | cons call rest inductionHypothesis =>
      have stepped : HysteresisInv (history ++ m.reports call) (m.step call) :=
        ⟨tableBounded_step holds.bounded call, tracks_step holds.tracks call⟩
      unfold reportHistory
      rw [← List.append_assoc]
      exact inductionHypothesis stepped

theorem nextHop_eq_parent_iff (bounded : m.TableBounded) (eligible : m.ParentEligible) :
    m.nextHop exitAnyAddr = m.preferredParent ↔ m.ParentCheapest := by
  obtain ⟨_, entry, member, _⟩ := eligible
  exact RouteTable.nextHop_exit_eq_iff bounded member

/-- In every run, while the preferred parent is eligible, the packets to any exit follow it
exactly when it is the first cheapest neighbour.  A call that leaves a parent eligible
changes it only in a discovery, on the third equal finding of `check_better_route` in a row;
and the next hop stays the same as long as the parent was and is the cheapest neighbour. -/
theorem exit_hop_follows_parent_iff (myAddr : Nat) (blockedPeers : List Nat)
    (subscribedTopics : List (List UInt8)) (ledEnabled : Bool) (calls : List Call)
    (m : MeshManager) (reached : (boot myAddr blockedPeers subscribedTopics ledEnabled).run
      calls = m) (eligible : m.ParentEligible) :
    (m.FollowsParent ↔ m.ParentCheapest) ∧
      ∀ call, (m.step call).ParentEligible →
        ((m.step call).preferredParent ≠ m.preferredParent → call.event = .discover ∧
          List.replicate RouteTable.routeHysteresisCycles
              (some (m.step call).preferredParent) <:+
            (boot myAddr blockedPeers subscribedTopics ledEnabled).reportHistory
              (calls ++ [call])) ∧
        (m.ParentCheapest → (m.step call).ParentCheapest →
          (m.step call).nextHop exitAnyAddr = m.nextHop exitAnyAddr) := by
  have booted : HysteresisInv [] (boot myAddr blockedPeers subscribedTopics ledEnabled) :=
    ⟨fun _ member => absurd member List.not_mem_nil, .blank _⟩
  have inv := hysteresisInv_run booted calls
  rw [reached, List.nil_append] at inv
  refine ⟨followsParent_iff_nextHop.trans (nextHop_eq_parent_iff inv.bounded eligible), ?_⟩
  intro call eligibleAfter
  have boundedAfter := tableBounded_step inv.bounded call
  rw [reportHistory_snoc, reached]
  rcases parent_step m call with ⟨same, _, _⟩ | ⟨forgotten, _⟩ |
    ⟨discovers, offline, table, _, parent⟩
  · refine ⟨fun changed => absurd same changed, fun cheapest cheapestAfter => ?_⟩
    rw [(nextHop_eq_parent_iff inv.bounded eligible).mpr cheapest,
      (nextHop_eq_parent_iff boundedAfter eligibleAfter).mpr cheapestAfter, same]
  · exact absurd forgotten eligibleAfter.1
  · constructor
    · intro changed
      rcases parent with switched | same | unset
      · refine ⟨discovers, ?_⟩
        unfold reports
        rw [if_pos ⟨discovers, offline⟩]
        exact (inv.tracks.checkBetterRoute _ _ _).2 _ switched
      · exact absurd same changed
      · exact absurd unset eligible.1
    · intro _ _
      have here := myAddr_via (step_spec m call)
      change (m.step call).router.table.nextHop exitAnyAddr (m.step call).myAddr =
        m.router.table.nextHop exitAnyAddr m.myAddr
      rw [table, here]

/-! ## Two neighbours -/

/-- A neighbour one hop from the internet advertises its route, with its queue load. -/
def advert (src load : Nat) : Call where
  event := .receive (freshPacket src broadcastAddr .discovery
    (Discovery.toBytes ⟨false, 1, 1, 20, load⟩ 0 7) 0)

/-- Node 1 adopts the neighbour 10 as its parent, then the queue of 10 fills up. -/
def parentFillsUp : List Call :=
  [advert 10 0, advert 11 30, { event := .discover }, advert 10 200]

/-- One advertisement moves the packets to neighbour 11 at once, although the parent 10 is
still eligible and no discovery asked `check_better_route`. -/
theorem next_hop_leaves_eligible_parent :
    ((boot 1 [] [] false).run parentFillsUp).router.hasInternet = false ∧
      ((boot 1 [] [] false).run parentFillsUp).ParentEligible ∧
      ((boot 1 [] [] false).run parentFillsUp).preferredParent = 10 ∧
      ((boot 1 [] [] false).run parentFillsUp).nextHop exitAnyAddr = 11 ∧
      ((boot 1 [] [] false).run parentFillsUp).betterRoute.consecutiveCycles = 0 ∧
      ¬ ((boot 1 [] [] false).run parentFillsUp).FollowsParent := by
  refine ⟨by decide +kernel, by decide +kernel, by decide +kernel, by decide +kernel,
    by decide +kernel, ?_⟩
  rw [followsParent_iff_nextHop]
  decide +kernel

/-- Two discoveries later the third one switches the parent to 11. -/
theorem third_discovery_switches_parent :
    (((boot 1 [] [] false).run
        (parentFillsUp ++ [{ event := .discover }, { event := .discover }])).FollowsParent ↔
      ((boot 1 [] [] false).run
        (parentFillsUp ++ [{ event := .discover }, { event := .discover }])).ParentCheapest) ∧
      List.replicate 3 (some 11) <:+ (boot 1 [] [] false).reportHistory
        (parentFillsUp ++ [{ event := .discover }, { event := .discover }] ++
          [{ event := .discover }]) := by
  have run := exit_hop_follows_parent_iff 1 [] [] false
    (parentFillsUp ++ [{ event := .discover }, { event := .discover }]) _ rfl
    (by decide +kernel)
  refine ⟨run.1, ?_⟩
  have switched := ((run.2 { event := .discover } (by decide +kernel)).1 (by decide +kernel)).2
  have parent : (((boot 1 [] [] false).run
      (parentFillsUp ++ [{ event := .discover }, { event := .discover }])).step
        { event := .discover }).preferredParent = 11 := by decide +kernel
  rw [parent] at switched
  exact switched

end MeshManager

end ForestLink.Mesh
