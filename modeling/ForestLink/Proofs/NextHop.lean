/-
Module: ForestLink.Proofs.NextHop
Purpose: Which neighbour a packet goes to: the first of the cheapest that qualify, and when
  that is one that hears ESP-NOW.
Trusted boundary: none
Main exports: NeighborEntry.Typed, RouteTable.nextHop_search, next_hop_argmin,
  PrefersEspnow, espnow_preferred_iff
-/
import ForestLink.Mesh.Packets
import ForestLink.Proofs.RouteEntries

namespace ForestLink.Mesh

open ForestLink.Protocol

/-- The fields that `route_cost` adds fit their C types. -/
structure NeighborEntry.Typed (entry : NeighborEntry) : Prop where
  hops : entry.hopsToInternet < 2 ^ 8
  etx : entry.etxX100 < 2 ^ 16
  load : entry.queueLoad < 2 ^ 8

instance (entry : NeighborEntry) : Decidable entry.Typed :=
  decidable_of_iff (entry.hopsToInternet < 2 ^ 8 ∧ entry.etxX100 < 2 ^ 16 ∧ entry.queueLoad < 2 ^ 8)
    ⟨fun ⟨hops, etx, load⟩ => ⟨hops, etx, load⟩, fun typed => ⟨typed.hops, typed.etx, typed.load⟩⟩

namespace RouteTable

variable {table : RouteTable} {dstAddr myAddr : Nat}

/-! ## The first cheapest entry -/

/-- No cost reaches the start of the search. -/
theorem routeCost_lt {entry : NeighborEntry} (typed : entry.Typed) :
    routeCost entry < 2 ^ 32 - 1 := by
  obtain ⟨hops, etx, load⟩ := typed
  unfold routeCost loraOnlyPenalty
  split <;> omega

theorem FirstCheapest.mem {entries : List NeighborEntry} {entry : NeighborEntry}
    (first : FirstCheapest entries entry) : entry ∈ entries := by
  obtain ⟨before, after, rfl, _⟩ := first
  exact List.mem_append_right before List.mem_cons_self

/-- The search over typed entries finds the first cheapest one, unless there is none. -/
theorem cheapest_typed (entries : List NeighborEntry) (typed : ∀ entry ∈ entries, entry.Typed)
    (start : Nat) :
    entries = [] ∧ cheapest (start, 2 ^ 32 - 1) entries = (start, 2 ^ 32 - 1) ∨
      ∃ entry, FirstCheapest entries entry ∧
        cheapest (start, 2 ^ 32 - 1) entries = (entry.addr, routeCost entry) := by
  rcases cheapest_spec (start, 2 ^ 32 - 1) entries with ⟨kept, none⟩ | ⟨entry, first, _, chosen⟩
  · cases entries with
    | nil => exact .inl ⟨rfl, kept⟩
    | cons head rest =>
        have dear := none head List.mem_cons_self
        exact absurd (routeCost_lt (typed head List.mem_cons_self)) (Nat.not_lt_of_le dear)
  · exact .inr ⟨entry, first, chosen⟩

/-! ## The candidates -/

/-- Neighbours with a route to the internet that does not come back. -/
def exitRoutes (table : RouteTable) (myAddr : Nat) : List NeighborEntry :=
  table.neighbors.filter fun entry =>
    decide (entry.hopsToInternet < routeHopsUnknown ∧ ¬ (myAddr ≠ 0 ∧ entry.inetOrigin = myAddr))

/-- Neighbours with a route to the internet that are no exits. -/
def relays (table : RouteTable) : List NeighborEntry :=
  table.neighbors.filter fun entry =>
    decide (0 < entry.hopsToInternet ∧ entry.hopsToInternet < routeHopsUnknown)

def exits (table : RouteTable) : List NeighborEntry :=
  table.neighbors.filter fun entry => decide (entry.hopsToInternet = 0)

/-- The neighbours that a packet to `dstAddr` may be given to. -/
def routesTo (table : RouteTable) (dstAddr myAddr : Nat) : List NeighborEntry :=
  if dstAddr = exitAnyAddr then table.exitRoutes myAddr
  else if table.relays = [] then table.exits
  else table.relays

theorem mem_of_mem_routesTo {entry : NeighborEntry}
    (member : entry ∈ table.routesTo dstAddr myAddr) : entry ∈ table.neighbors := by
  unfold routesTo at member
  split at member
  · exact List.mem_of_mem_filter member
  split at member
  · exact List.mem_of_mem_filter member
  · exact List.mem_of_mem_filter member

theorem candidates_exitAny (table : RouteTable) (myAddr : Nat) :
    table.candidates exitAnyAddr myAddr = table.exitRoutes myAddr := by
  unfold candidates exitRoutes
  apply List.filter_congr
  intro entry _
  rw [Bool.eq_iff_iff]
  simp [or_iff_not_imp_left]

theorem candidates_unicast (unicast : dstAddr ≠ exitAnyAddr) :
    table.candidates dstAddr myAddr = table.relays := by
  unfold candidates relays
  apply List.filter_congr
  intro entry _
  have other : (dstAddr == exitAnyAddr) = false := by simpa using unicast
  rw [Bool.eq_iff_iff]
  simp [other, Nat.pos_iff_ne_zero, and_comm]

/-- Without relays the second pass sees the exits. -/
theorem routed_of_relays_nil (none : table.relays = []) :
    (table.neighbors.filter fun entry => decide (entry.hopsToInternet < routeHopsUnknown)) =
      table.exits := by
  unfold relays at none
  rw [List.filter_eq_nil_iff] at none
  apply List.filter_congr
  intro entry member
  have exit_ := none entry member
  rw [decide_eq_true_eq] at exit_
  apply decide_eq_decide.mpr
  unfold routeHopsUnknown at exit_ ⊢
  omega

/-! ## The next hop -/

theorem nextHop_direct (known : ∃ entry ∈ table.neighbors, entry.addr = dstAddr) :
    table.nextHop dstAddr myAddr = dstAddr := by
  obtain ⟨entry, member, here⟩ := known
  exact if_pos (List.any_eq_true.mpr ⟨entry, member, by rw [here]; exact beq_self_eq_true _⟩)

theorem nextHop_search (myAddr : Nat)
    (unknown : ∀ entry ∈ table.neighbors, entry.addr ≠ dstAddr) :
    table.nextHop dstAddr myAddr =
      let best := cheapest (broadcastAddr, 2 ^ 32 - 1) (table.candidates dstAddr myAddr)
      if best.1 = broadcastAddr ∧ dstAddr ≠ exitAnyAddr then
        (cheapest best (table.neighbors.filter fun entry =>
          decide (entry.hopsToInternet < routeHopsUnknown))).1
      else best.1 := by
  unfold nextHop
  rw [if_neg]
  intro some
  obtain ⟨entry, member, here⟩ := List.any_eq_true.mp some
  exact unknown entry member (beq_iff_eq.mp here)

/-- Towards the internet: the first cheapest route. -/
theorem nextHop_exitAny (typed : ∀ entry ∈ table.neighbors, entry.Typed)
    (unknown : ∀ entry ∈ table.neighbors, entry.addr ≠ exitAnyAddr) :
    table.exitRoutes myAddr = [] ∧ table.nextHop exitAnyAddr myAddr = broadcastAddr ∨
      ∃ entry, FirstCheapest (table.exitRoutes myAddr) entry ∧
        table.nextHop exitAnyAddr myAddr = entry.addr := by
  have searched := nextHop_search myAddr unknown
  rw [candidates_exitAny] at searched
  simp only [ne_eq, not_true_eq_false, and_false, if_false] at searched
  rw [searched]
  rcases cheapest_typed (table.exitRoutes myAddr)
    (fun entry member => typed entry (List.mem_of_mem_filter member)) broadcastAddr with
    ⟨none, kept⟩ | ⟨entry, first, chosen⟩
  · exact .inl ⟨none, by rw [kept]⟩
  · exact .inr ⟨entry, first, by rw [chosen]⟩

/-- Towards a node: the first cheapest relay, or the first cheapest exit if there are only
exits. -/
theorem nextHop_unicast (typed : ∀ entry ∈ table.neighbors, entry.Typed)
    (noBroadcast : ∀ entry ∈ table.neighbors, entry.addr ≠ broadcastAddr)
    (unknown : ∀ entry ∈ table.neighbors, entry.addr ≠ dstAddr)
    (unicast : dstAddr ≠ exitAnyAddr) :
    table.routesTo dstAddr myAddr = [] ∧ table.nextHop dstAddr myAddr = broadcastAddr ∨
      ∃ entry, FirstCheapest (table.routesTo dstAddr myAddr) entry ∧
        table.nextHop dstAddr myAddr = entry.addr := by
  have searched := nextHop_search myAddr unknown
  rw [candidates_unicast unicast] at searched
  rw [searched, routesTo, if_neg unicast]
  rcases cheapest_typed table.relays
    (fun entry member => typed entry (List.mem_of_mem_filter member)) broadcastAddr with
    ⟨none, kept⟩ | ⟨entry, first, chosen⟩
  · -- The second pass goes on from the start of the first one.
    rw [if_pos none, kept, routed_of_relays_nil none]
    simp only [ne_eq, unicast, not_false_eq_true, and_self, if_true]
    rcases cheapest_typed table.exits
      (fun entry member => typed entry (List.mem_of_mem_filter member)) broadcastAddr with
      ⟨noExit, still⟩ | ⟨entry, first, chosen⟩
    · exact .inl ⟨noExit, by rw [still]⟩
    · exact .inr ⟨entry, first, by rw [chosen]⟩
  · have some : table.relays ≠ [] := List.ne_nil_of_mem first.mem
    have found : ¬ entry.addr = broadcastAddr :=
      noBroadcast entry (List.mem_of_mem_filter first.mem)
    rw [if_neg some, chosen]
    simp only [found, false_and, if_false]
    exact .inr ⟨entry, first, rfl⟩

/-! ## Preferring ESP-NOW -/

/-- A neighbour with this address hears ESP-NOW. -/
def HearsEspnow (table : RouteTable) (addr : Nat) : Prop :=
  ∃ entry ∈ table.neighbors, entry.addr = addr ∧ entry.espnowReachable = true

instance (table : RouteTable) (addr : Nat) : Decidable (table.HearsEspnow addr) :=
  inferInstanceAs (Decidable (∃ entry ∈ table.neighbors, _))

/-- Every route over a neighbour that does not hear ESP-NOW is beaten by one over a neighbour
that does: it costs more, or as much and stands behind it. -/
def PrefersEspnow (table : RouteTable) (myAddr : Nat) : Prop :=
  let routes := table.exitRoutes myAddr
  ∀ i : Fin routes.length, ¬ table.HearsEspnow (routes.get i).addr →
    ∃ j : Fin routes.length, table.HearsEspnow (routes.get j).addr ∧
      (routeCost (routes.get j) < routeCost (routes.get i) ∨
        routeCost (routes.get j) = routeCost (routes.get i) ∧ j < i)

instance (table : RouteTable) (myAddr : Nat) : Decidable (table.PrefersEspnow myAddr) :=
  inferInstanceAs (Decidable (∀ _ : Fin (table.exitRoutes myAddr).length, _ → _))

/-- A position in front of an entry, at it, or behind it. -/
theorem position_cases {before after : List NeighborEntry} {entry : NeighborEntry}
    (i : Fin (before ++ entry :: after).length) :
    (i.val < before.length ∧ (before ++ entry :: after).get i ∈ before) ∨
      (i.val = before.length ∧ (before ++ entry :: after).get i = entry) ∨
      (before.length < i.val ∧ (before ++ entry :: after).get i ∈ after) := by
  obtain ⟨i, inside⟩ := i
  rw [List.get_eq_getElem]
  dsimp only
  rcases Nat.lt_trichotomy i before.length with front | rfl | back
  · refine .inl ⟨front, ?_⟩
    rw [List.getElem_append_left front]
    exact List.getElem_mem front
  · refine .inr (.inl ⟨rfl, ?_⟩)
    rw [List.getElem_append_right (Nat.le_refl _)]
    simp
  · refine .inr (.inr ⟨back, ?_⟩)
    rw [List.getElem_append_right (Nat.le_of_lt back), List.getElem_cons, dif_neg (by omega)]
    exact List.getElem_mem _

/-- The first cheapest route hears ESP-NOW if and only if every other is beaten. -/
theorem hears_first_iff {entry : NeighborEntry}
    (first : FirstCheapest (table.exitRoutes myAddr) entry) :
    table.HearsEspnow entry.addr ↔ table.PrefersEspnow myAddr := by
  obtain ⟨before, after, split, dearer, least⟩ := first
  unfold PrefersEspnow
  dsimp only
  rw [split]
  have here : before.length < (before ++ entry :: after).length := by simp
  constructor
  · intro hears i deaf
    refine ⟨⟨before.length, here⟩, by simpa using hears, ?_⟩
    rcases position_cases i with ⟨_, member⟩ | ⟨_, same⟩ | ⟨behind, member⟩
    · exact .inl (by simpa using dearer _ member)
    · rw [same] at deaf
      exact absurd hears deaf
    · rcases Nat.eq_or_lt_of_le (least _ member) with equal | less
      · exact .inr ⟨by simpa using equal, behind⟩
      · exact .inl (by simpa using less)
  · intro prefers
    by_contra deaf
    obtain ⟨j, hears, beaten⟩ := prefers ⟨before.length, here⟩ (by simpa using deaf)
    have chosen : (before ++ entry :: after).get ⟨before.length, here⟩ = entry := by simp
    rw [chosen] at beaten
    rcases position_cases j with ⟨_, member⟩ | ⟨_, same⟩ | ⟨behind, member⟩
    · have more := dearer _ member
      rcases beaten with less | ⟨equal, _⟩
      · exact absurd less (Nat.lt_asymm more)
      · exact absurd equal.symm (Nat.ne_of_lt more)
    · exact deaf (same ▸ hears)
    · rcases beaten with less | ⟨_, front⟩
      · exact absurd less (Nat.not_lt_of_le (least _ member))
      · exact absurd (show j.val < before.length from front) (Nat.lt_asymm behind)

theorem hears_nextHop_iff (typed : ∀ entry ∈ table.neighbors, entry.Typed)
    (route : ∃ entry ∈ table.exitRoutes myAddr, entry.espnowReachable = true) :
    table.HearsEspnow (table.nextHop exitAnyAddr myAddr) ↔
      table.HearsEspnow exitAnyAddr ∨
        (∀ entry ∈ table.neighbors, entry.addr ≠ exitAnyAddr) ∧ table.PrefersEspnow myAddr := by
  by_cases known : ∃ entry ∈ table.neighbors, entry.addr = exitAnyAddr
  · rw [nextHop_direct known]
    refine ⟨.inl, fun either => either.resolve_right fun both => ?_⟩
    obtain ⟨entry, member, here⟩ := known
    exact both.1 entry member here
  · have unknown : ∀ entry ∈ table.neighbors, entry.addr ≠ exitAnyAddr :=
      fun entry member here => known ⟨entry, member, here⟩
    have silent : ¬ table.HearsEspnow exitAnyAddr :=
      fun ⟨entry, member, here, _⟩ => unknown entry member here
    rcases nextHop_exitAny typed unknown with ⟨none, _⟩ | ⟨entry, first, chosen⟩
    · obtain ⟨entry, member, _⟩ := route
      exact absurd member (none ▸ List.not_mem_nil)
    · rw [chosen, hears_first_iff first]
      exact ⟨fun prefers => .inr ⟨unknown, prefers⟩, fun either => (either.resolve_left silent).2⟩

end RouteTable

/-- With an address other than the broadcast address for every neighbour, the next hop is the
destination when it is a neighbour; else the first of the cheapest candidates, and the
broadcast address exactly when there is none. -/
theorem next_hop_argmin {table : RouteTable} (typed : ∀ entry ∈ table.neighbors, entry.Typed)
    (noBroadcast : ∀ entry ∈ table.neighbors, entry.addr ≠ broadcastAddr)
    (dstAddr myAddr : Nat) :
    let hop := table.nextHop dstAddr myAddr
    let routes := table.routesTo dstAddr myAddr
    ((∃ entry ∈ table.neighbors, entry.addr = dstAddr) → hop = dstAddr) ∧
    ((∀ entry ∈ table.neighbors, entry.addr ≠ dstAddr) →
      (routes ≠ [] → ∃ entry, RouteTable.FirstCheapest routes entry ∧ hop = entry.addr) ∧
      (hop = broadcastAddr ↔ routes = [])) := by
  intro hop routes
  refine ⟨RouteTable.nextHop_direct, fun unknown => ?_⟩
  have cases_ : routes = [] ∧ hop = broadcastAddr ∨
      ∃ entry, RouteTable.FirstCheapest routes entry ∧ hop = entry.addr := by
    by_cases toInternet : dstAddr = exitAnyAddr
    · subst toInternet
      exact RouteTable.nextHop_exitAny typed unknown
    · exact RouteTable.nextHop_unicast typed noBroadcast unknown toInternet
  rcases cases_ with ⟨none, noHop⟩ | ⟨entry, first, chosen⟩
  · exact ⟨fun some => absurd none some, fun _ => none, fun _ => noHop⟩
  · have known : entry ∈ table.neighbors := RouteTable.mem_of_mem_routesTo first.mem
    refine ⟨fun _ => ⟨entry, first, chosen⟩, fun broadcast => ?_, fun none => ?_⟩
    · exact absurd (chosen.symm.trans broadcast) (noBroadcast entry known)
    · exact absurd first.mem (none ▸ List.not_mem_nil)

/-- A neighbour that hears LoRa only, one hop from an exit, and one that hears ESP-NOW, so many
hops from an exit. -/
def twoRoutes (hops : Nat) : RouteTable :=
  (RouteTable.updateNeighbor {} 0 5 { espnow := false, lora := true, hopsToInet := 1 }).updateNeighbor
    0 6 { hopsToInet := hops }

theorem next_hop_argmin_two_routes :
    ∃ entry, RouteTable.FirstCheapest ((twoRoutes 2).routesTo exitAnyAddr 9) entry ∧
      (twoRoutes 2).nextHop exitAnyAddr 9 = entry.addr :=
  ((next_hop_argmin (by decide) (by decide) exitAnyAddr 9).2 (by decide)).1 (by decide)

/-! ## ESP-NOW routes -/

namespace MeshManager

/-- A relay that is not congested forwards fragments over ESP-NOW to the next hop. -/
theorem forwardPacket_fragment (m : MeshManager) {packet : MeshPacket}
    (fragment : requiresEspnowDataPath packet.header.type = true) (calm : m.congested = false) :
    m.forwardPacket packet =
      if m.nextHop packet.header.dstAddr = broadcastAddr then m
      else
        (m.sendRaw .espnow { packet with header := nextHeader packet.header }
          (m.nextHop packet.header.dstAddr) true).2 := by
  have isFragment : packet.header.type = .data ∨ packet.header.type = .parity := by
    simpa [requiresEspnowDataPath] using fragment
  have sameType : (nextHeader packet.header).type = packet.header.type := rfl
  have direct : rebroadcast packet.header.type = false := by
    rcases isFragment with data | parity
    · rw [data]
      rfl
    · rw [parity]
      rfl
  have unmarked : markCongestion (nextHeader packet.header) m.congested =
      nextHeader packet.header := by
    unfold markCongestion
    rw [calm, sameType]
    rcases isFragment with data | parity
    · rw [data]
    · rw [parity]
  unfold forwardPacket
  dsimp only
  rw [unmarked, calm, direct]
  unfold sendVia selectTransport transportFor
  dsimp only
  rw [sameType, fragment]
  rfl

/-- Fragments for any exit are forwarded over ESP-NOW to neighbours that hear it, or not at
all. -/
def FragmentsHeard (m : MeshManager) : Prop :=
  ∀ packet : MeshPacket, requiresEspnowDataPath packet.header.type = true →
    packet.header.dstAddr = exitAnyAddr → m.congested = false →
      m.forwardPacket packet = m ∨
        ∃ peer, m.router.table.HearsEspnow peer ∧ m.forwardPacket packet =
          (m.sendRaw .espnow { packet with header := nextHeader packet.header } peer true).2

end MeshManager

/-- While a route over a neighbour that hears ESP-NOW exists: the next hop towards the internet
hears ESP-NOW, and with it everybody that fragments are forwarded to, if and only if the address
for any exit is no neighbour's that does not hear it, and every route over a neighbour that does
not is beaten. -/
theorem espnow_preferred_iff {m : MeshManager}
    (typed : ∀ entry ∈ m.router.table.neighbors, entry.Typed)
    (route : ∃ entry ∈ m.router.table.exitRoutes m.myAddr, entry.espnowReachable = true) :
    m.router.table.HearsEspnow (m.nextHop exitAnyAddr) ∧ m.FragmentsHeard ↔
      m.router.table.HearsEspnow exitAnyAddr ∨
        (∀ entry ∈ m.router.table.neighbors, entry.addr ≠ exitAnyAddr) ∧
          m.router.table.PrefersEspnow m.myAddr := by
  rw [← RouteTable.hears_nextHop_iff typed route]
  refine ⟨And.left, fun hears => ⟨hears, fun packet fragment toExit calm => ?_⟩⟩
  rw [m.forwardPacket_fragment fragment calm, toExit]
  split
  · exact .inl rfl
  · exact .inr ⟨_, hears, rfl⟩

/-- A relay with these neighbours. -/
def twoRoutesRelay (hops : Nat) : MeshManager :=
  { MeshManager.boot 9 [] [] false with router := { myAddr := 9, table := twoRoutes hops } }

theorem espnow_preferred_two_routes :
    (twoRoutesRelay 5).router.table.HearsEspnow ((twoRoutesRelay 5).nextHop exitAnyAddr) ∧
      (twoRoutesRelay 5).FragmentsHeard :=
  (espnow_preferred_iff (by decide) (by decide)).mpr (.inr ⟨by decide, by decide⟩)

/-- Seven hops over ESP-NOW cost more than one hop over LoRa: fragments go, over ESP-NOW, to the
neighbour that hears only LoRa. -/
theorem long_espnow_route_loses :
    let m := twoRoutesRelay 7
    (∃ entry ∈ m.router.table.exitRoutes m.myAddr, entry.espnowReachable = true) ∧
      m.nextHop exitAnyAddr = 5 ∧ ¬ m.router.table.HearsEspnow 5 ∧
      let packet := freshPacket 8 exitAnyAddr .data [] 0
      (m.forwardPacket packet).outputs =
        [.sent .espnow 5 { packet with header := MeshManager.nextHeader packet.header } 0 true] := by
  decide

end ForestLink.Mesh
