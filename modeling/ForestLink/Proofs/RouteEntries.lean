/-
Module: ForestLink.Proofs.RouteEntries
Purpose: What each table operation and each event of a node does to the entries of a
  route table, and which entry the next hop towards the internet is.
Trusted boundary: none
Main exports: NeighborEntry.takeDiscovery, handleDiscovery_table, Keyed, Closed,
  Closed.step, nextHop_candidate
-/
import Mathlib.Data.List.Nodup
import ForestLink.Mesh.Routing

namespace ForestLink.Mesh

open ForestLink.Protocol

namespace RouteTable

variable {table : RouteTable} {addr : Nat} {change : NeighborEntry → NeighborEntry}

/-! ## Adjusting one entry -/

/-- The change leaves an entry of `addr` an entry of `addr`. -/
def KeepsAddr (addr : Nat) (change : NeighborEntry → NeighborEntry) : Prop :=
  ∀ entry, entry.addr = addr → (change entry).addr = addr

theorem mem_adjustFirst {entries : List NeighborEntry} {entry : NeighborEntry}
    (member : entry ∈ adjustFirst addr change entries) :
    entry ∈ entries ∨ ∃ old ∈ entries, old.addr = addr ∧ entry = change old := by
  induction entries with
  | nil => exact absurd member List.not_mem_nil
  | cons head rest inductionHypothesis =>
      by_cases hit : head.addr = addr
      · rw [adjustFirst, if_pos (beq_iff_eq.mpr hit)] at member
        rcases List.mem_cons.mp member with changed | behind
        · exact .inr ⟨head, List.mem_cons_self, hit, changed⟩
        · exact .inl (List.mem_cons_of_mem _ behind)
      · rw [adjustFirst, if_neg (by simpa using hit)] at member
        rcases List.mem_cons.mp member with same | behind
        · exact .inl (same ▸ List.mem_cons_self)
        · rcases inductionHypothesis behind with kept | ⟨old, known, here, changed⟩
          · exact .inl (List.mem_cons_of_mem _ kept)
          · exact .inr ⟨old, List.mem_cons_of_mem _ known, here, changed⟩

/-- An entry of an adjusted table is an old one, or a changed entry of `addr`. -/
theorem mem_adjust {entry : NeighborEntry}
    (member : entry ∈ (table.adjust addr change).neighbors) :
    entry ∈ table.neighbors ∨
      ∃ old ∈ table.neighbors, old.addr = addr ∧ entry = change old :=
  mem_adjustFirst member

theorem getNeighbor_mem {entry : NeighborEntry}
    (found : table.getNeighbor addr = some entry) :
    entry ∈ table.neighbors ∧ entry.addr = addr :=
  ⟨List.mem_of_find?_eq_some found, by simpa using List.find?_some found⟩

/-- What `getNeighbor` finds at the adjusted address. -/
theorem getNeighbor_adjust (keeps : KeepsAddr addr change) (table : RouteTable) :
    (table.adjust addr change).getNeighbor addr = (table.getNeighbor addr).map change := by
  obtain ⟨entries⟩ := table
  change (adjustFirst addr change entries).find? (fun e => e.addr == addr) =
    (entries.find? fun e => e.addr == addr).map change
  induction entries with
  | nil => rfl
  | cons head rest inductionHypothesis =>
      by_cases hit : head.addr = addr
      · simp [adjustFirst, hit, keeps head hit]
      · simp [adjustFirst, hit, inductionHypothesis]

/-- Only the entry that `getNeighbor` finds matters for the change. -/
theorem adjust_congr {other : NeighborEntry → NeighborEntry}
    (agree : ∀ entry, table.getNeighbor addr = some entry → change entry = other entry) :
    table.adjust addr change = table.adjust addr other := by
  obtain ⟨entries⟩ := table
  change RouteTable.mk (adjustFirst addr change entries) =
    RouteTable.mk (adjustFirst addr other entries)
  congr 1
  induction entries with
  | nil => rfl
  | cons head rest inductionHypothesis =>
      by_cases hit : head.addr = addr
      · have same := agree head (by simp [getNeighbor, hit])
        simp [adjustFirst, hit, same]
      · have later := inductionHypothesis fun entry found =>
          agree entry (by simpa [getNeighbor, hit] using found)
        simp [adjustFirst, hit, later]

theorem adjust_id (table : RouteTable) (addr : Nat) :
    table.adjust addr (fun entry => entry) = table := by
  obtain ⟨entries⟩ := table
  change RouteTable.mk (adjustFirst addr (fun entry => entry) entries) = RouteTable.mk entries
  congr 1
  induction entries with
  | nil => rfl
  | cons head rest inductionHypothesis =>
      by_cases hit : head.addr = addr
      · simp [adjustFirst, hit]
      · simp [adjustFirst, hit, inductionHypothesis]

/-- Two changes of one entry are one change. -/
theorem adjust_adjust {second : NeighborEntry → NeighborEntry}
    (keeps : KeepsAddr addr change) :
    (table.adjust addr change).adjust addr second =
      table.adjust addr fun entry => second (change entry) := by
  obtain ⟨entries⟩ := table
  change RouteTable.mk (adjustFirst addr second (adjustFirst addr change entries)) =
    RouteTable.mk (adjustFirst addr (fun entry => second (change entry)) entries)
  congr 1
  induction entries with
  | nil => rfl
  | cons head rest inductionHypothesis =>
      by_cases hit : head.addr = addr
      · simp [adjustFirst, hit, keeps head hit]
      · simp [adjustFirst, hit, inductionHypothesis]

theorem map_addr_adjust (keeps : KeepsAddr addr change) (table : RouteTable) :
    (table.adjust addr change).neighbors.map NeighborEntry.addr =
      table.neighbors.map NeighborEntry.addr := by
  obtain ⟨entries⟩ := table
  change (adjustFirst addr change entries).map NeighborEntry.addr =
    entries.map NeighborEntry.addr
  induction entries with
  | nil => rfl
  | cons head rest inductionHypothesis =>
      by_cases hit : head.addr = addr
      · simp [adjustFirst, hit, keeps head hit]
      · simp [adjustFirst, hit, inductionHypothesis]

/-! ## Taking an advertisement -/

/-- What `update_inet_route` can do to an entry. -/
theorem acceptInetRoute_eq_some {entry accepted : NeighborEntry} {hops seq origin : Nat} :
    acceptInetRoute entry hops seq origin = some accepted ↔
      accepted =
          { entry with hopsToInternet := hops, inetSeq := seq, inetOrigin := origin } ∧
        ((origin = entry.inetOrigin ∧ seqNewer seq entry.inetSeq = true) ∨
          (origin = entry.inetOrigin ∧ seq = entry.inetSeq ∧ hops < entry.hopsToInternet) ∨
          (origin ≠ entry.inetOrigin ∧
            (seqNewer seq entry.inetSeq = true ∨ hops < entry.hopsToInternet))) := by
  have never : seqNewer entry.inetSeq entry.inetSeq = false := Lib.Serial.newer_self _ _
  unfold acceptInetRoute
  by_cases sameOrigin : origin = entry.inetOrigin
  · subst sameOrigin
    by_cases sameSeq : seq = entry.inetSeq
    · subst sameSeq
      by_cases fewer : hops < entry.hopsToInternet
      · simp [never, fewer, eq_comm]
      · simp [never, fewer]
    · by_cases newer : seqNewer seq entry.inetSeq = true
      · simp [newer, eq_comm]
      · simp [newer, sameSeq]
  · by_cases better : seqNewer seq entry.inetSeq = true ∨ hops < entry.hopsToInternet
    · simp only [sameOrigin, better, false_and, if_false, not_false_eq_true, if_true,
        Option.some.injEq, ne_eq, false_or, and_true]
      exact eq_comm
    · simp [sameOrigin, better]

/-- The entry after `update_inet_route`, accepted or not. -/
def takeRoute (hops seq origin : Nat) (entry : NeighborEntry) : NeighborEntry :=
  (acceptInetRoute entry hops seq origin).getD entry

theorem takeRoute_cases (hops seq origin : Nat) (entry : NeighborEntry) :
    takeRoute hops seq origin entry = entry ∨
      takeRoute hops seq origin entry =
        { entry with hopsToInternet := hops, inetSeq := seq, inetOrigin := origin } := by
  unfold takeRoute
  cases taken : acceptInetRoute entry hops seq origin with
  | none => exact .inl rfl
  | some accepted => exact .inr (acceptInetRoute_eq_some.mp taken).1

theorem takeRoute_addr (hops seq origin : Nat) (entry : NeighborEntry) :
    (takeRoute hops seq origin entry).addr = entry.addr := by
  rcases takeRoute_cases hops seq origin entry with same | taken
  · rw [same]
  · rw [taken]

/-- `update_inet_route` changes the neighbour's entry and nothing else. -/
theorem updateInetRoute_table (table : RouteTable) (addr hops seq origin : Nat) :
    (table.updateInetRoute addr hops seq origin).2 =
      table.adjust addr (takeRoute hops seq origin) := by
  unfold updateInetRoute
  cases found : table.getNeighbor addr with
  | none =>
      have absent : table.adjust addr (takeRoute hops seq origin) =
          table.adjust addr fun entry => entry := by
        apply adjust_congr
        intro entry known
        exact absurd (found.symm.trans known) (by simp)
      rw [absent, adjust_id]
  | some entry =>
      cases taken : acceptInetRoute entry hops seq origin with
      | none =>
          have same : table.adjust addr (takeRoute hops seq origin) =
              table.adjust addr fun entry => entry := by
            apply adjust_congr
            intro known here
            obtain rfl := Option.some.inj (found.symm.trans here)
            simp [takeRoute, taken]
          simp only [taken]
          rw [same, adjust_id]
      | some accepted =>
          simp only [taken]
          apply adjust_congr
          intro known here
          obtain rfl := Option.some.inj (found.symm.trans here)
          simp [takeRoute, taken]

/-! ## Hearing a neighbour -/

theorem mem_updateNeighbor {now : Nat} {heard : Heard} {entry : NeighborEntry}
    (member : entry ∈ (table.updateNeighbor now addr heard).neighbors) :
    entry ∈ table.neighbors ∨
      (∃ old ∈ table.neighbors, old.addr = addr ∧ entry = refresh now heard old) ∨
      entry = newEntry now addr heard := by
  unfold updateNeighbor at member
  split at member
  · rcases mem_adjust member with kept | changed
    · exact .inl kept
    · exact .inr (.inl changed)
  · split at member
    · rcases List.mem_append.mp member with kept | new
      · exact .inl kept
      · exact .inr (.inr (List.mem_singleton.mp new))
    · rcases List.mem_or_eq_of_mem_set member with kept | new
      · exact .inl kept
      · exact .inr (.inr new)

/-! ## One entry for each address -/

/-- No address has two entries. -/
def Keyed (table : RouteTable) : Prop := (table.neighbors.map NeighborEntry.addr).Nodup

namespace Keyed

/-- In a keyed table the entry of an address is the one `getNeighbor` finds. -/
theorem getNeighbor (keyed : table.Keyed) {entry : NeighborEntry}
    (member : entry ∈ table.neighbors) : table.getNeighbor entry.addr = some entry := by
  cases found : table.getNeighbor entry.addr with
  | none =>
      have missing := List.find?_eq_none.mp found entry member
      exact absurd (beq_self_eq_true entry.addr) missing
  | some first =>
      have here := getNeighbor_mem found
      exact congrArg some (List.inj_on_of_nodup_map keyed here.1 member here.2)

theorem of_sublist {after : RouteTable} (keyed : table.Keyed)
    (sub : (after.neighbors.map NeighborEntry.addr).Sublist
      (table.neighbors.map NeighborEntry.addr)) : after.Keyed :=
  List.Nodup.sublist sub keyed

theorem adjust (keyed : table.Keyed) (keeps : KeepsAddr addr change) :
    (table.adjust addr change).Keyed :=
  keyed.of_sublist ((map_addr_adjust keeps table).symm ▸ List.Sublist.refl _)

theorem updateNeighbor (keyed : table.Keyed) (now addr : Nat) (heard : Heard) :
    (table.updateNeighbor now addr heard).Keyed := by
  unfold RouteTable.updateNeighbor
  split
  · exact keyed.adjust fun _ here => here
  · rename_i unknown
    have fresh : addr ∉ table.neighbors.map NeighborEntry.addr := by
      intro known
      obtain ⟨entry, member, eq⟩ := List.mem_map.mp known
      exact unknown (List.any_eq_true.mpr ⟨entry, member, beq_iff_eq.mpr eq⟩)
    split
    · unfold Keyed
      rw [List.map_append]
      exact List.Nodup.append keyed (List.nodup_singleton _)
        (List.disjoint_singleton.mpr fresh)
    · unfold Keyed
      rw [List.map_set]
      exact List.Nodup.set keyed fresh

theorem mapEntries (keyed : table.Keyed) (keeps : ∀ entry, (change entry).addr = entry.addr) :
    RouteTable.Keyed { table with neighbors := table.neighbors.map change } := by
  apply keyed.of_sublist
  have same : NeighborEntry.addr ∘ change = NeighborEntry.addr := funext keeps
  rw [List.map_map, same]

end Keyed

/-! ## The next hop towards the internet -/

theorem cheapest_mem (start : Nat × Nat) (entries : List NeighborEntry) :
    (cheapest start entries).1 = start.1 ∨
      ∃ entry ∈ entries, (cheapest start entries).1 = entry.addr := by
  induction entries generalizing start with
  | nil => exact .inl rfl
  | cons head rest inductionHypothesis =>
      unfold cheapest at inductionHypothesis ⊢
      rw [List.foldl_cons]
      split
      · rcases inductionHypothesis (head.addr, routeCost head) with here | ⟨entry, known, eq⟩
        · exact .inr ⟨head, List.mem_cons_self, here⟩
        · exact .inr ⟨entry, List.mem_cons_of_mem _ known, eq⟩
      · rcases inductionHypothesis start with here | ⟨entry, known, eq⟩
        · exact .inl here
        · exact .inr ⟨entry, List.mem_cons_of_mem _ known, eq⟩

/-- `entry` is the first of the entries that cost least. -/
def FirstCheapest (entries : List NeighborEntry) (entry : NeighborEntry) : Prop :=
  ∃ before after, entries = before ++ entry :: after ∧
    (∀ other ∈ before, routeCost entry < routeCost other) ∧
    ∀ other ∈ after, routeCost entry ≤ routeCost other

/-- The search keeps its start, or ends at the first cheapest entry. -/
theorem cheapest_spec (start : Nat × Nat) (entries : List NeighborEntry) :
    (cheapest start entries = start ∧ ∀ entry ∈ entries, start.2 ≤ routeCost entry) ∨
      ∃ entry, FirstCheapest entries entry ∧ routeCost entry < start.2 ∧
        cheapest start entries = (entry.addr, routeCost entry) := by
  induction entries generalizing start with
  | nil => exact .inl ⟨rfl, fun _ none => absurd none List.not_mem_nil⟩
  | cons head rest inductionHypothesis =>
      unfold cheapest
      rw [List.foldl_cons]
      change (cheapest _ rest = start ∧ _) ∨ ∃ entry, _ ∧ _ ∧ cheapest _ rest = _
      split
      · rename_i better
        rcases inductionHypothesis (head.addr, routeCost head) with
          ⟨kept, least⟩ | ⟨entry, ⟨before, after, split, first, later⟩, less, chosen⟩
        · exact .inr ⟨head, ⟨[], rest, rfl, fun _ none => absurd none List.not_mem_nil, least⟩,
            better, kept⟩
        · refine .inr ⟨entry, ⟨head :: before, after, by rw [split]; rfl, ?_, later⟩,
            less.trans better, chosen⟩
          intro other member
          rcases List.mem_cons.mp member with here | behind
          · exact here ▸ less
          · exact first other behind
      · rename_i worse
        rcases inductionHypothesis start with
          ⟨kept, least⟩ | ⟨entry, ⟨before, after, split, first, later⟩, less, chosen⟩
        · refine .inl ⟨kept, ?_⟩
          intro entry member
          rcases List.mem_cons.mp member with here | behind
          · exact here ▸ Nat.le_of_not_lt worse
          · exact least entry behind
        · refine .inr ⟨entry, ⟨head :: before, after, by rw [split]; rfl, ?_, later⟩, less, chosen⟩
          intro other member
          rcases List.mem_cons.mp member with here | behind
          · exact here ▸ Nat.lt_of_lt_of_le less (Nat.le_of_not_lt worse)
          · exact first other behind

/-- A node may be chosen as the next hop towards the internet only over an entry
with a finite route that does not start at the choosing node. -/
theorem nextHop_candidate {myAddr : Nat} (noBroadcast : addr ≠ broadcastAddr)
    (noExitAny : addr ≠ exitAnyAddr)
    (chosen : table.nextHop exitAnyAddr myAddr = addr) :
    ∃ entry ∈ table.neighbors, entry.addr = addr ∧
      entry.hopsToInternet < routeHopsUnknown ∧
      ¬ (myAddr ≠ 0 ∧ entry.inetOrigin = myAddr) := by
  unfold nextHop at chosen
  split at chosen
  · exact absurd chosen.symm noExitAny
  · simp only [ne_eq, not_true_eq_false, and_false, if_false] at chosen
    rcases cheapest_mem (broadcastAddr, 2 ^ 32 - 1)
      (table.candidates exitAnyAddr myAddr) with none | ⟨entry, candidate, eq⟩
    · exact absurd (chosen.symm.trans none) noBroadcast
    · obtain ⟨known, admitted⟩ := List.mem_filter.mp candidate
      refine ⟨entry, known, eq.symm.trans chosen, ?_⟩
      simpa [or_iff_not_imp_left] using admitted

end RouteTable

/-! ## Events of a node -/

/-- An entry after a discovery of its node was handled. -/
def NeighborEntry.takeDiscovery (disc : Discovery) (entry : NeighborEntry) : NeighborEntry :=
  { RouteTable.takeRoute disc.hopsToInternet disc.inetSeq disc.inetOrigin
      (if disc.internet then { entry with hasInternet := true, hopsToInternet := 0 }
        else entry) with
    queueLoad := disc.queueLoad }

namespace Router

open RouteTable

variable {router : Router}

theorem takeDiscovery_addr (disc : Discovery) (entry : NeighborEntry) :
    (entry.takeDiscovery disc).addr = entry.addr := by
  unfold NeighborEntry.takeDiscovery
  simp only [takeRoute_addr]
  split <;> rfl

/-- `handle_discovery` changes the entry of the sender and nothing else. -/
theorem handleDiscovery_table (router : Router) (frame : RouteFrame) (disc : Discovery)
    (queueLoad : Nat) :
    (router.handleDiscovery frame disc queueLoad).1 =
      { router with
        table := router.table.adjust frame.srcAddr (NeighborEntry.takeDiscovery disc) } := by
  unfold handleDiscovery
  simp only [updateInetRoute_table, setQueueLoad]
  have keepsRoute : KeepsAddr frame.srcAddr
      (takeRoute disc.hopsToInternet disc.inetSeq disc.inetOrigin) :=
    fun entry here => (takeRoute_addr ..).trans here
  rw [adjust_adjust keepsRoute]
  cases flag : disc.internet with
  | true =>
      simp only [if_true, setHasInternet]
      have keepsFlag : KeepsAddr frame.srcAddr
          fun entry => { entry with hasInternet := true, hopsToInternet := 0 } :=
        fun _ here => here
      rw [adjust_adjust keepsFlag]
      congr 2
      funext entry
      simp [NeighborEntry.takeDiscovery, flag]
  | false =>
      simp only [Bool.false_eq_true, if_false]
      congr 2
      funext entry
      simp [NeighborEntry.takeDiscovery, flag]

/-- What `process_slab` can do. -/
theorem processSlab_cases (router : Router) (rx : Reception) (frame : RouteFrame) :
    router.processSlab rx frame = (router, []) ∨
      router.processSlab rx frame = (router.hear rx frame, []) ∨
      (∃ disc, frame.payload = .discovery disc ∧ router.ignores frame = false ∧
        router.processSlab rx frame =
          (router.hear rx frame).handleDiscovery frame disc rx.queueLoad) ∨
      (∃ rerr, frame.payload = .routeError rerr ∧ router.ignores frame = false ∧
        router.processSlab rx frame = (router.hear rx frame).handleRouteError rerr) := by
  unfold processSlab
  cases ignored : router.ignores frame with
  | true => exact .inl rfl
  | false =>
      simp only [Bool.false_eq_true, if_false]
      cases (router.hear rx frame).forUs rx frame with
      | false => exact .inr (.inl rfl)
      | true =>
          cases frame.payload with
          | discovery disc => exact .inr (.inr (.inl ⟨disc, rfl, trivial, rfl⟩))
          | routeError rerr => exact .inr (.inr (.inr ⟨rerr, rfl, trivial, rfl⟩))
          | other => exact .inr (.inl rfl)

/-- A property of entries that no event can break, `event` included: it holds of
blank entries, depends on the advertised route only, survives the loss of the route,
and survives a discovery if the event is one. -/
structure Closed (P : NeighborEntry → Prop) (event : Event) : Prop where
  blank : ∀ entry : NeighborEntry, entry.hopsToInternet = routeHopsUnknown →
    entry.hasInternet = false → P entry
  same : ∀ old entry : NeighborEntry, P old → entry.addr = old.addr →
    entry.hopsToInternet = old.hopsToInternet → entry.inetSeq = old.inetSeq →
    entry.inetOrigin = old.inetOrigin → entry.hasInternet = old.hasInternet → P entry
  lost : ∀ old, P old → P { old with hopsToInternet := routeHopsUnknown }
  heard : ∀ rx frame disc, event = .receive rx frame → frame.payload = .discovery disc →
    ∀ old, P old → old.addr = frame.srcAddr → P (old.takeDiscovery disc)

namespace Closed

variable {P : NeighborEntry → Prop} {event : Event}

theorem hear (closed : Closed P event) (all : ∀ entry ∈ router.table.neighbors, P entry)
    (rx : Reception) (frame : RouteFrame) :
    ∀ entry ∈ (router.hear rx frame).table.neighbors, P entry := by
  intro entry member
  unfold Router.hear at member
  split at member
  · rcases mem_updateNeighbor member with kept | ⟨old, known, _, refreshed⟩ | new
    · exact all entry kept
    · exact closed.same old entry (all old known) (by simp [refreshed, refresh])
        (by simp [refreshed, refresh]) (by simp [refreshed, refresh])
        (by simp [refreshed, refresh]) (by simp [refreshed, refresh])
    · exact closed.blank entry (by simp [new, newEntry]) (by simp [new, newEntry])
  · exact all entry member

theorem processSlab {rx : Reception} {frame : RouteFrame}
    (closed : Closed P (.receive rx frame))
    (all : ∀ entry ∈ router.table.neighbors, P entry) :
    ∀ entry ∈ (router.processSlab rx frame).1.table.neighbors, P entry := by
  have heard := closed.hear all rx frame
  rcases processSlab_cases router rx frame with
    ignored | unhandled | ⟨disc, payload, _, handled⟩ | ⟨rerr, _, _, handled⟩
  · rw [ignored]
    exact all
  · rw [unhandled]
    exact heard
  · rw [handled, handleDiscovery_table]
    intro entry member
    rcases mem_adjust member with kept | ⟨old, known, here, changed⟩
    · exact heard entry kept
    · rw [changed]
      exact closed.heard rx frame disc rfl payload old (heard old known) here
  · rw [handled]
    intro entry member
    obtain ⟨old, known, changed⟩ := List.mem_map.mp member
    split at changed
    · exact changed ▸ closed.lost old (heard old known)
    · exact changed ▸ heard old known

theorem age (closed : Closed P event) (all : ∀ entry ∈ router.table.neighbors, P entry)
    (staleNow pruneNow : Nat) :
    ∀ entry ∈ (router.age staleNow pruneNow).1.table.neighbors, P entry := by
  intro entry member
  have reported := List.mem_of_mem_filter member
  obtain ⟨old, known, changed⟩ := List.mem_map.mp reported
  have before := all old known
  split at changed
  · rw [← changed]
    exact closed.same old _ before rfl rfl rfl rfl rfl
  · exact changed ▸ before

/-- Along one event every entry keeps the property. -/
theorem step (closed : Closed P event) (all : ∀ entry ∈ router.table.neighbors, P entry) :
    ∀ entry ∈ (router.step event).1.table.neighbors, P entry := by
  cases event with
  | receive rx frame => exact closed.processSlab all
  | discover queueLoad =>
      unfold Router.step Router.sendDiscovery
      dsimp only
      split <;> exact all
  | age staleNow pruneNow => exact closed.age all staleNow pruneNow
  | linkTx addr success =>
      intro entry member
      rcases mem_adjust member with kept | ⟨old, known, _, changed⟩
      · exact all entry kept
      · rw [changed]
        exact closed.same old _ (all old known) rfl rfl rfl rfl rfl
  | setInternet value => exact all
  | transmit dst => exact all

end Closed

/-! ## The addresses of a node's table -/

theorem keyed_step (keyed : router.table.Keyed) (event : Event) :
    (router.step event).1.table.Keyed := by
  cases event with
  | receive rx frame =>
      have heard : (router.hear rx frame).table.Keyed := by
        unfold Router.hear
        split
        · exact keyed.updateNeighbor ..
        · exact keyed
      change (router.processSlab rx frame).1.table.Keyed
      rcases processSlab_cases router rx frame with
        ignored | unhandled | ⟨disc, _, _, handled⟩ | ⟨rerr, _, _, handled⟩
      · rw [ignored]
        exact keyed
      · rw [unhandled]
        exact heard
      · rw [handled, handleDiscovery_table]
        exact heard.adjust fun entry here => (takeDiscovery_addr _ entry).trans here
      · rw [handled]
        apply heard.mapEntries
        intro entry
        split <;> rfl
  | discover queueLoad =>
      unfold Router.step Router.sendDiscovery
      dsimp only
      split <;> exact keyed
  | age staleNow pruneNow =>
      have marked : (router.table.detectEarlyStale staleNow earlyStaleTimeoutMs).2.Keyed := by
        apply keyed.mapEntries
        intro entry
        split <;> rfl
      exact marked.of_sublist (List.Sublist.map _ List.filter_sublist)
  | linkTx addr success => exact keyed.adjust fun _ here => here
  | setInternet value => exact keyed
  | transmit dst => exact keyed

/-- A node that starts with an empty table never holds two entries of one address. -/
theorem keyed_run {events : List Event} (keyed : router.table.Keyed) :
    (router.run events).table.Keyed := by
  induction events generalizing router with
  | nil => exact keyed
  | cons event rest inductionHypothesis => exact inductionHypothesis (keyed_step keyed event)

end Router

end ForestLink.Mesh
