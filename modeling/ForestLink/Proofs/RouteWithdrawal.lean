/-
Module: ForestLink.Proofs.RouteWithdrawal
Purpose: When a node that lost its internet route is forgotten by its neighbours: what
  a discovery without a route does to the table of the node that processes it.
Trusted boundary: none
Main exports: Router.Stranded, Router.Advertises, Router.Withdrawn,
  withdrawal_taken_iff_unmarked_and_newer
-/
import ForestLink.Proofs.RouteEntries

namespace ForestLink.Mesh

open ForestLink.Protocol

/-- The entry records neither an internet connection nor a finite route. -/
def NeighborEntry.Dark (entry : NeighborEntry) : Prop :=
  entry.hasInternet = false ∧ ¬ entry.hopsToInternet < routeHopsUnknown

namespace Router

open RouteTable

variable {router sender : Router} {addr queueLoad : Nat}

/-! ## The withdrawal -/

/-- The node has neither internet nor a route to it. -/
def Stranded (router : Router) : Prop :=
  router.hasInternet = false ∧
    ∀ entry ∈ router.table.neighbors, ¬ entry.hopsToInternet < routeHopsUnknown

theorem bestInetRoute_of_unknown {table : RouteTable}
    (unknown : ∀ entry ∈ table.neighbors, ¬ entry.hopsToInternet < routeHopsUnknown) :
    table.bestInetRoute = {} := by
  obtain ⟨entries⟩ := table
  unfold bestInetRoute
  induction entries with
  | nil => rfl
  | cons head rest inductionHypothesis =>
      rw [List.foldl_cons, if_neg (unknown head List.mem_cons_self)]
      exact inductionHypothesis fun entry member =>
        unknown entry (List.mem_cons_of_mem _ member)

theorem minControlHops_of_unknown {table : RouteTable}
    (unknown : ∀ entry ∈ table.neighbors, ¬ entry.hopsToInternet < routeHopsUnknown) :
    table.minControlHopsToInternet = routeHopsUnknown := by
  obtain ⟨entries⟩ := table
  unfold minControlHopsToInternet
  induction entries with
  | nil => rfl
  | cons head rest inductionHypothesis =>
      rw [List.foldl_cons, if_neg fun fewer => unknown head List.mem_cons_self fewer.2]
      exact inductionHypothesis fun entry member =>
        unknown entry (List.mem_cons_of_mem _ member)

/-- What a stranded node advertises. -/
theorem advertisement_of_stranded (stranded : sender.Stranded) :
    sender.advertisement queueLoad =
      { internet := false, hopsToInternet := routeHopsUnknown, inetSeq := 0,
        inetOrigin := 0, queueLoad := queueLoad } := by
  simp only [advertisement, computeHopsToInternet, stranded.1,
    minControlHops_of_unknown stranded.2, bestInetRoute_of_unknown stranded.2]
  rfl

/-! ## The entry of the sender -/

/-- The withdrawal leaves an entry dark if it was unmarked and either had no route or
a number that zero is newer than. -/
theorem dark_takeDiscovery_iff (entry : NeighborEntry) (stranded : sender.Stranded) :
    (entry.takeDiscovery (sender.advertisement queueLoad)).Dark ↔
      entry.hasInternet = false ∧
        (¬ entry.hopsToInternet < routeHopsUnknown ∨ seqNewer 0 entry.inetSeq = true) := by
  rw [advertisement_of_stranded stranded]
  unfold NeighborEntry.takeDiscovery NeighborEntry.Dark takeRoute
  dsimp only
  rw [if_neg Bool.false_ne_true]
  cases taken : acceptInetRoute entry routeHopsUnknown 0 0 with
  | none =>
      have stale : ¬ seqNewer 0 entry.inetSeq = true := by
        intro newer
        have accepted : acceptInetRoute entry routeHopsUnknown 0 0 = some _ :=
          acceptInetRoute_eq_some.mpr ⟨rfl, by
            by_cases origin : 0 = entry.inetOrigin
            · exact .inl ⟨origin, newer⟩
            · exact .inr (.inr ⟨origin, .inl newer⟩)⟩
        exact absurd (taken.symm.trans accepted) (by simp)
      simp [stale]
  | some accepted =>
      obtain ⟨eq, reason⟩ := acceptInetRoute_eq_some.mp taken
      have cause : ¬ entry.hopsToInternet < routeHopsUnknown ∨
          seqNewer 0 entry.inetSeq = true := by
        rcases reason with ⟨_, newer⟩ | ⟨_, _, fewer⟩ | ⟨_, newer | fewer⟩
        · exact .inr newer
        · exact .inl (Nat.lt_asymm fewer)
        · exact .inr newer
        · exact .inl (Nat.lt_asymm fewer)
      rw [eq]
      refine ⟨fun dark => ⟨dark.1, cause⟩, fun known => ⟨known.1, Nat.lt_irrefl _⟩⟩

/-- Hearing a frame keeps the advertised route of its sender. -/
theorem getNeighbor_hear (rx : Reception) {frame : RouteFrame} {old : NeighborEntry}
    (found : router.table.getNeighbor frame.srcAddr = some old) :
    ∃ entry, (router.hear rx frame).table.getNeighbor frame.srcAddr = some entry ∧
      entry.hasInternet = old.hasInternet ∧ entry.hopsToInternet = old.hopsToInternet ∧
      entry.inetSeq = old.inetSeq := by
  unfold hear
  split
  · have known : (router.table.neighbors.any fun entry => entry.addr == frame.srcAddr) = true :=
      List.any_eq_true.mpr
        ⟨old, (getNeighbor_mem found).1, beq_iff_eq.mpr (getNeighbor_mem found).2⟩
    have keeps : ∀ heard, KeepsAddr frame.srcAddr (refresh rx.nowMs heard) :=
      fun _ _ here => here
    unfold updateNeighbor
    rw [if_pos known]
    dsimp only
    rw [getNeighbor_adjust (keeps _), found]
    exact ⟨_, rfl, rfl, rfl, rfl⟩
  · exact ⟨old, found, rfl, rfl, rfl⟩

/-- An entry after hearing has a blank route, or that of an old entry. -/
theorem mem_hear {rx : Reception} {frame : RouteFrame} {entry : NeighborEntry}
    (member : entry ∈ (router.hear rx frame).table.neighbors) :
    entry.Dark ∨ ∃ old ∈ router.table.neighbors, old.addr = entry.addr ∧
      entry.hasInternet = old.hasInternet ∧ entry.hopsToInternet = old.hopsToInternet ∧
      entry.inetSeq = old.inetSeq := by
  unfold hear at member
  split at member
  · rcases mem_updateNeighbor member with kept | ⟨old, known, _, rfl⟩ | rfl
    · exact .inr ⟨entry, kept, rfl, rfl, rfl, rfl⟩
    · exact .inr ⟨old, known, rfl, rfl, rfl, rfl⟩
    · exact .inl ⟨rfl, Nat.lt_irrefl _⟩
  · exact .inr ⟨entry, member, rfl, rfl, rfl, rfl⟩

/-! ## What follows the withdrawal -/

/-- The event is a discovery by which `addr` offers a route. -/
def Advertises (addr : Nat) : Event → Prop
  | .receive _ frame => frame.srcAddr = addr ∧
      ∃ disc, frame.payload = .discovery disc ∧
        (disc.internet = true ∨ disc.hopsToInternet < routeHopsUnknown)
  | _ => False

/-- Until `addr` advertises a route, its entries stay dark. -/
theorem closed_dark {event : Event} (silent : ¬ Advertises addr event) :
    Closed (fun entry => entry.addr = addr → entry.Dark) event where
  blank _ unknown unmarked _ := ⟨unmarked, unknown ▸ Nat.lt_irrefl _⟩
  same _ _ old sameAddr hops _ _ marked here := by
    have dark := old (sameAddr ▸ here)
    exact ⟨marked.trans dark.1, hops ▸ dark.2⟩
  lost _ old here := ⟨(old here).1, Nat.lt_irrefl _⟩
  heard rx frame disc received payload old dark source here := by
    subst received
    have mine : old.addr = addr := (takeDiscovery_addr disc old).symm.trans here
    have quiet : disc.internet = false ∧ ¬ disc.hopsToInternet < routeHopsUnknown := by
      constructor
      · by_contra flagged
        exact silent ⟨source.symm.trans mine, disc, payload, .inl (by simpa using flagged)⟩
      · intro finite
        exact silent ⟨source.symm.trans mine, disc, payload, .inr finite⟩
    unfold NeighborEntry.takeDiscovery NeighborEntry.Dark
    rw [quiet.1, if_neg Bool.false_ne_true]
    rcases takeRoute_cases disc.hopsToInternet disc.inetSeq disc.inetOrigin old with
      same | taken
    · rw [same]
      exact dark mine
    · rw [taken]
      exact ⟨(dark mine).1, quiet.2⟩

theorem dark_run {events : List Event} (silent : ∀ event ∈ events, ¬ Advertises addr event)
    (dark : ∀ entry ∈ router.table.neighbors, entry.addr = addr → entry.Dark) :
    ∀ entry ∈ (router.run events).table.neighbors, entry.addr = addr → entry.Dark := by
  induction events generalizing router with
  | nil => exact dark
  | cons event rest inductionHypothesis =>
      exact inductionHypothesis (fun other member => silent other (List.mem_cons_of_mem _ member))
        ((closed_dark (silent event List.mem_cons_self)).step dark)

/-- The table records neither internet nor a finite route of `addr`, and `addr` is not
chosen towards the internet until it advertises a route again. -/
def Withdrawn (router : Router) (addr : Nat) : Prop :=
  (∀ entry ∈ router.table.neighbors, entry.addr = addr → entry.Dark) ∧
    ∀ later, (∀ event ∈ later, ¬ Advertises addr event) →
      (router.run later).table.nextHop exitAnyAddr router.myAddr ≠ addr

theorem withdrawn_iff_dark (noBroadcast : addr ≠ broadcastAddr) (noExitAny : addr ≠ exitAnyAddr) :
    router.Withdrawn addr ↔
      ∀ entry ∈ router.table.neighbors, entry.addr = addr → entry.Dark := by
  refine ⟨And.left, fun dark => ⟨dark, ?_⟩⟩
  intro later silent chosen
  obtain ⟨entry, known, here, finite, _⟩ := nextHop_candidate noBroadcast noExitAny chosen
  exact (dark_run silent dark entry known here).2 finite

/-- After any history, a processed withdrawal of `sender` is taken over exactly if the
table had no entry of it, or one that is not marked as connected and whose route was
unknown or had a number that zero is newer than. -/
theorem withdrawal_taken_iff_unmarked_and_newer (myAddr : Nat) (blockedPeers : List Nat)
    (history : List Event) (sender : Router) (queueLoad : Nat) (rx : Reception)
    (frame : RouteFrame) (stranded : sender.Stranded)
    (author : frame.srcAddr = sender.myAddr)
    (content : frame.payload = .discovery (sender.advertisement queueLoad))
    (unicast : sender.myAddr ≠ broadcastAddr ∧ sender.myAddr ≠ exitAnyAddr) :
    let router := Router.run { myAddr := myAddr, blockedPeers := blockedPeers } history
    router.ignores frame = false → (router.hear rx frame).forUs rx frame = true →
    ((router.processSlab rx frame).1.Withdrawn sender.myAddr ↔
      ∀ entry ∈ router.table.neighbors, entry.addr = sender.myAddr →
        entry.hasInternet = false ∧
          (¬ entry.hopsToInternet < routeHopsUnknown ∨
            seqNewer 0 entry.inetSeq = true)) := by
  intro router heard mine
  have keyed : router.table.Keyed := keyed_run List.nodup_nil
  have after : (router.processSlab rx frame).1.table =
      (router.hear rx frame).table.adjust sender.myAddr
        (NeighborEntry.takeDiscovery (sender.advertisement queueLoad)) := by
    unfold processSlab
    simp only [heard, mine, content, Bool.false_eq_true, if_false, if_true,
      handleDiscovery_table, author]
  have keeps : KeepsAddr sender.myAddr
      (NeighborEntry.takeDiscovery (sender.advertisement queueLoad)) :=
    fun entry here => (takeDiscovery_addr _ entry).trans here
  rw [withdrawn_iff_dark unicast.1 unicast.2]
  constructor
  · intro dark old known here
    have found : router.table.getNeighbor frame.srcAddr = some old := by
      rw [author, ← here]
      exact keyed.getNeighbor known
    obtain ⟨entry, refreshed, marked, hops, seq⟩ := getNeighbor_hear rx found
    rw [author] at refreshed
    have result : (router.processSlab rx frame).1.table.getNeighbor sender.myAddr =
        some (entry.takeDiscovery (sender.advertisement queueLoad)) := by
      rw [after, getNeighbor_adjust keeps, refreshed]
      rfl
    have final := dark _ (getNeighbor_mem result).1 (getNeighbor_mem result).2
    rw [dark_takeDiscovery_iff entry stranded, marked, hops, seq] at final
    exact final
  · intro before entry known here
    have keyedAfter : (router.processSlab rx frame).1.table.Keyed :=
      keyed_step keyed (.receive rx frame)
    have result := keyedAfter.getNeighbor known
    rw [here, after, getNeighbor_adjust keeps] at result
    obtain ⟨old, found, rfl⟩ := Option.map_eq_some_iff.mp result
    rw [dark_takeDiscovery_iff old stranded]
    obtain ⟨member, oldAddr⟩ := getNeighbor_mem found
    rcases mem_hear member with dark | ⟨first, original, same, marked, hops, seq⟩
    · exact ⟨dark.1, .inl dark.2⟩
    · rw [marked, hops, seq]
      exact before first original (same.trans oldAddr)

/-! ## Instances -/

def someReception : Reception :=
  { nowMs := 5, rssi := -60, espnow := true, mqttConnected := false, queueLoad := 0 }

/-- A discovery of node 5 as node 1 receives it. -/
def fromNode5 (disc : Discovery) : RouteFrame := .fresh 5 broadcastAddr (.discovery disc)

/-- Node 5 after it lost the internet. -/
def strandedNode5 : Router := { myAddr := 5, myInetSeq := 1 }

theorem strandedNode5_stranded : strandedNode5.Stranded :=
  ⟨rfl, fun _ member => absurd member List.not_mem_nil⟩

/-- Node 5 was an exit before, so its withdrawal is not taken over. -/
theorem withdrawal_of_exit_ignored :
    let exitSeen := Router.run { myAddr := 1 }
      [.receive someReception (fromNode5 ⟨true, 0, 1, 5, 0⟩)]
    let frame := fromNode5 (strandedNode5.advertisement 0)
    strandedNode5.Stranded ∧ exitSeen.ignores frame = false ∧
      (exitSeen.hear someReception frame).forUs someReception frame = true ∧
      ¬ (exitSeen.processSlab someReception frame).1.Withdrawn 5 := by
  refine ⟨strandedNode5_stranded, by decide, by decide, ?_⟩
  intro withdrawn
  have chosen := withdrawn.2 [] (fun _ member => absurd member List.not_mem_nil)
  exact chosen (by decide)

/-- A relay that had advertised a route with a number in the upper half of the circle
is forgotten. -/
theorem withdrawal_of_relay_taken :
    let relaySeen := Router.run { myAddr := 1 }
      [.receive someReception (fromNode5 ⟨false, 1, 0xFFFF, 9, 0⟩)]
    let frame := fromNode5 (strandedNode5.advertisement 0)
    (relaySeen.processSlab someReception frame).1.Withdrawn 5 := by
  apply (withdrawal_taken_iff_unmarked_and_newer 1 []
    [.receive someReception (fromNode5 ⟨false, 1, 0xFFFF, 9, 0⟩)] strandedNode5 0
    someReception (fromNode5 (strandedNode5.advertisement 0)) strandedNode5_stranded rfl rfl
    (by decide) (by decide) (by decide)).mpr
  decide

end Router

end ForestLink.Mesh
