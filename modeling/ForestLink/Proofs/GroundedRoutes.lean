/-
Module: ForestLink.Proofs.GroundedRoutes
Purpose: Every finite hop count of the network, in a table or on the air, has a history: as many
  discoveries as it counts hops, each answering the one before it, back to one of an exit.
Trusted boundary: none
Main exports: RouteFrame.Advertises, RouteFrame.FromExit, RouteFrame.Follows, Grounded,
  NeighborEntry.Backed, Network.Rooted, Network.Rooted.step, hop_counts_are_grounded
-/
import Mathlib.Data.List.Chain
import ForestLink.Proofs.RouteEntries
import ForestLink.Proofs.RouteLoops

namespace ForestLink.Mesh

open ForestLink.Protocol
open RouteTable

/-! ## Histories of discoveries -/

/-- A discovery with this hop count. -/
def RouteFrame.Advertises (frame : RouteFrame) (hops : Nat) : Prop :=
  ∃ disc, frame.payload = .discovery disc ∧ disc.hopsToInternet = hops

/-- A discovery of a node with internet. -/
def RouteFrame.FromExit (frame : RouteFrame) : Prop :=
  ∃ disc, frame.payload = .discovery disc ∧ disc.internet = true

/-- A discovery of another node, one hop further from the internet. -/
def RouteFrame.Follows (before after : RouteFrame) : Prop :=
  after.srcAddr ≠ before.srcAddr ∧
    ∃ hops, before.Advertises hops ∧ after.Advertises (hops + 1)

/-- The hop count of a node has a history on the air: the discoveries `older`, in the order in
which they were sent, and at last `frame`, by the node itself. -/
structure Grounded (air : List RouteFrame) (addr hops : Nat) (older : List RouteFrame)
    (frame : RouteFrame) : Prop where
  sent : (older ++ [frame]).Sublist air
  root : ∃ first, (older ++ [frame]).head? = some first ∧ first.FromExit
  chained : (older ++ [frame]).IsChain RouteFrame.Follows
  author : frame.srcAddr = addr
  advertises : frame.Advertises hops
  counted : older.length = hops

namespace Grounded

variable {air later : List RouteFrame} {addr hops : Nat} {older : List RouteFrame}
  {frame : RouteFrame}

theorem mono (grounded : Grounded air addr hops older frame) (later : List RouteFrame) :
    Grounded (air ++ later) addr hops older frame :=
  { grounded with sent := grounded.sent.trans (List.sublist_append_left air later) }

theorem of_exit (sent : frame ∈ air) (fromExit : frame.FromExit) (zero : frame.Advertises 0) :
    Grounded air frame.srcAddr 0 [] frame where
  sent := List.singleton_sublist.mpr sent
  root := ⟨frame, rfl, fromExit⟩
  chained := List.isChain_singleton frame
  author := rfl
  advertises := zero
  counted := rfl

/-- A new discovery continues a history. -/
theorem extend (grounded : Grounded air addr hops older frame) {new : RouteFrame}
    (sent : new ∈ later) (other : new.srcAddr ≠ addr) (further : new.Advertises (hops + 1)) :
    Grounded (air ++ later) new.srcAddr (hops + 1) (older ++ [frame]) new where
  sent := grounded.sent.append (List.singleton_sublist.mpr sent)
  root := by
    obtain ⟨first, isFirst, fromExit⟩ := grounded.root
    exact ⟨first, by rw [List.head?_append, isFirst]; rfl, fromExit⟩
  chained := by
    refine grounded.chained.append (List.isChain_singleton new) ?_
    intro last isLast next isNext
    rw [List.getLast?_concat, Option.mem_some_iff] at isLast
    rw [List.head?_singleton, Option.mem_some_iff] at isNext
    subst isLast isNext
    exact ⟨grounded.author ▸ other, hops, grounded.advertises, further⟩
  author := rfl
  advertises := further
  counted := by rw [List.length_append, grounded.counted, List.length_singleton]

end Grounded

/-! ## One node -/

/-- A fold that keeps its value or takes that of an element ends with one of them. -/
theorem foldl_select {α β : Type*} (takes : β → α → Prop)
    [∀ best entry, Decidable (takes best entry)] (value : α → β) (entries : List α) (start : β) :
    let best := entries.foldl
      (fun best entry => if takes best entry then value entry else best) start
    best = start ∨ ∃ entry ∈ entries, best = value entry := by
  dsimp only
  induction entries generalizing start with
  | nil => exact .inl rfl
  | cons entry rest inductionHypothesis =>
      rw [List.foldl_cons]
      rcases inductionHypothesis (if takes start entry then value entry else start) with
        same | ⟨other, member, eq⟩
      · rw [same]
        split
        · exact .inr ⟨entry, List.mem_cons_self, rfl⟩
        · exact .inl rfl
      · exact .inr ⟨other, List.mem_cons_of_mem entry member, eq⟩

/-- The least hop count is that of an entry, if any is finite. -/
theorem RouteTable.minControlHops_mem (table : RouteTable) :
    table.minControlHopsToInternet = routeHopsUnknown ∨
      ∃ entry ∈ table.neighbors, table.minControlHopsToInternet = entry.hopsToInternet :=
  foldl_select
    (fun (best : Nat) (entry : NeighborEntry) =>
      (entry.hasInternet ∨ entry.hopsToInternet < routeHopsUnknown) ∧ entry.hopsToInternet < best)
    NeighborEntry.hopsToInternet table.neighbors routeHopsUnknown

/-- A usable entry is of another node, and its hop count has a history. -/
def NeighborEntry.Backed (air : List RouteFrame) (myAddr : Nat) (entry : NeighborEntry) : Prop :=
  entry.hopsToInternet < routeHopsUnknown → entry.addr ≠ myAddr ∧
    ∃ older frame, Grounded air entry.addr entry.hopsToInternet older frame

namespace Router

variable {router : Router} {event : Event} {air : List RouteFrame}

/-- The discoveries on the air say of themselves what they should. -/
def Honest (air : List RouteFrame) : Prop :=
  ∀ frame ∈ air, ∀ disc, frame.payload = .discovery disc →
    (disc.internet = true → disc.hopsToInternet = 0) ∧
      (disc.hopsToInternet < routeHopsUnknown →
        ∃ older, Grounded air frame.srcAddr disc.hopsToInternet older frame)

theorem takeDiscovery_hops (disc : Discovery) (old : NeighborEntry) :
    (old.takeDiscovery disc).hopsToInternet = disc.hopsToInternet ∨
      (disc.internet = true ∧ (old.takeDiscovery disc).hopsToInternet = 0) ∨
      (old.takeDiscovery disc).hopsToInternet = old.hopsToInternet := by
  unfold NeighborEntry.takeDiscovery
  dsimp only
  rcases takeRoute_cases disc.hopsToInternet disc.inetSeq disc.inetOrigin
      (if disc.internet then { old with hasInternet := true, hopsToInternet := 0 } else old) with
    same | taken
  · rw [same]
    split
    · rename_i internet
      exact .inr (.inl ⟨internet, rfl⟩)
    · exact .inr (.inr rfl)
  · rw [taken]
    exact .inl rfl

/-- A discovery that was sent backs the entry of its author. -/
theorem closed_backed (honest : Honest air) {myAddr : Nat}
    (received : ∀ rx frame, event = .receive rx frame → frame.srcAddr ≠ myAddr ∧
      ∃ sent ∈ air, sent.srcAddr = frame.srcAddr ∧ sent.payload = frame.payload) :
    Closed (NeighborEntry.Backed air myAddr) event where
  blank _ unknown _ finite := absurd (unknown ▸ finite) (Nat.lt_irrefl _)
  same _ _ old addr hops _ _ _ finite := by
    rw [addr, hops]
    exact old (hops ▸ finite)
  lost _ _ finite := absurd finite (Nat.lt_irrefl _)
  heard rx frame disc isReceipt payload old before here finite := by
    obtain ⟨foreign, origin, onAir, author, same⟩ := received rx frame isReceipt
    obtain ⟨exitHops, history⟩ := honest origin onAir disc (same.trans payload)
    have advertised : disc.hopsToInternet < routeHopsUnknown → old.addr ≠ myAddr ∧
        ∃ older frame, Grounded air old.addr disc.hopsToInternet older frame := by
      intro small
      obtain ⟨older, grounded⟩ := history small
      rw [here, ← author]
      exact ⟨author ▸ foreign, older, origin, grounded⟩
    rw [takeDiscovery_addr]
    rcases takeDiscovery_hops disc old with taken | ⟨internet, taken⟩ | kept
    · rw [taken] at finite ⊢
      exact advertised finite
    · rw [taken, ← exitHops internet]
      exact advertised (exitHops internet ▸ (by decide))
    · rw [kept] at finite ⊢
      exact before finite

/-- A finite hop count is one more than that of an entry. -/
theorem computeHops_of_offline (offline : router.hasInternet = false)
    (finite : router.computeHopsToInternet < routeHopsUnknown) :
    ∃ entry ∈ router.table.neighbors, entry.hopsToInternet < routeHopsUnknown ∧
      router.computeHopsToInternet = entry.hopsToInternet + 1 := by
  unfold computeHopsToInternet at finite ⊢
  rw [offline, if_neg Bool.false_ne_true] at finite ⊢
  dsimp only at finite ⊢
  split at finite
  · rename_i small
    rw [if_pos small]
    rcases minControlHops_mem router.table with none | ⟨entry, known, isLeast⟩
    · rw [none] at small
      exact absurd small (by decide)
    · rw [isLeast]
      exact ⟨entry, known, by rw [isLeast] at small; unfold routeHopsUnknown; omega, rfl⟩
  · exact absurd finite (Nat.lt_irrefl _)

/-- What a node advertises is backed if its entries are. -/
theorem advertisement_grounded
    (backed : ∀ entry ∈ router.table.neighbors, entry.Backed air router.myAddr)
    {later : List RouteFrame} {frame : RouteFrame} (sent : frame ∈ later)
    (author : frame.srcAddr = router.myAddr) {queueLoad : Nat}
    (payload : frame.payload = .discovery (router.advertisement queueLoad)) :
    (router.hasInternet = true → router.computeHopsToInternet = 0) ∧
      (router.computeHopsToInternet < routeHopsUnknown →
        ∃ older, Grounded (air ++ later) frame.srcAddr router.computeHopsToInternet older
          frame) := by
  have zero : router.hasInternet = true → router.computeHopsToInternet = 0 := by
    intro online
    rw [computeHopsToInternet, if_pos online]
  refine ⟨zero, fun finite => ?_⟩
  have advertises : frame.Advertises router.computeHopsToInternet := ⟨_, payload, rfl⟩
  cases online : router.hasInternet with
  | true =>
      rw [zero online] at advertises ⊢
      exact ⟨[], .of_exit (List.mem_append_right air sent) ⟨_, payload, online⟩ advertises⟩
  | false =>
      obtain ⟨entry, known, usable, oneMore⟩ := computeHops_of_offline online finite
      obtain ⟨foreign, older, before, grounded⟩ := backed entry known usable
      rw [oneMore] at advertises ⊢
      exact ⟨older ++ [before],
        grounded.extend sent (author ▸ foreign.symm) advertises⟩

/-- Every discovery that a node sends is its advertisement in the state it is left in. -/
theorem sent_discovery (router : Router) (event : Event) {frame : RouteFrame} {disc : Discovery}
    (sent : frame ∈ (router.step event).2) (payload : frame.payload = .discovery disc) :
    frame.srcAddr = (router.step event).1.myAddr ∧
      ∃ queueLoad, disc = (router.step event).1.advertisement queueLoad := by
  cases event with
  | receive rx heard =>
      change frame ∈ (router.processSlab rx heard).2 at sent
      change frame.srcAddr = (router.processSlab rx heard).1.myAddr ∧
        ∃ queueLoad, disc = (router.processSlab rx heard).1.advertisement queueLoad
      rcases processSlab_cases router rx heard with
        ignored | unhandled | ⟨received, _, _, handled⟩ | ⟨rerr, _, _, handled⟩
      · rw [ignored] at sent
        exact absurd sent List.not_mem_nil
      · rw [unhandled] at sent
        exact absurd sent List.not_mem_nil
      · rw [handled] at sent ⊢
        unfold handleDiscovery at sent ⊢
        dsimp only at sent ⊢
        split at sent
        · rw [List.mem_singleton.mp sent] at payload ⊢
          exact ⟨rfl, rx.queueLoad, (RoutePayload.discovery.inj payload).symm⟩
        · exact absurd sent List.not_mem_nil
      · rw [handled] at sent
        unfold handleRouteError at sent
        dsimp only at sent
        split at sent
        · rw [List.mem_singleton.mp sent] at payload
          cases payload
        · exact absurd sent List.not_mem_nil
  | discover queueLoad =>
      unfold step sendDiscovery at sent ⊢
      dsimp only at sent ⊢
      rw [List.mem_singleton.mp sent] at payload ⊢
      refine ⟨?_, queueLoad, (RoutePayload.discovery.inj payload).symm⟩
      split <;> rfl
  | age staleNow pruneNow =>
      obtain ⟨stale, -, rfl⟩ := List.mem_map.mp sent
      cases payload
  | linkTx addr success => exact absurd sent List.not_mem_nil
  | setInternet value => exact absurd sent List.not_mem_nil
  | transmit dst =>
      rw [List.mem_singleton.mp sent] at payload
      cases payload

end Router

/-! ## The network -/

namespace Network

variable {ι : Type} [DecidableEq ι] {net : Network ι} {action : ι × Router.Event}

/-- Every finite hop count, on the air or in a table, has a history. -/
structure Rooted (net : Network ι) : Prop where
  honest : Router.Honest net.air
  backed : ∀ i, ∀ entry ∈ (net.nodes i).table.neighbors,
    entry.Backed net.air (net.nodes i).myAddr

omit [DecidableEq ι] in
/-- The entries of a node after an event are backed by what was on the air before it. -/
theorem Rooted.table (rooted : net.Rooted) (deliverable : net.Deliverable action.2) :
    ∀ entry ∈ ((net.nodes action.1).step action.2).1.table.neighbors,
      entry.Backed net.air (net.nodes action.1).myAddr := by
  have before := rooted.backed action.1
  obtain ⟨i, event⟩ := action
  by_cases own : ∃ rx frame, event = .receive rx frame ∧ frame.srcAddr = (net.nodes i).myAddr
  · -- A node ignores its own frames.
    obtain ⟨rx, frame, rfl, author⟩ := own
    have same : ((net.nodes i).step (.receive rx frame)).1 = net.nodes i := by
      change ((net.nodes i).processSlab rx frame).1 = net.nodes i
      simp [Router.processSlab, Router.ignores, author]
    rw [same]
    exact before
  · refine (Router.closed_backed rooted.honest ?_).step before
    intro rx frame received
    refine ⟨fun author => own ⟨rx, frame, received, author⟩, ?_⟩
    subst received
    obtain ⟨sent, onAir, author, _, payload⟩ := deliverable
    exact ⟨sent, onAir, author, payload⟩

theorem Rooted.step (rooted : net.Rooted) (deliverable : net.Deliverable action.2) :
    (net.step action).Rooted := by
  have backed := rooted.table deliverable
  have myAddr := (Router.identity_step (net.nodes action.1) action.2).1
  constructor
  · intro frame onAir disc payload
    rcases List.mem_append.mp onAir with old | new
    · obtain ⟨zero, history⟩ := rooted.honest frame old disc payload
      refine ⟨zero, fun finite => ?_⟩
      obtain ⟨older, grounded⟩ := history finite
      exact ⟨older, grounded.mono _⟩
    · obtain ⟨author, queueLoad, rfl⟩ := Router.sent_discovery _ _ new payload
      rw [← myAddr] at backed
      exact Router.advertisement_grounded backed new author payload
  · intro j entry known finite
    by_cases here : j = action.1
    · subst here
      simp only [Network.step, Function.update_self] at known ⊢
      rw [myAddr]
      obtain ⟨foreign, older, frame, grounded⟩ := backed entry known finite
      exact ⟨foreign, older, frame, grounded.mono _⟩
    · simp only [Network.step, Function.update_of_ne here] at known ⊢
      obtain ⟨foreign, older, frame, grounded⟩ := rooted.backed j entry known finite
      exact ⟨foreign, older, frame, grounded.mono _⟩

theorem Rooted.run (rooted : net.Rooted) {actions : List (ι × Router.Event)}
    (feasible : net.Feasible actions) : (net.run actions).Rooted := by
  induction actions generalizing net with
  | nil => exact rooted
  | cons action rest inductionHypothesis =>
      exact inductionHypothesis (rooted.step feasible.1) feasible.2

/-- Whatever discoveries were lost, delayed, repeated and reordered, whatever exits came and
went: a hop count that a node holds for a neighbour was advertised by this neighbour, and one
that it works out for itself follows such an advertisement.  Behind it lie as many
discoveries as it counts hops, in the order in which they were sent, by authors that took turns,
from the first one of an exit on. -/
theorem hop_counts_are_grounded (net : Network ι) (blank : ∀ i, (net.nodes i).table = {})
    (silent : net.air = []) (actions : List (ι × Router.Event)) (feasible : net.Feasible actions)
    (i : ι) :
    let after := net.run actions
    let node := after.nodes i
    (∀ entry ∈ node.table.neighbors, entry.hopsToInternet < routeHopsUnknown →
      entry.addr ≠ node.myAddr ∧
        ∃ older frame, Grounded after.air entry.addr entry.hopsToInternet older frame) ∧
      (node.hasInternet = false → node.computeHopsToInternet < routeHopsUnknown →
        ∃ addr hops older frame, addr ≠ node.myAddr ∧ node.computeHopsToInternet = hops + 1 ∧
          Grounded after.air addr hops older frame) := by
  have start : net.Rooted := by
    constructor
    · intro frame onAir
      rw [silent] at onAir
      exact absurd onAir List.not_mem_nil
    · intro j entry known
      rw [blank] at known
      exact absurd known List.not_mem_nil
  have rooted := start.run feasible
  refine ⟨fun entry known finite => rooted.backed i entry known finite, fun offline finite => ?_⟩
  obtain ⟨entry, known, usable, oneMore⟩ := Router.computeHops_of_offline offline finite
  obtain ⟨foreign, older, frame, grounded⟩ := rooted.backed i entry known usable
  exact ⟨entry.addr, entry.hopsToInternet, older, frame, foreign, oneMore, grounded⟩

/-- The count that a relay keeps of the other one, after both have forgotten the exit. -/
theorem hop_counts_are_grounded_exit_gone :
    ((threeNodes.run exitGone).nodes 1).computeHopsToInternet = 2 ∧
      ∃ addr older frame, addr ≠ 2 ∧ Grounded (threeNodes.run exitGone).air addr 1 older frame := by
  have twice : ((threeNodes.run exitGone).nodes 1).computeHopsToInternet = 2 := by
    decide +kernel
  obtain ⟨-, advertised⟩ := hop_counts_are_grounded threeNodes (fun _ => rfl) rfl exitGone
    (by decide +kernel) 1
  obtain ⟨addr, hops, older, frame, foreign, oneMore, grounded⟩ := advertised
    (by decide +kernel) (by rw [twice]; decide)
  rw [twice] at oneMore
  cases Nat.succ.inj oneMore
  have own : ((threeNodes.run exitGone).nodes 1).myAddr = 2 := by decide +kernel
  exact ⟨twice, addr, older, frame, own ▸ foreign, grounded⟩

end Network

end ForestLink.Mesh
