/-
Module: ForestLink.Proofs.RouteLoops
Purpose: When two relays never choose each other as the next hop towards the internet:
  in every run that keeps a split horizon, which the nodes themselves do not check.
Trusted boundary: none
Main exports: Router.UsableVia, Router.Prefers, Network.LoopFree, Network.SplitHorizon,
  no_pair_loop_of_split_horizon
-/
import Mathlib.Data.Fintype.Basic
import ForestLink.Proofs.RouteEntries

namespace ForestLink.Mesh

open ForestLink.Protocol

namespace Router

open RouteTable

variable {router : Router} {event : Event} {addr : Nat}

/-! ## Usable routes of one node -/

/-- The entry has a finite route that passes the node's own loop check. -/
def Usable (router : Router) (entry : NeighborEntry) : Prop :=
  entry.hopsToInternet < routeHopsUnknown ∧
    ¬ (router.myAddr ≠ 0 ∧ entry.inetOrigin = router.myAddr)

/-- The node holds a usable route via `addr`. -/
def UsableVia (router : Router) (addr : Nat) : Prop :=
  ∃ entry ∈ router.table.neighbors, entry.addr = addr ∧ router.Usable entry

/-- None of the node's usable routes costs less than its route via `addr`. -/
def Prefers (router : Router) (addr : Nat) : Prop :=
  ∃ entry ∈ router.table.neighbors, entry.addr = addr ∧ router.Usable entry ∧
    ∀ other ∈ router.table.neighbors, router.Usable other → routeCost entry ≤ routeCost other

instance (router : Router) (entry : NeighborEntry) : Decidable (router.Usable entry) :=
  inferInstanceAs (Decidable (_ ∧ ¬ (_ ∧ _)))

instance (router : Router) (addr : Nat) : Decidable (router.UsableVia addr) :=
  inferInstanceAs (Decidable (∃ entry ∈ router.table.neighbors, _))

instance (router : Router) (addr : Nat) : Decidable (router.Prefers addr) :=
  inferInstanceAs (Decidable (∃ entry ∈ router.table.neighbors, _ ∧ _ ∧ ∀ other ∈ _, _))

theorem mem_candidates_iff {entry : NeighborEntry} :
    entry ∈ router.table.candidates exitAnyAddr router.myAddr ↔
      entry ∈ router.table.neighbors ∧ router.Usable entry := by
  rw [candidates, List.mem_filter]
  exact and_congr_right fun _ => by simp [Usable, or_iff_not_imp_left]

/-- The next hop towards the internet is a neighbour that the node prefers. -/
theorem prefers_of_nextHop (noBroadcast : addr ≠ broadcastAddr) (noExitAny : addr ≠ exitAnyAddr)
    (chosen : router.table.nextHop exitAnyAddr router.myAddr = addr) : router.Prefers addr := by
  unfold nextHop at chosen
  split at chosen
  · exact absurd chosen.symm noExitAny
  · simp only [ne_eq, not_true_eq_false, and_false, if_false] at chosen
    rcases cheapest_spec (broadcastAddr, 2 ^ 32 - 1)
      (router.table.candidates exitAnyAddr router.myAddr) with
      ⟨none, _⟩ | ⟨entry, ⟨before, after, split, first, later⟩, _, found⟩
    · rw [none] at chosen
      exact absurd chosen.symm noBroadcast
    · rw [found] at chosen
      have among : entry ∈ router.table.candidates exitAnyAddr router.myAddr := by
        rw [split]
        exact List.mem_append_right _ List.mem_cons_self
      obtain ⟨known, usable⟩ := mem_candidates_iff.mp among
      refine ⟨entry, known, chosen, usable, fun other member otherUsable => ?_⟩
      have candidate := mem_candidates_iff.mpr ⟨member, otherUsable⟩
      rw [split] at candidate
      rcases List.mem_append.mp candidate with ahead | behind
      · exact Nat.le_of_lt (first other ahead)
      · rcases List.mem_cons.mp behind with rfl | behind
        · exact le_rfl
        · exact later other behind

/-- The event is a discovery of `addr` that offers a route which the node `myAddr` does
not recognise as its own. -/
def offers (myAddr addr : Nat) : Event → Bool
  | .receive _ frame =>
      match frame.payload with
      | .discovery disc =>
          frame.srcAddr == addr &&
            (disc.internet || (decide (disc.hopsToInternet < routeHopsUnknown) &&
              !(myAddr != 0 && disc.inetOrigin == myAddr)))
      | _ => false
  | _ => false

/-- The event can change the table of the node, or takes its internet connection. -/
def reroutes : Event → Bool
  | .receive _ _ | .age _ _ | .linkTx _ _ | .setInternet false => true
  | .discover _ | .transmit _ | .setInternet true => false

theorem closed_unusable {known : Prop} {myAddr : Nat} (none : offers myAddr addr event = false) :
    Closed (fun entry => entry.addr = addr → entry.hopsToInternet < routeHopsUnknown →
      ¬ (myAddr ≠ 0 ∧ entry.inetOrigin = myAddr) → known) event where
  blank _ unknown _ _ finite := absurd (unknown ▸ finite) (Nat.lt_irrefl _)
  same _ _ old sameAddr hops _ origin _ here finite foreign :=
    old (sameAddr ▸ here) (hops ▸ finite) (origin ▸ foreign)
  lost _ _ _ finite := absurd finite (Nat.lt_irrefl _)
  heard rx frame disc received payload old before source here finite foreign := by
    subst received
    have mine : old.addr = addr := (takeDiscovery_addr disc old).symm.trans here
    have author : frame.srcAddr = addr := source.symm.trans mine
    simp only [offers, payload, author, beq_self_eq_true, Bool.true_and,
      Bool.or_eq_false_iff] at none
    unfold NeighborEntry.takeDiscovery at finite foreign
    rw [none.1, if_neg Bool.false_ne_true] at finite foreign
    rcases takeRoute_cases disc.hopsToInternet disc.inetSeq disc.inetOrigin old with
      same | taken
    · rw [same] at finite foreign
      exact before mine finite foreign
    · rw [taken] at finite foreign
      refine absurd none.2 ?_
      simp [finite, foreign]

theorem myAddr_processSlab (router : Router) (rx : Reception) (frame : RouteFrame) :
    (router.processSlab rx frame).1.myAddr = router.myAddr ∧
      (router.processSlab rx frame).1.hasInternet = router.hasInternet := by
  have heard : (router.hear rx frame).myAddr = router.myAddr ∧
      (router.hear rx frame).hasInternet = router.hasInternet := by
    unfold hear
    split <;> exact ⟨rfl, rfl⟩
  rcases processSlab_cases router rx frame with
    ignored | unhandled | ⟨disc, _, _, handled⟩ | ⟨rerr, _, _, handled⟩
  · rw [ignored]
    exact ⟨rfl, rfl⟩
  · rw [unhandled]
    exact heard
  · rw [handled, handleDiscovery_table]
    exact heard
  · rw [handled]
    exact heard

/-- A node keeps its address, and its internet connection changes by the event for
it only. -/
theorem identity_step (router : Router) (event : Event) :
    (router.step event).1.myAddr = router.myAddr ∧
      ((∃ value, event = .setInternet value ∧ (router.step event).1.hasInternet = value) ∨
        (router.step event).1.hasInternet = router.hasInternet) := by
  cases event with
  | receive rx frame =>
      have same := myAddr_processSlab router rx frame
      exact ⟨same.1, .inr same.2⟩
  | discover queueLoad =>
      unfold step sendDiscovery
      dsimp only
      split <;> exact ⟨rfl, .inr rfl⟩
  | age staleNow pruneNow => exact ⟨rfl, .inr rfl⟩
  | linkTx addr success => exact ⟨rfl, .inr rfl⟩
  | setInternet value => exact ⟨rfl, .inl ⟨value, rfl, rfl⟩⟩
  | transmit dst => exact ⟨rfl, .inr rfl⟩

/-- A route becomes usable only through a discovery that offers it. -/
theorem usable_step (router : Router) (event : Event)
    (usable : (router.step event).1.UsableVia addr) :
    router.UsableVia addr ∨ offers router.myAddr addr event = true := by
  by_contra neither
  obtain ⟨unusable, noOffer⟩ := not_or.mp neither
  obtain ⟨entry, known, here, finite, foreign⟩ := usable
  rw [(identity_step router event).1] at foreign
  have before : ∀ old ∈ router.table.neighbors,
      old.addr = addr → old.hopsToInternet < routeHopsUnknown →
        ¬ (router.myAddr ≠ 0 ∧ old.inetOrigin = router.myAddr) → False :=
    fun old member oldAddr oldFinite oldForeign =>
      unusable ⟨old, member, oldAddr, oldFinite, oldForeign⟩
  exact (closed_unusable (Bool.eq_false_iff.mpr noOffer)).step before entry known here finite
    foreign

theorem table_of_still (router : Router) (still : reroutes event = false) :
    (router.step event).1.table = router.table := by
  cases event with
  | receive rx frame => contradiction
  | discover queueLoad =>
      unfold step sendDiscovery
      dsimp only
      split <;> rfl
  | age staleNow pruneNow => contradiction
  | linkTx addr success => contradiction
  | setInternet value => rfl
  | transmit dst => rfl

/-- A node that does not reroute prefers what it preferred. -/
theorem prefers_of_still (still : reroutes event = false)
    (prefers : (router.step event).1.Prefers addr) : router.Prefers addr := by
  unfold Prefers Usable at prefers ⊢
  rw [table_of_still router still, (identity_step router event).1] at prefers
  exact prefers

end Router

/-! ## Pairs of nodes -/

namespace Network

variable {ι : Type} [DecidableEq ι] {net : Network ι} {action : ι × Router.Event}

/-- Node `i` forwards packets for the internet to node `j`. -/
def Forwards (net : Network ι) (i j : ι) : Prop :=
  (net.nodes i).table.nextHop exitAnyAddr (net.nodes i).myAddr = (net.nodes j).myAddr

/-- No two nodes without internet forward to each other. -/
def LoopFree (net : Network ι) : Prop :=
  ∀ i j, i ≠ j → (net.nodes i).hasInternet = false → (net.nodes j).hasInternet = false →
    ¬ (net.Forwards i j ∧ net.Forwards j i)

/-- Before this step: while another node without internet prefers the node that acts, this
node holds no usable route via it and takes none, as far as the step can change its routes
and it has no internet or is losing it. -/
def SplitHorizon (net : Network ι) (action : ι × Router.Event) : Prop :=
  ∀ j, j ≠ action.1 → (net.nodes j).hasInternet = false →
    (net.nodes j).Prefers (net.nodes action.1).myAddr →
    Router.reroutes action.2 = true →
    ((net.nodes action.1).hasInternet = false ∨ action.2 = .setInternet false) →
      ¬ (net.nodes action.1).UsableVia (net.nodes j).myAddr ∧
        Router.offers (net.nodes action.1).myAddr (net.nodes j).myAddr action.2 = false

/-- No two nodes without internet prefer each other. -/
def OneWay (net : Network ι) : Prop :=
  ∀ i j, i ≠ j → (net.nodes i).hasInternet = false → (net.nodes j).hasInternet = false →
    ¬ ((net.nodes i).Prefers (net.nodes j).myAddr ∧ (net.nodes j).Prefers (net.nodes i).myAddr)

omit [DecidableEq ι] in
theorem OneWay.loopFree (oneWay : net.OneWay)
    (unicast : ∀ i, (net.nodes i).myAddr ≠ broadcastAddr ∧ (net.nodes i).myAddr ≠ exitAnyAddr) :
    net.LoopFree := by
  rintro i j apart iOffline jOffline ⟨there, back⟩
  apply oneWay i j apart iOffline jOffline
  constructor
  · exact Router.prefers_of_nextHop (unicast j).1 (unicast j).2 there
  · exact Router.prefers_of_nextHop (unicast i).1 (unicast i).2 back

theorem nodes_step_self (net : Network ι) (action : ι × Router.Event) :
    (net.step action).nodes action.1 = ((net.nodes action.1).step action.2).1 :=
  Function.update_self ..

theorem nodes_step_other (net : Network ι) {action : ι × Router.Event} {i : ι}
    (other : i ≠ action.1) : (net.step action).nodes i = net.nodes i :=
  Function.update_of_ne other ..

theorem myAddr_step (net : Network ι) (action : ι × Router.Event) (i : ι) :
    ((net.step action).nodes i).myAddr = (net.nodes i).myAddr := by
  by_cases mine : i = action.1
  · rw [mine, nodes_step_self]
    exact (Router.identity_step _ _).1
  · rw [nodes_step_other net mine]

/-- The pairs of the node that takes the step. -/
theorem OneWay.step_self (oneWay : net.OneWay) (horizon : net.SplitHorizon action) {j : ι}
    (apart : j ≠ action.1) (jOffline : (net.nodes j).hasInternet = false)
    (offline : ((net.step action).nodes action.1).hasInternet = false)
    (there : ((net.step action).nodes action.1).Prefers (net.nodes j).myAddr) :
    ¬ (net.nodes j).Prefers (net.nodes action.1).myAddr := by
  intro back
  rw [nodes_step_self] at there offline
  have connection : (net.nodes action.1).hasInternet = false ∨ action.2 = .setInternet false := by
    rcases (Router.identity_step (net.nodes action.1) action.2).2 with
      ⟨value, event, now⟩ | same
    · obtain rfl : value = false := now.symm.trans offline
      exact .inr event
    · exact .inl (same.symm.trans offline)
  cases moves : Router.reroutes action.2 with
  | false =>
      have wasOffline : (net.nodes action.1).hasInternet = false := by
        rcases connection with wasOffline | event
        · exact wasOffline
        · rw [event] at moves
          exact absurd moves (by decide)
      exact oneWay action.1 j apart.symm wasOffline jOffline
        ⟨Router.prefers_of_still moves there, back⟩
  | true =>
      obtain ⟨unusable, noOffer⟩ := horizon j apart jOffline back moves connection
      obtain ⟨entry, known, here, usable, _⟩ := there
      rcases Router.usable_step (net.nodes action.1) action.2 ⟨entry, known, here, usable⟩ with
        before | offers
      · exact unusable before
      · exact Bool.false_ne_true (noOffer.symm.trans offers)

theorem OneWay.step (oneWay : net.OneWay) (horizon : net.SplitHorizon action) :
    (net.step action).OneWay := by
  intro i j apart iOffline jOffline both
  by_cases iActs : i = action.1
  · subst iActs
    rw [nodes_step_other net apart.symm] at jOffline
    rw [myAddr_step, myAddr_step, nodes_step_other net apart.symm] at both
    exact oneWay.step_self horizon apart.symm jOffline iOffline both.1 both.2
  · rw [nodes_step_other net iActs] at iOffline
    by_cases jActs : j = action.1
    · subst jActs
      rw [myAddr_step, myAddr_step, nodes_step_other net apart] at both
      exact oneWay.step_self horizon apart iOffline jOffline both.2 both.1
    · rw [nodes_step_other net jActs] at jOffline
      apply oneWay i j apart iOffline jOffline
      rw [nodes_step_other net iActs, nodes_step_other net jActs] at both
      exact both

/-- Every step of the run keeps a split horizon. -/
def KeepsHorizon (net : Network ι) : List (ι × Router.Event) → Prop
  | [] => True
  | action :: rest => net.SplitHorizon action ∧ (net.step action).KeepsHorizon rest

/-- In every run of booted nodes that keeps a split horizon, no state reached has two
nodes without internet that forward to each other. -/
theorem no_pair_loop_of_split_horizon (net : Network ι)
    (booted : ∀ i, (net.nodes i).table.neighbors = [])
    (unicast : ∀ i, (net.nodes i).myAddr ≠ broadcastAddr ∧ (net.nodes i).myAddr ≠ exitAnyAddr)
    (actions : List (ι × Router.Event)) (horizon : net.KeepsHorizon actions) :
    ∀ before after, actions = before ++ after → (net.run before).LoopFree := by
  -- Generalise the empty tables to one-way preferences, which every step keeps.
  have oneWay : net.OneWay := by
    rintro i j _ _ _ ⟨⟨entry, member, _⟩, _⟩
    rw [booted i] at member
    exact absurd member List.not_mem_nil
  clear booted
  induction actions generalizing net with
  | nil =>
      intro before after split
      obtain ⟨rfl, _⟩ := List.append_eq_nil_iff.mp split.symm
      exact oneWay.loopFree unicast
  | cons action rest inductionHypothesis =>
      intro before after split
      cases before with
      | nil => exact oneWay.loopFree unicast
      | cons first before =>
          obtain ⟨rfl, tail⟩ := List.cons.inj split
          refine inductionHypothesis (net.step action) ?_ horizon.2 (oneWay.step horizon.1)
            before after tail
          intro i
          rw [myAddr_step]
          exact unicast i

/-! ## A loop after an exit is gone -/

instance (net : Network ι) (event : Router.Event) : Decidable (net.Deliverable event) :=
  match event with
  | .receive _ _ => inferInstanceAs (Decidable (∃ sent ∈ net.air, _))
  | .discover _ | .age _ _ | .linkTx _ _ | .setInternet _ | .transmit _ =>
      inferInstanceAs (Decidable True)

instance decidableFeasible (net : Network ι) (actions : List (ι × Router.Event)) :
    Decidable (net.Feasible actions) :=
  match actions with
  | [] => inferInstanceAs (Decidable True)
  | action :: rest =>
      have := decidableFeasible (net.step action) rest
      inferInstanceAs (Decidable (_ ∧ _))

/-- Relays 1 and 2 and node 3. -/
def threeNodes : Network (Fin 3) where
  nodes i := { myAddr := i.val + 1 }

def receivedAt (now : Nat) (frame : RouteFrame) : Router.Event :=
  .receive { nowMs := now, rssi := -60, espnow := true, mqttConnected := false, queueLoad := 0 }
    frame

/-- Both relays hear exit 3 and, later, each other; then the exit is gone and both
forget it. -/
def exitGone : List (Fin 3 × Router.Event) :=
  let fromExit := RouteFrame.fresh 3 broadcastAddr (.discovery ⟨true, 0, 1, 3, 0⟩)
  let fromRelay := fun src =>
    RouteFrame.fresh src broadcastAddr (.discovery ⟨false, 1, 1, 3, 0⟩)
  [(2, .setInternet true), (2, .discover 0),
    (0, receivedAt 0 fromExit), (1, receivedAt 0 fromExit),
    (0, .discover 0), (1, .discover 0),
    (0, receivedAt 20000 (fromRelay 2)), (1, receivedAt 20000 (fromRelay 1)),
    (2, .setInternet false), (0, .age 31000 31000), (1, .age 31000 31000)]

/-- Both relays forward to each other. -/
theorem relays_loop_after_exit_gone :
    threeNodes.Feasible exitGone ∧
      ((threeNodes.run exitGone).nodes 0).hasInternet = false ∧
      ((threeNodes.run exitGone).nodes 1).hasInternet = false ∧
      (threeNodes.run exitGone).Forwards 0 1 ∧ (threeNodes.run exitGone).Forwards 1 0 := by
  refine ⟨by decide +kernel, by decide +kernel, by decide +kernel, ?_, ?_⟩
  · unfold Forwards
    decide +kernel
  · unfold Forwards
    decide +kernel

instance [Fintype ι] (net : Network ι) (action : ι × Router.Event) :
    Decidable (net.SplitHorizon action) :=
  inferInstanceAs (Decidable (∀ _j, _ → _ → _ → _ → _ → _ ∧ _))

instance decidableKeepsHorizon [Fintype ι] (net : Network ι)
    (actions : List (ι × Router.Event)) : Decidable (net.KeepsHorizon actions) :=
  match actions with
  | [] => inferInstanceAs (Decidable True)
  | action :: rest =>
      have := decidableKeepsHorizon (net.step action) rest
      inferInstanceAs (Decidable (_ ∧ _))

/-- Both relays hear exit 3 and each other, and then only relay 2 hears the exit again. -/
def exitHeardByOne : List (Fin 3 × Router.Event) :=
  let fromExit := fun seq => RouteFrame.fresh 3 broadcastAddr (.discovery ⟨true, 0, seq, 3, 0⟩)
  let fromRelay := fun src =>
    RouteFrame.fresh src broadcastAddr (.discovery ⟨false, 1, 1, 3, 0⟩)
  [(2, .setInternet true), (2, .discover 0),
    (0, receivedAt 0 (fromExit 1)), (1, receivedAt 0 (fromExit 1)),
    (0, .discover 0), (1, .discover 0),
    (0, receivedAt 20000 (fromRelay 2)), (1, receivedAt 20000 (fromRelay 1)),
    (2, .discover 0), (1, receivedAt 21000 (fromExit 2)),
    (1, .age 31000 31000), (0, .age 31000 31000)]

/-- Relay 1 then forwards to relay 2, which does not forward back. -/
theorem no_loop_while_one_relay_hears_exit :
    threeNodes.Feasible exitHeardByOne ∧ (threeNodes.run exitHeardByOne).Forwards 0 1 ∧
      (threeNodes.run exitHeardByOne).LoopFree := by
  refine ⟨by decide +kernel, by unfold Forwards; decide +kernel, ?_⟩
  exact no_pair_loop_of_split_horizon threeNodes (fun _ => rfl) (by decide)
    exitHeardByOne (by decide +kernel) exitHeardByOne [] (by simp)

end Network

end ForestLink.Mesh
