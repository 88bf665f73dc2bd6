/-
Module: ForestLink.Proofs.RouteErrorFlood
Purpose: The flood of a route error dies out: while no discovery is processed, each
  node rebroadcasts an error that names a given node at most once.
Trusted boundary: none
Main exports: Router.Live, Router.rebroadcasts, Network.rebroadcasts,
  route_error_flood_finite
-/
import Mathlib.Algebra.BigOperators.Group.Finset.Basic
import Mathlib.Algebra.Order.BigOperators.Group.Finset
import ForestLink.Proofs.RouteEntries

namespace ForestLink.Mesh

open ForestLink.Protocol

/-- A route error that names `dead`. -/
def RouteFrame.namesDead (dead : Nat) (frame : RouteFrame) : Bool :=
  match frame.payload with
  | .routeError rerr => rerr.deadAddr == dead
  | _ => false

namespace Router

open RouteTable

variable {router : Router} {event : Event} {dead : Nat}

/-- The event processes no discovery packet. -/
def Event.quiet : Event → Bool
  | .receive _ frame =>
      match frame.payload with
      | .discovery _ => false
      | _ => true
  | _ => true

/-- Route errors naming `dead` that the node sends because it received a frame. -/
def rebroadcasts (router : Router) (dead : Nat) : Event → Nat
  | .receive rx frame => (router.processSlab rx frame).2.countP (RouteFrame.namesDead dead)
  | _ => 0

/-- The table holds a finite route via `dead`. -/
def Live (router : Router) (dead : Nat) : Prop :=
  ∃ entry ∈ router.table.neighbors, entry.addr = dead ∧
    entry.hopsToInternet < routeHopsUnknown

instance (router : Router) (dead : Nat) : Decidable (router.Live dead) :=
  inferInstanceAs (Decidable (∃ entry ∈ router.table.neighbors, _))

/-! ## One event -/

/-- Without a discovery no event brings a finite route back. -/
theorem closed_dead (quiet : event.quiet = true) :
    Closed (fun entry => entry.addr = dead → ¬ entry.hopsToInternet < routeHopsUnknown)
      event where
  blank _ unknown _ _ := unknown ▸ Nat.lt_irrefl _
  same _ _ old addr hops _ _ _ here := hops ▸ old (addr ▸ here)
  lost _ _ _ := Nat.lt_irrefl _
  heard rx frame disc received payload := by
    subst received
    simp [Event.quiet, payload] at quiet

theorem not_live_step (quiet : event.quiet = true) (gone : ¬ router.Live dead) :
    ¬ (router.step event).1.Live dead := by
  have all : ∀ entry ∈ router.table.neighbors,
      entry.addr = dead → ¬ entry.hopsToInternet < routeHopsUnknown :=
    fun entry known here finite => gone ⟨entry, known, here, finite⟩
  rintro ⟨entry, known, here, finite⟩
  exact (closed_dead quiet).step all entry known here finite

theorem live_of_hear {rx : Reception} {frame : RouteFrame}
    (live : (router.hear rx frame).Live dead) : router.Live dead := by
  by_contra gone
  have all : ∀ entry ∈ router.table.neighbors,
      entry.addr = dead → ¬ entry.hopsToInternet < routeHopsUnknown :=
    fun entry known here finite => gone ⟨entry, known, here, finite⟩
  obtain ⟨entry, known, here, finite⟩ := live
  have quiet : (Event.transmit 0).quiet = true := rfl
  exact (closed_dead quiet).hear all rx frame entry known here finite

/-- The flag of `invalidate_route_via` says that a finite route was there. -/
theorem invalidated_iff : (router.table.invalidateRouteVia dead).1 = true ↔
    router.Live dead := by
  simp [invalidateRouteVia, Live]

theorem not_live_invalidated :
    ¬ Live { router with table := (router.table.invalidateRouteVia dead).2 } dead := by
  rintro ⟨entry, known, here, finite⟩
  obtain ⟨old, _, changed⟩ := List.mem_map.mp known
  split at changed
  · rw [← changed] at finite
    exact Nat.lt_irrefl _ finite
  · rename_i unaffected
    subst changed
    simp [here, finite] at unaffected

/-- A node rebroadcasts only if it drops a finite route; it sends one error then, and
holds no finite route any more. -/
theorem rebroadcasts_cases (router : Router) (dead : Nat) (quiet : event.quiet = true) :
    router.rebroadcasts dead event = 0 ∨
      (router.rebroadcasts dead event = 1 ∧ router.Live dead ∧
        ¬ (router.step event).1.Live dead) := by
  cases event with
  | receive rx frame =>
      unfold rebroadcasts Router.step
      dsimp only
      rcases processSlab_cases router rx frame with
        ignored | unhandled | ⟨disc, payload, _, _⟩ | ⟨rerr, _, _, handled⟩
      · rw [ignored]
        exact .inl rfl
      · rw [unhandled]
        exact .inl rfl
      · simp [Event.quiet, payload] at quiet
      · rw [handled]
        unfold handleRouteError
        dsimp only
        by_cases named : rerr.deadAddr = dead
        · subst named
          by_cases dropped : (router.hear rx frame).Live rerr.deadAddr
          · rw [if_pos (invalidated_iff.mpr dropped)]
            refine .inr ⟨?_, live_of_hear dropped, not_live_invalidated⟩
            simp [sendRouteError, RouteFrame.fresh, RouteFrame.namesDead]
          · rw [if_neg fun flag => dropped (invalidated_iff.mp flag)]
            exact .inl rfl
        · refine .inl ?_
          split
          · simp [sendRouteError, RouteFrame.fresh, RouteFrame.namesDead, named]
          · rfl
  | discover queueLoad => exact .inl rfl
  | age staleNow pruneNow => exact .inl rfl
  | linkTx addr success => exact .inl rfl
  | setInternet value => exact .inl rfl
  | transmit dst => exact .inl rfl

end Router

/-! ## A run of the network -/

namespace Network

variable {ι : Type} [DecidableEq ι]

/-- Route errors naming `dead` that node `i` sends in the run because it received a
frame. -/
def rebroadcasts (dead : Nat) (i : ι) : Network ι → List (ι × Router.Event) → Nat
  | _, [] => 0
  | net, action :: rest =>
      (if action.1 = i then (net.nodes i).rebroadcasts dead action.2 else 0) +
        rebroadcasts dead i (net.step action) rest

theorem rebroadcasts_le_live {dead : Nat} {i : ι} {net : Network ι}
    {actions : List (ι × Router.Event)}
    (quiet : ∀ action ∈ actions, action.2.quiet = true) :
    rebroadcasts dead i net actions ≤ if (net.nodes i).Live dead then 1 else 0 := by
  induction actions generalizing net with
  | nil => exact Nat.zero_le _
  | cons action rest inductionHypothesis =>
      have later : rebroadcasts dead i (net.step action) rest ≤
          if ((net.step action).nodes i).Live dead then 1 else 0 :=
        inductionHypothesis fun other member => quiet other (List.mem_cons_of_mem _ member)
      have now := quiet action List.mem_cons_self
      rw [rebroadcasts]
      by_cases mine : action.1 = i
      · subst mine
        have moved : (net.step action).nodes action.1 =
            ((net.nodes action.1).step action.2).1 := Function.update_self ..
        rw [moved] at later
        rw [if_pos rfl]
        rcases Router.rebroadcasts_cases (net.nodes action.1) dead now with
          none | ⟨once, live, gone⟩
        · rw [none, Nat.zero_add]
          refine later.trans ?_
          by_cases live : (net.nodes action.1).Live dead
          · rw [if_pos live]
            split <;> decide
          · rw [if_neg (Router.not_live_step now live), if_neg live]
        · rw [if_neg gone] at later
          rw [once, if_pos live]
          exact Nat.add_le_add_left later 1
      · have still : (net.step action).nodes i = net.nodes i :=
          Function.update_of_ne (fun eq => mine eq.symm) ..
        rw [still] at later
        rw [if_neg mine, Nat.zero_add]
        exact later

/-- While no discovery is processed, each node of a finite network rebroadcasts an
error that names `dead` at most once, so the network sends at most one for each
node. A node rebroadcasts only when its finite route via `dead` is dropped, and
nothing brings that route back. -/
theorem route_error_flood_finite [Fintype ι] (net : Network ι) (dead : Nat)
    (actions : List (ι × Router.Event)) (quiet : ∀ action ∈ actions, action.2.quiet = true) :
    (∀ i, rebroadcasts dead i net actions ≤ 1) ∧
      ∑ i, rebroadcasts dead i net actions ≤ Fintype.card ι ∧
      ∀ (router : Router), ∀ action ∈ actions,
        (router.rebroadcasts dead action.2 ≠ 0 →
          router.Live dead ∧ ¬ (router.step action.2).1.Live dead) ∧
        (¬ router.Live dead → ¬ (router.step action.2).1.Live dead) := by
  have each : ∀ i, rebroadcasts dead i net actions ≤ 1 := by
    intro i
    refine (rebroadcasts_le_live quiet).trans ?_
    split <;> decide
  refine ⟨each, ?_, ?_⟩
  · calc ∑ i, rebroadcasts dead i net actions ≤ ∑ _i : ι, 1 :=
          Finset.sum_le_sum fun i _ => each i
      _ = Fintype.card ι := by simp
  · intro router action member
    refine ⟨fun sent => ?_, Router.not_live_step (quiet action member)⟩
    rcases Router.rebroadcasts_cases router dead (quiet action member) with none | cause
    · exact absurd none sent
    · exact cause.2

/-- Two nodes that both route via node 9. -/
def pairVia9 : Network (Fin 2) where
  nodes i :=
    { myAddr := i.val + 1, table := ⟨[{ addr := 9, hopsToInternet := 1, inetOrigin := 9 }]⟩ }

/-- Both nodes hear about the loss of node 9, the first one twice. -/
def lossOf9 : List (Fin 2 × Router.Event) :=
  let rx : Reception :=
    { nowMs := 5, rssi := -60, espnow := true, mqttConnected := false, queueLoad := 0 }
  let error := fun src => RouteFrame.fresh src broadcastAddr (.routeError ⟨9, 9, 1⟩)
  [(0, .receive rx (error 7)), (1, .receive rx (error 1)), (0, .receive rx (error 2))]

theorem each_rebroadcasts_loss_once :
    (∀ action ∈ lossOf9, action.2.quiet = true) ∧
      (∀ i, rebroadcasts 9 i pairVia9 lossOf9 = 1) ∧
      ∑ i, rebroadcasts 9 i pairVia9 lossOf9 ≤ 2 :=
  ⟨by decide, by decide, (route_error_flood_finite pairVia9 9 lossOf9 (by decide)).2.1⟩

end Network

end ForestLink.Mesh
