/-
Module: ForestLink.Proofs.SwitchDetector
Purpose: The detector of better routes reports an alternative exactly at the third check in a
  row that finds it, whatever happens to the table between the checks.
Trusted boundary: none
Main exports: RouteTable.Undercuts, improvement_eq_some_iff, WellFormed.apply,
  checkBetterRoute_observe, RouteDetector.Sound, better_route_reported_iff
-/
import ForestLink.Lib.Streak
import ForestLink.Mesh.RouteDetector
import ForestLink.Proofs.RouteHysteresis
import ForestLink.Proofs.RouteRepresentation

namespace ForestLink.Mesh

open ForestLink.Lib
open ForestLink.Protocol

/-- The arguments fit their C types, and no neighbour has address zero. -/
def RouteCall.Valid : RouteCall → Prop
  | .updateNeighbor addr heard => 0 < addr ∧ heard.hopsToInet < 2 ^ 8
  | .updateInetRoute _ hopsInet _ _ => hopsInet < 2 ^ 8
  | .setQueueLoad _ load => load < 2 ^ 8
  | _ => True

def RouteDetector.Call.Valid : RouteDetector.Call → Prop
  | .change _ call => call.Valid
  | .setHopsToInternet _ hops => hops < 2 ^ 8
  | .check _ _ => True

namespace RouteTable

variable {table : RouteTable} {currentBest myAddr : Nat}

/-! ## What a check finds -/

/-- The neighbours that may replace the current best hop. -/
def alternatives (table : RouteTable) (currentBest myAddr : Nat) : List NeighborEntry :=
  table.neighbors.filter fun entry =>
    decide (entry.addr ≠ currentBest ∧ entry.hopsToInternet < routeHopsUnknown ∧
      ¬ (myAddr ≠ 0 ∧ entry.inetOrigin = myAddr))

/-- The neighbour `a` is the first cheapest alternative, and its route undercuts the one of the
current best hop, if that has any. -/
def Undercuts (table : RouteTable) (currentBest myAddr a : Nat) : Prop :=
  ∃ entry, FirstCheapest (table.alternatives currentBest myAddr) entry ∧ entry.addr = a ∧
    ∀ best ∈ table.neighbors, best.addr = currentBest → best.hopsToInternet < routeHopsUnknown →
      routeCost entry + minRouteCostImprovement ≤ routeCost best

/-- Every address has one entry and is not zero; the advertised values fit their C types. -/
structure WellFormed (table : RouteTable) : Prop where
  keyed : table.Keyed
  entries : ∀ entry ∈ table.neighbors, entry.Typed ∧ 0 < entry.addr

theorem cheapestAlternative_eq (table : RouteTable) (currentBest myAddr : Nat) :
    table.cheapestAlternative currentBest myAddr =
      cheapest (0, 2 ^ 32 - 1) (table.alternatives currentBest myAddr) := by
  unfold cheapestAlternative alternatives
  congr 1
  apply List.filter_congr
  intro entry _
  rw [Bool.eq_iff_iff]
  simp [and_assoc]

/-- The cost that a check compares with leaves room exactly where every usable entry of the
current best hop does. -/
theorem WellFormed.currentCost_ge_iff (sound : table.WellFormed) {entry : NeighborEntry}
    (typed : entry.Typed) :
    routeCost entry + minRouteCostImprovement ≤ table.currentCost currentBest ↔
      ∀ best ∈ table.neighbors, best.addr = currentBest →
        best.hopsToInternet < routeHopsUnknown →
        routeCost entry + minRouteCostImprovement ≤ routeCost best := by
  unfold currentCost
  cases found : table.neighbors.find? fun entry =>
      entry.addr == currentBest && decide (entry.hopsToInternet < routeHopsUnknown) with
  | none =>
      obtain ⟨hops, etx, load⟩ := typed
      have room : routeCost entry + minRouteCostImprovement ≤ 2 ^ 32 - 1 := by
        unfold routeCost loraOnlyPenalty minRouteCostImprovement
        split <;> omega
      refine iff_of_true room fun best member here usable => ?_
      have missing := List.find?_eq_none.mp found best member
      simp [here, usable] at missing
  | some first =>
      have member := List.mem_of_find?_eq_some found
      have holds := List.find?_some found
      simp only [Bool.and_eq_true, beq_iff_eq, decide_eq_true_eq] at holds
      constructor
      · intro room best known here _
        rwa [List.inj_on_of_nodup_map sound.keyed known member (here.trans holds.1.symm)]
      · exact fun each => each first member holds.1 holds.2

theorem WellFormed.improvement_eq_some_iff (sound : table.WellFormed) {a : Nat} :
    table.improvement currentBest myAddr = some a ↔ table.Undercuts currentBest myAddr a := by
  have known : ∀ {entry}, entry ∈ table.alternatives currentBest myAddr →
      entry.Typed ∧ 0 < entry.addr :=
    fun member => sound.entries _ (List.mem_of_mem_filter member)
  unfold improvement
  dsimp only
  rw [cheapestAlternative_eq]
  rcases cheapest_typed (table.alternatives currentBest myAddr) (fun _ here => (known here).1) 0
    with ⟨none, kept⟩ | ⟨entry, first, chosen⟩
  · rw [kept, if_neg fun better => better.1 rfl]
    refine iff_of_false (by simp) ?_
    rintro ⟨entry, first, _⟩
    exact absurd first.mem (none ▸ List.not_mem_nil)
  · obtain ⟨typed, positive⟩ := known first.mem
    have room : (entry.addr ≠ 0 ∧ table.currentCost currentBest > routeCost entry ∧
        table.currentCost currentBest - routeCost entry ≥ minRouteCostImprovement) ↔
        routeCost entry + minRouteCostImprovement ≤ table.currentCost currentBest := by
      unfold minRouteCostImprovement
      omega
    rw [chosen]
    dsimp only
    rw [if_congr (room.trans (sound.currentCost_ge_iff typed)) rfl rfl]
    constructor
    · intro found
      split at found
      · rename_i undercut
        exact ⟨entry, first, Option.some.inj found, undercut⟩
      · cases found
    · rintro ⟨other, alsoFirst, here, undercut⟩
      rw [← first.unique alsoFirst] at here undercut
      rw [if_pos undercut, here]

theorem WellFormed.improvement_ne_zero (sound : table.WellFormed) (currentBest myAddr : Nat) :
    table.improvement currentBest myAddr ≠ some 0 := by
  intro found
  obtain ⟨entry, first, here, _⟩ := sound.improvement_eq_some_iff.mp found
  have positive := (sound.entries entry (List.mem_of_mem_filter first.mem)).2
  omega

/-! ## Tables stay well formed -/

namespace WellFormed

variable {addr : Nat} {change : NeighborEntry → NeighborEntry}

theorem adjust (sound : table.WellFormed) (keeps : ∀ entry, (change entry).addr = entry.addr)
    (typed : ∀ entry : NeighborEntry, entry.Typed → (change entry).Typed) :
    (table.adjust addr change).WellFormed where
  keyed := sound.keyed.adjust fun entry here => (keeps entry).trans here
  entries := by
    intro entry member
    rcases mem_adjust member with kept | ⟨old, known, _, rfl⟩
    · exact sound.entries entry kept
    · obtain ⟨oldTyped, positive⟩ := sound.entries old known
      exact ⟨typed old oldTyped, (keeps old).symm ▸ positive⟩

theorem mapEntries (sound : table.WellFormed)
    (keeps : ∀ entry, (change entry).addr = entry.addr)
    (typed : ∀ entry : NeighborEntry, entry.Typed → (change entry).Typed) :
    WellFormed { table with neighbors := table.neighbors.map change } where
  keyed := sound.keyed.mapEntries keeps
  entries := by
    intro entry member
    obtain ⟨old, known, rfl⟩ := List.mem_map.mp member
    obtain ⟨oldTyped, positive⟩ := sound.entries old known
    exact ⟨typed old oldTyped, (keeps old).symm ▸ positive⟩

theorem updateNeighbor (sound : table.WellFormed) {now : Nat} {heard : Heard}
    (positive : 0 < addr) (hops : heard.hopsToInet < 2 ^ 8) :
    (table.updateNeighbor now addr heard).WellFormed where
  keyed := sound.keyed.updateNeighbor now addr heard
  entries := by
    intro entry member
    rcases mem_updateNeighbor member with kept | ⟨old, known, _, rfl⟩ | rfl
    · exact sound.entries entry kept
    · obtain ⟨⟨oldHops, etx, load⟩, oldPositive⟩ := sound.entries old known
      refine ⟨⟨?_, etx, load⟩, oldPositive⟩
      unfold refresh
      dsimp only
      split
      · exact hops
      · exact oldHops
    · have fresh : 100 < 2 ^ 16 ∧ 0 < 2 ^ 8 := by decide
      exact ⟨⟨hops, fresh.1, fresh.2⟩, positive⟩

theorem apply (sound : table.WellFormed) {now : Nat} {call : RouteCall} (valid : call.Valid) :
    (table.apply now call).WellFormed := by
  cases call with
  | updateNeighbor addr heard => exact sound.updateNeighbor valid.1 valid.2
  | updateInetRoute neighborAddr hopsInet seq origin =>
      change (table.updateInetRoute neighborAddr hopsInet seq origin).2.WellFormed
      rw [updateInetRoute_table]
      refine sound.adjust (takeRoute_addr hopsInet seq origin) fun entry typed => ?_
      rcases takeRoute_cases hopsInet seq origin entry with kept | taken
      · rwa [kept]
      · rw [taken]
        exact ⟨valid, typed.etx, typed.load⟩
  | setHasInternet addr value =>
      refine sound.adjust (fun _ => rfl) fun entry typed => ⟨?_, typed.etx, typed.load⟩
      dsimp only
      split
      · exact Nat.two_pow_pos 8
      · exact typed.hops
  | setQueueLoad addr load =>
      exact sound.adjust (fun _ => rfl) fun entry typed => ⟨typed.hops, typed.etx, valid⟩
  | reportLinkTx addr success =>
      have capped : ∀ etx : Nat, (if etx > 1000 then 1000 else etx) < 2 ^ 16 := by
        intro etx
        split <;> omega
      exact sound.adjust (fun _ => rfl) fun entry typed => ⟨typed.hops, capped _, typed.load⟩
  | invalidateRouteVia deadAddr =>
      refine sound.mapEntries (fun entry => ?_) fun entry typed => ?_
      · split <;> rfl
      · have unknown : routeHopsUnknown < 2 ^ 8 := by decide
        split
        · exact ⟨unknown, typed.etx, typed.load⟩
        · exact typed
  | detectEarlyStale earlyMs =>
      refine sound.mapEntries (fun entry => ?_) fun entry typed => ?_
      · split <;> rfl
      · split
        · exact ⟨typed.hops, typed.etx, typed.load⟩
        · exact typed
  | checkBetterRoute currentBest myAddr => exact sound
  | pruneStale maxAgeMs =>
      exact ⟨sound.keyed.apply now (.pruneStale maxAgeMs),
        fun entry member => sound.entries entry (List.mem_of_mem_filter member)⟩

end WellFormed

end RouteTable

/-! ## The tracked candidate as a streak -/

/-- The candidate that is followed, with its count; address zero stands for none. -/
def BetterRoute.streak (tracked : BetterRoute) : Streak.State Nat :=
  if tracked.candidateAddr = 0 then none
  else some (tracked.candidateAddr, tracked.consecutiveCycles)

theorem BetterRoute.streak_of_ne {tracked : BetterRoute} (some_ : tracked.candidateAddr ≠ 0) :
    tracked.streak = some (tracked.candidateAddr, tracked.consecutiveCycles) := if_neg some_

theorem BetterRoute.eq_of_streak {tracked : BetterRoute} {a times : Nat}
    (follows : tracked.streak = some (a, times)) :
    tracked.candidateAddr = a ∧ tracked.consecutiveCycles = times := by
  unfold streak at follows
  split at follows
  · cases follows
  · exact Prod.mk.inj (Option.some.inj follows)

theorem BetterRoute.count_streak {tracked : BetterRoute} {a : Nat} (nonzero : a ≠ 0) :
    Streak.count tracked.streak a =
      if tracked.candidateAddr = a then tracked.consecutiveCycles + 1 else 1 := by
  by_cases none : tracked.candidateAddr = 0
  · have other : tracked.candidateAddr ≠ a := fun same => nonzero (same.symm.trans none)
    have blank : tracked.streak = Option.none := if_pos none
    rw [blank, if_neg other]
    rfl
  · rw [streak_of_ne none]
    rfl

/-- A check counts its finding and reports the third of a streak. -/
theorem RouteTable.checkBetterRoute_observe {table : RouteTable} {currentBest myAddr : Nat}
    (nonzero : table.improvement currentBest myAddr ≠ some 0) (tracked : BetterRoute) :
    Streak.observe routeHysteresisCycles tracked.streak (table.improvement currentBest myAddr) =
      ((table.checkBetterRoute tracked currentBest myAddr).1,
        (table.checkBetterRoute tracked currentBest myAddr).2.streak) := by
  unfold checkBetterRoute
  cases found : table.improvement currentBest myAddr with
  | none => rfl
  | some a =>
      have some_ : a ≠ 0 := fun zero => nonzero (zero ▸ found)
      change (if routeHysteresisCycles ≤ Streak.count tracked.streak a then _ else _) = _
      rw [if_congr (iff_of_eq (congrArg _ (BetterRoute.count_streak some_))) rfl rfl,
        BetterRoute.count_streak some_]
      dsimp only
      by_cases same : tracked.candidateAddr = a
      · rw [if_pos same, if_pos same]
        dsimp only
        split
        · rw [same]
          rfl
        · rw [BetterRoute.streak_of_ne (same ▸ some_), same]
      · have early : ¬ routeHysteresisCycles ≤ 1 := by decide
        rw [if_neg same, if_neg same, if_neg early]
        dsimp only
        rw [if_neg early, BetterRoute.streak_of_ne some_]

namespace RouteDetector

/-! ## Checks along a run -/

namespace Check

/-- What the check found, and what it reported. -/
def entry (check : Check) : Streak.Entry Nat where
  seen := check.table.improvement check.currentBest check.myAddr
  reported := check.switchTo

/-- The check found that `a` is the first cheapest alternative and undercuts the current best
hop. -/
def Names (check : Check) (a : Nat) : Prop :=
  check.table.Undercuts check.currentBest check.myAddr a

end Check

/-- A check that was made in a well-formed table, behind the earlier ones. -/
structure Made (check : Check) (earlier : List Check) : Prop where
  sound : check.table.WellFormed
  counted : ∃ tracked : BetterRoute,
    Streak.Counts RouteTable.routeHysteresisCycles tracked.streak (earlier.map Check.entry) ∧
    check.switchTo =
      (check.table.checkBetterRoute tracked check.currentBest check.myAddr).1 ∧
    check.after = (check.table.checkBetterRoute tracked check.currentBest check.myAddr).2

structure Sound (d : RouteDetector) : Prop where
  table : d.table.WellFormed
  counts : Streak.Counts RouteTable.routeHysteresisCycles d.betterRoute.streak
    (d.checks.map Check.entry)
  made : ∀ later check earlier, d.checks = later ++ check :: earlier → Made check earlier

theorem sound_start : Sound {} where
  table := ⟨List.nodup_nil, fun _ none => absurd none List.not_mem_nil⟩
  counts := Streak.counts_start (by decide)
  made later check earlier split := by simp at split

theorem Sound.check {d : RouteDetector} (sound : d.Sound) (currentBest myAddr : Nat) :
    (d.check currentBest myAddr).Sound := by
  have observed := RouteTable.checkBetterRoute_observe
    (sound.table.improvement_ne_zero currentBest myAddr) d.betterRoute
  have counts := sound.counts.observe (d.table.improvement currentBest myAddr)
  rw [observed] at counts
  refine ⟨sound.table, counts, fun later check earlier split => ?_⟩
  cases later with
  | nil =>
      obtain ⟨rfl, rfl⟩ := List.cons.inj split
      exact ⟨sound.table, d.betterRoute, sound.counts, rfl, rfl⟩
  | cons newest later => exact sound.made later check earlier (List.cons.inj split).2

theorem Sound.step {d : RouteDetector} (sound : d.Sound) {call : Call} (valid : call.Valid) :
    (d.step call).Sound := by
  cases call with
  | change now call => exact ⟨sound.table.apply valid, sound.counts, sound.made⟩
  | setHopsToInternet addr hops =>
      have table : (d.table.setHopsToInternet addr hops).WellFormed :=
        sound.table.adjust (fun _ => rfl) fun _ typed => ⟨valid, typed.etx, typed.load⟩
      exact ⟨table, sound.counts, sound.made⟩
  | check currentBest myAddr => exact sound.check currentBest myAddr

theorem Sound.run {calls : List Call} {d : RouteDetector} (sound : d.Sound)
    (valid : ∀ call ∈ calls, call.Valid) : (d.run calls).Sound := by
  induction calls generalizing d with
  | nil => exact sound
  | cons call rest inductionHypothesis =>
      exact inductionHypothesis (sound.step (valid call List.mem_cons_self))
        fun later member => valid later (List.mem_cons_of_mem call member)

/-! ## Reports -/

variable {check : Check} {earlier : List Check} {a : Nat}

theorem Made.found_iff (made : Made check earlier) :
    check.table.improvement check.currentBest check.myAddr = some a ↔ check.Names a :=
  made.sound.improvement_eq_some_iff

/-- The two newest checks named `a` and reported nothing. -/
theorem two_le_leading_iff (sound : ∀ check ∈ earlier, check.table.WellFormed) :
    2 ≤ Streak.leading a (earlier.map Check.entry) ↔
      ∃ second first older, earlier = second :: first :: older ∧
        (second.Names a ∧ second.switchTo = none) ∧ first.Names a ∧ first.switchTo = none := by
  have entry : ∀ check ∈ earlier,
      check.entry.Of a ↔ check.Names a ∧ check.switchTo = none := fun check member =>
    and_congr_left' (sound check member).improvement_eq_some_iff
  rw [Streak.le_leading_iff]
  constructor
  · rintro ⟨streak, rest, split, two, each⟩
    obtain ⟨newer, older, rfl, newerEq, _⟩ := List.map_eq_append_iff.mp split
    rw [← newerEq, List.length_map] at two
    obtain ⟨second, first, rfl⟩ := List.length_eq_two.mp two
    have of : ∀ check ∈ [second, first], check.Names a ∧ check.switchTo = none :=
      fun check member => (entry check (List.mem_append_left older member)).mp
        (each _ (newerEq ▸ List.mem_map_of_mem member))
    exact ⟨second, first, older, rfl, of second (by simp), of first (by simp)⟩
  · rintro ⟨second, first, older, rfl, ofSecond, ofFirst⟩
    refine ⟨[second.entry, first.entry], older.map Check.entry, rfl, rfl, ?_⟩
    intro made member
    rcases List.mem_pair.mp member with rfl | rfl
    · exact (entry second (by simp)).mpr ofSecond
    · exact (entry first (by simp)).mpr ofFirst

/-- Nothing is counted behind a check that did not name `a`, or that reported a switch. -/
theorem leading_eq_zero
    (sound : ∀ check ∈ earlier, check.table.WellFormed)
    (ended : ∀ previous ∈ earlier.head?, ¬ (previous.Names a ∧ previous.switchTo = none)) :
    Streak.leading a (earlier.map Check.entry) = 0 := by
  cases earlier with
  | nil => rfl
  | cons previous older =>
      apply Streak.leading_cons_not
      intro of
      exact ended previous rfl
        ⟨(sound previous List.mem_cons_self).improvement_eq_some_iff.mp of.1, of.2⟩

end RouteDetector

open RouteDetector in
/-- For every sequence of table changes and checks, with any current best hop in each: a check
says to switch to `a` exactly when it and the two checks before it named `a` and those two
reported no switch.  A check that names nobody forgets the candidate, and one that names an
address which the check before it did not name, or switched to, counts from one. -/
theorem better_route_reported_iff {calls : List Call} (valid : ∀ call ∈ calls, call.Valid)
    {later earlier : List Check} {check : Check}
    (split : (RouteDetector.run {} calls).checks = later ++ check :: earlier) :
    (∀ a, check.switchTo = some a ↔ check.Names a ∧
      ∃ second first older, earlier = second :: first :: older ∧
        (second.Names a ∧ second.switchTo = none) ∧ first.Names a ∧ first.switchTo = none) ∧
    ((∀ a, ¬ check.Names a) → check.after = {}) ∧
    ∀ a, check.Names a →
      (∀ previous ∈ earlier.head?, ¬ (previous.Names a ∧ previous.switchTo = none)) →
      check.after.candidateAddr = a ∧ check.after.consecutiveCycles = 1 := by
  have inv : (RouteDetector.run {} calls).Sound := sound_start.run valid
  have made := inv.made later check earlier split
  have sound : ∀ check ∈ earlier, check.table.WellFormed := by
    intro old member
    obtain ⟨newer, older, rfl⟩ := List.append_of_mem member
    refine (inv.made (later ++ check :: newer) old older ?_).sound
    rw [split, List.append_assoc, List.cons_append]
  obtain ⟨tracked, counts, switched, after⟩ := made.counted
  have observed := RouteTable.checkBetterRoute_observe
    (made.sound.improvement_ne_zero check.currentBest check.myAddr) tracked
  rw [← switched, ← after] at observed
  refine ⟨fun a => ?_, fun nobody => ?_, fun a names ended => ?_⟩
  · have reports : check.switchTo = some a ↔
        check.table.improvement check.currentBest check.myAddr = some a ∧
          RouteTable.routeHysteresisCycles ≤
            Streak.leading a (earlier.map Check.entry) + 1 := by
      rw [← counts.reports_iff, observed]
    rw [reports, made.found_iff, ← two_le_leading_iff sound]
    exact and_congr_right fun _ => (Nat.succ_le_succ_iff : 2 + 1 ≤ _ ↔ 2 ≤ _)
  · have found : check.table.improvement check.currentBest check.myAddr = none :=
      Option.eq_none_iff_forall_ne_some.mpr fun a found => nobody a (made.found_iff.mp found)
    rw [after]
    unfold RouteTable.checkBetterRoute
    rw [found]
  · have once : Streak.count tracked.streak a = 1 := by
      rw [(counts a).1, leading_eq_zero sound ended]
    have early : ¬ RouteTable.routeHysteresisCycles ≤ Streak.count tracked.streak a := by
      rw [once]
      decide
    rw [made.found_iff.mpr names] at observed
    unfold Streak.observe at observed
    dsimp only at observed
    rw [if_neg early, once] at observed
    exact BetterRoute.eq_of_streak (Prod.mk.inj observed).2.symm

open RouteDetector in
/-- The third check in a row that finds neighbour 2 one hop nearer than neighbour 1. -/
theorem better_route_reported_third :
    let calls : List Call :=
      [.change 0 (.updateNeighbor 1 { hopsToInet := 2 }),
        .change 0 (.updateNeighbor 2 { hopsToInet := 1 }), .check 1 0, .check 1 0,
        .change 5 (.setQueueLoad 2 10), .check 1 0]
    ∃ check earlier, (RouteDetector.run {} calls).checks = check :: earlier ∧
      check.switchTo = some 2 ∧ check.Names 2 ∧
      ∃ second first older, earlier = second :: first :: older ∧
        (second.Names 2 ∧ second.switchTo = none) ∧ first.Names 2 ∧ first.switchTo = none := by
  intro calls
  have valid : ∀ call ∈ calls, call.Valid := by
    simp [calls, RouteDetector.Call.Valid, RouteCall.Valid]
  have reported : ((RouteDetector.run {} calls).checks.head?.bind Check.switchTo) = some 2 := by
    decide
  obtain ⟨check, made, switched⟩ := Option.bind_eq_some_iff.mp reported
  obtain ⟨earlier, split⟩ := List.head?_eq_some_iff.mp made
  have newest : (RouteDetector.run {} calls).checks = [] ++ check :: earlier := split
  have rule := better_route_reported_iff valid newest
  exact ⟨check, earlier, split, switched, (rule.1 2).mp switched⟩

end ForestLink.Mesh
