/-
Module: ForestLink.Proofs.LinkEtx
Purpose: The cost of a link after the outcomes that were reported for it: exact until the 16-bit
  counters or the 16-bit quotient wrap.
Trusted boundary: none
Main exports: LinkStats, statsAfter, exactEtx, FitsCounters, statsAfter_exact_iff,
  link_etx_exact_iff
-/
import ForestLink.Proofs.RouteRepresentation
import Mathlib.Data.List.Induction

namespace ForestLink.Mesh

open ForestLink.Lib

/-! ## The counters of a link -/

structure LinkStats where
  txCount : Nat := 0
  txSuccess : Nat := 0
  etxX100 : Nat := 100
deriving Repr, DecidableEq

namespace LinkStats

/-- What `report_link_tx` does to the counters. -/
def report (stats : LinkStats) (success : Bool) : LinkStats :=
  let txCount := (stats.txCount + 1) % 2 ^ 16
  let txSuccess := if success then (stats.txSuccess + 1) % 2 ^ 16 else stats.txSuccess
  let etx := txCount * 100 / (if txSuccess > 0 then txSuccess else 1) % 2 ^ 16
  { txCount := txCount
    txSuccess := txSuccess
    etxX100 := if etx > 1000 then 1000 else etx }

end LinkStats

/-- The counters of a new entry after these outcomes, the first one first. -/
def statsAfter (outcomes : List Bool) : LinkStats := outcomes.foldl LinkStats.report {}

/-- The cost in unbounded arithmetic. -/
def exactEtx (outcomes : List Bool) : Nat :=
  min 1000 (100 * outcomes.length / max (outcomes.count true) 1)

/-- Fewer than 2^16 reports, and at no time 2^16 or more reports in 100 for each success. -/
def FitsCounters (outcomes : List Bool) : Prop :=
  outcomes.length < 2 ^ 16 ∧
    ∀ first, first <+: outcomes → 100 * first.length < 2 ^ 16 * max (first.count true) 1

section Counters

variable {outcomes : List Bool}

theorem statsAfter_concat (outcomes : List Bool) (success : Bool) :
    statsAfter (outcomes ++ [success]) = (statsAfter outcomes).report success :=
  List.foldl_concat ..

/-- The counters count modulo 2^16. -/
theorem statsAfter_counts (outcomes : List Bool) :
    (statsAfter outcomes).txCount = outcomes.length % 2 ^ 16 ∧
      (statsAfter outcomes).txSuccess = outcomes.count true % 2 ^ 16 := by
  induction outcomes using List.reverseRecOn with
  | nil => exact ⟨rfl, rfl⟩
  | append_singleton earlier success inductionHypothesis =>
      obtain ⟨count, successes⟩ := inductionHypothesis
      rw [statsAfter_concat]
      unfold LinkStats.report
      dsimp only
      rw [count, successes, List.length_append, List.length_singleton, List.count_append]
      cases success with
      | true => simp
      | false => simp

/-- The cost after a report, from the counters after it. -/
theorem LinkStats.report_etx (stats : LinkStats) (success : Bool) :
    (stats.report success).etxX100 =
      min 1000 ((stats.report success).txCount * 100 /
        max (stats.report success).txSuccess 1 % 2 ^ 16) := by
  unfold LinkStats.report
  dsimp only
  generalize (if success then (stats.txSuccess + 1) % 2 ^ 16 else stats.txSuccess) = successes
  have divisor : (if successes > 0 then successes else 1) = max successes 1 := by
    split <;> omega
  rw [divisor]
  split <;> omega

theorem statsAfter_etx (some : outcomes ≠ []) :
    (statsAfter outcomes).etxX100 =
      min 1000
        (outcomes.length % 2 ^ 16 * 100 / max (outcomes.count true % 2 ^ 16) 1 % 2 ^ 16) := by
  obtain ⟨count, successes⟩ := statsAfter_counts outcomes
  rw [← count, ← successes]
  rcases List.eq_nil_or_concat' outcomes with none | ⟨earlier, success, rfl⟩
  · exact absurd none some
  · rw [statsAfter_concat]
    exact LinkStats.report_etx ..

/-! ## The exact cost -/

theorem exactEtx_bounds (some : outcomes ≠ []) :
    100 ≤ exactEtx outcomes ∧ exactEtx outcomes ≤ 1000 := by
  have successes : outcomes.count true ≤ outcomes.length := List.count_le_length
  have reports : 0 < outcomes.length := List.length_pos_of_ne_nil some
  have least : 100 ≤ 100 * outcomes.length / max (outcomes.count true) 1 := by
    rw [Nat.le_div_iff_mul_le (by omega)]
    omega
  exact ⟨le_min (by decide) least, min_le_left ..⟩

/-- No fewer reports with no more successes cost no less. -/
theorem exactEtx_mono {worse : List Bool} (reports : outcomes.length ≤ worse.length)
    (successes : worse.count true ≤ outcomes.count true) : exactEtx outcomes ≤ exactEtx worse := by
  refine min_le_min (le_refl _) (Nat.div_le_div (Nat.mul_le_mul_left 100 reports) ?_ ?_)
  · exact max_le_max successes (le_refl 1)
  · omega

/-- Within 16 bits the cost is exact. -/
theorem FitsCounters.etx (fits : FitsCounters outcomes) (some : outcomes ≠ []) :
    (statsAfter outcomes).etxX100 = exactEtx outcomes := by
  have successes : outcomes.count true ≤ outcomes.length := List.count_le_length
  have quotient : 100 * outcomes.length / max (outcomes.count true) 1 < 2 ^ 16 :=
    (Nat.div_lt_iff_lt_mul (by omega)).mpr (fits.2 outcomes List.prefix_rfl)
  rw [statsAfter_etx some, Nat.mod_eq_of_lt fits.1,
    Nat.mod_eq_of_lt (successes.trans_lt fits.1), Nat.mul_comm, Nat.mod_eq_of_lt quotient]
  rfl

theorem FitsCounters.first (fits : FitsCounters outcomes) {first : List Bool}
    (inside : first <+: outcomes) : FitsCounters first :=
  ⟨inside.length_le.trans_lt fits.1, fun shorter part => fits.2 shorter (part.trans inside)⟩

/-- One more report with an exact cost: the counter has not wrapped, and the quotient, which grows
by at most 100, would be small if it had. -/
theorem FitsCounters.concat {success : Bool} (fits : FitsCounters outcomes)
    (exact_ : (statsAfter (outcomes ++ [success])).etxX100 = exactEtx (outcomes ++ [success])) :
    FitsCounters (outcomes ++ [success]) := by
  have some : outcomes ++ [success] ≠ [] := List.concat_ne_nil success outcomes
  have before := fits.2 outcomes List.prefix_rfl
  have length : (outcomes ++ [success]).length = outcomes.length + 1 := by simp
  have grows : outcomes.count true ≤ (outcomes ++ [success]).count true := by
    rw [List.count_append]
    exact Nat.le_add_right ..
  have least := (exactEtx_bounds some).1
  have inside : (outcomes ++ [success]).length < 2 ^ 16 := by
    by_contra wraps
    have full : (outcomes ++ [success]).length = 2 ^ 16 := by
      have := fits.1
      omega
    rw [← exact_, statsAfter_etx some, full] at least
    simp at least
  have successes : (outcomes ++ [success]).count true < 2 ^ 16 :=
    List.count_le_length.trans_lt inside
  refine ⟨inside, fun first part => ?_⟩
  rcases List.prefix_concat_iff.mp part with rfl | earlier
  · rw [statsAfter_etx some, Nat.mod_eq_of_lt inside, Nat.mod_eq_of_lt successes] at exact_
    unfold exactEtx at exact_
    generalize (outcomes ++ [success]).count true = now at *
    generalize outcomes.count true = old at *
    generalize (outcomes ++ [success]).length = reports at *
    rw [← Nat.div_lt_iff_lt_mul (by omega)] at before ⊢
    have step : 100 * reports / max now 1 ≤ 100 * outcomes.length / max old 1 + 100 := by
      calc 100 * reports / max now 1
        _ ≤ 100 * reports / max old 1 := Nat.div_le_div_left (by omega) (by omega)
        _ ≤ (100 * outcomes.length + 100 * max old 1) / max old 1 :=
            Nat.div_le_div_right (by omega)
        _ = 100 * outcomes.length / max old 1 + 100 := Nat.add_mul_div_right _ _ (by omega)
    by_contra large
    rw [Nat.mul_comm reports 100] at exact_
    omega
  · exact fits.2 first earlier

/-- The costs are exact after every report if and only if the 16-bit arithmetic is. -/
theorem statsAfter_exact_iff (outcomes : List Bool) :
    (∀ first, first <+: outcomes → first ≠ [] →
      (statsAfter first).etxX100 = exactEtx first) ↔ FitsCounters outcomes := by
  refine ⟨fun exact_ => ?_, fun fits first part some => (fits.first part).etx some⟩
  induction outcomes using List.reverseRecOn with
  | nil =>
      refine ⟨by decide, fun first part => ?_⟩
      rw [List.prefix_nil.mp part]
      decide
  | append_singleton earlier success inductionHypothesis =>
      have fits := inductionHypothesis fun first part some =>
        exact_ first (part.trans (List.prefix_append ..)) some
      exact fits.concat (exact_ _ List.prefix_rfl (List.concat_ne_nil success earlier))

end Counters

/-! ## The entry of a neighbour -/

/-- The counters of an entry. -/
def NeighborEntry.stats (entry : NeighborEntry) : LinkStats where
  txCount := entry.txCount
  txSuccess := entry.txSuccess
  etxX100 := entry.etxX100

/-- What a call reports for the link to `addr`. -/
def RouteCall.outcome? (addr : Nat) : RouteCall → Option Bool
  | .reportLinkTx link success => if link = addr then some success else none
  | _ => none

/-- The outcomes that were reported for the link to `addr`. -/
def outcomes (addr : Nat) (calls : List TimedCall) : List Bool :=
  calls.filterMap fun timed => timed.call.outcome? addr

/-- The counters after what a call reports. -/
def LinkStats.after (stats : LinkStats) : Option Bool → LinkStats
  | some success => stats.report success
  | none => stats

theorem statsAfter_outcomes (addr : Nat) (calls : List TimedCall) (timed : TimedCall) :
    statsAfter (outcomes addr (calls ++ [timed])) =
      (statsAfter (outcomes addr calls)).after (timed.call.outcome? addr) := by
  unfold outcomes
  rw [List.filterMap_append]
  cases here : timed.call.outcome? addr with
  | none => simp [here, LinkStats.after]
  | some success =>
      have last : [timed].filterMap (fun timed => timed.call.outcome? addr) = [success] :=
        List.filterMap_cons_some here
      rw [last, statsAfter_concat]
      rfl

namespace RouteTable

variable {table : RouteTable} {addr now : Nat}

/-- Changing an entry shows under its address, and nowhere else. -/
theorem Keyed.adjust_entry (keyed : table.Keyed) {other : Nat}
    {change : NeighborEntry → NeighborEntry} {before after : NeighborEntry}
    (here : before ∈ table.neighbors) (there : after ∈ (table.adjust other change).neighbors)
    (same : after.addr = before.addr) (keeps : ∀ entry, (change entry).addr = entry.addr) :
    other = before.addr ∧ after = change before ∨ other ≠ before.addr ∧ after = before := by
  have keepsOther : KeepsAddr other change := fun entry old => (keeps entry).trans old
  by_cases hit : other = before.addr
  · have found := (keyed.adjust keepsOther).getNeighbor there
    rw [same, ← hit, getNeighbor_adjust keepsOther, hit, keyed.getNeighbor here] at found
    exact .inl ⟨hit, (Option.some.inj found).symm⟩
  · rcases mem_adjust there with kept | ⟨old, _, address, rfl⟩
    · exact .inr ⟨hit, List.inj_on_of_nodup_map keyed kept here same⟩
    · exact absurd (address.symm.trans ((keeps old).symm.trans same)) hit

/-- Rewriting all entries shows under their addresses. -/
theorem Keyed.map_entry (keyed : table.Keyed) {change : NeighborEntry → NeighborEntry}
    {before after : NeighborEntry} (here : before ∈ table.neighbors)
    (there : after ∈ table.neighbors.map change) (same : after.addr = before.addr)
    (keeps : ∀ entry, (change entry).addr = entry.addr) : after = change before := by
  obtain ⟨old, known, rfl⟩ := List.mem_map.mp there
  rw [List.inj_on_of_nodup_map keyed known here ((keeps old).symm.trans same)]

/-- While a neighbour keeps its entry, its counters change by the reports for it only. -/
theorem Keyed.stats_apply (keyed : table.Keyed) {call : RouteCall}
    {before after : NeighborEntry} (here : before ∈ table.neighbors)
    (there : after ∈ (table.apply now call).neighbors) (same : after.addr = before.addr) :
    after.stats = before.stats.after (call.outcome? before.addr) := by
  have adjusted : ∀ {other : Nat} {change : NeighborEntry → NeighborEntry},
      after ∈ (table.adjust other change).neighbors →
      (∀ entry, (change entry).addr = entry.addr) →
      (∀ entry, (change entry).stats = entry.stats) → after.stats = before.stats := by
    intro other change changed keeps keepsStats
    rcases keyed.adjust_entry here changed same keeps with ⟨_, rfl⟩ | ⟨_, rfl⟩
    · exact keepsStats before
    · rfl
  have mapped : ∀ {change : NeighborEntry → NeighborEntry},
      after ∈ table.neighbors.map change → (∀ entry, (change entry).addr = entry.addr) →
      (∀ entry, (change entry).stats = entry.stats) → after.stats = before.stats := by
    intro change changed keeps keepsStats
    rw [keyed.map_entry here changed same keeps]
    exact keepsStats before
  cases call with
  | updateNeighbor other heard =>
      change after.stats = before.stats
      rcases keyed.mem_updateNeighbor there with ⟨hit, _⟩ | ⟨_, kept⟩
      · have known : (table.neighbors.any fun entry => entry.addr == other) = true :=
          List.any_eq_true.mpr ⟨before, here, beq_iff_eq.mpr (same.symm.trans hit)⟩
        have refreshed : table.updateNeighbor now other heard =
            table.adjust other (refresh now heard) := if_pos known
        have changed : after ∈ (table.updateNeighbor now other heard).neighbors := there
        rw [refreshed] at changed
        exact adjusted changed (fun _ => rfl) fun _ => rfl
      · rw [List.inj_on_of_nodup_map keyed kept here same]
  | updateInetRoute neighborAddr hopsInet seq origin =>
      have changed : after ∈ (table.updateInetRoute neighborAddr hopsInet seq origin).2.neighbors :=
        there
      rw [updateInetRoute_table] at changed
      refine adjusted changed (takeRoute_addr hopsInet seq origin) fun entry => ?_
      rcases takeRoute_cases hopsInet seq origin entry with kept | taken
      · rw [kept]
      · rw [taken]
        rfl
  | setHasInternet other value => exact adjusted there (fun _ => rfl) fun _ => rfl
  | setQueueLoad other load => exact adjusted there (fun _ => rfl) fun _ => rfl
  | reportLinkTx other success =>
      have changed : after ∈ (table.reportLinkTx other success).neighbors := there
      unfold reportLinkTx at changed
      rcases keyed.adjust_entry here changed same (fun _ => rfl) with ⟨hit, rfl⟩ | ⟨miss, rfl⟩
      · have reported : (RouteCall.reportLinkTx other success).outcome? before.addr =
            some success := if_pos hit
        rw [reported]
        rfl
      · have other : (RouteCall.reportLinkTx other success).outcome? after.addr = none :=
          if_neg miss
        rw [other]
        rfl
  | invalidateRouteVia deadAddr =>
      refine mapped there (fun entry => ?_) fun entry => ?_
      · split <;> rfl
      · split <;> rfl
  | detectEarlyStale earlyMs =>
      refine mapped there (fun entry => ?_) fun entry => ?_
      · split <;> rfl
      · split <;> rfl
  | checkBetterRoute currentBest myAddr =>
      rw [List.inj_on_of_nodup_map keyed there here same]
      rfl
  | pruneStale maxAgeMs =>
      rw [List.inj_on_of_nodup_map keyed (List.mem_of_mem_filter there) here same]
      rfl

end RouteTable

/-! ## Histories -/

namespace RouteHistory

variable {h : RouteHistory} {addr : Nat}

/-- The call leaves the neighbour in the table. -/
def Keeps (addr : Nat) (h : RouteHistory) (timed : TimedCall) : Prop :=
  ((h.step timed).array.table.getNeighbor addr).isSome

instance (addr : Nat) (h : RouteHistory) (timed : TimedCall) : Decidable (h.Keeps addr timed) :=
  inferInstanceAs (Decidable (_ = true))

/-- The counters of the neighbour's entry. -/
def linkStats (h : RouteHistory) (addr : Nat) : Option LinkStats :=
  (h.array.table.getNeighbor addr).map NeighborEntry.stats

theorem keyed_step (keyed : h.array.table.Keyed) (timed : TimedCall) :
    (h.step timed).array.table.Keyed := by
  have table : (h.step timed).array.table =
      h.array.table.apply (timed.nowMs % 2 ^ 32) timed.call := h.array.table_apply ..
  exact table ▸ keyed.apply _ _

theorem keyed_run (calls : List TimedCall) (keyed : h.array.table.Keyed) :
    (h.run calls).array.table.Keyed := by
  induction calls generalizing h with
  | nil => exact keyed
  | cons timed rest inductionHypothesis => exact inductionHypothesis (keyed_step keyed timed)

/-- A call that leaves the neighbour in the table changes its counters by what it reports. -/
theorem linkStats_step (keyed : h.array.table.Keyed) {timed : TimedCall} {stats : LinkStats}
    (known : h.linkStats addr = some stats) (keeps : h.Keeps addr timed) :
    (h.step timed).linkStats addr = some (stats.after (timed.call.outcome? addr)) := by
  obtain ⟨before, found, rfl⟩ := Option.map_eq_some_iff.mp known
  obtain ⟨after, changed⟩ := Option.isSome_iff_exists.mp keeps
  obtain ⟨here, rfl⟩ := RouteTable.getNeighbor_mem found
  obtain ⟨there, same⟩ := RouteTable.getNeighbor_mem changed
  have table : (h.step timed).array.table =
      h.array.table.apply (timed.nowMs % 2 ^ 32) timed.call := h.array.table_apply ..
  unfold linkStats
  rw [changed, Option.map_some, keyed.stats_apply here (table ▸ there) same]

theorem linkStats_run (keyed : h.array.table.Keyed) (new : h.linkStats addr = some {})
    {calls : List TimedCall} (keeps : Along step (Keeps addr) h calls) :
    (h.run calls).linkStats addr = some (statsAfter (outcomes addr calls)) := by
  induction calls using List.reverseRecOn with
  | nil => exact new
  | append_singleton earlier timed inductionHypothesis =>
      obtain ⟨before, last⟩ := Along.append.mp keeps
      have stats := linkStats_step (keyed_run earlier keyed) (inductionHypothesis before) last.1
      rw [statsAfter_outcomes]
      unfold run
      rw [List.foldl_append]
      exact stats

end RouteHistory

/-- Hearing an unknown neighbour makes an entry without reports. -/
theorem RouteTable.mem_newEntry {table : RouteTable} {addr : Nat}
    (unknown : table.getNeighbor addr = none) (now : Nat) (heard : Heard) :
    newEntry now addr heard ∈ (table.updateNeighbor now addr heard).neighbors := by
  have missing : ¬ (table.neighbors.any fun entry => entry.addr == addr) = true := by
    intro known
    obtain ⟨entry, member, here⟩ := List.any_eq_true.mp known
    exact List.find?_eq_none.mp unknown entry member here
  unfold updateNeighbor
  rw [if_neg missing]
  split
  · exact List.mem_append_right _ (List.mem_singleton_self _)
  · rename_i full
    have some : table.neighbors ≠ [] := by
      intro none
      rw [none] at full
      exact full (by decide)
    obtain ⟨before, oldest, after, split, index, _⟩ := oldestIndex_spec now some
    have inside : oldestIndex now table.neighbors < table.neighbors.length := by
      rw [index, split, List.length_append, List.length_cons]
      omega
    exact List.mem_set inside _

theorem RouteHistory.linkStats_created {h : RouteHistory} {addr : Nat}
    (keyed : h.array.table.Keyed) (unknown : h.array.table.getNeighbor addr = none) (nowMs : Nat)
    (heard : RouteTable.Heard) :
    (h.step ⟨nowMs, .updateNeighbor addr heard⟩).linkStats addr = some {} := by
  have table : (h.step ⟨nowMs, .updateNeighbor addr heard⟩).array.table =
      h.array.table.updateNeighbor (nowMs % 2 ^ 32) addr heard := h.array.table_apply ..
  have found := (keyed.updateNeighbor (nowMs % 2 ^ 32) addr heard).getNeighbor
    (RouteTable.mem_newEntry unknown (nowMs % 2 ^ 32) heard)
  unfold linkStats
  rw [table]
  exact congrArg (Option.map NeighborEntry.stats) found

/-- After any calls an unknown neighbour is heard, and any calls follow that leave it in the
table. Its cost is the exact one after every report if and only if the reports fit the 16-bit
arithmetic; an exact cost lies between 100 and 1000, and is no smaller with no fewer reports and
no more successes. -/
theorem link_etx_exact_iff (earlier : List TimedCall) (addr nowMs : Nat)
    (heard : RouteTable.Heard) (calls : List TimedCall)
    (unknown : (RouteHistory.run {} earlier).array.table.getNeighbor addr = none)
    (keeps : Along RouteHistory.step (RouteHistory.Keeps addr)
      ((RouteHistory.run {} earlier).step ⟨nowMs, .updateNeighbor addr heard⟩) calls) :
    let created := (RouteHistory.run {} earlier).step ⟨nowMs, .updateNeighbor addr heard⟩
    ((∀ first, first <+: calls → outcomes addr first ≠ [] →
        ((created.run first).array.table.getNeighbor addr).map NeighborEntry.etxX100 =
          some (exactEtx (outcomes addr first))) ↔
      FitsCounters (outcomes addr calls)) ∧
    ∀ reports, reports ≠ [] → 100 ≤ exactEtx reports ∧ exactEtx reports ≤ 1000 ∧
      ∀ worse : List Bool, reports.length ≤ worse.length →
        worse.count true ≤ reports.count true → exactEtx reports ≤ exactEtx worse := by
  intro created
  have start : (RouteHistory.run {} earlier).array.table.Keyed :=
    RouteHistory.keyed_run earlier RouteHistory.sound_start.keyed
  have keyed : created.array.table.Keyed := RouteHistory.keyed_step start _
  have new : created.linkStats addr = some {} :=
    RouteHistory.linkStats_created start unknown nowMs heard
  -- The cost in the table is the one after the outcomes so far.
  have shown : ∀ first, first <+: calls →
      ((created.run first).array.table.getNeighbor addr).map NeighborEntry.etxX100 =
        some (statsAfter (outcomes addr first)).etxX100 := by
    rintro first ⟨rest, rfl⟩
    have stats := RouteHistory.linkStats_run keyed new (Along.append.mp keeps).1
    have cost := congrArg (Option.map LinkStats.etxX100) stats
    unfold RouteHistory.linkStats at cost
    rw [Option.map_map] at cost
    exact cost
  refine ⟨(Iff.trans ⟨fun exact_ => ?_, fun exact_ => ?_⟩
    (statsAfter_exact_iff (outcomes addr calls))), fun reports some => ?_⟩
  · intro first part some
    obtain ⟨made, before, rfl⟩ := List.prefix_filterMap_iff.mp part
    exact Option.some.inj ((shown made before).symm.trans (exact_ made before some))
  · intro first part some
    have reported : outcomes addr first <+: outcomes addr calls := part.filterMap _
    rw [shown first part, exact_ _ reported some]
  · obtain ⟨least, most⟩ := exactEtx_bounds some
    exact ⟨least, most, fun worse => exactEtx_mono⟩

/-- Three reports for a neighbour that is heard again in between. -/
theorem link_etx_exact_iff_three_reports :
    let calls : List TimedCall :=
      [⟨1, .reportLinkTx 7 true⟩, ⟨2, .updateNeighbor 7 {}⟩, ⟨3, .reportLinkTx 7 false⟩,
        ⟨4, .reportLinkTx 7 false⟩]
    ((RouteHistory.run ((RouteHistory.run {} []).step ⟨0, .updateNeighbor 7 {}⟩)
      calls).array.table.getNeighbor 7).map NeighborEntry.etxX100 = some 300 := by
  intro calls
  have fits : FitsCounters (outcomes 7 calls) := by
    refine ⟨by decide, fun first part => ?_⟩
    have length : first.length ≤ 3 := part.length_le
    omega
  have cost := (link_etx_exact_iff [] 7 0 {} calls rfl (by decide)).1.mpr fits calls
    List.prefix_rfl (by decide)
  have value : exactEtx (outcomes 7 calls) = 300 := by decide
  rwa [value] at cost

set_option maxRecDepth 100000 in
/-- After 656 failures the quotient is 65600, which is 64 in 16 bits. -/
theorem link_etx_wraps :
    let calls := List.replicate 656 (TimedCall.mk 0 (.reportLinkTx 7 false))
    (RouteHistory.run {} (⟨0, .updateNeighbor 7 {}⟩ :: calls)).linkStats 7 =
        some { txCount := 656, txSuccess := 0, etxX100 := 64 } ∧
      exactEtx (outcomes 7 calls) = 1000 := by
  decide +kernel

end ForestLink.Mesh
