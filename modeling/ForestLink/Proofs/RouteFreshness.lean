/-
Module: ForestLink.Proofs.RouteFreshness
Purpose: When the advertisements accepted for one neighbour are fresh, that is never
  older than one accepted from the same origin before.
Trusted boundary: none
Main exports: InetUpdate, acceptedUpdates, Fresh, Forgets, fresh_iff_no_forgotten_origin
-/
import Mathlib.Data.List.Induction
import ForestLink.Proofs.RouteEntries

namespace ForestLink.Mesh.RouteTable

open ForestLink.Lib

/-- The arguments of one `update_inet_route` call for a given neighbour. -/
structure InetUpdate where
  hopsInet : Nat
  seq : Nat
  origin : Nat
deriving Repr, DecidableEq

variable {table : RouteTable} {addr : Nat}

/-! ## A sequence of updates -/

def offer (table : RouteTable) (addr : Nat) (update : InetUpdate) : Bool × RouteTable :=
  table.updateInetRoute addr update.hopsInet update.seq update.origin

def offerAll (table : RouteTable) (addr : Nat) (updates : List InetUpdate) : RouteTable :=
  updates.foldl (fun current update => (current.offer addr update).2) table

/-- The updates that were accepted, in order. -/
def acceptedUpdates (table : RouteTable) (addr : Nat) : List InetUpdate → List InetUpdate
  | [] => []
  | update :: rest =>
      (if (table.offer addr update).1 then [update] else []) ++
        acceptedUpdates (table.offer addr update).2 addr rest

/-- No accepted update is older than one accepted from its origin before. -/
def Fresh (table : RouteTable) (addr : Nat) (updates : List InetUpdate) : Prop :=
  ∀ before update after, updates = before ++ update :: after →
    ∀ earlier ∈ acceptedUpdates table addr before, earlier.origin = update.origin →
      seqNewer earlier.seq update.seq = true →
      ((table.offerAll addr before).offer addr update).1 = false

/-- The table holds a route of another origin than that of the update, has accepted a
newer one of the update's origin before, and finds the update better by the number
or the hops of that other route. -/
def Forgets (table : RouteTable) (addr : Nat) (before : List InetUpdate)
    (update : InetUpdate) : Prop :=
  ∃ entry, (table.offerAll addr before).getNeighbor addr = some entry ∧
    entry.inetOrigin ≠ update.origin ∧
    (∃ earlier ∈ acceptedUpdates table addr before,
      earlier.origin = update.origin ∧ seqNewer earlier.seq update.seq = true) ∧
    (seqNewer update.seq entry.inetSeq = true ∨ update.hopsInet < entry.hopsToInternet)

/-- The numbers of each origin lie within one half of the 16-bit circle. -/
def WithinWindow (updates : List InetUpdate) : Prop :=
  ∃ base : Nat → Nat, ∀ update ∈ updates,
    Serial.offset (2 ^ 15) (base update.origin) update.seq < 2 ^ 15

/-! ## One update -/

theorem offer_iff {update : InetUpdate} :
    (table.offer addr update).1 = true ↔
      ∃ entry accepted, table.getNeighbor addr = some entry ∧
        acceptInetRoute entry update.hopsInet update.seq update.origin = some accepted := by
  unfold offer updateInetRoute
  cases found : table.getNeighbor addr with
  | none => simp
  | some entry =>
      cases taken : acceptInetRoute entry update.hopsInet update.seq update.origin with
      | none => simp [taken]
      | some accepted => simp [taken]

/-- An accepted update is what the table records. -/
theorem getNeighbor_of_offer {update : InetUpdate}
    (accepted : (table.offer addr update).1 = true) :
    ∃ entry, (table.offer addr update).2.getNeighbor addr = some entry ∧
      entry.inetOrigin = update.origin ∧ entry.inetSeq = update.seq := by
  obtain ⟨entry, taken, found, accept⟩ := offer_iff.mp accepted
  have keeps : KeepsAddr addr (takeRoute update.hopsInet update.seq update.origin) :=
    fun entry here => (takeRoute_addr ..).trans here
  refine ⟨taken, ?_, ?_⟩
  · unfold offer
    rw [updateInetRoute_table, getNeighbor_adjust keeps, found]
    simp [takeRoute, accept]
  · rw [(acceptInetRoute_eq_some.mp accept).1]
    exact ⟨rfl, rfl⟩

theorem offer_of_rejected {update : InetUpdate}
    (rejected : (table.offer addr update).1 = false) : (table.offer addr update).2 = table := by
  unfold offer updateInetRoute at rejected ⊢
  split
  · rfl
  · rename_i entry found
    split
    · rfl
    · rename_i accepted taken
      simp [found, taken] at rejected

theorem offerAll_append (before after : List InetUpdate) :
    table.offerAll addr (before ++ after) = (table.offerAll addr before).offerAll addr after :=
  List.foldl_append

theorem acceptedUpdates_append (before after : List InetUpdate) :
    acceptedUpdates table addr (before ++ after) =
      acceptedUpdates table addr before ++
        acceptedUpdates (table.offerAll addr before) addr after := by
  induction before generalizing table with
  | nil => rfl
  | cons update rest inductionHypothesis =>
      rw [List.cons_append, acceptedUpdates, acceptedUpdates, inductionHypothesis,
        List.append_assoc]
      rfl

theorem acceptedUpdates_sublist (updates : List InetUpdate) :
    (acceptedUpdates table addr updates).Sublist updates := by
  induction updates generalizing table with
  | nil => exact List.Sublist.slnil
  | cons update rest inductionHypothesis =>
      rw [acceptedUpdates]
      split
      · exact inductionHypothesis.cons_cons update
      · exact inductionHypothesis.cons update

/-! ## The recorded route -/

/-- Once an update was accepted, the table records an accepted one, and none accepted
from the same origin is further. -/
def Latest (base : Nat → Nat) (table : RouteTable) (addr : Nat)
    (accepted : List InetUpdate) : Prop :=
  accepted ≠ [] →
    ∃ entry, table.getNeighbor addr = some entry ∧
      (∃ record ∈ accepted, record.origin = entry.inetOrigin ∧ record.seq = entry.inetSeq) ∧
      ∀ earlier ∈ accepted, earlier.origin = entry.inetOrigin →
        Serial.offset (2 ^ 15) (base entry.inetOrigin) earlier.seq ≤
          Serial.offset (2 ^ 15) (base entry.inetOrigin) entry.inetSeq

section Window

variable {base : Nat → Nat} {updates : List InetUpdate}
  (inside : ∀ update ∈ updates,
    Serial.offset (2 ^ 15) (base update.origin) update.seq < 2 ^ 15)

include inside

theorem newer_iff_further {a b : InetUpdate} (aInside : a ∈ updates) (bInside : b ∈ updates)
    (same : a.origin = b.origin) :
    seqNewer a.seq b.seq = true ↔
      Serial.offset (2 ^ 15) (base b.origin) b.seq <
        Serial.offset (2 ^ 15) (base b.origin) a.seq :=
  Serial.newer_iff (Nat.two_pow_pos 15) (same ▸ inside a aInside) (inside b bInside)

/-- The first update that is not fresh meets a route of another origin. -/
theorem forgets_of_stale {before after : List InetUpdate} {update earlier : InetUpdate}
    (split : updates = before ++ update :: after)
    (latest : Latest base (table.offerAll addr before) addr
      (acceptedUpdates table addr before))
    (past : earlier ∈ acceptedUpdates table addr before)
    (same : earlier.origin = update.origin)
    (older : seqNewer earlier.seq update.seq = true)
    (taken : ((table.offerAll addr before).offer addr update).1 = true) :
    Forgets table addr before update := by
  have updateIn : update ∈ updates := by simp [split]
  have pastIn : ∀ known ∈ acceptedUpdates table addr before, known ∈ updates := by
    intro known member
    rw [split]
    exact List.mem_append_left _ ((acceptedUpdates_sublist before).subset member)
  obtain ⟨entry, found, ⟨record, recorded, recordOrigin, recordSeq⟩, furthest⟩ :=
    latest (List.ne_nil_of_mem past)
  obtain ⟨known, accepted, here, accept⟩ := offer_iff.mp taken
  obtain rfl := Option.some.inj (found.symm.trans here)
  -- A record of the same origin is at least as far as `earlier`, so it rejects.
  have rejects : entry.inetOrigin = update.origin →
      ¬ (seqNewer update.seq entry.inetSeq = true ∨ update.seq = entry.inetSeq) := by
    intro origin
    have behind := (newer_iff_further inside (pastIn earlier past) updateIn same).mp older
    have ahead := furthest earlier past (same.trans origin.symm)
    rw [origin] at ahead
    rintro (newer | sameSeq)
    · rw [← recordSeq] at newer ahead
      have further := (newer_iff_further inside updateIn (pastIn record recorded)
        (origin.symm.trans recordOrigin.symm)).mp newer
      rw [recordOrigin, origin] at further
      exact absurd (behind.trans_le ahead) (Nat.lt_asymm further)
    · rw [← sameSeq] at ahead
      exact absurd behind (Nat.not_lt.mpr ahead)
  rcases (acceptInetRoute_eq_some.mp accept).2 with
    ⟨origin, newer⟩ | ⟨origin, sameSeq, _⟩ | ⟨apart, better⟩
  · exact absurd (.inl newer) (rejects origin.symm)
  · exact absurd (.inr sameSeq) (rejects origin.symm)
  · exact ⟨entry, found, fun eq => apart eq.symm, ⟨earlier, past, same, older⟩, better⟩

/-- If no update meets a forgotten origin, the record stays the furthest one. -/
theorem latest_offerAll
    (remembers : ∀ before update after, updates = before ++ update :: after →
      ¬ Forgets table addr before update)
    {before after : List InetUpdate} (split : updates = before ++ after) :
    Latest base (table.offerAll addr before) addr (acceptedUpdates table addr before) := by
  induction before using List.reverseRecOn generalizing after with
  | nil => exact fun some => absurd rfl some
  | append_singleton before update inductionHypothesis =>
      have here : updates = before ++ update :: after := by
        rw [split, List.append_assoc]
        rfl
      have latest := inductionHypothesis here
      have updateIn : update ∈ updates := by simp [here]
      have pastIn : ∀ known ∈ acceptedUpdates table addr before, known ∈ updates := by
        intro known member
        rw [here]
        exact List.mem_append_left _ ((acceptedUpdates_sublist before).subset member)
      rw [offerAll_append, acceptedUpdates_append]
      change Latest base ((table.offerAll addr before).offer addr update).2 addr _
      rw [acceptedUpdates, acceptedUpdates, List.append_nil]
      cases taken : ((table.offerAll addr before).offer addr update).1 with
      | false =>
          rw [offer_of_rejected taken]
          simpa using latest
      | true =>
          intro _
          obtain ⟨entry, found, origin, seq⟩ := getNeighbor_of_offer taken
          refine ⟨entry, found, ⟨update, by simp, origin.symm, seq.symm⟩, ?_⟩
          intro earlier member earlierOrigin
          rw [origin] at earlierOrigin
          rcases List.mem_append.mp member with past | now
          · apply Nat.le_of_not_lt
            intro further
            rw [origin, seq] at further
            have older := (newer_iff_further inside (pastIn earlier past) updateIn
              earlierOrigin).mpr further
            exact remembers before update after here
              (forgets_of_stale inside here latest past earlierOrigin older taken)
          · obtain rfl : earlier = update := by simpa using now
            rw [seq]

end Window

/-! ## Freshness -/

/-- The accepted updates are fresh exactly if none of them meets a route of another
origin that made the table forget a newer one. -/
theorem fresh_iff_no_forgotten_origin (table : RouteTable) (addr : Nat)
    (updates : List InetUpdate) (window : WithinWindow updates) :
    Fresh table addr updates ↔
      ∀ before update after, updates = before ++ update :: after →
        ¬ Forgets table addr before update := by
  obtain ⟨base, inside⟩ := window
  constructor
  · rintro fresh before update after split
      ⟨entry, found, apart, ⟨earlier, past, same, older⟩, better⟩
    have rejected := fresh before update after split earlier past same older
    have taken : ((table.offerAll addr before).offer addr update).1 = true :=
      offer_iff.mpr ⟨entry, _, found,
        acceptInetRoute_eq_some.mpr ⟨rfl, .inr (.inr ⟨fun eq => apart eq.symm, better⟩)⟩⟩
    exact Bool.false_ne_true (rejected.symm.trans taken)
  · intro remembers before update after split earlier past same older
    cases taken : ((table.offerAll addr before).offer addr update).1 with
    | false => rfl
    | true =>
        have latest := latest_offerAll inside remembers split
        exact absurd (forgets_of_stale inside split latest past same older taken)
          (remembers before update after split)

/-- A neighbour that was just heard, offered a route of origin 7, one of origin 8 and
an old but shorter one of origin 7. -/
def alternating : List InetUpdate :=
  [{ hopsInet := 3, seq := 10, origin := 7 }, { hopsInet := 3, seq := 11, origin := 8 },
    { hopsInet := 2, seq := 5, origin := 7 }]

def heardOnce : RouteTable := RouteTable.updateNeighbor {} 0 0x1001 {}

theorem alternating_within : WithinWindow alternating :=
  ⟨fun _ => 0, by decide⟩

/-- The stale update of origin 7 is accepted. -/
theorem stale_update_accepted_after_other_origin :
    WithinWindow alternating ∧ ¬ Fresh heardOnce 0x1001 alternating := by
  refine ⟨alternating_within, ?_⟩
  intro fresh
  have rejected := fresh (alternating.take 2) { hopsInet := 2, seq := 5, origin := 7 } []
    (by decide) { hopsInet := 3, seq := 10, origin := 7 } (by decide) rfl (by decide)
  exact absurd rejected (by decide)

/-- A route of origin 7, and an older but shorter one. -/
def sameOrigin : List InetUpdate :=
  [{ hopsInet := 3, seq := 10, origin := 7 }, { hopsInet := 1, seq := 9, origin := 7 }]

/-- With a single origin nothing is forgotten. -/
theorem fresh_single_origin :
    WithinWindow sameOrigin ∧ Fresh heardOnce 0x1001 sameOrigin := by
  have window : WithinWindow sameOrigin := ⟨fun _ => 0, by decide⟩
  refine ⟨window, (fresh_iff_no_forgotten_origin heardOnce 0x1001 sameOrigin window).mpr ?_⟩
  rintro before update after split ⟨entry, found, apart, ⟨earlier, past, _, _⟩, _⟩
  have origins : ∀ offered ∈ sameOrigin, offered.origin = 7 := by decide
  have mine : update.origin = 7 := origins update (by rw [split]; simp)
  obtain ⟨record, recorded⟩ : ∃ entry : NeighborEntry, (heardOnce.offerAll 0x1001
      (sameOrigin.take 1)).getNeighbor 0x1001 = some entry ∧ entry.inetOrigin = 7 :=
    ⟨_, rfl, rfl⟩
  match before, split with
  | [], _ => exact absurd past List.not_mem_nil
  | [first], split =>
      obtain ⟨rfl, _⟩ := List.cons.inj split
      obtain rfl := Option.some.inj (found.symm.trans recorded.1)
      exact apart (recorded.2.trans mine.symm)
  | first :: second :: rest, split =>
      have sizes := congrArg List.length split
      simp [sameOrigin] at sizes

end ForestLink.Mesh.RouteTable
