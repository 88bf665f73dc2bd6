/-
Module: ForestLink.Lib.FirstSeen
Purpose: Loops that append an item unless its key has been seen, and what they have collected in
  the end.
Trusted boundary: none
Main exports: Collector, Collector.offer, Collector.collect, Collector.Collected,
  Collector.collected
-/
import Mathlib.Data.List.Nodup

namespace ForestLink.Lib

/-- The keys that were seen and the items that were kept. -/
structure Collector (α κ : Type*) where
  seen : List κ
  kept : List α

namespace Collector

variable {α κ : Type*} {key : α → κ} {c : Collector α κ}

/-- Out of `items` the items `fresh` were kept: one for each key that had not been seen. -/
structure Collected (key : α → κ) (c : Collector α κ) (items fresh : List α)
    (after : Collector α κ) : Prop where
  kept : after.kept = c.kept ++ fresh
  fromItems : ∀ item ∈ fresh, item ∈ items
  distinct : (fresh.map key).Nodup
  keys : ∀ k, k ∈ fresh.map key ↔ k ∈ items.map key ∧ k ∉ c.seen
  seen : ∀ k, k ∈ after.seen ↔ k ∈ c.seen ∨ k ∈ items.map key

/-- An item of a key that was seen changes nothing. -/
theorem Collected.skip {item : α} {items fresh : List α} {after : Collector α κ}
    (known : key item ∈ c.seen) (collected : Collected key c items fresh after) :
    Collected key c (item :: items) fresh after where
  kept := collected.kept
  fromItems := fun other member => List.mem_cons_of_mem item (collected.fromItems other member)
  distinct := collected.distinct
  keys := fun k => by
    rw [collected.keys, List.map_cons, List.mem_cons]
    constructor
    · rintro ⟨member, new⟩
      exact ⟨.inr member, new⟩
    · rintro ⟨rfl | member, new⟩
      · exact absurd known new
      · exact ⟨member, new⟩
  seen := fun k => by
    rw [collected.seen, List.map_cons, List.mem_cons]
    constructor
    · exact fun known => known.imp id .inr
    · rintro (before | rfl | member)
      · exact .inl before
      · exact .inl known
      · exact .inr member

/-- The first item of a key is kept, and none of that key behind it. -/
theorem Collected.keep {item : α} {items fresh : List α} {after : Collector α κ}
    (new : key item ∉ c.seen)
    (collected : Collected key ⟨key item :: c.seen, c.kept ++ [item]⟩ items fresh after) :
    Collected key c (item :: items) (item :: fresh) after where
  kept := by rw [collected.kept, List.append_assoc, List.singleton_append]
  fromItems := fun other member => by
    rcases List.mem_cons.mp member with rfl | behind
    · exact List.mem_cons_self
    · exact List.mem_cons_of_mem item (collected.fromItems other behind)
  distinct := by
    refine List.nodup_cons.mpr ⟨fun again => ?_, collected.distinct⟩
    exact ((collected.keys _).mp again).2 List.mem_cons_self
  keys := fun k => by
    rw [List.map_cons, List.map_cons, List.mem_cons, List.mem_cons, collected.keys]
    by_cases own : k = key item
    · rw [own]
      exact iff_of_true (.inl rfl) ⟨.inl rfl, new⟩
    · simp [own]
  seen := fun k => by
    rw [collected.seen, List.map_cons, List.mem_cons, List.mem_cons]
    exact ⟨fun known => known.elim (·.elim (.inr ∘ .inl) .inl) (.inr ∘ .inr),
      fun known => known.elim (.inl ∘ .inr) (·.elim (.inl ∘ .inl) .inr)⟩

variable [DecidableEq κ]

/-- An item is kept if it is the first one of its key. -/
def offer (key : α → κ) (c : Collector α κ) (item : α) : Collector α κ :=
  if key item ∈ c.seen then c else ⟨key item :: c.seen, c.kept ++ [item]⟩

/-- All items are offered in turn. -/
def collect (key : α → κ) (c : Collector α κ) (items : List α) : Collector α κ :=
  items.foldl (offer key) c

/-- Every loop keeps one item for each key that it meets first. -/
theorem collected (key : α → κ) (c : Collector α κ) (items : List α) :
    ∃ fresh, Collected key c items fresh (c.collect key items) := by
  induction items generalizing c with
  | nil =>
      refine ⟨[], (List.append_nil _).symm, fun _ none => absurd none List.not_mem_nil,
        List.nodup_nil, fun k => ?_, fun k => ?_⟩
      · simp
      · exact (or_iff_left List.not_mem_nil).symm
  | cons item rest inductionHypothesis =>
      unfold collect
      rw [List.foldl_cons, offer]
      split
      · rename_i known
        obtain ⟨fresh, collected⟩ := inductionHypothesis c
        exact ⟨fresh, collected.skip known⟩
      · rename_i new
        obtain ⟨fresh, collected⟩ := inductionHypothesis ⟨key item :: c.seen, c.kept ++ [item]⟩
        exact ⟨item :: fresh, collected.keep new⟩

end Collector

end ForestLink.Lib
