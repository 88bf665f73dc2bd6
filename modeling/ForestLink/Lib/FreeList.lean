/-
Module: ForestLink.Lib.FreeList
Purpose: Intrusive singly linked lists: the cells a link chain runs through, and what
  pushing, popping and writing links do to it.
Trusted boundary: none
Main exports: Chain, Chain.unique, Chain.push, Chain.pop, Chain.frame, Chain.suffix
-/
import Mathlib.Logic.Function.Basic
import Mathlib.Data.List.Nodup

namespace ForestLink.Lib

variable {α : Type*}

/-- Starting at `head`, the links run through exactly the cells of the list. -/
inductive Chain (next : α → Option α) : Option α → List α → Prop
  | nil : Chain next none []
  | cons {cell : α} {rest : List α} (tail : Chain next (next cell) rest) :
      Chain next (some cell) (cell :: rest)

namespace Chain

variable {next : α → Option α} {head : Option α} {cells other : List α} {cell : α}

/-- The links determine the cells. -/
theorem unique (chain : Chain next head cells) (second : Chain next head other) :
    cells = other := by
  induction chain generalizing other with
  | nil =>
      cases second with
      | nil => rfl
  | cons tail inductionHypothesis =>
      cases second with
      | cons secondTail => rw [inductionHypothesis secondTail]

theorem head_none_iff (chain : Chain next head cells) : head = none ↔ cells = [] := by
  cases chain with
  | nil => exact ⟨fun _ => rfl, fun _ => rfl⟩
  | cons tail => exact ⟨fun none => absurd none (by simp), fun nil => absurd nil (by simp)⟩

/-- What lies behind the first cell. -/
theorem pop (chain : Chain next (some cell) cells) :
    ∃ rest, cells = cell :: rest ∧ Chain next (next cell) rest := by
  cases chain with
  | cons tail => exact ⟨_, rfl, tail⟩

/-- Behind each cell of a chain runs a chain of the cells that follow it. -/
theorem suffix (chain : Chain next head cells) (member : cell ∈ cells) :
    ∃ rest, Chain next (some cell) (cell :: rest) ∧ (cell :: rest) <:+ cells := by
  induction chain with
  | nil => exact absurd member List.not_mem_nil
  | cons tail inductionHypothesis =>
      rcases List.mem_cons.mp member with rfl | behind
      · exact ⟨_, tail.cons, List.suffix_rfl⟩
      · obtain ⟨rest, here, suffix⟩ := inductionHypothesis behind
        exact ⟨rest, here, suffix.trans (List.suffix_cons ..)⟩

/-- A cell from outside that links to the old head becomes the new head. -/
theorem push (chain : Chain next head cells) (linked : next cell = head) :
    Chain next (some cell) (cell :: cells) :=
  .cons (linked ▸ chain)

variable [DecidableEq α]

/-- Whether the links run through given cells can be followed cell by cell. -/
instance decidable (next : α → Option α) :
    (head : Option α) → (cells : List α) → Decidable (Chain next head cells)
  | none, [] => .isTrue .nil
  | none, _ :: _ => .isFalse nofun
  | some _, [] => .isFalse nofun
  | some first, cell :: rest =>
      if same : first = cell then
        match decidable next (next cell) rest with
        | .isTrue tail => .isTrue (by rw [same]; exact .cons tail)
        | .isFalse broken => .isFalse fun chain => by
            obtain ⟨_, here, tail⟩ := (same ▸ chain).pop
            exact broken ((List.cons.inj here).2 ▸ tail)
      else .isFalse fun chain => by
        obtain ⟨_, here, _⟩ := chain.pop
        exact same (List.cons.inj here).1.symm

/-- Links of cells outside do not matter. -/
theorem frame (chain : Chain next head cells) (outside : cell ∉ cells)
    (link : Option α) : Chain (Function.update next cell link) head cells := by
  induction chain with
  | nil => exact .nil
  | @cons first rest tail inductionHypothesis =>
      have apart : first ≠ cell := fun eq => outside (eq ▸ List.mem_cons_self)
      have behind := inductionHypothesis fun member => outside (List.mem_cons_of_mem _ member)
      apply Chain.cons
      rw [Function.update_of_ne apart]
      exact behind

end Chain

end ForestLink.Lib
