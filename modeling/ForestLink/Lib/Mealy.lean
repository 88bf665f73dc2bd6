/-
Module: ForestLink.Lib.Mealy
Purpose: Machines that read one symbol at a time and may answer each of them.
Trusted boundary: none
Main exports: Mealy.feed, Mealy.feed_append, Mealy.feed_keeps, Mealy.feed_blocks,
  Mealy.feed_potential
-/
import Mathlib.Algebra.BigOperators.Group.List.Basic
import Mathlib.Algebra.GroupWithZero.Nat
import Mathlib.Algebra.Order.Group.Nat

namespace ForestLink.Lib.Mealy

variable {σ α β : Type*} (step : σ → α → σ × Option β)

/-- Feed the symbols one by one and collect the answers. -/
def feed : σ → List α → σ × List β
  | state, [] => (state, [])
  | state, symbol :: rest =>
      let next := step state symbol
      let later := feed next.1 rest
      (later.1, next.2.toList ++ later.2)

@[simp] theorem feed_nil (state : σ) : feed step state [] = (state, []) := rfl

theorem feed_append (state : σ) (front back : List α) :
    feed step state (front ++ back) =
      ((feed step (feed step state front).1 back).1,
        (feed step state front).2 ++ (feed step (feed step state front).1 back).2) := by
  induction front generalizing state with
  | nil => rfl
  | cons symbol rest inductionHypothesis =>
      rw [List.cons_append, feed, inductionHypothesis]
      simp [feed]

variable {step}

/-- What every step keeps holds behind any symbols. -/
theorem feed_keeps {Inv : σ → Prop} (each : ∀ state symbol, Inv state → Inv (step state symbol).1)
    {state : σ} (holds : Inv state) (symbols : List α) : Inv (feed step state symbols).1 := by
  induction symbols generalizing state with
  | nil => exact holds
  | cons symbol rest inductionHypothesis => exact inductionHypothesis (each state symbol holds)

/-- Blocks that lead from rest to rest are answered one after the other. -/
theorem feed_blocks {γ : Type*} {Rest : σ → Prop} (block : γ → List α) (answer : γ → β)
    {items : List γ}
    (each : ∀ item ∈ items, ∀ state, Rest state →
      Rest (feed step state (block item)).1 ∧ (feed step state (block item)).2 = [answer item])
    {state : σ} (rest : Rest state) :
    Rest (feed step state (items.flatMap block)).1 ∧
      (feed step state (items.flatMap block)).2 = items.map answer := by
  induction items generalizing state with
  | nil => exact ⟨rest, rfl⟩
  | cons item later inductionHypothesis =>
      obtain ⟨here, answered⟩ := each item List.mem_cons_self state rest
      obtain ⟨there, laterAnswered⟩ := inductionHypothesis
        (fun other member => each other (List.mem_cons_of_mem _ member)) here
      rw [List.flatMap_cons, feed_append]
      refine ⟨there, ?_⟩
      rw [answered, laterAnswered]
      rfl

/-- If every symbol brings one unit and an answer costs what has been saved, the answers cost
no more than the symbols brought. -/
theorem feed_potential {Inv : σ → Prop} (credit : σ → Nat) (cost : β → Nat)
    (keeps : ∀ state symbol, Inv state → Inv (step state symbol).1)
    (pays : ∀ state symbol, Inv state →
      ((step state symbol).2.toList.map cost).sum + credit (step state symbol).1 ≤
        credit state + 1)
    {state : σ} (holds : Inv state) (symbols : List α) :
    ((feed step state symbols).2.map cost).sum + credit (feed step state symbols).1 ≤
      credit state + symbols.length := by
  induction symbols generalizing state with
  | nil => simp
  | cons symbol rest inductionHypothesis =>
      have now := pays state symbol holds
      have later := inductionHypothesis (keeps state symbol holds)
      rw [feed, List.map_append, List.sum_append, List.length_cons]
      dsimp only at later ⊢
      omega

end ForestLink.Lib.Mealy
