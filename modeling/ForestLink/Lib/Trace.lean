/-
Module: ForestLink.Lib.Trace
Purpose: Newest-first traces that only grow, with what is known of their new entries, state
  changes of known kinds one after the other, runs whose every action is allowed, and work
  that only some actions of a run move on.
Trusted boundary: none
Main exports: Extends, Extends.trans, Extends.recent, Via, Via.trans, Via.foldl, Via.keeps,
  Along, Along.keeps, Paced, Paced.run
-/
import Mathlib.Data.List.Basic

namespace ForestLink.Lib

/-- The trace `after` continues `before`, and every new entry satisfies `P`. -/
def Extends {α : Type*} (P : α → Prop) (before after : List α) : Prop :=
  ∃ recent, after = recent ++ before ∧ ∀ entry ∈ recent, P entry

namespace Extends

variable {α β : Type*} {P Q : α → Prop} {before middle after : List α}

theorem refl (P : α → Prop) (trace : List α) : Extends P trace trace :=
  ⟨[], rfl, fun _ none => absurd none List.not_mem_nil⟩

theorem cons {entry : α} (holds : P entry) (trace : List α) :
    Extends P trace (entry :: trace) :=
  ⟨[entry], rfl, fun _ here => List.mem_singleton.mp here ▸ holds⟩

theorem trans (first : Extends P before middle) (second : Extends P middle after) :
    Extends P before after := by
  obtain ⟨early, rfl, earlyHolds⟩ := first
  obtain ⟨late, rfl, lateHolds⟩ := second
  refine ⟨late ++ early, (List.append_assoc ..).symm, ?_⟩
  intro entry member
  rcases List.mem_append.mp member with here | here
  · exact lateHolds entry here
  · exact earlyHolds entry here

theorem mono (weaker : ∀ entry, P entry → Q entry) (extends_ : Extends P before after) :
    Extends Q before after := by
  obtain ⟨recent, eq, holds⟩ := extends_
  exact ⟨recent, eq, fun entry member => weaker entry (holds entry member)⟩

/-- The new entries of a trace, cut off by length. -/
theorem recent_append (recent before : List α) :
    (recent ++ before).take ((recent ++ before).length - before.length) = recent := by
  rw [List.length_append, Nat.add_sub_cancel, List.take_left]

theorem recent (extends_ : Extends P before after) :
    ∀ entry ∈ after.take (after.length - before.length), P entry := by
  obtain ⟨recent, rfl, holds⟩ := extends_
  rw [recent_append]
  exact holds

end Extends

/-- `after` is reached from `before` by changes that are all allowed. -/
def Via {σ κ : Type*} (apply : σ → κ → σ) (allowed : κ → Prop) (before after : σ) : Prop :=
  ∃ changes : List κ, after = changes.foldl apply before ∧ ∀ change ∈ changes, allowed change

namespace Via

variable {σ κ : Type*} {apply : σ → κ → σ} {allowed wider : κ → Prop} {before middle after : σ}

theorem refl (apply : σ → κ → σ) (allowed : κ → Prop) (state : σ) :
    Via apply allowed state state :=
  ⟨[], rfl, fun _ none => absurd none List.not_mem_nil⟩

theorem one {change : κ} (permitted : allowed change) :
    Via apply allowed before (apply before change) :=
  ⟨[change], rfl, fun _ here => List.mem_singleton.mp here ▸ permitted⟩

theorem trans (first : Via apply allowed before middle) (second : Via apply allowed middle after) :
    Via apply allowed before after := by
  obtain ⟨early, rfl, earlyAllowed⟩ := first
  obtain ⟨late, rfl, lateAllowed⟩ := second
  refine ⟨early ++ late, (List.foldl_append ..).symm, ?_⟩
  intro change member
  rcases List.mem_append.mp member with here | here
  · exact earlyAllowed change here
  · exact lateAllowed change here

theorem mono (weaker : ∀ change, allowed change → wider change)
    (via : Via apply allowed before after) : Via apply wider before after := by
  obtain ⟨changes, eq, permitted⟩ := via
  exact ⟨changes, eq, fun change member => weaker change (permitted change member)⟩

/-- What every allowed change keeps, all of them keep. -/
theorem keeps (via : Via apply allowed before after) (Inv : σ → Prop)
    (each : ∀ state change, allowed change → Inv state → Inv (apply state change))
    (holds : Inv before) : Inv after := by
  obtain ⟨changes, rfl, permitted⟩ := via
  induction changes generalizing before with
  | nil => exact holds
  | cons change rest inductionHypothesis =>
      have here := each before change (permitted change List.mem_cons_self) holds
      exact inductionHypothesis here fun later member =>
        permitted later (List.mem_cons_of_mem _ member)

/-- Acting on one item after the other; every act starts from a state that the changes so
far have led to. -/
theorem foldl {α : Type*} {act : σ → α → σ} {items : List α}
    (each : ∀ middle, Via apply allowed before middle → ∀ item ∈ items,
      Via apply allowed middle (act middle item)) :
    Via apply allowed before (items.foldl act before) := by
  induction items generalizing before with
  | nil => exact refl ..
  | cons item rest inductionHypothesis =>
      have first := each before (refl ..) item List.mem_cons_self
      apply first.trans
      apply inductionHypothesis
      intro middle reached later member
      exact each middle (first.trans reached) later (List.mem_cons_of_mem _ member)

end Via

/-- Every action of the run is allowed in the state that it is taken in. -/
def Along {σ α : Type*} (step : σ → α → σ) (allowed : σ → α → Prop) : σ → List α → Prop
  | _, [] => True
  | state, action :: rest => allowed state action ∧ Along step allowed (step state action) rest

namespace Along

variable {σ α : Type*} {step : σ → α → σ} {allowed : σ → α → Prop} {state : σ}
  {actions : List α}

instance decidable [(state : σ) → (action : α) → Decidable (allowed state action)] :
    (state : σ) → (actions : List α) → Decidable (Along step allowed state actions)
  | _, [] => inferInstanceAs (Decidable True)
  | state, action :: rest =>
      have := decidable (step state action) rest
      inferInstanceAs (Decidable
        (allowed state action ∧ Along step allowed (step state action) rest))

theorem append {later : List α} :
    Along step allowed state (actions ++ later) ↔
      Along step allowed state actions ∧
        Along step allowed (actions.foldl step state) later := by
  induction actions generalizing state with
  | nil => simp [Along]
  | cons action rest inductionHypothesis =>
      exact (and_congr_right fun _ => inductionHypothesis).trans and_assoc.symm

/-- What every allowed action keeps, the run keeps. -/
theorem keeps (Inv : σ → Prop)
    (each : ∀ state action, allowed state action → Inv state → Inv (step state action))
    (along : Along step allowed state actions) (holds : Inv state) :
    Inv (actions.foldl step state) := by
  induction actions generalizing state with
  | nil => exact holds
  | cons action rest inductionHypothesis =>
      exact inductionHypothesis along.2 (each state action along.1 holds)

end Along

/-- A state may be at work on an item.  The work's own actions make one step each wherever
`ahead` lets them, and the other actions leave it where it is. -/
structure Paced {σ α β : Type*} (step : σ → α → σ) (work : σ → Option (β × Nat))
    (own : α → Bool) (ahead : Nat → Prop) : Prop where
  moves : ∀ {state action item k}, work state = some (item, k) → own action = true →
    ahead k → work (step state action) = some (item, k + 1)
  waits : ∀ {state action}, work state ≠ none → own action = false →
    work (step state action) = work state

/-- Whatever happens meanwhile, the work is as many steps further as it had actions. -/
theorem Paced.run {σ α β : Type*} {step : σ → α → σ} {work : σ → Option (β × Nat)}
    {own : α → Bool} {ahead : Nat → Prop} (paced : Paced step work own ahead) {state : σ}
    {actions : List α} {item : β} {k : Nat} (here : work state = some (item, k))
    (free : ∀ j, k ≤ j → j < k + actions.countP own → ahead j) :
    work (actions.foldl step state) = some (item, k + actions.countP own) := by
  induction actions generalizing state k with
  | nil => exact here
  | cons action rest inductionHypothesis =>
      rw [List.countP_cons] at free ⊢
      cases mine : own action with
      | true =>
          rw [mine, if_pos rfl] at free
          rw [if_pos rfl, ← Nat.add_assoc, Nat.add_right_comm]
          apply inductionHypothesis (paced.moves here mine (free k (Nat.le_refl k) (by omega)))
          exact fun j after before => free j (by omega) (by omega)
      | false =>
          rw [mine, if_neg Bool.false_ne_true] at free
          rw [if_neg Bool.false_ne_true]
          have busy : work state ≠ none := by
            rw [here]
            exact Option.some_ne_none _
          exact inductionHypothesis ((paced.waits busy mine).trans here) free

end ForestLink.Lib
