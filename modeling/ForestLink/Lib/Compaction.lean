/-
Module: ForestLink.Lib.Compaction
Purpose: Visiting the elements of an array in order and keeping some of them, in place: each visit
  decides whether the element stays, goes, or stays as the last one that is visited.
Trusted boundary: none
Main exports: Verdict, compact, visits, compact_sublist, compact_mem, compact_keeps,
  compact_comm, compactFrom, compactFrom_eq
-/
import Mathlib.Data.List.Basic

namespace ForestLink.Lib

variable {α κ σ : Type}

/-- What a visit decides: keep the element in this form, drop it, or keep it and stop. -/
inductive Verdict (α : Type) where
  | keep (x : α)
  | drop
  | stop (x : α)
deriving Repr, DecidableEq

/-- The form in which an element stays. -/
def Verdict.kept : Verdict α → Option α
  | .keep x | .stop x => some x
  | .drop => none

variable {visit : σ → α → Verdict α × σ} {elements : List α} {s : σ}

/-- The elements that stay, and the state behind the last visit. -/
def compact (visit : σ → α → Verdict α × σ) : List α → σ → List α × σ
  | [], s => ([], s)
  | x :: rest, s =>
      match visit s x with
      | (.keep y, after) => (y :: (compact visit rest after).1, (compact visit rest after).2)
      | (.drop, after) => compact visit rest after
      | (.stop y, after) => (y :: rest, after)

/-- The visits, with the state before each. -/
def visits (visit : σ → α → Verdict α × σ) : List α → σ → List (σ × α)
  | [], _ => []
  | x :: rest, s =>
      match visit s x with
      | (.keep _, after) | (.drop, after) => (s, x) :: visits visit rest after
      | (.stop _, _) => [(s, x)]

/-! ## What stays -/

/-- Visits leave the key of an element as it is. -/
def KeepsKey (visit : σ → α → Verdict α × σ) (key : α → κ) : Prop :=
  ∀ s x, ∀ y ∈ (visit s x).1.kept, key y = key x

/-- What stays is in the old order. -/
theorem compact_sublist {key : α → κ} (keeps : KeepsKey visit key) (elements : List α) (s : σ) :
    ((compact visit elements s).1.map key).Sublist (elements.map key) := by
  induction elements generalizing s with
  | nil => exact .slnil
  | cons x rest inductionHypothesis =>
      have same := keeps s x
      unfold compact
      split
      · rename_i y after kept
        rw [kept] at same
        rw [List.map_cons, List.map_cons, same y rfl]
        exact (inductionHypothesis after).cons_cons _
      · rename_i after dropped
        exact (inductionHypothesis after).cons _
      · rename_i y after stopped
        rw [stopped] at same
        rw [List.map_cons, List.map_cons, same y rfl]

theorem visits_mem {v : σ × α} (visited : v ∈ visits visit elements s) : v.2 ∈ elements := by
  induction elements generalizing s with
  | nil => exact absurd visited List.not_mem_nil
  | cons x rest inductionHypothesis =>
      unfold visits at visited
      split at visited
      · rcases List.mem_cons.mp visited with rfl | later
        · exact List.mem_cons_self
        · exact List.mem_cons_of_mem x (inductionHypothesis later)
      · rcases List.mem_cons.mp visited with rfl | later
        · exact List.mem_cons_self
        · exact List.mem_cons_of_mem x (inductionHypothesis later)
      · rw [List.mem_singleton.mp visited]
        exact List.mem_cons_self

/-- What stays was not visited, or stays in the form that its visit gave it. -/
theorem compact_mem {y : α} (stays : y ∈ (compact visit elements s).1) :
    y ∈ elements ∨ ∃ v ∈ visits visit elements s, y ∈ (visit v.1 v.2).1.kept := by
  induction elements generalizing s with
  | nil => exact absurd stays List.not_mem_nil
  | cons x rest inductionHypothesis =>
      unfold compact at stays
      unfold visits
      split at stays
      · rename_i z after kept
        rcases List.mem_cons.mp stays with rfl | later
        · exact .inr ⟨(s, x), List.mem_cons_self, by rw [kept]; rfl⟩
        · exact (inductionHypothesis later).imp (List.mem_cons_of_mem x) fun ⟨v, visited, here⟩ =>
            ⟨v, List.mem_cons_of_mem (s, x) visited, here⟩
      · rename_i after dropped
        exact (inductionHypothesis stays).imp (List.mem_cons_of_mem x) fun ⟨v, visited, here⟩ =>
          ⟨v, List.mem_cons_of_mem (s, x) visited, here⟩
      · rename_i z after stopped
        rcases List.mem_cons.mp stays with rfl | later
        · exact .inr ⟨(s, x), List.mem_singleton_self _, by rw [stopped]; rfl⟩
        · exact .inl (List.mem_cons_of_mem x later)

/-- What every visit keeps holds before each visit and behind the last one. -/
theorem compact_keeps (Inv : σ → Prop) (each : ∀ s x, Inv s → Inv (visit s x).2) (holds : Inv s) :
    (∀ v ∈ visits visit elements s, Inv v.1) ∧ Inv (compact visit elements s).2 := by
  induction elements generalizing s with
  | nil => exact ⟨fun _ none => absurd none List.not_mem_nil, holds⟩
  | cons x rest inductionHypothesis =>
      have next := each s x holds
      unfold visits compact
      split
      · rename_i y after kept
        rw [kept] at next
        obtain ⟨before, behind⟩ := inductionHypothesis next
        exact ⟨List.forall_mem_cons.mpr ⟨holds, before⟩, behind⟩
      · rename_i after dropped
        rw [dropped] at next
        obtain ⟨before, behind⟩ := inductionHypothesis next
        exact ⟨List.forall_mem_cons.mpr ⟨holds, before⟩, behind⟩
      · rename_i y after stopped
        rw [stopped] at next
        exact ⟨fun v visited => List.mem_singleton.mp visited ▸ holds, next⟩

/-- Visits that do not see a part of the state do not see it in a row either. -/
theorem compact_comm {f : σ → σ} (blind : ∀ s x, visit (f s) x = ((visit s x).1, f (visit s x).2))
    (elements : List α) (s : σ) :
    compact visit elements (f s) =
      ((compact visit elements s).1, f (compact visit elements s).2) := by
  induction elements generalizing s with
  | nil => rfl
  | cons x rest inductionHypothesis =>
      unfold compact
      rw [blind]
      rcases visit s x with ⟨verdict, after⟩
      cases verdict with
      | keep y =>
          dsimp only
          rw [inductionHypothesis]
      | drop => exact inductionHypothesis after
      | stop y => rfl

/-! ## In place -/

/-- Copy the elements from `source` on to `target` and the places behind it. -/
def moveDown : (count source target : Nat) → List α → List α
  | 0, _, _, cells => cells
  | count + 1, source, target, cells =>
      match cells[source]? with
      | some x => moveDown count (source + 1) (target + 1) (cells.set target x)
      | none => cells

/-- Visit `count` elements from place `i` on; `kept` elements have stayed so far.  Returns how many
stay, the array, and the state. -/
def compactFrom (visit : σ → α → Verdict α × σ) :
    (count i kept : Nat) → List α → σ → Nat × List α × σ
  | 0, _, kept, cells, s => (kept, cells, s)
  | count + 1, i, kept, cells, s =>
      match cells[i]? with
      | none => (kept, cells, s)
      | some x =>
          match visit s x with
          | (.keep y, after) =>
              compactFrom visit count (i + 1) (kept + 1) (cells.set kept y) after
          | (.drop, after) => compactFrom visit count (i + 1) kept cells after
          | (.stop y, after) =>
              (kept + 1 + count, moveDown count (i + 1) (kept + 1) (cells.set kept y), after)

/-- A write to the first place behind `before`. -/
theorem set_behind (before : List α) (gap : List α) (x y : α) (rest : List α) :
    ∃ later, later.length = gap.length ∧
      (before ++ (gap ++ x :: rest)).set before.length y = before ++ [y] ++ (later ++ rest) := by
  cases gap with
  | nil => exact ⟨[], rfl, by simp⟩
  | cons head more => exact ⟨more ++ [x], by simp, by simp⟩

theorem moveDown_eq (before gap moved rest : List α) :
    ∃ behind, moveDown moved.length (before.length + gap.length) before.length
      (before ++ (gap ++ (moved ++ rest))) = before ++ moved ++ behind ∧
        behind.length = gap.length + rest.length := by
  induction moved generalizing before gap with
  | nil => exact ⟨gap ++ rest, by simp [moveDown], by simp⟩
  | cons x more inductionHypothesis =>
      have found : (before ++ (gap ++ (x :: more ++ rest)))[before.length + gap.length]? =
          some x := by simp
      obtain ⟨later, length, written⟩ := set_behind before gap x x (more ++ rest)
      obtain ⟨behind, copied, behindLength⟩ := inductionHypothesis (before ++ [x]) later
      refine ⟨behind, ?_, length ▸ behindLength⟩
      have source : before.length + gap.length + 1 = (before ++ [x]).length + later.length := by
        rw [length, List.length_append, List.length_singleton]
        omega
      have target : before.length + 1 = (before ++ [x]).length := by simp
      rw [List.length_cons, moveDown, found]
      dsimp only
      rw [List.cons_append, written, source, target, copied]
      simp

/-- The array shows what stays behind what had stayed before; its length does not change. -/
theorem compactFrom_eq (visit : σ → α → Verdict α × σ) (before gap todo rest : List α) (s : σ) :
    ∃ behind, compactFrom visit todo.length (before.length + gap.length) before.length
      (before ++ (gap ++ (todo ++ rest))) s =
        (before.length + (compact visit todo s).1.length,
          before ++ (compact visit todo s).1 ++ behind, (compact visit todo s).2) ∧
      before.length + (compact visit todo s).1.length + behind.length =
        before.length + gap.length + todo.length + rest.length := by
  induction todo generalizing before gap s with
  | nil => exact ⟨gap ++ rest, by simp [compactFrom, compact], by simp [compact, Nat.add_assoc]⟩
  | cons x more inductionHypothesis =>
      have found : (before ++ (gap ++ (x :: more ++ rest)))[before.length + gap.length]? =
          some x := by simp
      have step : ∀ {later : List α}, later.length = gap.length → ∀ y : α,
          before.length + gap.length + 1 = (before ++ [y]).length + later.length := by
        intro later length y
        rw [length, List.length_append, List.length_singleton]
        omega
      rw [List.length_cons, compactFrom, found, compact]
      dsimp only
      rcases decided : visit s x with ⟨verdict, after⟩
      cases verdict with
      | keep y =>
          obtain ⟨later, length, written⟩ := set_behind before gap x y (more ++ rest)
          obtain ⟨behind, compacted, count⟩ := inductionHypothesis (before ++ [y]) later after
          have target : before.length + 1 = (before ++ [y]).length := by simp
          refine ⟨behind, ?_, ?_⟩
          · dsimp only
            rw [List.cons_append, written, step length y, target, compacted]
            simp [Nat.add_assoc, Nat.add_comm]
          · rw [List.length_append, List.length_singleton, length] at count
            rw [List.length_cons]
            omega
      | drop =>
          obtain ⟨behind, compacted, count⟩ := inductionHypothesis before (gap ++ [x]) after
          have same : before ++ (gap ++ (x :: more ++ rest)) =
              before ++ (gap ++ [x] ++ (more ++ rest)) := by simp
          have next : before.length + gap.length + 1 = before.length + (gap ++ [x]).length := by
            simp [Nat.add_assoc]
          refine ⟨behind, ?_, ?_⟩
          · dsimp only
            rw [same, next, compacted]
          · dsimp only
            rw [List.length_append, List.length_singleton] at count
            omega
      | stop y =>
          obtain ⟨later, length, written⟩ := set_behind before gap x y (more ++ rest)
          obtain ⟨behind, copied, count⟩ := moveDown_eq (before ++ [y]) later more rest
          have target : before.length + 1 = (before ++ [y]).length := by simp
          refine ⟨behind, ?_, ?_⟩
          · dsimp only
            have total : before.length + 1 + more.length = before.length + (y :: more).length := by
              rw [List.length_cons]
              omega
            rw [List.cons_append, written, step length y, ← total, target, copied]
            simp
          · dsimp only
            rw [List.length_cons]
            omega

end ForestLink.Lib
