/-
Module: ForestLink.Lib.DescendingSort
Purpose: Insertion sort of an array in place, by descending key: it computes the stable sort, and
  the elements above a bound are the first ones of the result.
Trusted boundary: none
Main exports: descending, insertBehind, settle, sortInPlace, sortInPlace_eq, descending_stable,
  filter_eq_take_of_descending
-/
import Mathlib.Data.List.Induction
import Mathlib.Data.List.Sort

namespace ForestLink.Lib

variable {α κ : Type} [LinearOrder κ] {key : α → κ} {x gap : α} {sorted rest : List α}

/-! ## The sorted list -/

/-- By descending key, equal keys in the given order. -/
def descending (key : α → κ) (elements : List α) : List α :=
  elements.insertionSort fun a b => key b ≤ key a

theorem descending_perm (key : α → κ) (elements : List α) :
    (descending key elements).Perm elements :=
  List.perm_insertionSort ..

theorem descending_total (key : α → κ) : Std.Total fun a b : α => key b ≤ key a :=
  ⟨fun a b => le_total (key b) (key a)⟩

theorem descending_trans (key : α → κ) : IsTrans α fun a b : α => key b ≤ key a :=
  ⟨fun _ _ _ first second => second.trans first⟩

theorem descending_pairwise (key : α → κ) (elements : List α) :
    (descending key elements).Pairwise fun a b => key b ≤ key a := by
  have total := descending_total key
  have trans := descending_trans key
  exact List.pairwise_insertionSort _ elements

/-- Elements of one key keep their order. -/
theorem descending_stable (key : α → κ) (elements : List α) (k : κ) :
    (descending key elements).filter (fun a => key a = k) =
      elements.filter fun a => key a = k := by
  have same : (elements.filter fun a => key a = k).Pairwise fun a b => key b ≤ key a := by
    apply List.pairwise_of_forall_mem_list
    intro a here b there
    have one := of_decide_eq_true (List.mem_filter.mp here).2
    have other := of_decide_eq_true (List.mem_filter.mp there).2
    exact le_of_eq (other.trans one.symm)
  have total := descending_total key
  have trans := descending_trans key
  have inside := List.sublist_insertionSort same List.filter_sublist
  have filtered := inside.filter fun a => key a = k
  simp only [List.filter_filter, Bool.and_self] at filtered
  exact (filtered.eq_of_length ((descending_perm key elements).symm.filter _).length_eq).symm

/-- The elements of a descending list above a bound are its first ones. -/
theorem filter_eq_take_of_descending {elements : List α}
    (ordered : elements.Pairwise fun a b => key b ≤ key a) (bound : κ) :
    elements.filter (fun a => bound ≤ key a) =
      elements.take (elements.countP fun a => bound ≤ key a) := by
  induction elements with
  | nil => rfl
  | cons head rest inductionHypothesis =>
      obtain ⟨below, ordered⟩ := List.pairwise_cons.mp ordered
      by_cases above : bound ≤ key head
      · rw [List.filter_cons_of_pos (by simpa using above),
          List.countP_cons_of_pos (by simpa using above), List.take_succ_cons,
          inductionHypothesis ordered]
      · have none : rest.countP (fun a => bound ≤ key a) = 0 := by
          rw [List.countP_eq_zero]
          intro a member reached
          exact above ((of_decide_eq_true reached).trans (below a member))
        rw [List.filter_cons_of_neg (by simpa using above), inductionHypothesis ordered,
          List.countP_cons_of_neg (by simpa using above), none, List.take_zero, List.take_zero]

/-! ## Insertion from the left -/

/-- Insert an element behind all that have no smaller key. -/
def insertBehind (key : α → κ) (x : α) : List α → List α
  | [] => [x]
  | y :: rest => if key y < key x then x :: y :: rest else y :: insertBehind key x rest

/-- An earlier and a later element find the same places in either order. -/
theorem insertBehind_orderedInsert (key : α → κ) (x a : α) (elements : List α) :
    insertBehind key x (elements.orderedInsert (fun a b => key b ≤ key a) a) =
      (insertBehind key x elements).orderedInsert (fun a b => key b ≤ key a) a := by
  induction elements with
  | nil =>
      unfold insertBehind
      by_cases smaller : key a < key x
      · simp [smaller, not_le.mpr smaller]
      · simp [insertBehind, smaller, not_lt.mp smaller]
  | cons y rest inductionHypothesis =>
      rw [List.orderedInsert_cons]
      by_cases first : key y ≤ key a
      · rw [if_pos first]
        by_cases front : key a < key x
        · -- `x` goes in front of `a`, which goes in front of `y`.
          have before : key y < key x := lt_of_le_of_lt first front
          simp [insertBehind, front, before, not_le.mpr front, first]
        · by_cases middle : key y < key x
          · simp [insertBehind, front, middle, not_lt.mp front]
          · simp [insertBehind, front, middle, first]
      · rw [if_neg first]
        by_cases front : key y < key x
        · have last : key a < key x := (not_le.mp first).trans front
          simp [insertBehind, front, not_le.mpr last, first]
        · simp [insertBehind, front, first, inductionHypothesis]

/-- Inserting the elements from the left to the right sorts them. -/
theorem foldl_insertBehind (key : α → κ) (elements : List α) :
    elements.foldl (fun sorted x => insertBehind key x sorted) [] = descending key elements := by
  have behind : ∀ (later sorted : List α) (a : α),
      later.foldl (fun sorted x => insertBehind key x sorted)
          (sorted.orderedInsert (fun a b => key b ≤ key a) a) =
        (later.foldl (fun sorted x => insertBehind key x sorted) sorted).orderedInsert
          (fun a b => key b ≤ key a) a := by
    intro later
    induction later with
    | nil => exact fun _ _ => rfl
    | cons x rest inductionHypothesis =>
        intro sorted a
        rw [List.foldl_cons, insertBehind_orderedInsert, inductionHypothesis]
        rfl
  induction elements with
  | nil => rfl
  | cons a rest inductionHypothesis =>
      have first := behind rest [] a
      rw [inductionHypothesis] at first
      exact first

/-! ## In place -/

/-- Move the elements of smaller key in front of a gap up by one place, and write `x` into the
gap that they leave. -/
def settle (key : α → κ) (x : α) : Nat → List α → List α
  | 0, cells => cells.set 0 x
  | gap + 1, cells =>
      match cells[gap]? with
      | some y =>
          if key y < key x then settle key x gap (cells.set (gap + 1) y)
          else cells.set (gap + 1) x
      | none => cells

/-- The round of the outer loop for one place. -/
def settleAt (key : α → κ) (cells : List α) (i : Nat) : List α :=
  match cells[i]? with
  | some x => settle key x i cells
  | none => cells

/-- Insertion sort in place. -/
def sortInPlace (key : α → κ) (cells : List α) : List α :=
  (List.range' 1 (cells.length - 1)).foldl (settleAt key) cells

theorem insertBehind_concat {y : α} (smaller : key y < key x) (elements : List α) :
    insertBehind key x (elements ++ [y]) = insertBehind key x elements ++ [y] := by
  induction elements with
  | nil => simp [insertBehind, smaller]
  | cons head rest inductionHypothesis =>
      unfold insertBehind
      rw [List.cons_append]
      dsimp only
      split
      · rfl
      · rw [inductionHypothesis]
        rfl

theorem insertBehind_of_forall {elements : List α} (larger : ∀ y ∈ elements, key x ≤ key y) :
    insertBehind key x elements = elements ++ [x] := by
  induction elements with
  | nil => rfl
  | cons head rest inductionHypothesis =>
      obtain ⟨here, later⟩ := List.forall_mem_cons.mp larger
      unfold insertBehind
      rw [if_neg (not_lt.mpr here), inductionHypothesis later]
      rfl

/-- The inner loop inserts the element into the descending part in front of the gap. -/
theorem settle_eq (ordered : sorted.Pairwise fun a b => key b ≤ key a) :
    settle key x sorted.length (sorted ++ gap :: rest) = insertBehind key x sorted ++ rest := by
  induction sorted using List.reverseRecOn generalizing gap rest with
  | nil => rfl
  | append_singleton front y inductionHypothesis =>
      obtain ⟨ordered, _, below⟩ := List.pairwise_append.mp ordered
      have last : (front ++ [y] ++ gap :: rest)[front.length]? = some y := by simp
      rw [List.length_append, List.length_singleton]
      unfold settle
      rw [last]
      dsimp only
      by_cases smaller : key y < key x
      · have moved : (front ++ [y] ++ gap :: rest).set (front.length + 1) y =
            front ++ y :: (y :: rest) := by simp
        rw [if_pos smaller, moved, inductionHypothesis ordered, insertBehind_concat smaller]
        simp
      · have larger : ∀ z ∈ front ++ [y], key x ≤ key z := by
          intro z member
          rcases List.mem_append.mp member with earlier | here
          · exact (not_lt.mp smaller).trans (below z earlier y (List.mem_singleton_self y))
          · exact List.mem_singleton.mp here ▸ not_lt.mp smaller
        rw [if_neg smaller, insertBehind_of_forall larger]
        simp

theorem descending_concat (key : α → κ) (elements : List α) (x : α) :
    descending key (elements ++ [x]) = insertBehind key x (descending key elements) := by
  rw [← foldl_insertBehind, ← foldl_insertBehind, List.foldl_concat]

/-- After some rounds the elements in front are in order, the others are as they were. -/
theorem settleAt_rounds (key : α → κ) (cells : List α) {rounds : Nat}
    (inside : rounds < cells.length) :
    (List.range' 1 rounds).foldl (settleAt key) cells =
      descending key (cells.take (rounds + 1)) ++ cells.drop (rounds + 1) := by
  induction rounds with
  | zero =>
      cases cells with
      | nil => exact absurd inside (Nat.not_lt_zero 0)
      | cons head rest => rfl
  | succ rounds inductionHypothesis =>
      have length : (descending key (cells.take (rounds + 1))).length = rounds + 1 := by
        rw [(descending_perm ..).length_eq, List.length_take]
        omega
      have split : cells.drop (rounds + 1) = cells[rounds + 1] :: cells.drop (rounds + 2) :=
        List.drop_eq_getElem_cons inside
      have next : cells.take (rounds + 2) = cells.take (rounds + 1) ++ [cells[rounds + 1]] :=
        List.take_succ_eq_append_getElem inside
      rw [List.range'_concat, List.foldl_concat, inductionHypothesis (by omega), split, next,
        descending_concat]
      have found : (descending key (cells.take (rounds + 1)) ++
          cells[rounds + 1] :: cells.drop (rounds + 2))[1 + 1 * rounds]? =
            some cells[rounds + 1] := by
        rw [List.getElem?_append_right (by omega), length]
        have first : 1 + 1 * rounds - (rounds + 1) = 0 := by omega
        rw [first, List.getElem?_cons_zero]
      unfold settleAt
      rw [found]
      dsimp only
      have place : 1 + 1 * rounds = (descending key (cells.take (rounds + 1))).length := by omega
      rw [place, settle_eq (descending_pairwise ..)]

/-- Insertion sort in place computes the stable sort. -/
theorem sortInPlace_eq (key : α → κ) (cells : List α) :
    sortInPlace key cells = descending key cells := by
  cases cells with
  | nil => rfl
  | cons head rest =>
      unfold sortInPlace
      rw [settleAt_rounds key _ (by simp)]
      simp

end ForestLink.Lib
