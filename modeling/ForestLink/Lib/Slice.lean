/-
Module: ForestLink.Lib.Slice
Purpose: Slices over a shared backing array.  A slice header names how much of
  the array is visible; two headers of different length can name one array, and
  a write through one of them is seen by the other.
Trusted boundary: none
Main exports: Slice, Slice.view, Slice.store, Slice.reslice?, Slice.append,
  Slice.filterInPlace, Slice.mapInPlace, overwrite, Slice.cells_filterInPlace,
  Slice.Rearranges
-/
import Mathlib.Data.List.Basic

namespace ForestLink.Lib

/-- A backing array and the length of the header that looks at it from cell 0. -/
structure Slice (α : Type) where
  cells : List α
  len : Nat
  inside : len ≤ cells.length

/-- The array after its first cells were overwritten with `kept`. -/
def overwrite {α : Type} (cells kept : List α) : List α := kept ++ cells.drop kept.length

namespace Slice

variable {α : Type}

/-- The elements the header shows. -/
def view (s : Slice α) : List α := s.cells.take s.len

/-- The empty slice without capacity. -/
def empty : Slice α where
  cells := []
  len := 0
  inside := Nat.le_refl 0

/-- Write one cell of the backing array; the header stays. -/
def store (s : Slice α) (i : Nat) (x : α) : Slice α where
  cells := s.cells.set i x
  len := s.len
  inside := by
    rw [List.length_set]
    exact s.inside

/-- A header of another length on the same array; `none` is a length beyond the
capacity. -/
def reslice? (s : Slice α) (len : Nat) : Option (Slice α) :=
  if inside : len ≤ s.cells.length then some ⟨s.cells, len, inside⟩ else none

/-- `append`: reuse the array while the capacity lasts. -/
def append (s : Slice α) (x : α) : Slice α :=
  if room : s.len < s.cells.length then
    { cells := s.cells.set s.len x
      len := s.len + 1
      inside := by
        rw [List.length_set]
        exact room }
  else
    { cells := s.cells ++ [x]
      len := s.len + 1
      inside := by
        rw [List.length_append]
        exact Nat.succ_le_succ s.inside }

/-- A loop that rewrites every visible cell. -/
def mapInPlace (s : Slice α) (change : α → α) : Slice α where
  cells := s.view.map change ++ s.cells.drop s.len
  len := s.len
  inside := by
    have inside := s.inside
    simp only [view, List.length_append, List.length_map, List.length_take, List.length_drop]
    omega

/-- The loop `for _, c := range s` that appends what it keeps to `s[:0]`; `left`
iterations remain, `i` is the cell to read, `kept` the cells written. -/
def filterFrom (keep : α → Bool) : Nat → Nat → List α → Nat → List α × Nat
  | 0, _, cells, kept => (cells, kept)
  | left + 1, i, cells, kept =>
      match cells[i]? with
      | none => (cells, kept)
      | some c =>
          if keep c then filterFrom keep left (i + 1) (cells.set kept c) (kept + 1)
          else filterFrom keep left (i + 1) cells kept

end Slice

/-! ## Overwritten arrays -/

variable {α : Type}

@[simp] theorem overwrite_nil (cells : List α) : overwrite cells [] = cells := rfl

theorem length_overwrite {cells kept : List α} (fits : kept.length ≤ cells.length) :
    (overwrite cells kept).length = cells.length := by
  rw [overwrite, List.length_append, List.length_drop]
  omega

theorem take_overwrite (cells kept : List α) :
    (overwrite cells kept).take kept.length = kept := by
  rw [overwrite, List.take_left']
  rfl

theorem drop_overwrite {cells kept : List α} {i : Nat} (beyond : kept.length ≤ i) :
    (overwrite cells kept).drop i = cells.drop i := by
  obtain ⟨extra, rfl⟩ := Nat.exists_eq_add_of_le beyond
  rw [overwrite, List.drop_length_add_append, List.drop_drop]

theorem getElem?_overwrite {cells kept : List α} {i : Nat} (beyond : kept.length ≤ i) :
    (overwrite cells kept)[i]? = cells[i]? := by
  have head : ((overwrite cells kept).drop i)[0]? = (cells.drop i)[0]? := by
    rw [drop_overwrite beyond]
  simpa using head

/-- The cell that a loop over the cells reads next stands where it stood. -/
theorem next_overwrite {cells kept : List α} {i left : Nat} (behind : kept.length ≤ i)
    (inside : i + (left + 1) ≤ cells.length) :
    ∃ c, (overwrite cells kept)[i]? = some c ∧
      (cells.drop i).take (left + 1) = c :: (cells.drop (i + 1)).take left := by
  have here : i < cells.length := by omega
  refine ⟨cells.get ⟨i, here⟩, ?_, ?_⟩
  · rw [getElem?_overwrite behind, List.getElem?_eq_getElem here]
    rfl
  · rw [List.drop_eq_getElem_cons here, List.take_succ_cons]
    rfl

/-- Appending to the overwritten part is a write to the next cell. -/
theorem set_overwrite {cells kept : List α} (room : kept.length < cells.length) (x : α) :
    (overwrite cells kept).set kept.length x = overwrite cells (kept ++ [x]) := by
  have split : cells.drop kept.length =
      cells.get ⟨kept.length, room⟩ :: cells.drop (kept.length + 1) :=
    List.drop_eq_getElem_cons room
  rw [overwrite, split, List.set_append_right _ _ (Nat.le_refl _), Nat.sub_self,
    List.set_cons_zero, overwrite, List.length_append, List.append_assoc]
  rfl

theorem overwrite_overwrite {cells first second : List α}
    (longer : first.length ≤ second.length) :
    overwrite (overwrite cells first) second = overwrite cells second := by
  rw [overwrite, drop_overwrite longer]
  rfl

theorem overwrite_take {cells : List α} {k : Nat} (fits : k ≤ cells.length) :
    overwrite cells (cells.take k) = cells := by
  rw [overwrite, List.length_take, Nat.min_eq_left fits, List.take_append_drop]

/-- An array that shows `done ++ rest` is overwritten by a list that ends in
`rest` and is `gap` cells shorter.  A reader that goes on behind `done` misses
the first `gap` cells of `rest` and reads the last ones twice. -/
theorem reread_overwrite {cells done kept rest : List α} {gap : Nat}
    (shows : cells.take (done.length + rest.length) = done ++ rest)
    (shorter : kept.length + gap = done.length) :
    ((overwrite cells (kept ++ rest)).drop done.length).take rest.length =
      rest.drop gap ++ rest.drop (rest.length - gap) := by
  have fits : done.length + rest.length ≤ cells.length := by
    have length := congrArg List.length shows
    rw [List.length_take, List.length_append] at length
    omega
  rcases Nat.le_total gap rest.length with within | beyond
  · have reached : done.length = kept.length + gap := shorter.symm
    have tail : (cells.drop (kept.length + rest.length)).take gap =
        rest.drop (rest.length - gap) := by
      have swapped := List.drop_take (l := cells) (i := kept.length + rest.length)
        (j := done.length + rest.length)
      have room : done.length + rest.length - (kept.length + rest.length) = gap := by omega
      rw [room, shows] at swapped
      rw [← swapped, List.drop_append, List.drop_eq_nil_of_le (by omega), List.nil_append]
      congr 1
      omega
    rw [overwrite, List.append_assoc, reached, List.drop_length_add_append,
      List.drop_append_of_le_length within, List.take_append, List.length_drop,
      List.take_of_length_le (by rw [List.length_drop]; omega), List.length_append, ← tail]
    congr 2
    omega
  · have noShift : rest.drop gap = [] := List.drop_eq_nil_of_le beyond
    rw [drop_overwrite (by rw [List.length_append]; omega), noShift, List.nil_append,
      Nat.sub_eq_zero_of_le beyond, List.drop_zero]
    have swapped := List.drop_take (l := cells) (i := done.length)
      (j := done.length + rest.length)
    rw [Nat.add_sub_cancel_left, shows] at swapped
    rw [← swapped, List.drop_left]

/-! ## Filtering in place -/

namespace Slice

/-- The loop reads every cell before it overwrites it, so what it leaves in the
first cells is the filter of what was there. -/
theorem filterFrom_eq (keep : α → Bool) (cells : List α) (left i : Nat) (kept : List α)
    (behind : kept.length ≤ i) (inside : i + left ≤ cells.length) :
    filterFrom keep left i (overwrite cells kept) kept.length =
      (overwrite cells (kept ++ ((cells.drop i).take left).filter keep),
        (kept ++ ((cells.drop i).take left).filter keep).length) := by
  induction left generalizing i kept with
  | zero => simp [filterFrom]
  | succ left inductionHypothesis =>
      obtain ⟨c, read, split⟩ := next_overwrite behind inside
      rw [filterFrom, read, split]
      simp only
      by_cases keeps : keep c = true
      · have grown : (kept ++ [c]).length = kept.length + 1 := by simp
        rw [if_pos keeps, set_overwrite (by omega), ← grown,
          inductionHypothesis (i + 1) _ (by omega) (by omega),
          List.filter_cons_of_pos keeps, List.append_assoc]
        rfl
      · rw [if_neg keeps, inductionHypothesis (i + 1) kept (by omega) (by omega),
          List.filter_cons_of_neg keeps]

private theorem filterFrom_view (s : Slice α) (keep : α → Bool) :
    filterFrom keep s.len 0 s.cells 0 =
      (overwrite s.cells (s.view.filter keep), (s.view.filter keep).length) := by
  have whole := filterFrom_eq keep s.cells s.len 0 [] (Nat.le_refl 0)
    (by rw [Nat.zero_add]; exact s.inside)
  simpa [view] using whole

private theorem length_filter_view (s : Slice α) (keep : α → Bool) :
    (s.view.filter keep).length ≤ s.cells.length := by
  refine Nat.le_trans (List.length_filter_le _ _) ?_
  rw [view, List.length_take]
  exact Nat.min_le_right _ _

/-- `kept := s[:0]; for _, c := range s { if keep(c) { kept = append(kept, c) } };
s = kept` -/
def filterInPlace (s : Slice α) (keep : α → Bool) : Slice α where
  cells := (filterFrom keep s.len 0 s.cells 0).1
  len := (filterFrom keep s.len 0 s.cells 0).2
  inside := by
    rw [filterFrom_view]
    show (s.view.filter keep).length ≤ (overwrite s.cells (s.view.filter keep)).length
    rw [length_overwrite (length_filter_view s keep)]
    exact length_filter_view s keep

theorem cells_filterInPlace (s : Slice α) (keep : α → Bool) :
    (s.filterInPlace keep).cells = overwrite s.cells (s.view.filter keep) :=
  congrArg Prod.fst (filterFrom_view s keep)

theorem len_filterInPlace (s : Slice α) (keep : α → Bool) :
    (s.filterInPlace keep).len = (s.view.filter keep).length :=
  congrArg Prod.snd (filterFrom_view s keep)

theorem view_filterInPlace (s : Slice α) (keep : α → Bool) :
    (s.filterInPlace keep).view = s.view.filter keep := by
  rw [view, cells_filterInPlace, len_filterInPlace, take_overwrite]

theorem reslice?_eq_some {s after : Slice α} {len : Nat}
    (resliced : s.reslice? len = some after) :
    after.cells = s.cells ∧ after.view = s.cells.take len := by
  unfold reslice? at resliced
  split at resliced
  · cases resliced
    exact ⟨rfl, rfl⟩
  · cases resliced

theorem view_store (s : Slice α) (i : Nat) (x : α) : (s.store i x).view = s.view.set i x :=
  List.take_set.symm ▸ rfl

theorem length_cells_mapInPlace (s : Slice α) (change : α → α) :
    (s.mapInPlace change).cells.length = s.cells.length := by
  have inside := s.inside
  simp only [mapInPlace, view, List.length_append, List.length_map, List.length_take,
    List.length_drop]
  omega

theorem view_mapInPlace (s : Slice α) (change : α → α) :
    (s.mapInPlace change).view = s.view.map change := by
  have long : (s.view.map change).length = s.len := by
    rw [List.length_map, view, List.length_take]
    exact Nat.min_eq_left s.inside
  change (s.view.map change ++ s.cells.drop s.len).take s.len = _
  exact List.take_left' long

theorem length_cells_filterInPlace (s : Slice α) (keep : α → Bool) :
    (s.filterInPlace keep).cells.length = s.cells.length := by
  rw [cells_filterInPlace, length_overwrite (length_filter_view s keep)]

theorem length_view (s : Slice α) : s.view.length = s.len := by
  rw [view, List.length_take]
  exact Nat.min_eq_left s.inside

theorem view_append (s : Slice α) (x : α) : (s.append x).view = s.view ++ [x] := by
  unfold append
  split
  · rename_i room
    change (s.cells.set s.len x).take (s.len + 1) = s.cells.take s.len ++ [x]
    rw [List.take_succ_eq_append_getElem (by rwa [List.length_set]), List.getElem_set_self,
      List.take_set_of_le (Nat.le_refl _)]
  · rename_i full
    have whole : s.cells.length = s.len := Nat.le_antisymm (Nat.le_of_not_lt full) s.inside
    change (s.cells ++ [x]).take (s.len + 1) = s.cells.take s.len ++ [x]
    rw [← whole, List.take_length, List.take_of_length_le]
    rw [List.length_append]
    exact Nat.le_refl _

/-! ## Rearranged arrays -/

/-- An array of the same length without a cell that the earlier one does not have. -/
structure Rearranges (before after : Slice α) : Prop where
  length : after.cells.length = before.cells.length
  cells : ∀ c ∈ after.cells, c ∈ before.cells

namespace Rearranges

variable {s first second third : Slice α}

theorem refl (s : Slice α) : Rearranges s s := ⟨rfl, fun _ => id⟩

theorem trans (one : Rearranges first second) (two : Rearranges second third) :
    Rearranges first third :=
  ⟨two.length.trans one.length, fun c member => one.cells c (two.cells c member)⟩

/-- A cell is overwritten with one that is there. -/
theorem store (s : Slice α) (i : Nat) {x : α} (there : x ∈ s.cells) :
    Rearranges s (s.store i x) where
  length := List.length_set
  cells := fun c member => by
    rcases List.mem_or_eq_of_mem_set member with old | rfl
    · exact old
    · exact there

theorem reslice? {len : Nat} (inside : len ≤ s.cells.length) :
    ∃ after, s.reslice? len = some after ∧ Rearranges s after := by
  unfold Slice.reslice?
  rw [dif_pos inside]
  exact ⟨_, rfl, rfl, fun _ => id⟩

end Rearranges

theorem mem_cells_of_mem_view {s : Slice α} {c : α} (shown : c ∈ s.view) : c ∈ s.cells :=
  List.mem_of_mem_take shown

theorem rearranges_filterInPlace (s : Slice α) (keep : α → Bool) :
    Rearranges s (s.filterInPlace keep) where
  length := length_cells_filterInPlace s keep
  cells := fun c member => by
    rw [cells_filterInPlace, overwrite] at member
    rcases List.mem_append.mp member with kept | behind
    · exact mem_cells_of_mem_view (List.mem_filter.mp kept).1
    · exact List.mem_of_mem_drop behind

end Slice

end ForestLink.Lib
