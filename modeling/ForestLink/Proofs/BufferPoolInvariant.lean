/-
Module: ForestLink.Proofs.BufferPoolInvariant
Purpose: The representation invariant of the slab pool under complete calls: the free
  stack holds exactly the slabs without references, each once.
Trusted boundary: none
Main exports: BufferPool.FreeStack, FreeStack.call, free_stack_after_calls
-/
import ForestLink.Lib.FreeList
import ForestLink.Protocol.BufferPool

namespace ForestLink.Protocol.BufferPool

open ForestLink.Lib

variable {pool : BufferPool} {free : List Nat}

/-- The stack runs through `free`, which lists the slabs without references, each
once; the counter is its length. -/
structure FreeStack (pool : BufferPool) (free : List Nat) : Prop where
  chain : Chain pool.nextFree pool.top free
  nodup : free.Nodup
  exact : ∀ i, i ∈ free ↔ i < pool.size ∧ pool.refcount i = 0
  count : pool.freeCount = free.length

/-- The call releases the last reference of slab `i`. -/
def Returns (pool : BufferPool) (call : Call) (i : Nat) : Prop :=
  call = .release (.slab i) ∧ i < pool.size ∧ pool.refcount i = 1

/-! ## Initialisation -/

theorem chain_init_range (size start : Nat) (inside : start ≤ size) :
    Chain (init size).nextFree (if start < size then some start else none)
      (List.range' start (size - start)) := by
  -- Downwards from the end of the pool.
  induction remaining : size - start generalizing start with
  | zero =>
      have atEnd : ¬ start < size := Nat.not_lt.mpr (Nat.sub_eq_zero_iff_le.mp remaining)
      rw [if_neg atEnd]
      exact .nil
  | succ left inductionHypothesis =>
      have before : start < size := Nat.lt_of_sub_eq_succ remaining
      have smaller : size - (start + 1) = left := by
        rw [Nat.sub_add_eq, remaining, Nat.add_sub_cancel]
      have tail := inductionHypothesis (start + 1) before smaller
      rw [if_pos before, List.range'_succ]
      exact .cons tail

theorem FreeStack.init {size : Nat} (positive : 0 < size) :
    FreeStack (init size) (List.range size) where
  chain := by
    have whole := chain_init_range size 0 (Nat.zero_le _)
    rw [if_pos positive, Nat.sub_zero, ← List.range_eq_range'] at whole
    exact whole
  nodup := List.nodup_range
  exact i := by
    rw [List.mem_range]
    exact ⟨fun inside => ⟨inside, rfl⟩, And.left⟩
  count := by
    rw [List.length_range]
    rfl

namespace FreeStack

/-- Counters that the stack does not depend on. -/
theorem of_same {after : BufferPool} (stack : FreeStack pool free)
    (links : after.nextFree = pool.nextFree) (top : after.top = pool.top)
    (size : after.size = pool.size) (refcount : after.refcount = pool.refcount)
    (count : after.freeCount = pool.freeCount) : FreeStack after free where
  chain := links ▸ top ▸ stack.chain
  nodup := stack.nodup
  exact i := by
    rw [size, refcount]
    exact stack.exact i
  count := count.trans stack.count

theorem overflow (stack : FreeStack pool free) : FreeStack pool.countOverflow free :=
  stack.of_same rfl rfl rfl rfl rfl

/-- A change between positive counts of a held slab. -/
theorem setRefcount (stack : FreeStack pool free) {i value : Nat}
    (held : pool.refcount i ≠ 0) (positive : value ≠ 0) :
    FreeStack (pool.setRefcount i value) free where
  chain := stack.chain
  nodup := stack.nodup
  exact j := by
    rw [stack.exact j]
    unfold BufferPool.setRefcount
    by_cases same : j = i
    · subst same
      simp [held, positive]
    · simp [same]
  count := stack.count

/-! ## Acquire -/

theorem acquire_none_iff (stack : FreeStack pool free) :
    pool.acquire.1 = none ↔ free = [] := by
  rw [← stack.chain.head_none_iff]
  unfold BufferPool.acquire
  cases pool.top with
  | none => exact ⟨fun _ => rfl, fun _ => rfl⟩
  | some t => exact ⟨fun none => absurd none (by simp), fun none => absurd none (by simp)⟩

/-- `acquire` takes the first slab of the stack. -/
theorem acquire (stack : FreeStack pool free) :
    FreeStack pool.acquire.2 free.tail ∧ pool.acquire.1 = free.head? := by
  unfold BufferPool.acquire
  cases topEq : pool.top with
  | none =>
      obtain rfl := stack.chain.head_none_iff.mp topEq
      exact ⟨stack.of_same rfl rfl rfl rfl rfl, rfl⟩
  | some t =>
      have chain := stack.chain
      rw [topEq] at chain
      obtain ⟨rest, rfl, tail⟩ := chain.pop
      have apart : t ∉ rest := (List.nodup_cons.mp stack.nodup).1
      refine ⟨⟨tail, (List.nodup_cons.mp stack.nodup).2, ?_, ?_⟩, rfl⟩
      · intro i
        have before := stack.exact i
        by_cases same : i = t
        · subst same
          simp [BufferPool.setRefcount, setLen, apart]
        · rw [List.mem_cons, or_iff_right same] at before
          simpa [BufferPool.setRefcount, setLen, same] using before
      · have before := stack.count
        rw [List.length_cons] at before
        simp [BufferPool.setRefcount, setLen, before]

/-! ## Release -/

/-- The last reference of a slab is released: the slab becomes the top. -/
theorem pushFree (stack : FreeStack pool free) {i : Nat} (inside : i < pool.size)
    (held : pool.refcount i ≠ 0) :
    FreeStack ((pool.setRefcount i 0).pushFree i) (i :: free) where
  chain := by
    have outside : i ∉ free := fun member => held ((stack.exact i).mp member).2
    have framed := stack.chain.frame outside pool.top
    exact framed.push (Function.update_self ..)
  nodup := by
    refine List.nodup_cons.mpr ⟨fun member => held ((stack.exact i).mp member).2, stack.nodup⟩
  exact j := by
    have before := stack.exact j
    by_cases same : j = i
    · subst same
      simp [BufferPool.pushFree, BufferPool.setRefcount, setNextFree, inside]
    · simpa [BufferPool.pushFree, BufferPool.setRefcount, setNextFree, same] using before
  count := by
    have before := stack.count
    simp [BufferPool.pushFree, BufferPool.setRefcount, setNextFree, before]

theorem release_foreign {offset : Int} (foreign : offset < 0 ∨ (pool.size : Int) ≤ offset) :
    pool.release (.slab offset) = pool.countOverflow :=
  if_pos foreign

theorem release_inside {i : Nat} (inside : i < pool.size) :
    pool.release (.slab i) =
      if pool.refcount i = 0 then pool.countOverflow
      else if pool.refcount i = 1 then (pool.setRefcount i 0).pushFree i
      else pool.setRefcount i (pool.refcount i - 1) := by
  have own : ¬ ((i : Int) < 0 ∨ (pool.size : Int) ≤ (i : Int)) := by omega
  unfold BufferPool.release
  dsimp only
  rw [if_neg own, Int.toNat_natCast]
  split
  · rfl
  · split
    · rename_i one
      rw [one]
    · rfl

/-- The stack after releasing a slab of the pool. -/
theorem release_slab (stack : FreeStack pool free) {i : Nat} (inside : i < pool.size) :
    FreeStack (pool.release (.slab i))
      (if pool.refcount i = 1 then i :: free else free) := by
  rw [release_inside inside]
  by_cases unused : pool.refcount i = 0
  · rw [if_pos unused, if_neg (by rw [unused]; exact Nat.zero_ne_one)]
    exact stack.overflow
  · rw [if_neg unused]
    by_cases last : pool.refcount i = 1
    · rw [if_pos last, if_pos last]
      exact stack.pushFree inside unused
    · rw [if_neg last, if_neg last]
      exact stack.setRefcount unused (by omega)

/-! ## Any call -/

/-- Each admitted call keeps the invariant, and the slabs that return to the stack are
those whose last reference it releases. -/
theorem call (stack : FreeStack pool free) (call : Call) (admitted : pool.Admits call) :
    ∃ after, FreeStack (pool.call call) after ∧
      ∀ i, (i ∈ after ∧ i ∉ free) ↔ pool.Returns call i := by
  have unchanged : ∀ i, (i ∈ free ∧ i ∉ free) ↔ False := fun i => and_not_self_iff _
  cases call with
  | acquire =>
      refine ⟨free.tail, stack.acquire.1, fun i => ?_⟩
      constructor
      · exact fun ⟨member, absent⟩ => absurd (List.mem_of_mem_tail member) absent
      · exact fun returns => absurd returns.1 (by simp)
  | addRef i =>
      obtain ⟨_, held, small⟩ := admitted
      refine ⟨free, stack.setRefcount (Nat.pos_iff_ne_zero.mp held) ?_, fun j => ?_⟩
      · omega
      · rw [unchanged]
        exact ⟨False.elim, fun returns => absurd returns.1 (by simp)⟩
  | release ptr =>
      cases ptr with
      | null =>
          refine ⟨free, stack, fun j => ?_⟩
          rw [unchanged]
          exact ⟨False.elim, fun returns => absurd returns.1 (by simp)⟩
      | slab offset =>
          by_cases foreign : offset < 0 ∨ (pool.size : Int) ≤ offset
          · refine ⟨free, ?_, fun j => ?_⟩
            · change FreeStack (pool.release (.slab offset)) free
              rw [release_foreign foreign]
              exact stack.overflow
            · rw [unchanged]
              refine ⟨False.elim, fun ⟨same, inside, _⟩ => ?_⟩
              simp only [Call.release.injEq, SlabPtr.slab.injEq] at same
              omega
          · obtain ⟨i, rfl⟩ : ∃ i : Nat, offset = i := ⟨offset.toNat, by omega⟩
            have inside : i < pool.size := by omega
            refine ⟨_, stack.release_slab inside, fun j => ?_⟩
            by_cases last : pool.refcount i = 1
            · have outside : i ∉ free := by
                intro member
                have zero := ((stack.exact i).mp member).2
                exact Nat.zero_ne_one (zero.symm.trans last)
              rw [if_pos last, List.mem_cons]
              constructor
              · rintro ⟨rfl | member, absent⟩
                · exact ⟨rfl, inside, last⟩
                · exact absurd member absent
              · rintro ⟨same, _, _⟩
                obtain rfl := Int.ofNat_inj.mp (SlabPtr.slab.inj (Call.release.inj same))
                exact ⟨.inl rfl, outside⟩
            · rw [if_neg last, unchanged]
              refine ⟨False.elim, fun ⟨same, _, one⟩ => ?_⟩
              obtain rfl := Int.ofNat_inj.mp (SlabPtr.slab.inj (Call.release.inj same))
              exact last one

end FreeStack

/-! ## Any sequence of calls -/

/-- Every call of the sequence is admitted when it is made. -/
def Allowed (pool : BufferPool) : List Call → Prop
  | [] => True
  | call :: rest => pool.Admits call ∧ (pool.call call).Allowed rest

theorem FreeStack.calls {calls : List Call} (stack : FreeStack pool free)
    (allowed : pool.Allowed calls) : ∃ after, FreeStack (pool.run calls) after := by
  induction calls generalizing pool free with
  | nil => exact ⟨free, stack⟩
  | cons call rest inductionHypothesis =>
      obtain ⟨next, kept, _⟩ := stack.call call allowed.1
      exact inductionHypothesis kept allowed.2

/-- After `init` and any admitted sequence of calls the stack is a finite list without
duplicates of exactly the slabs without references, and the counter is its length;
`acquire` fails exactly if it is empty; a further call returns exactly the slabs to it
whose last reference it releases; and releasing a null, foreign or free slab changes
nothing but, if not null, the overflow counter. -/
theorem free_stack_after_calls (size : Nat) (positive : 0 < size) (calls : List Call)
    (allowed : (init size).Allowed calls) :
    let pool := (init size).run calls
    ∃ free, FreeStack pool free ∧
      (pool.acquire.1 = none ↔ free = []) ∧
      (∀ next, pool.Admits next → ∃ after, FreeStack (pool.call next) after ∧
        ∀ i, (i ∈ after ∧ i ∉ free) ↔ pool.Returns next i) ∧
      pool.release .null = pool ∧
      (∀ offset : Int, offset < 0 ∨ (pool.size : Int) ≤ offset →
        pool.release (.slab offset) = pool.countOverflow) ∧
      (∀ i ∈ free, pool.release (.slab i) = pool.countOverflow) := by
  intro pool
  obtain ⟨free, stack⟩ := (FreeStack.init positive).calls allowed
  refine ⟨free, stack, stack.acquire_none_iff, stack.call, rfl,
    fun offset => FreeStack.release_foreign, fun i member => ?_⟩
  obtain ⟨inside, unused⟩ := (stack.exact i).mp member
  rw [FreeStack.release_inside inside, if_pos unused]

/-- A slab that was shared and released twice is the top again; the third release
only counts. -/
theorem shared_slab_returned_once :
    let calls : List Call := [.acquire, .addRef 0, .release (.slab 0), .release (.slab 0),
      .release (.slab 0), .release (.slab 9000)]
    let pool := (init poolSize).run calls
    (init poolSize).Allowed calls ∧ pool.top = some 0 ∧ pool.overflowCount = 2 ∧
      ∃ free, FreeStack pool free ∧ (pool.acquire.1 = none ↔ free = []) := by
  intro calls pool
  have allowed : (init poolSize).Allowed calls := by
    refine ⟨trivial, ⟨?_, ?_, ?_⟩, trivial, trivial, trivial, trivial, trivial⟩ <;> decide
  obtain ⟨free, stack, empty, _⟩ :=
    free_stack_after_calls poolSize (by decide) calls allowed
  exact ⟨allowed, by decide, by decide, free, stack, empty⟩

end ForestLink.Protocol.BufferPool
