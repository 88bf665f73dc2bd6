/-
Module: ForestLink.Proofs.BufferPoolRace
Purpose: When tasks that share the slab pool never own one slab together: in every run
  in which no exchange of `acquire` installs a link that has left the stack.
Trusted boundary: none
Main exports: PoolTasks.Safe, PoolTasks.LinkStands, PoolTasks.Exclusive,
  no_shared_slab_while_links_stand
-/
import Mathlib.Data.List.Perm.Basic
import ForestLink.Proofs.BufferPoolInvariant

namespace ForestLink.Protocol

open ForestLink.Lib

/-- The slab a task owns through the call it is in: popped but not yet returned, or
given up but not yet pushed. -/
def PoolPc.carries : PoolPc → List Nat
  | .acquireCount t | .acquireRefcount t | .acquireLen t => [t]
  | .releaseRefcount i | .releaseDecrement i _ | .releaseTop i | .releaseLink i _
  | .releaseExchange i _ => [i]
  | _ => []

namespace PoolTasks

variable {τ : Type} [DecidableEq τ] {s after : PoolTasks τ}

/-! ## Safety -/

/-- No slab has two holders, `acquire` does not return a held one, and the free stack
is a list without duplicates of slabs that nobody holds. -/
structure Safe (s : PoolTasks τ) : Prop where
  apart : ∀ task other, task ≠ other → ∀ i ∈ s.held task, i ∉ s.held other
  once : ∀ task, (s.held task).Nodup
  returned : ∀ task t, s.pc task = .acquireLen t → ∀ holder, t ∉ s.held holder
  stack : ∃ free, Chain s.pool.nextFree s.pool.top free ∧ free.Nodup ∧
    ∀ i ∈ free, ∀ holder, i ∉ s.held holder

/-- Before this step: an exchange of `acquire` that is about to succeed installs the end
of the stack, or a slab that is still on the stack below the one it takes. -/
def LinkStands (s : PoolTasks τ) : Action τ → Prop
  | .advance task false =>
      match s.pc task with
      | .acquireExchange t (some next) =>
          s.pool.top = some t →
            ∃ below, Chain s.pool.nextFree (s.pool.nextFree t) below ∧ next ∈ below
      | _ => True
  | _ => True

/-! ## Ownership -/

def owned (s : PoolTasks τ) (task : τ) : List Nat := s.held task ++ (s.pc task).carries

/-- Every slab is on the stack or owned by one task, not both; and a task about to
exchange the top has linked its slab to the top it expects. -/
structure Exclusive (s : PoolTasks τ) : Prop where
  stack : ∃ free, Chain s.pool.nextFree s.pool.top free ∧ free.Nodup ∧
    ∀ task, ∀ i ∈ s.owned task, i ∉ free
  once : ∀ task, (s.owned task).Nodup
  apart : ∀ task other, task ≠ other → ∀ i ∈ s.owned task, i ∉ s.owned other
  linked : ∀ task i oldTop, s.pc task = .releaseExchange i oldTop →
    s.pool.nextFree i = oldTop

omit [DecidableEq τ] in
theorem Exclusive.safe (exclusive : s.Exclusive) : s.Safe where
  apart task other different i member held :=
    exclusive.apart task other different i (List.mem_append_left _ member)
      (List.mem_append_left _ held)
  once task := (List.nodup_append.mp (exclusive.once task)).1
  returned task t here holder held := by
    have carried : t ∈ s.owned task := by simp [owned, here, PoolPc.carries]
    by_cases same : task = holder
    · subst same
      have nodup := exclusive.once task
      simp only [owned, here, PoolPc.carries] at nodup
      exact (List.nodup_append.mp nodup).2.2 t held t List.mem_cons_self rfl
    · exact exclusive.apart task holder same t carried (List.mem_append_left _ held)
  stack := by
    obtain ⟨free, chain, nodup, outside⟩ := exclusive.stack
    exact ⟨free, chain, nodup, fun i member holder held =>
      outside holder i (List.mem_append_left _ held) member⟩

/-! ## Steps of one task -/

/-- Only `task` moves: the others keep their slabs and their places. -/
def Still (s after : PoolTasks τ) (task : τ) : Prop :=
  ∀ other, other ≠ task → after.owned other = s.owned other ∧ after.pc other = s.pc other

omit [DecidableEq τ] in
/-- What a step of one task has to keep. -/
theorem Exclusive.move {task : τ} (exclusive : s.Exclusive) (still : Still s after task)
    (once : (after.owned task).Nodup)
    (apart : ∀ i ∈ after.owned task, ∀ other, other ≠ task → i ∉ s.owned other)
    (stack : ∃ free, Chain after.pool.nextFree after.pool.top free ∧ free.Nodup ∧
      ∀ other, ∀ i ∈ after.owned other, i ∉ free)
    (linked : ∀ other i oldTop, after.pc other = .releaseExchange i oldTop →
      after.pool.nextFree i = oldTop) : after.Exclusive where
  stack := stack
  once other := by
    by_cases mine : other = task
    · exact mine ▸ once
    · rw [(still other mine).1]
      exact exclusive.once other
  apart one other different i member owned := by
    by_cases oneActs : one = task
    · subst oneActs
      rw [(still other different.symm).1] at owned
      exact apart i member other different.symm owned
    · rw [(still one oneActs).1] at member
      by_cases otherActs : other = task
      · subst otherActs
        exact apart i owned one oneActs member
      · rw [(still other otherActs).1] at owned
        exact exclusive.apart one other different i member owned
  linked := linked

omit [DecidableEq τ] in
/-- A step that leaves the stack and the links alone and takes no slab. -/
theorem Exclusive.quiet {task : τ} (exclusive : s.Exclusive) (still : Still s after task)
    (links : after.pool.nextFree = s.pool.nextFree) (top : after.pool.top = s.pool.top)
    (once : (after.owned task).Nodup) (less : ∀ i ∈ after.owned task, i ∈ s.owned task)
    (linked : ∀ i oldTop, after.pc task = .releaseExchange i oldTop →
      s.pc task = .releaseExchange i oldTop) : after.Exclusive := by
  apply exclusive.move still once
  · intro i member other different
    exact exclusive.apart task other different.symm i (less i member)
  · obtain ⟨free, chain, nodup, outside⟩ := exclusive.stack
    refine ⟨free, links ▸ top ▸ chain, nodup, fun other i member => ?_⟩
    by_cases mine : other = task
    · subst mine
      exact outside other i (less i member)
    · rw [(still other mine).1] at member
      exact outside other i member
  · intro other i oldTop here
    rw [links]
    apply exclusive.linked other i oldTop
    by_cases mine : other = task
    · subst mine
      exact linked i oldTop here
    · exact (still other mine).2 ▸ here

/-- The state after a task has gone on, its slabs and the pool given. -/
def proceed (s : PoolTasks τ) (task : τ) (pool : BufferPool) (held : List Nat)
    (pc : PoolPc) : PoolTasks τ :=
  { pool := pool
    pc := Function.update s.pc task pc
    held := Function.update s.held task held }

theorem still_proceed (task : τ) (pool : BufferPool) (held : List Nat) (pc : PoolPc) :
    Still s (s.proceed task pool held pc) task := by
  intro other different
  have pcs : (s.proceed task pool held pc).pc other = s.pc other :=
    Function.update_of_ne different ..
  have slabs : (s.proceed task pool held pc).held other = s.held other :=
    Function.update_of_ne different ..
  unfold owned
  rw [pcs, slabs]
  exact ⟨rfl, rfl⟩

theorem owned_proceed (task : τ) (pool : BufferPool) (held : List Nat) (pc : PoolPc) :
    (s.proceed task pool held pc).owned task = held ++ pc.carries ∧
      (s.proceed task pool held pc).pc task = pc := by
  have pcs : (s.proceed task pool held pc).pc task = pc := Function.update_self ..
  have slabs : (s.proceed task pool held pc).held task = held := Function.update_self ..
  unfold owned
  rw [pcs, slabs]
  exact ⟨rfl, rfl⟩

theorem goto_eq_proceed (task : τ) (pool : BufferPool) (pc : PoolPc) :
    ({ s with pool := pool } : PoolTasks τ).goto task pc =
      s.proceed task pool (s.held task) pc := by
  unfold goto proceed
  rw [Function.update_eq_self]

/-- A task goes on without touching the stack, and keeps what it owns or less. -/
theorem Exclusive.proceed {task : τ} {pool : BufferPool} {held : List Nat} {pc : PoolPc}
    (exclusive : s.Exclusive) (links : pool.nextFree = s.pool.nextFree)
    (top : pool.top = s.pool.top)
    (kept : (held ++ pc.carries).Subperm (s.owned task))
    (elsewhere : ∀ i oldTop, pc = .releaseExchange i oldTop →
      s.pc task = .releaseExchange i oldTop) :
    (s.proceed task pool held pc).Exclusive := by
  have here := owned_proceed (s := s) task pool held pc
  apply exclusive.quiet (still_proceed task pool held pc) links top
  · rw [here.1]
    obtain ⟨listed, permuted, inside⟩ := kept
    exact permuted.nodup_iff.mp ((exclusive.once task).sublist inside)
  · rw [here.1]
    exact fun i member => kept.subset member
  · rw [here.2]
    exact elsewhere

/-- A task only moves on inside its call. -/
theorem Exclusive.goto {task : τ} {pool : BufferPool} {pc : PoolPc} (exclusive : s.Exclusive)
    (links : pool.nextFree = s.pool.nextFree) (top : pool.top = s.pool.top)
    (kept : pc.carries.Sublist (s.pc task).carries)
    (elsewhere : ∀ i oldTop, pc ≠ .releaseExchange i oldTop) :
    (({ s with pool := pool } : PoolTasks τ).goto task pc).Exclusive := by
  rw [goto_eq_proceed]
  apply exclusive.proceed links top (List.Sublist.append_left kept _).subperm
  exact fun i oldTop reached => absurd reached (elsewhere i oldTop)

/-! ## The three accesses that change the stack -/

/-- `acquire` takes the top and installs a link that still stands. -/
theorem Exclusive.take {task : τ} {t : Nat} {next : Option Nat} (exclusive : s.Exclusive)
    (here : s.pc task = .acquireExchange t next) (top : s.pool.top = some t)
    (stands : s.LinkStands (.advance task false)) :
    (({ s with pool := { s.pool with top := next } } : PoolTasks τ).goto task
      (.acquireCount t)).Exclusive := by
  rw [goto_eq_proceed]
  obtain ⟨free, chain, nodup, outside⟩ := exclusive.stack
  rw [top] at chain
  obtain ⟨rest, rfl, tail⟩ := chain.pop
  have place := owned_proceed (s := s) task { s.pool with top := next } (s.held task)
    (.acquireCount t)
  have heldOwned : ∀ i ∈ s.held task, i ∈ s.owned task :=
    fun i member => List.mem_append_left _ member
  have still := still_proceed (s := s) task { s.pool with top := next } (s.held task)
    (.acquireCount t)
  -- What the new top leads to is part of the old stack.
  obtain ⟨below, newChain, inside⟩ : ∃ below, Chain s.pool.nextFree next below ∧
      below.Sublist rest := by
    cases next with
    | none => exact ⟨[], .nil, List.nil_sublist _⟩
    | some next =>
        simp only [LinkStands, here] at stands
        obtain ⟨cells, runs, member⟩ := stands top
        obtain rfl := tail.unique runs
        obtain ⟨behind, newChain, suffix⟩ := tail.suffix member
        exact ⟨next :: behind, newChain, suffix.sublist⟩
  apply exclusive.move still
  · rw [place.1]
    refine List.nodup_append.mpr ⟨(List.nodup_append.mp (exclusive.once task)).1,
      List.nodup_singleton t, ?_⟩
    rintro i member j single rfl
    obtain rfl := List.mem_singleton.mp single
    exact outside task i (heldOwned i member) List.mem_cons_self
  · rw [place.1]
    intro i member other different owned
    rcases List.mem_append.mp member with held | single
    · exact exclusive.apart task other different.symm i (heldOwned i held) owned
    · obtain rfl := List.mem_singleton.mp single
      exact outside other i owned List.mem_cons_self
  · refine ⟨below, newChain, (List.nodup_cons.mp nodup).2.sublist inside, ?_⟩
    intro other i member free
    have onStack := inside.subset free
    by_cases mine : other = task
    · subst mine
      rw [place.1] at member
      rcases List.mem_append.mp member with held | single
      · exact outside other i (heldOwned i held) (List.mem_cons_of_mem _ onStack)
      · obtain rfl := List.mem_singleton.mp single
        exact (List.nodup_cons.mp nodup).1 onStack
    · rw [(still other mine).1] at member
      exact outside other i member (List.mem_cons_of_mem _ onStack)
  · intro other i oldTop reached
    by_cases mine : other = task
    · subst mine
      rw [place.2] at reached
      exact absurd reached (by simp)
    · exact exclusive.linked other i oldTop ((still other mine).2 ▸ reached)

/-- `release` links the slab it owns to the top it last saw. -/
theorem Exclusive.link {task : τ} {i : Nat} {oldTop : Option Nat} (exclusive : s.Exclusive)
    (here : s.pc task = .releaseLink i oldTop) :
    (({ s with pool := s.pool.setNextFree i oldTop } : PoolTasks τ).goto task
      (.releaseExchange i oldTop)).Exclusive := by
  rw [goto_eq_proceed]
  have mineOwned : i ∈ s.owned task := by simp [owned, here, PoolPc.carries]
  have place := owned_proceed (s := s) task (s.pool.setNextFree i oldTop) (s.held task)
    (.releaseExchange i oldTop)
  have same : (s.proceed task (s.pool.setNextFree i oldTop) (s.held task)
      (.releaseExchange i oldTop)).owned task = s.owned task := by
    rw [place.1, owned, here]
    rfl
  have still := still_proceed (s := s) task (s.pool.setNextFree i oldTop) (s.held task)
    (.releaseExchange i oldTop)
  apply exclusive.move still
  · rw [same]
    exact exclusive.once task
  · rw [same]
    exact fun j member other different => exclusive.apart task other different.symm j member
  · obtain ⟨free, chain, nodup, outside⟩ := exclusive.stack
    refine ⟨free, chain.frame (outside task i mineOwned) oldTop, nodup, ?_⟩
    intro other j member
    by_cases mine : other = task
    · subst mine
      rw [same] at member
      exact outside other j member
    · rw [(still other mine).1] at member
      exact outside other j member
  · intro other j expected reached
    by_cases mine : other = task
    · subst mine
      rw [place.2] at reached
      obtain ⟨rfl, rfl⟩ := PoolPc.releaseExchange.inj reached
      exact Function.update_self ..
    · rw [(still other mine).2] at reached
      have theirs : j ∈ s.owned other := by simp [owned, reached, PoolPc.carries]
      have different : j ≠ i := by
        rintro rfl
        exact exclusive.apart other task mine j theirs mineOwned
      exact (Function.update_of_ne different ..).trans (exclusive.linked other j expected reached)

/-- `release` makes its slab the top. -/
theorem Exclusive.put {task : τ} {i : Nat} {oldTop : Option Nat} (exclusive : s.Exclusive)
    (here : s.pc task = .releaseExchange i oldTop) (top : s.pool.top = oldTop) :
    (({ s with pool := { s.pool with top := some i } } : PoolTasks τ).goto task
      .releaseCount).Exclusive := by
  rw [goto_eq_proceed]
  have mineOwned : i ∈ s.owned task := by simp [owned, here, PoolPc.carries]
  have place := owned_proceed (s := s) task { s.pool with top := some i } (s.held task)
    .releaseCount
  have nothing : PoolPc.releaseCount.carries = [] := rfl
  rw [nothing, List.append_nil] at place
  have still := still_proceed (s := s) task { s.pool with top := some i } (s.held task)
    .releaseCount
  have mine := exclusive.once task
  rw [owned, here] at mine
  obtain ⟨heldOnce, _, given⟩ := List.nodup_append.mp mine
  apply exclusive.move still
  · rw [place.1]
    exact heldOnce
  · rw [place.1]
    exact fun j member other different =>
      exclusive.apart task other different.symm j (List.mem_append_left _ member)
  · obtain ⟨free, chain, nodup, outside⟩ := exclusive.stack
    have linked := exclusive.linked task i oldTop here
    refine ⟨i :: free, chain.push (linked.trans top.symm),
      List.nodup_cons.mpr ⟨outside task i mineOwned, nodup⟩, ?_⟩
    intro other j member
    by_cases acts : other = task
    · subst acts
      rw [place.1] at member
      rintro (_ | ⟨_, onStack⟩)
      · exact given i member i List.mem_cons_self rfl
      · exact outside other j (List.mem_append_left _ member) onStack
    · rw [(still other acts).1] at member
      rintro (_ | ⟨_, onStack⟩)
      · exact exclusive.apart other task acts i member mineOwned
      · exact outside other j member onStack
  · intro other j expected reached
    by_cases acts : other = task
    · subst acts
      rw [place.2] at reached
      exact absurd reached (by simp)
    · exact exclusive.linked other j expected ((still other acts).2 ▸ reached)

/-! ## Any step -/

theorem acquireLoop_carries (top : Option Nat) : (acquireLoop top).carries = [] := by
  cases top <;> rfl

theorem acquireLoop_ne (top : Option Nat) (i : Nat) (oldTop : Option Nat) :
    acquireLoop top ≠ .releaseExchange i oldTop := by
  cases top <;> simp [acquireLoop]

theorem releaseLoop_carries (i cur : Nat) : (releaseLoop i cur).carries.Sublist [i] := by
  unfold releaseLoop
  split
  · exact List.Sublist.refl _
  · exact List.nil_sublist _

theorem releaseLoop_ne (i cur j : Nat) (oldTop : Option Nat) :
    releaseLoop i cur ≠ .releaseExchange j oldTop := by
  unfold releaseLoop
  split <;> simp

/-- One access of a task, by the place where it stands. -/
theorem Exclusive.advance {task : τ} {spurious : Bool} (exclusive : s.Exclusive)
    (stands : s.LinkStands (.advance task spurious)) :
    (s.advance task spurious).Exclusive := by
  unfold PoolTasks.advance
  cases here : s.pc task with
  | idle => exact exclusive
  | acquireTop =>
      refine exclusive.goto rfl rfl ?_ (acquireLoop_ne _)
      rw [acquireLoop_carries]
      exact List.nil_sublist _
  | acquireNext t => exact exclusive.goto rfl rfl (List.nil_sublist _) (by simp)
  | acquireExchange t next =>
      dsimp only
      split
      · rename_i found
        rw [found.2] at stands
        exact exclusive.take here found.1 stands
      · refine exclusive.goto rfl rfl ?_ (acquireLoop_ne _)
        rw [acquireLoop_carries]
        exact List.nil_sublist _
  | acquireCount t =>
      refine exclusive.goto rfl rfl ?_ (by simp)
      rw [here]
      exact List.Sublist.refl _
  | acquireRefcount t =>
      refine exclusive.goto rfl rfl ?_ (by simp)
      rw [here]
      exact List.Sublist.refl _
  | acquireLen t =>
      have kept : (t :: s.held task ++ PoolPc.idle.carries).Subperm (s.owned task) := by
        have nothing : PoolPc.idle.carries = [] := rfl
        rw [owned, here, nothing, List.append_nil]
        exact (List.perm_append_singleton t _).symm.subperm
      exact exclusive.proceed rfl rfl kept fun _ _ reached => absurd reached (by simp)
  | acquireFailed => exact exclusive.goto rfl rfl (List.nil_sublist _) (by simp)
  | releaseRefcount i =>
      refine exclusive.goto rfl rfl ?_ (releaseLoop_ne _ _)
      rw [here]
      exact releaseLoop_carries _ _
  | releaseDecrement i cur =>
      dsimp only
      split
      · refine exclusive.goto rfl rfl ?_ ?_
        · rw [here]
          split
          · exact List.Sublist.refl _
          · exact List.nil_sublist _
        · intro j oldTop
          split <;> simp
      · refine exclusive.goto rfl rfl ?_ (releaseLoop_ne _ _)
        rw [here]
        exact releaseLoop_carries _ _
  | releaseTop i =>
      refine exclusive.goto rfl rfl ?_ (by simp)
      rw [here]
      exact List.Sublist.refl _
  | releaseLink i oldTop => exact exclusive.link here
  | releaseExchange i oldTop =>
      dsimp only
      split
      · rename_i found
        exact exclusive.put here found.1
      · refine exclusive.goto rfl rfl ?_ (by simp)
        rw [here]
        exact List.Sublist.refl _
  | releaseCount => exact exclusive.goto rfl rfl (List.nil_sublist _) (by simp)
  | releaseOverflow => exact exclusive.goto rfl rfl (List.nil_sublist _) (by simp)

/-- A task takes over a slab that is neither owned nor on the stack. -/
theorem Exclusive.gain {i : Nat} (exclusive : s.Exclusive) (task : τ)
    (nobody : ∀ other, i ∉ s.owned other)
    (offStack : ∀ free, Chain s.pool.nextFree s.pool.top free → i ∉ free) :
    (s.proceed task s.pool (i :: s.held task) (s.pc task)).Exclusive := by
  have place := owned_proceed (s := s) task s.pool (i :: s.held task) (s.pc task)
  have still := still_proceed (s := s) task s.pool (i :: s.held task) (s.pc task)
  have grown : (s.proceed task s.pool (i :: s.held task) (s.pc task)).owned task =
      i :: s.owned task := place.1
  apply exclusive.move still
  · rw [grown]
    exact List.nodup_cons.mpr ⟨nobody task, exclusive.once task⟩
  · rw [grown]
    intro j member other different
    rcases List.mem_cons.mp member with rfl | old
    · exact nobody other
    · exact exclusive.apart task other different.symm j old
  · obtain ⟨free, chain, nodup, outside⟩ := exclusive.stack
    refine ⟨free, chain, nodup, fun other j member => ?_⟩
    by_cases mine : other = task
    · subst mine
      rw [grown] at member
      rcases List.mem_cons.mp member with rfl | old
      · exact offStack free chain
      · exact outside other j old
    · rw [(still other mine).1] at member
      exact outside other j member
  · intro other j oldTop reached
    by_cases mine : other = task
    · subst mine
      rw [place.2] at reached
      exact exclusive.linked other j oldTop reached
    · exact exclusive.linked other j oldTop ((still other mine).2 ▸ reached)

/-- A held slab changes hands: the giver drops it, then the taker picks it up. -/
theorem Exclusive.hand {giver taker : τ} {i : Nat} (exclusive : s.Exclusive)
    (holds : i ∈ s.held giver) : (s.step (.hand giver taker i)).Exclusive := by
  let dropped := s.proceed giver s.pool ((s.held giver).erase i) (s.pc giver)
  have less : ((s.held giver).erase i ++ (s.pc giver).carries).Subperm (s.owned giver) :=
    (List.Sublist.append_right List.erase_sublist _).subperm
  have after : dropped.Exclusive := exclusive.proceed rfl rfl less fun _ _ reached => reached
  have given : i ∈ s.owned giver := List.mem_append_left _ holds
  have place := owned_proceed (s := s) giver s.pool ((s.held giver).erase i) (s.pc giver)
  have still := still_proceed (s := s) giver s.pool ((s.held giver).erase i) (s.pc giver)
  have nobody : ∀ other, i ∉ dropped.owned other := by
    intro other
    by_cases mine : other = giver
    · subst mine
      rw [place.1]
      obtain ⟨once, _, differ⟩ := List.nodup_append.mp (exclusive.once other)
      intro member
      rcases List.mem_append.mp member with erased | carried
      · exact (List.Nodup.not_mem_erase once) erased
      · exact differ i holds i carried rfl
    · rw [(still other mine).1]
      exact exclusive.apart giver other (Ne.symm mine) i given
  have offStack : ∀ free, Chain dropped.pool.nextFree dropped.pool.top free → i ∉ free := by
    intro free chain
    obtain ⟨cells, runs, _, outside⟩ := exclusive.stack
    rw [chain.unique runs]
    exact outside giver i given
  have picked := after.gain taker nobody offStack
  have same : s.step (.hand giver taker i) =
      dropped.proceed taker dropped.pool (i :: dropped.held taker) (dropped.pc taker) := by
    simp only [step, if_pos holds, dropped, PoolTasks.proceed, Function.update_eq_self]
  rw [same]
  exact picked

/-- Every step keeps exclusive ownership while links stand. -/
theorem Exclusive.step {action : Action τ} (exclusive : s.Exclusive)
    (stands : s.LinkStands action) : (s.step action).Exclusive := by
  cases action with
  | acquire task =>
      unfold PoolTasks.step
      dsimp only
      split
      · exact exclusive.goto rfl rfl (List.nil_sublist _) (by simp)
      · exact exclusive
  | release task i =>
      unfold PoolTasks.step
      dsimp only
      split
      · rename_i called
        have kept : ((s.held task).erase i ++ (PoolPc.releaseRefcount i).carries).Subperm
            (s.owned task) := by
          have nothing : PoolPc.idle.carries = [] := rfl
          rw [owned, called.1, nothing, List.append_nil]
          exact ((List.perm_append_singleton i _).trans
            (List.perm_cons_erase called.2).symm).subperm
        exact exclusive.proceed rfl rfl kept fun _ _ reached => absurd reached (by simp)
      · exact exclusive
  | hand giver taker i =>
      by_cases holds : i ∈ s.held giver
      · exact exclusive.hand holds
      · have same : s.step (.hand giver taker i) = s := if_neg holds
        rw [same]
        exact exclusive
  | advance task spurious => exact exclusive.advance stands

/-! ## Runs -/

/-- Every step of the run meets `LinkStands`. -/
def LinksStand (s : PoolTasks τ) : List (Action τ) → Prop
  | [] => True
  | action :: rest => s.LinkStands action ∧ (s.step action).LinksStand rest

omit [DecidableEq τ] in
theorem exclusive_boot {size : Nat} (positive : 0 < size) :
    (boot size : PoolTasks τ).Exclusive where
  stack := by
    have stack := BufferPool.FreeStack.init positive
    exact ⟨_, stack.chain, stack.nodup, fun _ _ member => absurd member List.not_mem_nil⟩
  once _ := List.nodup_nil
  apart _ _ _ _ member := absurd member List.not_mem_nil
  linked _ _ _ here := absurd here (by simp [boot])

/-- In every run of any number of tasks in which no exchange of `acquire` installs a
link that has left the stack, all states reached are safe. -/
theorem no_shared_slab_while_links_stand (size : Nat) (positive : 0 < size)
    (actions : List (Action τ)) (stand : (boot size : PoolTasks τ).LinksStand actions) :
    ∀ before after, actions = before ++ after → ((boot size : PoolTasks τ).run before).Safe := by
  have exclusive : (boot size : PoolTasks τ).Exclusive := exclusive_boot positive
  generalize (boot size : PoolTasks τ) = s at stand exclusive
  induction actions generalizing s with
  | nil =>
      intro before after split
      obtain ⟨rfl, _⟩ := List.append_eq_nil_iff.mp split.symm
      exact exclusive.safe
  | cons action rest inductionHypothesis =>
      intro before after split
      cases before with
      | nil => exact exclusive.safe
      | cons first before =>
          obtain ⟨rfl, tail⟩ := List.cons.inj split
          exact inductionHypothesis (s.step action) stand.2 (exclusive.step stand.1)
            before after tail

/-! ## Undisturbed calls -/

/-- An undisturbed `acquire` of a task: the call and its six accesses. -/
def acquireAlone (task : τ) : List (Action τ) :=
  .acquire task :: List.replicate 6 (.advance task false)

/-- An undisturbed `release` of a task: the call and its six accesses. -/
def releaseAlone (task : τ) (i : Nat) : List (Action τ) :=
  .release task i :: List.replicate 6 (.advance task false)

/-! ## A stalled acquire -/

/-- Task 0 has read the top, slab 0, and its link to slab 1. Meanwhile task 1 takes
slabs 0 and 1 and releases slab 0. Then task 0 goes on, and acquires once more. -/
def stalledAcquire : List (Action (Fin 2)) :=
  .acquire 0 :: List.replicate 2 (.advance 0 false) ++ acquireAlone 1 ++ acquireAlone 1 ++
    releaseAlone 1 0 ++ List.replicate 4 (.advance 0 false) ++ acquireAlone 0

/-- Both tasks hold slab 1. -/
theorem stalled_acquire_shares_slab :
    1 ∈ ((boot poolSize : PoolTasks (Fin 2)).run stalledAcquire).held 0 ∧
      1 ∈ ((boot poolSize : PoolTasks (Fin 2)).run stalledAcquire).held 1 := by
  decide +kernel

/-- Two undisturbed acquires of a pool of three slabs. -/
theorem undisturbed_tasks_safe :
    (boot 3 : PoolTasks (Fin 2)).LinksStand (acquireAlone 1 ++ acquireAlone 0) ∧
      ((boot 3 : PoolTasks (Fin 2)).run (acquireAlone 1 ++ acquireAlone 0)).Safe := by
  have stand : (boot 3 : PoolTasks (Fin 2)).LinksStand
      (acquireAlone 1 ++ acquireAlone 0) := by
    refine ⟨trivial, trivial, trivial, fun _ => ⟨[1, 2], ?_, List.mem_cons_self⟩,
      trivial, trivial, trivial, trivial, trivial, trivial,
      fun _ => ⟨[2], ?_, List.mem_cons_self⟩, trivial, trivial, trivial, trivial⟩
    · exact .cons (.cons .nil)
    · exact .cons .nil
  exact ⟨stand, no_shared_slab_while_links_stand 3 (by decide) _ stand _ []
    (List.append_nil _).symm⟩

end PoolTasks

end ForestLink.Protocol
