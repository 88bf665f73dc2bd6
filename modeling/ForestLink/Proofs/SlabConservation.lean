/-
Module: ForestLink.Proofs.SlabConservation
Purpose: No slab is lost between pool, receive paths, queues and mesh loop, as long as
  no empty packet meets a full queue.
Trusted boundary: none
Main exports: PoolTasks.LinkFresh, PoolTasks.Complete, RxSystem.Lossless,
  slabs_conserved_without_empty_packets
-/
import ForestLink.Proofs.BufferPoolRace
import ForestLink.Transport.Receive

namespace ForestLink.Protocol

open ForestLink.Lib

/-- The slab of the call a task is in that carries exactly one reference. -/
def PoolPc.counted : PoolPc → List Nat
  | .acquireLen t => [t]
  | .releaseRefcount i | .releaseDecrement i _ => [i]
  | _ => []

namespace PoolTasks

variable {τ : Type} [DecidableEq τ] {s : PoolTasks τ} {task : τ}

/-! ## Every slab has a place -/

/-- Before this step: an exchange of `acquire` that is about to succeed still finds the
link it read. -/
def LinkFresh (s : PoolTasks τ) : Action τ → Prop
  | .advance task false =>
      match s.pc task with
      | .acquireExchange t next => s.pool.top = some t → s.pool.nextFree t = next
      | _ => True
  | _ => True

/-- Every slab is on the stack or owned by a task, and held slabs have exactly one
reference. -/
structure Complete (s : PoolTasks τ) : Prop where
  covers : ∀ free, Chain s.pool.nextFree s.pool.top free → ∀ i, i < s.pool.size →
    i ∈ free ∨ ∃ task, i ∈ s.owned task
  single : ∀ task, ∀ i ∈ s.held task ++ (s.pc task).counted, s.pool.refcount i = 1
  decrement : ∀ task i cur, s.pc task = .releaseDecrement i cur → cur = 1

omit [DecidableEq τ] in
theorem counted_owned (task : τ) :
    ∀ i ∈ s.held task ++ (s.pc task).counted, i ∈ s.owned task := by
  intro i member
  unfold owned
  rcases List.mem_append.mp member with held | counted
  · exact List.mem_append_left _ held
  · apply List.mem_append_right
    cases here : s.pc task <;> simp_all [PoolPc.counted, PoolPc.carries]

/-- What a step of one task has to keep. -/
theorem Complete.proceed {pool : BufferPool} {held : List Nat} {pc : PoolPc}
    (complete : s.Complete) (exclusive : s.Exclusive) (size : pool.size = s.pool.size)
    (others : ∀ other, other ≠ task → ∀ i ∈ s.owned other,
      pool.refcount i = s.pool.refcount i)
    (mine : ∀ i ∈ held ++ pc.counted, pool.refcount i = 1)
    (decrement : ∀ i cur, pc = .releaseDecrement i cur → cur = 1)
    (covers : ∀ free, Chain s.pool.nextFree s.pool.top free →
      ∀ after, Chain pool.nextFree pool.top after →
        ∀ i ∈ free ++ s.owned task, i ∈ after ++ (held ++ pc.carries)) :
    (s.proceed task pool held pc).Complete := by
  have place := owned_proceed (s := s) task pool held pc
  have still := still_proceed (s := s) task pool held pc
  refine ⟨?_, ?_, ?_⟩
  · intro after chain i inside
    obtain ⟨free, before, _, _⟩ := exclusive.stack
    have here : i ∈ free ++ s.owned task →
        i ∈ after ∨ ∃ other, i ∈ (s.proceed task pool held pc).owned other := by
      intro member
      rcases List.mem_append.mp (covers free before after chain i member) with stack | own
      · exact .inl stack
      · exact .inr ⟨task, place.1 ▸ own⟩
    rcases complete.covers free before i (size ▸ inside) with stack | ⟨other, own⟩
    · exact here (List.mem_append_left _ stack)
    · by_cases acts : other = task
      · exact here (List.mem_append_right _ (acts ▸ own))
      · exact .inr ⟨other, (still other acts).1 ▸ own⟩
  · intro other i member
    by_cases acts : other = task
    · subst acts
      have slabs : (s.proceed other pool held pc).held other = held := Function.update_self ..
      rw [slabs, place.2] at member
      exact mine i member
    · have slabs : (s.proceed task pool held pc).held other = s.held other :=
        Function.update_of_ne acts ..
      rw [slabs, (still other acts).2] at member
      exact (others other acts i (counted_owned other i member)).trans
        (complete.single other i member)
  · intro other i cur reached
    by_cases acts : other = task
    · subst acts
      rw [place.2] at reached
      exact decrement i cur reached
    · exact complete.decrement other i cur ((still other acts).2 ▸ reached)

/-- A step that neither changes the stack nor a count, and keeps what the task owns. -/
theorem Complete.quiet {pool : BufferPool} {held : List Nat} {pc : PoolPc}
    (complete : s.Complete) (exclusive : s.Exclusive) (size : pool.size = s.pool.size)
    (links : pool.nextFree = s.pool.nextFree) (top : pool.top = s.pool.top)
    (refcount : pool.refcount = s.pool.refcount)
    (kept : ∀ i ∈ s.owned task, i ∈ held ++ pc.carries)
    (single : ∀ i ∈ held ++ pc.counted, i ∈ s.held task ++ (s.pc task).counted)
    (decrement : ∀ i cur, pc = .releaseDecrement i cur → cur = 1) :
    (s.proceed task pool held pc).Complete := by
  apply complete.proceed exclusive size
  · exact fun _ _ i _ => congrFun refcount i
  · intro i member
    rw [refcount]
    exact complete.single task i (single i member)
  · exact decrement
  · intro free before after chain i member
    rw [links, top] at chain
    obtain rfl := before.unique chain
    rcases List.mem_append.mp member with stack | own
    · exact List.mem_append_left _ stack
    · exact List.mem_append_right _ (kept i own)

/-- The task only moves on inside its call. -/
theorem Complete.goto {pool : BufferPool} {pc : PoolPc} (complete : s.Complete)
    (exclusive : s.Exclusive) (size : pool.size = s.pool.size)
    (links : pool.nextFree = s.pool.nextFree) (top : pool.top = s.pool.top)
    (refcount : pool.refcount = s.pool.refcount)
    (kept : (s.pc task).carries = pc.carries)
    (single : ∀ i ∈ pc.counted, i ∈ (s.pc task).counted)
    (decrement : ∀ i cur, pc = .releaseDecrement i cur → cur = 1) :
    (({ s with pool := pool } : PoolTasks τ).goto task pc).Complete := by
  rw [goto_eq_proceed]
  apply complete.quiet exclusive size links top refcount _ _ decrement
  · intro i member
    unfold owned at member
    rw [kept] at member
    exact member
  · intro i member
    rcases List.mem_append.mp member with held | counted
    · exact List.mem_append_left _ held
    · exact List.mem_append_right _ (single i counted)

/-- A count is written for a slab that only the task owns. -/
theorem Complete.count {i value : Nat} {pc : PoolPc} (complete : s.Complete)
    (exclusive : s.Exclusive) (here : (s.pc task).carries = [i]) (kept : pc.carries = [i])
    (counted : pc.counted = [] ∨ (pc.counted = [i] ∧ value = 1))
    (decrement : ∀ i cur, pc = .releaseDecrement i cur → cur = 1) :
    (({ s with pool := s.pool.setRefcount i value } : PoolTasks τ).goto task pc).Complete := by
  rw [goto_eq_proceed]
  have owns : i ∈ s.owned task := by simp [owned, here]
  have once := exclusive.once task
  unfold owned at once
  rw [here] at once
  have unheld : i ∉ s.held task := fun member =>
    (List.nodup_append.mp once).2.2 i member i List.mem_cons_self rfl
  refine complete.proceed exclusive rfl ?_ ?_ ?_ ?_
  · intro other acts j member
    have different : j ≠ i := by
      rintro rfl
      exact exclusive.apart other task acts j member owns
    exact Function.update_of_ne different ..
  · intro j member
    rcases List.mem_append.mp member with held | own
    · have different : j ≠ i := fun same => unheld (same ▸ held)
      exact (Function.update_of_ne different ..).trans
        (complete.single task j (List.mem_append_left _ held))
    · rcases counted with none | ⟨own', rfl⟩
      · rw [none] at own
        exact absurd own List.not_mem_nil
      · rw [own'] at own
        obtain rfl := List.mem_singleton.mp own
        exact Function.update_self ..
  · exact decrement
  · intro free before after chain j member
    obtain rfl := before.unique chain
    rw [kept]
    unfold owned at member
    rw [here] at member
    exact member

/-- `acquire` takes the top and leaves the rest of the stack. -/
theorem Complete.take {t : Nat} {next : Option Nat} (complete : s.Complete)
    (exclusive : s.Exclusive) (here : s.pc task = .acquireExchange t next)
    (top : s.pool.top = some t) (fresh : s.pool.nextFree t = next) :
    (({ s with pool := { s.pool with top := next } } : PoolTasks τ).goto task
      (.acquireCount t)).Complete := by
  rw [goto_eq_proceed]
  refine complete.proceed exclusive rfl ?_ ?_ ?_ ?_
  · exact fun _ _ _ _ => rfl
  · intro i member
    have nothing : (PoolPc.acquireCount t).counted = [] := rfl
    rw [nothing, List.append_nil] at member
    exact complete.single task i (List.mem_append_left _ member)
  · simp
  · intro free before after chain i member
    rw [top] at before
    obtain ⟨rest, rfl, tail⟩ := before.pop
    rw [fresh] at tail
    obtain rfl := tail.unique chain
    unfold owned at member
    rw [here] at member
    simp only [PoolPc.carries, List.append_nil, List.mem_append, List.mem_cons,
      List.not_mem_nil, or_false] at member ⊢
    rcases member with (first | below) | held
    · exact .inr (.inr first)
    · exact .inl below
    · exact .inr (.inl held)

/-- `release` writes the link of a slab that is not on the stack. -/
theorem Complete.link {i : Nat} {oldTop : Option Nat} (complete : s.Complete)
    (exclusive : s.Exclusive) (here : s.pc task = .releaseLink i oldTop) :
    (({ s with pool := s.pool.setNextFree i oldTop } : PoolTasks τ).goto task
      (.releaseExchange i oldTop)).Complete := by
  rw [goto_eq_proceed]
  refine complete.proceed exclusive rfl ?_ ?_ ?_ ?_
  · exact fun _ _ _ _ => rfl
  · intro j member
    have nothing : (PoolPc.releaseExchange i oldTop).counted = [] := rfl
    rw [nothing, List.append_nil] at member
    exact complete.single task j (List.mem_append_left _ member)
  · simp
  · intro free before after chain j member
    have owns : i ∈ s.owned task := by simp [owned, here, PoolPc.carries]
    obtain ⟨cells, runs, _, outside⟩ := exclusive.stack
    obtain rfl := before.unique runs
    obtain rfl := (before.frame (outside task i owns) oldTop).unique chain
    unfold owned at member
    rw [here] at member
    exact member

/-- `release` makes its slab the top. -/
theorem Complete.put {i : Nat} {oldTop : Option Nat} (complete : s.Complete)
    (exclusive : s.Exclusive) (here : s.pc task = .releaseExchange i oldTop)
    (top : s.pool.top = oldTop) :
    (({ s with pool := { s.pool with top := some i } } : PoolTasks τ).goto task
      .releaseCount).Complete := by
  rw [goto_eq_proceed]
  refine complete.proceed exclusive rfl ?_ ?_ ?_ ?_
  · exact fun _ _ _ _ => rfl
  · intro j member
    have nothing : (PoolPc.releaseCount).counted = [] := rfl
    rw [nothing, List.append_nil] at member
    exact complete.single task j (List.mem_append_left _ member)
  · simp
  · intro free before after chain j member
    have linked := exclusive.linked task i oldTop here
    obtain rfl := (before.push (linked.trans top.symm)).unique chain
    unfold owned at member
    rw [here] at member
    simp only [PoolPc.carries, List.append_nil, List.mem_append, List.mem_cons,
      List.not_mem_nil, or_false] at member ⊢
    rcases member with below | held | own
    · exact .inl (.inr below)
    · exact .inr held
    · exact .inl (.inl own)

/-- A slab with one reference is decremented, never found unused. -/
theorem releaseLoop_one (i : Nat) : releaseLoop i 1 = .releaseDecrement i 1 := rfl

/-- One access of a task, by the place where it stands. -/
theorem Complete.advance {spurious : Bool} (complete : s.Complete) (exclusive : s.Exclusive)
    (fresh : s.LinkFresh (.advance task spurious)) : (s.advance task spurious).Complete := by
  unfold PoolTasks.advance
  have loop : ∀ top : Option Nat, (acquireLoop top).carries = [] ∧
      (acquireLoop top).counted = [] ∧
      ∀ i cur, acquireLoop top ≠ .releaseDecrement i cur := by
    intro top
    cases top <;> simp [acquireLoop, PoolPc.carries, PoolPc.counted]
  cases here : s.pc task with
  | idle => exact complete
  | acquireTop =>
      refine complete.goto exclusive rfl rfl rfl rfl ?_ ?_ ?_
      · rw [here, (loop _).1]
        rfl
      · rw [(loop _).2.1]
        exact fun _ member => absurd member List.not_mem_nil
      · exact fun i cur reached => absurd reached ((loop _).2.2 i cur)
  | acquireNext t =>
      refine complete.goto exclusive rfl rfl rfl rfl ?_ (by simp [PoolPc.counted]) (by simp)
      rw [here]
      rfl
  | acquireExchange t next =>
      dsimp only
      split
      · rename_i found
        rw [found.2] at fresh
        simp only [LinkFresh, here] at fresh
        exact complete.take exclusive here found.1 (fresh found.1)
      · refine complete.goto exclusive rfl rfl rfl rfl ?_ ?_ ?_
        · rw [here, (loop _).1]
          rfl
        · rw [(loop _).2.1]
          exact fun _ member => absurd member List.not_mem_nil
        · exact fun i cur reached => absurd reached ((loop _).2.2 i cur)
  | acquireCount t =>
      refine complete.goto exclusive rfl rfl rfl rfl ?_ (by simp [PoolPc.counted]) (by simp)
      rw [here]
      rfl
  | acquireRefcount t =>
      exact complete.count exclusive (by rw [here]; rfl) rfl (.inr ⟨rfl, rfl⟩) (by simp)
  | acquireLen t =>
      apply complete.quiet exclusive
      · rfl
      · rfl
      · rfl
      · rfl
      · intro i member
        unfold owned at member
        rw [here] at member
        simp only [PoolPc.carries, List.mem_append, List.mem_singleton] at member
        simp only [PoolPc.carries, List.append_nil, List.mem_cons]
        exact member.symm
      · intro i member
        rw [here]
        simp only [PoolPc.counted, List.append_nil, List.mem_cons] at member
        simp only [PoolPc.counted, List.mem_append, List.mem_singleton]
        exact member.symm
      · simp
  | acquireFailed =>
      refine complete.goto exclusive rfl rfl rfl rfl ?_ (by simp [PoolPc.counted]) (by simp)
      rw [here]
      rfl
  | releaseRefcount i =>
      have one : s.pool.refcount i = 1 :=
        complete.single task i (List.mem_append_right _ (by simp [here, PoolPc.counted]))
      dsimp only
      rw [one, releaseLoop_one]
      refine complete.goto exclusive rfl rfl rfl rfl ?_ ?_ ?_
      · rw [here]
        rfl
      · rw [here]
        exact fun _ member => member
      · exact fun _ _ reached => (PoolPc.releaseDecrement.inj reached).2.symm
  | releaseDecrement i cur =>
      have one : s.pool.refcount i = 1 :=
        complete.single task i (List.mem_append_right _ (by simp [here, PoolPc.counted]))
      obtain rfl := complete.decrement task i cur here
      dsimp only
      split
      · rw [if_pos rfl]
        exact complete.count exclusive (by rw [here]; rfl) rfl (.inl rfl) (by simp)
      · rw [one, releaseLoop_one]
        refine complete.goto exclusive rfl rfl rfl rfl ?_ ?_ ?_
        · rw [here]
        · rw [here]
          exact fun _ member => member
        · exact fun _ _ reached => (PoolPc.releaseDecrement.inj reached).2.symm
  | releaseTop i =>
      refine complete.goto exclusive rfl rfl rfl rfl ?_ (by simp [PoolPc.counted]) (by simp)
      rw [here]
      rfl
  | releaseLink i oldTop => exact complete.link exclusive here
  | releaseExchange i oldTop =>
      dsimp only
      split
      · rename_i found
        exact complete.put exclusive here found.1
      · refine complete.goto exclusive rfl rfl rfl rfl ?_ (by simp [PoolPc.counted]) (by simp)
        rw [here]
        rfl
  | releaseCount =>
      refine complete.goto exclusive rfl rfl rfl rfl ?_ (by simp [PoolPc.counted]) (by simp)
      rw [here]
      rfl
  | releaseOverflow =>
      refine complete.goto exclusive rfl rfl rfl rfl ?_ (by simp [PoolPc.counted]) (by simp)
      rw [here]
      rfl

/-- Who holds what after a slab has changed hands. -/
theorem mem_held_hand {giver taker : τ} {i j : Nat} (holds : i ∈ s.held giver) (task : τ) :
    j ∈ (s.step (.hand giver taker i)).held task ↔
      (task = taker ∧ j = i) ∨
        j ∈ if task = giver then (s.held giver).erase i else s.held task := by
  have given : Function.update s.held giver ((s.held giver).erase i) task =
      if task = giver then (s.held giver).erase i else s.held task := by
    by_cases gives : task = giver
    · rw [if_pos gives, gives, Function.update_self]
    · rw [if_neg gives, Function.update_of_ne gives]
  simp only [PoolTasks.step, if_pos holds]
  by_cases takes : task = taker
  · subst takes
    rw [Function.update_self, given, List.mem_cons]
    simp only [true_and]
  · rw [Function.update_of_ne takes, given]
    simp only [takes, false_and, false_or]

/-- A held slab changes hands. -/
theorem Complete.hand {giver taker : τ} {i : Nat} (complete : s.Complete)
    (holds : i ∈ s.held giver) : (s.step (.hand giver taker i)).Complete := by
  have rest : (s.step (.hand giver taker i)).pool = s.pool ∧
      (s.step (.hand giver taker i)).pc = s.pc := by
    simp only [PoolTasks.step, if_pos holds, and_self]
  refine ⟨?_, ?_, ?_⟩
  · rw [rest.1]
    intro free chain j inside
    rcases complete.covers free chain j inside with stack | ⟨task, own⟩
    · exact .inl stack
    · refine .inr ?_
      unfold owned at own ⊢
      rw [rest.2]
      rcases List.mem_append.mp own with held | carried
      · by_cases given : j = i
        · exact ⟨taker, List.mem_append_left _ ((mem_held_hand holds _).mpr (.inl ⟨rfl, given⟩))⟩
        · refine ⟨task, List.mem_append_left _ ((mem_held_hand holds _).mpr (.inr ?_))⟩
          split
          · rename_i gives
            exact (List.mem_erase_of_ne given).mpr (gives ▸ held)
          · exact held
      · exact ⟨task, List.mem_append_right _ carried⟩
  · rw [rest.1, rest.2]
    intro task j member
    rcases List.mem_append.mp member with held | counted
    · rcases (mem_held_hand holds task).mp held with ⟨_, rfl⟩ | old
      · exact complete.single giver j (List.mem_append_left _ holds)
      · split at old
        · exact complete.single giver j (List.mem_append_left _ (List.mem_of_mem_erase old))
        · exact complete.single task j (List.mem_append_left _ old)
    · exact complete.single task j (List.mem_append_right _ counted)
  · rw [rest.2]
    exact complete.decrement

/-- Every step keeps every slab in some place while links stay fresh. -/
theorem Complete.step {action : Action τ} (complete : s.Complete) (exclusive : s.Exclusive)
    (fresh : s.LinkFresh action) : (s.step action).Complete := by
  cases action with
  | acquire task =>
      unfold PoolTasks.step
      dsimp only
      split
      · rename_i idle
        refine complete.goto exclusive rfl rfl rfl rfl ?_ (by simp [PoolPc.counted]) (by simp)
        rw [idle]
        rfl
      · exact complete
  | release task i =>
      unfold PoolTasks.step
      dsimp only
      split
      · rename_i called
        refine complete.quiet exclusive rfl rfl rfl rfl ?_ ?_ (by simp)
        · intro j member
          unfold owned at member
          rw [called.1] at member
          simp only [PoolPc.carries, List.append_nil, List.mem_append,
            List.mem_singleton] at member ⊢
          by_cases given : j = i
          · exact .inr given
          · exact .inl ((List.mem_erase_of_ne given).mpr member)
        · intro j member
          apply List.mem_append_left
          simp only [PoolPc.counted, List.mem_append, List.mem_singleton] at member
          rcases member with erased | rfl
          · exact List.mem_of_mem_erase erased
          · exact called.2
      · exact complete
  | hand giver taker i =>
      by_cases holds : i ∈ s.held giver
      · exact complete.hand holds
      · have same : s.step (.hand giver taker i) = s := if_neg holds
        rw [same]
        exact complete
  | advance task spurious => exact complete.advance exclusive fresh

omit [DecidableEq τ] in
/-- A fresh link still stands on the stack. -/
theorem LinkFresh.stands {action : Action τ} (fresh : s.LinkFresh action)
    (exclusive : s.Exclusive) : s.LinkStands action := by
  cases action with
  | advance task spurious =>
      cases spurious with
      | true => trivial
      | false =>
          simp only [LinkFresh] at fresh
          simp only [LinkStands]
          cases here : s.pc task with
          | acquireExchange t next =>
              cases next with
              | none => trivial
              | some next =>
                  rw [here] at fresh
                  intro top
                  obtain ⟨free, chain, _, _⟩ := exclusive.stack
                  rw [top] at chain
                  obtain ⟨rest, rfl, tail⟩ := chain.pop
                  refine ⟨rest, tail, ?_⟩
                  rw [fresh top] at tail
                  obtain ⟨behind, rfl, _⟩ := tail.pop
                  exact List.mem_cons_self
          | _ => trivial
  | acquire task => trivial
  | release task i => trivial
  | hand giver taker i => trivial

omit [DecidableEq τ] in
theorem complete_boot (size : Nat) : (boot size : PoolTasks τ).Complete where
  covers free chain i inside := by
    have positive : 0 < size := Nat.zero_lt_of_lt inside
    have stack := BufferPool.FreeStack.init positive
    obtain rfl := stack.chain.unique chain
    exact .inl (List.mem_range.mpr inside)
  single _ _ member := absurd member List.not_mem_nil
  decrement _ _ _ here := absurd here (by simp [boot])

end PoolTasks

end ForestLink.Protocol

namespace ForestLink.Protocol

/-- Inside `acquire`. -/
def PoolPc.acquiring : PoolPc → Bool
  | .acquireTop | .acquireNext _ | .acquireExchange _ _ | .acquireCount _
  | .acquireRefcount _ | .acquireLen _ | .acquireFailed => true
  | _ => false

namespace PoolTasks

variable {τ : Type} [DecidableEq τ] {s : PoolTasks τ} {task : τ}

theorem acquiring_acquireLoop (top : Option Nat) : (acquireLoop top).acquiring = true := by
  cases top <;> rfl

theorem acquiring_releaseLoop (i cur : Nat) : (releaseLoop i cur).acquiring = false := by
  unfold releaseLoop
  split <;> rfl

/-- What an access can do to its task, which stood at `before`: it stays in its call, or
returns from `acquire` with at most one more slab. -/
def Moves (s : PoolTasks τ) (task : τ) (before : PoolPc) (after : PoolTasks τ) : Prop :=
  ∃ pool held pc, after = s.proceed task pool held pc ∧ pool.size = s.pool.size ∧
    ((pc.acquiring = before.acquiring ∧ held = s.held task ∧ (before = .idle → pc = .idle)) ∨
      (before.acquiring = true ∧ pc = .idle ∧
        (held = s.held task ∨ ∃ t, held = [t] ++ s.held task)))

theorem moves_goto {before pc : PoolPc} {pool : BufferPool} (size : pool.size = s.pool.size)
    (same : pc.acquiring = before.acquiring) (inside : before ≠ .idle) :
    s.Moves task before (({ s with pool := pool } : PoolTasks τ).goto task pc) :=
  ⟨pool, s.held task, pc, goto_eq_proceed task pool pc, size,
    .inl ⟨same, rfl, fun idle => absurd idle inside⟩⟩

theorem moves_advance (s : PoolTasks τ) (task : τ) (spurious : Bool) :
    s.Moves task (s.pc task) (s.advance task spurious) := by
  unfold PoolTasks.advance
  cases here : s.pc task with
  | idle =>
      have same : Function.update s.pc task .idle = s.pc := by
        rw [← here, Function.update_eq_self]
      refine ⟨s.pool, s.held task, .idle, ?_, rfl, .inl ⟨rfl, rfl, fun _ => rfl⟩⟩
      unfold PoolTasks.proceed
      rw [Function.update_eq_self, same]
  | acquireTop => exact moves_goto rfl (acquiring_acquireLoop _) (by simp)
  | acquireNext t => exact moves_goto rfl rfl (by simp)
  | acquireExchange t next =>
      dsimp only
      split
      · exact moves_goto rfl rfl (by simp)
      · exact moves_goto rfl (acquiring_acquireLoop _) (by simp)
  | acquireCount t => exact moves_goto rfl rfl (by simp)
  | acquireRefcount t => exact moves_goto rfl rfl (by simp)
  | acquireLen t =>
      exact ⟨s.pool.setLen t 0, t :: s.held task, .idle, rfl, rfl,
        .inr ⟨rfl, rfl, .inr ⟨t, rfl⟩⟩⟩
  | acquireFailed =>
      exact ⟨s.pool.countExhaustion, s.held task, .idle, goto_eq_proceed .., rfl,
        .inr ⟨rfl, rfl, .inl rfl⟩⟩
  | releaseRefcount i => exact moves_goto rfl (acquiring_releaseLoop _ _) (by simp)
  | releaseDecrement i cur =>
      dsimp only
      split
      · refine moves_goto rfl ?_ (by simp)
        split <;> rfl
      · exact moves_goto rfl (acquiring_releaseLoop _ _) (by simp)
  | releaseTop i => exact moves_goto rfl rfl (by simp)
  | releaseLink i oldTop => exact moves_goto rfl rfl (by simp)
  | releaseExchange i oldTop =>
      dsimp only
      split
      · exact moves_goto rfl rfl (by simp)
      · exact moves_goto rfl rfl (by simp)
  | releaseCount => exact moves_goto rfl rfl (by simp)
  | releaseOverflow => exact moves_goto rfl rfl (by simp)

theorem size_step (s : PoolTasks τ) (action : Action τ) :
    (s.step action).pool.size = s.pool.size := by
  cases action with
  | acquire task =>
      unfold PoolTasks.step
      dsimp only
      split <;> rfl
  | release task i =>
      unfold PoolTasks.step
      dsimp only
      split <;> rfl
  | hand giver taker i =>
      unfold PoolTasks.step
      dsimp only
      split <;> rfl
  | advance task spurious =>
      obtain ⟨pool, held, pc, same, size, _⟩ := moves_advance s task spurious
      have after : s.step (.advance task spurious) = s.proceed task pool held pc := same
      rw [after]
      exact size

end PoolTasks

end ForestLink.Protocol

namespace ForestLink.Transport

open ForestLink.Protocol
open ForestLink.Lib

namespace RxSystem

variable {sys : RxSystem} {size : Nat}

/-! ## Where slabs may be -/

/-- A receive path without a packet has no slab and is not in `acquire`; with one it is
in `acquire`, or back with at most one slab. -/
def Receiving (job : Option (List UInt8)) (held : List Nat) (pc : PoolPc) : Prop :=
  match job with
  | none => held = [] ∧ pc.acquiring = false
  | some _ => (pc.acquiring = true ∧ held = []) ∨ (pc = .idle ∧ held.length ≤ 1)

/-- What each agent may be doing. -/
def Placed (agent : RxAgent) (job : Option (List UInt8)) (held : List Nat) (pc : PoolPc) :
    Prop :=
  match agent with
  | .espnow | .lora => Receiving job held pc
  | .mesh => job = none ∧ pc.acquiring = false ∧ held.length ≤ 1
  | .hiQueue | .loQueue => job = none ∧ pc = .idle

/-- The invariant of the receive side. -/
structure Sound (sys : RxSystem) (size : Nat) : Prop where
  exclusive : sys.tasks.Exclusive
  complete : sys.tasks.Complete
  size : sys.tasks.pool.size = size
  placed : ∀ agent, Placed agent (sys.job agent) (sys.tasks.held agent) (sys.tasks.pc agent)

/-- Before this step: an exchange of `acquire` that is about to succeed finds the link
it read, and no slab of an empty packet meets a full queue. -/
def Lossless (sys : RxSystem) : Action → Prop
  | .access agent spurious => sys.tasks.LinkFresh (.advance agent spurious)
  | .deliver agent =>
      sys.job agent = some [] → sys.tasks.held agent ≠ [] →
        (sys.tasks.held .hiQueue).length < rxQueueDepth
  | _ => True

/-- Every step of the run is lossless. -/
def LosslessRun (sys : RxSystem) : List Action → Prop
  | [] => True
  | action :: rest => sys.Lossless action ∧ (sys.step action).LosslessRun rest

/-! ## Steps -/

/-- An agent goes on inside its call. -/
theorem Placed.stays {agent : RxAgent} {job : Option (List UInt8)} {held : List Nat}
    {pc after : PoolPc} (placed : Placed agent job held pc)
    (same : after.acquiring = pc.acquiring) (rests : pc = .idle → after = .idle) :
    Placed agent job held after := by
  have receiving : Receiving job held pc → Receiving job held after := by
    intro before
    cases job with
    | none => exact ⟨before.1, same.trans before.2⟩
    | some packet =>
        rcases before with ⟨inside, empty⟩ | ⟨idle, short⟩
        · exact .inl ⟨same.trans inside, empty⟩
        · exact .inr ⟨rests idle, short⟩
  cases agent with
  | espnow => exact receiving placed
  | lora => exact receiving placed
  | mesh => exact ⟨placed.1, same.trans placed.2.1, placed.2.2⟩
  | hiQueue => exact ⟨placed.1, rests placed.2⟩
  | loQueue => exact ⟨placed.1, rests placed.2⟩

/-- Only a receive path with a packet and no slab is in `acquire`. -/
theorem Placed.acquires {agent : RxAgent} {job : Option (List UInt8)} {held : List Nat}
    {pc : PoolPc} (placed : Placed agent job held pc) (inside : pc.acquiring = true) :
    (agent = .espnow ∨ agent = .lora) ∧ held = [] ∧ job.isSome = true := by
  have receiving : Receiving job held pc → held = [] ∧ job.isSome = true := by
    intro before
    cases job with
    | none => exact absurd (inside.symm.trans before.2) (by simp)
    | some packet =>
        rcases before with ⟨_, empty⟩ | ⟨idle, _⟩
        · exact ⟨empty, rfl⟩
        · rw [idle] at inside
          exact absurd inside (by simp [PoolPc.acquiring])
  cases agent with
  | espnow => exact ⟨.inl rfl, receiving placed⟩
  | lora => exact ⟨.inr rfl, receiving placed⟩
  | mesh => exact absurd (inside.symm.trans placed.2.1) (by simp)
  | hiQueue =>
      rw [placed.2] at inside
      exact absurd inside (by simp [PoolPc.acquiring])
  | loQueue =>
      rw [placed.2] at inside
      exact absurd inside (by simp [PoolPc.acquiring])

/-- A receive path is placed by what it is receiving. -/
theorem placed_receiver {agent : RxAgent} (receives : agent = .espnow ∨ agent = .lora)
    {job : Option (List UInt8)} {held : List Nat} {pc : PoolPc} :
    Placed agent job held pc ↔ Receiving job held pc := by
  rcases receives with rfl | rfl <;> exact Iff.rfl

/-- Only receive paths have packets. -/
theorem Placed.receives {agent : RxAgent} {packet : List UInt8} {held : List Nat}
    {pc : PoolPc} (placed : Placed agent (some packet) held pc) :
    agent = .espnow ∨ agent = .lora := by
  cases agent with
  | espnow => exact .inl rfl
  | lora => exact .inr rfl
  | mesh => exact absurd placed.1 (by simp)
  | hiQueue => exact absurd placed.1 (by simp)
  | loQueue => exact absurd placed.1 (by simp)

/-- A step on the pool, with the packets at hand after it. -/
theorem Sound.after {action : PoolTasks.Action RxAgent} {job : RxAgent → Option (List UInt8)}
    (sound : sys.Sound size) (fresh : sys.tasks.LinkFresh action)
    (placed : ∀ agent, Placed agent (job agent) ((sys.tasks.step action).held agent)
      ((sys.tasks.step action).pc agent)) :
    ({ tasks := sys.tasks.step action, job := job } : RxSystem).Sound size where
  exclusive := sound.exclusive.step (fresh.stands sound.exclusive)
  complete := sound.complete.step sound.exclusive fresh
  size := (PoolTasks.size_step _ _).trans sound.size
  placed := placed

/-- One access of an agent. -/
theorem Sound.access {agent : RxAgent} {spurious : Bool} (sound : sys.Sound size)
    (fresh : sys.tasks.LinkFresh (.advance agent spurious)) :
    (sys.step (.access agent spurious)).Sound size := by
  obtain ⟨pool, held, pc, same, _, moved⟩ :=
    PoolTasks.moves_advance sys.tasks agent spurious
  have after : sys.tasks.step (.advance agent spurious) =
      sys.tasks.proceed agent pool held pc := same
  refine sound.after fresh fun other => ?_
  rw [after]
  show Placed other (sys.job other) (Function.update sys.tasks.held agent held other)
    (Function.update sys.tasks.pc agent pc other)
  by_cases acts : other = agent
  · subst acts
    rw [Function.update_self, Function.update_self]
    rcases moved with ⟨inside, rfl, rests⟩ | ⟨inside, rfl, slabs⟩
    · exact (sound.placed other).stays inside rests
    · obtain ⟨receives, empty, packet⟩ := (sound.placed other).acquires inside
      obtain ⟨packet, job⟩ := Option.isSome_iff_exists.mp packet
      rw [placed_receiver receives, job]
      refine .inr ⟨rfl, ?_⟩
      rcases slabs with rfl | ⟨t, rfl⟩
      · rw [empty]
        exact Nat.zero_le _
      · rw [empty]
        exact Nat.le_refl _
  · rw [Function.update_of_ne acts, Function.update_of_ne acts]
    exact sound.placed other

/-- A packet arrives. -/
theorem Sound.arrive {agent : RxAgent} {packet : List UInt8} (sound : sys.Sound size) :
    (sys.arrive agent packet).Sound size := by
  unfold RxSystem.arrive
  split
  · rename_i starts
    obtain ⟨accepted, free, idle⟩ := starts
    have receives : agent = .espnow ∨ agent = .lora := by
      cases agent <;> simp_all [accepts]
    have called : sys.tasks.step (.acquire agent) = sys.tasks.goto agent .acquireTop :=
      if_pos idle
    have fresh : sys.tasks.LinkFresh (.acquire agent) := trivial
    refine sound.after fresh fun other => ?_
    have before := sound.placed other
    rw [called]
    show Placed other (Function.update sys.job agent (some packet) other)
      (sys.tasks.held other) (Function.update sys.tasks.pc agent .acquireTop other)
    by_cases acts : other = agent
    · subst acts
      rw [Function.update_self, Function.update_self, placed_receiver receives]
      rw [placed_receiver receives, free] at before
      exact .inl ⟨rfl, before.1⟩
    · rw [Function.update_of_ne acts, Function.update_of_ne acts]
      exact before
  · exact sound

/-- A slab moves from one agent to a queue or the mesh loop. -/
theorem Sound.hand {giver taker : RxAgent} {slab : Nat} {job : RxAgent → Option (List UInt8)}
    (sound : sys.Sound size) (holds : slab ∈ sys.tasks.held giver) (different : giver ≠ taker)
    (rest : ∀ other, other ≠ giver → job other = sys.job other)
    (gives : Placed giver (job giver) ((sys.tasks.held giver).erase slab)
      (sys.tasks.pc giver))
    (takes : Placed taker (sys.job taker) (slab :: sys.tasks.held taker)
      (sys.tasks.pc taker)) :
    ({ tasks := sys.tasks.step (.hand giver taker slab), job := job } : RxSystem).Sound
      size := by
  have moved : sys.tasks.step (.hand giver taker slab) =
      { sys.tasks with
        held := Function.update (Function.update sys.tasks.held giver
          ((sys.tasks.held giver).erase slab)) taker (slab :: sys.tasks.held taker) } := by
    simp only [PoolTasks.step, if_pos holds, Function.update_of_ne different.symm]
  have fresh : sys.tasks.LinkFresh (.hand giver taker slab) := trivial
  refine sound.after fresh fun other => ?_
  rw [moved]
  dsimp only
  by_cases isTaker : other = taker
  · subst isTaker
    rw [rest other different.symm, Function.update_self]
    exact takes
  · rw [Function.update_of_ne isTaker]
    by_cases isGiver : other = giver
    · subst isGiver
      rw [Function.update_self]
      exact gives
    · rw [Function.update_of_ne isGiver, rest other isGiver]
      exact sound.placed other

/-- An idle agent calls `release` on a slab it holds. -/
theorem Sound.release {agent : RxAgent} {slab : Nat} {job : RxAgent → Option (List UInt8)}
    (sound : sys.Sound size) (idle : sys.tasks.pc agent = .idle)
    (holds : slab ∈ sys.tasks.held agent)
    (rest : ∀ other, other ≠ agent → job other = sys.job other)
    (gives : Placed agent (job agent) ((sys.tasks.held agent).erase slab)
      (.releaseRefcount slab)) :
    ({ tasks := sys.tasks.step (.release agent slab), job := job } : RxSystem).Sound
      size := by
  have called : sys.tasks.step (.release agent slab) =
      sys.tasks.proceed agent sys.tasks.pool ((sys.tasks.held agent).erase slab)
        (.releaseRefcount slab) := if_pos ⟨idle, holds⟩
  have fresh : sys.tasks.LinkFresh (.release agent slab) := trivial
  refine sound.after fresh fun other => ?_
  rw [called]
  show Placed other (job other)
    (Function.update sys.tasks.held agent ((sys.tasks.held agent).erase slab) other)
    (Function.update sys.tasks.pc agent (.releaseRefcount slab) other)
  by_cases acts : other = agent
  · subst acts
    rw [Function.update_self, Function.update_self]
    exact gives
  · rw [Function.update_of_ne acts, Function.update_of_ne acts, rest other acts]
    exact sound.placed other

/-- Both queues take any slab. -/
theorem placed_target (sound : sys.Sound size) (packet : List UInt8) (held : List Nat) :
    Placed (target packet) (sys.job (target packet)) held (sys.tasks.pc (target packet)) := by
  have hi := sound.placed .hiQueue
  have lo := sound.placed .loQueue
  unfold target
  split
  · exact hi
  · exact lo

theorem target_queue (packet : List UInt8) :
    target packet = .hiQueue ∨ target packet = .loQueue := by
  unfold target
  split
  · exact .inl rfl
  · exact .inr rfl

/-- A receive path is back from `acquire`: it drops the packet, enqueues its slab, or
releases it. -/
theorem Sound.deliver {agent : RxAgent} (sound : sys.Sound size)
    (lossless : sys.Lossless (.deliver agent)) : (sys.deliver agent).Sound size := by
  unfold RxSystem.deliver
  cases job : sys.job agent with
  | none => exact sound
  | some packet =>
      cases idle : sys.tasks.pc agent with
      | idle =>
          dsimp only
          have before := sound.placed agent
          rw [job, idle] at before
          have receives := before.receives
          have rest : ∀ other, other ≠ agent →
              Function.update sys.job agent none other = sys.job other :=
            fun other different => Function.update_of_ne different ..
          rw [placed_receiver receives] at before
          have short : (sys.tasks.held agent).length ≤ 1 := by
            rcases before with ⟨inside, _⟩ | ⟨_, short⟩
            · exact absurd inside (by simp [PoolPc.acquiring])
            · exact short
          cases slabs : sys.tasks.held agent with
          | nil =>
              refine ⟨sound.exclusive, sound.complete, sound.size, fun other => ?_⟩
              show Placed other (Function.update sys.job agent none other)
                (sys.tasks.held other) (sys.tasks.pc other)
              by_cases acts : other = agent
              · subst acts
                rw [Function.update_self, placed_receiver receives]
                exact ⟨slabs, by rw [idle]; rfl⟩
              · rw [rest other acts]
                exact sound.placed other
          | cons slab others =>
              have alone : others = [] := by
                rw [slabs, List.length_cons] at short
                exact List.length_eq_zero_iff.mp (Nat.le_zero.mp (Nat.le_of_succ_le_succ short))
              subst alone
              have holds : slab ∈ sys.tasks.held agent := by rw [slabs]; exact List.mem_cons_self
              have gives : ∀ pc : PoolPc, pc.acquiring = false →
                  Placed agent (Function.update sys.job agent none agent)
                    ((sys.tasks.held agent).erase slab) pc := by
                intro pc outside
                rw [Function.update_self, placed_receiver receives, slabs]
                exact ⟨List.erase_cons_head .., outside⟩
              dsimp only
              split
              · have different : agent ≠ target packet := by
                  rcases receives with rfl | rfl <;>
                    rcases target_queue packet with queue | queue <;> simp [queue]
                refine sound.hand holds different rest (gives _ ?_)
                  (placed_target sound packet _)
                rw [idle]
                rfl
              · rename_i full
                split
                · -- the fallback path would lose the slab here
                  rename_i empty
                  subst empty
                  exact absurd (lossless job (by simp [slabs])) full
                · exact sound.release idle holds rest (gives _ rfl)
      | _ => exact sound

/-- The mesh loop takes a slab out of a queue. -/
theorem Sound.receive {queue : RxAgent} (sound : sys.Sound size) :
    (sys.receive queue).Sound size := by
  unfold RxSystem.receive
  split
  · rename_i ready
    obtain ⟨isQueue, idle, empty⟩ := ready
    split
    · exact sound
    · rename_i slab last
      refine sound.hand (List.mem_of_getLast? last) ?_ (fun _ _ => rfl) ?_ ?_
      · rcases isQueue with rfl | rfl <;> simp
      · have before := sound.placed queue
        rcases isQueue with rfl | rfl <;> exact before
      · have before := sound.placed .mesh
        rw [empty]
        exact ⟨before.1, before.2.1, Nat.le_refl _⟩
  · exact sound

/-- The mesh loop releases the slab it has processed. -/
theorem Sound.processed (sound : sys.Sound size) : sys.processed.Sound size := by
  unfold RxSystem.processed
  split
  · exact sound
  · rename_i slab others slabs
    by_cases idle : sys.tasks.pc .mesh = .idle
    · have before := sound.placed .mesh
      refine sound.release idle (by rw [slabs]; exact List.mem_cons_self) (fun _ _ => rfl) ?_
      exact ⟨before.1, rfl, Nat.le_trans List.length_erase_le before.2.2⟩
    · have same : sys.tasks.step (.release .mesh slab) = sys.tasks :=
        if_neg fun called => idle called.1
      rw [same]
      exact sound

/-- Every lossless step keeps the invariant. -/
theorem Sound.step {action : Action} (sound : sys.Sound size)
    (lossless : sys.Lossless action) : (sys.step action).Sound size := by
  cases action with
  | arrive agent packet => exact sound.arrive
  | access agent spurious => exact sound.access lossless
  | deliver agent => exact sound.deliver lossless
  | receive queue => exact sound.receive
  | processed => exact sound.processed

theorem sound_boot {size : Nat} (positive : 0 < size) : (boot size).Sound size where
  exclusive := PoolTasks.exclusive_boot positive
  complete := PoolTasks.complete_boot size
  size := rfl
  placed agent := by
    cases agent with
    | espnow => exact ⟨rfl, rfl⟩
    | lora => exact ⟨rfl, rfl⟩
    | mesh => exact ⟨rfl, rfl, Nat.zero_le _⟩
    | hiQueue => exact ⟨rfl, rfl⟩
    | loQueue => exact ⟨rfl, rfl⟩

/-! ## Conservation -/

/-- Slabs that are neither queued nor being processed: those of the calls to `acquire`
and `release` that are going on, and those a receive path has filled but not enqueued. -/
def inHands (sys : RxSystem) : List Nat :=
  sys.tasks.owned .espnow ++ sys.tasks.owned .lora ++ (sys.tasks.pc .mesh).carries

/-- Neither receive path has a packet and nobody is in a pool call. -/
def AtRest (sys : RxSystem) : Prop :=
  (∀ agent, sys.job agent = none) ∧ ∀ agent, sys.tasks.pc agent = .idle

/-- Every slab is in exactly one place: on the free stack, in an entry of one queue, with
the mesh loop, or in somebody's hands. The mesh loop has at most one, hands are empty at
rest, and once the queues are empty too the whole pool is on the stack. -/
structure Conserved (sys : RxSystem) (size : Nat) : Prop where
  places : ∃ free, Chain sys.tasks.pool.nextFree sys.tasks.pool.top free ∧
    (free ++ (sys.tasks.held .hiQueue ++ (sys.tasks.held .loQueue ++
      (sys.tasks.held .mesh ++ sys.inHands)))).Nodup ∧
    ∀ i < size, i ∈ free ++ (sys.tasks.held .hiQueue ++ (sys.tasks.held .loQueue ++
      (sys.tasks.held .mesh ++ sys.inHands)))
  processing : (sys.tasks.held .mesh).length ≤ 1
  handsFree : sys.AtRest → sys.inHands = []
  drained : sys.AtRest → sys.tasks.held .hiQueue = [] → sys.tasks.held .loQueue = [] →
    sys.tasks.held .mesh = [] →
    ∃ free, Chain sys.tasks.pool.nextFree sys.tasks.pool.top free ∧ free.Nodup ∧
      ∀ i < size, i ∈ free

/-- A queue carries nothing beyond its entries. -/
theorem Sound.owned_queue (sound : sys.Sound size) :
    sys.tasks.owned .hiQueue = sys.tasks.held .hiQueue ∧
      sys.tasks.owned .loQueue = sys.tasks.held .loQueue := by
  have hi := (sound.placed .hiQueue).2
  have lo := (sound.placed .loQueue).2
  unfold PoolTasks.owned
  rw [hi, lo]
  exact ⟨List.append_nil _, List.append_nil _⟩

/-- What the five agents own, in the order of `Conserved`. -/
theorem Sound.mem_places (sound : sys.Sound size) (i : Nat) :
    i ∈ sys.tasks.held .hiQueue ++ (sys.tasks.held .loQueue ++
      (sys.tasks.held .mesh ++ sys.inHands)) ↔ ∃ agent, i ∈ sys.tasks.owned agent := by
  have queues := sound.owned_queue
  rw [← queues.1, ← queues.2]
  constructor
  · intro member
    simp only [inHands, List.mem_append] at member
    rcases member with hi | lo | held | (espnow | lora) | carried
    · exact ⟨_, hi⟩
    · exact ⟨_, lo⟩
    · exact ⟨.mesh, List.mem_append_left _ held⟩
    · exact ⟨_, espnow⟩
    · exact ⟨_, lora⟩
    · exact ⟨.mesh, List.mem_append_right _ carried⟩
  · rintro ⟨agent, member⟩
    simp only [inHands, List.mem_append]
    cases agent with
    | espnow => exact .inr (.inr (.inr (.inl (.inl member))))
    | lora => exact .inr (.inr (.inr (.inl (.inr member))))
    | mesh =>
        rcases List.mem_append.mp member with held | carried
        · exact .inr (.inr (.inl held))
        · exact .inr (.inr (.inr (.inr carried)))
    | hiQueue => exact .inl member
    | loQueue => exact .inr (.inl member)

/-- No slab is owned twice. -/
theorem Sound.nodup_places (sound : sys.Sound size) :
    (sys.tasks.held .hiQueue ++ (sys.tasks.held .loQueue ++
      (sys.tasks.held .mesh ++ sys.inHands))).Nodup := by
  have queues := sound.owned_queue
  have exclusive := sound.exclusive
  have agents : (sys.tasks.owned .hiQueue ++ (sys.tasks.owned .loQueue ++
      (sys.tasks.owned .mesh ++ (sys.tasks.owned .espnow ++
        sys.tasks.owned .lora)))).Nodup := by
    have apart : ∀ {one other : RxAgent}, one ≠ other →
        List.Disjoint (sys.tasks.owned one) (sys.tasks.owned other) :=
      fun different i member => exclusive.apart _ _ different i member
    simp only [List.nodup_append', List.disjoint_append_right]
    refine ⟨exclusive.once _, ⟨exclusive.once _, ⟨exclusive.once _,
      ⟨exclusive.once _, exclusive.once _, ?_⟩, ?_, ?_⟩, ?_, ?_, ?_⟩, ?_, ?_, ?_, ?_⟩ <;>
      exact apart (by simp)
  have reordered : (sys.tasks.owned .mesh ++ (sys.tasks.owned .espnow ++
      sys.tasks.owned .lora)).Perm (sys.tasks.held .mesh ++ sys.inHands) := by
    unfold inHands
    rw [PoolTasks.owned, List.append_assoc]
    exact List.Perm.append_left _ List.perm_append_comm
  rw [← queues.1, ← queues.2]
  refine (List.Perm.nodup_iff ?_).mp agents
  exact List.Perm.append_left _ (List.Perm.append_left _ reordered)

theorem Sound.handsFree (sound : sys.Sound size) (rest : sys.AtRest) : sys.inHands = [] := by
  have receiver : ∀ agent, agent = .espnow ∨ agent = .lora → sys.tasks.owned agent = [] := by
    intro agent receives
    have placed := sound.placed agent
    rw [placed_receiver receives, rest.1 agent] at placed
    unfold PoolTasks.owned
    rw [placed.1, rest.2 agent]
    rfl
  unfold inHands
  rw [receiver _ (.inl rfl), receiver _ (.inr rfl), rest.2 .mesh]
  rfl

/-- The invariant gives conservation. -/
theorem Sound.conserved (sound : sys.Sound size) : sys.Conserved size := by
  obtain ⟨free, chain, nodup, outside⟩ := sound.exclusive.stack
  have covers := sound.complete.covers free chain
  rw [sound.size] at covers
  refine ⟨⟨free, chain, ?_, ?_⟩, (sound.placed .mesh).2.2, sound.handsFree, ?_⟩
  · refine List.nodup_append'.mpr ⟨nodup, sound.nodup_places, fun i onStack member => ?_⟩
    obtain ⟨agent, owned⟩ := (sound.mem_places i).mp member
    exact outside agent i owned onStack
  · intro i inside
    rcases covers i inside with onStack | owned
    · exact List.mem_append_left _ onStack
    · exact List.mem_append_right _ ((sound.mem_places i).mpr owned)
  · intro rest hi lo mesh
    refine ⟨free, chain, nodup, fun i inside => ?_⟩
    rcases covers i inside with onStack | owned
    · exact onStack
    · have member := (sound.mem_places i).mpr owned
      rw [hi, lo, mesh, sound.handsFree rest] at member
      exact absurd member List.not_mem_nil

/-- In every interleaving of the receive paths with the mesh loop in which each exchange
of `acquire` finds the link it read and no empty packet meets a full queue, all slabs are
conserved at every moment. -/
theorem slabs_conserved_without_empty_packets (size : Nat) (positive : 0 < size)
    (actions : List Action) (lossless : (boot size).LosslessRun actions) :
    ∀ before after, actions = before ++ after → ((boot size).run before).Conserved size := by
  have sound : (boot size).Sound size := sound_boot positive
  generalize boot size = sys at lossless sound
  induction actions generalizing sys with
  | nil =>
      intro before after split
      obtain ⟨rfl, _⟩ := List.append_eq_nil_iff.mp split.symm
      exact sound.conserved
  | cons action rest inductionHypothesis =>
      intro before after split
      cases before with
      | nil => exact sound.conserved
      | cons first before =>
          obtain ⟨rfl, tail⟩ := List.cons.inj split
          exact inductionHypothesis (sys.step action) lossless.2 (sound.step lossless.1)
            before after tail

/-! ## An empty packet at a full queue -/

/-- A packet comes in undisturbed on one path: `acquire` with its six accesses, then the
queue. -/
def incoming (agent : RxAgent) (packet : List UInt8) : List Action :=
  .arrive agent packet :: List.replicate 6 (.access agent false) ++ [.deliver agent]

/-- ESP-NOW fills the high priority queue with ACKs, then a LoRa packet of length 0 comes
in. -/
def emptyAtFullQueue : List Action :=
  (List.replicate rxQueueDepth (incoming .espnow [0x02])).flatten ++ incoming .lora []

set_option maxRecDepth 100000 in
/-- Everything is at rest, but slab 256 is neither free, nor queued, nor processed. -/
theorem empty_packet_at_full_queue_leaks :
    let sys := (boot poolSize).run emptyAtFullQueue
    (∀ agent ∈ [RxAgent.espnow, .lora, .mesh, .hiQueue, .loQueue],
        sys.job agent = none ∧ sys.tasks.pc agent = .idle ∧ 256 ∉ sys.tasks.held agent) ∧
      256 < poolSize ∧
      ∀ free, Chain sys.tasks.pool.nextFree sys.tasks.pool.top free → 256 ∉ free := by
  have stack : Chain ((boot poolSize).run emptyAtFullQueue).tasks.pool.nextFree
      ((boot poolSize).run emptyAtFullQueue).tasks.pool.top (List.range' 257 96) := by
    decide +kernel
  refine ⟨by decide +kernel, by decide, fun free chain => ?_⟩
  rw [chain.unique stack]
  decide

/-- One packet through an otherwise idle pool of three slabs. -/
theorem undisturbed_packet_conserved :
    (boot 3).LosslessRun (incoming .espnow [0x02]) ∧
      ((boot 3).run (incoming .espnow [0x02])).Conserved 3 := by
  have lossless : (boot 3).LosslessRun (incoming .espnow [0x02]) :=
    ⟨trivial, trivial, trivial, fun _ => rfl, trivial, trivial, trivial,
      fun empty => absurd empty (by decide), trivial⟩
  exact ⟨lossless, slabs_conserved_without_empty_packets 3 (by decide) _ lossless _ []
    (List.append_nil _).symm⟩

end RxSystem

end ForestLink.Transport
