/-
Module: ForestLink.Protocol.BufferPool
Purpose: The slab pool of the receive paths (`buffer_pool.hpp`, `buffer_pool.cpp`): a
  free stack threaded through the slabs, with a reference count each. Complete calls,
  and the same calls as sequences of atomic accesses by several tasks.
Trusted boundary: none
Main exports: BufferPool, BufferPool.init, BufferPool.acquire, BufferPool.release,
  BufferPool.addRef, PoolTasks, PoolTasks.step, PoolTasks.run
-/
import Mathlib.Algebra.Group.Nat.Defs
import Mathlib.Logic.Function.Basic

namespace ForestLink.Protocol

/-! ## The pool -/

/-- `BufferPool`. An index into the slabs, or -1 at the end of the stack, is an
`Option Nat`. -/
structure BufferPool where
  size : Nat
  refcount : Nat → Nat
  nextFree : Nat → Option Nat
  len : Nat → Nat
  top : Option Nat
  freeCount : Int
  exhaustionCount : Nat
  overflowCount : Nat

/-- `POOL_SIZE`: the budget of 512 KB in slabs of 1484 bytes. -/
def poolSize : Nat := 512 * 1024 / 1484

/-- A `BufferSlab *`: null, or its distance from the first slab of the pool. -/
inductive SlabPtr where
  | null
  | slab (offset : Int)
deriving Repr, DecidableEq

namespace BufferPool

/-- `init`: slab 0 is the top, each slab links to the next one. -/
def init (size : Nat) : BufferPool where
  size := size
  refcount := fun _ => 0
  nextFree := fun i => if i + 1 < size then some (i + 1) else none
  len := fun _ => 0
  top := some 0
  freeCount := size
  exhaustionCount := 0
  overflowCount := 0

def setRefcount (pool : BufferPool) (i value : Nat) : BufferPool :=
  { pool with refcount := Function.update pool.refcount i value }

def setNextFree (pool : BufferPool) (i : Nat) (link : Option Nat) : BufferPool :=
  { pool with nextFree := Function.update pool.nextFree i link }

def setLen (pool : BufferPool) (i value : Nat) : BufferPool :=
  { pool with len := Function.update pool.len i value }

def countExhaustion (pool : BufferPool) : BufferPool :=
  { pool with exhaustionCount := (pool.exhaustionCount + 1) % 2 ^ 32 }

def countOverflow (pool : BufferPool) : BufferPool :=
  { pool with overflowCount := (pool.overflowCount + 1) % 2 ^ 32 }

/-! ## Complete calls -/

/-- `acquire`, run without interference: the exchange of the top succeeds, if need be
after spurious failures that only repeat it. -/
def acquire (pool : BufferPool) : Option Nat × BufferPool :=
  match pool.top with
  | some t =>
      (some t, (({ pool with
        top := pool.nextFree t
        freeCount := pool.freeCount - 1 }).setRefcount t 1).setLen t 0)
  | none => (none, pool.countExhaustion)

/-- The last reference is gone: push the slab back onto the stack. -/
def pushFree (pool : BufferPool) (i : Nat) : BufferPool :=
  { pool.setNextFree i pool.top with
    top := some i
    freeCount := pool.freeCount + 1 }

/-- `release`, run without interference. -/
def release (pool : BufferPool) : SlabPtr → BufferPool
  | .null => pool
  | .slab offset =>
      if offset < 0 ∨ (pool.size : Int) ≤ offset then pool.countOverflow
      else
        let i := offset.toNat
        let cur := pool.refcount i
        if cur = 0 then pool.countOverflow
        else
          let dropped := pool.setRefcount i (cur - 1)
          if cur = 1 then dropped.pushFree i else dropped

/-- `add_ref` on a slab of the pool, with an 8-bit count. -/
def addRef (pool : BufferPool) (i : Nat) : BufferPool :=
  pool.setRefcount i ((pool.refcount i + 1) % 2 ^ 8)

inductive Call where
  | acquire
  | addRef (i : Nat)
  | release (ptr : SlabPtr)
deriving Repr, DecidableEq

def call (pool : BufferPool) : Call → BufferPool
  | .acquire => pool.acquire.2
  | .addRef i => pool.addRef i
  | .release ptr => pool.release ptr

def run (pool : BufferPool) (calls : List Call) : BufferPool := calls.foldl call pool

/-- References are added to held slabs only, and fewer than 255 of them. -/
def Admits (pool : BufferPool) : Call → Prop
  | .addRef i => i < pool.size ∧ 0 < pool.refcount i ∧ pool.refcount i < 255
  | _ => True

end BufferPool

/-! ## Tasks -/

/-- Where a task stands in `acquire` or `release`, before the named access. -/
inductive PoolPc where
  | idle
  | acquireTop
  | acquireNext (t : Nat)
  | acquireExchange (t : Nat) (next : Option Nat)
  | acquireCount (t : Nat)
  | acquireRefcount (t : Nat)
  | acquireLen (t : Nat)
  | acquireFailed
  | releaseRefcount (i : Nat)
  | releaseDecrement (i cur : Nat)
  | releaseTop (i : Nat)
  | releaseLink (i : Nat) (oldTop : Option Nat)
  | releaseExchange (i : Nat) (oldTop : Option Nat)
  | releaseCount
  | releaseOverflow
deriving Repr, DecidableEq

/-- Tasks that share a pool, with the slabs each of them holds. -/
structure PoolTasks (τ : Type) where
  pool : BufferPool
  pc : τ → PoolPc
  held : τ → List Nat

namespace PoolTasks

variable {τ : Type} [DecidableEq τ]

def boot (size : Nat) : PoolTasks τ where
  pool := .init size
  pc := fun _ => .idle
  held := fun _ => []

def goto (s : PoolTasks τ) (task : τ) (pc : PoolPc) : PoolTasks τ :=
  { s with pc := Function.update s.pc task pc }

/-- The loop of `acquire` with the top it last saw. -/
def acquireLoop : Option Nat → PoolPc
  | some t => .acquireNext t
  | none => .acquireFailed

/-- The loop of `release` with the count it last saw. -/
def releaseLoop (i cur : Nat) : PoolPc :=
  if 0 < cur then .releaseDecrement i cur else .releaseOverflow

/-- One atomic access. A weak exchange that is `spurious` fails although it finds the
value it expects; either way a failed exchange reloads. -/
def advance (s : PoolTasks τ) (task : τ) (spurious : Bool) : PoolTasks τ :=
  match s.pc task with
  | .idle => s
  | .acquireTop => s.goto task (acquireLoop s.pool.top)
  | .acquireNext t => s.goto task (.acquireExchange t (s.pool.nextFree t))
  | .acquireExchange t next =>
      if s.pool.top = some t ∧ spurious = false then
        { s with pool := { s.pool with top := next } }.goto task (.acquireCount t)
      else s.goto task (acquireLoop s.pool.top)
  | .acquireCount t =>
      { s with pool := { s.pool with freeCount := s.pool.freeCount - 1 } }.goto task
        (.acquireRefcount t)
  | .acquireRefcount t =>
      { s with pool := s.pool.setRefcount t 1 }.goto task (.acquireLen t)
  | .acquireLen t =>
      { s with
        pool := s.pool.setLen t 0
        held := Function.update s.held task (t :: s.held task) }.goto task .idle
  | .acquireFailed => { s with pool := s.pool.countExhaustion }.goto task .idle
  | .releaseRefcount i => s.goto task (releaseLoop i (s.pool.refcount i))
  | .releaseDecrement i cur =>
      if s.pool.refcount i = cur ∧ spurious = false then
        { s with pool := s.pool.setRefcount i (cur - 1) }.goto task
          (if cur = 1 then .releaseTop i else .idle)
      else s.goto task (releaseLoop i (s.pool.refcount i))
  | .releaseTop i => s.goto task (.releaseLink i s.pool.top)
  | .releaseLink i oldTop =>
      { s with pool := s.pool.setNextFree i oldTop }.goto task (.releaseExchange i oldTop)
  | .releaseExchange i oldTop =>
      if s.pool.top = oldTop ∧ spurious = false then
        { s with pool := { s.pool with top := some i } }.goto task .releaseCount
      else s.goto task (.releaseLink i s.pool.top)
  | .releaseCount =>
      { s with pool := { s.pool with freeCount := s.pool.freeCount + 1 } }.goto task .idle
  | .releaseOverflow => { s with pool := s.pool.countOverflow }.goto task .idle

/-- What the scheduler lets happen next. -/
inductive Action (τ : Type) where
  | acquire (task : τ)
  | release (task : τ) (i : Nat)
  | hand (giver taker : τ) (i : Nat)
  | advance (task : τ) (spurious : Bool)
deriving Repr, DecidableEq

/-- An idle task calls `acquire`, calls `release` on a slab it holds, or hands such a
slab to another task; a task inside a call takes its next access. -/
def step (s : PoolTasks τ) : Action τ → PoolTasks τ
  | .acquire task => if s.pc task = .idle then s.goto task .acquireTop else s
  | .release task i =>
      if s.pc task = .idle ∧ i ∈ s.held task then
        { s with held := Function.update s.held task ((s.held task).erase i) }.goto task
          (.releaseRefcount i)
      else s
  | .hand giver taker i =>
      if i ∈ s.held giver then
        let given := Function.update s.held giver ((s.held giver).erase i)
        { s with held := Function.update given taker (i :: given taker) }
      else s
  | .advance task spurious => s.advance task spurious

def run (s : PoolTasks τ) (actions : List (Action τ)) : PoolTasks τ := actions.foldl step s

end PoolTasks

end ForestLink.Protocol
