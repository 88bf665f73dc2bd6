/-
Module: ForestLink.Lib.Dispatch
Purpose: An abstract dispatcher: numbered jobs are handed in order to workers with
  bounded windows, the jobs of a failed worker wait until another worker takes
  them over, and the log of moves decides where every job is.
Trusted boundary: none
Main exports: Move, Board, Board.apply, Board.replay, Allowed, Valid,
  Board.Sound, Sound.replay, assigned, Valid.handedOut, lastHeard, placedAt, Timely,
  HeldSince, IdleUntil, HeldSince.idleUntil
-/
import Mathlib.Algebra.Order.BigOperators.Group.Finset
import Mathlib.Data.Finset.Card

namespace ForestLink.Lib.Dispatch

/-!
Jobs are the natural numbers.  A dispatcher walks through them in order: each job
is assigned to a live worker or skipped.  A worker finishes a job or fails as a
whole; the required jobs of a failed worker go to a waiting pool, from which they
are resumed on other workers.  When the last worker fails, the batch is lost.
-/

variable {ι : Type}

/-- One move of a dispatcher over the workers `ι`.  The board does not depend on the
times. -/
inductive Move (ι : Type) where
  | launch (workers : Finset ι) (capacity time : Nat)
  | assign (worker : ι) (job time : Nat)
  | skip (job : Nat)
  | resume (worker : ι) (job time : Nat)
  | finish (worker : ι) (job time : Nat)
  | silent (worker : ι) (time limit : Nat)
  | fail (worker : ι)
  | lose (job : Nat)
  | reset
deriving DecidableEq

/-- Where every job of the current batch is. -/
structure Board (ι : Type) where
  live : Finset ι := ∅
  window : ι → Finset Nat := fun _ => ∅
  waiting : Finset Nat := ∅
  finished : Finset Nat := ∅
  next : Nat := 0
  failures : Nat := 0
  capacity : Nat := 0

/-- What a dispatcher is configured with: how many workers a batch may have, how
many jobs one window holds and which jobs have to survive a failure. -/
structure Rules where
  crew : Nat
  windowSize : Nat
  required : Nat → Bool

namespace Board

variable [DecidableEq ι] (rules : Rules)

/-- Jobs in the windows of live workers. -/
def load (board : Board ι) : Nat := ∑ worker ∈ board.live, (board.window worker).card

def apply (board : Board ι) : Move ι → Board ι
  | .launch workers capacity _ => { live := workers, capacity := capacity }
  | .assign worker job _ =>
      { board with
        window := Function.update board.window worker (insert job (board.window worker))
        next := job + 1 }
  | .skip job => { board with next := job + 1 }
  | .resume worker job _ =>
      { board with
        window := Function.update board.window worker (insert job (board.window worker))
        waiting := board.waiting.erase job }
  | .finish worker job _ =>
      { board with
        window := Function.update board.window worker ((board.window worker).erase job)
        finished := insert job board.finished }
  | .silent _ _ _ => board
  | .fail worker =>
      { board with
        live := board.live.erase worker
        window := Function.update board.window worker ∅
        waiting :=
          if board.live.erase worker = ∅ then board.waiting
          else board.waiting ∪ (board.window worker).filter fun job => rules.required job
        failures := board.failures + 1 }
  | .lose job => { board with waiting := board.waiting.erase job }
  | .reset => {}

/-- The board after a log of moves, newest first. -/
def replay (log : List (Move ι)) : Board ι :=
  log.foldr (fun move board => board.apply rules move) {}

@[simp] theorem replay_nil : replay rules ([] : List (Move ι)) = {} := rfl

@[simp] theorem replay_cons (move : Move ι) (log : List (Move ι)) :
    replay rules (move :: log) = (replay rules log).apply rules move := rfl

/-- The moves a correct dispatcher makes. -/
def Allowed (board : Board ι) : Move ι → Prop
  | .launch workers _ _ => workers.card ≤ rules.crew
  | .assign worker job _ =>
      worker ∈ board.live ∧ job = board.next ∧ board.load < board.capacity ∧
        (board.window worker).card < rules.windowSize
  | .skip job => job = board.next ∧ rules.required job = false
  | .resume worker job _ =>
      worker ∈ board.live ∧ job ∈ board.waiting ∧ board.load < board.capacity ∧
        (board.window worker).card < rules.windowSize
  | .finish worker job _ => job ∈ board.window worker
  | .silent worker _ _ => worker ∈ board.live
  | .fail worker => worker ∈ board.live
  | .lose _ => False
  | .reset => True

end Board

/-- A log in which every move was allowed when it was made. -/
inductive Valid [DecidableEq ι] (rules : Rules) : List (Move ι) → Prop where
  | nil : Valid rules []
  | cons {move : Move ι} {log : List (Move ι)} :
      Valid rules log → (Board.replay rules log).Allowed rules move →
        Valid rules (move :: log)

namespace Board

variable [DecidableEq ι] {rules : Rules}

/-! ## The invariant of allowed moves -/

/-- No job is lost or duplicated: the places of the board are disjoint, hold only
jobs that were dispatched, and account for every required one. -/
structure Sound (rules : Rules) (board : Board ι) : Prop where
  idle : ∀ worker, worker ∉ board.live → board.window worker = ∅
  apart : ∀ worker other, worker ≠ other →
    Disjoint (board.window worker) (board.window other)
  windowWaiting : ∀ worker, Disjoint (board.window worker) board.waiting
  windowFinished : ∀ worker, Disjoint (board.window worker) board.finished
  waitingFinished : Disjoint board.waiting board.finished
  windowBelow : ∀ worker, ∀ job ∈ board.window worker, job < board.next
  waitingBelow : ∀ job ∈ board.waiting, job < board.next
  finishedBelow : ∀ job ∈ board.finished, job < board.next
  windowBound : ∀ worker, (board.window worker).card ≤ rules.windowSize
  waitingBound : board.waiting.card ≤ rules.windowSize * board.failures
  crewBound : board.live.card + board.failures ≤ rules.crew
  loadBound : board.load ≤ board.capacity
  accounted : board.live.Nonempty → ∀ job < board.next, rules.required job = true →
    job ∈ board.finished ∨ job ∈ board.waiting ∨ ∃ worker ∈ board.live, job ∈ board.window worker

omit [DecidableEq ι] in
theorem sound_launch {workers : Finset ι} (capacity : Nat) (enough : workers.card ≤ rules.crew) :
    Sound rules { live := workers, capacity := capacity } := by
  constructor <;> simp [load, enough]

omit [DecidableEq ι] in
theorem sound_empty : Sound rules ({} : Board ι) := by
  constructor <;> simp [load]

/-- Exchanging one window changes the load by the difference of the two sizes. -/
theorem load_update (board : Board ι) {worker : ι} (live : worker ∈ board.live)
    (jobs : Finset Nat) :
    ∑ other ∈ board.live, (Function.update board.window worker jobs other).card +
        (board.window worker).card = board.load + jobs.card := by
  have others : ∀ other ∈ board.live.erase worker,
      (Function.update board.window worker jobs other).card = (board.window other).card := by
    intro other member
    rw [Function.update_of_ne (Finset.ne_of_mem_erase member)]
  rw [load, ← Finset.add_sum_erase _ _ live, ← Finset.add_sum_erase _ _ live,
    Finset.sum_congr rfl others, Function.update_self]
  omega

theorem load_insert {board : Board ι} {worker : ι} {job : Nat} (live : worker ∈ board.live)
    (fresh : job ∉ board.window worker) :
    ∑ other ∈ board.live,
        (Function.update board.window worker (insert job (board.window worker)) other).card =
      board.load + 1 := by
  have update := load_update board live (insert job (board.window worker))
  rw [Finset.card_insert_of_notMem fresh] at update
  omega

/-- Burying a worker frees its share of the load. -/
theorem load_fail {board : Board ι} {worker : ι} (live : worker ∈ board.live) :
    (board.apply rules (.fail worker)).load + (board.window worker).card = board.load := by
  have others : ∀ other ∈ board.live.erase worker,
      (Function.update board.window worker ∅ other).card = (board.window other).card := by
    intro other member
    rw [Function.update_of_ne (Finset.ne_of_mem_erase member)]
  change ∑ other ∈ board.live.erase worker,
    (Function.update board.window worker ∅ other).card + _ = _
  rw [Finset.sum_congr rfl others, load, Finset.sum_erase_add _ _ live]

/-- Membership in an exchanged window. -/
theorem mem_update {window : ι → Finset Nat} {worker other : ι} {jobs : Finset Nat}
    {job : Nat} :
    job ∈ Function.update window worker jobs other ↔
      (other = worker ∧ job ∈ jobs) ∨ (other ≠ worker ∧ job ∈ window other) := by
  by_cases same : other = worker
  · subst same
    simp
  · simp [same]

/-- Putting a job that is nowhere on the board into the window of a live worker,
with the rest of the board as it was or smaller. -/
theorem Sound.place {board after : Board ι} (sound : Sound rules board) {worker : ι}
    {job : Nat} (live : worker ∈ board.live)
    (nowhere : ∀ other, job ∉ board.window other) (unfinished : job ∉ board.finished)
    (room : board.load < board.capacity)
    (windowRoom : (board.window worker).card < rules.windowSize)
    (window : after.window =
      Function.update board.window worker (insert job (board.window worker)))
    (liveEq : after.live = board.live) (finishedEq : after.finished = board.finished)
    (failuresEq : after.failures = board.failures)
    (capacityEq : after.capacity = board.capacity)
    (waiting : after.waiting = board.waiting.erase job)
    (next : after.next = max board.next (job + 1))
    (dispatched : ∀ other < after.next, other ≠ job → other < board.next) :
    Sound rules after := by
  have grown : after.load = board.load + 1 := by
    rw [load, liveEq, window]
    exact load_insert live (nowhere worker)
  have inWindow : ∀ other entry, entry ∈ after.window other ↔
      (other = worker ∧ entry = job) ∨ entry ∈ board.window other := by
    intro other entry
    rw [window, mem_update, Finset.mem_insert]
    by_cases same : other = worker
    · subst same
      simp
    · simp [same]
  have inWaiting : ∀ entry, entry ∈ after.waiting ↔ entry ≠ job ∧ entry ∈ board.waiting := by
    intro entry
    rw [waiting, Finset.mem_erase]
  have below : board.next ≤ after.next ∧ job < after.next := by omega
  constructor
  · intro other dead
    rw [liveEq] at dead
    have different : other ≠ worker := fun same => dead (same ▸ live)
    rw [window, Function.update_of_ne different]
    exact sound.idle other dead
  · intro first second different
    rw [Finset.disjoint_left]
    intro entry inFirst inSecond
    have apart := Finset.disjoint_left.mp (sound.apart first second different)
    rcases (inWindow first entry).mp inFirst with ⟨rfl, rfl⟩ | oldFirst
    · rcases (inWindow second entry).mp inSecond with ⟨rfl, _⟩ | oldSecond
      · exact different rfl
      · exact nowhere second oldSecond
    · rcases (inWindow second entry).mp inSecond with ⟨rfl, rfl⟩ | oldSecond
      · exact nowhere first oldFirst
      · exact apart oldFirst oldSecond
  · intro other
    rw [Finset.disjoint_left]
    intro entry held waits
    obtain ⟨different, waited⟩ := (inWaiting entry).mp waits
    rcases (inWindow other entry).mp held with ⟨_, same⟩ | old
    · exact different same
    · exact Finset.disjoint_left.mp (sound.windowWaiting other) old waited
  · intro other
    rw [Finset.disjoint_left, finishedEq]
    intro entry held done
    rcases (inWindow other entry).mp held with ⟨_, rfl⟩ | old
    · exact unfinished done
    · exact Finset.disjoint_left.mp (sound.windowFinished other) old done
  · rw [waiting, finishedEq]
    exact Finset.disjoint_of_subset_left (Finset.erase_subset _ _) sound.waitingFinished
  · intro other entry held
    rcases (inWindow other entry).mp held with ⟨_, rfl⟩ | old
    · exact below.2
    · exact lt_of_lt_of_le (sound.windowBelow other entry old) below.1
  · intro entry waits
    exact lt_of_lt_of_le (sound.waitingBelow entry ((inWaiting entry).mp waits).2) below.1
  · intro entry done
    rw [finishedEq] at done
    exact lt_of_lt_of_le (sound.finishedBelow entry done) below.1
  · intro other
    rw [window]
    by_cases same : other = worker
    · subst same
      rw [Function.update_self, Finset.card_insert_of_notMem (nowhere other)]
      exact windowRoom
    · rw [Function.update_of_ne same]
      exact sound.windowBound other
  · rw [waiting, failuresEq]
    exact (Finset.card_erase_le).trans sound.waitingBound
  · rw [liveEq, failuresEq]
    exact sound.crewBound
  · rw [grown, capacityEq]
    exact room
  · intro someLive other before needed
    rw [liveEq] at someLive
    rw [finishedEq, liveEq, inWaiting]
    by_cases same : other = job
    · subst same
      exact .inr (.inr ⟨worker, live, (inWindow worker other).mpr (.inl ⟨rfl, rfl⟩)⟩)
    · rcases sound.accounted someLive other (dispatched other before same) needed with
        done | waits | ⟨holder, holds, held⟩
      · exact .inl done
      · exact .inr (.inl ⟨same, waits⟩)
      · exact .inr (.inr ⟨holder, holds, (inWindow holder other).mpr (.inr held)⟩)

theorem Sound.assign {board : Board ι} (sound : Sound rules board) {worker : ι}
    {job time : Nat} (allowed : board.Allowed rules (.assign worker job time)) :
    Sound rules (board.apply rules (.assign worker job time)) := by
  obtain ⟨live, rfl, room, windowRoom⟩ := allowed
  refine sound.place live ?_ ?_ room windowRoom rfl rfl rfl rfl rfl ?_ ?_ ?_
  · intro other held
    exact Nat.lt_irrefl _ (sound.windowBelow other _ held)
  · intro done
    exact Nat.lt_irrefl _ (sound.finishedBelow _ done)
  · exact (Finset.erase_eq_of_notMem fun waits =>
      Nat.lt_irrefl _ (sound.waitingBelow _ waits)).symm
  · exact (Nat.max_eq_right (Nat.le_succ _)).symm
  · intro other before different
    exact Nat.lt_of_le_of_ne (Nat.le_of_lt_succ before) different

theorem Sound.resume {board : Board ι} (sound : Sound rules board) {worker : ι}
    {job time : Nat} (allowed : board.Allowed rules (.resume worker job time)) :
    Sound rules (board.apply rules (.resume worker job time)) := by
  obtain ⟨live, waits, room, windowRoom⟩ := allowed
  refine sound.place live ?_ ?_ room windowRoom rfl rfl rfl rfl rfl rfl ?_ ?_
  · intro other held
    exact Finset.disjoint_left.mp (sound.windowWaiting other) held waits
  · exact Finset.disjoint_left.mp sound.waitingFinished waits
  · exact (Nat.max_eq_left (sound.waitingBelow _ waits)).symm
  · intro other before _
    exact before

theorem Sound.skip {board : Board ι} (sound : Sound rules board) {job : Nat}
    (allowed : board.Allowed rules (.skip job)) :
    Sound rules (board.apply rules (.skip job)) := by
  obtain ⟨rfl, optional⟩ := allowed
  have later : ∀ {job}, job < board.next → job < board.next + 1 := Nat.lt_succ_of_lt
  refine ⟨sound.idle, sound.apart, sound.windowWaiting, sound.windowFinished,
    sound.waitingFinished, ?_, ?_, ?_, sound.windowBound, sound.waitingBound,
    sound.crewBound, sound.loadBound, ?_⟩
  · intro worker job held
    exact later (sound.windowBelow worker job held)
  · intro job waits
    exact later (sound.waitingBelow job waits)
  · intro job done
    exact later (sound.finishedBelow job done)
  · intro someLive job before needed
    have different : job ≠ board.next := by
      intro same
      rw [same, optional] at needed
      contradiction
    exact sound.accounted someLive job
      (Nat.lt_of_le_of_ne (Nat.le_of_lt_succ before) different) needed

theorem Sound.finish {board : Board ι} (sound : Sound rules board) {worker : ι}
    {job time : Nat} (held : job ∈ board.window worker) :
    Sound rules (board.apply rules (.finish worker job time)) := by
  have live : worker ∈ board.live := by
    by_contra dead
    rw [sound.idle worker dead] at held
    exact Finset.notMem_empty _ held
  have smaller : ∀ other, Function.update board.window worker
      ((board.window worker).erase job) other ⊆ board.window other := by
    intro other entry member
    rcases mem_update.mp member with ⟨rfl, kept⟩ | ⟨_, kept⟩
    · exact Finset.mem_of_mem_erase kept
    · exact kept
  have gone : ∀ other, job ∉ Function.update board.window worker
      ((board.window worker).erase job) other := by
    intro other member
    rcases mem_update.mp member with ⟨rfl, kept⟩ | ⟨different, kept⟩
    · exact Finset.notMem_erase _ _ kept
    · exact Finset.disjoint_left.mp (sound.apart other worker different) kept held
  constructor
  · intro other dead
    exact Finset.subset_empty.mp ((smaller other).trans (sound.idle other dead).le)
  · intro first second different
    exact Finset.disjoint_of_subset_left (smaller first)
      (Finset.disjoint_of_subset_right (smaller second) (sound.apart first second different))
  · intro other
    exact Finset.disjoint_of_subset_left (smaller other) (sound.windowWaiting other)
  · intro other
    apply Finset.disjoint_insert_right.mpr
    exact ⟨gone other, Finset.disjoint_of_subset_left (smaller other) (sound.windowFinished other)⟩
  · apply Finset.disjoint_insert_right.mpr
    exact ⟨Finset.disjoint_left.mp (sound.windowWaiting worker) held, sound.waitingFinished⟩
  · intro other entry member
    exact sound.windowBelow other entry (smaller other member)
  · exact sound.waitingBelow
  · intro entry done
    rcases Finset.mem_insert.mp done with rfl | before
    · exact sound.windowBelow worker entry held
    · exact sound.finishedBelow entry before
  · intro other
    exact (Finset.card_le_card (smaller other)).trans (sound.windowBound other)
  · exact sound.waitingBound
  · exact sound.crewBound
  · calc ∑ other ∈ board.live, (Function.update board.window worker
          ((board.window worker).erase job) other).card
        ≤ board.load := Finset.sum_le_sum fun other _ => Finset.card_le_card (smaller other)
      _ ≤ board.capacity := sound.loadBound
  · intro someLive entry before needed
    by_cases same : entry = job
    · subst same
      exact .inl (Finset.mem_insert_self _ _)
    · rcases sound.accounted someLive entry before needed with
        done | waits | ⟨holder, holds, inWindow⟩
      · exact .inl (Finset.mem_insert_of_mem done)
      · exact .inr (.inl waits)
      · refine .inr (.inr ⟨holder, holds, mem_update.mpr ?_⟩)
        by_cases sameWorker : holder = worker
        · subst sameWorker
          exact .inl ⟨rfl, Finset.mem_erase.mpr ⟨same, inWindow⟩⟩
        · exact .inr ⟨sameWorker, inWindow⟩

theorem Sound.fail {board : Board ι} (sound : Sound rules board) {worker : ι}
    (live : worker ∈ board.live) : Sound rules (board.apply rules (.fail worker)) := by
  have smaller : ∀ other, Function.update board.window worker ∅ other ⊆
      board.window other := by
    intro other entry member
    rcases mem_update.mp member with ⟨_, impossible⟩ | ⟨_, kept⟩
    · exact absurd impossible (Finset.notMem_empty _)
    · exact kept
  have waitingFrom : ∀ entry ∈ (board.apply rules (.fail worker)).waiting,
      entry ∈ board.waiting ∨ entry ∈ board.window worker := by
    intro entry member
    simp only [apply] at member
    split at member
    · exact .inl member
    · rcases Finset.mem_union.mp member with waits | moved
      · exact .inl waits
      · exact .inr (Finset.mem_of_mem_filter entry moved)
  constructor
  · intro other dead
    by_cases same : other = worker
    · subst same
      exact Function.update_self ..
    · have stillDead : other ∉ board.live := fun member =>
        dead (Finset.mem_erase.mpr ⟨same, member⟩)
      exact (Function.update_of_ne same ..).trans (sound.idle other stillDead)
  · intro first second different
    exact Finset.disjoint_of_subset_left (smaller first)
      (Finset.disjoint_of_subset_right (smaller second) (sound.apart first second different))
  · intro other
    rw [Finset.disjoint_left]
    intro entry inWindow waits
    rcases mem_update.mp inWindow with ⟨_, impossible⟩ | ⟨different, held⟩
    · exact Finset.notMem_empty _ impossible
    · rcases waitingFrom entry waits with waited | moved
      · exact Finset.disjoint_left.mp (sound.windowWaiting other) held waited
      · exact Finset.disjoint_left.mp (sound.apart other worker different) held moved
  · intro other
    exact Finset.disjoint_of_subset_left (smaller other) (sound.windowFinished other)
  · rw [Finset.disjoint_left]
    intro entry waits done
    rcases waitingFrom entry waits with waited | moved
    · exact Finset.disjoint_left.mp sound.waitingFinished waited done
    · exact Finset.disjoint_left.mp (sound.windowFinished worker) moved done
  · intro other entry member
    exact sound.windowBelow other entry (smaller other member)
  · intro entry waits
    rcases waitingFrom entry waits with waited | moved
    · exact sound.waitingBelow entry waited
    · exact sound.windowBelow worker entry moved
  · exact sound.finishedBelow
  · intro other
    exact (Finset.card_le_card (smaller other)).trans (sound.windowBound other)
  · have moved : ((board.window worker).filter fun job => rules.required job).card ≤
        rules.windowSize := (Finset.card_filter_le _ _).trans (sound.windowBound worker)
    have waited := sound.waitingBound
    change Finset.card (if _ then _ else _) ≤ rules.windowSize * (board.failures + 1)
    rw [Nat.mul_succ]
    split
    · exact waited.trans (Nat.le_add_right _ _)
    · exact (Finset.card_union_le _ _).trans (Nat.add_le_add waited moved)
  · have erased := Finset.card_erase_add_one live
    have crew := sound.crewBound
    change (board.live.erase worker).card + (board.failures + 1) ≤ rules.crew
    omega
  · calc ∑ other ∈ board.live.erase worker, (Function.update board.window worker ∅ other).card
        ≤ ∑ other ∈ board.live, (Function.update board.window worker ∅ other).card :=
          Finset.sum_le_sum_of_subset (Finset.erase_subset _ _)
      _ ≤ board.load := Finset.sum_le_sum fun other _ => Finset.card_le_card (smaller other)
      _ ≤ board.capacity := sound.loadBound
  · intro someLive entry before needed
    have survivors : board.live.erase worker ≠ ∅ := Finset.Nonempty.ne_empty someLive
    have waitingEq : (board.apply rules (.fail worker)).waiting =
        board.waiting ∪ (board.window worker).filter fun job => rules.required job :=
      if_neg survivors
    rw [waitingEq]
    rcases sound.accounted ⟨worker, live⟩ entry before needed with
      done | waits | ⟨holder, holds, held⟩
    · exact .inl done
    · exact .inr (.inl (Finset.mem_union_left _ waits))
    · by_cases same : holder = worker
      · subst same
        exact .inr (.inl (Finset.mem_union_right _ (Finset.mem_filter.mpr ⟨held, needed⟩)))
      · exact .inr (.inr ⟨holder, Finset.mem_erase.mpr ⟨same, holds⟩,
          mem_update.mpr (.inr ⟨same, held⟩)⟩)

/-- Every allowed move keeps the invariant. -/
theorem Sound.apply {board : Board ι} (sound : Sound rules board) {move : Move ι}
    (allowed : board.Allowed rules move) : Sound rules (board.apply rules move) := by
  cases move with
  | launch workers capacity time => exact sound_launch capacity allowed
  | assign worker job time => exact sound.assign allowed
  | skip job => exact sound.skip allowed
  | resume worker job time => exact sound.resume allowed
  | finish worker job time => exact sound.finish allowed
  | silent worker time limit => exact sound
  | fail worker => exact sound.fail allowed
  | lose job => exact False.elim allowed
  | reset => exact sound_empty

/-- The board of a valid log satisfies the invariant. -/
theorem Sound.replay {log : List (Move ι)} (valid : Valid rules log) :
    Sound rules (Board.replay rules log) := by
  induction valid with
  | nil => exact sound_empty
  | cons _ allowed inductionHypothesis => exact inductionHypothesis.apply allowed

end Board

/-- A valid log never loses a job. -/
theorem Valid.no_loss [DecidableEq ι] {rules : Rules} {log : List (Move ι)}
    (valid : Valid rules log) (job : Nat) : Move.lose job ∉ log := by
  induction valid with
  | nil => exact List.not_mem_nil
  | cons _ allowed inductionHypothesis =>
      intro member
      rcases List.mem_cons.mp member with rfl | before
      · exact allowed
      · exact inductionHypothesis before

/-! ## Times -/

/-! ## The jobs handed out -/

/-- The jobs assigned since the last launch, newest first. -/
def assigned : List (Move ι) → List Nat
  | [] => []
  | .assign _ job _ :: log => job :: assigned log
  | .launch _ _ _ :: _ => []
  | .reset :: _ => []
  | _ :: log => assigned log

/-- The jobs are those the board has dispatched, each of them once, up to optional ones. -/
structure HandedOut (rules : Rules) (next : Nat) (jobs : List Nat) : Prop where
  descending : jobs.Pairwise (· > ·)
  below : ∀ job ∈ jobs, job < next
  complete : ∀ job < next, rules.required job = true → job ∈ jobs

theorem HandedOut.nil (rules : Rules) : HandedOut rules 0 [] where
  descending := .nil
  below _ none := absurd none List.not_mem_nil
  complete _ impossible := absurd impossible (Nat.not_lt_zero _)

theorem HandedOut.assign {rules : Rules} {next : Nat} {jobs : List Nat}
    (handedOut : HandedOut rules next jobs) : HandedOut rules (next + 1) (next :: jobs) where
  descending := List.pairwise_cons.mpr ⟨handedOut.below, handedOut.descending⟩
  below job member := by
    rcases List.mem_cons.mp member with rfl | older
    · exact Nat.lt_succ_self _
    · exact Nat.lt_succ_of_lt (handedOut.below job older)
  complete job before needed := by
    rcases Nat.lt_succ_iff_lt_or_eq.mp before with older | rfl
    · exact List.mem_cons_of_mem _ (handedOut.complete job older needed)
    · exact List.mem_cons_self

theorem HandedOut.skip {rules : Rules} {next : Nat} {jobs : List Nat}
    (handedOut : HandedOut rules next jobs) (optional : rules.required next = false) :
    HandedOut rules (next + 1) jobs where
  descending := handedOut.descending
  below job member := Nat.lt_succ_of_lt (handedOut.below job member)
  complete job before needed := by
    rcases Nat.lt_succ_iff_lt_or_eq.mp before with older | rfl
    · exact handedOut.complete job older needed
    · exact absurd (optional.symm.trans needed) Bool.false_ne_true

/-- Every required job below the next one was assigned exactly once, and no other job above. -/
theorem Valid.handedOut [DecidableEq ι] {rules : Rules} {log : List (Move ι)}
    (valid : Valid rules log) :
    HandedOut rules (Board.replay rules log).next (assigned log) := by
  induction valid with
  | nil => exact .nil rules
  | @cons move log _ allowed inductionHypothesis =>
      cases move with
      | launch workers capacity time => exact .nil rules
      | reset => exact .nil rules
      | assign worker job time =>
          obtain ⟨_, rfl, _⟩ := allowed
          exact inductionHypothesis.assign
      | skip job =>
          obtain ⟨rfl, optional⟩ := allowed
          exact inductionHypothesis.skip optional
      | resume worker job time => exact inductionHypothesis
      | finish worker job time => exact inductionHypothesis
      | silent worker time limit => exact inductionHypothesis
      | fail worker => exact inductionHypothesis
      | lose job => exact inductionHypothesis

/-- The time at which some worker was heard: at the launch or when it finished a job. -/
def Move.hearing : Move ι → Option Nat
  | .launch _ _ time | .finish _ _ time => some time
  | _ => none

/-- The time of a move that hands out a job or hears a worker. -/
def Move.stamp : Move ι → Option Nat
  | .launch _ _ time | .assign _ _ time | .resume _ _ time | .finish _ _ time => some time
  | _ => none

theorem Move.stamp_of_hearing {move : Move ι} {time : Nat} (hears : move.hearing = some time) :
    move.stamp = some time := by
  cases move with
  | launch workers capacity launched => exact hears
  | finish worker job finished => exact hears
  | _ => contradiction

section Times

variable [DecidableEq ι] {log : List (Move ι)} {move : Move ι} {worker : ι} {time limit : Nat}

/-- The time at which the move heard of this worker. -/
def Move.heardFrom (worker : ι) : Move ι → Option Nat
  | .launch _ _ time => some time
  | .finish other _ time => if other = worker then some time else none
  | _ => none

/-- The time at which the move handed the job to the worker. -/
def Move.placedOn (worker : ι) (job : Nat) : Move ι → Option Nat
  | .assign other placed time | .resume other placed time =>
      if other = worker ∧ placed = job then some time else none
  | _ => none

/-- When the worker was last heard. -/
def lastHeard (worker : ι) (log : List (Move ι)) : Option Nat :=
  log.findSome? (Move.heardFrom worker)

/-- When the worker was last given the job. -/
def placedAt (worker : ι) (job : Nat) (log : List (Move ι)) : Option Nat :=
  log.findSome? (Move.placedOn worker job)

/-- A hearing is not before the stamps of the log, and a worker is called silent only after
it was not heard for longer than the limit. -/
def Move.Timely (log : List (Move ι)) : Move ι → Prop
  | .launch _ _ time | .finish _ _ time =>
      ∀ earlier ∈ log, ∀ stamped, earlier.stamp = some stamped → stamped ≤ time
  | .silent worker time limit =>
      ∃ heard, lastHeard worker log = some heard ∧ heard + limit < time
  | _ => True

/-- A log in which every move was timely when it was made. -/
inductive Timely : List (Move ι) → Prop where
  | nil : Timely []
  | cons {move : Move ι} {log : List (Move ι)} :
      Timely log → move.Timely log → Timely (move :: log)

theorem Move.hearing_of_heardFrom {heard : Nat} (hears : move.heardFrom worker = some heard) :
    move.hearing = some heard := by
  cases move with
  | launch workers capacity time => exact hears
  | finish other job time =>
      simp only [Move.heardFrom, Option.ite_none_right_eq_some] at hears
      exact hears.2
  | _ => contradiction

theorem lastHeard_cons_of_quiet (quiet : move.hearing = none) :
    lastHeard worker (move :: log) = lastHeard worker log := by
  have unheard : move.heardFrom worker = none := by
    by_contra hears
    obtain ⟨heard, hears⟩ := Option.ne_none_iff_exists'.mp hears
    rw [Move.hearing_of_heardFrom hears] at quiet
    contradiction
  exact List.findSome?_cons_of_isNone (by rw [unheard]; rfl)

theorem lastHeard_append_of_quiet {recent : List (Move ι)}
    (quiet : ∀ move ∈ recent, move.hearing = none) :
    lastHeard worker (recent ++ log) = lastHeard worker log := by
  induction recent with
  | nil => rfl
  | cons move rest inductionHypothesis =>
      rw [List.cons_append, lastHeard_cons_of_quiet (quiet move List.mem_cons_self)]
      exact inductionHypothesis fun other member => quiet other (List.mem_cons_of_mem _ member)

theorem exists_hearing_of_lastHeard {heard : Nat} (last : lastHeard worker log = some heard) :
    ∃ move ∈ log, move.hearing = some heard := by
  obtain ⟨move, member, hears⟩ := List.exists_of_findSome?_eq_some last
  exact ⟨move, member, Move.hearing_of_heardFrom hears⟩

/-- In a timely log no job of the worker was finished after it was last heard. -/
theorem Timely.finish_le (timely : Timely log) {heard job : Nat}
    (last : lastHeard worker log = some heard) (done : Move.finish worker job time ∈ log) :
    time ≤ heard := by
  induction timely with
  | nil => exact absurd done List.not_mem_nil
  | @cons move log _ now inductionHypothesis =>
      rcases List.mem_cons.mp done with rfl | before
      · have here : lastHeard worker (Move.finish worker job time :: log) = some time :=
          List.findSome?_cons_of_isSome (by simp [Move.heardFrom]) |>.trans
            (by simp [Move.heardFrom])
        rw [here] at last
        exact le_of_eq (Option.some.inj last)
      · cases hears : move.heardFrom worker with
        | none =>
            have same : lastHeard worker (move :: log) = lastHeard worker log :=
              List.findSome?_cons_of_isNone (by rw [hears]; rfl)
            exact inductionHypothesis (same.symm.trans last) before
        | some heardNow =>
            have same : lastHeard worker (move :: log) = some heardNow := by
              rw [lastHeard, List.findSome?_cons, hears]
            obtain rfl : heardNow = heard := Option.some.inj (same.symm.trans last)
            cases move with
            | launch workers capacity launched =>
                obtain rfl : launched = heardNow := Option.some.inj hears
                exact now _ before time rfl
            | finish other otherJob finished =>
                obtain rfl : finished = heardNow :=
                  Option.some.inj (Move.hearing_of_heardFrom hears)
                exact now _ before time rfl
            | _ => contradiction

/-! ## Idle workers that were given jobs -/

/-- All jobs that the worker holds it was given at `since` or later. -/
def HeldSince (rules : Rules) (log : List (Move ι)) (worker : ι) (since : Nat) : Prop :=
  ∀ job ∈ (Board.replay rules log).window worker,
    ∀ placed, placedAt worker job log = some placed → since ≤ placed

/-- The worker was idle at some moment, and what it was given after it, it was given at
`since` or later. -/
def IdleUntil (rules : Rules) (log : List (Move ι)) (worker : ι) (since : Nat) : Prop :=
  ∃ recent earlier, log = recent ++ earlier ∧
    (Board.replay rules earlier).window worker = ∅ ∧
    ∀ move ∈ recent, ∀ job placed, move.placedOn worker job = some placed → since ≤ placed

section Idle

variable {rules : Rules} {since job : Nat}

/-- Only a move that hands the job to the worker puts it into the window. -/
theorem Move.held_before {board : Board ι}
    (held : job ∈ (board.apply rules move).window worker)
    (elsewhere : move.placedOn worker job = none) : job ∈ board.window worker := by
  cases move with
  | launch workers capacity launched => exact absurd held (Finset.notMem_empty job)
  | reset => exact absurd held (Finset.notMem_empty job)
  | assign other given placed | resume other given placed =>
      rcases Board.mem_update.mp held with ⟨rfl, inserted⟩ | ⟨_, before⟩
      · rcases Finset.mem_insert.mp inserted with rfl | before
        · simp [Move.placedOn] at elsewhere
        · exact before
      · exact before
  | finish other done finished =>
      rcases Board.mem_update.mp held with ⟨rfl, kept⟩ | ⟨_, before⟩
      · exact Finset.mem_of_mem_erase kept
      · exact before
  | fail other =>
      rcases Board.mem_update.mp held with ⟨_, impossible⟩ | ⟨_, before⟩
      · exact absurd impossible (Finset.notMem_empty job)
      · exact before
  | _ => exact held

theorem Move.stamp_of_placedOn {placed : Nat} (here : move.placedOn worker job = some placed) :
    move.stamp = some placed := by
  cases move with
  | assign other given time => exact (Option.ite_none_right_eq_some.mp here).2
  | resume other given time => exact (Option.ite_none_right_eq_some.mp here).2
  | _ => contradiction

theorem placedAt_cons_of_placed {placed : Nat} (here : move.placedOn worker job = some placed) :
    placedAt worker job (move :: log) = some placed := by
  rw [placedAt, List.findSome?_cons, here]

theorem placedAt_cons_of_none (elsewhere : move.placedOn worker job = none) :
    placedAt worker job (move :: log) = placedAt worker job log := by
  rw [placedAt, List.findSome?_cons, elsewhere]
  rfl

/-- What a worker holds it was given by a move of the log. -/
theorem exists_placedAt (held : job ∈ (Board.replay rules log).window worker) :
    ∃ placed, placedAt worker job log = some placed ∧
      ∃ move ∈ log, move.stamp = some placed := by
  induction log with
  | nil => exact absurd held (Finset.notMem_empty job)
  | cons move rest inductionHypothesis =>
      cases here : move.placedOn worker job with
      | some placed =>
          exact ⟨placed, placedAt_cons_of_placed here, move, List.mem_cons_self,
            Move.stamp_of_placedOn here⟩
      | none =>
          obtain ⟨placed, found, move', member, stamped⟩ :=
            inductionHypothesis (Move.held_before held here)
          exact ⟨placed, (placedAt_cons_of_none here).trans found, move',
            List.mem_cons_of_mem _ member, stamped⟩

theorem IdleUntil.heldSince (idle : IdleUntil rules log worker since) :
    HeldSince rules log worker since := by
  obtain ⟨recent, earlier, rfl, empty, fresh⟩ := idle
  induction recent with
  | nil =>
      intro job held
      rw [List.nil_append, empty] at held
      exact absurd held (Finset.notMem_empty job)
  | cons move rest inductionHypothesis =>
      intro job held placed found
      cases here : move.placedOn worker job with
      | some now =>
          rw [List.cons_append, placedAt_cons_of_placed here] at found
          obtain rfl := Option.some.inj found
          exact fresh move List.mem_cons_self job now here
      | none =>
          have before : job ∈ (Board.replay rules (rest ++ earlier)).window worker :=
            Move.held_before held here
          rw [List.cons_append, placedAt_cons_of_none here] at found
          exact inductionHypothesis
            (fun other member => fresh other (List.mem_cons_of_mem _ member)) job before placed
            found

/-- A move that leaves the window of the worker alone. -/
theorem HeldSince.of_same (held : HeldSince rules (move :: log) worker since)
    (window : (Board.replay rules (move :: log)).window worker =
      (Board.replay rules log).window worker)
    (elsewhere : ∀ job, move.placedOn worker job = none) : HeldSince rules log worker since := by
  intro job inWindow placed found
  exact held job (window ▸ inWindow) placed ((placedAt_cons_of_none (elsewhere job)).trans found)

theorem IdleUntil.cons (idle : IdleUntil rules log worker since)
    (fresh : ∀ job placed, move.placedOn worker job = some placed → since ≤ placed) :
    IdleUntil rules (move :: log) worker since := by
  obtain ⟨recent, earlier, rfl, empty, later⟩ := idle
  refine ⟨move :: recent, earlier, rfl, empty, ?_⟩
  intro other member
  rcases List.mem_cons.mp member with rfl | before
  · exact fresh
  · exact later other before

/-- The worker was just given a job that it did not hold. -/
theorem HeldSince.of_placed {given time : Nat}
    (held : HeldSince rules (move :: log) worker since)
    (window : (Board.replay rules (move :: log)).window worker =
      insert given ((Board.replay rules log).window worker))
    (placed : ∀ job, move.placedOn worker job = if given = job then some time else none)
    (fresh : given ∉ (Board.replay rules log).window worker) :
    HeldSince rules log worker since ∧
      ∀ job placed, move.placedOn worker job = some placed → since ≤ placed := by
  constructor
  · intro job before earlier found
    have other : given ≠ job := fun same => fresh (same ▸ before)
    have elsewhere : move.placedOn worker job = none := (placed job).trans (if_neg other)
    exact held job (window ▸ Finset.mem_insert_of_mem before) earlier
      ((placedAt_cons_of_none elsewhere).trans found)
  · intro job now here
    obtain ⟨rfl, same⟩ := Option.ite_none_right_eq_some.mp ((placed job).symm.trans here)
    obtain rfl := Option.some.inj same
    exact held given (window ▸ Finset.mem_insert_self _ _) time (placedAt_cons_of_placed here)

/-- In a log of allowed moves the converse holds for a worker that finished nothing since:
what it held at its last answer and has not finished, it still holds. -/
theorem HeldSince.idleUntil (held : HeldSince rules log worker since) (valid : Valid rules log)
    (timely : Timely log)
    (answered : ∀ job time, Move.finish worker job time ∈ log → time < since) :
    IdleUntil rules log worker since := by
  have idle : ∀ {log}, (Board.replay rules log).window worker = ∅ →
      IdleUntil rules log worker since :=
    fun empty => ⟨[], _, rfl, empty, fun _ impossible => absurd impossible List.not_mem_nil⟩
  induction valid with
  | nil => exact idle rfl
  | @cons move log valid allowed inductionHypothesis =>
      cases timely with
      | cons before now =>
          have sound := Board.Sound.replay valid
          have grow : HeldSince rules log worker since ∧
              (∀ job placed, move.placedOn worker job = some placed → since ≤ placed) →
              IdleUntil rules (move :: log) worker since := by
            rintro ⟨older, fresh⟩
            have idleBefore := inductionHypothesis older before fun job time done =>
              answered job time (List.mem_cons_of_mem _ done)
            exact idleBefore.cons fresh
          have quiet : (Board.replay rules (move :: log)).window worker =
              (Board.replay rules log).window worker →
              (∀ job, move.placedOn worker job = none) →
              IdleUntil rules (move :: log) worker since := by
            intro window elsewhere
            refine grow ⟨held.of_same window elsewhere, fun job placed here => ?_⟩
            rw [elsewhere job] at here
            contradiction
          cases move with
          | launch workers capacity launched => exact idle rfl
          | reset => exact idle rfl
          | skip job => exact quiet rfl fun _ => rfl
          | lose job => exact quiet rfl fun _ => rfl
          | silent other time limit => exact quiet rfl fun _ => rfl
          | assign other given time =>
              by_cases same : other = worker
              · subst same
                obtain ⟨_, rfl, _⟩ := allowed
                have placed : ∀ job,
                    Move.placedOn other job (.assign other (Board.replay rules log).next time) =
                      if (Board.replay rules log).next = job then some time else none :=
                  fun job => by simp [Move.placedOn]
                refine grow (held.of_placed (Function.update_self ..) placed ?_)
                exact fun member => Nat.lt_irrefl _ (sound.windowBelow other _ member)
              · exact quiet (Function.update_of_ne (Ne.symm same) ..)
                  fun job => if_neg fun here => same here.1
          | resume other given time =>
              by_cases same : other = worker
              · subst same
                have placed : ∀ job, Move.placedOn other job (.resume other given time) =
                    if given = job then some time else none := fun job => by simp [Move.placedOn]
                refine grow (held.of_placed (Function.update_self ..) placed ?_)
                exact fun member =>
                  Finset.disjoint_left.mp (sound.windowWaiting other) member allowed.2.1
              · exact quiet (Function.update_of_ne (Ne.symm same) ..)
                  fun job => if_neg fun here => same here.1
          | fail other =>
              by_cases same : other = worker
              · subst same
                exact idle (Function.update_self ..)
              · exact quiet (Function.update_of_ne (Ne.symm same) ..) fun _ => rfl
          | finish other done time =>
              by_cases same : other = worker
              · subst same
                -- What is left was given before this answer, hence before `since`.
                refine idle (Finset.eq_empty_of_forall_notMem fun job left => ?_)
                have applied : job ∈ ((Board.replay rules log).apply rules
                    (.finish other done time)).window other := left
                have older : job ∈ (Board.replay rules log).window other :=
                  Move.held_before applied rfl
                obtain ⟨placed, found, earlier, member, stamped⟩ := exists_placedAt older
                have early := now earlier member placed stamped
                have late := held job left placed ((placedAt_cons_of_none rfl).trans found)
                have answer := answered done time List.mem_cons_self
                omega
              · exact quiet (Function.update_of_ne (Ne.symm same) ..) fun _ => rfl

end Idle

theorem Valid.of_suffix {rules : Rules} {recent : List (Move ι)}
    (valid : Valid rules (recent ++ log)) : Valid rules log := by
  induction recent with
  | nil => exact valid
  | cons move rest inductionHypothesis =>
      cases valid with
      | cons before _ => exact inductionHypothesis before

theorem Timely.of_suffix {recent : List (Move ι)} (timely : Timely (recent ++ log)) :
    Timely log := by
  induction recent with
  | nil => exact timely
  | cons move rest inductionHypothesis =>
      cases timely with
      | cons before _ => exact inductionHypothesis before

end Times

end ForestLink.Lib.Dispatch
