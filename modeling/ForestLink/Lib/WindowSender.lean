/-
Module: ForestLink.Lib.WindowSender
Purpose: A sender of numbered fragments with a sliding window, acknowledgements in any order,
  and a bounded queue of fragments that the receiver asked for again.
Trusted boundary: none
Main exports: WindowEvent, WindowSender, WindowSender.serve, Sound.serve, filter_back, serve_stops,
  SentBefore, Clean.serve, Orderly, Orderly.asked_between
-/
import Mathlib.Data.List.Infix
import Mathlib.Data.List.Nodup
import Mathlib.Logic.Function.Basic

namespace ForestLink.Lib

/-! ## The sender -/

inductive WindowEvent where
  | forward (seq : Nat)
  | asked (seq : Nat)
deriving Repr, DecidableEq

/-- Fragments below `count`; `base` is the first that is not acknowledged, `next` the first
that was not sent.  The trace is newest first. -/
structure WindowSender where
  count : Nat
  acked : Nat → Bool := fun _ => false
  base : Nat := 0
  next : Nat := 0
  queue : List Nat := []
  trace : List WindowEvent := []

namespace WindowSender

def ack (w : WindowSender) (seq : Nat) : WindowSender :=
  if seq < w.count then { w with acked := Function.update w.acked seq true } else w

def advance : (fuel : Nat) → WindowSender → WindowSender
  | 0, w => w
  | fuel + 1, w =>
      if w.base < w.count && w.acked w.base then advance fuel { w with base := w.base + 1 }
      else w

/-- The acknowledgements, and the base behind them. -/
def takeAcks (w : WindowSender) (acks : List Nat) : WindowSender :=
  advance ((acks.foldl ack w).count - (acks.foldl ack w).base) (acks.foldl ack w)

/-- The receiver asks for a fragment. -/
def ask (size : Nat) (w : WindowSender) (seq : Nat) : WindowSender :=
  if seq ≥ w.count then w
  else if w.acked seq then w
  else
    { w with
      trace := .asked seq :: w.trace
      queue :=
        if seq ∉ w.queue ∧ w.queue.length < size then w.queue ++ [seq] else w.queue }

/-- Send entries again until one is refused; the answers are taken in turn. -/
def resend (size : Nat) :
    List Nat → (sent : Nat) → List Bool → WindowSender → Nat × List Bool × WindowSender
  | [], sent, answers, w => (sent, answers, w)
  | seq :: rest, sent, answers, w =>
      if sent ≥ size then (sent, answers, w)
      else if w.acked seq then resend size rest sent answers w
      else if answers.headD true then
        resend size rest (sent + 1) answers.tail { w with trace := .forward seq :: w.trace }
      else (sent, answers.tail, w)

/-- Drop the acknowledged entries and the first `sent` others. -/
def compact (w : WindowSender) (sent : Nat) : WindowSender :=
  { w with queue := (w.queue.filter fun seq => !w.acked seq).drop sent }

def sendNew (size windowEnd : Nat) : (fuel sent : Nat) → List Bool → WindowSender → WindowSender
  | 0, _, _, w => w
  | fuel + 1, sent, answers, w =>
      if w.next < w.count ∧ w.next < windowEnd ∧ sent < size then
        if answers.headD true then
          sendNew size windowEnd fuel (sent + 1) answers.tail
            { w with trace := .forward w.next :: w.trace, next := w.next + 1 }
        else w
      else w

/-- Send again what was asked for, then new fragments. -/
def send (size : Nat) (w : WindowSender) (answers : List Bool) : WindowSender :=
  let resent := resend size w.queue 0 answers w
  let compacted := resent.2.2.compact resent.1
  sendNew size (compacted.base + size) size resent.1 resent.2.1 compacted

/-- One round: acknowledgements, requests, sending. -/
def serve (size : Nat) (w : WindowSender) (acks nacks : List Nat) (answers : List Bool) :
    WindowSender :=
  (nacks.foldl (ask size) (w.takeAcks acks)).send size answers

variable {size : Nat} {w : WindowSender}

/-! ## What the steps change -/

theorem foldl_ack (acks : List Nat) (w : WindowSender) :
    ∃ acked, acks.foldl ack w = { w with acked := acked } ∧
      ∀ seq, acked seq = true ↔ w.acked seq = true ∨ seq ∈ acks ∧ seq < w.count := by
  induction acks generalizing w with
  | nil => exact ⟨w.acked, rfl, by simp⟩
  | cons first rest inductionHypothesis =>
      obtain ⟨acked, folded, marks⟩ := inductionHypothesis (w.ack first)
      rw [List.foldl_cons]
      by_cases inside : first < w.count
      · have marked : w.ack first = { w with acked := Function.update w.acked first true } :=
          if_pos inside
        refine ⟨acked, folded.trans (by rw [marked]), fun seq => ?_⟩
        rw [marks seq, marked]
        by_cases same : seq = first
        · simp [same, inside]
        · simp [same]
      · have unmarked : w.ack first = w := if_neg inside
        rw [unmarked] at folded marks
        refine ⟨acked, by rw [unmarked]; exact folded, fun seq => (marks seq).trans ?_⟩
        constructor
        · exact fun either => either.imp_right fun both => ⟨List.mem_cons_of_mem _ both.1, both.2⟩
        · rintro (before | ⟨member, small⟩)
          · exact .inl before
          · rcases List.mem_cons.mp member with rfl | later
            · exact absurd small inside
            · exact .inr ⟨later, small⟩

/-- The base moves over acknowledged fragments and stops at one that is not. -/
theorem advance_spec {fuel : Nat} (enough : w.count - w.base ≤ fuel) :
    ∃ base, advance fuel w = { w with base := base } ∧ w.base ≤ base ∧
      (w.base ≤ w.count → base ≤ w.count) ∧
      (∀ seq, w.base ≤ seq → seq < base → w.acked seq = true) ∧
      (base < w.count → w.acked base = false) := by
  induction fuel generalizing w with
  | zero =>
      refine ⟨w.base, rfl, le_rfl, id, fun seq above below => ?_, fun below => ?_⟩ <;> omega
  | succ fuel inductionHypothesis =>
      unfold advance
      split
      · rename_i more
        rw [Bool.and_eq_true, decide_eq_true_eq] at more
        obtain ⟨base, advanced, above, inside, behind, stops⟩ :=
          @inductionHypothesis { w with base := w.base + 1 }
            (show w.count - (w.base + 1) ≤ fuel by omega)
        refine ⟨base, advanced, Nat.le_of_succ_le above, fun _ => inside more.1,
          fun seq here below => ?_, stops⟩
        rcases Nat.eq_or_lt_of_le here with rfl | later
        · exact more.2
        · exact behind seq later below
      · rename_i stops
        refine ⟨w.base, rfl, le_rfl, id, fun seq above below => ?_, fun below => ?_⟩
        · omega
        · simpa [below] using stops

theorem takeAcks_spec (w : WindowSender) (acks : List Nat) :
    ∃ acked base, w.takeAcks acks = { w with acked := acked, base := base } ∧
      (∀ seq, acked seq = true ↔ w.acked seq = true ∨ seq ∈ acks ∧ seq < w.count) ∧
      w.base ≤ base ∧ (w.base ≤ w.count → base ≤ w.count) ∧
      (∀ seq, w.base ≤ seq → seq < base → acked seq = true) ∧
      (base < w.count → acked base = false) := by
  obtain ⟨acked, folded, marks⟩ := foldl_ack acks w
  obtain ⟨base, advanced, rest⟩ := advance_spec (le_refl
    ((acks.foldl ack w).count - (acks.foldl ack w).base))
  unfold takeAcks
  rw [advanced]
  rw [folded] at rest ⊢
  exact ⟨acked, base, rfl, marks, rest⟩

/-- The fragments that are sent again are the first ones of the queue that still matter. -/
theorem resend_spec (size : Nat) (entries : List Nat) (sent : Nat) (answers : List Bool)
    (w : WindowSender) :
    ∃ resent answersLeft, resend size entries sent answers w =
        (sent + resent.length, answersLeft,
          { w with trace := (resent.map .forward).reverse ++ w.trace }) ∧
      resent <+: entries.filter fun seq => !w.acked seq := by
  induction entries generalizing sent answers w with
  | nil => exact ⟨[], answers, rfl, List.nil_prefix⟩
  | cons seq rest inductionHypothesis =>
      unfold resend
      split
      · exact ⟨[], answers, rfl, List.nil_prefix⟩
      split
      · rename_i done
        obtain ⟨resent, answersLeft, result, front⟩ := inductionHypothesis sent answers w
        refine ⟨resent, answersLeft, result, ?_⟩
        simpa [done] using front
      rename_i open_
      split
      · obtain ⟨resent, answersLeft, result, front⟩ := inductionHypothesis (sent + 1)
          answers.tail { w with trace := .forward seq :: w.trace }
        refine ⟨seq :: resent, answersLeft, ?_, ?_⟩
        · rw [result]
          simp [Nat.add_assoc, Nat.add_comm 1]
        · simpa [open_] using front
      · exact ⟨[], answers.tail, rfl, List.nil_prefix⟩

/-- New fragments are sent in turn, up to the end of the window. -/
theorem sendNew_spec (size windowEnd fuel sent : Nat) (answers : List Bool) (w : WindowSender) :
    ∃ new, sendNew size windowEnd fuel sent answers w =
        { w with
          next := w.next + new
          trace := ((List.range' w.next new).map .forward).reverse ++ w.trace } ∧
      (0 < new → w.next + new ≤ w.count ∧ w.next + new ≤ windowEnd) := by
  induction fuel generalizing sent answers w with
  | zero => exact ⟨0, rfl, fun some => absurd some (Nat.lt_irrefl 0)⟩
  | succ fuel inductionHypothesis =>
      unfold sendNew
      split
      · rename_i open_
        split
        · obtain ⟨new, result, fits⟩ := inductionHypothesis (sent + 1) answers.tail
            { w with trace := .forward w.next :: w.trace, next := w.next + 1 }
          refine ⟨new + 1, ?_, fun _ => ?_⟩
          · rw [result]
            simp [List.range'_succ, Nat.add_assoc, Nat.add_comm 1]
          · rcases Nat.eq_zero_or_pos new with rfl | some
            · omega
            · have := fits some
              dsimp only at this
              omega
        · exact ⟨0, rfl, fun some => absurd some (Nat.lt_irrefl 0)⟩
      · exact ⟨0, rfl, fun some => absurd some (Nat.lt_irrefl 0)⟩

/-- Asking records events and appends fragments that were asked for. -/
theorem foldl_ask (size : Nat) (nacks : List Nat) (w : WindowSender) :
    ∃ added asked, nacks.foldl (ask size) w =
        { w with queue := w.queue ++ added, trace := asked ++ w.trace } ∧
      (∀ seq ∈ added, seq ∈ nacks) ∧ (∀ event ∈ asked, ∃ seq, event = .asked seq) ∧
      (w.queue.Nodup → (w.queue ++ added).Nodup) ∧
      (w.queue.length ≤ size → (w.queue ++ added).length ≤ size) := by
  induction nacks generalizing w with
  | nil => exact ⟨[], [], by simp, by simp, by simp, by simp, by simp⟩
  | cons seq rest inductionHypothesis =>
      obtain ⟨added, asked, result, fromNacks, requests, nodup, short⟩ :=
        inductionHypothesis (w.ask size seq)
      rw [List.foldl_cons, result]
      have later : ∀ other ∈ added, other ∈ seq :: rest := fun other member =>
        List.mem_cons_of_mem seq (fromNacks other member)
      unfold ask at nodup short ⊢
      split
      · rename_i beyond
        rw [if_pos beyond] at nodup short
        exact ⟨added, asked, rfl, later, requests, nodup, short⟩
      rename_i inside
      rw [if_neg inside] at nodup short
      split
      · rename_i done
        rw [if_pos done] at nodup short
        exact ⟨added, asked, rfl, later, requests, nodup, short⟩
      rename_i open_
      rw [if_neg open_] at nodup short
      have recorded : ∀ event ∈ asked ++ [.asked seq], ∃ other, event = .asked other := by
        intro event member
        rcases List.mem_append.mp member with here | here
        · exact requests event here
        · exact ⟨seq, List.mem_singleton.mp here⟩
      dsimp only at nodup short ⊢
      split
      · rename_i room
        rw [if_pos room] at nodup short
        refine ⟨seq :: added, asked ++ [.asked seq], by simp, ?_, recorded, ?_, ?_⟩
        · intro other member
          rcases List.mem_cons.mp member with rfl | here
          · exact List.mem_cons_self
          · exact later other here
        · intro unique
          rw [List.append_cons]
          apply nodup
          exact List.Nodup.append unique (List.nodup_singleton seq)
            (List.disjoint_singleton.mpr room.1)
        · intro _
          rw [List.append_cons]
          apply short
          rw [List.length_append]
          exact room.2
      · rename_i full
        rw [if_neg full] at nodup short
        exact ⟨added, asked ++ [.asked seq], by simp, later, recorded, nodup, short⟩

/-- What is sent in a round: the front of the queue that still matters, and new fragments. -/
theorem send_spec (size : Nat) (w : WindowSender) (answers : List Bool) :
    ∃ resent rest new answersLeft,
      resend size w.queue 0 answers w = (resent.length, answersLeft,
        { w with trace := (resent.map .forward).reverse ++ w.trace }) ∧
      w.queue.filter (fun seq => !w.acked seq) = resent ++ rest ∧
      w.send size answers =
        { w with
          queue := rest
          next := w.next + new
          trace := ((List.range' w.next new).map .forward).reverse ++
            ((resent.map .forward).reverse ++ w.trace) } ∧
      (0 < new → w.next + new ≤ w.count ∧ w.next + new ≤ w.base + size) := by
  obtain ⟨resent, answersLeft, result, rest, front⟩ := resend_spec size w.queue 0 answers w
  rw [Nat.zero_add] at result
  obtain ⟨new, sent, fits⟩ := sendNew_spec size (w.base + size) size resent.length answersLeft
    (compact { w with trace := (resent.map .forward).reverse ++ w.trace } resent.length)
  refine ⟨resent, rest, new, answersLeft, result, front.symm, ?_, fits⟩
  unfold send
  rw [result]
  refine sent.trans ?_
  unfold compact
  rw [← front, List.drop_left]

/-- What the front of a list without duplicates leaves. -/
theorem filter_back {entries front back : List Nat} {wanted : Nat → Bool} (nodup : entries.Nodup)
    (parts : entries.filter wanted = front ++ back) :
    entries.filter (fun seq => wanted seq && seq ∉ front) = back := by
  have apart : (front ++ back).Nodup := parts ▸ nodup.filter wanted
  have none : front.filter (fun seq => seq ∉ front) = [] := by
    simp
  have all : back.filter (fun seq => seq ∉ front) = back := by
    rw [List.filter_eq_self]
    intro seq member
    exact decide_eq_true fun before => List.disjoint_of_nodup_append apart before member
  calc entries.filter (fun seq => wanted seq && seq ∉ front)
      = (entries.filter wanted).filter (fun seq => seq ∉ front) := by
        rw [List.filter_filter]
        exact List.filter_congr fun seq _ => Bool.and_comm _ _
    _ = back := by rw [parts, List.filter_append, none, all, List.nil_append]

/-- After a round the base is not acknowledged. -/
theorem serve_stops (w : WindowSender) (acks nacks : List Nat) (answers : List Bool) :
    let after := w.serve size acks nacks answers
    after.base < after.count → after.acked after.base = false := by
  obtain ⟨acked, base, taken, _, _, _, _, stops⟩ := takeAcks_spec w acks
  obtain ⟨added, asked, result, _⟩ := foldl_ask size nacks (w.takeAcks acks)
  obtain ⟨resent, rest, new, _, _, _, sent, _⟩ :=
    send_spec size (nacks.foldl (ask size) (w.takeAcks acks)) answers
  unfold serve
  rw [sent, result, taken]
  exact stops

/-! ## What every round keeps -/

/-- Acknowledged fragments are behind the base, sent ones within the window, and the queue is a
short list without duplicates. -/
structure Sound (size : Nat) (w : WindowSender) : Prop where
  inside : w.base ≤ w.count
  behind : ∀ seq < w.base, w.acked seq = true
  window : w.next ≤ w.base + size
  forwarded : ∀ seq < w.next, .forward seq ∈ w.trace
  nodup : w.queue.Nodup
  short : w.queue.length ≤ size

namespace Sound

theorem start (size count : Nat) : Sound size { count := count } where
  inside := Nat.zero_le count
  behind seq below := absurd below (Nat.not_lt_zero seq)
  window := Nat.zero_le _
  forwarded seq below := absurd below (Nat.not_lt_zero seq)
  nodup := List.nodup_nil
  short := Nat.zero_le size

theorem takeAcks (sound : Sound size w) (acks : List Nat) : Sound size (w.takeAcks acks) := by
  obtain ⟨acked, base, taken, marks, above, inside, behind, _⟩ := takeAcks_spec w acks
  rw [taken]
  refine ⟨inside sound.inside, fun seq below => ?_,
    sound.window.trans (Nat.add_le_add_right above size), sound.forwarded, sound.nodup,
    sound.short⟩
  rcases Nat.lt_or_ge seq w.base with before | later
  · exact (marks seq).mpr (.inl (sound.behind seq before))
  · exact behind seq later below

theorem ask (sound : Sound size w) (nacks : List Nat) :
    Sound size (nacks.foldl (WindowSender.ask size) w) := by
  obtain ⟨added, asked, result, _, _, nodup, short⟩ := foldl_ask size nacks w
  rw [result]
  exact ⟨sound.inside, sound.behind, sound.window,
    fun seq below => List.mem_append_right asked (sound.forwarded seq below),
    nodup sound.nodup, short sound.short⟩

theorem send (sound : Sound size w) (answers : List Bool) : Sound size (w.send size answers) := by
  obtain ⟨resent, rest, new, _, _, parts, sent, fits⟩ := send_spec size w answers
  have kept : rest.Sublist w.queue :=
    calc rest.Sublist (resent ++ rest) := List.sublist_append_right resent rest
      _ = w.queue.filter fun seq => !w.acked seq := parts.symm
      List.Sublist _ w.queue := List.filter_sublist
  rw [sent]
  refine ⟨sound.inside, sound.behind, ?_, fun seq below => ?_, sound.nodup.sublist kept,
    kept.length_le.trans sound.short⟩
  · rcases Nat.eq_zero_or_pos new with rfl | some
    · exact sound.window
    · exact (fits some).2
  · rcases Nat.lt_or_ge seq w.next with before | later
    · exact List.mem_append_right _ (List.mem_append_right _ (sound.forwarded seq before))
    · have fresh : seq ∈ List.range' w.next new := List.mem_range'_1.mpr ⟨later, below⟩
      exact List.mem_append_left _ (List.mem_reverse.mpr (List.mem_map_of_mem fresh))

theorem serve (sound : Sound size w) (acks nacks : List Nat) (answers : List Bool) :
    Sound size (w.serve size acks nacks answers) :=
  ((sound.takeAcks acks).ask nacks).send answers

end Sound

/-! ## Fragments that are sent more than once -/

/-- The fragment was asked for after it was last sent. -/
def AskedLast (seq : Nat) : List WindowEvent → Prop
  | [] => False
  | .asked other :: earlier => other = seq ∨ AskedLast seq earlier
  | .forward other :: earlier => other ≠ seq ∧ AskedLast seq earlier

/-- Nothing was sent again unless it was asked for in between. -/
def Orderly : List WindowEvent → Prop
  | [] => True
  | .asked _ :: earlier => Orderly earlier
  | .forward seq :: earlier => (.forward seq ∈ earlier → AskedLast seq earlier) ∧ Orderly earlier

theorem AskedLast.append {seq : Nat} {recent earlier : List WindowEvent}
    (asked : AskedLast seq earlier) (quiet : .forward seq ∉ recent) :
    AskedLast seq (recent ++ earlier) := by
  induction recent with
  | nil => exact asked
  | cons event rest inductionHypothesis =>
      have later := inductionHypothesis fun here => quiet (List.mem_cons_of_mem event here)
      cases event with
      | asked other => exact .inr later
      | forward other =>
          exact ⟨fun same => quiet (same ▸ List.mem_cons_self), later⟩

theorem mem_forwards {seq : Nat} {seqs : List Nat} :
    WindowEvent.forward seq ∈ (seqs.map WindowEvent.forward).reverse ↔ seq ∈ seqs := by
  simp

/-- Different fragments are sent, each asked for since it was last sent. -/
theorem Orderly.forwards {earlier : List WindowEvent} (orderly : Orderly earlier)
    {seqs : List Nat} (nodup : seqs.Nodup)
    (asked : ∀ seq ∈ seqs, .forward seq ∈ earlier → AskedLast seq earlier) :
    Orderly ((seqs.map .forward).reverse ++ earlier) := by
  induction seqs generalizing earlier with
  | nil => exact orderly
  | cons first rest inductionHypothesis =>
      obtain ⟨fresh, nodupRest⟩ := List.nodup_cons.mp nodup
      rw [List.map_cons, List.reverse_cons, List.append_assoc]
      refine inductionHypothesis ⟨asked first List.mem_cons_self, orderly⟩ nodupRest ?_
      intro seq member sent
      have different : first ≠ seq := fun same => fresh (same ▸ member)
      rcases List.mem_cons.mp sent with here | before
      · exact absurd (WindowEvent.forward.inj here).symm different
      · exact ⟨different, asked seq (List.mem_cons_of_mem first member) before⟩

/-- Between two transmissions of a fragment it was asked for. -/
theorem Orderly.asked_between {trace later between earlier : List WindowEvent} {seq : Nat}
    (orderly : Orderly trace)
    (split : trace = later ++ .forward seq :: (between ++ .forward seq :: earlier)) :
    .asked seq ∈ between := by
  subst split
  induction later with
  | cons event rest inductionHypothesis =>
      cases event with
      | asked other => exact inductionHypothesis orderly
      | forward other => exact inductionHypothesis orderly.2
  | nil =>
      have asked := orderly.1 (List.mem_append_right between List.mem_cons_self)
      clear orderly
      induction between with
      | nil => exact absurd rfl asked.1
      | cons event rest inductionHypothesis =>
          cases event with
          | asked other =>
              rcases asked with rfl | before
              · exact List.mem_cons_self
              · exact List.mem_cons_of_mem _ (inductionHypothesis before)
          | forward other => exact List.mem_cons_of_mem _ (inductionHypothesis asked.2)

/-- Whatever is queued by these requests has been sent before. -/
def SentBefore (size : Nat) : WindowSender → List Nat → Prop
  | _, [] => True
  | w, seq :: rest =>
      (seq < w.count → w.acked seq = false → seq ∉ w.queue → w.queue.length < size →
          seq < w.next) ∧
        SentBefore size (w.ask size seq) rest

instance decidableSentBefore (size : Nat) :
    (w : WindowSender) → (nacks : List Nat) → Decidable (SentBefore size w nacks)
  | _, [] => inferInstanceAs (Decidable True)
  | w, seq :: rest =>
      have := decidableSentBefore size (w.ask size seq) rest
      inferInstanceAs (Decidable
        ((seq < w.count → w.acked seq = false → seq ∉ w.queue → w.queue.length < size →
          seq < w.next) ∧ SentBefore size (w.ask size seq) rest))

/-- A sender that was never asked for a fragment before its first transmission. -/
structure Clean (size : Nat) (w : WindowSender) : Prop extends Sound size w where
  known : ∀ seq ∈ w.queue, seq < w.next
  waiting : ∀ seq ∈ w.queue, AskedLast seq w.trace
  sent : ∀ seq, .forward seq ∈ w.trace → seq < w.next
  orderly : Orderly w.trace

namespace Clean

theorem start (size count : Nat) : Clean size { count := count } where
  toSound := .start size count
  known _ none := absurd none List.not_mem_nil
  waiting _ none := absurd none List.not_mem_nil
  sent _ none := absurd none List.not_mem_nil
  orderly := trivial

theorem takeAcks (clean : Clean size w) (acks : List Nat) : Clean size (w.takeAcks acks) := by
  have sound := clean.toSound.takeAcks acks
  obtain ⟨acked, base, taken, _⟩ := takeAcks_spec w acks
  rw [taken] at sound ⊢
  exact ⟨sound, clean.known, clean.waiting, clean.sent, clean.orderly⟩

theorem askOne (clean : Clean size w) {seq : Nat}
    (before : seq < w.count → w.acked seq = false → seq ∉ w.queue → w.queue.length < size →
      seq < w.next) : Clean size (w.ask size seq) := by
  have sound : Sound size (w.ask size seq) := clean.toSound.ask [seq]
  unfold WindowSender.ask at sound ⊢
  split
  · exact clean
  rename_i inside
  rw [if_neg inside] at sound
  split
  · exact clean
  rename_i open_
  rw [if_neg open_] at sound
  refine ⟨sound, ?_, ?_, fun other member => ?_, clean.orderly⟩
  · intro other member
    dsimp only at member
    split at member
    · rename_i room
      rcases List.mem_append.mp member with old | new
      · exact clean.known other old
      · rw [List.mem_singleton.mp new]
        exact before (Nat.lt_of_not_le inside) (Bool.eq_false_iff.mpr open_) room.1 room.2
    · exact clean.known other member
  · intro other member
    dsimp only at member
    split at member
    · rcases List.mem_append.mp member with old | new
      · exact .inr (clean.waiting other old)
      · exact .inl (List.mem_singleton.mp new).symm
    · exact .inr (clean.waiting other member)
  · rcases List.mem_cons.mp member with request | old
    · cases request
    · exact clean.sent other old

theorem ask (clean : Clean size w) {nacks : List Nat} (before : SentBefore size w nacks) :
    Clean size (nacks.foldl (WindowSender.ask size) w) := by
  induction nacks generalizing w with
  | nil => exact clean
  | cons seq rest inductionHypothesis =>
      exact inductionHypothesis (clean.askOne before.1) before.2

theorem send (clean : Clean size w) (answers : List Bool) : Clean size (w.send size answers) := by
  have sound := clean.toSound.send answers
  obtain ⟨resent, rest, new, _, _, parts, sent, _⟩ := send_spec size w answers
  have queued : ∀ {seq}, seq ∈ resent ++ rest → seq ∈ w.queue := fun member =>
    List.mem_of_mem_filter (parts ▸ member)
  have apart : (resent ++ rest).Nodup := parts ▸ clean.nodup.filter _
  have notNew : ∀ {seq}, seq ∈ w.queue → seq ∉ List.range' w.next new := fun member fresh =>
    Nat.not_le_of_lt (clean.known _ member) (List.mem_range'_1.mp fresh).1
  rw [sent] at sound ⊢
  refine ⟨sound, fun seq member => ?_, fun seq member => ?_, fun seq member => ?_, ?_⟩
  · exact Nat.lt_of_lt_of_le (clean.known seq (queued (List.mem_append_right _ member)))
      (Nat.le_add_right _ _)
  · have here := queued (List.mem_append_right resent member)
    refine ((clean.waiting seq here).append ?_).append ?_
    · rw [mem_forwards]
      exact fun again => (List.disjoint_of_nodup_append apart) again member
    · rw [mem_forwards]
      exact notNew here
  · rw [List.mem_append, List.mem_append, mem_forwards, mem_forwards] at member
    rcases member with fresh | again | old
    · exact (List.mem_range'_1.mp fresh).2
    · exact Nat.lt_of_lt_of_le (clean.known seq (queued (List.mem_append_left _ again)))
        (Nat.le_add_right _ _)
    · exact Nat.lt_of_lt_of_le (clean.sent seq old) (Nat.le_add_right _ _)
  · have again : Orderly ((resent.map .forward).reverse ++ w.trace) :=
      clean.orderly.forwards (apart.sublist (List.sublist_append_left _ _)) fun seq member _ =>
        clean.waiting seq (queued (List.mem_append_left _ member))
    refine again.forwards (List.nodup_range' ) fun seq fresh sentBefore => ?_
    have below := (List.mem_range'_1.mp fresh).1
    rw [List.mem_append, mem_forwards] at sentBefore
    rcases sentBefore with here | old
    · exact absurd fresh (notNew (queued (List.mem_append_left _ here)))
    · exact absurd (clean.sent seq old) (Nat.not_lt_of_le below)

theorem serve (clean : Clean size w) {acks nacks : List Nat}
    (before : SentBefore size (w.takeAcks acks) nacks) (answers : List Bool) :
    Clean size (w.serve size acks nacks answers) :=
  ((clean.takeAcks acks).ask before).send answers

end Clean

end WindowSender

end ForestLink.Lib
