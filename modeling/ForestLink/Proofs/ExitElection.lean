/-
Module: ForestLink.Proofs.ExitElection
Purpose: The loops of the election compute the first candidates of the stable order by descending
  score, within 16 bits.
Trusted boundary: none
Main exports: ExitCandidate.Typed, ScoreArrays.sort_scored, electedInPlace_eq,
  acceptedExits_eq_take, Collecting, election_picks_best
-/
import ForestLink.Lib.DescendingSort
import ForestLink.Lib.ParallelArrays
import ForestLink.Mesh.ElectionLoop
import ForestLink.Proofs.ElectionSessions

namespace ForestLink.Mesh

open ForestLink.Lib
open ForestLink.Protocol

/-- The fields are in the ranges of `int8_t` and `uint8_t`. -/
structure ExitCandidate.Typed (candidate : ExitCandidate) : Prop where
  rssi : -128 ≤ candidate.rssiToGw ∧ candidate.rssiToGw < 128
  hops : candidate.hopsToGw < 2 ^ 8
  active : candidate.activeTransfers < 2 ^ 8

namespace TransferEngine

/-! ## Two arrays as one -/

namespace ScoreArrays

variable {a : ScoreArrays}

/-- The scored candidates in array order. -/
def entries (a : ScoreArrays) : List (ExitCandidate × Int) := a.candidates.zip a.scores

/-- The arrays have one length. -/
def Even (a : ScoreArrays) : Prop := a.candidates.length = a.scores.length

theorem entries_put (a : ScoreArrays) (i : Nat) (candidate : ExitCandidate) (score : Int) :
    (a.put i candidate score).entries = a.entries.set i (candidate, score) := zip_set ..

theorem Even.put (even : a.Even) (i : Nat) (candidate : ExitCandidate) (score : Int) :
    (a.put i candidate score).Even := by
  unfold Even ScoreArrays.put
  rw [List.length_set, List.length_set]
  exact even

/-- The inner loop on both arrays is the inner loop on the entries. -/
theorem Even.shift (even : a.Even) (tc : ExitCandidate) (ts : Int) (gap : Nat) :
    (a.shift tc ts gap).Even ∧
      (a.shift tc ts gap).entries = settle Prod.snd (tc, ts) gap a.entries := by
  induction gap generalizing a with
  | zero => exact ⟨even.put 0 tc ts, a.entries_put 0 tc ts⟩
  | succ j inductionHypothesis =>
      unfold ScoreArrays.shift settle entries
      rcases zip_getElem? even j with ⟨candidate, score, one, other, both⟩ | ⟨one, other, both⟩
      · rw [one, other, both]
        dsimp only
        split
        · rw [← zip_set]
          exact inductionHypothesis (even.put (j + 1) candidate score)
        · exact ⟨even.put (j + 1) tc ts, a.entries_put (j + 1) tc ts⟩
      · rw [one, other, both]
        exact ⟨even, rfl⟩

theorem Even.insertAt (even : a.Even) (i : Nat) :
    (a.insertAt i).Even ∧ (a.insertAt i).entries = settleAt Prod.snd a.entries i := by
  unfold ScoreArrays.insertAt settleAt entries
  rcases zip_getElem? even i with ⟨candidate, score, one, other, both⟩ | ⟨one, other, both⟩
  · rw [one, other, both]
    exact even.shift candidate score i
  · rw [one, other, both]
    exact ⟨even, rfl⟩

/-- The sort of both arrays is the stable sort of the entries. -/
theorem Even.sort (even : a.Even) :
    a.sort.Even ∧ a.sort.entries = descending Prod.snd a.entries := by
  have rounds : ∀ (places : List Nat) (a : ScoreArrays), a.Even →
      (places.foldl ScoreArrays.insertAt a).Even ∧
        (places.foldl ScoreArrays.insertAt a).entries =
          places.foldl (settleAt Prod.snd) a.entries := by
    intro places
    induction places with
    | nil => exact fun a even => ⟨even, rfl⟩
    | cons i rest inductionHypothesis =>
        intro a even
        obtain ⟨still, settled⟩ := even.insertAt i
        rw [List.foldl_cons, List.foldl_cons, ← settled]
        exact inductionHypothesis (a.insertAt i) still
  have length : a.entries.length = a.candidates.length := length_zip_of_even even
  obtain ⟨still, settled⟩ := rounds (List.range' 1 (a.candidates.length - 1)) a even
  refine ⟨still, settled.trans ?_⟩
  rw [← sortInPlace_eq, sortInPlace, length]

/-- The loop accepts the first entries above the threshold. -/
theorem accept_eq (a : ScoreArrays) (limit : Nat) (threshold : Int) :
    a.accept limit threshold =
      ((a.entries.filter fun entry => decide (entry.2 ≥ threshold)).take limit).map Prod.fst := by
  have loop : ∀ (entries : List (ExitCandidate × Int)) (accepted : List ExitCandidate),
      accepted.length ≤ limit →
      entries.foldl (fun accepted entry =>
          if accepted.length < limit ∧ entry.2 ≥ threshold then accepted ++ [entry.1]
          else accepted) accepted =
        accepted ++ ((entries.filter fun entry => decide (entry.2 ≥ threshold)).take
          (limit - accepted.length)).map Prod.fst := by
    intro entries
    induction entries with
    | nil => simp
    | cons entry rest inductionHypothesis =>
        intro accepted inside
        rw [List.foldl_cons]
        by_cases above : entry.2 ≥ threshold
        · rw [List.filter_cons_of_pos (by simpa using above)]
          by_cases room : accepted.length < limit
          · have left : limit - accepted.length = limit - (accepted ++ [entry.1]).length + 1 := by
              rw [List.length_append, List.length_singleton]
              omega
            have grown : (accepted ++ [entry.1]).length ≤ limit := by
              rw [List.length_append, List.length_singleton]
              exact room
            rw [if_pos ⟨room, above⟩, inductionHypothesis _ grown, left,
              List.take_succ_cons, List.map_cons, List.append_assoc]
            rfl
          · have full : limit - accepted.length = 0 := by omega
            rw [if_neg fun both => room both.1, inductionHypothesis _ inside, full,
              List.take_zero, List.take_zero]
        · rw [if_neg fun both => above both.2, List.filter_cons_of_neg (by simpa using above),
            inductionHypothesis _ inside]
  exact loop a.entries [] (Nat.zero_le limit)

end ScoreArrays

/-! ## Sixteen bits -/

def FitsInt16 (value : Int) : Prop := -2 ^ 15 ≤ value ∧ value < 2 ^ 15

theorem FitsInt16.toInt16 {value : Int} (fits : FitsInt16 value) : toInt16 value = value :=
  Int.bmod_eq_of_le fits.1 fits.2

/-- The values that become `int16_t` in the election. -/
def conversions (candidates : List ExitCandidate) : List Int :=
  (candidates.flatMap fun candidate =>
    [candidate.rssiToGw, 6 * (candidate.hopsToGw : Int), 32 * (candidate.activeTransfers : Int),
      candidateScore candidate]) ++
    [(((bestScore candidates).natAbs * 2 / 3 : Nat) : Int), acceptThreshold (bestScore candidates)]

variable {candidates : List ExitCandidate} {candidate : ExitCandidate}

theorem Typed.score_bounds (typed : candidate.Typed) :
    -9818 ≤ candidateScore candidate ∧ candidateScore candidate ≤ 127 := by
  have rssi := typed.rssi
  have hops := typed.hops
  have active := typed.active
  unfold candidateScore
  omega

/-- The best score bounds the scores, and is one of them. -/
theorem bestScore_spec (typed : ∀ candidate ∈ candidates, candidate.Typed)
    (some : candidates ≠ []) :
    (∀ candidate ∈ candidates, candidateScore candidate ≤ bestScore candidates) ∧
      ∃ top ∈ candidates, candidateScore top = bestScore candidates := by
  have search : ∀ (rest : List ExitCandidate) (best : Int),
      best ≤ rest.foldl (fun best candidate => max best (candidateScore candidate)) best ∧
      (∀ candidate ∈ rest, candidateScore candidate ≤
        rest.foldl (fun best candidate => max best (candidateScore candidate)) best) ∧
      (rest.foldl (fun best candidate => max best (candidateScore candidate)) best = best ∨
        ∃ top ∈ rest, candidateScore top =
          rest.foldl (fun best candidate => max best (candidateScore candidate)) best) := by
    intro rest
    induction rest with
    | nil => exact fun best => ⟨le_refl best, by simp, .inl rfl⟩
    | cons head rest inductionHypothesis =>
        intro best
        rw [List.foldl_cons]
        obtain ⟨above, all, one⟩ := inductionHypothesis (max best (candidateScore head))
        refine ⟨(le_max_left ..).trans above, List.forall_mem_cons.mpr
          ⟨(le_max_right ..).trans above, all⟩, ?_⟩
        rcases one with same | ⟨top, member, here⟩
        · rcases max_choice best (candidateScore head) with old | new
          · exact .inl (same.trans old)
          · exact .inr ⟨head, List.mem_cons_self, (same.trans new).symm⟩
        · exact .inr ⟨top, List.mem_cons_of_mem head member, here⟩
  obtain ⟨_, all, one⟩ := search candidates (-32000)
  refine ⟨all, ?_⟩
  rcases one with none | top
  · obtain ⟨first, member⟩ := List.exists_mem_of_ne_nil candidates some
    have least := (Typed.score_bounds (typed first member)).1
    have below := all first member
    rw [none] at below
    omega
  · exact top

/-- No conversion to `int16_t` overflows. -/
theorem conversions_fit (typed : ∀ candidate ∈ candidates, candidate.Typed)
    (some : candidates ≠ []) : ∀ value ∈ conversions candidates, FitsInt16 value := by
  intro value member
  rcases List.mem_append.mp member with each | last
  · obtain ⟨candidate, known, here⟩ := List.mem_flatMap.mp each
    have score := Typed.score_bounds (typed candidate known)
    have rssi := (typed candidate known).rssi
    have hops := (typed candidate known).hops
    have active := (typed candidate known).active
    simp only [List.mem_cons, List.not_mem_nil, or_false] at here
    unfold FitsInt16
    rcases here with rfl | rfl | rfl | rfl <;> omega
  · obtain ⟨_, top, known, here⟩ := bestScore_spec typed some
    have score := Typed.score_bounds (typed top known)
    rw [here] at score
    simp only [List.mem_cons, List.not_mem_nil, or_false] at last
    unfold acceptThreshold at last
    unfold FitsInt16
    rcases last with rfl | rfl <;> omega

theorem score16_eq (typed : candidate.Typed) : score16 candidate = candidateScore candidate := by
  have score := Typed.score_bounds typed
  have rssi := typed.rssi
  have hops := typed.hops
  have active := typed.active
  unfold score16
  have one : toInt16 candidate.rssiToGw = candidate.rssiToGw :=
    FitsInt16.toInt16 ⟨by omega, by omega⟩
  have two : toInt16 (6 * candidate.hopsToGw) = 6 * candidate.hopsToGw :=
    FitsInt16.toInt16 ⟨by omega, by omega⟩
  have three : toInt16 (32 * candidate.activeTransfers) = 32 * candidate.activeTransfers :=
    FitsInt16.toInt16 ⟨by omega, by omega⟩
  rw [one, two, three]
  exact FitsInt16.toInt16 ⟨by unfold candidateScore at score; omega,
    by unfold candidateScore at score; omega⟩

theorem best16_eq (scores : List Int) : best16 scores = scores.foldl max (-32000) := by
  have same : (fun best score : Int => if score > best then score else best) = max := by
    funext best score
    split <;> omega
  unfold best16
  rw [same]

theorem threshold16_eq {best : Int} (low : -9818 ≤ best) (high : best ≤ 127) :
    threshold16 best = acceptThreshold best := by
  have narrow : toInt16 ((best.natAbs * 2 / 3 : Nat) : Int) = ((best.natAbs * 2 / 3 : Nat) : Int) :=
    FitsInt16.toInt16 ⟨by omega, by omega⟩
  have margin : margin16 best = max ((best.natAbs * 2 / 3 : Nat) : Int) 6 := by
    unfold margin16
    rw [narrow]
    dsimp only
    split <;> omega
  unfold threshold16 acceptThreshold
  rw [margin]
  exact FitsInt16.toInt16 ⟨by omega, by omega⟩

/-! ## The election -/

/-- The sort of the two arrays leaves the candidates in the stable order. -/
theorem sort_scored (typed : ∀ candidate ∈ candidates, candidate.Typed) :
    (scored candidates).sort.candidates = sortedCandidates candidates ∧
      (scored candidates).sort.entries =
        (sortedCandidates candidates).map fun candidate =>
          (candidate, candidateScore candidate) := by
  have even : (scored candidates).Even := (List.length_map ..).symm
  obtain ⟨still, sorted⟩ := even.sort
  have start : (scored candidates).entries =
      candidates.map fun candidate => (candidate, candidateScore candidate) := by
    unfold ScoreArrays.entries scored
    dsimp only
    rw [← List.map_prod_left_eq_zip]
    exact List.map_congr_left fun candidate member => by rw [score16_eq (typed candidate member)]
  have order : (scored candidates).sort.entries =
      (sortedCandidates candidates).map fun candidate =>
        (candidate, candidateScore candidate) := by
    rw [sorted, start]
    exact (List.map_insertionSort (fun a b => candidateScore b ≤ candidateScore a)
      (fun a b => b.2 ≤ a.2) (fun candidate => (candidate, candidateScore candidate)) candidates
      fun _ _ _ _ => Iff.rfl).symm
  refine ⟨?_, order⟩
  have first : (scored candidates).sort.entries.map Prod.fst =
      (scored candidates).sort.candidates := (map_zip_of_even still).1
  rw [← first, order, List.map_map]
  exact List.map_id _

/-- The loops on arrays of 16-bit scores accept the exits of the unbounded computation. -/
theorem acceptedInPlace_eq (typed : ∀ candidate ∈ candidates, candidate.Typed)
    (some : candidates ≠ []) (maxElectedExits : Nat) :
    acceptedInPlace candidates maxElectedExits = acceptedExits candidates maxElectedExits := by
  obtain ⟨_, top, known, best⟩ := bestScore_spec typed some
  have bounds := Typed.score_bounds (typed top known)
  rw [best] at bounds
  have scores : (scored candidates).scores = candidates.map candidateScore :=
    List.map_congr_left fun candidate member => score16_eq (typed candidate member)
  have best16 : best16 (scored candidates).scores = bestScore candidates := by
    rw [scores, best16_eq, List.foldl_map]
    rfl
  unfold acceptedInPlace acceptedExits
  rw [best16, threshold16_eq bounds.1 bounds.2, ScoreArrays.accept_eq, (sort_scored typed).2,
    List.filter_map, ← List.map_take, List.map_map]
  exact List.map_id _

theorem electedInPlace_eq (typed : ∀ candidate ∈ candidates, candidate.Typed)
    (some : candidates ≠ []) (maxElectedExits : Nat) :
    electedInPlace candidates maxElectedExits = electedExits candidates maxElectedExits := by
  unfold electedInPlace electedExits
  rw [acceptedInPlace_eq typed some, (sort_scored typed).1]

/-- A score that is good enough. -/
def eligible (candidates : List ExitCandidate) (candidate : ExitCandidate) : Bool :=
  decide (bestScore candidates - max 6 ((2 * (bestScore candidates).natAbs / 3 : Nat) : Int) ≤
    candidateScore candidate)

/-- The accepted exits are the first eligible candidates. -/
theorem acceptedExits_eq_take (candidates : List ExitCandidate) (maxElectedExits : Nat) :
    acceptedExits candidates maxElectedExits =
      (sortedCandidates candidates).take
        (min (min maxElectedExits maxExitNodes) (candidates.countP (eligible candidates))) := by
  have same : (fun candidate =>
      decide (candidateScore candidate ≥ acceptThreshold (bestScore candidates))) =
        eligible candidates := by
    funext candidate
    unfold eligible acceptThreshold
    rw [max_comm, Nat.mul_comm]
  have counted : (sortedCandidates candidates).countP (eligible candidates) =
      candidates.countP (eligible candidates) :=
    (descending_perm candidateScore candidates).countP_eq _
  have front : (sortedCandidates candidates).filter (eligible candidates) =
      (sortedCandidates candidates).take
        ((sortedCandidates candidates).countP (eligible candidates)) :=
    filter_eq_take_of_descending (descending_pairwise candidateScore candidates) _
  unfold acceptedExits
  rw [same, front, List.take_take, counted]

/-- The best candidate is eligible, so that some exit is accepted. -/
theorem countP_eligible_pos (typed : ∀ candidate ∈ candidates, candidate.Typed)
    (some : candidates ≠ []) : 0 < candidates.countP (eligible candidates) := by
  obtain ⟨_, top, known, best⟩ := bestScore_spec typed some
  refine List.countP_pos_iff.mpr ⟨top, known, decide_eq_true ?_⟩
  rw [best]
  omega

/-! ## Collected candidates -/

variable {F : Type} {e : TransferEngine F}

/-- An election is open, and its candidates come from `handle_transfer_ack` calls since it was
opened, with any other calls in between. -/
inductive Collecting : TransferEngine F → Prop
  | opened {e : TransferEngine F} (electing : e.electionActive = true) (none : e.candidates = []) :
      Collecting e
  | answered {e : TransferEngine F} (collecting : Collecting e)
      (byte : e.sourceHopsToExitEst < 2 ^ 8) (payload : List UInt8) :
      Collecting (e.handleTransferAck payload)
  | later {e after : TransferEngine F} (collecting : Collecting e)
      (electing : after.electionActive = true) (same : after.candidates = e.candidates) :
      Collecting after

theorem readLe_byte (bytes : List UInt8) (offset : Nat) : readLe bytes offset 1 < 2 ^ 8 := by
  change (bytes.getD offset 0).toNat + 256 * 0 < 2 ^ 8
  exact (bytes.getD offset 0).toNat_lt

/-- What `handle_transfer_ack` does to the candidates. -/
theorem handleTransferAck_candidates (e : TransferEngine F) (payload : List UInt8) :
    (e.handleTransferAck payload).electionActive = e.electionActive ∧
      ((e.handleTransferAck payload).candidates = e.candidates ∨
        ∃ candidate, (e.handleTransferAck payload).candidates = e.candidates ++ [candidate] ∧
          e.candidates.length < maxExitNodes ∧
          candidate.addr ∉ e.candidates.map ExitCandidate.addr ∧
          (e.sourceHopsToExitEst < 2 ^ 8 → candidate.Typed)) := by
  unfold handleTransferAck
  dsimp only
  split
  · exact ⟨rfl, .inl rfl⟩
  split
  · exact ⟨rfl, .inl rfl⟩
  split
  · exact ⟨rfl, .inl rfl⟩
  rename_i fresh
  split
  · rename_i room
    refine ⟨rfl, .inr ⟨_, rfl, room, ?_, fun byte => ?_⟩⟩
    · intro known
      obtain ⟨candidate, member, same⟩ := List.mem_map.mp known
      exact fresh (List.any_eq_true.mpr ⟨candidate, member, beq_iff_eq.mpr same⟩)
    · have rssi := readLe_byte payload 4
      have hops := readLe_byte payload 5
      refine ⟨?_, ?_, readLe_byte payload 6⟩
      · change -128 ≤ toInt8 (readLe payload 4 1) ∧ toInt8 (readLe payload 4 1) < 128
        unfold toInt8
        split <;> omega
      · dsimp only
        split
        · exact hops
        · exact byte
  · exact ⟨rfl, .inl rfl⟩

/-- Collected candidates have different addresses and typed fields, and there are at most four. -/
structure Collected (candidates : List ExitCandidate) : Prop where
  distinct : (candidates.map ExitCandidate.addr).Nodup
  count : candidates.length ≤ maxExitNodes
  typed : ∀ candidate ∈ candidates, candidate.Typed

theorem Collecting.collected (collecting : Collecting e) :
    e.electionActive = true ∧ Collected e.candidates := by
  induction collecting with
  | opened electing none =>
      rw [none]
      exact ⟨electing, List.nodup_nil, Nat.zero_le _, fun _ here => absurd here List.not_mem_nil⟩
  | answered collecting byte payload inductionHypothesis =>
      obtain ⟨electing, before⟩ := inductionHypothesis
      obtain ⟨still, same | ⟨candidate, grown, room, fresh, typed⟩⟩ :=
        handleTransferAck_candidates _ payload
      · rw [still, same]
        exact ⟨electing, before⟩
      · rw [still, grown]
        refine ⟨electing, ?_, ?_, ?_⟩
        · rw [List.map_append]
          exact List.Nodup.append before.distinct (List.nodup_singleton _)
            (List.disjoint_singleton.mpr fresh)
        · rw [List.length_append]
          exact room
        · intro other member
          rcases List.mem_append.mp member with known | new
          · exact before.typed other known
          · rw [List.mem_singleton.mp new]
            exact typed byte
  | later collecting electing same inductionHypothesis =>
      rw [same]
      exact ⟨electing, inductionHypothesis.2⟩

variable [PathArith F]

/-- In any run, an open election has collected its candidates. -/
theorem Collecting.step (orderly : e.standing.Orderly) (byte : e.sourceHopsToExitEst < 2 ^ 8)
    (before : e.electionActive = true → Collecting e) (call : Call)
    (electing : (e.step call).electionActive = true) : Collecting (e.step call) := by
  have carried : (e.step call).electionActive = e.electionActive →
      (e.step call).candidates = e.candidates → Collecting (e.step call) :=
    fun active same => .later (before (active ▸ electing)) electing same
  have unchanged : e.step call = e.setEnv call.env → Collecting (e.step call) :=
    fun same => carried ((congrArg TransferEngine.electionActive same).trans rfl)
      ((congrArg TransferEngine.candidates same).trans rfl)
  have shown : ∀ {s : Standing}, (e.step call).standing = s →
      (e.step call).electionActive = s.electionActive ∧
        (e.step call).candidates = s.candidates := by
    rintro _ rfl
    exact ⟨rfl, rfl⟩
  rcases step_turns orderly call with ⟨args, _, begins⟩ | ⟨payload, received, _⟩ |
    ⟨srcAddr, payload, hasInternet, _, answers⟩ | turns
  · cases begins with
    | refused busy same => exact unchanged same
    | rejected inactive count standing io => exact carried (shown standing).1 (shown standing).2
    | onLocalExit inactive free io later standing announces =>
        exact carried (shown standing).1 (shown standing).2
    | onMesh inactive free standing io => exact .opened electing (shown standing).2
  · have stepped : e.step call = (e.setEnv call.env).handleTransferAck payload := by
      unfold TransferEngine.step
      rw [received]
      rfl
    have active : e.electionActive = true := by
      rw [stepped, (handleTransferAck_candidates ..).1] at electing
      exact electing
    have here : Collecting (e.setEnv call.env) := .later (before active) active rfl
    rw [stepped]
    exact .answered here byte payload
  · cases answers with
    | ignored same => exact unchanged same
    | again exit session standing offers => exact carried (shown standing).1 (shown standing).2
    | pending inactive free standing offers =>
        exact carried (shown standing).1 (shown standing).2
  · have each : ∀ s s', StandingChange (e.occasion call).acks s s' →
        (s.electionActive = true → e.electionActive = true ∧ s.candidates = e.candidates) →
        s'.electionActive = true → e.electionActive = true ∧ s'.candidates = e.candidates := by
      intro s s' change same
      cases change with
      | ended | elected => exact fun impossible => absurd impossible Bool.false_ne_true
      | same | mark | advance | cleared | activated => exact same
    obtain ⟨active, same⟩ := turns.keeps each (fun active => ⟨active, rfl⟩) electing
    exact .later (before active) electing same

/-- The exits in the transfer record are the elected ones. -/
theorem exitNodes_electExits_getElem (e : TransferEngine F) {i : Nat}
    (inRange : i < (electedExits e.candidates e.maxElectedExits).length) :
    e.electExits.transfer.exitNodes i =
      (electedExits e.candidates e.maxElectedExits)[i].addr := by
  change ((electedExits e.candidates e.maxElectedExits).zipIdx.foldl
    (installExit e.electionClock.nowMs.1) e.electionClock.nowMs.2).transfer.exitNodes i = _
  rw [exitNodes_installExits, if_neg (Nat.not_lt_zero i), Nat.sub_zero,
    List.getElem?_eq_getElem inRange]
  rfl

/-- When an election times out with candidates, for every limit from 1 to 4: the exits are the
first candidates of the stable order by descending score, as many as the limit and the number of
eligible candidates allow; they have different addresses, and the first has the best score.  The
loops over 16-bit scores compute them without overflow, and accept at least one. -/
theorem election_picks_best (now : Nat) (collecting : Collecting e) (some : e.candidates ≠ [])
    (limit : 1 ≤ e.maxElectedExits ∧ e.maxElectedExits ≤ 4)
    (timeout : e.electionTimeoutMs < sub32 now e.electionStartMs) :
    let order := sortedCandidates e.candidates
    let exits := order.take (min e.maxElectedExits (e.candidates.countP (eligible e.candidates)))
    let after := e.electionTimeoutTick now
    (after.transfer.exitNodeCount = exits.length ∧
      ∀ i (inRange : i < exits.length), after.transfer.exitNodes i = exits[i].addr) ∧
    (order.Perm e.candidates ∧
      order.Pairwise (fun a b => candidateScore b ≤ candidateScore a) ∧
      ∀ score, order.filter (fun candidate => candidateScore candidate = score) =
        e.candidates.filter fun candidate => candidateScore candidate = score) ∧
    (exits.map ExitCandidate.addr).Nodup ∧
    exits.length ≤ e.maxElectedExits ∧
    (∃ top ∈ exits, candidateScore top = bestScore e.candidates ∧
      ∀ candidate ∈ e.candidates, candidateScore candidate ≤ candidateScore top) ∧
    (∀ value ∈ conversions e.candidates, FitsInt16 value) ∧
    electedInPlace e.candidates e.maxElectedExits = exits ∧
    acceptedInPlace e.candidates e.maxElectedExits ≠ [] := by
  intro order exits after
  obtain ⟨electing, collected⟩ := collecting.collected
  have most : maxExitNodes = 4 := rfl
  have accepted : acceptedExits e.candidates e.maxElectedExits = exits := by
    rw [acceptedExits_eq_take, most, Nat.min_eq_left limit.2]
  have perm : order.Perm e.candidates := descending_perm candidateScore e.candidates
  have sorted : order.Pairwise fun a b => candidateScore b ≤ candidateScore a :=
    descending_pairwise candidateScore e.candidates
  have inside : ∀ candidate ∈ exits, candidate ∈ e.candidates :=
    fun candidate member => perm.mem_iff.mp (List.mem_of_mem_take member)
  have orderSome : order ≠ [] :=
    fun none => some (none ▸ perm.symm : e.candidates.Perm []).eq_nil
  obtain ⟨best, rest, split⟩ := List.exists_cons_of_ne_nil orderSome
  have first : best ∈ exits := by
    have eligible := countP_eligible_pos collected.typed some
    obtain ⟨count, positive⟩ := Nat.exists_eq_succ_of_ne_zero
      (Nat.ne_of_gt (Nat.lt_min.mpr ⟨limit.1, eligible⟩))
    change best ∈ order.take (min _ _)
    rw [split, positive]
    exact List.mem_cons_self
  have elected : electedExits e.candidates e.maxElectedExits = exits := by
    unfold electedExits
    rw [accepted]
    exact if_neg (List.ne_nil_of_mem first)
  have elects : after = e.electExits := by
    change e.electionTimeoutTick now = _
    unfold electionTimeoutTick
    rw [if_neg (by simpa [electing] using timeout), if_neg some]
  have greatest : ∀ candidate ∈ e.candidates, candidateScore candidate ≤ candidateScore best := by
    intro candidate member
    rcases List.mem_cons.mp (split ▸ perm.mem_iff.mpr member) with rfl | behind
    · exact le_refl _
    · exact (List.pairwise_cons.mp (split ▸ sorted)).1 candidate behind
  obtain ⟨all, top, known, same⟩ := bestScore_spec collected.typed some
  refine ⟨⟨?_, ?_⟩, ⟨perm, sorted, descending_stable candidateScore e.candidates⟩, ?_, ?_,
    ⟨best, first, le_antisymm (all best (inside best first)) (same ▸ greatest top known),
      greatest⟩, conversions_fit collected.typed some, ?_, ?_⟩
  · rw [elects, ← elected]
    rfl
  · rw [elects, ← elected]
    exact fun i inRange => exitNodes_electExits_getElem e inRange
  · have distinct := (perm.map ExitCandidate.addr).nodup_iff.mpr collected.distinct
    exact distinct.sublist ((List.take_sublist ..).map ExitCandidate.addr)
  · exact (List.length_take_le ..).trans (Nat.min_le_left ..)
  · rw [electedInPlace_eq collected.typed some, elected]
  · rw [acceptedInPlace_eq collected.typed some, accepted]
    exact List.ne_nil_of_mem first

/-- A node with an open election and a limit of two exits. -/
def openElection : TransferEngine ℚ := { TransferEngine.boot 1 2 with electionActive := true }

/-- The answer of an exit with these figures. -/
def answerOf (exitNodeAddr : Nat) (rssiToGw : Int) (hopsToGw : Nat) : List UInt8 :=
  TransferAck.toBytes
    { sessionId := 7
      exitNodeAddr := exitNodeAddr
      rssiToGw := rssiToGw
      hopsToGw := hopsToGw
      activeTransfers := 0 }

/-- The second answer has the better score; the first is sent twice. -/
theorem election_picks_best_two_answers :
    let e := ((openElection.handleTransferAck (answerOf 2 (-80) 2)).handleTransferAck
      (answerOf 3 (-60) 2)).handleTransferAck (answerOf 2 (-80) 2)
    (e.electionTimeoutTick 4000).transfer.exitNodeCount = 2 ∧
      (e.electionTimeoutTick 4000).transfer.exitNodes 0 = 3 ∧
      (e.electionTimeoutTick 4000).transfer.exitNodes 1 = 2 := by
  intro e
  have collecting : Collecting e :=
    .answered (.answered (.answered (.opened rfl rfl) (by decide) _) (by decide) _) (by decide) _
  have some : e.candidates ≠ [] := by decide +kernel
  obtain ⟨⟨count, exits⟩, _⟩ :=
    election_picks_best 4000 collecting some (by decide) (by decide)
  exact ⟨count.trans (by decide +kernel),
    (exits 0 (by decide +kernel)).trans (by decide +kernel),
    (exits 1 (by decide +kernel)).trans (by decide +kernel)⟩

end TransferEngine

end ForestLink.Mesh
