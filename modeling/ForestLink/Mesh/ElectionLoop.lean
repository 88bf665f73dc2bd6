/-
Module: ForestLink.Mesh.ElectionLoop
Purpose: The election as `election_timeout_tick` computes it: scores of 16 bits in an array beside
  the candidates, both sorted in place, and the loop that accepts exits.
Trusted boundary: none
Main exports: toInt16, score16, threshold16, ScoreArrays, ScoreArrays.sort, ScoreArrays.accept,
  acceptedInPlace, electedInPlace
-/
import ForestLink.Mesh.Engine

namespace ForestLink.Mesh

open ForestLink.Protocol

namespace TransferEngine

/-- `static_cast<int16_t>` -/
def toInt16 (value : Int) : Int := value.bmod (2 ^ 16)

/-- `scores[i]` -/
def score16 (candidate : ExitCandidate) : Int :=
  toInt16 (toInt16 candidate.rssiToGw - toInt16 (6 * candidate.hopsToGw) -
    toInt16 (32 * candidate.activeTransfers))

/-- `best_score` -/
def best16 (scores : List Int) : Int :=
  scores.foldl (fun best score => if score > best then score else best) (-32000)

/-- `margin` -/
def margin16 (best : Int) : Int :=
  let margin := toInt16 ((best.natAbs * 2 / 3 : Nat) : Int)
  if margin < 6 then 6 else margin

/-- `threshold` -/
def threshold16 (best : Int) : Int := toInt16 (best - margin16 best)

/-- The candidates and their scores. -/
structure ScoreArrays where
  candidates : List ExitCandidate
  scores : List Int
deriving Repr

namespace ScoreArrays

/-- `candidates_[i] = candidate; scores[i] = score` -/
def put (a : ScoreArrays) (i : Nat) (candidate : ExitCandidate) (score : Int) : ScoreArrays where
  candidates := a.candidates.set i candidate
  scores := a.scores.set i score

/-- The inner loop of the sort and the write behind it, when `j + 1` is the place of the gap. -/
def shift (tc : ExitCandidate) (ts : Int) : Nat → ScoreArrays → ScoreArrays
  | 0, a => a.put 0 tc ts
  | j + 1, a =>
      match a.candidates[j]?, a.scores[j]? with
      | some candidate, some score =>
          if score < ts then shift tc ts j (a.put (j + 1) candidate score)
          else a.put (j + 1) tc ts
      | _, _ => a

/-- One round of the sort. -/
def insertAt (a : ScoreArrays) (i : Nat) : ScoreArrays :=
  match a.candidates[i]?, a.scores[i]? with
  | some tc, some ts => shift tc ts i a
  | _, _ => a

def sort (a : ScoreArrays) : ScoreArrays :=
  (List.range' 1 (a.candidates.length - 1)).foldl insertAt a

/-- The candidates that the loop accepts. -/
def accept (a : ScoreArrays) (limit : Nat) (threshold : Int) : List ExitCandidate :=
  (a.candidates.zip a.scores).foldl
    (fun accepted entry =>
      if accepted.length < limit ∧ entry.2 ≥ threshold then accepted ++ [entry.1] else accepted) []

end ScoreArrays

/-- The scored candidates. -/
def scored (candidates : List ExitCandidate) : ScoreArrays where
  candidates := candidates
  scores := candidates.map score16

/-- The exits that the loop accepts. -/
def acceptedInPlace (candidates : List ExitCandidate) (maxElectedExits : Nat) :
    List ExitCandidate :=
  (scored candidates).sort.accept (min maxElectedExits maxExitNodes)
    (threshold16 (best16 (scored candidates).scores))

/-- The elected exits, with the fallback to the best candidate. -/
def electedInPlace (candidates : List ExitCandidate) (maxElectedExits : Nat) :
    List ExitCandidate :=
  let accepted := acceptedInPlace candidates maxElectedExits
  if accepted = [] then (scored candidates).sort.candidates.take 1 else accepted

end TransferEngine

end ForestLink.Mesh
