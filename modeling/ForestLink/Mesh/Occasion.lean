/-
Module: ForestLink.Mesh.Occasion
Purpose: What one call brings to a transfer engine: the ACKs of the cloud, the report of an
  exit, and the branches of `tick` that end a transfer.
Trusted boundary: none
Main exports: Abort, TransferEngine.tickAborts, TransferEngine.servesOver, Occasion,
  TransferEngine.occasion
-/
import ForestLink.Mesh.Engine

namespace ForestLink.Mesh

open ForestLink.Protocol

/-- The ways in which `tick` gives the node's own transfer up. -/
inductive Abort where
  | arqFailed
  | stalled
  | noCandidates
  | noExits
deriving Repr, DecidableEq

/-- The cloud ACKs that a tick finds, the TRANSFER_DONE that is delivered with its sender, and
the branches of `tick` that are taken. -/
structure Occasion where
  acks : List Nat
  done : Option (Nat × List UInt8)
  aborts : Abort → Bool
  servesOver : Bool

namespace TransferEngine

variable {F : Type} [PathArith F]

/-- The cloud stall check aborts the node's own transfer. -/
def abortsStalled (e : TransferEngine F) (now : Nat) : Bool :=
  e.cloudStalled now && e.transfer.active && (e.localExit || e.meshUploadDone)

/-- The engine as it enters the stages of `tick` behind the stall check. -/
def stageEntry (e : TransferEngine F) (now : Nat) : TransferEngine F :=
  let republished := e.tickArqs.republishMeta now
  if republished.cloudStalled now && republished.hasExitRole then republished.clearExitNodeState
  else republished

/-- `election_timeout_tick` finds no candidate. -/
def electsNone (e : TransferEngine F) (now : Nat) : Bool :=
  e.electionActive && decide (e.electionTimeoutMs < sub32 now e.electionStartMs) &&
    decide (e.candidates = [])

/-- `schedule_fragments` finds every exit dead. -/
def losesExits (e : TransferEngine F) : Bool :=
  e.transfer.active && !e.electionActive && decide (e.io.congestionBackoffTicks = 0) &&
    !e.localExit && decide (e.transfer.exitNodeCount ≠ 0) && decide (e.aliveCount = 0)

/-- The abort that this tick takes. -/
def tickAborts (e : TransferEngine F) (now : Nat) : Abort → Bool
  | .arqFailed => e.tickArqs.arqFailed
  | .stalled => !e.tickArqs.arqFailed && (e.tickArqs.republishMeta now).abortsStalled now
  | .noCandidates =>
      (e.tickBeforeTransfer now).1 &&
        (((e.stageEntry now).tickExitRole now).broadcastRetryTick now).electsNone now
  | .noExits => (e.tickBeforeTransfer now).1 && (e.tickBeforeTransfer now).2.losesExits

/-- The completion of the served session is forwarded while the node's own transfer runs over
the local exit. -/
def completesOver (e : TransferEngine F) : Bool :=
  e.isExitNode && e.io.env.transferComplete && e.localExit && e.transfer.active

/-- This tick does so. -/
def servesOver (e : TransferEngine F) (now : Nat) : Bool :=
  (e.tickBeforeTransfer now).1 &&
    ((e.stageEntry now).drainExitNacks now).drainFragmentAcks.completesOver

/-- What the call brings to the engine. -/
def occasion (e : TransferEngine F) (call : Call) : Occasion where
  acks :=
    match call.event with
    | .tick _ => call.env.cloudAcks
    | _ => []
  done :=
    match call.event with
    | .transferDone sender payload => some (sender, payload)
    | _ => none
  aborts :=
    match call.event with
    | .tick now => (e.setEnv call.env).tickAborts now
    | _ => fun _ => false
  servesOver :=
    match call.event with
    | .tick now => (e.setEnv call.env).servesOver now
    | _ => false

end TransferEngine

end ForestLink.Mesh
