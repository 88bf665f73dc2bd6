/-
Module: ForestLink.Proofs.LocalExitWindow
Purpose: The window and the retransmit queue of a transfer over the node's own connection, for
  any acknowledgements, requests and answers of MQTT.
Trusted boundary: none
Main exports: TransferEngine.windowSender, windowSender_serveLocalExit, LocalSender.Kept
-/
import ForestLink.Mesh.LocalSender
import ForestLink.Proofs.LocalExitAcks

namespace ForestLink.Mesh

open ForestLink.Lib
open ForestLink.Protocol

namespace TransferEngine

variable {F : Type} {e : TransferEngine F} {past : List WindowEvent}

/-! ## The engine as a window sender -/

/-- What the engine's fields say about the window, with what happened before the call. -/
def windowSender (past : List WindowEvent) (e : TransferEngine F) : WindowSender where
  count := e.transfer.fragmentCount
  acked := e.cloudAckBitmap
  base := e.cloudBaseSeq
  next := e.cloudNextSend
  queue := e.cloudRetxQueue
  trace := windowEvents e.io.outputs ++ past

/-- The engine shows this sender, and has these requests and answers in front of it. -/
structure Shows (past : List WindowEvent) (w : WindowSender) (nacks : List Nat)
    (answers : List Bool) (e : TransferEngine F) : Prop where
  sender : e.windowSender past = w
  nacks : e.io.env.cloudNacks = nacks
  answers : e.io.env.queueResults = answers

variable {w : WindowSender} {nacks : List Nat} {answers : List Bool}

theorem Shows.markCloudAck (shows_ : Shows past w nacks answers e) (seq : Nat) :
    Shows past (w.ack seq) nacks answers (e.markCloudAck seq) := by
  obtain ⟨rfl, rfl, rfl⟩ := shows_
  by_cases inside : seq < e.transfer.fragmentCount
  · have marked : e.markCloudAck seq =
        { e.nowMs.2 with
          cloudAckBitmap := Function.update e.cloudAckBitmap seq true
          lastCloudActivityMs := e.nowMs.1 } := if_pos inside
    have acked : (e.windowSender past).ack seq =
        { e.windowSender past with acked := Function.update e.cloudAckBitmap seq true } :=
      if_pos inside
    rw [marked, acked]
    exact ⟨rfl, rfl, rfl⟩
  · have unmarked : e.markCloudAck seq = e := if_neg inside
    have ignored : (e.windowSender past).ack seq = e.windowSender past := if_neg inside
    rw [unmarked, ignored]
    exact ⟨rfl, rfl, rfl⟩

theorem Shows.foldl_markCloudAck (shows_ : Shows past w nacks answers e) (acks : List Nat) :
    Shows past (acks.foldl WindowSender.ack w) nacks answers
      (acks.foldl TransferEngine.markCloudAck e) := by
  induction acks generalizing e w with
  | nil => exact shows_
  | cons seq rest inductionHypothesis => exact inductionHypothesis (shows_.markCloudAck seq)

theorem Shows.advanceCloudBase (shows_ : Shows past w nacks answers e) (fuel : Nat) :
    Shows past (WindowSender.advance fuel w) nacks answers
      (TransferEngine.advanceCloudBase fuel e) := by
  induction fuel generalizing e w with
  | zero => exact shows_
  | succ fuel inductionHypothesis =>
      obtain ⟨rfl, rfl, rfl⟩ := shows_
      by_cases more : (e.cloudBaseSeq < e.transfer.fragmentCount &&
          e.cloudAckBitmap e.cloudBaseSeq) = true
      · have moved : TransferEngine.advanceCloudBase (fuel + 1) e =
            TransferEngine.advanceCloudBase fuel { e with cloudBaseSeq := e.cloudBaseSeq + 1 } :=
          if_pos more
        have advanced : WindowSender.advance (fuel + 1) (e.windowSender past) =
            WindowSender.advance fuel
              { e.windowSender past with base := e.cloudBaseSeq + 1 } := if_pos more
        rw [moved, advanced]
        exact inductionHypothesis ⟨rfl, rfl, rfl⟩
      · have stays : TransferEngine.advanceCloudBase (fuel + 1) e = e := if_neg more
        have stops : WindowSender.advance (fuel + 1) (e.windowSender past) =
            e.windowSender past := if_neg more
        rw [stays, stops]
        exact ⟨rfl, rfl, rfl⟩

theorem Shows.takeCloudAcks (shows_ : Shows past w nacks answers e) :
    Shows past (w.takeAcks e.io.env.cloudAcks) nacks answers e.takeCloudAcks := by
  have taken : Shows past w nacks answers (e.setEnv { e.io.env with cloudAcks := [] }) :=
    ⟨shows_.sender, shows_.nacks, shows_.answers⟩
  have marked := taken.foldl_markCloudAck e.io.env.cloudAcks
  have advanced := marked.advanceCloudBase
    ((e.io.env.cloudAcks.foldl WindowSender.ack w).count -
      (e.io.env.cloudAcks.foldl WindowSender.ack w).base)
  rw [← marked.sender] at advanced
  unfold WindowSender.takeAcks
  rw [← marked.sender]
  exact advanced

theorem Shows.queueCloudNack (shows_ : Shows past w nacks answers e) (seq : Nat) :
    Shows past (w.ask cloudWindowSize seq) nacks answers (e.queueCloudNack seq) := by
  obtain ⟨rfl, rfl, rfl⟩ := shows_
  refine ⟨?_, ?_, ?_⟩
  · unfold WindowSender.ask TransferEngine.queueCloudNack windowSender
    dsimp only
    split_ifs <;> rfl
  · unfold TransferEngine.queueCloudNack
    dsimp only
    split_ifs <;> rfl
  · unfold TransferEngine.queueCloudNack
    dsimp only
    split_ifs <;> rfl

theorem Shows.foldl_queueCloudNack (shows_ : Shows past w nacks answers e) (seqs : List Nat) :
    Shows past (seqs.foldl (WindowSender.ask cloudWindowSize) w) nacks answers
      (seqs.foldl TransferEngine.queueCloudNack e) := by
  induction seqs generalizing e w with
  | nil => exact shows_
  | cons seq rest inductionHypothesis => exact inductionHypothesis (shows_.queueCloudNack seq)

theorem Shows.takeCloudNacks (shows_ : Shows past w nacks answers e) :
    Shows past (nacks.foldl (WindowSender.ask cloudWindowSize) w) [] answers
      e.takeCloudNacks := by
  have taken : Shows past w [] answers (e.setEnv { e.io.env with cloudNacks := [] }) :=
    ⟨shows_.sender, rfl, shows_.answers⟩
  have asked := taken.foldl_queueCloudNack e.io.env.cloudNacks
  rw [shows_.nacks] at asked
  unfold TransferEngine.takeCloudNacks
  rw [shows_.nacks]
  exact asked

/-- Reading a fragment leaves no trace; what MQTT takes does. -/
theorem Shows.publishLocal (shows_ : Shows past w nacks answers e) (seq : Nat) :
    (e.publishLocal seq).1 = answers.headD true ∧
      Shows past
        (if answers.headD true then { w with trace := .forward seq :: w.trace } else w)
        nacks answers.tail (e.publishLocal seq).2 := by
  obtain ⟨rfl, rfl, rfl⟩ := shows_
  unfold TransferEngine.publishLocal
  dsimp only
  generalize seq * e.transfer.fragmentSize = offset
  generalize min (sub32 e.transfer.size offset) e.transfer.fragmentSize = fragLen
  obtain ⟨limits, read⟩ : ∃ limits, (e.io.readChunk e.transfer.readChunk offset fragLen).2 =
      { e.io with env := { e.io.env with readLimits := limits } } := by
    unfold Io.readChunk
    dsimp only
    split
    · exact ⟨e.io.env.readLimits, rfl⟩
    · rename_i limit rest _
      exact ⟨rest, rfl⟩
  rw [read]
  refine ⟨rfl, ?_, rfl, rfl⟩
  simp only [Io.forwardToMqtt, windowSender, windowEvents, List.filterMap_cons]
  cases e.io.env.queueResults.headD true <;> rfl

theorem Shows.sendRetransmissions (shows_ : Shows past w nacks answers e) (entries : List Nat)
    (sent : Nat) :
    let resent := WindowSender.resend cloudWindowSize entries sent answers w
    (TransferEngine.sendRetransmissions entries sent e).1 = resent.1 ∧
      Shows past resent.2.2 nacks resent.2.1
        (TransferEngine.sendRetransmissions entries sent e).2 := by
  induction entries generalizing e w sent answers with
  | nil => exact ⟨rfl, shows_⟩
  | cons seq rest inductionHypothesis =>
      obtain ⟨answer, published⟩ := shows_.publishLocal seq
      have sameBits : e.cloudAckBitmap = w.acked := congrArg WindowSender.acked shows_.sender
      unfold WindowSender.resend TransferEngine.sendRetransmissions
      dsimp only
      rw [answer, sameBits]
      split
      · exact ⟨rfl, shows_⟩
      split
      · exact inductionHypothesis shows_ sent
      split
      · rename_i taken
        rw [if_pos taken] at published
        exact inductionHypothesis published (sent + 1)
      · rename_i refused
        rw [if_neg refused] at published
        exact ⟨rfl, published⟩

theorem Shows.moveNext (shows_ : Shows past w nacks answers e) (next : Nat) :
    Shows past { w with next := next } nacks answers { e with cloudNextSend := next } := by
  obtain ⟨rfl, rfl, rfl⟩ := shows_
  exact ⟨rfl, rfl, rfl⟩

theorem Shows.sendNewLocal (shows_ : Shows past w nacks answers e) (windowEnd fuel sent : Nat) :
    (TransferEngine.sendNewLocal windowEnd fuel sent e).windowSender past =
      WindowSender.sendNew cloudWindowSize windowEnd fuel sent answers w := by
  induction fuel generalizing e w sent answers with
  | zero => exact shows_.sender
  | succ fuel inductionHypothesis =>
      obtain ⟨answer, published⟩ := shows_.publishLocal e.cloudNextSend
      have sameNext : e.cloudNextSend = w.next := congrArg WindowSender.next shows_.sender
      have sameCount : e.transfer.fragmentCount = w.count :=
        congrArg WindowSender.count shows_.sender
      unfold WindowSender.sendNew TransferEngine.sendNewLocal
      dsimp only
      rw [answer, sameCount]
      rw [sameNext] at published ⊢
      split
      · split
        · rename_i taken
          rw [if_pos taken] at published
          exact inductionHypothesis (published.moveNext (w.next + 1)) (sent + 1)
        · rename_i refused
          rw [if_neg refused] at published
          exact published.sender
      · exact shows_.sender

theorem Shows.asked (shows_ : Shows past w nacks answers e) :
    Shows past (nacks.foldl (WindowSender.ask cloudWindowSize) (w.takeAcks e.io.env.cloudAcks)) []
      answers e.asked :=
  shows_.takeCloudAcks.takeCloudNacks

theorem Shows.retransmit (shows_ : Shows past w nacks answers e) :
    let resent := WindowSender.resend cloudWindowSize w.queue 0 answers w
    e.retransmit.1 = resent.1 ∧ Shows past resent.2.2 nacks resent.2.1 e.retransmit.2 := by
  have sameQueue : e.cloudRetxQueue = w.queue := congrArg WindowSender.queue shows_.sender
  unfold TransferEngine.retransmit
  rw [sameQueue]
  exact shows_.sendRetransmissions w.queue 0

theorem Shows.compactRetxQueue (shows_ : Shows past w nacks answers e) (sent : Nat) :
    Shows past (w.compact sent) nacks answers (e.compactRetxQueue sent) := by
  obtain ⟨rfl, rfl, rfl⟩ := shows_
  exact ⟨rfl, rfl, rfl⟩

theorem Shows.sendLocal (shows_ : Shows past w nacks answers e) :
    e.sendLocal.windowSender past = w.send cloudWindowSize answers := by
  obtain ⟨count, resent⟩ := shows_.retransmit
  have compacted := resent.compactRetxQueue e.retransmit.1
  have sameBase : (e.retransmit.2.compactRetxQueue e.retransmit.1).cloudBaseSeq = _ :=
    congrArg WindowSender.base compacted.sender
  unfold TransferEngine.sendLocal
  dsimp only
  rw [compacted.sendNewLocal, sameBase, count]
  rfl

/-- A tick serves the window of the engine. -/
theorem windowSender_serveLocalExit (past : List WindowEvent) (e : TransferEngine F) :
    e.serveLocalExit.windowSender past =
      (e.windowSender past).serve cloudWindowSize e.io.env.cloudAcks e.io.env.cloudNacks
        e.io.env.queueResults := by
  have here : Shows past (e.windowSender past) e.io.env.cloudNacks e.io.env.queueResults e :=
    ⟨rfl, rfl, rfl⟩
  exact here.asked.sendLocal

end TransferEngine

open TransferEngine (cloudWindowSize)

/-! ## What a tick forwards -/

theorem mem_forwardedSeqs {seq : Nat} {outputs : List Output} :
    seq ∈ forwardedSeqs outputs ↔ .forward seq ∈ windowEvents outputs := by
  unfold forwardedSeqs
  rw [List.mem_filterMap]
  constructor
  · rintro ⟨event, member, named⟩
    cases event with
    | forward other =>
        obtain rfl : other = seq := Option.some.inj named
        exact member
    | asked other => cases named
  · intro member
    exact ⟨.forward seq, member, rfl⟩

namespace LocalSender

variable {F : Type} {s : LocalSender F} {env : Env}

/-- The window between two ticks. -/
def window (s : LocalSender F) : WindowSender where
  count := s.engine.transfer.fragmentCount
  acked := s.engine.cloudAckBitmap
  base := s.engine.cloudBaseSeq
  next := s.engine.cloudNextSend
  queue := s.engine.cloudRetxQueue
  trace := s.trace

/-- The window when the tick starts to send. -/
theorem windowSender_asked (s : LocalSender F) (env : Env) :
    (s.engine.begin_ env).asked.windowSender s.trace =
      env.cloudNacks.foldl (WindowSender.ask cloudWindowSize) (s.window.takeAcks env.cloudAcks) := by
  have here : TransferEngine.Shows s.trace s.window env.cloudNacks env.queueResults
      (s.engine.begin_ env) := ⟨rfl, rfl, rfl⟩
  exact here.asked.sender

/-- The window when the tick has sent. -/
theorem windowSender_served (s : LocalSender F) (env : Env) :
    (s.engine.begin_ env).serveLocalExit.windowSender s.trace =
      s.window.serve cloudWindowSize env.cloudAcks env.cloudNacks env.queueResults :=
  TransferEngine.windowSender_serveLocalExit s.trace (s.engine.begin_ env)

/-- Draining the queues sends nothing. -/
theorem next_asked (s : LocalSender F) (env : Env) :
    (s.engine.begin_ env).asked.cloudNextSend = s.engine.cloudNextSend := by
  obtain ⟨acked, base, taken, _⟩ := WindowSender.takeAcks_spec s.window env.cloudAcks
  obtain ⟨added, asked, result, _⟩ :=
    WindowSender.foldl_ask cloudWindowSize env.cloudNacks (s.window.takeAcks env.cloudAcks)
  have drained := (windowSender_asked s env).trans result
  rw [taken] at drained
  exact congrArg WindowSender.next drained

/-- What a tick sends: the front of the queue again, and new fragments. -/
structure Sends (s : LocalSender F) (env : Env) (resent rest : List Nat) (new : Nat) : Prop where
  again : ∀ seq, seq ∈ forwardedSeqs (s.engine.begin_ env).asked.retransmit.2.io.outputs ↔
    seq ∈ resent
  front : let asked := (s.engine.begin_ env).asked
    asked.cloudRetxQueue.filter (fun seq => !asked.cloudAckBitmap seq) = resent ++ rest
  served : let asked := (s.engine.begin_ env).asked.windowSender s.trace
    (s.engine.begin_ env).serveLocalExit.windowSender s.trace =
      { asked with
        queue := rest
        next := asked.next + new
        trace := ((List.range' asked.next new).map .forward).reverse ++
          ((resent.map .forward).reverse ++ asked.trace) }
  fits : let asked := (s.engine.begin_ env).asked
    0 < new → asked.cloudNextSend + new ≤ asked.transfer.fragmentCount ∧
      asked.cloudNextSend + new ≤ asked.cloudBaseSeq + cloudWindowSize

/-- Draining the queues forwards nothing. -/
theorem forwardedSeqs_asked (s : LocalSender F) (env : Env) (seq : Nat) :
    .forward seq ∉ windowEvents (s.engine.begin_ env).asked.io.outputs := by
  let start := (s.engine.begin_ env).windowSender []
  obtain ⟨acked, base, taken, _⟩ := WindowSender.takeAcks_spec start env.cloudAcks
  obtain ⟨added, asked, result, _, requests, _⟩ :=
    WindowSender.foldl_ask cloudWindowSize env.cloudNacks (start.takeAcks env.cloudAcks)
  have here : TransferEngine.Shows [] start env.cloudNacks env.queueResults
      (s.engine.begin_ env) := ⟨rfl, rfl, rfl⟩
  have sameTrace : (start.takeAcks env.cloudAcks).trace = [] := congrArg WindowSender.trace taken
  have events : windowEvents (s.engine.begin_ env).asked.io.outputs ++ [] =
      asked ++ (start.takeAcks env.cloudAcks).trace :=
    (congrArg WindowSender.trace here.asked.sender).trans (congrArg WindowSender.trace result)
  rw [sameTrace, List.append_nil, List.append_nil] at events
  rw [events]
  intro member
  obtain ⟨other, request⟩ := requests _ member
  cases request

theorem sends (s : LocalSender F) (env : Env) : ∃ resent rest new, Sends s env resent rest new := by
  have here : TransferEngine.Shows s.trace _ env.cloudNacks env.queueResults
      (s.engine.begin_ env) := ⟨rfl, rfl, rfl⟩
  have asked : TransferEngine.Shows s.trace ((s.engine.begin_ env).asked.windowSender s.trace) []
      env.queueResults (s.engine.begin_ env).asked :=
    ⟨rfl, here.asked.nacks, here.asked.answers⟩
  obtain ⟨resent, rest, new, answersLeft, result, front, sent, fits⟩ :=
    WindowSender.send_spec cloudWindowSize ((s.engine.begin_ env).asked.windowSender s.trace)
      env.queueResults
  obtain ⟨_, again⟩ := asked.retransmit
  rw [result] at again
  have events : windowEvents (s.engine.begin_ env).asked.retransmit.2.io.outputs ++ s.trace =
      (resent.map .forward).reverse ++
        (windowEvents (s.engine.begin_ env).asked.io.outputs ++ s.trace) :=
    congrArg WindowSender.trace again.sender
  rw [← List.append_assoc] at events
  refine ⟨resent, rest, new, fun seq => ?_, front, asked.sendLocal.trans sent, fits⟩
  rw [mem_forwardedSeqs, List.append_cancel_right events, List.mem_append,
    WindowSender.mem_forwards]
  exact or_iff_left (forwardedSeqs_asked s env seq)

/-! ## Runs -/

/-- A transfer that has just been started over the own connection has sent nothing. -/
theorem window_started {e after : TransferEngine F} {args : TransferEngine.StartArgs}
    (started : e.startFileTransfer args = (true, after)) (chosen : args.onLocalExit = true) :
    (LocalSender.mk after []).window = { count := after.transfer.fragmentCount } := by
  have path : (e.prepareTransfer args).localExit = true := chosen
  unfold TransferEngine.startFileTransfer at started
  split at started
  · cases started
  split at started
  · cases started
  dsimp only at started
  rw [if_pos path] at started
  unfold TransferEngine.startLocalExit at started
  dsimp only at started
  split at started
  · cases started
  split at started
  · cases started
  · cases started
    rfl

variable [PathArith F]

/-- The end of a transfer adds nothing to the trace. -/
theorem trace_tick (running : s.running = true) :
    (s.tick env).trace =
      ((s.engine.begin_ env).serveLocalExit.windowSender s.trace).trace := by
  have sameEvents : ∀ e : TransferEngine F,
      windowEvents (e.resetSenderTransferState true).io.outputs = windowEvents e.io.outputs := by
    intro e
    unfold TransferEngine.resetSenderTransferState
    by_cases session : e.transfer.sessionId = 0
    · simp [session, TransferEngine.emit, Io.emit, windowEvents, windowEvent, List.filterMap_cons]
    · simp [session, TransferEngine.emit, Io.emit, windowEvents, windowEvent, List.filterMap_cons]
  unfold tick
  rw [if_pos running]
  unfold TransferEngine.tickLocalExitArq
  dsimp only
  split
  · rw [sameEvents]
    rfl
  · rfl

/-- A tick that does not end the transfer. -/
theorem tick_goesOn (goesOn : (s.tick env).running = true) :
    s.running = true ∧
      (s.tick env).engine = (s.engine.begin_ env).serveLocalExit ∧
      (s.tick env).window = (s.engine.begin_ env).serveLocalExit.windowSender s.trace ∧
      (s.engine.begin_ env).serveLocalExit.cloudBaseSeq <
        (s.engine.begin_ env).serveLocalExit.transfer.fragmentCount := by
  have running : s.running = true := by
    by_contra stopped
    rw [show s.tick env = s from if_neg stopped] at goesOn
    exact stopped goesOn
  have ticked : s.tick env =
      { engine := (s.engine.begin_ env).tickLocalExitArq
        trace := windowEvents (s.engine.begin_ env).tickLocalExitArq.io.outputs ++ s.trace } :=
    if_pos running
  rw [ticked] at goesOn ⊢
  dsimp only
  by_cases ends : (s.engine.begin_ env).serveLocalExit.cloudBaseSeq ≥
      (s.engine.begin_ env).serveLocalExit.transfer.fragmentCount
  · have ended : (s.engine.begin_ env).tickLocalExitArq =
        (s.engine.begin_ env).serveLocalExit.resetSenderTransferState true := if_pos ends
    have inactive := TransferEngine.active_resetSenderTransferState
      (s.engine.begin_ env).serveLocalExit true
    have active : (s.engine.begin_ env).tickLocalExitArq.transfer.active = true :=
      (Bool.and_eq_true_iff.mp goesOn).1
    rw [ended, inactive] at active
    cases active
  · have served : (s.engine.begin_ env).tickLocalExitArq =
        (s.engine.begin_ env).serveLocalExit := if_neg ends
    rw [served]
    exact ⟨running, rfl, rfl, Nat.lt_of_not_le ends⟩

/-- In every state of a run the window is sound. -/
theorem sound_run (sound : s.running = true → s.window.Sound cloudWindowSize) (envs : List Env)
    (running : (s.run envs).running = true) : (s.run envs).window.Sound cloudWindowSize := by
  induction envs generalizing s with
  | nil => exact sound running
  | cons env rest inductionHypothesis =>
      refine inductionHypothesis (fun goesOn => ?_) running
      obtain ⟨before, _, window, _⟩ := tick_goesOn goesOn
      rw [window, windowSender_served]
      exact (sound before).serve _ _ _

/-- Whatever this tick queues has been sent before. -/
def AsksForSent (s : LocalSender F) (env : Env) : Prop :=
  s.running = true →
    WindowSender.SentBefore cloudWindowSize (s.window.takeAcks env.cloudAcks) env.cloudNacks

instance (s : LocalSender F) (env : Env) : Decidable (s.AsksForSent env) :=
  inferInstanceAs (Decidable (s.running = true → _))

/-- In a run that only asks for fragments that were sent the window is clean. -/
theorem clean_run (clean : s.running = true → s.window.Clean cloudWindowSize) {envs : List Env}
    (asks : Along tick AsksForSent s envs) (running : (s.run envs).running = true) :
    (s.run envs).window.Clean cloudWindowSize := by
  induction envs generalizing s with
  | nil => exact clean running
  | cons env rest inductionHypothesis =>
      refine inductionHypothesis (fun goesOn => ?_) asks.2 running
      obtain ⟨before, _, window, _⟩ := tick_goesOn goesOn
      rw [window, windowSender_served]
      exact (clean before).serve (asks.1 before) _

end LocalSender

/-! ## The window and the queue -/

/-- For every transfer over the own connection, and acknowledgements, requests and answers of
MQTT in any order: as long as no fragment is asked for before its first transmission, a tick
forwards only fragments inside the window, sends again only what it has sent before, and
between two transmissions of a fragment it was asked for. -/
theorem local_exit_window {F : Type} [PathArith F] {e after : TransferEngine F}
    {args : TransferEngine.StartArgs} (started : e.startFileTransfer args = (true, after))
    (chosen : args.onLocalExit = true) (envs : List Env) (env : Env)
    (asks : Along LocalSender.tick LocalSender.AsksForSent { engine := after } (envs ++ [env]))
    (running : (LocalSender.run { engine := after } envs).running = true) :
    let s := LocalSender.run { engine := after } envs
    (∀ seq ∈ forwardedSeqs (s.tick env).engine.io.outputs,
      seq < (s.engine.begin_ env).serveLocalExit.cloudBaseSeq + cloudWindowSize) ∧
    (∀ seq ∈ forwardedSeqs (s.engine.begin_ env).asked.retransmit.2.io.outputs,
      .forward seq ∈ s.trace) ∧
    ∀ later between earlier seq,
      (s.tick env).trace = later ++ .forward seq :: (between ++ .forward seq :: earlier) →
        .asked seq ∈ between := by
  intro s
  obtain ⟨before, last⟩ := Along.append.mp asks
  have fresh : (LocalSender.mk after []).window.Clean cloudWindowSize := by
    rw [LocalSender.window_started started chosen]
    exact .start cloudWindowSize _
  have clean : s.window.Clean cloudWindowSize :=
    LocalSender.clean_run (fun _ => fresh) before running
  have served := clean.serve (last.1 running) env.queueResults
  rw [← LocalSender.windowSender_served] at served
  refine ⟨fun seq member => ?_, fun seq member => ?_, fun later between earlier seq split => ?_⟩
  · have inTrace : .forward seq ∈ (s.tick env).trace := by
      rw [LocalSender.tick, if_pos running] at member ⊢
      dsimp only at member ⊢
      exact List.mem_append_left _ (mem_forwardedSeqs.mp member)
    rw [LocalSender.trace_tick running] at inTrace
    exact Nat.lt_of_lt_of_le (served.sent seq inTrace) served.window
  · obtain ⟨resent, rest, new, sends⟩ := LocalSender.sends s env
    have asked := (clean.takeAcks env.cloudAcks).ask (last.1 running)
    rw [← LocalSender.windowSender_asked] at asked
    have queued : seq ∈ (s.engine.begin_ env).asked.cloudRetxQueue := by
      have front := sends.front
      exact List.mem_of_mem_filter
        (front ▸ List.mem_append_left rest ((sends.again seq).mp member))
    have below : seq < (s.engine.begin_ env).asked.cloudNextSend := asked.known seq queued
    rw [LocalSender.next_asked] at below
    exact clean.forwarded seq below
  · rw [LocalSender.trace_tick running] at split
    exact served.orderly.asked_between split

/-- A file of two fragments. -/
def twoFragments : TransferEngine ℚ := (LocalExit.sevensStart (2 * 1456)).2

theorem started_twoFragments :
    LocalExit.sevensStart (2 * 1456) = (true, twoFragments) := Prod.ext rfl rfl

/-- The first one is acknowledged, and the second one is asked for again. -/
def askedAgain (answers : List Bool) : Env :=
  { cloudAcks := [0], cloudNacks := [1], queueResults := answers }

theorem local_exit_window_two_fragments :
    let s := LocalSender.run { engine := twoFragments } [{}]
    1 ∈ forwardedSeqs (s.tick (askedAgain [])).engine.io.outputs ∧
      1 < (s.engine.begin_ (askedAgain [])).serveLocalExit.cloudBaseSeq + cloudWindowSize ∧
      .forward 1 ∈ s.trace := by
  have window := local_exit_window started_twoFragments rfl [{}] (askedAgain [])
    (by decide +kernel) (by decide +kernel)
  exact ⟨by decide +kernel, window.1 1 (by decide +kernel), window.2.1 1 (by decide +kernel)⟩

/-- Forty fragments: the window is sent, and the cloud, which misses everything, asks for 18
fragments.  The acknowledgements of the window reach the node at last. -/
def neverSent : List LocalExit.Action :=
  [.cloud (.file (LocalExit.sevens (40 * 1456)).fileMeta) 1000, .tick {}] ++
    LocalExit.askedFor 2500 ((List.range' 0 6).map (LocalExit.answerArrives "NACK")) ++
    LocalExit.askedFor 3500 ((List.range' 6 6).map (LocalExit.answerArrives "NACK")) ++
    LocalExit.askedFor 4500 ((List.range' 12 6).map (LocalExit.answerArrives "NACK")) ++
    [.publish true (List.replicate 18 1)] ++
    (List.range 16).map (LocalExit.chunkArrives 1456) ++
    (List.range 16).map (LocalExit.answerArrives "ACK") ++ [.tick {}]

/-- The third request of the cloud makes the sender send fragment 16 again, which is beyond the
window and was never sent; and when the window has moved it sends the fragment once more, for
which nobody has asked. -/
theorem local_exit_window_unsent :
    let x := LocalExit.sevens (40 * 1456)
    let envs := x.ticks neverSent
    let s := LocalSender.run { engine := x.engine } (envs.take 3)
    let asked := (s.engine.begin_ (envs.getD 3 {})).asked
    let trace := (LocalSender.run { engine := x.engine } envs).trace
    x.Begun ∧ (x.run neverSent).isSome ∧
      16 ∈ forwardedSeqs asked.retransmit.2.io.outputs ∧ .forward 16 ∉ s.trace ∧
      asked.cloudBaseSeq + cloudWindowSize ≤ 16 ∧
      ∃ later between earlier,
        trace = later ++ .forward 16 :: (between ++ .forward 16 :: earlier) ∧
          .asked 16 ∉ between := by
  intro x envs s asked trace
  -- One evaluation of the run for all facts about it.
  have evaluated : (x.run neverSent).isSome ∧ 16 ∈ forwardedSeqs asked.retransmit.2.io.outputs ∧
      .forward 16 ∉ s.trace ∧ asked.cloudBaseSeq + cloudWindowSize ≤ 16 ∧
      trace = (List.range' 17 15).reverse.map .forward ++ .forward 16 ::
        ([.forward 17] ++ .forward 16 :: trace.drop 18) := by decide +kernel
  obtain ⟨ran, beyond, unsent, outside, split⟩ := evaluated
  exact ⟨LocalExit.begun_sevens rfl, ran, beyond, unsent, outside, _, _, _, split, by decide⟩

/-- For every transfer over the own connection, and acknowledgements, requests and answers of
MQTT in any order, after a tick that does not end the transfer: the base is the least fragment
without an acknowledgement, every fragment before the next one has been forwarded, and the queue
is a short list without duplicates.  It holds what it held and what was asked for, in this
order, without what is acknowledged and what the tick has sent again. -/
theorem local_exit_queue {F : Type} [PathArith F] {e after : TransferEngine F}
    {args : TransferEngine.StartArgs} (started : e.startFileTransfer args = (true, after))
    (chosen : args.onLocalExit = true) (envs : List Env) (env : Env)
    (goesOn : (LocalSender.run { engine := after } (envs ++ [env])).running = true) :
    let s := LocalSender.run { engine := after } envs
    let asked := (s.engine.begin_ env).asked
    let resent := forwardedSeqs asked.retransmit.2.io.outputs
    let ticked := (s.tick env).engine
    IsLeast { seq | seq < ticked.transfer.fragmentCount ∧ ticked.cloudAckBitmap seq = false }
      ticked.cloudBaseSeq ∧
    (∀ seq < ticked.cloudNextSend, .forward seq ∈ (s.tick env).trace) ∧
    ticked.cloudRetxQueue.Nodup ∧ ticked.cloudRetxQueue.length ≤ cloudWindowSize ∧
    (∃ added, asked.cloudRetxQueue = s.engine.cloudRetxQueue ++ added ∧
      ∀ seq ∈ added, seq ∈ env.cloudNacks) ∧
    ticked.cloudRetxQueue =
      asked.cloudRetxQueue.filter (fun seq => !ticked.cloudAckBitmap seq && seq ∉ resent) ∧
    ∀ seq ∈ asked.cloudRetxQueue,
      seq ∈ ticked.cloudRetxQueue ∨ ticked.cloudAckBitmap seq = true ∨ seq ∈ resent := by
  intro s asked resent ticked
  have last : (s.tick env).running = true := by
    rw [LocalSender.run, List.foldl_append, List.foldl_cons, List.foldl_nil] at goesOn
    exact goesOn
  obtain ⟨running, served, window, inside⟩ := LocalSender.tick_goesOn last
  have fresh : (LocalSender.mk after []).window.Sound cloudWindowSize := by
    rw [LocalSender.window_started started chosen]
    exact .start cloudWindowSize _
  have before := LocalSender.sound_run (fun _ => fresh) envs running
  have sound := before.serve env.cloudAcks env.cloudNacks env.queueResults
  rw [← LocalSender.windowSender_served, ← window] at sound
  obtain ⟨again, rest, new, sends⟩ := LocalSender.sends s env
  have sameQueue : ticked.cloudRetxQueue = rest :=
    congrArg WindowSender.queue (window.trans sends.served)
  have sameBits : ticked.cloudAckBitmap = asked.cloudAckBitmap :=
    congrArg WindowSender.acked (window.trans sends.served)
  have nodup : asked.cloudRetxQueue.Nodup := by
    have kept := (before.takeAcks env.cloudAcks).ask env.cloudNacks
    rw [← LocalSender.windowSender_asked] at kept
    exact kept.nodup
  have kept : rest =
      asked.cloudRetxQueue.filter (fun seq => !ticked.cloudAckBitmap seq && seq ∉ resent) := by
    rw [sameBits, ← WindowSender.filter_back nodup sends.front]
    refine List.filter_congr fun seq _ => ?_
    rw [decide_eq_decide.mpr (not_congr (sends.again seq))]
  refine ⟨?_, sound.forwarded, sound.nodup, sound.short, ?_, sameQueue.trans kept, ?_⟩
  · have stops := @WindowSender.serve_stops cloudWindowSize s.window env.cloudAcks
      env.cloudNacks env.queueResults
    rw [← LocalSender.windowSender_served, ← window] at stops
    rw [← served] at inside
    refine ⟨⟨inside, stops inside⟩, fun seq missing => ?_⟩
    by_contra below
    have behind : ticked.cloudAckBitmap seq = true := sound.behind seq (Nat.lt_of_not_le below)
    rw [missing.2] at behind
    cases behind
  · obtain ⟨acked, base, taken, _⟩ := WindowSender.takeAcks_spec s.window env.cloudAcks
    obtain ⟨added, events, result, fromNacks, _⟩ :=
      WindowSender.foldl_ask cloudWindowSize env.cloudNacks (s.window.takeAcks env.cloudAcks)
    have drained := (LocalSender.windowSender_asked s env).trans result
    rw [taken] at drained
    exact ⟨added, congrArg WindowSender.queue drained, fromNacks⟩
  · intro seq member
    rw [sameQueue, kept, List.mem_filter]
    by_cases acked : ticked.cloudAckBitmap seq = true
    · exact .inr (.inl acked)
    · by_cases sentAgain : seq ∈ resent
      · exact .inr (.inr sentAgain)
      · exact .inl ⟨member, by simp [acked, sentAgain]⟩

/-- MQTT refuses the second fragment. -/
theorem local_exit_queue_two_fragments :
    let s := LocalSender.run { engine := twoFragments } [{}]
    let ticked := (s.tick (askedAgain [false])).engine
    ticked.cloudRetxQueue.Nodup ∧ 1 ∈ ticked.cloudRetxQueue := by
  obtain ⟨_, _, nodup, _, _, _, leaves⟩ :=
    local_exit_queue started_twoFragments rfl [{}] (askedAgain [false]) (by decide +kernel)
  exact ⟨nodup, (leaves 1 (by decide +kernel)).resolve_right (by decide +kernel)⟩

/-- The first fragment is asked for before it was sent.  MQTT refuses it as a retransmission and
then takes it as a new fragment: the tick has forwarded it, and it stays in the queue. -/
theorem local_exit_queue_keeps_forwarded :
    let ticked := LocalSender.tick { engine := twoFragments }
      { cloudNacks := [0], queueResults := [false, true] }
    ticked.running = true ∧ 0 ∈ forwardedSeqs ticked.engine.io.outputs ∧
      0 ∈ ticked.engine.cloudRetxQueue := by
  decide +kernel

end ForestLink.Mesh
