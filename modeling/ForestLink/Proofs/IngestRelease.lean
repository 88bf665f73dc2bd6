/-
Module: ForestLink.Proofs.IngestRelease
Purpose: What the reader of an ingested file returns while the transfer runs, and how often the
  memory behind it is released.
Trusted boundary: none
Main exports: Ledger, SourceHistory.Careful, sources_kept_of_careful,
  aborted_source_read_and_leaked
-/
import ForestLink.Lib.Trace
import ForestLink.Proofs.CompletionReports
import ForestLink.Proofs.IngestStorage

namespace ForestLink.Uart

open ForestLink.Lib
open ForestLink.Mesh
open ForestLink.Mesh.TransferEngine (StartArgs)
open ForestLink.Uart.UartIngest

/-! ## The ledger -/

/-- What was released under the number of an ingest. -/
def releasedOf (released : List (Nat × Resource)) (number : Nat) : List Resource :=
  (released.filter fun entry => entry.1 == number).map Prod.snd

theorem releasedOf_cons_self (released : List (Nat × Resource)) (number : Nat)
    (resource : Resource) :
    releasedOf ((number, resource) :: released) number =
      resource :: releasedOf released number := by
  simp [releasedOf]

theorem releasedOf_cons_of_ne (released : List (Nat × Resource)) {number other : Nat}
    (resource : Resource) (different : number ≠ other) :
    releasedOf ((number, resource) :: released) other = releasedOf released other := by
  simp [releasedOf, different]

theorem releasedOf_of_bound {released : List (Nat × Resource)} {number : Nat}
    (bound : ∀ entry ∈ released, entry.1 < number) : releasedOf released number = [] := by
  unfold releasedOf
  rw [List.map_eq_nil_iff, List.filter_eq_nil_iff]
  intro entry member same
  exact absurd (beq_iff_eq.mp same) (bound entry member).ne

/-- The records of handovers and releases, up to the ingest with the number `begun`: it is
active, and its transfer has started. -/
structure Ledger (active started : Bool) (begun : Nat) (handed : List Handover)
    (released : List (Nat × Resource)) : Prop where
  handedBound : ∀ x ∈ handed, x.ingest ≤ begun
  releasedBound : ∀ entry ∈ released, entry.1 ≤ begun
  fresh : active = true → releasedOf released begun = []
  own : active = true → ∀ x ∈ handed, x.ingest = begun → started = true ∧ handed.head? = some x
  settled : ∀ x ∈ handed,
    x.ingest = begun ∧ started = true ∨ releasedOf released x.ingest = [x.resource]

namespace Ledger

variable {active started : Bool} {begun : Nat} {handed : List Handover}
  {released : List (Nat × Resource)}

theorem nil : Ledger false false 0 [] [] where
  handedBound _ none := absurd none List.not_mem_nil
  releasedBound _ none := absurd none List.not_mem_nil
  fresh _ := rfl
  own _ _ none := absurd none List.not_mem_nil
  settled _ none := absurd none List.not_mem_nil

/-- The memory of the current ingest is released. -/
theorem release (ledger : Ledger true started begun handed released) (resource : Resource)
    (mine : started = true → ∀ x, handed.head? = some x → x.resource = resource) :
    Ledger false false begun handed ((begun, resource) :: released) where
  handedBound := ledger.handedBound
  releasedBound entry member := by
    rcases List.mem_cons.mp member with rfl | older
    · exact le_rfl
    · exact ledger.releasedBound entry older
  fresh inactive := absurd inactive Bool.false_ne_true
  own inactive := absurd inactive Bool.false_ne_true
  settled x member := by
    refine .inr ?_
    by_cases current : x.ingest = begun
    · obtain ⟨running, newest⟩ := ledger.own rfl x member current
      rw [current, releasedOf_cons_self, ledger.fresh rfl, mine running x newest]
    · rw [releasedOf_cons_of_ne released resource (Ne.symm current)]
      exact (ledger.settled x member).resolve_left fun left => current left.1

/-- A new ingest gets the next number. -/
theorem begin_ (ledger : Ledger false false begun handed released) :
    Ledger true false (begun + 1) handed released where
  handedBound x member := (ledger.handedBound x member).trans (Nat.le_succ begun)
  releasedBound entry member := (ledger.releasedBound entry member).trans (Nat.le_succ begun)
  fresh _ := releasedOf_of_bound fun entry member =>
    Nat.lt_succ_of_le (ledger.releasedBound entry member)
  own _ x member current :=
    absurd current (Nat.lt_succ_of_le (ledger.handedBound x member)).ne
  settled x member :=
    .inr ((ledger.settled x member).resolve_left fun left => Bool.false_ne_true left.2)

/-- The transfer of the current ingest starts. -/
theorem start (ledger : Ledger true false begun handed released) (resource : Resource)
    (bytes : List UInt8) :
    Ledger true true begun
      ({ ingest := begun, resource := resource, bytes := bytes } :: handed) released where
  handedBound x member := by
    rcases List.mem_cons.mp member with rfl | older
    · exact le_rfl
    · exact ledger.handedBound x older
  releasedBound := ledger.releasedBound
  fresh := ledger.fresh
  own _ x member current := by
    rcases List.mem_cons.mp member with rfl | older
    · exact ⟨rfl, rfl⟩
    · exact absurd (ledger.own rfl x older current).1 Bool.false_ne_true
  settled x member := by
    rcases List.mem_cons.mp member with rfl | older
    · exact .inl ⟨rfl, rfl⟩
    · exact .inr ((ledger.settled x older).resolve_left fun left => Bool.false_ne_true left.2)

end Ledger

/-! ## The engine beside the ingest -/

variable {F : Type}

namespace UartNode

theorem active_bindReader (n : UartNode F) :
    n.bindReader.transfer.active = n.engine.transfer.active := by
  unfold bindReader
  split <;> rfl

theorem config_install (n : UartNode F) (e after : TransferEngine F) (o : Occasion) :
    ((n.record e after o).install e after).config = n.config := by
  unfold record
  split
  · rfl
  split <;> rfl

/-- A transfer whose reader came from the ingest was already running before the call. -/
theorem source_callEngine [PathArith F] {n : UartNode F} {call : TransferEngine.Call} {source : Source}
    (here : (n.callEngine call).source = some source)
    (active : (n.callEngine call).engine.transfer.active = true) :
    n.source = some source ∧ n.engine.transfer.active = true := by
  unfold callEngine at here active
  dsimp only at here
  have after : (n.bindReader.step call).transfer.active = true := active
  rw [after, Bool.and_true] at here
  cases running : n.bindReader.transfer.active with
  | false =>
      rw [running] at here
      cases here
  | true =>
      rw [running] at here
      exact ⟨here, (active_bindReader n).symm.trans running⟩

end UartNode

/-- A refused start starts nothing. -/
theorem active_of_refused {e : TransferEngine F} {args : StartArgs}
    (refused : (e.startFileTransfer args).1 = false)
    (active : (e.startFileTransfer args).2.transfer.active = true) :
    e.transfer.active = true := by
  have starts := TransferEngine.starts_startFileTransfer e args
  generalize e.startFileTransfer args = result at starts refused active
  cases starts with
  | refused busy => exact active
  | rejected after count idle noExit tooLarge role cloud io log =>
      have inactive : after.role.active = false := by rw [role]
      exact absurd (inactive.symm.trans active) Bool.false_ne_true
  | onLocalExit => cases refused
  | onMesh => cases refused

namespace SourceHistory

/-- The card takes every byte, and a transfer that was started over the serial port is not
aborted there before it was polled as over. -/
def Careful (h : SourceHistory F) : UartNode.Action → Prop
  | .fileData data wrote => h.node.ingest.spools data = true → wrote = data.length
  | .abortTransfer => h.node.ingest.transferStarted = false
  | _ => True

/-- The ingest, the records and the reader of the running transfer agree. -/
structure Kept (h : SourceHistory F) : Prop where
  sane : Idle h.node.ingest ∨
    ∃ resource, Ingests h.node.config h.node.ingest h.accepted resource
  ledger : Ledger h.node.ingest.ingestActive h.node.ingest.transferStarted h.begun h.handed
    h.released
  newest : h.node.ingest.transferStarted = true → ∃ resource,
    h.node.ingest.resource = some resource ∧
      h.handed.head? = some { ingest := h.begun, resource := resource, bytes := h.accepted }
  reads : ∀ source, h.node.source = some source → h.node.engine.transfer.active = true →
    h.node.ingest.transferStarted = true ∧ h.node.ingest.read source = slice h.accepted

variable {h : SourceHistory F}

theorem Kept.ingests (kept : h.Kept) (started : h.node.ingest.transferStarted = true) :
    ∃ resource, Ingests h.node.config h.node.ingest h.accepted resource ∧
      h.handed.head? = some { ingest := h.begun, resource := resource, bytes := h.accepted } := by
  obtain ⟨resource, here, newest⟩ := kept.newest started
  rcases kept.sane with idle | ⟨other, ingests⟩
  · exact absurd (idle.waiting.symm.trans started) Bool.false_ne_true
  · obtain rfl := Option.some.inj (here.symm.trans ingests.stored.resource_eq)
    exact ⟨resource, ingests, newest⟩

/-- While no transfer has started, no running transfer reads from the ingest. -/
theorem Kept.noReader (kept : h.Kept) (waiting : h.node.ingest.transferStarted = false)
    {source : Source} (here : h.node.source = some source)
    (active : h.node.engine.transfer.active = true) : False :=
  Bool.false_ne_true (waiting.symm.trans (kept.reads source here active).1)

/-- The memory of an ingest whose transfer has not started is released. -/
theorem Kept.drop (kept : h.Kept) (waiting : h.node.ingest.transferStarted = false) :
    Ledger false false h.begun h.handed
      ((if h.node.ingest.ingestActive then h.node.ingest.held h.node.config else []).map
        (fun resource => (h.begun, resource)) ++ h.released) := by
  have ledger := kept.ledger
  rw [waiting] at ledger
  rcases kept.sane with idle | ⟨resource, ingests⟩
  · rw [idle.inactive] at ledger ⊢
    exact ledger
  · rw [ingests.active] at ledger ⊢
    rw [if_pos rfl, ingests.stored.held_eq]
    exact ledger.release resource fun started => absurd started Bool.false_ne_true

/-- A call that changes neither the ingest nor the records, and starts no reader of it. -/
theorem Kept.same (kept : h.Kept) {after : SourceHistory F}
    (config : after.node.config = h.node.config) (ingest : after.node.ingest = h.node.ingest)
    (begun : after.begun = h.begun) (accepted : after.accepted = h.accepted)
    (handed : after.handed = h.handed) (released : after.released = h.released)
    (reader : ∀ source, after.node.source = some source →
      after.node.engine.transfer.active = true →
        h.node.source = some source ∧ h.node.engine.transfer.active = true) : after.Kept where
  sane := by
    rw [config, ingest, accepted]
    exact kept.sane
  ledger := by
    rw [ingest, begun, handed, released]
    exact kept.ledger
  newest := by
    rw [ingest, begun, accepted, handed]
    exact kept.newest
  reads source here active := by
    rw [ingest, accepted]
    exact kept.reads source (reader source here active).1 (reader source here active).2

/-! ### The calls one by one -/

section Calls

variable [PathArith F]

theorem Kept.call (kept : h.Kept) (call : TransferEngine.Call) :
    (h.step (.call call)).Kept :=
  kept.same (UartNode.config_install ..) (UartNode.ingest_install ..) rfl rfl rfl rfl
    fun _ => UartNode.source_callEngine

theorem Kept.fileBegin (kept : h.Kept) (fileSize : Nat) (filename : List UInt8)
    (env : BeginEnv) : (h.step (.fileBegin fileSize filename env)).Kept := by
  have sane : Idle h.node.ingest ∨
      ∃ bytes resource, Ingests h.node.config h.node.ingest bytes resource :=
    kept.sane.imp_right fun ⟨resource, ingests⟩ => ⟨h.accepted, resource, ingests⟩
  have outcome := begins_fileBegin sane fileSize filename env
  have shape : ∀ result, h.node.ingest.fileBegin h.node.config fileSize filename env = result →
      h.step (.fileBegin fileSize filename env) =
        { node := { h.node with ingest := result.2 }
          begun := if result.1 == .ok then h.begun + 1 else h.begun
          accepted := if result.1 = .ok then [] else h.accepted
          handed := h.handed
          released :=
            (if !h.node.ingest.transferStarted && h.node.ingest.ingestActive then
              h.node.ingest.held h.node.config else []).map (fun resource => (h.begun, resource)) ++
              h.released } := by
    rintro _ rfl
    rfl
  rw [shape _ rfl]
  generalize h.node.ingest.fileBegin h.node.config fileSize filename env = result at outcome ⊢
  cases outcome with
  | busy started =>
      simp only [started, Bool.not_true, Bool.false_and, Bool.false_eq_true, if_false]
      exact kept
  | refused waiting idle =>
      simp only [waiting, Bool.not_false, Bool.true_and]
      refine ⟨.inl idle, ?_, ?_, ?_⟩
      · dsimp only
        rw [idle.inactive, idle.waiting]
        exact kept.drop waiting
      · exact fun started => absurd (idle.waiting.symm.trans started) Bool.false_ne_true
      · exact fun source here active => (kept.noReader waiting here active).elim
  | accepted waiting ingests open_ waits =>
      simp only [waiting, Bool.not_false, Bool.true_and]
      refine ⟨.inr ⟨_, ingests⟩, ?_, ?_, ?_⟩
      · dsimp only
        rw [ingests.active, waits]
        exact (kept.drop waiting).begin_
      · exact fun started => absurd (waits.symm.trans started) Bool.false_ne_true
      · exact fun source here active => (kept.noReader waiting here active).elim

theorem Kept.fileData (kept : h.Kept) (data : List UInt8) (wrote : Nat)
    (careful : h.Careful (.fileData data wrote)) : (h.step (.fileData data wrote)).Kept := by
  unfold step
  dsimp only [UartNode.act, begins, accepts, hands, releases]
  rcases kept.sane with idle | ⟨resource, ingests⟩
  · rw [fileData_of_inactive idle.inactive]
    exact kept
  have outcome := ingests.data data wrote
  generalize h.node.ingest.fileData data wrote = result at outcome ⊢
  cases outcome with
  | refused failed =>
      dsimp only
      rw [if_neg failed]
      exact kept
  | torn writes short same received stored => exact absurd (careful writes) short
  | accepted waiting same ingests =>
      refine ⟨.inr ⟨resource, ingests⟩, ?_, ?_, ?_⟩
      · have ledger := kept.ledger
        rw [← same.active, ← same.started] at ledger
        exact ledger
      · exact fun started => absurd ((same.started.trans waiting).symm.trans started)
          Bool.false_ne_true
      · exact fun source here active => (kept.noReader waiting here active).elim

/-- What `file_end` does to the ingest, the engine and the records. -/
theorem step_fileEnd (h : SourceHistory F) (env : EndEnv)
    {result : UartResult × UartIngest × TransferEngine F × Option Source}
    (ended : h.node.ingest.fileEnd h.node.config h.node.bindReader env = result) :
    ∃ node : UartNode F, node.config = h.node.config ∧ node.ingest = result.2.1 ∧
      node.engine = result.2.2.1 ∧
      node.source = (if result.2.2.2.isSome then result.2.2.2 else h.node.source) ∧
      h.step (.fileEnd env) =
        { h with
          node := node
          handed :=
            ((if result.1 = .ok then h.node.ingest.resource else none).map fun resource =>
              { ingest := h.begun, resource := resource, bytes := h.accepted }).toList ++
                h.handed } := by
  subst ended
  exact ⟨h.node.fileEnd env, UartNode.config_install .., rfl, rfl, rfl, rfl⟩

/-- A `file_end` that fails before it asks the engine changes nothing. -/
theorem Kept.early (kept : h.Kept) {env : EndEnv} {error : UartResult} (failed : error ≠ .ok)
    (ended : h.node.ingest.fileEnd h.node.config h.node.bindReader env =
      (error, h.node.ingest, h.node.bindReader, none)) : (h.step (.fileEnd env)).Kept := by
  obtain ⟨node, config, ingest, engine, source, step⟩ := step_fileEnd h env ended
  rw [if_neg failed] at step
  rw [step]
  refine kept.same config ingest rfl rfl rfl rfl fun _ here active => ⟨?_, ?_⟩
  · exact source.symm.trans here
  · dsimp only at active engine
    rw [engine, UartNode.active_bindReader] at active
    exact active

theorem Kept.fileEnd (kept : h.Kept) (env : EndEnv) : (h.step (.fileEnd env)).Kept := by
  rcases kept.sane with idle | ⟨resource, ingests⟩
  · exact kept.early (by decide) (fileEnd_of_inactive idle.inactive h.node.bindReader env)
  have outcome := ingests.ends h.node.bindReader env
  generalize ended : h.node.ingest.fileEnd h.node.config h.node.bindReader env = result at outcome
  cases outcome with
  | busy started => exact kept.early (by decide) ended
  | closed waiting shut => exact kept.early (by decide) ended
  | refused waiting refusal =>
      obtain ⟨node, config, ingest, engine, source, step⟩ := step_fileEnd h env ended
      rw [step]
      refine ⟨.inr ⟨resource, ?_⟩, ?_, ?_, ?_⟩
      · rw [config, ingest]
        exact ingests.closeFile
      · rw [ingest]
        exact kept.ledger
      · rw [ingest]
        exact fun started => absurd (waiting.symm.trans started) Bool.false_ne_true
      · intro other here active
        rw [engine] at active
        have running : (h.node.bindReader.setEnv env.env).transfer.active = true :=
          active_of_refused refusal active
        have running := (UartNode.active_bindReader h.node).symm.trans running
        exact (kept.noReader waiting (source.symm.trans here) running).elim
  | started waiting reads begun =>
      obtain ⟨node, config, ingest, engine, source, step⟩ := step_fileEnd h env ended
      rw [step]
      have ledger := kept.ledger
      rw [ingests.active, waiting] at ledger
      have here : h.node.ingest.resource = some resource := ingests.stored.resource_eq
      refine ⟨.inr ⟨resource, ?_⟩, ?_, ?_, ?_⟩
      · rw [config, ingest]
        exact ingests.withTransfer env.nowMs
      · rw [ingest, if_pos rfl, here]
        have active : (h.node.ingest.withTransfer env.nowMs).ingestActive = true := ingests.active
        rw [active]
        exact ledger.start resource h.accepted
      · intro _
        rw [ingest, if_pos rfl, here]
        exact ⟨resource, here, rfl⟩
      · intro other taken _
        obtain rfl := Option.some.inj (source.symm.trans taken)
        rw [ingest]
        exact ⟨rfl, reads⟩

theorem Kept.abortTransfer (kept : h.Kept) (careful : h.Careful .abortTransfer) :
    (h.step .abortTransfer).Kept := by
  have waiting : h.node.ingest.transferStarted = false := careful
  have ledger := kept.drop waiting
  unfold step
  dsimp only [UartNode.act, begins, accepts, hands, releases]
  rw [waiting, Bool.not_false, Bool.and_true]
  have idle : Idle (h.node.ingest.abortTransfer h.node.config).2 := by
    rcases kept.sane with idle | ⟨resource, ingests⟩
    · simpa [UartIngest.abortTransfer, idle.inactive] using idle
    · exact ingests.stored.idle_abortTransfer ingests.active waiting
  refine ⟨.inl idle, ?_, ?_, ?_⟩
  · dsimp only
    rw [idle.inactive, idle.waiting]
    exact ledger
  · exact fun started => absurd (idle.waiting.symm.trans started) Bool.false_ne_true
  · exact fun source here active => (kept.noReader waiting here active).elim

theorem step_poll (h : SourceHistory F) (nowMs : Nat)
    {result : Option UartFrame × UartIngest}
    (polled : h.node.ingest.pollTransferProgress h.node.config h.node.engine nowMs = result) :
    h.step (.poll nowMs) =
      { h with
        node :=
          { h.node with
            ingest := result.2
            reports := (result.1.map (Report.frame h.node.tracked)).toList ++ h.node.reports }
        released :=
          (if h.node.ingest.transferStarted && !h.node.engine.transfer.active then
            h.node.ingest.held h.node.config else []).map (fun resource => (h.begun, resource)) ++
            h.released } := by
  subst polled
  rfl

/-- A poll while there is nothing to clean up. -/
theorem Kept.polled (kept : h.Kept)
    (running : (h.node.ingest.transferStarted && !h.node.engine.transfer.active) = false)
    {nowMs : Nat} {frame : Option UartFrame} {pct : Nat}
    (polled : h.node.ingest.pollTransferProgress h.node.config h.node.engine nowMs =
      (frame, { h.node.ingest with lastProgressPct := pct })) : (h.step (.poll nowMs)).Kept := by
  rw [step_poll h nowMs polled, running]
  refine ⟨?_, kept.ledger, kept.newest, kept.reads⟩
  rcases kept.sane with idle | ⟨resource, ingests⟩
  · exact .inl ⟨idle.inactive, idle.waiting, idle.noBuf, idle.noFile⟩
  · exact .inr ⟨resource, ingests.withProgress pct⟩

/-- The poll that finds the transfer over releases its source. -/
theorem Kept.finished (kept : h.Kept) {nowMs : Nat} {frame : UartFrame}
    (started : h.node.ingest.transferStarted = true)
    (ended : h.node.engine.transfer.active = false)
    (polled : h.node.ingest.pollTransferProgress h.node.config h.node.engine nowMs =
      (some frame, h.node.ingest.finish h.node.config)) : (h.step (.poll nowMs)).Kept := by
  obtain ⟨resource, ingests, newest⟩ := kept.ingests started
  have idle := ingests.stored.idle_finish
  have ledger := kept.ledger
  rw [ingests.active] at ledger
  rw [step_poll h nowMs polled, started, ended, Bool.not_false, Bool.and_true, if_pos rfl,
    ingests.stored.held_eq]
  refine ⟨.inl idle, ?_, ?_, ?_⟩
  · dsimp only
    rw [idle.inactive, idle.waiting]
    refine ledger.release resource fun _ x first => ?_
    rw [← Option.some.inj (newest.symm.trans first)]
  · exact fun late => absurd (idle.waiting.symm.trans late) Bool.false_ne_true
  · exact fun _ _ running => absurd (ended.symm.trans running) Bool.false_ne_true

theorem Kept.poll (kept : h.Kept) (nowMs : Nat) : (h.step (.poll nowMs)).Kept := by
  have outcome := polls_pollTransferProgress h.node.config h.node.ingest h.node.engine nowMs
  generalize polled : h.node.ingest.pollTransferProgress h.node.config h.node.engine nowMs = result
    at outcome
  cases outcome with
  | waiting waiting => exact kept.polled (by rw [waiting]; rfl) polled
  | quiet started active => exact kept.polled (by rw [started, active]; rfl) polled
  | progress frame pct started active => exact kept.polled (by rw [started, active]; rfl) polled
  | finished frame started ended => exact kept.finished started ended polled

theorem Kept.step (kept : h.Kept) (action : UartNode.Action) (careful : h.Careful action) :
    (h.step action).Kept := by
  cases action with
  | call call => exact kept.call call
  | fileBegin fileSize filename env => exact kept.fileBegin fileSize filename env
  | fileData data wrote => exact kept.fileData data wrote careful
  | fileEnd env => exact kept.fileEnd env
  | abortTransfer => exact kept.abortTransfer careful
  | poll nowMs => exact kept.poll nowMs

/-- A node that has just booted. -/
def boot (config : UartConfig) (myAddr maxElectedExits : Nat) : SourceHistory F where
  node := .boot config myAddr maxElectedExits

theorem kept_boot (config : UartConfig) (myAddr maxElectedExits : Nat) :
    (boot config myAddr maxElectedExits : SourceHistory F).Kept where
  sane := .inl idle_boot
  ledger := Ledger.nil
  newest started := absurd started Bool.false_ne_true
  reads _ here := by cases here

/-- In every careful run the reader of the running transfer returns the bytes that were
handed over, and nothing of it is released; every source that was handed over is released
exactly once, the newest by the poll that finds its transfer over. -/
theorem sources_kept_of_careful (config : UartConfig) (myAddr maxElectedExits : Nat)
    (actions : List UartNode.Action)
    (careful : Along SourceHistory.step Careful
      (boot config myAddr maxElectedExits : SourceHistory F) actions) :
    let h := (boot config myAddr maxElectedExits : SourceHistory F).run actions
    (∀ source, h.node.source = some source → h.node.engine.transfer.active = true →
      ∃ newest, h.handed.head? = some newest ∧ releasedOf h.released newest.ingest = [] ∧
        ∀ offset len, h.node.ingest.read source offset len = slice newest.bytes offset len) ∧
    (∀ x ∈ h.handed,
      (h.node.ingest.transferStarted = true ∧ h.handed.head? = some x ∧
        releasedOf h.released x.ingest = []) ∨
      releasedOf h.released x.ingest = [x.resource]) ∧
    (h.node.ingest.transferStarted = true → h.node.engine.transfer.active = false →
      ∀ nowMs, ∃ newest, h.handed.head? = some newest ∧
        releasedOf (h.step (.poll nowMs)).released newest.ingest = [newest.resource] ∧
        (h.step (.poll nowMs)).node.ingest.storage.content newest.resource = none) := by
  intro h
  have kept : h.Kept :=
    careful.keeps Kept (fun _ action allowed kept => kept.step action allowed)
      (kept_boot config myAddr maxElectedExits)
  refine ⟨?_, ?_, ?_⟩
  · intro source here active
    obtain ⟨started, reads⟩ := kept.reads source here active
    obtain ⟨resource, ingests, newest⟩ := kept.ingests started
    refine ⟨_, newest, kept.ledger.fresh ingests.active, ?_⟩
    intro offset len
    rw [reads]
  · intro x member
    rcases kept.ledger.settled x member with ⟨current, started⟩ | released
    · obtain ⟨resource, ingests, newest⟩ := kept.ingests started
      refine .inl ⟨started, (kept.ledger.own ingests.active x member current).2, ?_⟩
      rw [current]
      exact kept.ledger.fresh ingests.active
    · exact .inr released
  · intro started ended nowMs
    obtain ⟨resource, ingests, newest⟩ := kept.ingests started
    have outcome := polls_pollTransferProgress h.node.config h.node.ingest h.node.engine nowMs
    generalize polled : h.node.ingest.pollTransferProgress h.node.config h.node.engine nowMs =
      result at outcome
    cases outcome with
    | waiting waiting => exact absurd (waiting.symm.trans started) Bool.false_ne_true
    | quiet _ active => exact absurd (ended.symm.trans active) Bool.false_ne_true
    | progress _ _ _ active => exact absurd (ended.symm.trans active) Bool.false_ne_true
    | finished frame _ _ =>
        refine ⟨_, newest, ?_, ?_⟩
        · rw [step_poll h nowMs polled, started, ended, Bool.not_false, Bool.and_true, if_pos rfl,
            ingests.stored.held_eq]
          exact (releasedOf_cons_self ..).trans
            (congrArg (resource :: ·) (kept.ledger.fresh ingests.active))
        · rw [step_poll h nowMs polled]
          exact ingests.stored.content_finish

end Calls

/-! ## A file on the card -/

/-- A host stores three bytes on the card and starts their transfer. -/
def spoolRun : List UartNode.Action :=
  [.fileBegin 3 [102] { psram := false }, .fileData [1, 2, 3] 3,
    .fileEnd
      { env := { clock := fun _ => 1000, random := 7 }
        hasInternet := true
        mqttReady := true
        nowMs := 1000 }]

/-- The cloud acknowledges its fragment. -/
def acknowledgements : List UartNode.Action :=
  [.call { env := { clock := fun _ => 1100 }, event := .tick 1100 },
    .call { env := { clock := fun _ => 1200, cloudAcks := [0] }, event := .tick 1200 }]

theorem spooled_transfer_reads_its_bytes :
    ((boot {} 1 4 : SourceHistory ℚ).run spoolRun).node.ingest.read .spool 1 2 = [2, 3] := by
  have careful : Along SourceHistory.step Careful (boot {} 1 4 : SourceHistory ℚ) spoolRun :=
    ⟨trivial, fun _ => rfl, trivial, trivial⟩
  obtain ⟨reads, _⟩ := sources_kept_of_careful {} 1 4 spoolRun careful
  obtain ⟨newest, first, _, same⟩ := reads .spool (by decide +kernel) (by decide +kernel)
  have bytes : ((boot {} 1 4 : SourceHistory ℚ).run spoolRun).handed.head? =
      some { ingest := 1, resource := .spool 0, bytes := [1, 2, 3] } := by decide +kernel
  obtain rfl := Option.some.inj (bytes.symm.trans first)
  exact same 1 2

/-- The host aborts, and begins another file while the engine still reads the first. -/
def overwrittenHistory : SourceHistory ℚ :=
  (boot {} 1 4).run
    (spoolRun ++ [.abortTransfer, .fileBegin 5 [103] { psram := false, timerUs := 9 }])

/-- The host aborts, and the transfer ends. -/
def abortedHistory : SourceHistory ℚ :=
  (boot {} 1 4).run (spoolRun ++ [.abortTransfer] ++ acknowledgements ++ [.poll 1300])

/-- The running transfer reads the new spool file, which is empty; a transfer that has ended
keeps its spool file. -/
theorem aborted_source_read_and_leaked :
    (overwrittenHistory.node.engine.transfer.active = true ∧
      overwrittenHistory.node.source = some .spool ∧
      overwrittenHistory.handed =
        [{ ingest := 1, resource := .spool 0, bytes := [1, 2, 3] }] ∧
      overwrittenHistory.node.ingest.read .spool 0 3 = []) ∧
    abortedHistory.node.engine.transfer.active = false ∧
      abortedHistory.handed = [{ ingest := 1, resource := .spool 0, bytes := [1, 2, 3] }] ∧
      abortedHistory.released = [] ∧
      abortedHistory.node.ingest.storage.content (.spool 0) = some [1, 2, 3] := by
  refine ⟨⟨?_, ?_, ?_, ?_⟩, ?_, ?_, ?_, ?_⟩ <;> decide +kernel

end SourceHistory

end ForestLink.Uart
