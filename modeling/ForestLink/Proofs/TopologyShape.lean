/-
Module: ForestLink.Proofs.TopologyShape
Purpose: The graph of the dashboard is well formed: in whatever order Go visits the map, its
  vertices and edges are those that the latest reports name, each once.
Trusted boundary: none
Main exports: edgeKey_eq_iff, firstPass_links, secondPass, latestReport, Reporting, Lists,
  TopologyGraph.WellFormed, topology_graph_wellFormed
-/
import Mathlib.Data.Sym.Sym2
import ForestLink.Lib.FirstSeen
import ForestLink.Cloud.TopologyGraph
import ForestLink.Proofs.TopologyReports

namespace ForestLink.Cloud

open ForestLink.Lib

/-! ## Unordered pairs -/

theorem mk_edgeKey (a b : String) : s((edgeKey a b).1, (edgeKey a b).2) = s(a, b) := by
  unfold edgeKey
  split
  · exact Sym2.eq_swap
  · rfl

theorem edgeKey_comm (a b : String) : edgeKey a b = edgeKey b a := by
  unfold edgeKey
  rcases lt_trichotomy a b with less | rfl | greater
  · rw [if_neg (lt_asymm less), if_pos less]
  · rfl
  · rw [if_pos greater, if_neg (lt_asymm greater)]

/-- The keys of the code are the unordered pairs. -/
theorem edgeKey_eq_iff {a b c d : String} : edgeKey a b = edgeKey c d ↔ s(a, b) = s(c, d) := by
  constructor
  · intro same
    rw [← mk_edgeKey a b, same, mk_edgeKey]
  · intro same
    rcases Sym2.eq_iff.mp same with ⟨rfl, rfl⟩ | ⟨rfl, rfl⟩
    · rfl
    · exact edgeKey_comm a b

/-- The unordered pair of the ends. -/
def GraphEdge.ends (e : GraphEdge) : Sym2 String := s(e.source, e.target)

/-- The key of an edge. -/
def GraphEdge.key (e : GraphEdge) : String × String := edgeKey e.source e.target

theorem GraphEdge.key_eq_iff {e f : GraphEdge} : e.key = f.key ↔ e.ends = f.ends :=
  edgeKey_eq_iff

theorem GraphEdge.mem_ends_iff (edges : List GraphEdge) (x y : String) :
    s(x, y) ∈ edges.map GraphEdge.ends ↔ edgeKey x y ∈ edges.map GraphEdge.key := by
  simp only [List.mem_map]
  exact exists_congr fun e => and_congr_right fun _ => edgeKey_eq_iff.symm

/-! ## The two passes -/

namespace GraphBuilder

variable {nowMs : Nat} {order : List (String × NodeState)}

/-- The loops over edges, and over vertices. -/
def links (g : GraphBuilder) : Collector GraphEdge (String × String) := ⟨g.seenEdges, g.edges⟩

def vertices (g : GraphBuilder) : Collector GraphNode String := ⟨g.seenNodes, g.nodes⟩

theorem links_addEdge (nid : String) (g : GraphBuilder) (n : Neighbor) :
    (g.addEdge nid n).links = g.links.offer GraphEdge.key (edgeOf nid n) := by
  unfold addEdge links Collector.offer
  split
  · rename_i seen
    exact (if_pos (List.contains_iff_mem.mp seen)).symm
  · rename_i new
    exact (if_neg fun seen => new (List.contains_iff_mem.mpr seen)).symm

theorem vertices_addEdge (nid : String) (g : GraphBuilder) (n : Neighbor) :
    (g.addEdge nid n).vertices = g.vertices := by
  unfold addEdge
  split <;> rfl

theorem links_addEdges (nid : String) (g : GraphBuilder) (neighbors : List Neighbor) :
    (neighbors.foldl (addEdge nid) g).links =
      g.links.collect GraphEdge.key (neighbors.map (edgeOf nid)) := by
  unfold Collector.collect
  rw [List.foldl_map]
  exact (List.foldl_hom links fun g n => (links_addEdge nid g n).symm).symm

theorem vertices_addEdges (nid : String) (g : GraphBuilder) (neighbors : List Neighbor) :
    (neighbors.foldl (addEdge nid) g).vertices = g.vertices := by
  induction neighbors generalizing g with
  | nil => rfl
  | cons n rest inductionHypothesis =>
      exact (inductionHypothesis (g.addEdge nid n)).trans (vertices_addEdge nid g n)

/-- The edges that the first pass offers. -/
def edgesOf (order : List (String × NodeState)) : List GraphEdge :=
  order.flatMap fun entry => entry.2.neighbors.map (edgeOf entry.1)

/-- The vertices that the second pass offers. -/
def inferredOf (order : List (String × NodeState)) : List GraphNode :=
  order.flatMap fun entry => entry.2.neighbors.map inferredNode

theorem firstPass_links (nowMs : Nat) (order : List (String × NodeState)) (g : GraphBuilder) :
    (order.foldl (addReport nowMs) g).links =
      g.links.collect GraphEdge.key (edgesOf order) := by
  induction order generalizing g with
  | nil => rfl
  | cons entry rest inductionHypothesis =>
      rw [List.foldl_cons, inductionHypothesis]
      unfold addReport edgesOf
      rw [links_addEdges, List.flatMap_cons]
      exact List.foldl_append.symm

theorem firstPass_vertices (nowMs : Nat) (order : List (String × NodeState)) (g : GraphBuilder) :
    (order.foldl (addReport nowMs) g).nodes =
        g.nodes ++ order.map (fun entry => reportedNode nowMs entry.1 entry.2) ∧
      ∀ id, id ∈ (order.foldl (addReport nowMs) g).seenNodes ↔
        id ∈ g.seenNodes ∨ id ∈ order.map Prod.fst := by
  induction order generalizing g with
  | nil => exact ⟨(List.append_nil _).symm, fun id => (or_iff_left List.not_mem_nil).symm⟩
  | cons entry rest inductionHypothesis =>
      have here : (g.addReport nowMs entry).vertices =
          ⟨entry.1 :: g.seenNodes, g.nodes ++ [reportedNode nowMs entry.1 entry.2]⟩ :=
        vertices_addEdges entry.1 _ entry.2.neighbors
      have nodes : (g.addReport nowMs entry).nodes =
          g.nodes ++ [reportedNode nowMs entry.1 entry.2] := congrArg Collector.kept here
      have seen : (g.addReport nowMs entry).seenNodes = entry.1 :: g.seenNodes :=
        congrArg Collector.seen here
      obtain ⟨kept, known⟩ := inductionHypothesis (g.addReport nowMs entry)
      rw [List.foldl_cons]
      constructor
      · rw [kept, nodes, List.append_assoc]
        rfl
      · intro id
        rw [known, seen, List.map_cons, List.mem_cons, List.mem_cons]
        exact or_assoc.trans or_left_comm

theorem vertices_addInferred (g : GraphBuilder) (n : Neighbor) :
    (g.addInferred n).vertices = g.vertices.offer GraphNode.id (inferredNode n) := by
  unfold addInferred vertices Collector.offer
  split
  · rename_i seen
    exact (if_pos seen).symm
  · rename_i new
    exact (if_neg new).symm

theorem edges_addInferred (g : GraphBuilder) (n : Neighbor) :
    (g.addInferred n).edges = g.edges := by
  unfold addInferred
  split <;> rfl

/-- The second loop of `ToJSON`. -/
def secondPass (g : GraphBuilder) (order : List (String × NodeState)) : GraphBuilder :=
  order.foldl (fun g entry => entry.2.neighbors.foldl addInferred g) g

theorem secondPass_eq (g : GraphBuilder) (order : List (String × NodeState)) :
    g.secondPass order = (order.flatMap fun entry => entry.2.neighbors).foldl addInferred g := by
  unfold secondPass
  rw [List.foldl_flatMap]

theorem secondPass_vertices (g : GraphBuilder) (order : List (String × NodeState)) :
    (g.secondPass order).vertices = g.vertices.collect GraphNode.id (inferredOf order) := by
  unfold Collector.collect inferredOf
  rw [secondPass_eq, ← List.map_flatMap, List.foldl_map]
  exact (List.foldl_hom vertices fun g n => (vertices_addInferred g n).symm).symm

theorem secondPass_edges (g : GraphBuilder) (order : List (String × NodeState)) :
    (g.secondPass order).edges = g.edges := by
  rw [secondPass_eq]
  induction (order.flatMap fun entry => entry.2.neighbors) generalizing g with
  | nil => rfl
  | cons n rest inductionHypothesis =>
      exact (inductionHypothesis (g.addInferred n)).trans (edges_addInferred g n)

end GraphBuilder

/-! ## The graph of two orders -/

variable {nowMs : Nat} {first second : List (String × NodeState)}

/-- The edges have distinct keys, those of the links in the order of the first loop. -/
theorem toJson_edges (nowMs : Nat) (first second : List (String × NodeState)) :
    ((toJson nowMs first second).edges.map GraphEdge.key).Nodup ∧
      (∀ e ∈ (toJson nowMs first second).edges, e ∈ GraphBuilder.edgesOf first) ∧
      ∀ k, k ∈ (toJson nowMs first second).edges.map GraphEdge.key ↔
        k ∈ (GraphBuilder.edgesOf first).map GraphEdge.key := by
  have links := GraphBuilder.firstPass_links nowMs first {}
  obtain ⟨fresh, collected⟩ := Collector.collected GraphEdge.key
    (GraphBuilder.links {}) (GraphBuilder.edgesOf first)
  rw [← links] at collected
  have edges : (toJson nowMs first second).edges = fresh :=
    (GraphBuilder.secondPass_edges _ second).trans collected.kept
  rw [edges]
  refine ⟨collected.distinct, collected.fromItems, fun k => ?_⟩
  rw [collected.keys]
  exact and_iff_left List.not_mem_nil

/-- The vertices have distinct ids: the nodes of the first loop, and the neighbours that the
second loop comes upon. -/
theorem toJson_nodes (nowMs : Nat) (distinct : (first.map Prod.fst).Nodup)
    (second : List (String × NodeState)) :
    ((toJson nowMs first second).nodes.map GraphNode.id).Nodup ∧
      ∀ id, id ∈ (toJson nowMs first second).nodes.map GraphNode.id ↔
        id ∈ first.map Prod.fst ∨ id ∈ (GraphBuilder.inferredOf second).map GraphNode.id := by
  obtain ⟨reported, known⟩ := GraphBuilder.firstPass_vertices nowMs first {}
  obtain ⟨fresh, collected⟩ := Collector.collected GraphNode.id
    (first.foldl (GraphBuilder.addReport nowMs) {}).vertices (GraphBuilder.inferredOf second)
  rw [← GraphBuilder.secondPass_vertices] at collected
  have ids : (toJson nowMs first second).nodes.map GraphNode.id =
      first.map Prod.fst ++ fresh.map GraphNode.id := by
    have kept : (toJson nowMs first second).nodes = _ ++ fresh := collected.kept
    rw [kept, List.map_append]
    refine congrArg (· ++ fresh.map GraphNode.id) ?_
    change (first.foldl (GraphBuilder.addReport nowMs) {}).nodes.map GraphNode.id = _
    rw [reported, List.nil_append, List.map_map]
    rfl
  have seen : ∀ id, id ∈ (first.foldl (GraphBuilder.addReport nowMs) {}).seenNodes ↔
      id ∈ first.map Prod.fst := fun id => (known id).trans (or_iff_right List.not_mem_nil)
  rw [ids]
  constructor
  · refine List.Nodup.append distinct collected.distinct ?_
    intro id here there
    exact ((collected.keys id).mp there).2 ((seen id).mpr here)
  · intro id
    rw [List.mem_append, collected.keys]
    by_cases here : id ∈ first.map Prod.fst
    · exact iff_of_true (.inl here) (.inl here)
    · refine or_congr_right (and_iff_left fun member => here ((seen id).mp member))

/-! ## Calls -/

/-- The neighbours that a call reports for a node. -/
def TopologyCall.report (id : String) : TopologyCall → Option (List Neighbor)
  | .update nodeId (count :: rest) _ =>
      if nodeId = id then readNeighbors (count :: rest) count.toNat 0 else none
  | _ => none

/-- A call that makes a node known: a report, or a heap snapshot of twenty bytes. -/
def TopologyCall.Names (id : String) : TopologyCall → Prop
  | .update nodeId payload _ => nodeId = id ∧ payload ≠ []
  | .updateHeap nodeId payload _ => nodeId = id ∧ 20 ≤ payload.length

/-- The neighbours of the latest report of a node. -/
def latestReport (made : List TopologyCall) (id : String) : Option (List Neighbor) :=
  made.reverse.findSome? (TopologyCall.report id)

/-- A node that has reported its neighbours or its heap. -/
def Reporting (made : List TopologyCall) (id : String) : Prop := ∃ call ∈ made, call.Names id

/-- The latest report of `a` lists `b`. -/
def Lists (made : List TopologyCall) (a b : String) : Prop :=
  ∃ neighbors, latestReport made a = some neighbors ∧ ∃ n ∈ neighbors, n.addr = b

/-- The graph has the vertices and edges that the calls name, each once. -/
structure TopologyGraph.WellFormed (made : List TopologyCall) (graph : TopologyGraph) : Prop where
  nodesDistinct : (graph.nodes.map GraphNode.id).Nodup
  edgesDistinct : (graph.edges.map GraphEdge.ends).Nodup
  ends : ∀ e ∈ graph.edges, e.source ∈ graph.nodes.map GraphNode.id ∧
    e.target ∈ graph.nodes.map GraphNode.id
  nodes : ∀ id, id ∈ graph.nodes.map GraphNode.id ↔
    Reporting made id ∨ ∃ reporter, Lists made reporter id
  edges : ∀ a b, s(a, b) ∈ graph.edges.map GraphEdge.ends ↔ Lists made a b ∨ Lists made b a

namespace Aggregator

variable {a after : Aggregator} {made : List TopologyCall}

/-- The map holds the reporting nodes, each with the neighbours of its latest report. -/
structure Holds (a : Aggregator) (made : List TopologyCall) : Prop where
  known : ∀ id, (a.nodes id).isSome ↔ Reporting made id
  neighbors : ∀ id state, a.nodes id = some state →
    state.neighbors = (latestReport made id).getD []

theorem reporting_concat (made : List TopologyCall) (call : TopologyCall) (id : String) :
    Reporting (made ++ [call]) id ↔ Reporting made id ∨ call.Names id := by
  unfold Reporting
  simp only [List.mem_append, List.mem_singleton]
  constructor
  · rintro ⟨other, member | rfl, names⟩
    · exact .inl ⟨other, member, names⟩
    · exact .inr names
  · rintro (⟨other, member, names⟩ | names)
    · exact ⟨other, .inl member, names⟩
    · exact ⟨call, .inr rfl, names⟩

theorem latestReport_concat (made : List TopologyCall) (call : TopologyCall) (id : String) :
    latestReport (made ++ [call]) id = (call.report id).or (latestReport made id) := by
  unfold latestReport
  rw [List.reverse_append, List.reverse_singleton, List.singleton_append, List.findSome?_cons]
  cases call.report id <;> rfl

theorem names_of_report {call : TopologyCall} {id : String} {neighbors : List Neighbor}
    (reports : call.report id = some neighbors) : call.Names id := by
  unfold TopologyCall.report at reports
  split at reports
  · split at reports
    · rename_i own
      exact ⟨own, List.cons_ne_nil _ _⟩
    · cases reports
  · cases reports

theorem reporting_of_latestReport {id : String} {neighbors : List Neighbor}
    (latest : latestReport made id = some neighbors) : Reporting made id := by
  obtain ⟨call, member, reports⟩ := List.exists_of_findSome?_eq_some latest
  exact ⟨call, List.mem_reverse.mp member, names_of_report reports⟩

theorem reporting_of_lists {reporter neighbor : String} (lists : Lists made reporter neighbor) :
    Reporting made reporter := by
  obtain ⟨neighbors, latest, _⟩ := lists
  exact reporting_of_latestReport latest

/-- A call that gives its node a state. -/
theorem Holds.store (holds : a.Holds made) {call : TopologyCall} {nodeId : String}
    {state : NodeState} (names : ∀ id, call.Names id ↔ id = nodeId)
    (others : ∀ id, id ≠ nodeId → call.report id = none)
    (own : state.neighbors = ((call.report nodeId).or (latestReport made nodeId)).getD []) :
    Holds { nodes := Function.update a.nodes nodeId (some state) } (made ++ [call]) := by
  have here : Function.update a.nodes nodeId (some state) nodeId = some state :=
    Function.update_self ..
  have elsewhere : ∀ id, id ≠ nodeId →
      Function.update a.nodes nodeId (some state) id = a.nodes id :=
    fun id other => Function.update_of_ne other ..
  constructor
  · intro id
    change (Function.update a.nodes nodeId (some state) id).isSome ↔ _
    rw [reporting_concat, names]
    by_cases same : id = nodeId
    · rw [same, here]
      exact iff_of_true rfl (.inr rfl)
    · rw [elsewhere id same, holds.known]
      exact (or_iff_left same).symm
  · intro id stored isStored
    rw [latestReport_concat]
    by_cases same : id = nodeId
    · rw [same] at isStored ⊢
      cases here.symm.trans isStored
      exact own
    · rw [others id same, Option.none_or]
      exact holds.neighbors id stored ((elsewhere id same).symm.trans isStored)

/-- A call that makes nobody known. -/
theorem Holds.ignore (holds : a.Holds made) {call : TopologyCall}
    (names : ∀ id, ¬ call.Names id) : a.Holds (made ++ [call]) := by
  have silent : ∀ id, call.report id = none := fun id =>
    Option.eq_none_iff_forall_ne_some.mpr fun _ reports => names id (names_of_report reports)
  constructor
  · intro id
    rw [reporting_concat, holds.known]
    exact (or_iff_left (names id)).symm
  · intro id state isStored
    rw [latestReport_concat, silent, Option.none_or]
    exact holds.neighbors id state isStored

/-- `Update` stores the neighbours, and keeps the node's heap. -/
theorem Holds.update (holds : a.Holds made) (nodeId : String) (payload : List UInt8)
    (nowMs : Nat) : ∃ after, a.update nodeId payload nowMs = some after ∧
      after.Holds (made ++ [.update nodeId payload nowMs]) := by
  cases payload with
  | nil => exact ⟨a, rfl, holds.ignore fun id names => names.2 rfl⟩
  | cons count rest =>
      have inside : 1 + 0 * 7 ≤ (count :: rest).length := Nat.le_add_left 1 rest.length
      obtain ⟨neighbors, read, _⟩ := readNeighbors_spec (count :: rest) count.toNat 0 inside
      unfold Aggregator.update
      dsimp only
      rw [read]
      refine ⟨_, rfl, holds.store ?_ ?_ ?_⟩
      · intro id
        exact (and_iff_left (List.cons_ne_nil _ _)).trans eq_comm
      · intro id other
        exact if_neg (Ne.symm other)
      · have reports : (TopologyCall.update nodeId (count :: rest) nowMs).report nodeId =
            some neighbors := (if_pos rfl).trans read
        rw [reports]
        rfl

/-- `UpdateHeap` leaves the neighbours of a known node alone, and gives a new one none. -/
theorem Holds.updateHeap (holds : a.Holds made) (nodeId : String) (payload : List UInt8)
    (nowMs : Nat) :
    (a.updateHeap nodeId payload nowMs).Holds (made ++ [.updateHeap nodeId payload nowMs]) := by
  unfold Aggregator.updateHeap
  split
  · rename_i short
    exact holds.ignore fun id names => absurd names.2 (Nat.not_le.mpr short)
  · rename_i long
    refine holds.store ?_ (fun id _ => rfl) ?_
    · intro id
      exact (and_iff_left (Nat.not_lt.mp long)).trans eq_comm
    · change _ = (latestReport made nodeId).getD []
      cases known : a.nodes nodeId with
      | some state => exact holds.neighbors nodeId state known
      | none =>
          have silent : latestReport made nodeId = none := by
            refine Option.eq_none_iff_forall_ne_some.mpr fun _ latest => ?_
            have isKnown := (holds.known nodeId).mpr (reporting_of_latestReport latest)
            rw [known] at isKnown
            cases isKnown
          rw [silent]
          rfl

theorem Holds.call (holds : a.Holds made) (call : TopologyCall) :
    ∃ after, a.call call = some after ∧ after.Holds (made ++ [call]) := by
  cases call with
  | update nodeId payload nowMs => exact holds.update nodeId payload nowMs
  | updateHeap nodeId payload nowMs => exact ⟨_, rfl, holds.updateHeap nodeId payload nowMs⟩

theorem holds_calls (made : List TopologyCall) :
    ∃ a, Aggregator.calls {} made = some a ∧ a.Holds made := by
  induction made using List.reverseRecOn with
  | nil =>
      refine ⟨{}, rfl, fun id => ?_, fun id state none => by cases none⟩
      simp [Reporting]
  | append_singleton made call inductionHypothesis =>
      obtain ⟨a, ran, holds⟩ := inductionHypothesis
      obtain ⟨after, called, holdsAfter⟩ := holds.call call
      refine ⟨after, ?_, holdsAfter⟩
      unfold calls at ran ⊢
      rw [List.foldlM_append, ran]
      exact (Option.bind_some a _).trans (by simp [called])

/-- The neighbours of the entries are those of the latest reports. -/
theorem Holds.lists_iff (holds : a.Holds made) {order : List (String × NodeState)}
    (visits : a.Visits order) (reporter neighbor : String) :
    Lists made reporter neighbor ↔
      ∃ state, (reporter, state) ∈ order ∧ ∃ n ∈ state.neighbors, n.addr = neighbor := by
  constructor
  · rintro ⟨neighbors, latest, n, member, address⟩
    have known := (holds.known reporter).mpr (reporting_of_latestReport latest)
    obtain ⟨state, isStored⟩ := Option.isSome_iff_exists.mp known
    refine ⟨state, (visits.entries reporter state).mpr isStored, n, ?_, address⟩
    rw [holds.neighbors reporter state isStored, latest]
    exact member
  · rintro ⟨state, member, n, inside, address⟩
    have isStored := (visits.entries reporter state).mp member
    rw [holds.neighbors reporter state isStored] at inside
    cases latest : latestReport made reporter with
    | none =>
        rw [latest] at inside
        cases inside
    | some neighbors =>
        rw [latest] at inside
        exact ⟨neighbors, latest, n, inside, address⟩

theorem Holds.reporting_iff (holds : a.Holds made) {order : List (String × NodeState)}
    (visits : a.Visits order) (id : String) : id ∈ order.map Prod.fst ↔ Reporting made id := by
  rw [← holds.known, Option.isSome_iff_exists, List.mem_map]
  constructor
  · rintro ⟨entry, member, rfl⟩
    exact ⟨entry.2, (visits.entries entry.1 entry.2).mp member⟩
  · rintro ⟨state, isStored⟩
    exact ⟨(id, state), (visits.entries id state).mpr isStored, rfl⟩

theorem Holds.inferred_iff (holds : a.Holds made) {order : List (String × NodeState)}
    (visits : a.Visits order) (id : String) :
    id ∈ (GraphBuilder.inferredOf order).map GraphNode.id ↔
      ∃ reporter, Lists made reporter id := by
  unfold GraphBuilder.inferredOf
  simp only [List.mem_map, List.mem_flatMap, holds.lists_iff visits]
  constructor
  · rintro ⟨_, ⟨entry, member, n, inside, rfl⟩, rfl⟩
    exact ⟨entry.1, entry.2, member, n, inside, rfl⟩
  · rintro ⟨reporter, state, member, n, inside, rfl⟩
    exact ⟨_, ⟨(reporter, state), member, n, inside, rfl⟩, rfl⟩

/-- An edge that the first loop offers is a neighbour in a report. -/
theorem Holds.edges_iff (holds : a.Holds made) {order : List (String × NodeState)}
    (visits : a.Visits order) (reporter neighbor : String) :
    (∃ e ∈ GraphBuilder.edgesOf order, e.source = reporter ∧ e.target = neighbor) ↔
      Lists made reporter neighbor := by
  unfold GraphBuilder.edgesOf
  simp only [List.mem_flatMap, List.mem_map, holds.lists_iff visits]
  constructor
  · rintro ⟨_, ⟨entry, member, n, inside, rfl⟩, rfl, rfl⟩
    exact ⟨entry.2, member, n, inside, rfl⟩
  · rintro ⟨state, member, n, inside, rfl⟩
    exact ⟨_, ⟨(reporter, state), member, n, inside, rfl⟩, rfl, rfl⟩

theorem Holds.wellFormed (holds : a.Holds made) {first second : List (String × NodeState)}
    (visitsFirst : a.Visits first) (visitsSecond : a.Visits second) (nowMs : Nat) :
    (toJson nowMs first second).WellFormed made := by
  obtain ⟨edgeKeys, offered, keys⟩ := toJson_edges nowMs first second
  obtain ⟨nodeIds, ids⟩ := toJson_nodes nowMs visitsFirst.distinct second
  have nodes : ∀ id, id ∈ (toJson nowMs first second).nodes.map GraphNode.id ↔
      Reporting made id ∨ ∃ reporter, Lists made reporter id := by
    intro id
    rw [ids, holds.reporting_iff visitsFirst, holds.inferred_iff visitsSecond]
  refine ⟨nodeIds, ?_, ?_, nodes, ?_⟩
  · rw [List.Nodup, List.pairwise_map] at edgeKeys ⊢
    exact edgeKeys.imp fun differ same => differ (GraphEdge.key_eq_iff.mpr same)
  · intro e member
    have lists := (holds.edges_iff visitsFirst e.source e.target).mp ⟨e, offered e member, rfl, rfl⟩
    exact ⟨(nodes e.source).mpr (.inl (reporting_of_lists lists)),
      (nodes e.target).mpr (.inr ⟨e.source, lists⟩)⟩
  · intro x y
    rw [GraphEdge.mem_ends_iff, keys, ← GraphEdge.mem_ends_iff, List.mem_map,
      ← holds.edges_iff visitsFirst, ← holds.edges_iff visitsFirst]
    unfold GraphEdge.ends
    simp only [Sym2.eq_iff, and_or_left, exists_or]

/-- The node whose map entry a call sets. -/
def TopologyCall.node : TopologyCall → String
  | .update nodeId _ _ => nodeId
  | .updateHeap nodeId _ _ => nodeId

theorem node_of_names {call : TopologyCall} {id : String} (names : call.Names id) :
    TopologyCall.node call = id := by
  cases call <;> exact names.1

/-- The map is finite, so that a loop can visit it. -/
theorem Holds.exists_visits (holds : a.Holds made) : ∃ order, a.Visits order := by
  have ids : ∀ id, (a.nodes id).isSome → id ∈ (made.map TopologyCall.node).dedup := by
    intro id isKnown
    obtain ⟨call, member, names⟩ := (holds.known id).mp isKnown
    exact List.mem_dedup.mpr (List.mem_map.mpr ⟨call, member, node_of_names names⟩)
  refine ⟨((made.map TopologyCall.node).dedup.filter fun id => (a.nodes id).isSome).map fun id =>
    (id, (a.nodes id).getD { lastSeenMs := 0 }), ?_, ?_⟩
  · rw [List.map_map]
    refine (List.map_id _).symm ▸ ?_
    exact (List.nodup_dedup _).filter _
  · intro id state
    simp only [List.mem_map, List.mem_filter, Prod.mk.injEq]
    constructor
    · rintro ⟨_, ⟨_, isKnown⟩, rfl, rfl⟩
      obtain ⟨state, isStored⟩ := Option.isSome_iff_exists.mp isKnown
      rw [isStored]
      rfl
    · intro isStored
      have isKnown : (a.nodes id).isSome = true := Option.isSome_iff_exists.mpr ⟨state, isStored⟩
      exact ⟨id, ⟨ids id isKnown, isKnown⟩, rfl, by rw [isStored]; rfl⟩

end Aggregator

/-- For every sequence of calls with any payloads, and in whatever orders the two loops visit the
map: distinct vertices, one edge for each unordered pair, no edge without its two vertices, and
exactly the vertices and edges that the nodes' latest reports name. -/
theorem topology_graph_wellFormed (made : List TopologyCall) :
    ∃ a, Aggregator.calls {} made = some a ∧ (∃ order, a.Visits order) ∧
      ∀ first second, a.Visits first → a.Visits second → ∀ nowMs,
        (toJson nowMs first second).WellFormed made := by
  obtain ⟨a, ran, holds⟩ := Aggregator.holds_calls made
  exact ⟨a, ran, holds.exists_visits, fun first second visitsFirst visitsSecond nowMs =>
    holds.wellFormed visitsFirst visitsSecond nowMs⟩

/-- Node 0001 lists itself and node 0002 twice, node 0002 lists node 0001, and node 0003 has sent
its heap only. -/
def meshReports : List TopologyCall :=
  [.update "0001" [3, 1, 0, 0, 0, 0, 0, 0, 2, 0, 0, 1, 2, 1, 0, 2, 0, 0, 1, 2, 2, 0] 1000,
    .updateHeap "0003" (List.replicate 20 0) 2000,
    .update "0002" [1, 1, 0, 0, 1, 3, 1, 0] 3000]

theorem topology_graph_wellFormed_mesh : ∃ a order,
    Aggregator.calls {} meshReports = some a ∧ a.Visits order ∧
      (toJson 3000 order order).WellFormed meshReports := by
  obtain ⟨a, ran, ⟨order, visits⟩, shaped⟩ := topology_graph_wellFormed meshReports
  exact ⟨a, order, ran, visits, shaped order order visits visits 3000⟩

end ForestLink.Cloud
