import Mathlib.Data.List.Forall2
import WorkflowStudio.Checks.Consistency
import WorkflowStudio.Document.Export

/-!
Exported documents. The document of a graph has the nodes of the flow and the edges between them
in their order, and it is entered at the first start node. Whatever else may be wrong with the
graph, its document is consistent as soon as it has a name and a node.
-/
namespace WorkflowStudio

/-! Documents without findings. -/

namespace Document

/-- A document whose entry point and edges refer to nodes that it holds. -/
structure Consistent (d : Document) : Prop where
  name_ne : d.name ≠ ""
  entryPoint_ne : d.entryPoint ≠ ""
  entryPoint_mem : d.entryPoint ∈ d.nodes.map (·.id)
  edges : ∀ e ∈ d.edges, e.source ∈ d.nodes.map (·.id) ∧ e.target ∈ d.nodes.map (·.id)

theorem missingNodesFrom_eq_nil {ids : List String} {edges : List DocumentEdge} {index : Nat} :
    missingNodesFrom ids index edges = [] ↔ ∀ e ∈ edges, e.source ∈ ids ∧ e.target ∈ ids := by
  induction edges generalizing index with
  | nil => simp [missingNodesFrom]
  | cons e rest ih => simp [missingNodesFrom, ih, and_assoc]

theorem errors_eq_nil_iff (d : Document) : d.errors = [] ↔ d.Consistent := by
  unfold errors
  simp only [List.append_eq_nil_iff, missingNodesFrom_eq_nil]
  constructor
  · rintro ⟨⟨⟨⟨hname, hentry⟩, -⟩, hmem⟩, hedges⟩
    have hne : d.entryPoint ≠ "" := by
      intro hempty
      simp [hempty] at hentry
    refine ⟨?_, hne, ?_, hedges⟩
    · intro hempty
      simp [hempty] at hname
    · by_contra hmissing
      simp [hne, hmissing] at hmem
  · intro h
    have hnodes : d.nodes ≠ [] := by
      intro hnone
      have hmem := h.entryPoint_mem
      simp [hnone] at hmem
    refine ⟨⟨⟨⟨?_, ?_⟩, ?_⟩, ?_⟩, h.edges⟩
    · simp [h.name_ne]
    · simp [h.entryPoint_ne]
    · simp [hnodes]
    · have hmem := h.entryPoint_mem
      simp [hmem]

theorem valid_check_iff (d : Document) : d.check.valid = true ↔ d.Consistent := by
  rw [← errors_eq_nil_iff]
  exact List.isEmpty_iff

end Document

/-! What is exported. -/

/-- A node of a document tells what a node of a graph is. -/
structure DocumentNode.Tells (d : DocumentNode) (n : Node) : Prop where
  id : d.id = n.id
  type : d.type = n.nodeType.text
  name : d.name = if n.data.label = "" then n.id else n.data.label
  config : d.config = n.config

/-- An edge of a document tells what an edge of a graph joins, and when it is taken. -/
structure DocumentEdge.Tells (d : DocumentEdge) (e : Edge) : Prop where
  source : d.source = e.source
  target : d.target = e.target
  labelled : ∀ label, e.label = some label → label ≠ "" → d.condition = some label
  unlabelled : e.label.getD "" = "" → d.condition = e.condition

theorem Node.tells_toDocument (n : Node) : n.toDocument.Tells n := by
  refine ⟨rfl, rfl, ?_, rfl⟩
  by_cases hlabel : n.data.label = ""
  · simp [Node.toDocument, Node.displayName, hlabel]
  · simp [Node.toDocument, Node.displayName, hlabel]

theorem Edge.tells_toDocument (e : Edge) : e.toDocument.Tells e := by
  refine ⟨rfl, rfl, ?_, ?_⟩
  · intro label hlabel hne
    simp [Edge.toDocument, Edge.guardText, hlabel, hne]
  · intro hempty
    cases hlabel : e.label with
    | none => simp [Edge.toDocument, Edge.guardText, hlabel]
    | some label =>
      have hnone : label = "" := by simpa [hlabel] using hempty
      simp [Edge.toDocument, Edge.guardText, hlabel, hnone]

namespace Graph

/-- Where a flow is entered: at its first start node, else at its first node, and else under a
name that no node needs to have. -/
inductive EntersAt : List Node → String → Prop where
  | start {before after : List Node} {n : Node} (hbefore : ∀ m ∈ before, m.nodeType ≠ .start)
      (hn : n.nodeType = .start) : EntersAt (before ++ n :: after) n.id
  | first {rest : List Node} {n : Node} (hnone : ∀ m ∈ n :: rest, m.nodeType ≠ .start) :
      EntersAt (n :: rest) n.id
  | empty : EntersAt [] "start"

theorem entersAt_entryPoint (flow : List Node) : EntersAt flow (entryPoint flow) := by
  cases hstart : flow.find? (·.nodeType == .start) with
  | some n =>
    obtain ⟨hn, before, after, rfl, hbefore⟩ := List.find?_eq_some_iff_append.mp hstart
    have hentry : entryPoint (before ++ n :: after) = n.id := by
      unfold entryPoint
      rw [hstart]
    rw [hentry]
    exact .start (fun m hm => by simpa using hbefore m hm) (by simpa using hn)
  | none =>
    have hnone : ∀ m ∈ flow, m.nodeType ≠ .start := by simpa using hstart
    cases flow with
    | nil => exact .empty
    | cons n rest =>
      have hentry : entryPoint (n :: rest) = n.id := by
        unfold entryPoint
        rw [hstart]
        rfl
      rw [hentry]
      exact .first hnone

theorem EntersAt.mem {flow : List Node} {id : String} (h : EntersAt flow id) (hne : flow ≠ []) :
    id ∈ flow.map (·.id) := by
  cases h with
  | start => simp
  | first => simp
  | empty => exact absurd rfl hne

/-- Whether an edge joins two nodes of the flow. -/
def JoinsFlow (g : Graph) (e : Edge) : Prop :=
  (∃ n ∈ g.nodes, n.nodeType ≠ .appInfo ∧ n.id = e.source) ∧
    ∃ n ∈ g.nodes, n.nodeType ≠ .appInfo ∧ n.id = e.target

instance (g : Graph) : DecidablePred g.JoinsFlow := fun _ => inferInstanceAs (Decidable (_ ∧ _))

theorem flowNodes_eq (g : Graph) : g.flowNodes = g.nodes.filter (·.nodeType ≠ .appInfo) := by
  refine List.filter_congr fun n _ => ?_
  by_cases happ : n.nodeType = .appInfo
  · simp [Node.isAppInfo, happ]
  · simp [Node.isAppInfo, happ]

theorem mem_ids_flowNodes {g : Graph} {id : String} : id ∈ g.flowNodes.map (·.id) ↔
    ∃ n ∈ g.nodes, n.nodeType ≠ .appInfo ∧ n.id = id := by
  simp [flowNodes_eq, and_assoc]

theorem flowEdges_eq (g : Graph) :
    g.flowEdges = g.edges.filter fun e => decide (g.JoinsFlow e) := by
  refine List.filter_congr fun e _ => ?_
  rw [Bool.eq_iff_iff, Bool.and_eq_true, List.contains_iff_mem, List.contains_iff_mem,
    mem_ids_flowNodes, mem_ids_flowNodes, decide_eq_true_eq, JoinsFlow]

theorem ids_toDocument (g : Graph) (heading : Heading) :
    (g.toDocument heading).nodes.map (·.id) = g.flowNodes.map (·.id) := by
  change (g.flowNodes.map Node.toDocument).map (·.id) = _
  rw [List.map_map]
  rfl

theorem consistent_toDocument_iff {g : Graph} (hids : ∀ n ∈ g.nodes, n.id ≠ "")
    (heading : Heading) :
    (g.toDocument heading).Consistent ↔ heading.name ≠ "" ∧ g.flowNodes ≠ [] := by
  constructor
  · intro h
    refine ⟨h.name_ne, ?_⟩
    intro hnone
    have hmem := h.entryPoint_mem
    simp [ids_toDocument, hnone] at hmem
  · rintro ⟨hname, hflow⟩
    have hentry : (g.toDocument heading).entryPoint ∈ g.flowNodes.map (·.id) :=
      (entersAt_entryPoint g.flowNodes).mem hflow
    refine ⟨hname, ?_, ?_, ?_⟩
    · obtain ⟨n, hn, -, hid⟩ := mem_ids_flowNodes.mp hentry
      rw [← hid]
      exact hids n hn
    · rw [ids_toDocument]
      exact hentry
    · intro e he
      obtain ⟨edge, hedge, rfl⟩ := List.mem_map.mp he
      rw [flowEdges_eq] at hedge
      have hjoins : g.JoinsFlow edge := by simpa using (List.mem_filter.mp hedge).2
      rw [ids_toDocument, mem_ids_flowNodes, mem_ids_flowNodes]
      exact hjoins

/-- The document of a graph tells the nodes of the flow and the edges that join two of them, each
in their order, and where the flow is entered. It passes its own checks exactly when it has a name
and the graph has a node of the flow. -/
theorem exported_flow {g : Graph} (hids : ∀ n ∈ g.nodes, n.id ≠ "") (heading : Heading) :
    List.Forall₂ DocumentNode.Tells (g.toDocument heading).nodes
        (g.nodes.filter (·.nodeType ≠ .appInfo)) ∧
      List.Forall₂ DocumentEdge.Tells (g.toDocument heading).edges
        (g.edges.filter fun e => decide (g.JoinsFlow e)) ∧
      EntersAt (g.nodes.filter (·.nodeType ≠ .appInfo)) (g.toDocument heading).entryPoint ∧
      ((g.toDocument heading).check.valid = true ↔
        heading.name ≠ "" ∧ ∃ n ∈ g.nodes, n.nodeType ≠ .appInfo) := by
  rw [← flowNodes_eq, ← flowEdges_eq]
  refine ⟨?_, ?_, entersAt_entryPoint g.flowNodes, ?_⟩
  · change List.Forall₂ _ (g.flowNodes.map Node.toDocument) g.flowNodes
    rw [List.forall₂_map_left_iff, List.forall₂_same]
    exact fun n _ => n.tells_toDocument
  · change List.Forall₂ _ (g.flowEdges.map Edge.toDocument) g.flowEdges
    rw [List.forall₂_map_left_iff, List.forall₂_same]
    exact fun e _ => e.tells_toDocument
  · rw [Document.valid_check_iff, consistent_toDocument_iff hids, flowNodes_eq]
    simp [List.filter_eq_nil_iff]

/-! Two start nodes under one id beside an application node, with edges that lead nowhere. -/

def tangledGraph : Graph where
  nodes := [⟨"i", "custom", .origin, ⟨some "i", .appInfo, "", [], .idle, [], [], [], []⟩, []⟩,
    ⟨"a", "custom", .origin, ⟨some "a", .llmChat, "Chat", [], .idle, [], [], [], []⟩, []⟩,
    ⟨"s", "custom", .origin, ⟨some "s", .start, "", [], .idle, [], [], [], []⟩, []⟩,
    ⟨"s", "custom", .origin, ⟨some "s", .start, "", [], .idle, [], [], [], []⟩, []⟩]
  edges := [⟨edgeId "i" none "a", "i", "a", none, none, none, none, []⟩,
    ⟨edgeId "s" none "a", "s", "a", none, none, some "yes", some "x == 1", []⟩,
    ⟨edgeId "a" none "gone", "a", "gone", none, none, none, none, []⟩]

theorem exported_flow_tangledGraph : (∀ n ∈ tangledGraph.nodes, n.id ≠ "") ∧
    (tangledGraph.toDocument ⟨none, "w"⟩).check.valid = true ∧
      (tangledGraph.toDocument ⟨none, ""⟩).check.valid = false := by
  have hids : ∀ n ∈ tangledGraph.nodes, n.id ≠ "" := by decide
  refine ⟨hids, ?_, ?_⟩
  · exact (exported_flow hids ⟨none, "w"⟩).2.2.2.mpr ⟨by decide, by decide⟩
  · rw [← Bool.not_eq_true, (exported_flow hids ⟨none, ""⟩).2.2.2]
    exact fun h => h.1 rfl

end Graph
end WorkflowStudio
