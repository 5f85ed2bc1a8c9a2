import WorkflowStudio.Proofs.GraphStructure
import WorkflowStudio.Proofs.GridCells
import WorkflowStudio.Proofs.GuardRecovery
import WorkflowStudio.Proofs.ReferenceText
import WorkflowStudio.Proofs.SoundRecords

/-!
A graph is rebuilt from its document. The nodes come back in their order with all that a
document says about them, so that every edge finds a source of the same kind and settings,
and with it its handle, its guard and its id. Distinct ids let every edge be kept.
-/
namespace WorkflowStudio

/-! Nodes. -/

namespace DocumentNode

variable {n : DocumentNode}

/-- The spelling of a kind is read as this kind. -/
theorem nodeType_of_type_eq {type : NodeType} (h : n.type = Vocabulary.spelling type) :
    n.nodeType = type := by
  rw [nodeType, h, nodeType_find?_spelling, Option.getD_some]

/-- An id that a node can have: it is not empty, and it holds whole characters only. -/
def Identified (n : DocumentNode) : Prop := n.id ≠ "" ∧ Text.Whole n.id

instance (n : DocumentNode) : Decidable n.Identified :=
  inferInstanceAs (Decidable (n.id ≠ "" ∧ Text.Whole n.id))

theorem Identified.checkId (h : n.Identified) : Node.checkId n.id = .ok n.id :=
  Node.checkId_eq_ok_iff.mpr ⟨h.1, h.2, rfl⟩

theorem identified_of_toNode {position : Position} {node : Node}
    (h : n.toNode position = .ok node) : n.Identified := by
  obtain ⟨_, hid, -⟩ := Except.bind_eq_ok.mp h
  obtain ⟨hne, hwhole, -⟩ := Node.checkId_eq_ok_iff.mp hid
  exact ⟨hne, hwhole⟩

end DocumentNode

namespace Node

/-- What a document says about a node. -/
def content (n : Node) : String × NodeType × String × Fields × List ParamBinding :=
  (n.id, n.nodeType, n.data.label, n.config, n.data.bindings)

/-- A node that a document can describe. In a node that was read the id is never empty, and it holds
whole characters only. -/
structure Describable (n : Node) : Prop where
  flows : n.nodeType ≠ .appInfo
  id_ne : n.id ≠ ""
  id_whole : Text.Whole n.id
  label_ne : n.data.label ≠ ""
  inputs_nodup : (n.data.bindings.map (·.paramKey)).Nodup
  referable : ∀ b ∈ n.data.bindings, b.Referable

theorem nodeType_toDocument (n : Node) : n.toDocument.nodeType = n.nodeType :=
  DocumentNode.nodeType_of_type_eq rfl

theorem toNode_toDocument {n : Node} (h : n.Describable) (position : Position) :
    ∃ restored, n.toDocument.toNode position = .ok restored ∧ restored.content = n.content := by
  have hid : n.toDocument.Identified := ⟨h.id_ne, h.id_whole⟩
  have hname : n.displayName = n.data.label :=
    if_neg fun hempty => h.label_ne (String.isEmpty_iff.mp hempty)
  refine ⟨_, Except.bind_eq_ok.mpr ⟨n.id, hid.checkId, rfl⟩, ?_⟩
  change (n.id, n.toDocument.nodeType, n.displayName, n.config,
    recoverBindings (renderInputs n.data.bindings)) = n.content
  rw [nodeType_toDocument, hname, recoverBindings_renderInputs h.inputs_nodup h.referable]
  rfl

/-- Nodes of the same kind and settings have the same guards and handles. -/
theorem alike_of_content_eq {n m : Node} (h : m.content = n.content) : n.Alike m :=
  .of_config_eq (congrArg (·.1) h) (congrArg (·.2.1) h) (congrArg (·.2.2.2.1) h)

theorem recoverHandle_of_config_eq {n m : Node} (htype : m.nodeType = n.nodeType)
    (hconfig : m.config = n.config) (condition : Option String) :
    Guard.recoverHandle (some m) condition = Guard.recoverHandle (some n) condition := by
  cases condition with
  | none => rfl
  | some condition => simp only [Guard.recoverHandle, Guard.intentConfig?, htype, hconfig]

theorem recoverHandle_of_content_eq {n m : Node} (h : m.content = n.content)
    (condition : Option String) :
    Guard.recoverHandle (some m) condition = Guard.recoverHandle (some n) condition :=
  recoverHandle_of_config_eq (congrArg (·.2.1) h) (congrArg (·.2.2.2.1) h) condition

end Node

namespace Document

/-- Nodes are rebuilt one after the other, each in its cell. What one of them says after it was
rebuilt does not depend on its cell. -/
theorem nodesFrom_map {α γ : Type} {shown : α → DocumentNode} {said : Node → γ} {expected : α → γ}
    {grid : Grid} {total : Nat} (hgrid : grid.LaysOut total) (items : List α)
    (h : ∀ item ∈ items, ∀ position, ∃ node, (shown item).toNode position = .ok node ∧
      said node = expected item) (index : Nat) (hindex : index + items.length ≤ total) :
    ∃ nodes, nodesFrom grid total index (items.map shown) = .ok nodes ∧
      nodes.map said = items.map expected := by
  induction items generalizing index with
  | nil => exact ⟨[], rfl, rfl⟩
  | cons item rest ih =>
    rw [List.length_cons] at hindex
    obtain ⟨hitem, hrest⟩ := List.forall_mem_cons.mp h
    obtain ⟨position, hposition⟩ := hgrid index (by omega)
    obtain ⟨first, hfirst, hsaid⟩ := hitem position
    obtain ⟨others, hothers, hsaids⟩ := ih hrest (index + 1) (by omega)
    refine ⟨first :: others, ?_, ?_⟩
    · exact Except.bind_eq_ok.mpr ⟨position, hposition, Except.bind_eq_ok.mpr ⟨first, hfirst,
        Except.bind_eq_ok.mpr ⟨others, hothers, rfl⟩⟩⟩
    · rw [List.map_cons, List.map_cons, hsaid, hsaids]

theorem nodesFrom_toDocument {grid : Grid} {total : Nat} (hgrid : grid.LaysOut total)
    (nodes : List Node) (h : ∀ node ∈ nodes, node.Describable) (index : Nat)
    (hindex : index + nodes.length ≤ total) :
    ∃ restored, nodesFrom grid total index (nodes.map Node.toDocument) = .ok restored ∧
      restored.map Node.content = nodes.map Node.content :=
  nodesFrom_map hgrid nodes (fun node hnode => Node.toNode_toDocument (h node hnode)) index hindex

end Document

/-! Edges. -/

namespace Edge

/-- An edge without the fields that a document does not know. -/
def plain (edge : Edge) : Edge := { edge with extras := [] }

/-- An edge between two nodes that its guard determines. -/
structure Recoverable (nodes : List Node) (edge : Edge) : Prop where
  joined : ∃ source ∈ nodes, source.id = edge.source ∧
    Guard.derive source edge.sourceHandle = .ok edge.condition ∧
    Guard.Traceable source edge.sourceHandle
  target_mem : edge.target ∈ nodes.map (·.id)
  label_eq : edge.label = none
  targetHandle_eq : edge.targetHandle = none
  id_eq : edge.id = edgeId edge.source edge.sourceHandle edge.target

theorem Recoverable.guardText {nodes : List Node} {edge : Edge} (h : edge.Recoverable nodes) :
    edge.guardText = edge.condition := by
  rw [Edge.guardText, h.label_eq]

end Edge

namespace Graph

theorem lastNode?_of_mem {nodes : List Node} (hids : (nodes.map (·.id)).Nodup) {node : Node}
    (h : node ∈ nodes) : lastNode? nodes node.id = some node := by
  cases hfound : lastNode? nodes node.id with
  | none =>
    have hmissing := List.find?_eq_none.mp hfound node (List.mem_reverse.mpr h)
    exact absurd (beq_self_eq_true node.id) hmissing
  | some other =>
    obtain ⟨hmem, hid⟩ := lastNode?_eq_some hfound
    rw [eq_of_id_eq hids hmem h hid]

/-- Among nodes with the same contents an edge finds an equal source. -/
theorem lastNode?_of_contents_eq {nodes restored : List Node} (hids : (nodes.map (·.id)).Nodup)
    (h : restored.map Node.content = nodes.map Node.content) {node : Node} (hnode : node ∈ nodes) :
    ∃ found, lastNode? restored node.id = some found ∧ found.content = node.content := by
  have hidsEq : restored.map (·.id) = nodes.map (·.id) := by
    have hfirst := congrArg (List.map Prod.fst) h
    rw [List.map_map, List.map_map] at hfirst
    exact hfirst
  have hmem : node.content ∈ restored.map Node.content := by
    rw [h]
    exact List.mem_map_of_mem hnode
  obtain ⟨found, hfound, hcontent⟩ := List.mem_map.mp hmem
  have hid : found.id = node.id := congrArg Prod.fst hcontent
  exact ⟨found, hid ▸ lastNode?_of_mem (hidsEq ▸ hids) hfound, hcontent⟩

end Graph

namespace Document

/-- An edge gets back its handle from its guard, and from the handle its guard and its id. -/
theorem toEdge_toDocument {nodes restored : List Node} (hids : (nodes.map (·.id)).Nodup)
    (h : restored.map Node.content = nodes.map Node.content) {edge : Edge}
    (hedge : edge.Recoverable nodes) : toEdge restored edge.toDocument = .ok edge.plain := by
  obtain ⟨source, hsource, hid, hguard, htraceable⟩ := hedge.joined
  obtain ⟨found, hfound, hcontent⟩ := Graph.lastNode?_of_contents_eq hids h hsource
  have hhandle : Guard.recoverHandle (some found) edge.condition = edge.sourceHandle := by
    rw [Node.recoverHandle_of_content_eq hcontent]
    exact Guard.recoverHandle_of_derive htraceable hguard
  have hderived := ((Node.alike_of_content_eq hcontent).derive_eq edge.sourceHandle).trans hguard
  have hplain : edge.plain = ⟨edgeId edge.source edge.sourceHandle edge.target, edge.source,
      edge.target, edge.sourceHandle, none, none, edge.condition, []⟩ := by
    simp only [Edge.plain, ← hedge.id_eq, hedge.label_eq, hedge.targetHandle_eq]
  unfold toEdge Edge.toDocument
  dsimp only
  rw [hedge.guardText, ← hid, hfound, hhandle, hid, hplain]
  cases hsourceHandle : edge.sourceHandle with
  | none =>
    rw [hsourceHandle, Guard.derive_none] at hguard
    rw [← Except.ok.inj hguard]
    rfl
  | some handle =>
    rw [hsourceHandle] at hderived
    exact Except.bind_eq_ok.mpr ⟨edge.condition, hderived, rfl⟩

/-- Edges with distinct ids are all kept. -/
theorem toEdges_of_nodup {nodes : List Node} {rebuilt : Edge → Edge} (edges : List Edge)
    (h : ∀ edge ∈ edges, toEdge nodes edge.toDocument = .ok (rebuilt edge))
    (hid : ∀ edge, (rebuilt edge).id = edge.id) (hnodup : (edges.map (·.id)).Nodup)
    (seen : List String) (hseen : ∀ edge ∈ edges, edge.id ∉ seen) :
    toEdges nodes seen (edges.map Edge.toDocument) = .ok (edges.map rebuilt) := by
  induction edges generalizing seen with
  | nil => rfl
  | cons edge rest ih =>
    obtain ⟨hedge, hrest⟩ := List.forall_mem_cons.mp h
    obtain ⟨hnew, hunseen⟩ := List.forall_mem_cons.mp hseen
    obtain ⟨hfirst, hdistinct⟩ := List.nodup_cons.mp hnodup
    have hothers := ih hrest hdistinct (edge.id :: seen) fun other hother hmem => by
      rcases List.mem_cons.mp hmem with heq | hmem
      · exact hfirst (List.mem_map.mpr ⟨other, hother, heq⟩)
      · exact hunseen other hother hmem
    have hkept : ¬seen.contains (rebuilt edge).id = true := by simpa [hid] using hnew
    rw [← hid edge] at hothers
    exact Except.bind_eq_ok.mpr ⟨rebuilt edge, hedge,
      (if_neg hkept).trans (Except.bind_eq_ok.mpr ⟨rest.map rebuilt, hothers, rfl⟩)⟩

theorem toEdges_toDocument {nodes restored : List Node} (hids : (nodes.map (·.id)).Nodup)
    (h : restored.map Node.content = nodes.map Node.content) (edges : List Edge)
    (hedges : ∀ edge ∈ edges, edge.Recoverable nodes) (hnodup : (edges.map (·.id)).Nodup)
    (seen : List String) (hseen : ∀ edge ∈ edges, edge.id ∉ seen) :
    toEdges restored seen (edges.map Edge.toDocument) = .ok (edges.map Edge.plain) :=
  toEdges_of_nodup edges (fun edge hedge => toEdge_toDocument hids h (hedges edge hedge))
    (fun _ => rfl) hnodup seen hseen

end Document

namespace Graph

/-- A graph whose document says everything about its nodes and edges. -/
structure Portable (g : Graph) : Prop where
  ids_nodup : (g.nodes.map (·.id)).Nodup
  describable : ∀ node ∈ g.nodes, node.Describable
  edgeIds_nodup : (g.edges.map (·.id)).Nodup
  recoverable : ∀ edge ∈ g.edges, edge.Recoverable g.nodes

namespace Portable

variable {g : Graph}

theorem flowNodes_eq (h : g.Portable) : g.flowNodes = g.nodes := by
  refine List.filter_eq_self.mpr fun node hnode => ?_
  simpa [Node.isAppInfo] using (h.describable node hnode).flows

theorem flowEdges_eq (h : g.Portable) : g.flowEdges = g.edges := by
  refine List.filter_eq_self.mpr fun edge hedge => ?_
  obtain ⟨source, hsource, hid, -⟩ := (h.recoverable edge hedge).joined
  rw [h.flowNodes_eq, Bool.and_eq_true, List.contains_iff_mem, List.contains_iff_mem]
  exact ⟨hid ▸ List.mem_map_of_mem hsource, (h.recoverable edge hedge).target_mem⟩

end Portable

/-- A graph is rebuilt from its document, with the same nodes in the same order and the same
edges, on every grid that has positions for its nodes, as the standard one has for any list
that fits into memory. -/
theorem toGraph_toDocument {g : Graph} (h : g.Portable) (heading : Heading) {grid : Grid}
    (hgrid : grid.LaysOut g.nodes.length) :
    ∃ restored, (g.toDocument heading).toGraph grid = .ok restored ∧
      restored.nodes.map Node.content = g.nodes.map Node.content ∧
      restored.edges = g.edges.map Edge.plain := by
  obtain ⟨nodes, hnodes, hcontents⟩ :=
    Document.nodesFrom_toDocument hgrid g.nodes h.describable 0 (Nat.le_of_eq (Nat.zero_add _))
  have hedges := Document.toEdges_toDocument h.ids_nodup hcontents g.edges h.recoverable
    h.edgeIds_nodup [] fun _ _ => List.not_mem_nil
  refine ⟨⟨nodes, g.edges.map Edge.plain⟩, ?_, hcontents, rfl⟩
  unfold toDocument Document.toGraph
  dsimp only
  rw [h.flowNodes_eq, h.flowEdges_eq, List.length_map]
  exact Except.bind_eq_ok.mpr ⟨nodes, hnodes, Except.bind_eq_ok.mpr ⟨_, hedges, rfl⟩⟩

/-- A node at the origin that holds no more than a document says. -/
def bareNode (id : String) (type : NodeType) (config : Fields) (bindings : List ParamBinding) :
    Node :=
  ⟨id, "custom", .origin, ⟨some id, type, id, config, .idle, bindings, [], [], []⟩, []⟩

/-- An edge without a label that leaves through a handle. -/
def bareEdge (source : String) (handle : Option String) (target : String)
    (condition : Option String) : Edge :=
  ⟨edgeId source handle target, source, target, handle, none, none, condition, []⟩

def sorter : Node :=
  bareNode "sort" .intentClassifier [("intents", .arr [.str "where's it", .null, .str "refund"])]
    [⟨"text", .global, "session", some "last.question"⟩, ⟨"user", .node, "begin", some "name"⟩]

/-- Questions are sorted by what they ask for, and some of them end at once. -/
def triage : Graph where
  nodes := [bareNode "begin" .start [] [], sorter, bareNode "done" .finish [] []]
  edges :=
    [bareEdge "begin" none "sort" none,
      bareEdge "sort" (some (Guard.intentHandle 0)) "done" (some (Guard.ofIntent "where's it")),
      bareEdge "sort" (some (Guard.intentHandle 2)) "begin" (some (Guard.ofIntent "refund")),
      bareEdge "sort" (some Guard.elseHandle) "done" (some (Guard.ofIntent Guard.elseHandle))]

theorem traceable_sorter {n : Nat} {name : String}
    (h : ["where's it", "", "refund"][n]? = some name)
    (hname : name ≠ "" ∧ '\n' ∉ name.toList ∧ name ≠ Guard.elseHandle)
    (hfirst : ∀ m < n, ["where's it", "", "refund"][m]? ≠ some name) :
    Guard.Traceable sorter (some (Guard.intentHandle n)) :=
  Or.inr ⟨rfl, Or.inr ⟨n, rfl, ⟨none, ["where's it", "", "refund"], []⟩, name, rfl, h, hname.1,
    hname.2.1, hname.2.2, hfirst⟩⟩

theorem portable_triage : triage.Portable where
  ids_nodup := by decide
  describable := by
    have hbare (id : String) (type : NodeType) (config : Fields) (hid : id ≠ "")
        (hwhole : Text.Whole id) (htype : type ≠ .appInfo) :
        (bareNode id type config []).Describable :=
      ⟨htype, hid, hwhole, hid, List.nodup_nil, fun _ hb => absurd hb List.not_mem_nil⟩
    have hchars {p : Char → Prop} [DecidablePred p] {cs : List Char}
        (h : cs.all (fun c => decide (p c)) = true) : ∀ c ∈ cs, p c :=
      fun c hc => of_decide_eq_true (List.all_eq_true.mp h c hc)
    have hsorter : sorter.Describable := by
      refine ⟨by decide, by decide, rfl, by decide, by decide, fun b hb => ?_⟩
      rcases List.mem_pair.mp hb with rfl | rfl
      · exact ⟨Or.inr ⟨rfl, by decide⟩, _, rfl, by decide, hchars rfl⟩
      · exact ⟨Or.inl ⟨rfl, by decide, hchars rfl, by decide⟩, _, rfl, by decide, hchars rfl⟩
    intro node hnode
    simp only [triage, List.mem_cons, List.not_mem_nil, or_false] at hnode
    rcases hnode with rfl | rfl | rfl
    · exact hbare "begin" .start [] (by decide) rfl (by decide)
    · exact hsorter
    · exact hbare "done" .finish [] (by decide) rfl (by decide)
  edgeIds_nodup := by decide
  recoverable := by
    have hedge {edge : Edge} {source : Node} (hsource : source ∈ triage.nodes)
        (hid : source.id = edge.source)
        (hguard : Guard.derive source edge.sourceHandle = .ok edge.condition)
        (htraceable : Guard.Traceable source edge.sourceHandle)
        (htarget : edge.target ∈ triage.nodes.map (·.id))
        (hbare : edge = bareEdge edge.source edge.sourceHandle edge.target edge.condition) :
        edge.Recoverable triage.nodes :=
      ⟨⟨source, hsource, hid, hguard, htraceable⟩, htarget, congrArg (·.label) hbare,
        congrArg (·.targetHandle) hbare, congrArg (·.id) hbare⟩
    have hsorter : sorter ∈ triage.nodes := by simp [triage]
    intro edge hmem
    simp only [triage, List.mem_cons, List.not_mem_nil, or_false] at hmem
    rcases hmem with rfl | rfl | rfl | rfl
    · exact hedge List.mem_cons_self rfl rfl (Or.inl rfl) (by decide) rfl
    · have hfirst := traceable_sorter (n := 0) rfl (by decide) (by decide)
      exact hedge hsorter rfl rfl hfirst (by decide) rfl
    · have hthird := traceable_sorter (n := 2) rfl (by decide) (by decide)
      exact hedge hsorter rfl rfl hthird (by decide) rfl
    · exact hedge hsorter rfl rfl (Or.inr ⟨rfl, Or.inl rfl⟩) (by decide) rfl

theorem toGraph_toDocument_triage : ∃ restored,
    (triage.toDocument ⟨none, "Triage"⟩).toGraph Grid.standard = .ok restored ∧
      restored.nodes.map Node.content = triage.nodes.map Node.content ∧
      restored.edges = triage.edges := by
  have hgrid : Grid.standard.LaysOut triage.nodes.length := Grid.standard_laysOut (by decide)
  exact toGraph_toDocument portable_triage ⟨none, "Triage"⟩ hgrid

end Graph
end WorkflowStudio
