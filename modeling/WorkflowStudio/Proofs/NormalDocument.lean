import WorkflowStudio.Proofs.DocumentGraph

/-!
Documents in normal form. A document that is rebuilt as a graph and exported again keeps what a
graph can tell of it: the nodes of the flow under known kinds and names that are not empty, the
inputs that are references, and each edge once, under the guard of a handle that its source has.
All of this is found again in a second pass, so that one pass is enough.
-/
namespace WorkflowStudio

/-- The document of the graph that is rebuilt from a document. -/
def Document.normalized (d : Document) (grid : Grid) : Except Fault Document :=
  (d.toGraph grid).map fun g => g.toDocument ⟨d.workflowId, d.name⟩

/-! Nodes. -/

namespace DocumentNode

/-- What is left of a node. -/
def normal (n : DocumentNode) : DocumentNode where
  id := n.id
  type := n.nodeType.text
  name := if n.name.isEmpty then n.id else n.name
  config := n.config
  inputs := renderInputs (recoverBindings n.inputs)

theorem toNode_normal {n : DocumentNode} (h : n.Identified) (position : Position) :
    ∃ node, n.toNode position = .ok node ∧ node.toDocument = n.normal :=
  ⟨_, Except.bind_eq_ok.mpr ⟨n.id, h.checkId, rfl⟩, rfl⟩

theorem nodeType_normal (n : DocumentNode) : n.normal.nodeType = n.nodeType :=
  nodeType_of_type_eq rfl

theorem normal_normal (n : DocumentNode) : n.normal.normal = n.normal := by
  have hname : (if n.normal.name.isEmpty then n.id else n.normal.name) = n.normal.name := by
    by_cases hempty : n.name.isEmpty
    · have hid : n.normal.name = n.id := if_pos hempty
      rw [hid, ite_self]
    · have hname : n.normal.name = n.name := if_neg hempty
      rw [hname, if_neg hempty]
  calc n.normal.normal
      = ⟨n.id, n.normal.nodeType.text, if n.normal.name.isEmpty then n.id else n.normal.name,
          n.config, renderInputs (recoverBindings n.normal.inputs)⟩ := rfl
    _ = n.normal := by
      rw [hname, nodeType_normal]
      congr 1
      exact renderInputs_recoverBindings n.inputs

end DocumentNode

namespace Node

variable {n m : Node}

theorem nodeType_of_toDocument_eq (h : m.toDocument = n.toDocument) : m.nodeType = n.nodeType := by
  rw [← nodeType_toDocument, h, nodeType_toDocument]

theorem alike_of_toDocument_eq (h : m.toDocument = n.toDocument) : n.Alike m :=
  .of_config_eq (congrArg (·.id) h) (nodeType_of_toDocument_eq h) (congrArg (·.config) h)

end Node

/-! Edges. -/

namespace Graph

/-- Among nodes of the flow with the same documents an edge finds a source with the same
document, if its source is a node of the flow. -/
theorem lastNode?_of_toDocument_eq {nodes restored : List Node}
    (h : restored.map Node.toDocument = (nodes.filter (!·.isAppInfo)).map Node.toDocument)
    {id : String} {source : Node} (hsource : lastNode? nodes id = some source)
    (hflow : source.isAppInfo = false) :
    ∃ found, lastNode? restored id = some found ∧ found.toDocument = source.toDocument := by
  have hkept : lastNode? (nodes.filter (!·.isAppInfo)) id = some source := by
    obtain ⟨hid, before, after, hsplit, hbefore⟩ := List.find?_eq_some_iff_append.mp hsource
    rw [lastNode?, ← List.filter_reverse, List.find?_filter]
    refine List.find?_eq_some_iff_append.mpr ⟨by simp [hflow, hid], before, after, hsplit, ?_⟩
    intro node hnode
    have hother : node.id ≠ id := by simpa using hbefore node hnode
    simp [hother]
  have hmap (nodes : List Node) : (lastNode? nodes id).map Node.toDocument =
      (nodes.map Node.toDocument).reverse.find? (·.id == id) := by
    rw [← List.map_reverse, List.find?_map]
    rfl
  have hfound := hmap restored
  rw [h, ← hmap, hkept] at hfound
  exact Option.map_eq_some_iff.mp hfound

end Graph

namespace Document

section Edges

variable {nodes : List Node} {e : DocumentEdge} {source : Node} {handle : String}
  {condition : Option String}

theorem toEdge_of_no_handle
    (h : Guard.recoverHandle (Graph.lastNode? nodes e.source) e.condition = none) :
    toEdge nodes e = .ok (Graph.bareEdge e.source none e.target none) := by
  unfold toEdge
  dsimp only
  rw [h]
  cases Graph.lastNode? nodes e.source <;> rfl

theorem toEdge_of_handle (hsource : Graph.lastNode? nodes e.source = some source)
    (hhandle : Guard.recoverHandle (some source) e.condition = some handle)
    (hderive : Guard.derive source (some handle) = .ok condition) :
    toEdge nodes e = .ok (Graph.bareEdge e.source (some handle) e.target condition) := by
  unfold toEdge
  dsimp only
  rw [hsource, hhandle]
  exact Except.bind_eq_ok.mpr ⟨condition, hderive, rfl⟩

/-- An edge that is rebuilt through a handle has the guard of the handle. -/
theorem exists_derive_of_toEdge (hsource : Graph.lastNode? nodes e.source = some source)
    (hhandle : Guard.recoverHandle (some source) e.condition = some handle) {edge : Edge}
    (h : toEdge nodes e = .ok edge) :
    ∃ condition, Guard.derive source (some handle) = .ok condition ∧
      edge = Graph.bareEdge e.source (some handle) e.target condition := by
  have hfound := h
  unfold toEdge at hfound
  dsimp only at hfound
  rw [hsource, hhandle] at hfound
  obtain ⟨condition, hderive, -⟩ := Except.bind_eq_ok.mp hfound
  refine ⟨condition, hderive, ?_⟩
  exact Except.ok.inj (h.symm.trans (toEdge_of_handle hsource hhandle hderive))

/-- An edge is rebuilt without a guard or with a guard of its source. -/
theorem toEdge_cases {edge : Edge} (h : toEdge nodes e = .ok edge) :
    edge = Graph.bareEdge e.source none e.target none ∨
      ∃ source handle condition, Graph.lastNode? nodes e.source = some source ∧
        Guard.recoverHandle (some source) e.condition = some handle ∧
        Guard.derive source (some handle) = .ok condition ∧
        edge = Graph.bareEdge e.source (some handle) e.target condition := by
  cases hhandle : Guard.recoverHandle (Graph.lastNode? nodes e.source) e.condition with
  | none => exact Or.inl (Except.ok.inj (h.symm.trans (toEdge_of_no_handle hhandle)))
  | some handle =>
    cases hsource : Graph.lastNode? nodes e.source with
    | none =>
      rw [hsource] at hhandle
      cases hhandle
    | some source =>
      rw [hsource] at hhandle
      obtain ⟨condition, hderive, hedge⟩ := exists_derive_of_toEdge hsource hhandle h
      exact Or.inr ⟨source, handle, condition, rfl, hhandle, hderive, hedge⟩

/-- An edge is rebuilt from its own document as it is. -/
theorem toEdge_again {restored : List Node}
    (h : restored.map Node.toDocument = (nodes.filter (!·.isAppInfo)).map Node.toDocument)
    (hguard : ∀ text ∈ e.condition, Guard.intentOf? text ≠ some "") {edge : Edge}
    (hedge : toEdge nodes e = .ok edge) : toEdge restored edge.toDocument = .ok edge := by
  rcases toEdge_cases hedge with rfl | ⟨source, handle, condition, hsource, hhandle, hderive, rfl⟩
  · exact toEdge_of_no_handle (Guard.recoverHandle_none _)
  · have htraceable := Guard.traceable_recoverHandle source hguard
    rw [hhandle] at htraceable
    have htype : source.nodeType = .intentClassifier :=
      (htraceable.resolve_left (Option.some_ne_none handle)).1
    have hflow : source.isAppInfo = false := by
      rw [Node.isAppInfo, htype]
      rfl
    obtain ⟨found, hfound, heq⟩ := Graph.lastNode?_of_toDocument_eq h hsource hflow
    have hagain := ((Node.alike_of_toDocument_eq heq).derive_eq _).trans hderive
    refine toEdge_of_handle hfound ?_ hagain
    rw [Node.recoverHandle_of_config_eq (Node.nodeType_of_toDocument_eq heq)
      (congrArg (·.config) heq)]
    exact Guard.recoverHandle_of_derive htraceable hderive

end Edges

/-- The edges that are kept are rebuilt edges with distinct ids. -/
theorem toEdges_eq_ok {nodes : List Node} {seen : List String} {shown : List DocumentEdge}
    {edges : List Edge} (h : toEdges nodes seen shown = .ok edges) :
    (∀ edge ∈ edges, ∃ e ∈ shown, toEdge nodes e = .ok edge) ∧ (edges.map (·.id)).Nodup ∧
      ∀ edge ∈ edges, edge.id ∉ seen := by
  induction shown generalizing seen edges with
  | nil =>
    cases h
    exact ⟨fun _ hedge => absurd hedge List.not_mem_nil, List.nodup_nil,
      fun _ hedge => absurd hedge List.not_mem_nil⟩
  | cons e rest ih =>
    obtain ⟨edge, hedge, h⟩ := Except.bind_eq_ok.mp h
    split at h
    · obtain ⟨hfrom, hnodup, hunseen⟩ := ih h
      refine ⟨fun edge hedge => ?_, hnodup, hunseen⟩
      obtain ⟨e', he', hrebuilt⟩ := hfrom edge hedge
      exact ⟨e', List.mem_cons_of_mem _ he', hrebuilt⟩
    · rename_i hnew
      obtain ⟨others, hothers, h⟩ := Except.bind_eq_ok.mp h
      cases h
      obtain ⟨hfrom, hnodup, hunseen⟩ := ih hothers
      refine ⟨List.forall_mem_cons.mpr ⟨⟨e, List.mem_cons_self, hedge⟩, fun other hother => ?_⟩,
        ?_, List.forall_mem_cons.mpr ⟨by simpa using hnew, fun other hother hmem => ?_⟩⟩
      · obtain ⟨e', he', hrebuilt⟩ := hfrom other hother
        exact ⟨e', List.mem_cons_of_mem _ he', hrebuilt⟩
      · rw [List.map_cons, List.nodup_cons]
        refine ⟨fun hmem => ?_, hnodup⟩
        obtain ⟨other, hother, hid⟩ := List.mem_map.mp hmem
        exact hunseen other hother (hid ▸ List.mem_cons_self)
      · exact hunseen other hother (List.mem_cons_of_mem _ hmem)

theorem exists_toEdges {nodes : List Node} (shown : List DocumentEdge)
    (h : ∀ e ∈ shown, ∃ edge, toEdge nodes e = .ok edge) (seen : List String) :
    ∃ edges, toEdges nodes seen shown = .ok edges := by
  induction shown generalizing seen with
  | nil => exact ⟨[], rfl⟩
  | cons e rest ih =>
    obtain ⟨⟨edge, hedge⟩, hrest⟩ := List.forall_mem_cons.mp h
    by_cases hseen : seen.contains edge.id
    · obtain ⟨others, hothers⟩ := ih hrest seen
      exact ⟨others, Except.bind_eq_ok.mpr ⟨edge, hedge, (if_pos hseen).trans hothers⟩⟩
    · obtain ⟨others, hothers⟩ := ih hrest (edge.id :: seen)
      exact ⟨edge :: others, Except.bind_eq_ok.mpr ⟨edge, hedge,
        (if_neg hseen).trans (Except.bind_eq_ok.mpr ⟨others, hothers, rfl⟩)⟩⟩

end Document

/-! Graphs. -/

namespace Graph

theorem entryPoint_of_toDocument_eq {flow restored : List Node}
    (h : restored.map Node.toDocument = flow.map Node.toDocument) :
    entryPoint restored = entryPoint flow := by
  have hkinds := congrArg (List.map fun d => (d.nodeType, d.id)) h
  simp only [List.map_map, Function.comp_def, Node.nodeType_toDocument] at hkinds
  exact entryPoint_congr hkinds

/-- The edges of the flow and nodes with the same documents make up the same document. -/
theorem toDocument_of_nodes_eq {g : Graph} {restored : List Node}
    (h : restored.map Node.toDocument = g.flowNodes.map Node.toDocument) (heading : Heading) :
    (Graph.mk restored g.flowEdges).toDocument heading = g.toDocument heading := by
  have hflow : (Graph.mk restored g.flowEdges).flowNodes = restored := by
    refine List.filter_eq_self.mpr fun node hnode => ?_
    have hmem : node.toDocument ∈ g.flowNodes.map Node.toDocument :=
      h ▸ List.mem_map_of_mem hnode
    obtain ⟨original, horiginal, heq⟩ := List.mem_map.mp hmem
    have hkept := List.of_mem_filter horiginal
    rw [Node.isAppInfo, Node.nodeType_of_toDocument_eq heq] at hkept
    exact hkept
  have hids : restored.map (·.id) = g.flowNodes.map (·.id) := by
    have hdocuments := congrArg (List.map DocumentNode.id) h
    rw [List.map_map, List.map_map] at hdocuments
    exact hdocuments
  have hedges : (Graph.mk restored g.flowEdges).flowEdges = g.flowEdges := by
    rw [flowEdges, hflow, hids, flowEdges, List.filter_filter]
    simp only [Bool.and_self]
  unfold toDocument
  rw [hflow, hedges, h, entryPoint_of_toDocument_eq h]

end Graph

namespace Document

/-- Every guard names an intent, if it names any. -/
def GuardsNamed (d : Document) : Prop :=
  ∀ e ∈ d.edges, ∀ text ∈ e.condition, Guard.intentOf? text ≠ some ""

/-- Every node that is rebuilt has an id that a node can have. -/
theorem identified_of_nodesFrom {grid : Grid} {total index : Nat} {nodes : List DocumentNode}
    {rebuilt : List Node} (h : nodesFrom grid total index nodes = .ok rebuilt) :
    ∀ n ∈ nodes, n.Identified := by
  induction nodes generalizing index rebuilt with
  | nil => exact fun _ hn => absurd hn List.not_mem_nil
  | cons n rest ih =>
    obtain ⟨position, -, h⟩ := Except.bind_eq_ok.mp h
    obtain ⟨node, hnode, h⟩ := Except.bind_eq_ok.mp h
    obtain ⟨others, hothers, -⟩ := Except.bind_eq_ok.mp h
    exact List.forall_mem_cons.mpr ⟨DocumentNode.identified_of_toNode hnode, ih hothers⟩

theorem nodesFrom_normal {grid : Grid} {nodes : List DocumentNode}
    (hids : ∀ n ∈ nodes, n.Identified) (hgrid : grid.LaysOut nodes.length) :
    ∃ rebuilt, nodesFrom grid nodes.length 0 nodes = .ok rebuilt ∧
      rebuilt.map Node.toDocument = nodes.map DocumentNode.normal := by
  have h : ∃ rebuilt, nodesFrom grid nodes.length 0 (nodes.map id) = .ok rebuilt ∧
      rebuilt.map Node.toDocument = nodes.map DocumentNode.normal :=
    nodesFrom_map hgrid nodes
      (fun n hn position => DocumentNode.toNode_normal (hids n hn) position) 0
      (Nat.le_of_eq (Nat.zero_add _))
  rwa [List.map_id] at h

variable {d : Document} {grid : Grid} {g : Graph}

theorem of_toGraph_eq_ok (hgrid : grid.LaysOut d.nodes.length) (h : d.toGraph grid = .ok g) :
    (∀ n ∈ d.nodes, n.Identified) ∧ g.nodes.map Node.toDocument = d.nodes.map DocumentNode.normal ∧
      (∀ edge ∈ g.edges, ∃ e ∈ d.edges, toEdge g.nodes e = .ok edge) ∧
      (g.edges.map (·.id)).Nodup := by
  obtain ⟨nodes, hnodes, h⟩ := Except.bind_eq_ok.mp h
  obtain ⟨edges, hedges, h⟩ := Except.bind_eq_ok.mp h
  cases h
  have hids := identified_of_nodesFrom hnodes
  obtain ⟨rebuilt, hrebuilt, hnormal⟩ := nodesFrom_normal hids hgrid
  cases Except.ok.inj (hnodes.symm.trans hrebuilt)
  obtain ⟨hfrom, hnodup, -⟩ := toEdges_eq_ok hedges
  exact ⟨hids, hnormal, hfrom, hnodup⟩

/-- The document of a graph that was rebuilt is rebuilt with the same edges and with nodes that
have the same documents. -/
theorem toGraph_toDocument_of_toGraph (hguards : d.GuardsNamed)
    (hgrid : ∀ total ≤ d.nodes.length, grid.LaysOut total)
    (h : d.toGraph grid = .ok g) (heading : Heading) :
    ∃ restored, (g.toDocument heading).toGraph grid = .ok ⟨restored, g.flowEdges⟩ ∧
      restored.map Node.toDocument = g.flowNodes.map Node.toDocument := by
  obtain ⟨hids, hnormal, hfrom, hnodup⟩ := of_toGraph_eq_ok (hgrid _ le_rfl) h
  have hsublist : (g.flowNodes.map Node.toDocument).Sublist (d.nodes.map DocumentNode.normal) :=
    hnormal ▸ List.filter_sublist.map Node.toDocument
  have hlength : (g.flowNodes.map Node.toDocument).length ≤ d.nodes.length := by
    have hle := hsublist.length_le
    rwa [List.length_map DocumentNode.normal] at hle
  have hshown : ∀ shown ∈ g.flowNodes.map Node.toDocument, ∃ n ∈ d.nodes, n.normal = shown :=
    fun shown hmem => List.mem_map.mp (hsublist.mem hmem)
  have hids' : ∀ shown ∈ g.flowNodes.map Node.toDocument, shown.Identified := by
    intro shown hmem
    obtain ⟨n, hn, rfl⟩ := hshown shown hmem
    exact hids n hn
  have hagain : (g.flowNodes.map Node.toDocument).map DocumentNode.normal =
      g.flowNodes.map Node.toDocument := by
    refine (List.map_congr_left fun shown hmem => ?_).trans (List.map_id _)
    obtain ⟨n, -, rfl⟩ := hshown shown hmem
    exact n.normal_normal
  obtain ⟨restored, hrestored, hdocuments⟩ := nodesFrom_normal hids' (hgrid _ hlength)
  rw [hagain] at hdocuments
  have hrebuilt : ∀ edge ∈ g.flowEdges, toEdge restored edge.toDocument = .ok edge := by
    intro edge hedge
    obtain ⟨e, he, hedge⟩ := hfrom edge (List.mem_of_mem_filter hedge)
    exact toEdge_again hdocuments (hguards e he) hedge
  have hedges : toEdges restored [] (g.flowEdges.map Edge.toDocument) =
      .ok (g.flowEdges.map id) :=
    toEdges_of_nodup g.flowEdges hrebuilt (fun _ => rfl)
      (hnodup.sublist (List.filter_sublist.map _)) [] fun _ _ => List.not_mem_nil
  rw [List.map_id] at hedges
  exact ⟨restored, Except.bind_eq_ok.mpr ⟨restored, hrestored,
    Except.bind_eq_ok.mpr ⟨_, hedges, rfl⟩⟩, hdocuments⟩

theorem exists_toEdge {nodes : List Node} (hcounted : ∀ n ∈ nodes, Guard.IntentsCounted n)
    (e : DocumentEdge) : ∃ edge, toEdge nodes e = .ok edge := by
  cases hhandle : Guard.recoverHandle (Graph.lastNode? nodes e.source) e.condition with
  | none => exact ⟨_, toEdge_of_no_handle hhandle⟩
  | some handle =>
    cases hsource : Graph.lastNode? nodes e.source with
    | none =>
      rw [hsource] at hhandle
      cases hhandle
    | some source =>
      rw [hsource] at hhandle
      obtain ⟨derived, hderive⟩ := Guard.exists_derive_of_recoverHandle hhandle
        (hcounted source (Graph.lastNode?_eq_some hsource).1)
      exact ⟨_, toEdge_of_handle hsource hhandle hderive⟩

/-- The handles of every node can count its intents. -/
def IntentsCounted (d : Document) : Prop :=
  ∀ n ∈ d.nodes, ∀ config ∈ (IntentConfig.read (.obj n.config)).ok?,
    config.intents.length ≤ 10 ^ Numeral.digitLimit

theorem exists_toGraph (hids : ∀ n ∈ d.nodes, n.Identified) (hgrid : grid.LaysOut d.nodes.length)
    (hcounted : d.IntentsCounted) : ∃ g, d.toGraph grid = .ok g := by
  obtain ⟨nodes, hnodes, hnormal⟩ := nodesFrom_normal hids hgrid
  have hcounted : ∀ n ∈ nodes, Guard.IntentsCounted n := by
    intro n hn
    have hmem : n.toDocument ∈ d.nodes.map DocumentNode.normal := hnormal ▸ List.mem_map_of_mem hn
    obtain ⟨shown, hshown, heq⟩ := List.mem_map.mp hmem
    have hconfig : shown.config = n.config := congrArg (·.config) heq
    rw [Guard.IntentsCounted, Guard.intentConfig?, ← hconfig]
    exact hcounted shown hshown
  obtain ⟨edges, hedges⟩ := exists_toEdges d.edges (fun e _ => exists_toEdge hcounted e) []
  exact ⟨⟨nodes, edges⟩, Except.bind_eq_ok.mpr ⟨nodes, hnodes,
    Except.bind_eq_ok.mpr ⟨edges, hedges, rfl⟩⟩⟩

theorem exists_normalized (hids : ∀ n ∈ d.nodes, n.Identified)
    (hgrid : grid.LaysOut d.nodes.length) (hcounted : d.IntentsCounted) :
    ∃ e, d.normalized grid = .ok e := by
  obtain ⟨g, hg⟩ := exists_toGraph hids hgrid hcounted
  exact ⟨_, Except.map_eq_ok.mpr ⟨g, hg, rfl⟩⟩

/-- Normal forms are normal: a document that was rebuilt as a graph and exported again does not
change when this is done again. With ids that nodes can have, on a grid that has positions for all
nodes, and with intents that handles can count, it can be done. -/
theorem normalized_normalized (hguards : d.GuardsNamed)
    (hgrid : ∀ total ≤ d.nodes.length, grid.LaysOut total) :
    (∀ e, d.normalized grid = .ok e → e.normalized grid = .ok e) ∧
      ((∀ n ∈ d.nodes, n.id ≠ "" ∧ Text.Whole n.id) →
        (∀ n ∈ d.nodes, ∀ config ∈ (IntentConfig.read (.obj n.config)).ok?,
          config.intents.length ≤ 10 ^ Numeral.digitLimit) → ∃ e, d.normalized grid = .ok e) := by
  refine ⟨fun e he => ?_, fun hids => exists_normalized hids (hgrid _ le_rfl)⟩
  obtain ⟨g, hg, rfl⟩ := Except.map_eq_ok.mp he
  obtain ⟨restored, hrestored, hdocuments⟩ :=
    toGraph_toDocument_of_toGraph hguards hgrid hg ⟨d.workflowId, d.name⟩
  exact Except.map_eq_ok.mpr ⟨_, hrestored, Graph.toDocument_of_nodes_eq hdocuments _⟩

/-- A document with an unknown kind, two nodes of one id, an id that is last taken by an application
node, inputs that are no references, and guards in several spellings. -/
def untidy : Document where
  workflowId := some (.whole 7)
  name := "Untidy"
  entryPoint := "elsewhere"
  nodes :=
    [⟨"in", "START", "", [], [("text", .str (" " ++ Expression.enclose "session.last.question")),
        ("limit", .int 3), ("half", .str (Expression.enclose "session."))]⟩,
      ⟨"sort", "LLM_CHAT", "Chat", [], []⟩,
      ⟨"sort", "INTENT_CLASSIFIER", "Sort", [("intents", .arr [.str "a", .str "it's", .str "a"])],
        []⟩,
      ⟨"info", "INTENT_CLASSIFIER", "", [("intents", .arr [.str "a"])], []⟩,
      ⟨"info", "APP_INFO", "App", [], []⟩, ⟨"out", "WEBHOOK", "Out", [], []⟩]
  edges :=
    [⟨"in", "sort", some "intent == 'a'"⟩, ⟨"sort", "out", some "  intent=='it's' "⟩,
      ⟨"sort", "out", some "intent == 'it's'"⟩, ⟨"sort", "out", some "intent == 'gone'"⟩,
      ⟨"sort", "out", some "text == 'a'"⟩, ⟨"sort", "out", some "intent  ==  'else'"⟩,
      ⟨"sort", "nowhere", none⟩, ⟨"info", "out", some "intent == 'a'"⟩]

def tidy : Document where
  workflowId := some (.whole 7)
  name := "Untidy"
  entryPoint := "in"
  nodes :=
    [⟨"in", "START", "in", [], [("text", .str (Expression.enclose "session.last.question"))]⟩,
      ⟨"sort", "LLM_CHAT", "Chat", [], []⟩,
      ⟨"sort", "INTENT_CLASSIFIER", "Sort", [("intents", .arr [.str "a", .str "it's", .str "a"])],
        []⟩,
      ⟨"info", "INTENT_CLASSIFIER", "info", [("intents", .arr [.str "a"])], []⟩,
      ⟨"out", "LLM_CHAT", "Out", [], []⟩]
  edges :=
    [⟨"in", "sort", none⟩, ⟨"sort", "out", some "intent == 'it's'"⟩, ⟨"sort", "out", none⟩,
      ⟨"sort", "out", some "intent == 'else'"⟩, ⟨"info", "out", none⟩]

theorem normalized_untidy : untidy.normalized Grid.standard = .ok tidy ∧
    tidy.normalized Grid.standard = .ok tidy := by
  have hguards : untidy.GuardsNamed := by
    unfold GuardsNamed
    decide +kernel
  have hgrid : ∀ total ≤ untidy.nodes.length, Grid.standard.LaysOut total :=
    fun total htotal => Grid.standard_laysOut (htotal.trans_lt (by decide))
  have htidy : untidy.normalized Grid.standard = .ok tidy :=
    Except.eq_ok_of_toOption (by decide +kernel)
  exact ⟨htidy, (normalized_normalized hguards hgrid).1 tidy htidy⟩

end Document
end WorkflowStudio
