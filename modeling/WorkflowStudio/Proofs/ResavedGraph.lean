import WorkflowStudio.Proofs.StoredGraph

/-!
Saving a graph that was loaded with the settings of the application. Loading adds the application
node under a fixed id, and saving leaves out everything that has or touches this id. So the stored
texts are the same as before exactly when the stored graph does not use it.
-/
namespace WorkflowStudio

/-! Numbers that are not finite are not told in documents either. -/

theorem Node.write_toDocument_finite (n : Node) :
    DocumentNode.write .dropped n.finite.toDocument = DocumentNode.write .dropped n.toDocument := by
  have hconfig : n.finite.config = Json.finiteFields n.config := rfl
  have hdocument : n.finite.toDocument =
      { n.toDocument with config := Json.finiteFields n.config } := rfl
  rw [hdocument, DocumentNode.write, DocumentNode.write, Json.finiteFields_finite]
  rfl

namespace Graph

variable {g : Graph}

theorem flowNodes_finite (g : Graph) : g.finite.flowNodes = g.flowNodes.map Node.finite :=
  List.filter_map

theorem entryPoint_map_finite (flow : List Node) :
    entryPoint (flow.map Node.finite) = entryPoint flow :=
  entryPoint_congr List.map_map

theorem toDocument_edges_finite (g : Graph) (heading : Heading) :
    (g.finite.toDocument heading).edges = (g.toDocument heading).edges := by
  have hids : g.finite.flowNodes.map (·.id) = g.flowNodes.map (·.id) := by
    rw [flowNodes_finite, List.map_map]
    rfl
  have hedges : g.finite.flowEdges = g.flowEdges.map Edge.finite := by
    rw [flowEdges, flowEdges, hids, finite, List.filter_map]
    rfl
  change g.finite.flowEdges.map Edge.toDocument = g.flowEdges.map Edge.toDocument
  rw [hedges, List.map_map]
  rfl

theorem text_toDocument_finite (g : Graph) (heading : Heading) :
    (g.finite.toDocument heading).text = (g.toDocument heading).text := by
  have hnodes : (g.finite.toDocument heading).nodes.map (DocumentNode.write .dropped) =
      (g.toDocument heading).nodes.map (DocumentNode.write .dropped) := by
    change (g.finite.flowNodes.map Node.toDocument).map _ = (g.flowNodes.map Node.toDocument).map _
    rw [flowNodes_finite, List.map_map, List.map_map, List.map_map]
    exact List.map_congr_left fun n _ => Node.write_toDocument_finite n
  have hentry : (g.finite.toDocument heading).entryPoint = (g.toDocument heading).entryPoint := by
    change entryPoint g.finite.flowNodes = entryPoint g.flowNodes
    rw [flowNodes_finite, entryPoint_map_finite]
  rw [Document.text, Document.text, Document.write, Document.write, hnodes, hentry,
    toDocument_edges_finite]
  rfl

theorem snapshot_finite (g : Graph) : g.finite.snapshot = g.snapshot :=
  congrArg (Json.text Json.compact) (write_finite g)

theorem Readable.finite (h : g.Readable) : g.finite.Readable := by
  constructor
  · rw [write_finite]
    exact h.whole
  · rw [write_finite]
    exact h.legible

/-! The application node is added under a fixed id. -/

/-- A node or an end of an edge has the id. -/
def UsesId (g : Graph) (id : String) : Prop :=
  (∃ n ∈ g.nodes, n.id = id) ∨ ∃ e ∈ g.edges, e.touches id = true

/-- The graph without the nodes that have an id and the edges that touch it. -/
def withoutId (g : Graph) (id : String) : Graph where
  nodes := g.nodes.filter fun n => n.id != id
  edges := g.edges.filter fun e => !e.touches id

def withNode (g : Graph) (node : Node) : Graph := { g with nodes := g.nodes ++ [node] }

theorem usesId_finite {id : String} : g.finite.UsesId id ↔ g.UsesId id := by
  rw [UsesId, UsesId, finite]
  simp only [List.mem_map, exists_exists_and_eq_and]
  rfl

theorem Sound.withoutId (h : g.Sound) (id : String) : (g.withoutId id).Sound :=
  ⟨fun n hn => h.nodes n (List.mem_of_mem_filter hn),
    fun e he => h.edges e (List.mem_of_mem_filter he)⟩

theorem withoutId_of_not_usesId {id : String} (h : ¬g.UsesId id) : g.withoutId id = g := by
  obtain ⟨hnodes, hedges⟩ := not_or.mp h
  have hnodes : g.nodes.filter (fun n => n.id != id) = g.nodes :=
    List.filter_eq_self.mpr fun n hn => bne_iff_ne.mpr fun hid => hnodes ⟨n, hn, hid⟩
  have hedges : g.edges.filter (fun e => !e.touches id) = g.edges := by
    refine List.filter_eq_self.mpr fun e he => ?_
    rw [Bool.not_eq_true', ← Bool.not_eq_true]
    exact fun htouches => hedges ⟨e, he, htouches⟩
  rw [withoutId, hnodes, hedges]

/-- The numbers of nodes and edges tell whether an id was used. -/
theorem not_usesId_of_finite_eq {id : String} (h : (g.withoutId id).finite = g) :
    ¬g.UsesId id := by
  have hnodes : (g.nodes.filter fun n => n.id != id).length = g.nodes.length := by
    have hlength := congrArg (·.nodes.length) h
    simpa only [finite, withoutId, List.length_map] using hlength
  have hedges : (g.edges.filter fun e => !e.touches id).length = g.edges.length := by
    have hlength := congrArg (·.edges.length) h
    simpa only [finite, withoutId, List.length_map] using hlength
  rintro (⟨n, hn, hid⟩ | ⟨e, he, htouches⟩)
  · exact bne_iff_ne.mp (List.length_filter_eq_length_iff.mp hnodes n hn) hid
  · have hfree := List.length_filter_eq_length_iff.mp hedges e he
    rw [htouches] at hfree
    cases hfree

theorem appInfo?_stored_finite (g : Graph) : g.stored.finite.appInfo? = none := by
  rw [appInfo?, List.find?_eq_none]
  intro n hn happ
  obtain ⟨kept, hkept, rfl⟩ := List.mem_map.mp hn
  obtain ⟨hmem, hout⟩ := List.mem_filter.mp hkept
  rw [Bool.not_eq_true', List.contains_eq_mem, decide_eq_false_iff_not] at hout
  exact hout (mem_appInfoIds.mpr ⟨kept, hmem, happ, rfl⟩)

/-- The application node takes everything along that uses its id. -/
theorem stored_withNode {node : Node} (hnone : g.appInfo? = none) (happ : node.isAppInfo = true) :
    (g.withNode node).stored = g.withoutId node.id := by
  have hflow : g.nodes.filter (·.nodeType == .appInfo) = [] := by
    rw [List.filter_eq_nil_iff]
    exact List.find?_eq_none.mp hnone
  have happs : ((g.withNode node).nodesOfType .appInfo).map (·.id) = [node.id] := by
    have hlast : [node].filter (·.nodeType == .appInfo) = [node] :=
      List.filter_eq_self.mpr fun n hn => List.mem_singleton.mp hn ▸ happ
    rw [nodesOfType, withNode, List.filter_append, hflow, hlast]
    rfl
  have hcontains (id : String) : [node.id].contains id = (id == node.id) := by
    rw [List.contains_cons, List.contains_nil, Bool.or_false]
  have hnodes : (g.withNode node).nodes.filter (fun n => !(n.id == node.id)) =
      g.nodes.filter fun n => n.id != node.id := by
    rw [withNode, List.filter_append]
    simp [bne]
  rw [stored, happs]
  simp only [hcontains, hnodes, withoutId, Edge.touches, Bool.not_or]
  rfl

end Graph

theorem Catalog.appInfoNode_eq_ok {catalog : Catalog} {settings : Json} {node : Node}
    (h : catalog.appInfoNode settings = .ok node) :
    node.id = appInfoId ∧ node.isAppInfo = true := by
  obtain ⟨fields, -, h⟩ := Except.bind_eq_ok.mp h
  obtain ⟨config, -, h⟩ := Except.bind_eq_ok.mp h
  obtain ⟨-, -, h⟩ := Except.bind_eq_ok.mp h
  cases h
  exact ⟨rfl, rfl⟩

namespace Graph

variable {g : Graph} {p : StoredWorkflow} {heading : Heading} {catalog : Catalog} {settings : Json}
  {node : Node}

/-- Loading leads to what is stored and the application node. -/
theorem load_of_save (h : g.Sound) (hsave : g.save heading = .ok p) (hreadable : g.stored.Readable)
    (hplaced : g.stored.Placed) (hnode : catalog.appInfoNode settings = .ok node) (grid : Grid) :
    p.load grid catalog (some settings) = .ok (g.stored.finite.withNode node) := by
  have hgraph : p.graph? = some g.stored.finite :=
    (graph?_of_save h hsave).mpr ⟨hreadable, hplaced, rfl⟩
  have hloaded : p.loadGraph grid catalog = .ok g.stored.finite := by
    rw [StoredWorkflow.loadGraph, hgraph]
  refine Except.bind_eq_ok.mpr ⟨g.stored.finite, hloaded, ?_⟩
  rw [appInfo?_stored_finite]
  exact Except.bind_eq_ok.mpr ⟨node, hnode, rfl⟩

/-- A graph is stored in a text that can be read exactly when it is readable itself and the heading
of its document can be written. What is loaded from it with the settings of the application is
stored in the same two texts exactly when no node or edge of the stored graph uses the id of the
application node. -/
theorem resave_iff (h : g.Sound) (hplaced : g.Placed)
    (hnode : catalog.appInfoNode settings = .ok node) (heading : Heading) (grid : Grid) :
    ((∃ p, g.save heading = .ok p ∧ p.graph?.isSome = true) ↔
        g.stored.Readable ∧ heading.Whole) ∧
      ∀ p, g.save heading = .ok p → p.graph?.isSome = true →
        ∃ loaded, p.load grid catalog (some settings) = .ok loaded ∧
          (loaded.save heading = .ok p ↔ ¬g.stored.UsesId appInfoId) := by
  have hiff {p : StoredWorkflow} (hsave : g.save heading = .ok p) :
      p.graph?.isSome = true ↔ g.stored.Readable := by
    rw [Option.isSome_iff_exists]
    constructor
    · rintro ⟨loaded, hloaded⟩
      exact ((graph?_of_save h hsave).mp hloaded).1
    · intro hreadable
      exact ⟨_, (graph?_of_save h hsave).mpr ⟨hreadable, hplaced.stored, rfl⟩⟩
  constructor
  · constructor
    · rintro ⟨p, hsave, hsome⟩
      exact ⟨(hiff hsave).mp hsome, (save_eq_ok_iff.mp hsave).2.1⟩
    · rintro ⟨hreadable, hheading⟩
      have hsave := save_eq_ok_iff.mpr ⟨hreadable.storable, hheading, rfl⟩
      exact ⟨_, hsave, (hiff hsave).mpr hreadable⟩
  · intro p hsave hsome
    have hreadable := (hiff hsave).mp hsome
    refine ⟨_, load_of_save h hsave hreadable hplaced.stored hnode grid, ?_⟩
    obtain ⟨hid, happ⟩ := Catalog.appInfoNode_eq_ok hnode
    have hstored : (g.stored.finite.withNode node).stored = g.stored.finite.withoutId appInfoId :=
      hid ▸ stored_withNode (appInfo?_stored_finite g) happ
    rw [← usesId_finite]
    constructor
    · intro hagain
      have hsame : g.stored.snapshot = (g.stored.finite.withoutId appInfoId).snapshot := by
        have hboth := (save_eq_ok hsave).symm.trans (save_eq_ok hagain)
        rw [hstored] at hboth
        exact Option.some.inj hboth
      have hread : ofSnapshot g.stored.snapshot = .ok g.stored.finite :=
        (ofSnapshot_snapshot_iff h.stored).mpr ⟨hreadable, hplaced.stored, rfl⟩
      rw [hsame, ofSnapshot_snapshot_iff (h.stored.finite.withoutId _)] at hread
      exact not_usesId_of_finite_eq hread.2.2.symm
    · intro hfree
      rw [withoutId_of_not_usesId hfree] at hstored
      obtain ⟨-, hheading, hfirst⟩ := save_eq_ok_iff.mp hsave
      rw [save_eq_ok_iff, hstored, snapshot_finite, text_toDocument_finite]
      exact ⟨hreadable.finite.storable, hheading, hfirst⟩

/-! A start node that has the id of the application node. -/

def takenId : Graph := ⟨[.plain appInfoId .start .origin], []⟩

/-- It is saved and loaded, but not saved again. -/
theorem resave_takenId : ∃ p loaded, takenId.save ⟨none, "w"⟩ = .ok p ∧
    p.load .standard .builtIn (some (.obj [])) = .ok loaded ∧
      loaded.save ⟨none, "w"⟩ ≠ .ok p := by
  have hnode : (Node.plain appInfoId .start .origin).Sound :=
    Node.sound_plain (by decide) (rfl : Text.isBroken appInfoId = false) _ _
  have hsound : takenId.Sound :=
    ⟨List.forall_mem_singleton.mpr hnode, fun _ he => absurd he List.not_mem_nil⟩
  have hplaced : takenId.Placed := List.forall_mem_singleton.mpr rfl
  have hsettings : (Catalog.builtIn.appInfoNode (.obj [])).toOption.isSome = true := by
    decide +kernel
  obtain ⟨node, hnode⟩ := Option.isSome_iff_exists.mp hsettings
  have hstored : takenId.stored = takenId := by decide +kernel
  have hreadable : takenId.stored.Readable := by
    rw [hstored]
    exact ⟨Option.isNone_iff_eq_none.mp (by decide +kernel), by decide +kernel⟩
  obtain ⟨hiff, hagain⟩ := resave_iff hsound hplaced (Except.eq_ok_of_toOption hnode) ⟨none, "w"⟩
    .standard
  have hheading : (Heading.mk none "w").Whole := ⟨rfl, nofun⟩
  obtain ⟨p, hsave, hsome⟩ := hiff.mpr ⟨hreadable, hheading⟩
  obtain ⟨loaded, hload, hsame⟩ := hagain p hsave hsome
  refine ⟨p, loaded, hsave, hload, fun htwice => hsame.mp htwice ?_⟩
  rw [hstored]
  exact Or.inl ⟨_, List.mem_singleton_self _, rfl⟩

end Graph
end WorkflowStudio
