import WorkflowStudio.Proofs.DocumentText
import WorkflowStudio.Proofs.ReferenceText
import WorkflowStudio.Proofs.WholeText

/-!
Saving and loading. A graph that was saved is loaded from the text of its graph, and what is
loaded is the graph without its application nodes, exactly when this text can be read, the heading
of the document can be written, and no node of the flow has the id of an application node: saving
leaves such a node out as well.
-/
namespace WorkflowStudio

open Text (Whole)
open Json (writable_str)

/-! The document of a graph that can be stored can be written. -/

theorem writable_renderInputs {bindings : List ParamBinding}
    (h : ∀ b ∈ bindings, ∀ v ∈ Record.parts b, v.Writable) :
    ∀ v ∈ (renderInputs bindings).parts, v.Writable := by
  refine List.forall_mem_flatMap.mpr fun field hfield => ?_
  obtain ⟨b, hb, expression, hexpression, rfl⟩ := exists_of_mem_renderInputs hfield
  rw [List.forall_mem_cons, List.forall_mem_singleton]
  refine ⟨h b hb _ List.mem_cons_self, writable_str.mpr ?_⟩
  exact Expression.whole_ofBinding (fun v hv => (h b hb v hv).whole) hexpression

theorem Node.writable_toDocument {n : Node} (h : ∀ v ∈ Record.parts n, v.Writable) :
    ∀ v ∈ Record.parts n.toDocument, v.Writable := by
  obtain ⟨hid, -, hdata, -⟩ := Node.forall_parts.mp h
  obtain ⟨-, hlabel, hconfig, hbindings, -⟩ := NodeData.forall_parts.mp hdata
  have htype : Whole n.nodeType.text := by cases n.nodeType <;> rfl
  have hname : Whole n.displayName := by
    unfold displayName
    split
    · exact writable_str.mp hid
    · exact writable_str.mp hlabel
  rw [DocumentNode.forall_parts]
  exact ⟨hid, writable_str.mpr htype, writable_str.mpr hname, hconfig,
    writable_renderInputs hbindings⟩

theorem Edge.writable_toDocument {e : Edge} (h : ∀ v ∈ Record.parts e, v.Writable) :
    ∀ v ∈ Record.parts e.toDocument, v.Writable := by
  have hvalues := (Edge.forall_parts.mp h).1
  simp only [fields, Fields.values, List.map_cons, List.map_nil, List.forall_mem_cons] at hvalues
  obtain ⟨-, hsource, htarget, -, -, hlabel, hcondition, -⟩ := hvalues
  refine DocumentEdge.forall_parts.mpr ⟨hsource, htarget, ?_⟩
  change (Json.ofOption .str e.guardText).Writable
  unfold guardText
  split
  · rename_i label hlabelled
    split
    · exact hcondition
    · rw [hlabelled] at hlabel
      exact hlabel
  · exact hcondition

/-- The heading of a document that can be written: no text in it holds half a surrogate pair. -/
structure Heading.Whole (heading : Heading) : Prop where
  name : Text.Whole heading.name
  workflowId : ∀ id ∈ heading.workflowId, id.toJson.Whole

namespace Graph

theorem whole_entryPoint {flow : List Node} (h : ∀ n ∈ flow, Whole n.id) :
    Whole (entryPoint flow) := by
  unfold entryPoint
  split
  · rename_i n hn
    exact h n (List.mem_of_find?_eq_some hn)
  · rename_i n _ hn
    exact h n (List.mem_of_mem_head? hn)
  · rfl

theorem Storable.entryPoint {g : Graph} (h : g.Storable) : Whole (entryPoint g.flowNodes) := by
  refine whole_entryPoint fun n hn => ?_
  have hnode := (forall_parts.mp (storable_iff.mp h)).1 n (List.mem_of_mem_filter hn)
  exact writable_str.mp (Node.forall_parts.mp hnode).1

/-- The document of a graph that can be stored is written exactly when its heading can be. -/
theorem checkText_toDocument_iff {g : Graph} (h : g.Storable) (heading : Heading) :
    Record.checkText (g.toDocument heading) = .ok () ↔ heading.Whole := by
  obtain ⟨hnodes, hedges⟩ := forall_parts.mp (storable_iff.mp h)
  have hid : (Json.ofOption Reference.toJson heading.workflowId).Writable ↔
      ∀ id ∈ heading.workflowId, id.toJson.Whole := by
    cases heading.workflowId with
    | none => exact iff_of_true ⟨rfl, rfl⟩ nofun
    | some id =>
      have hshallow : id.toJson.exceeds Record.deepest = false := by cases id <;> rfl
      refine ⟨fun h _ heq => Option.some.inj heq ▸ h.whole, fun h => ⟨hshallow, h id rfl⟩⟩
  rw [Record.checkText_eq_ok_iff, Document.forall_parts]
  constructor
  · rintro ⟨hworkflow, hname, -⟩
    exact ⟨writable_str.mp hname, hid.mp hworkflow⟩
  · intro hheading
    refine ⟨hid.mpr hheading.workflowId, writable_str.mpr hheading.name,
      writable_str.mpr h.entryPoint, ?_, ?_⟩
    · refine List.forall_mem_map.mpr fun n hn => ?_
      exact Node.writable_toDocument (hnodes n (List.mem_of_mem_filter hn))
    · refine List.forall_mem_map.mpr fun e he => ?_
      exact Edge.writable_toDocument (hedges e (List.mem_of_mem_filter he))

/-! The stored part of a graph. -/

theorem Sound.stored {g : Graph} (h : g.Sound) : g.stored.Sound :=
  ⟨fun n hn => h.nodes n (List.mem_of_mem_filter hn),
    fun e he => h.edges e (List.mem_of_mem_filter he)⟩

theorem Placed.stored {g : Graph} (h : g.Placed) : g.stored.Placed :=
  fun n hn => h n (List.mem_of_mem_filter hn)

/-- The graph without its application nodes and every edge that touches the id of one. -/
def withoutAppInfo (g : Graph) : Graph where
  nodes := g.nodes.filter fun n => !n.isAppInfo
  edges := g.edges.filter fun e => !g.nodes.any fun n => n.isAppInfo && e.touches n.id

/-- Some node of the flow has the id of an application node. -/
def SharesAppInfoId (g : Graph) : Prop :=
  ∃ n ∈ g.nodes, n.isAppInfo = false ∧ ∃ app ∈ g.nodes, app.isAppInfo = true ∧ app.id = n.id

theorem mem_appInfoIds {g : Graph} {id : String} :
    id ∈ (g.nodesOfType .appInfo).map (·.id) ↔
      ∃ app ∈ g.nodes, app.isAppInfo = true ∧ app.id = id := by
  rw [List.mem_map]
  constructor
  · rintro ⟨app, happ, rfl⟩
    exact ⟨app, List.mem_of_mem_filter happ, List.of_mem_filter happ, rfl⟩
  · rintro ⟨app, happ, htype, rfl⟩
    exact ⟨app, List.mem_filter.mpr ⟨happ, htype⟩, rfl⟩

theorem stored_edges (g : Graph) : g.stored.edges = g.withoutAppInfo.edges := by
  refine List.filter_congr fun e _ => ?_
  rw [← Bool.not_or]
  congr 1
  rw [Bool.eq_iff_iff, Bool.or_eq_true, List.contains_iff_mem, List.contains_iff_mem,
    mem_appInfoIds, mem_appInfoIds, List.any_eq_true]
  simp only [Bool.and_eq_true, Edge.touches, Bool.or_eq_true, beq_iff_eq]
  constructor
  · rintro (⟨app, happ, htype, hid⟩ | ⟨app, happ, htype, hid⟩)
    · exact ⟨app, happ, htype, Or.inl hid.symm⟩
    · exact ⟨app, happ, htype, Or.inr hid.symm⟩
  · rintro ⟨app, happ, htype, hid | hid⟩
    · exact Or.inl ⟨app, happ, htype, hid.symm⟩
    · exact Or.inr ⟨app, happ, htype, hid.symm⟩

theorem stored_eq_iff (g : Graph) :
    g.stored = g.withoutAppInfo ↔ ¬g.SharesAppInfoId := by
  constructor
  · rintro heq ⟨n, hn, hflow, happ⟩
    have hkept : n ∈ g.stored.nodes := by
      rw [heq]
      exact List.mem_filter.mpr ⟨hn, by rw [hflow]; rfl⟩
    have hout := List.of_mem_filter hkept
    rw [Bool.not_eq_true', List.contains_eq_mem, decide_eq_false_iff_not] at hout
    exact hout (mem_appInfoIds.mpr happ)
  · intro hshares
    have hnodes : g.stored.nodes = g.withoutAppInfo.nodes := by
      refine List.filter_congr fun n hn => ?_
      congr 1
      rw [Bool.eq_iff_iff, List.contains_iff_mem, mem_appInfoIds]
      constructor
      · rintro ⟨app, happ, htype, hid⟩
        by_contra hflow
        exact hshares ⟨n, hn, Bool.eq_false_iff.mpr hflow, app, happ, htype, hid⟩
      · exact fun htype => ⟨n, hn, htype, rfl⟩
    calc g.stored = ⟨g.stored.nodes, g.stored.edges⟩ := rfl
      _ = g.withoutAppInfo := by rw [hnodes, stored_edges]

theorem not_sharesAppInfoId_of_nodup {g : Graph} (hids : (g.nodes.map (·.id)).Nodup) :
    ¬g.SharesAppInfoId := by
  rintro ⟨n, hn, hflow, app, happ, htype, hid⟩
  rw [List.inj_on_of_nodup_map hids happ hn hid, hflow] at htype
  cases htype

/-! Loading. -/

theorem isEmpty_snapshot (g : Graph) : g.snapshot.isEmpty = false := by
  rw [Bool.eq_false_iff]
  intro hempty
  have hlist := congrArg String.toList (String.isEmpty_iff.mp hempty)
  change (String.ofList (Json.write Json.compact (.obj g.fields))).toList = [] at hlist
  rw [String.toList_ofList, Json.write] at hlist
  cases hlist

/-- A graph is saved exactly when both its stored part and the heading can be written. -/
theorem save_eq_ok_iff {g : Graph} {heading : Heading} {p : StoredWorkflow} :
    g.save heading = .ok p ↔ g.stored.Storable ∧ heading.Whole ∧
      p = ⟨some g.stored.snapshot, some (g.stored.toDocument heading).text⟩ := by
  constructor
  · intro h
    obtain ⟨graphText, hgraph, h⟩ := Except.bind_eq_ok.mp h
    obtain ⟨hstorable, rfl⟩ := stored_eq_ok_iff.mp hgraph
    obtain ⟨_, hdocument, h⟩ := Except.bind_eq_ok.mp h
    exact ⟨hstorable, (checkText_toDocument_iff hstorable heading).mp hdocument,
      (Except.ok.inj h).symm⟩
  · rintro ⟨hstorable, hheading, rfl⟩
    refine Except.bind_eq_ok.mpr ⟨_, stored_eq_ok_iff.mpr ⟨hstorable, rfl⟩, ?_⟩
    exact Except.bind_eq_ok.mpr ⟨(), (checkText_toDocument_iff hstorable heading).mpr hheading, rfl⟩

theorem eq_of_save {g : Graph} {heading : Heading} {p : StoredWorkflow}
    (h : g.save heading = .ok p) :
    p = ⟨some g.stored.snapshot, some (g.stored.toDocument heading).text⟩ :=
  (save_eq_ok_iff.mp h).2.2

theorem save_eq_ok {g : Graph} {heading : Heading} {p : StoredWorkflow}
    (h : g.save heading = .ok p) : p.graphData = some g.stored.snapshot :=
  congrArg (·.graphData) (eq_of_save h)

theorem decode_snapshot_iff {g loaded : Graph} (h : g.Sound) :
    decode g.snapshot = .ok loaded ↔ g.Readable ∧ g.Placed ∧ loaded = g.finite := by
  rw [← ofSnapshot_snapshot_iff h, decode, ofSnapshot]
  cases (Record.readText g.snapshot : Checked Graph) with
  | ok found => rw [Except.ok.injEq, Checked.ok.injEq]
  | bad problems => exact ⟨fun heq => (by cases heq), fun heq => (by cases heq)⟩

theorem graph?_of_save {g : Graph} (h : g.Sound) {heading : Heading} {p : StoredWorkflow}
    (hsave : g.save heading = .ok p) {loaded : Graph} :
    p.graph? = some loaded ↔
      g.stored.Readable ∧ g.stored.Placed ∧ loaded = g.stored.finite := by
  rw [← decode_snapshot_iff h.stored, StoredWorkflow.graph?, save_eq_ok hsave,
    StoredWorkflow.present, Option.filter_some, isEmpty_snapshot, Bool.not_false, if_pos rfl,
    Option.bind_some]
  exact ⟨Except.eq_ok_of_toOption, fun heq => by rw [heq]; rfl⟩

/-- A node of the flow that has the id of an application node is not loaded. -/
theorem not_sharesAppInfoId_of_finite_eq {g : Graph}
    (h : g.withoutAppInfo.finite = g.stored.finite) : ¬g.SharesAppInfoId := by
  rintro ⟨n, hn, hflow, happ⟩
  have hkept : n.finite ∈ g.stored.finite.nodes := by
    rw [← h]
    exact List.mem_map_of_mem (List.mem_filter.mpr ⟨hn, by rw [hflow]; rfl⟩)
  obtain ⟨m, hm, hsame⟩ := List.mem_map.mp hkept
  have hid : m.finite.id = n.finite.id := congrArg Node.id hsame
  have hout := List.of_mem_filter hm
  rw [Bool.not_eq_true', List.contains_eq_mem, decide_eq_false_iff_not] at hout
  exact hout (hid ▸ mem_appInfoIds.mpr happ)

/-- Whatever graph is read and saved, it is loaded again without its application nodes and with
null for numbers that are not finite in its untyped values, and from the text of the graph,
exactly when this text is readable, the heading of the document can be written, and no node of the
flow has the id of an application node. -/
theorem load_save_iff {medium : Medium} {v : Json} {g : Graph} (hv : Json.proper v = true)
    (hread : read medium v = .ok g) (hplaced : g.Placed) (heading : Heading) (grid : Grid)
    (catalog : Catalog) :
    (∃ p, g.save heading = .ok p ∧ p.graph? = some g.withoutAppInfo.finite ∧
        p.load grid catalog none = .ok g.withoutAppInfo.finite) ↔
      g.stored.Readable ∧ heading.Whole ∧ ¬g.SharesAppInfoId := by
  have hsound := sound_of_read hv hread
  constructor
  · rintro ⟨p, hsave, hgraph, -⟩
    obtain ⟨hreadable, -, heq⟩ := (graph?_of_save hsound hsave).mp hgraph
    exact ⟨hreadable, (save_eq_ok_iff.mp hsave).2.1, not_sharesAppInfoId_of_finite_eq heq⟩
  · rintro ⟨hreadable, hheading, hshares⟩
    obtain ⟨p, hsave⟩ : ∃ p, g.save heading = .ok p :=
      ⟨_, save_eq_ok_iff.mpr ⟨hreadable.storable, hheading, rfl⟩⟩
    have hgraph : p.graph? = some g.withoutAppInfo.finite := by
      rw [graph?_of_save hsound hsave, (stored_eq_iff g).mpr hshares]
      exact ⟨(stored_eq_iff g).mpr hshares ▸ hreadable,
        (stored_eq_iff g).mpr hshares ▸ hplaced.stored, rfl⟩
    refine ⟨p, hsave, hgraph, ?_⟩
    rw [StoredWorkflow.load, StoredWorkflow.loadGraph, hgraph]
    rfl

/-! A start node with the id of the application node. It is saved nowhere. -/

def sharedIdValue : Json :=
  .obj [("nodes", .arr
    [.obj [("id", .str "a"), ("data", .obj [("nodeType", .str "APP_INFO")])],
      .obj [("id", .str "a"), ("data", .obj [("nodeType", .str "START")])]])]

def sharedIdGraph : Graph where
  nodes :=
    [⟨"a", "custom", .origin, ⟨some "a", .appInfo, "", [], .idle, [], [], [], []⟩, []⟩,
      ⟨"a", "custom", .origin, ⟨some "a", .start, "", [], .idle, [], [], [], []⟩, []⟩]
  edges := []

theorem placed_sharedIdGraph : sharedIdGraph.Placed := by
  intro n hn
  rcases List.mem_cons.mp hn with rfl | hn
  · rfl
  · cases List.mem_singleton.mp hn
    rfl

theorem not_load_save_of_sharesAppInfoId :
    Json.proper sharedIdValue = true ∧ read .value sharedIdValue = .ok sharedIdGraph ∧
      ¬∃ p, sharedIdGraph.save ⟨none, ""⟩ = .ok p ∧
        p.graph? = some sharedIdGraph.withoutAppInfo.finite ∧
        p.load .standard .builtIn none = .ok sharedIdGraph.withoutAppInfo.finite := by
  have hproper : Json.proper sharedIdValue = true := by decide
  have hread : read .value sharedIdValue = .ok sharedIdGraph := rfl
  refine ⟨hproper, hread, ?_⟩
  rw [load_save_iff hproper hread placed_sharedIdGraph]
  rintro ⟨-, -, hshares⟩
  exact hshares ⟨_, List.mem_cons_of_mem _ List.mem_cons_self, rfl, _, List.mem_cons_self, rfl, rfl⟩

end Graph
end WorkflowStudio
