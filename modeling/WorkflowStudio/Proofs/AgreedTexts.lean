import WorkflowStudio.Proofs.DocumentText
import WorkflowStudio.Proofs.ResavedGraph

/-!
The two stored texts of a workflow. They are written from one graph, and whenever both can be
read, the document is the one of the graph that is read. The graph holds more than the document,
and its values lie one level deeper, so a document can be readable beside a graph that is not.
-/
namespace WorkflowStudio

open Text (Whole)
open Json (writable_str)

/-! The document of what is read. -/

theorem Json.finiteFields_renderInputs (bindings : List ParamBinding) :
    finiteFields (renderInputs bindings) = renderInputs bindings := by
  rw [finiteFields_eq_map]
  refine (List.map_congr_left fun field hfield => ?_).trans (List.map_id _)
  obtain ⟨b, -, expression, -, rfl⟩ := exists_of_mem_renderInputs hfield
  rfl

theorem Node.toDocument_finite (n : Node) : n.finite.toDocument = n.toDocument.finite := by
  have hinputs : Json.finiteFields n.toDocument.inputs = n.toDocument.inputs :=
    Json.finiteFields_renderInputs n.data.bindings
  rw [DocumentNode.finite, hinputs]
  rfl

namespace Graph

variable {g : Graph}

theorem toDocument_finite (g : Graph) (heading : Heading) :
    g.finite.toDocument heading = (g.toDocument heading).finite := by
  have hnodes : g.finite.flowNodes.map Node.toDocument =
      (g.flowNodes.map Node.toDocument).map DocumentNode.finite := by
    rw [flowNodes_finite, List.map_map, List.map_map]
    exact List.map_congr_left fun n _ => n.toDocument_finite
  have hentry : entryPoint g.finite.flowNodes = entryPoint g.flowNodes := by
    rw [flowNodes_finite, entryPoint_map_finite]
  have hedges : g.finite.flowEdges.map Edge.toDocument = g.flowEdges.map Edge.toDocument :=
    toDocument_edges_finite g heading
  unfold toDocument Document.finite
  rw [hnodes, hentry, hedges]

/-- The application nodes are left out of a document as they are of the stored graph, unless some
node of the flow has the id of one. -/
theorem toDocument_stored (hshares : ¬g.SharesAppInfoId) (heading : Heading) :
    g.stored.toDocument heading = g.toDocument heading := by
  have hflow : g.withoutAppInfo.flowNodes = g.flowNodes := by
    rw [flowNodes, withoutAppInfo, flowNodes, List.filter_filter]
    simp only [Bool.and_self]
  have hedges : g.withoutAppInfo.flowEdges = g.flowEdges := by
    rw [flowEdges, flowEdges, hflow, withoutAppInfo, List.filter_filter]
    refine List.filter_congr fun e _ => Bool.and_eq_left_iff_imp.mpr fun hjoins => ?_
    rw [Bool.not_eq_true', List.any_eq_false]
    intro app happ htouches
    rw [Bool.and_eq_true, Edge.touches, Bool.or_eq_true, beq_iff_eq, beq_iff_eq] at htouches
    rw [Bool.and_eq_true, List.contains_iff_mem, List.contains_iff_mem] at hjoins
    have hid : app.id ∈ g.flowNodes.map (·.id) :=
      htouches.2.elim (fun h => h ▸ hjoins.1) fun h => h ▸ hjoins.2
    obtain ⟨n, hn, hsame⟩ := List.mem_map.mp hid
    obtain ⟨hnode, hflows⟩ := List.mem_filter.mp hn
    exact hshares ⟨n, hnode, by simpa using hflows, app, happ, htouches.1, hsame.symm⟩
  rw [(stored_eq_iff g).mpr hshares, toDocument, hflow, hedges, toDocument]

theorem Sound.toDocument (h : g.Sound) (heading : Heading) : (g.toDocument heading).Sound := by
  intro shown hshown
  obtain ⟨n, hn, rfl⟩ := List.mem_map.mp hshown
  refine ⟨(h.nodes n (List.mem_of_mem_filter hn)).data.config, Json.proper_obj.mpr ⟨?_, ?_⟩⟩
  · intro field hfield
    obtain ⟨b, -, expression, -, rfl⟩ := exists_of_mem_renderInputs hfield
    rfl
  · exact Fields.nodup_names_merge List.nodup_nil

end Graph

/-! Reading a document. -/

def Reference.Readable : Reference → Prop
  | .text s => Whole s
  | .whole n => Numeral.isTooLong (n < 0) (Numeral.wholeDigits n.natAbs) = false

/-- A name and an identifier that can be read again. -/
structure Heading.Readable (heading : Heading) : Prop where
  name : Text.Whole heading.name
  workflowId : ∀ id ∈ heading.workflowId, id.Readable

theorem Heading.Readable.whole {heading : Heading} (h : heading.Readable) : heading.Whole := by
  refine ⟨h.name, fun id hid => ?_⟩
  cases id with
  | text s => exact Json.whole_str.mpr (h.workflowId _ hid)
  | whole n => rfl

theorem Reference.readable_iff {id : Reference} {depth : Nat} :
    id.Readable ↔ Json.ReadableIn depth id.toJson := by
  cases id with
  | text s => exact Json.readableIn_str.symm
  | whole n =>
    have hlegible : Json.legible Json.strict depth (.int n) =
        !Numeral.isTooLong (n < 0) (Numeral.wholeDigits n.natAbs) := rfl
    rw [Readable, toJson, Json.ReadableIn, hlegible, Bool.not_eq_true']
    exact ⟨fun h => ⟨rfl, h⟩, fun h => h.2⟩

namespace Graph

variable {g : Graph}

/-- The settings of a node lie below five levels of a written graph. -/
theorem Readable.config (h : g.Readable) {n : Node} (hn : n ∈ g.nodes) :
    Json.ReadableIn 196 (.obj (Json.finiteFields n.config)) := by
  have hgraph : Json.ReadableIn 200 (.obj g.fields) := ⟨h.whole, h.legible⟩
  have hnodes := (Json.readableIn_obj.mp hgraph _
    (Fields.mem_of_get? (rfl : g.fields.get? "nodes" = some _))).2
  have hnode := Json.readableIn_arr.mp hnodes _ (List.mem_map_of_mem hn)
  rw [Node.write_kept] at hnode
  have hdata := (Json.readableIn_obj.mp hnode _ (List.mem_append_left _
    (Fields.mem_of_get? (rfl : n.fields.get? "data" = some _)))).2
  rw [NodeData.write_kept] at hdata
  exact (Json.readableIn_obj.mp hdata _ (List.mem_append_left _
    (Fields.mem_of_get? (rfl : n.data.fields.get? "config" = some _)))).2

/-- The inputs of a node are texts, so they lie one level below it. -/
theorem readableIn_renderInputs {bindings : List ParamBinding}
    (h : ∀ v ∈ (renderInputs bindings).parts, v.Writable) {depth : Nat} :
    Json.ReadableIn (depth + 1) (.obj (Json.finiteFields (renderInputs bindings))) := by
  rw [Json.finiteFields_renderInputs, Json.readableIn_obj]
  intro field hfield
  obtain ⟨hkey, hvalue⟩ := List.forall_mem_cons.mp (List.forall_mem_flatMap.mp h field hfield)
  refine ⟨writable_str.mp hkey, (List.forall_mem_singleton.mp hvalue).whole, ?_⟩
  obtain ⟨_, -, _, -, rfl⟩ := exists_of_mem_renderInputs hfield
  rfl

theorem readableIn_node (h : g.Readable) {n : Node} (hn : n ∈ g.nodes) :
    Json.ReadableIn 198 (DocumentNode.write .dropped n.toDocument) := by
  have hnode := (forall_parts.mp (storable_iff.mp h.storable)).1 n hn
  obtain ⟨hid, htype, hname, -, hinputs⟩ :=
    DocumentNode.forall_parts.mp (Node.writable_toDocument hnode)
  have htext {s : String} (hs : (Json.str s).Writable) {depth : Nat} :
      Json.ReadableIn depth (.str s) := Json.readableIn_str.mpr (writable_str.mp hs)
  rw [DocumentNode.write_dropped, Json.readableIn_obj]
  simp only [DocumentNode.fields, List.forall_mem_cons]
  exact ⟨⟨rfl, htext hid⟩, ⟨rfl, htext htype⟩, ⟨rfl, htext hname⟩, ⟨rfl, (h.config hn).succ⟩,
    ⟨rfl, readableIn_renderInputs hinputs⟩, fun _ h => absurd h List.not_mem_nil⟩

theorem readableIn_edge (h : g.Readable) {e : Edge} (he : e ∈ g.edges) {depth : Nat} :
    Json.ReadableIn (depth + 1) (DocumentEdge.write .dropped e.toDocument) := by
  have hedge := (forall_parts.mp (storable_iff.mp h.storable)).2 e he
  obtain ⟨hsource, htarget, hguard⟩ :=
    DocumentEdge.forall_parts.mp (Edge.writable_toDocument hedge)
  rw [DocumentEdge.write_dropped, Json.readableIn_obj, List.forall_mem_append]
  refine ⟨?_, fun field hfield => ?_⟩
  · simp only [List.forall_mem_cons]
    exact ⟨⟨rfl, Json.readableIn_str.mpr (writable_str.mp hsource)⟩,
      ⟨rfl, Json.readableIn_str.mpr (writable_str.mp htarget)⟩,
      fun _ h => absurd h List.not_mem_nil⟩
  · obtain ⟨guardText, hsome, rfl⟩ := Option.map_eq_some_iff.mp (Option.mem_toList.mp hfield)
    exact ⟨(rfl : Text.isBroken "condition" = false),
      Json.readableIn_str.mpr (Json.writable_ofOption_str.mp hguard guardText hsome)⟩

/-- The document of a readable graph can be read when its heading can. -/
theorem readable_toDocument_iff (hreadable : g.Readable) {heading : Heading} :
    (g.toDocument heading).Readable ↔ heading.Readable := by
  have hfields : (g.toDocument heading).Readable ↔ ∀ field ∈ (g.toDocument heading).fields,
      Whole field.1 ∧ Json.ReadableIn 199 field.2 := by
    rw [Document.Readable, Document.write_dropped]
    exact Json.readableIn_obj
  rw [hfields, Document.fields, List.forall_mem_append]
  constructor
  · rintro ⟨hid, hrest⟩
    refine ⟨Json.readableIn_str.mp (hrest _ List.mem_cons_self).2, fun id hsome => ?_⟩
    have hmem : ("workflowId", id.toJson) ∈
        (heading.workflowId.map fun id => ("workflowId", id.toJson)).toList :=
      Option.mem_toList.mpr (Option.map_eq_some_iff.mpr ⟨id, hsome, rfl⟩)
    exact Reference.readable_iff.mpr (hid _ hmem).2
  · intro hheading
    refine ⟨fun field hfield => ?_, ?_⟩
    · obtain ⟨id, hsome, rfl⟩ := Option.map_eq_some_iff.mp (Option.mem_toList.mp hfield)
      exact ⟨(rfl : Text.isBroken "workflowId" = false),
        Reference.readable_iff.mp (hheading.workflowId id hsome)⟩
    · have hentry := hreadable.storable.entryPoint
      simp only [List.forall_mem_cons]
      refine ⟨⟨rfl, Json.readableIn_str.mpr hheading.name⟩,
        ⟨rfl, Json.readableIn_str.mpr hentry⟩, ⟨rfl, Json.readableIn_arr.mpr ?_⟩,
        ⟨rfl, Json.readableIn_arr.mpr ?_⟩, fun _ h => absurd h List.not_mem_nil⟩
      · rw [List.forall_mem_map]
        intro shown hshown
        obtain ⟨n, hn, rfl⟩ := List.mem_map.mp hshown
        exact readableIn_node hreadable (List.mem_of_mem_filter hn)
      · rw [List.forall_mem_map]
        intro shown hshown
        obtain ⟨e, he, rfl⟩ := List.mem_map.mp hshown
        exact readableIn_edge hreadable (List.mem_of_mem_filter he)

end Graph

/-! Both texts. -/

namespace StoredWorkflow

/-- The two texts are read as a document and a graph. -/
def DecodesTo (p : StoredWorkflow) (d : Document) (g : Graph) : Prop :=
  (∃ text, p.documentData = some text ∧ Document.decode text = .ok d) ∧
    ∃ text, p.graphData = some text ∧ Graph.decode text = .ok g

end StoredWorkflow

namespace Graph

variable {g : Graph}

theorem decodesTo_iff (h : g.Sound) (hplaced : g.Placed) {heading : Heading} {p : StoredWorkflow}
    (hsave : g.save heading = .ok p) {d : Document} {loaded : Graph} :
    p.DecodesTo d loaded ↔ g.stored.Readable ∧ heading.Readable ∧ loaded = g.stored.finite ∧
      d = (g.stored.toDocument heading).finite := by
  have hdecodes : p.DecodesTo d loaded ↔
      Document.decode (g.stored.toDocument heading).text = .ok d ∧
        decode g.stored.snapshot = .ok loaded := by
    rw [StoredWorkflow.DecodesTo, eq_of_save hsave]
    simp only [Option.some.injEq, exists_eq_left']
  rw [hdecodes, Document.decode_text_iff (h.stored.toDocument heading),
    decode_snapshot_iff h.stored]
  constructor
  · rintro ⟨⟨hdocument, rfl⟩, hreadable, -, rfl⟩
    exact ⟨hreadable, (readable_toDocument_iff hreadable).mp hdocument, rfl, rfl⟩
  · rintro ⟨hreadable, hheading, rfl, rfl⟩
    exact ⟨⟨(readable_toDocument_iff hreadable).mpr hheading, rfl⟩, hreadable, hplaced.stored, rfl⟩

/-- The texts of a graph with distinct ids never disagree: if both can be read, the document that
is read is the document of the graph that is read, and it is the document of the graph itself,
with null for numbers that are not finite in untyped values. Both can be read exactly when the
stored graph and the heading can. -/
theorem texts_agree {medium : Medium} {v : Json} (hv : Json.proper v = true)
    (hread : read medium v = .ok g) (hids : (g.nodes.map (·.id)).Nodup) (hplaced : g.Placed)
    (heading : Heading) :
    (∀ p d loaded, g.save heading = .ok p → p.DecodesTo d loaded →
        d = loaded.toDocument heading ∧ d = (g.toDocument heading).finite) ∧
      ((∃ p d loaded, g.save heading = .ok p ∧ p.DecodesTo d loaded) ↔
        g.stored.Readable ∧ heading.Readable) := by
  have h := sound_of_read hv hread
  refine ⟨fun p d loaded hsave hdecodes => ?_, ?_, ?_⟩
  · obtain ⟨-, -, rfl, rfl⟩ := (decodesTo_iff h hplaced hsave).mp hdecodes
    refine ⟨(toDocument_finite _ heading).symm, ?_⟩
    rw [toDocument_stored (not_sharesAppInfoId_of_nodup hids)]
  · rintro ⟨p, d, loaded, hsave, hdecodes⟩
    obtain ⟨hreadable, hheading, -⟩ := (decodesTo_iff h hplaced hsave).mp hdecodes
    exact ⟨hreadable, hheading⟩
  · rintro ⟨hreadable, hheading⟩
    have hsave := save_eq_ok_iff.mpr ⟨hreadable.storable, hheading.whole, rfl⟩
    exact ⟨_, _, _, hsave, (decodesTo_iff h hplaced hsave).mpr ⟨hreadable, hheading, rfl, rfl⟩⟩

/-! A setting in so many brackets that the document can be read and the graph cannot. -/

def bracketedSetting : Fields := [("a", (fun v => .arr [v])^[196] (.arr []))]

def bracketedValue : Json :=
  .obj [("nodes", .arr [.obj [("id", .str "s"), ("data", .obj [("nodeType", .str "START"),
    ("config", .obj bracketedSetting)])]])]

def bracketedGraph : Graph where
  nodes := [⟨"s", "custom", .origin,
    ⟨some "s", .start, "", bracketedSetting, .idle, [], [], [], []⟩, []⟩]
  edges := []

theorem not_decodesTo_bracketedGraph :
    Json.proper bracketedValue = true ∧ read .value bracketedValue = .ok bracketedGraph ∧
      (∃ p text, bracketedGraph.save ⟨none, "w"⟩ = .ok p ∧ p.documentData = some text ∧
        Document.decode text = .ok (bracketedGraph.toDocument ⟨none, "w"⟩).finite) ∧
      ¬∃ p d loaded, bracketedGraph.save ⟨none, "w"⟩ = .ok p ∧ p.DecodesTo d loaded := by
  have hproper : Json.proper bracketedValue = true := by decide +kernel
  have hread : read .value bracketedValue = .ok bracketedGraph := rfl
  have hplaced : bracketedGraph.Placed := fun n hn => List.mem_singleton.mp hn ▸ rfl
  refine ⟨hproper, hread, ?_, ?_⟩
  · have hreadable : (bracketedGraph.toDocument ⟨none, "w"⟩).Readable :=
      ⟨Option.isNone_iff_eq_none.mp (by decide +kernel), by decide +kernel⟩
    have hsaved : (bracketedGraph.save ⟨none, "w"⟩).toOption.isSome = true := by decide +kernel
    obtain ⟨p, hp⟩ := Option.isSome_iff_exists.mp hsaved
    have hsave := Except.eq_ok_of_toOption hp
    have hsound := (sound_of_read hproper hread).toDocument ⟨none, "w"⟩
    exact ⟨p, _, hsave, congrArg (·.documentData) (eq_of_save hsave),
      (Document.decode_text_iff hsound).mpr ⟨hreadable, rfl⟩⟩
  · rw [(texts_agree hproper hread (by decide) hplaced ⟨none, "w"⟩).2]
    rintro ⟨hreadable, -⟩
    have hillegible : Json.legible Json.strict Json.strict.deepest
        (write .kept bracketedGraph.stored) = false := by decide +kernel
    rw [hreadable.legible] at hillegible
    cases hillegible

end Graph
end WorkflowStudio
