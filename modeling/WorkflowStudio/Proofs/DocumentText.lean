import WorkflowStudio.Proofs.GraphText
import WorkflowStudio.Proofs.WholeText
import WorkflowStudio.Storage.Stored

/-!
The stored text of a document. Fields without a value are left out of it, and they are read as
having none. So a document reads back from its text, with null for the numbers that are not
finite in its settings and inputs, exactly when the text can be read at all.
-/
namespace WorkflowStudio

namespace Json

/-- A value that is read again where a text leaves it a number of levels: all its texts hold whole
characters, nothing in it nests too deep, and no whole number in it is too long. -/
def ReadableIn (depth : Nat) (v : Json) : Prop := v.Whole ∧ legible strict depth v = true

theorem readableIn_arr {depth : Nat} {items : List Json} :
    ReadableIn (depth + 1) (.arr items) ↔ ∀ v ∈ items, ReadableIn depth v := by
  rw [ReadableIn, whole_arr, legible_arr]
  exact forall₂_and.symm

theorem readableIn_obj {depth : Nat} {fs : Fields} : ReadableIn (depth + 1) (.obj fs) ↔
    ∀ field ∈ fs, Text.Whole field.1 ∧ ReadableIn depth field.2 := by
  rw [ReadableIn, whole_obj, legible_obj, ← forall₂_and]
  exact forall₂_congr fun _ _ => and_assoc

theorem readableIn_str {depth : Nat} {s : String} : ReadableIn depth (.str s) ↔ Text.Whole s :=
  ⟨fun h => whole_str.mp h.1, fun h => ⟨whole_str.mpr h, rfl⟩⟩

theorem ReadableIn.succ {depth : Nat} {v : Json} (h : ReadableIn depth v) :
    ReadableIn (depth + 1) v :=
  ⟨h.1, legible_succ v h.2⟩

end Json

theorem Json.asReference_toJson (id : Reference) : asReference id.toJson = .ok id := by
  cases id <;> rfl

/-! Nodes. -/

namespace DocumentNode

theorem forall_parts {good : Json → Prop} {n : DocumentNode} :
    (∀ v ∈ Record.parts n, good v) ↔ good (.str n.id) ∧ good (.str n.type) ∧ good (.str n.name) ∧
      (∀ v ∈ n.config.parts, good v) ∧ ∀ v ∈ n.inputs.parts, good v := by
  have hparts : Record.parts n =
      .str n.id :: .str n.type :: .str n.name :: (n.config.parts ++ n.inputs.parts) := rfl
  simp only [hparts, List.forall_mem_cons, List.forall_mem_append]

def fields (n : DocumentNode) : Fields :=
  [("id", .str n.id), ("type", .str n.type), ("name", .str n.name),
    ("config", .obj (Json.finiteFields n.config)), ("inputs", .obj (Json.finiteFields n.inputs))]

theorem write_dropped (n : DocumentNode) : write .dropped n = .obj n.fields := rfl

def finite (n : DocumentNode) : DocumentNode :=
  { n with config := Json.finiteFields n.config, inputs := Json.finiteFields n.inputs }

/-- Settings and inputs have distinct names. -/
structure Sound (n : DocumentNode) : Prop where
  config : Json.proper (.obj n.config) = true
  inputs : Json.proper (.obj n.inputs) = true

theorem read_write (n : DocumentNode) : read (write .dropped n) = .ok n.finite := by
  rw [write_dropped]
  have hid : Fields.required n.fields ["id"] Json.asText = .ok n.id :=
    Fields.required_of_get? rfl rfl
  have htype : Fields.required n.fields ["type"] Json.asText = .ok n.type :=
    Fields.required_of_get? rfl rfl
  have hname : Fields.optional n.fields ["name"] "" Json.asText = .ok n.name :=
    Fields.optional_of_get? "" rfl rfl
  have hconfig : Fields.optional n.fields ["config"] [] Json.asObject =
      .ok (Json.finiteFields n.config) :=
    Fields.optional_of_get? [] rfl rfl
  have hinputs : Fields.optional n.fields ["inputs"] [] Json.asObject =
      .ok (Json.finiteFields n.inputs) :=
    Fields.optional_of_get? [] rfl rfl
  rw [read, Json.asRecord, hid, htype, hname, hconfig, hinputs]
  rfl

theorem proper_write {n : DocumentNode} (h : n.Sound) :
    Json.proper (write .dropped n) = true := by
  rw [write_dropped, Json.proper_obj]
  have hnames : n.fields.names = ["id", "type", "name", "config", "inputs"] := rfl
  refine ⟨?_, hnames ▸ by decide⟩
  simp only [fields, List.forall_mem_cons]
  refine ⟨rfl, rfl, rfl, ?_, ?_, fun _ h => absurd h List.not_mem_nil⟩
  · exact (Json.proper_finite (.obj n.config)).trans h.config
  · exact (Json.proper_finite (.obj n.inputs)).trans h.inputs

theorem finite_write (n : DocumentNode) : (write .dropped n).finite = write .dropped n := by
  simp only [write_dropped, fields, Json.finite, Json.finiteFields, Json.finiteFields_finite]

end DocumentNode

/-! Edges. -/

namespace DocumentEdge

theorem forall_parts {good : Json → Prop} {e : DocumentEdge} :
    (∀ v ∈ Record.parts e, good v) ↔
      good (.str e.source) ∧ good (.str e.target) ∧ good (Json.ofOption .str e.condition) := by
  have hparts : Record.parts e =
      [.str e.source, .str e.target, Json.ofOption .str e.condition] := rfl
  rw [hparts, List.forall_mem_cons, List.forall_mem_cons, List.forall_mem_singleton]

theorem write_dropped (e : DocumentEdge) : write .dropped e = .obj ([("from", .str e.source),
    ("to", .str e.target)] ++ (e.condition.map fun c => ("condition", .str c)).toList) := by
  obtain ⟨source, target, condition⟩ := e
  cases condition <;> rfl

theorem read_write (e : DocumentEdge) : read (write .dropped e) = .ok e := by
  obtain ⟨source, target, condition⟩ := e
  rw [write_dropped]
  generalize hfs : ([("from", .str source), ("to", .str target)] ++
    (condition.map fun c => ("condition", Json.str c)).toList : Fields) = fs
  have hfrom : fs.required ["from", "from_"] Json.asText = .ok source :=
    Fields.required_of_get? (v := .str source) (hfs ▸ rfl) rfl
  have hto : fs.required ["to"] Json.asText = .ok target :=
    Fields.required_of_get? (v := .str target) (hfs ▸ rfl) rfl
  have hcondition : fs.optional ["condition"] none (Json.asOptional Json.asText) =
      .ok condition := by
    cases condition with
    | none => rw [← hfs]; rfl
    | some c =>
      have hget : fs.get? "condition" = some (.str c) := hfs ▸ rfl
      exact Fields.optional_of_get? none hget rfl
  rw [read, Json.asRecord, hfrom, hto, hcondition]
  rfl

theorem proper_write (e : DocumentEdge) : Json.proper (write .dropped e) = true := by
  rw [write_dropped]
  cases e.condition <;> rfl

theorem finite_write (e : DocumentEdge) : (write .dropped e).finite = write .dropped e := by
  rw [write_dropped]
  cases e.condition <;> rfl

end DocumentEdge

/-! Documents. -/

namespace Document

theorem forall_parts {good : Json → Prop} {d : Document} : (∀ v ∈ Record.parts d, good v) ↔
    good (Json.ofOption Reference.toJson d.workflowId) ∧ good (.str d.name) ∧
      good (.str d.entryPoint) ∧ (∀ n ∈ d.nodes, ∀ v ∈ Record.parts n, good v) ∧
        ∀ e ∈ d.edges, ∀ v ∈ Record.parts e, good v := by
  have hparts : Record.parts d = Json.ofOption Reference.toJson d.workflowId :: .str d.name ::
      .str d.entryPoint ::
        (d.nodes.flatMap Record.parts ++ d.edges.flatMap Record.parts) := rfl
  simp only [hparts, List.forall_mem_cons, List.forall_mem_append, List.forall_mem_flatMap]

def fields (d : Document) : Fields :=
  (d.workflowId.map fun id => ("workflowId", id.toJson)).toList ++
    [("name", .str d.name), ("entryPoint", .str d.entryPoint),
      ("nodes", .arr (d.nodes.map (DocumentNode.write .dropped))),
      ("edges", .arr (d.edges.map (DocumentEdge.write .dropped)))]

theorem write_dropped (d : Document) : write .dropped d = .obj d.fields := by
  obtain ⟨workflowId, name, entryPoint, nodes, edges⟩ := d
  cases workflowId <;> rfl

def finite (d : Document) : Document := { d with nodes := d.nodes.map DocumentNode.finite }

def Sound (d : Document) : Prop := ∀ n ∈ d.nodes, n.Sound

/-- A document whose text can be read. -/
def Readable (d : Document) : Prop := Json.ReadableIn Json.strict.deepest (write .dropped d)

theorem read_write (d : Document) : read (write .dropped d) = .ok d.finite := by
  obtain ⟨workflowId, name, entryPoint, nodes, edges⟩ := d
  rw [write_dropped]
  generalize hfs : fields ⟨workflowId, name, entryPoint, nodes, edges⟩ = fs
  have hnameGet : fs.get? "name" = some (.str name) := by
    rw [← hfs]
    cases workflowId <;> rfl
  have hentryGet : fs.get? "entryPoint" = some (.str entryPoint) := by
    rw [← hfs]
    cases workflowId <;> rfl
  have hnodesGet : fs.get? "nodes" = some (.arr (nodes.map (DocumentNode.write .dropped))) := by
    rw [← hfs]
    cases workflowId <;> rfl
  have hedgesGet : fs.get? "edges" = some (.arr (edges.map (DocumentEdge.write .dropped))) := by
    rw [← hfs]
    cases workflowId <;> rfl
  have hid : fs.optional ["workflowId", "workflow_id"] none (Json.asOptional Json.asReference) =
      .ok workflowId := by
    cases workflowId with
    | none => rw [← hfs]; rfl
    | some id =>
      have hget : fs.get? "workflowId" = some id.toJson := hfs ▸ rfl
      refine Fields.optional_of_get? none hget ?_
      have hread := Json.asReference_toJson id
      cases id <;> exact Checked.map_eq_ok.mpr ⟨_, hread, rfl⟩
  have hname : fs.optional ["name"] "" Json.asText = .ok name :=
    Fields.optional_of_get? "" hnameGet rfl
  have hentry : fs.optional ["entryPoint", "entry_point"] "" Json.asText = .ok entryPoint :=
    Fields.optional_of_get? "" hentryGet rfl
  have hnodes : fs.optional ["nodes"] [] (Json.asList DocumentNode.read) =
      .ok (nodes.map DocumentNode.finite) := by
    exact Fields.optional_of_get? [] hnodesGet (Json.asList_map fun n _ => n.read_write)
  have hedges : fs.optional ["edges"] [] (Json.asList DocumentEdge.read) =
      .ok (edges.map fun e => e) := by
    exact Fields.optional_of_get? [] hedgesGet (Json.asList_map fun e _ => e.read_write)
  rw [read, Json.asRecord, hid, hname, hentry, hnodes, hedges, List.map_id']
  rfl

theorem proper_write {d : Document} (h : d.Sound) : Json.proper (write .dropped d) = true := by
  have hnodes : Json.proper (.arr (d.nodes.map (DocumentNode.write .dropped))) = true :=
    Json.proper_arr_map fun n hn => DocumentNode.proper_write (h n hn)
  have hedges : Json.proper (.arr (d.edges.map (DocumentEdge.write .dropped))) = true :=
    Json.proper_arr_map fun e _ => e.proper_write
  have hid (id : Reference) : Json.proper id.toJson = true := by cases id <;> rfl
  rw [Json.proper] at hnodes hedges
  rw [write_dropped, Json.proper_obj, fields]
  cases d.workflowId <;> simp [Fields.names, hnodes, hedges, hid, Json.proper]

theorem finite_write (d : Document) : (write .dropped d).finite = write .dropped d := by
  have hnodes := Json.finiteItems_map fun n (_ : n ∈ d.nodes) => n.finite_write
  have hedges := Json.finiteItems_map fun e (_ : e ∈ d.edges) => e.finite_write
  have hid (id : Reference) : id.toJson.finite = id.toJson := by cases id <;> rfl
  rw [write_dropped, fields]
  cases d.workflowId <;> simp [Json.finite, Json.finiteFields, hnodes, hedges, hid]

/-- A document is read from its text, with null for the numbers that are not finite, exactly when
the text can be read. -/
theorem decode_text_iff {d loaded : Document} (h : d.Sound) :
    decode d.text = .ok loaded ↔ d.Readable ∧ loaded = d.finite := by
  have htext : (Record.readText d.text : Checked Document) =
      (Json.ofText (Json.text Json.compact (write .dropped d))).andThen read := rfl
  have hdecode : decode d.text = .ok loaded ↔
      (Record.readText d.text : Checked Document) = .ok loaded := by
    unfold decode
    cases (Record.readText d.text : Checked Document) with
    | ok found => rw [Except.ok.injEq, Checked.ok.injEq]
    | bad problems => exact ⟨fun heq => (by cases heq), fun heq => (by cases heq)⟩
  rw [hdecode, htext, Checked.andThen_eq_ok]
  simp only [Json.ofText_text_iff (proper_write h)]
  constructor
  · rintro ⟨v, ⟨hwhole, hlegible, rfl⟩, hload⟩
    rw [finite_write, read_write] at hload
    cases hload
    exact ⟨⟨hwhole, hlegible⟩, rfl⟩
  · rintro ⟨⟨hwhole, hlegible⟩, rfl⟩
    refine ⟨_, ⟨hwhole, hlegible, rfl⟩, ?_⟩
    rw [finite_write]
    exact d.read_write

end Document
end WorkflowStudio
