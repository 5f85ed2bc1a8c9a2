import WorkflowStudio.Proofs.SoundRecords

/-!
Sound records are written and read again. Reading gives the record back with null for the
numbers that are not finite inside its untyped values, and writing that gives the same value.
-/
namespace WorkflowStudio

theorem Entry.untyped_getD (name : String) (v : Json) :
    (Entry.untyped name v).2.getD .null = v.finite := by
  unfold untyped
  dsimp only
  split
  · rename_i h
    rw [beq_iff_eq.mp h]
    rfl
  · rfl

theorem writeRecord_kept (own : List (String × Option Json)) (extras : Fields) :
    writeRecord .kept (own ++ extras.map Entry.extra) =
      .obj (own.map (fun e => (e.1, e.2.getD .null)) ++ Json.finiteFields extras) := by
  rw [writeRecord, List.map_append, List.map_map, Json.finiteFields_eq_map]
  congr 2
  refine List.map_congr_left fun field _ => ?_
  exact Prod.ext rfl (Entry.untyped_getD field.1 field.2)

theorem Json.getD_map_str (o : Option String) : (o.map Json.str).getD .null = ofOption .str o := by
  cases o <;> rfl

/-! The fields that are written for the declared ones. -/

def ParamBinding.fields (b : ParamBinding) : Fields :=
  [("paramKey", .str b.paramKey), ("sourceType", Vocabulary.toJson b.sourceType),
    ("sourceKey", .str b.sourceKey), ("sourceParam", Json.ofOption .str b.sourceParam)]

theorem ParamBinding.write_kept (b : ParamBinding) : write .kept b = .obj b.fields := by
  rw [fields, ← Json.getD_map_str]
  rfl

def ParamDefinition.fields (p : ParamDefinition) : Fields :=
  [("key", .str p.key), ("label", .str p.label), ("type", .str p.type),
    ("required", .bool p.required), ("defaultValue", p.defaultValue.finite),
    ("description", Json.ofOption .str p.description)]

theorem ParamDefinition.write_kept (p : ParamDefinition) : write .kept p = .obj p.fields := by
  rw [fields, ← Json.getD_map_str, ← Entry.untyped_getD "defaultValue"]
  rfl

def Position.fields (p : Position) : Fields := [("x", .num p.x), ("y", .num p.y)]

theorem Position.write_kept (p : Position) : write .kept p = .obj p.fields := rfl

def NodeData.fields (d : NodeData) : Fields :=
  [("id", Json.ofOption .str d.id), ("nodeType", Vocabulary.toJson d.nodeType),
    ("nodeLabel", .str d.label), ("config", .obj (Json.finiteFields d.config)),
    ("status", Vocabulary.toJson d.status),
    ("paramBindings", .arr (d.bindings.map (ParamBinding.write .kept))),
    ("customInputParams", .arr (d.customInputs.map (ParamDefinition.write .kept))),
    ("customOutputParams", .arr (d.customOutputs.map (ParamDefinition.write .kept)))]

theorem NodeData.write_kept (d : NodeData) :
    write .kept d = .obj (d.fields ++ Json.finiteFields d.extras) := by
  rw [write, writeRecord_kept, fields, ← Json.getD_map_str]
  rfl

def Node.fields (n : Node) : Fields :=
  [("id", .str n.id), ("type", .str n.type), ("position", Position.write .kept n.position),
    ("data", NodeData.write .kept n.data)]

theorem Node.write_kept (n : Node) :
    write .kept n = .obj (n.fields ++ Json.finiteFields n.extras) := by
  rw [write, writeRecord_kept]
  rfl

def Edge.fields (e : Edge) : Fields :=
  [("id", .str e.id), ("source", .str e.source), ("target", .str e.target),
    ("sourceHandle", Json.ofOption .str e.sourceHandle),
    ("targetHandle", Json.ofOption .str e.targetHandle), ("label", Json.ofOption .str e.label),
    ("condition", Json.ofOption .str e.condition)]

theorem Edge.write_kept (e : Edge) :
    write .kept e = .obj (e.fields ++ Json.finiteFields e.extras) := by
  rw [write, writeRecord_kept]
  simp only [fields, ← Json.getD_map_str]
  rfl

def Graph.fields (g : Graph) : Fields :=
  [("nodes", .arr (g.nodes.map (Node.write .kept))),
    ("edges", .arr (g.edges.map (Edge.write .kept)))]

theorem Graph.write_kept (g : Graph) : write .kept g = .obj g.fields := rfl

/-! Records without numbers that are not finite in their untyped values. -/

def ParamDefinition.finite (p : ParamDefinition) : ParamDefinition :=
  { p with defaultValue := p.defaultValue.finite }

def NodeData.finite (d : NodeData) : NodeData :=
  { d with
    config := Json.finiteFields d.config
    customInputs := d.customInputs.map ParamDefinition.finite
    customOutputs := d.customOutputs.map ParamDefinition.finite
    extras := Json.finiteFields d.extras }

def Node.finite (n : Node) : Node :=
  { n with data := n.data.finite, extras := Json.finiteFields n.extras }

def Edge.finite (e : Edge) : Edge := { e with extras := Json.finiteFields e.extras }

def Graph.finite (g : Graph) : Graph := ⟨g.nodes.map Node.finite, g.edges.map Edge.finite⟩

theorem Fields.Free.finite {slots : List (List String)} {extras : Fields}
    (h : Free slots extras) : Free slots (Json.finiteFields extras) := by
  refine ⟨fun field hfield => ?_, (Json.proper_finite (.obj extras)).trans h.proper⟩
  obtain ⟨given, hgiven, rfl⟩ := Json.mem_finiteFields.mp hfield
  exact h.undeclared given hgiven

/-! What is written reads back. -/

theorem ParamBinding.read_write (b : ParamBinding) : read (write .kept b) = .ok b := by
  have hkey : Fields.required b.fields ["paramKey", "param_key"] Json.asText = .ok b.paramKey :=
    Fields.required_of_get? rfl rfl
  have htype : Fields.required b.fields ["sourceType", "source_type"] Vocabulary.read =
      .ok b.sourceType :=
    Fields.required_of_get? rfl (Vocabulary.read_spelling (sourceType_find?_spelling _))
  have hsource : Fields.required b.fields ["sourceKey", "source_key"] Json.asText =
      .ok b.sourceKey :=
    Fields.required_of_get? rfl rfl
  have hparam : Fields.optional b.fields ["sourceParam", "source_param"] none
      (Json.asOptional Json.asText) = .ok b.sourceParam :=
    Fields.optional_of_get? none rfl (Json.asOptional_asText _)
  rw [write_kept, read, Json.asRecord, hkey, htype, hsource, hparam]
  rfl

theorem ParamDefinition.read_write (p : ParamDefinition) :
    read (write .kept p) = .ok p.finite := by
  have hkey : Fields.optional p.fields ["key"] "" Json.asText = .ok p.key :=
    Fields.optional_of_get? "" rfl rfl
  have hlabel : Fields.optional p.fields ["label"] "" Json.asText = .ok p.label :=
    Fields.optional_of_get? "" rfl rfl
  have htype : Fields.optional p.fields ["type"] "string" Json.asText = .ok p.type :=
    Fields.optional_of_get? "string" rfl rfl
  have hrequired : Fields.optional p.fields ["required"] false Json.asTruth = .ok p.required :=
    Fields.optional_of_get? false rfl rfl
  have hvalue : Fields.optional p.fields ["defaultValue", "default_value"] .null Json.asAny =
      .ok p.defaultValue.finite :=
    Fields.optional_of_get? .null rfl rfl
  have hdescription : Fields.optional p.fields ["description"] none
      (Json.asOptional Json.asText) = .ok p.description :=
    Fields.optional_of_get? none rfl (Json.asOptional_asText _)
  rw [write_kept, read, Json.asRecord, hkey, hlabel, htype, hrequired, hvalue, hdescription]
  rfl

theorem Position.read_write (medium : Medium) (p : Position) :
    read medium (write .kept p) = .ok p := rfl

theorem NodeData.read_write {d : NodeData} (h : d.Sound) :
    read (write .kept d) = .ok d.finite := by
  rw [write_kept]
  have hextras : (d.fields ++ Json.finiteFields d.extras).extras slots =
      Json.finiteFields d.extras :=
    Fields.extras_append (by decide) rfl h.extras.finite.undeclared
  have hget {name : String} {v : Json} (hown : d.fields.get? name = some v) :=
    Fields.get?_append hown (Json.finiteFields d.extras)
  generalize d.fields ++ Json.finiteFields d.extras = fs at hextras hget ⊢
  have hid : fs.optional ["id"] none (Json.asOptional Json.asText) = .ok d.id :=
    Fields.optional_of_get? none (hget rfl) (Json.asOptional_asText _)
  have htype : fs.required ["nodeType", "node_type"] Vocabulary.read = .ok d.nodeType :=
    Fields.required_of_get? (hget rfl) (Vocabulary.read_spelling (nodeType_find?_spelling _))
  have hlabel : fs.optional ["nodeLabel", "node_label", "label"] "" Json.asText = .ok d.label :=
    Fields.optional_of_get? "" (hget rfl) rfl
  have hconfig : fs.optional ["config"] [] Json.asObject = .ok (Json.finiteFields d.config) :=
    Fields.optional_of_get? [] (hget rfl) rfl
  have hstatus : fs.optional ["status"] .idle Vocabulary.read = .ok d.status :=
    Fields.optional_of_get? .idle (hget rfl)
      (Vocabulary.read_spelling (nodeStatus_find?_spelling _))
  have hbindings : fs.optional ["paramBindings", "param_bindings"] []
      (Json.asList ParamBinding.read) = .ok (d.bindings.map fun b => b) :=
    Fields.optional_of_get? [] (hget rfl)
      (Json.asList_map fun b _ => by exact ParamBinding.read_write b)
  have hinputs : fs.optional ["customInputParams", "custom_input_params"] []
      (Json.asList ParamDefinition.read) = .ok (d.customInputs.map ParamDefinition.finite) :=
    Fields.optional_of_get? [] (hget rfl)
      (Json.asList_map fun p _ => ParamDefinition.read_write p)
  have houtputs : fs.optional ["customOutputParams", "custom_output_params"] []
      (Json.asList ParamDefinition.read) = .ok (d.customOutputs.map ParamDefinition.finite) :=
    Fields.optional_of_get? [] (hget rfl)
      (Json.asList_map fun p _ => ParamDefinition.read_write p)
  rw [read, Json.asRecord, hid, htype, hlabel, hconfig, hstatus, hbindings, hinputs, houtputs,
    hextras, List.map_id']
  rfl

theorem Node.read_write {n : Node} (h : n.Sound) (medium : Medium) :
    read medium (write .kept n) = .ok n.finite := by
  rw [write_kept]
  have hextras : (n.fields ++ Json.finiteFields n.extras).extras slots =
      Json.finiteFields n.extras :=
    Fields.extras_append (by decide) rfl h.extras.finite.undeclared
  have hget {name : String} {v : Json} (hown : n.fields.get? name = some v) :=
    Fields.get?_append hown (Json.finiteFields n.extras)
  generalize n.fields ++ Json.finiteFields n.extras = fs at hextras hget ⊢
  have hid : fs.required ["id"] Json.asNonemptyText = .ok n.id :=
    Fields.required_of_get? (hget rfl) (Json.asNonemptyText_eq_ok_iff.mpr ⟨rfl, h.id_ne, h.id⟩)
  have htype : fs.optional ["type"] "custom" Json.asText = .ok n.type :=
    Fields.optional_of_get? "custom" (hget rfl) rfl
  have hposition : fs.optional ["position"] Position.origin (Position.read medium) =
      .ok n.position :=
    Fields.optional_of_get? .origin (hget rfl) (Position.read_write medium n.position)
  have hdata : fs.required ["data"] NodeData.read = .ok n.data.finite :=
    Fields.required_of_get? (hget rfl) (NodeData.read_write h.data)
  obtain ⟨dataId, hdataId⟩ := Option.isSome_iff_exists.mp h.data_id
  have hfilled : fillDataId n.finite = n.finite := by
    simp only [fillDataId, Node.finite, NodeData.finite, hdataId, Option.getD_some]
  rw [read, Json.asRecord, hid, htype, hposition, hdata, hextras]
  exact congrArg Checked.ok hfilled

/-- The fields of a written edge hold no older guard. -/
theorem Edge.liftCondition_written {e : Edge} (h : Settled e.extras) :
    liftCondition (e.fields ++ Json.finiteFields e.extras) =
      e.fields ++ Json.finiteFields e.extras := by
  rcases liftCondition_cases (e.fields ++ Json.finiteFields e.extras) with
    ⟨-, hsame⟩ | ⟨payload, front, hpayload, -, hfront, hlifted⟩
  · exact hsame
  · have hown : "data" ∉ e.fields.names := show "data" ∉ Fields.declared slots by decide
    have hget : (e.extras.get? "data").map Json.finite = some (.obj payload) := by
      rw [← Json.get?_finiteFields, ← hpayload, Fields.get?_append_right hown]
    obtain ⟨v, hv, hfinite⟩ := Option.map_eq_some_iff.mp hget
    obtain ⟨own, rfl, rfl⟩ : ∃ own, v = .obj own ∧ payload = Json.finiteFields own := by
      cases v with
      | obj own =>
        rw [Json.finite, Json.obj.injEq] at hfinite
        exact ⟨own, rfl, hfinite.symm⟩
      | num x =>
        rw [Json.finite] at hfinite
        split at hfinite <;> cases hfinite
      | _ => cases hfinite
    obtain ⟨hne, hcondition, before, hextras, hbefore⟩ := h own hv
    rw [← Json.names_finiteFields] at hcondition hbefore
    have hfrontEq : front = (e.fields ++ Json.finiteFields e.extras).erase "data" := by
      rcases hfront with hfront | ⟨lifted, hguard, -⟩
      · exact hfront
      · exact absurd (List.mem_map_of_mem (Fields.mem_of_get? hguard)) hcondition
    have hdata : "data" ∉ (e.fields ++ Json.finiteFields before).names := by
      rw [Fields.names, List.map_append]
      exact fun hmem => (List.mem_append.mp hmem).elim hown hbefore
    have hwritten : e.fields ++ Json.finiteFields e.extras =
        (e.fields ++ Json.finiteFields before) ++ [("data", .obj (Json.finiteFields own))] := by
      rw [hextras, Json.finiteFields_append, List.append_assoc]
      rfl
    have hnonempty : (Json.finiteFields own).isEmpty = false := by
      cases own with
      | nil => exact absurd rfl hne
      | cons field rest => rfl
    have hremoved : Fields.erase [("data", .obj (Json.finiteFields own))] "data" = [] := by
      simp [Fields.erase]
    rw [hlifted, Fields.erase_of_not_mem hcondition, hnonempty, hfrontEq, hwritten,
      Fields.erase_append, Fields.erase_of_not_mem hdata, hremoved, List.append_nil,
      if_neg Bool.false_ne_true]

theorem Edge.read_write {e : Edge} (h : e.Sound) : read (write .kept e) = .ok e.finite := by
  rw [write_kept]
  have hlifted := liftCondition_written h.settled
  have hextras : (e.fields ++ Json.finiteFields e.extras).extras slots =
      Json.finiteFields e.extras :=
    Fields.extras_append (by decide) rfl h.extras.finite.undeclared
  have hget {name : String} {v : Json} (hown : e.fields.get? name = some v) :=
    Fields.get?_append hown (Json.finiteFields e.extras)
  generalize e.fields ++ Json.finiteFields e.extras = fs at hlifted hextras hget ⊢
  have hid : fs.optional ["id"] "" Json.asText = .ok e.id :=
    Fields.optional_of_get? "" (hget rfl) rfl
  have hsource : fs.required ["source"] Json.asText = .ok e.source :=
    Fields.required_of_get? (hget rfl) rfl
  have htarget : fs.required ["target"] Json.asText = .ok e.target :=
    Fields.required_of_get? (hget rfl) rfl
  have hsourceHandle : fs.optional ["sourceHandle", "source_handle"] none
      (Json.asOptional Json.asText) = .ok e.sourceHandle :=
    Fields.optional_of_get? none (hget rfl) (Json.asOptional_asText _)
  have htargetHandle : fs.optional ["targetHandle", "target_handle"] none
      (Json.asOptional Json.asText) = .ok e.targetHandle :=
    Fields.optional_of_get? none (hget rfl) (Json.asOptional_asText _)
  have hlabel : fs.optional ["label"] none (Json.asOptional Json.asText) = .ok e.label :=
    Fields.optional_of_get? none (hget rfl) (Json.asOptional_asText _)
  have hcondition : fs.optional ["condition"] none (Json.asOptional Json.asText) =
      .ok e.condition :=
    Fields.optional_of_get? none (hget rfl) (Json.asOptional_asText _)
  have hderived : deriveId e.finite = e.finite :=
    if_neg (by simpa [Edge.finite] using h.id_ne)
  rw [read, Json.asRecord]
  dsimp only
  rw [hlifted, hid, hsource, htarget, hsourceHandle, htargetHandle, hlabel, hcondition, hextras]
  exact congrArg Checked.ok hderived

theorem Graph.read_write {g : Graph} (h : g.Sound) (medium : Medium) :
    read medium (write .kept g) = .ok g.finite := by
  have hnodes : Fields.optional g.fields ["nodes"] [] (Json.asList (Node.read medium)) =
      .ok (g.nodes.map Node.finite) :=
    Fields.optional_of_get? [] rfl
      (Json.asList_map fun n hn => Node.read_write (h.nodes n hn) medium)
  have hedges : Fields.optional g.fields ["edges"] [] (Json.asList Edge.read) =
      .ok (g.edges.map Edge.finite) :=
    Fields.optional_of_get? [] rfl (Json.asList_map fun e he => Edge.read_write (h.edges e he))
  rw [write_kept, read, Json.asRecord, hnodes, hedges]
  rfl

/-! The written values are proper. -/

theorem Fields.Free.proper_obj {slots : List (List String)} {own extras : Fields}
    (h : Free slots extras) (hown : own.names = declared slots) (hslots : (declared slots).Nodup)
    (hvalues : ∀ field ∈ own, Json.proper field.2 = true) :
    Json.proper (.obj (own ++ Json.finiteFields extras)) = true := by
  have hfinite := Json.proper_obj.mp h.finite.proper
  rw [Json.proper_obj, List.forall_mem_append]
  refine ⟨⟨hvalues, hfinite.1⟩, ?_⟩
  have hownNodup : own.names.Nodup := by
    rw [hown]
    exact hslots
  rw [names, List.map_append]
  refine List.nodup_append.mpr ⟨hownNodup, hfinite.2, ?_⟩
  intro name hname other hother heq
  obtain ⟨field, hfield, rfl⟩ := List.mem_map.mp hother
  refine h.finite.undeclared field hfield ?_
  rw [← hown, ← heq]
  exact hname

theorem Json.proper_ofOption_str (o : Option String) : proper (ofOption .str o) = true := by
  cases o <;> rfl

theorem ParamBinding.proper_write (b : ParamBinding) : Json.proper (write .kept b) = true := by
  rw [write_kept, Json.proper_obj]
  have hnames : b.fields.names = ["paramKey", "sourceType", "sourceKey", "sourceParam"] := rfl
  refine ⟨?_, hnames ▸ by decide⟩
  simp only [fields, List.forall_mem_cons]
  exact ⟨rfl, rfl, rfl, Json.proper_ofOption_str _, fun _ h => absurd h List.not_mem_nil⟩

theorem ParamDefinition.proper_write {p : ParamDefinition} (h : p.Sound) :
    Json.proper (write .kept p) = true := by
  rw [write_kept, Json.proper_obj]
  have hnames : p.fields.names =
      ["key", "label", "type", "required", "defaultValue", "description"] := rfl
  refine ⟨?_, hnames ▸ by decide⟩
  simp only [fields, List.forall_mem_cons]
  refine ⟨rfl, rfl, rfl, rfl, ?_, Json.proper_ofOption_str _, fun _ h => absurd h List.not_mem_nil⟩
  rw [Json.proper_finite]
  exact h.defaultValue

theorem Json.proper_arr_map {α : Type} {f : α → Json} {items : List α}
    (h : ∀ a ∈ items, proper (f a) = true) : proper (.arr (items.map f)) = true := by
  rw [proper_arr, List.forall_mem_map]
  exact h

theorem NodeData.proper_write {d : NodeData} (h : d.Sound) :
    Json.proper (write .kept d) = true := by
  rw [write_kept]
  refine h.extras.proper_obj rfl (by decide) ?_
  simp only [fields, List.forall_mem_cons]
  refine ⟨Json.proper_ofOption_str _, rfl, rfl, ?_, rfl, ?_, ?_, ?_,
    fun _ h => absurd h List.not_mem_nil⟩
  · exact (Json.proper_finite (.obj d.config)).trans h.config
  · exact Json.proper_arr_map fun b _ => b.proper_write
  · exact Json.proper_arr_map fun p hp => ParamDefinition.proper_write (h.customInputs p hp)
  · exact Json.proper_arr_map fun p hp => ParamDefinition.proper_write (h.customOutputs p hp)

theorem Node.proper_write {n : Node} (h : n.Sound) : Json.proper (write .kept n) = true := by
  rw [write_kept]
  refine h.extras.proper_obj rfl (by decide) ?_
  simp only [fields, List.forall_mem_cons]
  exact ⟨rfl, rfl, rfl, NodeData.proper_write h.data, fun _ h => absurd h List.not_mem_nil⟩

theorem Edge.proper_write {e : Edge} (h : e.Sound) : Json.proper (write .kept e) = true := by
  rw [write_kept]
  refine h.extras.proper_obj rfl (by decide) ?_
  simp only [fields, List.forall_mem_cons]
  exact ⟨rfl, rfl, rfl, Json.proper_ofOption_str _, Json.proper_ofOption_str _,
    Json.proper_ofOption_str _, Json.proper_ofOption_str _, fun _ h => absurd h List.not_mem_nil⟩

theorem Graph.proper_write {g : Graph} (h : g.Sound) : Json.proper (write .kept g) = true := by
  rw [write_kept, Json.proper_obj]
  have hnames : g.fields.names = ["nodes", "edges"] := rfl
  refine ⟨?_, hnames ▸ by decide⟩
  simp only [fields, List.forall_mem_cons]
  exact ⟨Json.proper_arr_map fun n hn => Node.proper_write (h.nodes n hn),
    Json.proper_arr_map fun e he => Edge.proper_write (h.edges e he),
    fun _ h => absurd h List.not_mem_nil⟩

/-- What a sound graph is read back as is sound. -/
theorem Graph.Sound.finite {g : Graph} (h : g.Sound) : g.finite.Sound :=
  sound_of_read (proper_write h) (read_write h .value)

/-! Writing leaves no number that is not finite but in positions. -/

def Node.Placed (n : Node) : Prop := n.position.isFinite = true

def Graph.Placed (g : Graph) : Prop := ∀ n ∈ g.nodes, n.Placed

theorem Json.finite_ofOption_str (o : Option String) :
    (ofOption .str o).finite = ofOption .str o := by
  cases o <;> rfl

theorem Json.finiteItems_map {α : Type} {f : α → Json} {items : List α}
    (h : ∀ a ∈ items, (f a).finite = f a) : finiteItems (items.map f) = items.map f := by
  rw [finiteItems_eq_map, List.map_map]
  exact List.map_congr_left h

theorem Json.finite_obj_append {own : Fields} (h : finiteFields own = own) (extras : Fields) :
    (obj (own ++ finiteFields extras)).finite = .obj (own ++ finiteFields extras) := by
  rw [finite, finiteFields_append, h, finiteFields_finite]

theorem ParamBinding.finite_write (b : ParamBinding) :
    (write .kept b).finite = write .kept b := by
  simp only [write_kept, fields, Json.finite, Json.finiteFields, Json.finite_ofOption_str,
    Vocabulary.toJson]

theorem ParamDefinition.finite_write (p : ParamDefinition) :
    (write .kept p).finite = write .kept p := by
  simp only [write_kept, fields, Json.finite, Json.finiteFields, Json.finite_ofOption_str,
    Json.finite_finite]

theorem NodeData.finite_write (d : NodeData) : (write .kept d).finite = write .kept d := by
  rw [write_kept]
  refine Json.finite_obj_append ?_ d.extras
  have hbindings := Json.finiteItems_map fun b (_ : b ∈ d.bindings) => b.finite_write
  have hinputs := Json.finiteItems_map fun p (_ : p ∈ d.customInputs) => p.finite_write
  have houtputs := Json.finiteItems_map fun p (_ : p ∈ d.customOutputs) => p.finite_write
  simp only [fields, Json.finite, Json.finiteFields, Json.finite_ofOption_str,
    Json.finiteFields_finite, Vocabulary.toJson, hbindings, hinputs, houtputs]

theorem Node.finite_write {n : Node} (h : n.Placed) : (write .kept n).finite = write .kept n := by
  rw [write_kept]
  refine Json.finite_obj_append ?_ n.extras
  obtain ⟨hx, hy⟩ := Bool.and_eq_true_iff.mp h
  have hposition : (Position.write .kept n.position).finite = Position.write .kept n.position := by
    simp only [Position.write_kept, Position.fields, Json.finite, Json.finiteFields, hx, hy,
      if_true]
  simp only [fields, Json.finite, Json.finiteFields, hposition, NodeData.finite_write]

theorem Edge.finite_write (e : Edge) : (write .kept e).finite = write .kept e := by
  rw [write_kept]
  refine Json.finite_obj_append ?_ e.extras
  simp only [fields, Json.finite, Json.finiteFields, Json.finite_ofOption_str]

theorem Graph.finite_write {g : Graph} (h : g.Placed) :
    (write .kept g).finite = write .kept g := by
  have hnodes := Json.finiteItems_map fun n hn => Node.finite_write (h n hn)
  have hedges := Json.finiteItems_map fun e (_ : e ∈ g.edges) => e.finite_write
  simp only [write_kept, fields, Json.finite, Json.finiteFields, hnodes, hedges]

theorem Json.isFinite_of_asReal {x y : Double}
    (h : asReal .text (num x).finite = .ok y) : x.isFinite = true := by
  rw [finite] at h
  split at h
  · assumption
  · cases h

theorem Position.isFinite_of_read {p q : Position}
    (h : read .text (write .kept p).finite = .ok q) : p.isFinite = true := by
  rw [write_kept, fields, Json.finite, read, Json.asRecord] at h
  simp only [Checked.seq_eq_ok, Checked.map_eq_ok] at h
  obtain ⟨_, y, ⟨x, hx, -⟩, hy, -⟩ := h
  exact Bool.and_eq_true_iff.mpr
    ⟨Json.isFinite_of_asReal (Fields.read_of_optional rfl hx),
      Json.isFinite_of_asReal (Fields.read_of_optional rfl hy)⟩

/-- Only nodes with finite positions read back, since the others are written without one. -/
theorem Graph.placed_of_read {g loaded : Graph}
    (h : read .text (write .kept g).finite = .ok loaded) : g.Placed := by
  intro n hn
  have hitem : (Node.write .kept n).finite ∈
      Json.finiteItems (g.nodes.map (Node.write .kept)) := by
    rw [Json.finiteItems_eq_map]
    exact List.mem_map_of_mem (List.mem_map_of_mem hn)
  rw [write_kept, Json.finite, read, Json.asRecord] at h
  simp only [Checked.seq_eq_ok, Checked.map_eq_ok] at h
  obtain ⟨_, -, ⟨nodes, hnodes, -⟩, -, -⟩ := h
  have hlist := Fields.read_of_optional
    (v := .arr (Json.finiteItems (g.nodes.map (Node.write .kept))))
    rfl hnodes
  obtain ⟨read, hread⟩ := Checked.read_of_eachFrom hlist _ hitem
  obtain ⟨given, hgiven, -⟩ := Checked.map_eq_ok.mp hread
  rw [Node.write_kept, Json.finite, Json.asRecord, Json.finiteFields_append] at hgiven
  simp only [Checked.seq_eq_ok, Checked.map_eq_ok] at hgiven
  obtain ⟨_, -, ⟨_, -, ⟨_, position, ⟨_, -, -⟩, hposition, -⟩, -, -⟩, -, -⟩ := hgiven
  exact Position.isFinite_of_read
    (Fields.read_of_optional (Fields.get?_append rfl _) hposition)

/-! Writing a graph that was read back. -/

theorem ParamDefinition.write_finite (p : ParamDefinition) :
    write .kept p.finite = write .kept p := by
  simp only [write_kept, fields, finite, Json.finite_finite]

theorem NodeData.write_finite (d : NodeData) : write .kept d.finite = write .kept d := by
  simp only [write_kept, fields, finite, Json.finiteFields_finite, List.map_map, Function.comp_def,
    ParamDefinition.write_finite]

theorem Node.write_finite (n : Node) : write .kept n.finite = write .kept n := by
  simp only [write_kept, fields, finite, NodeData.write_finite, Json.finiteFields_finite]

theorem Edge.write_finite (e : Edge) : write .kept e.finite = write .kept e := by
  simp only [write_kept, fields, finite, Json.finiteFields_finite]

theorem Graph.write_finite (g : Graph) : write .kept g.finite = write .kept g := by
  simp only [write_kept, fields, finite, List.map_map, Function.comp_def, Node.write_finite,
    Edge.write_finite]

end WorkflowStudio
