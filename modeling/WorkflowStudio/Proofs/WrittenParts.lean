import WorkflowStudio.Proofs.RecordText
import WorkflowStudio.Proofs.TextFaults

/-!
What it takes to write a graph. Its parts are its texts, among them the names of settings and of
extra fields, and the values of no declared kind. The written form holds whole characters only
exactly when every part does, and a part that is no name stands somewhere inside it.
-/
namespace WorkflowStudio

/-! Values inside other values. -/

namespace Json

/-- A value that stands somewhere inside another one, or is that value. -/
inductive Part : Json → Json → Prop where
  | self (v : Json) : Part v v
  | item {v item : Json} {items : List Json} (h : Part v item) (hmem : item ∈ items) :
      Part v (.arr items)
  | field {v inner : Json} {name : String} {fs : Fields} (h : Part v inner)
      (hmem : (name, inner) ∈ fs) : Part v (.obj fs)

theorem Part.of_get? {fs : Fields} {name : String} {v : Json} (h : fs.get? name = some v) :
    Part v (.obj fs) := .field (.self v) (Fields.mem_of_get? h)

theorem legible_item {dialect : Dialect} {depth : Nat} {items : List Json} {item : Json}
    (h : legible dialect depth (.arr items) = true) (hmem : item ∈ items) :
    ∃ below ≤ depth, legible dialect below item = true := by
  rw [legible, List.isEmpty_eq_false_iff.mpr (List.ne_nil_of_mem hmem), Bool.false_or,
    Bool.and_eq_true] at h
  exact ⟨depth - 1, Nat.sub_le _ _, legibleItems_iff.mp h.2 item hmem⟩

theorem legible_field {dialect : Dialect} {depth : Nat} {fs : Fields} {field : String × Json}
    (h : legible dialect depth (.obj fs) = true) (hmem : field ∈ fs) :
    ∃ below ≤ depth, legible dialect below field.2 = true := by
  rw [legible, List.isEmpty_eq_false_iff.mpr (List.ne_nil_of_mem hmem), Bool.false_or,
    Bool.and_eq_true] at h
  exact ⟨depth - 1, Nat.sub_le _ _, legibleFields_iff.mp h.2 field hmem⟩

theorem Part.legible {dialect : Dialect} {v whole : Json} (h : Part v whole) {depth : Nat}
    (hwhole : legible dialect depth whole = true) :
    ∃ below ≤ depth, legible dialect below v = true := by
  induction h generalizing depth with
  | self => exact ⟨depth, le_refl _, hwhole⟩
  | item _ hmem ih =>
    obtain ⟨below, hbelow, hitem⟩ := legible_item hwhole hmem
    obtain ⟨least, hleast, hv⟩ := ih hitem
    exact ⟨least, hleast.trans hbelow, hv⟩
  | field _ hmem ih =>
    obtain ⟨below, hbelow, hfield⟩ := legible_field hwhole hmem
    obtain ⟨least, hleast, hv⟩ := ih hfield
    exact ⟨least, hleast.trans hbelow, hv⟩

/-! Whole values. -/

theorem whole_arr_map {α : Type} {f : α → Json} {parts : α → List Json}
    (h : ∀ a, (f a).Whole ↔ ∀ v ∈ parts a, v.Whole) {items : List α} :
    (arr (items.map f)).Whole ↔ ∀ a ∈ items, ∀ v ∈ parts a, v.Whole := by
  rw [whole_arr, List.forall_mem_map]
  exact forall₂_congr fun a _ => h a

theorem whole_parts {fs : Fields} : (∀ v ∈ fs.parts, Whole v) ↔ (obj fs).Whole := by
  rw [whole_obj, Fields.parts, List.forall_mem_flatMap]
  refine forall₂_congr fun field _ => ?_
  rw [List.forall_mem_cons, List.forall_mem_singleton, whole_str]

/-- The names of declared fields are plain, so only their values matter. -/
theorem whole_obj_append {own extras : Fields}
    (hnames : ∀ name ∈ own.names, Text.isBroken name = false) :
    (obj (own ++ finiteFields extras)).Whole ↔
      (∀ v ∈ own.values, v.Whole) ∧ ∀ v ∈ extras.parts, v.Whole := by
  have hextras : (obj (finiteFields extras)).Whole ↔ (obj extras).Whole :=
    whole_finite (v := obj extras)
  have hown : (∀ field ∈ own, Text.isBroken field.1 = false ∧ field.2.Whole) ↔
      ∀ v ∈ own.values, v.Whole := by
    rw [Fields.values, List.forall_mem_map]
    refine forall₂_congr fun field hfield => ?_
    exact and_iff_right (hnames field.1 (List.mem_map_of_mem hfield))
  rw [whole_obj, List.forall_mem_append, hown, ← whole_obj, hextras, whole_parts]

theorem whole_obj_declared {own : Fields}
    (hnames : ∀ name ∈ own.names, Text.isBroken name = false) :
    (obj own).Whole ↔ ∀ v ∈ own.values, v.Whole := by
  have hadded : (obj (own ++ finiteFields [])).Whole ↔
      (∀ v ∈ own.values, v.Whole) ∧ ∀ v ∈ Fields.parts [], v.Whole := whole_obj_append hnames
  rw [finiteFields, List.append_nil] at hadded
  exact hadded.trans (and_iff_left fun _ h => absurd h List.not_mem_nil)

theorem part_of_parts {fs : Fields} {v : Json} (h : v ∈ fs.parts) :
    (∃ name, v = .str name) ∨ ∃ name, (name, v.finite) ∈ finiteFields fs := by
  obtain ⟨field, hfield, hv⟩ := List.mem_flatMap.mp h
  rcases List.mem_cons.mp hv with rfl | hv
  · exact Or.inl ⟨field.1, rfl⟩
  · cases List.mem_singleton.mp hv
    exact Or.inr ⟨field.1, mem_finiteFields.mpr ⟨field, hfield, rfl⟩⟩

theorem part_of_extras {own extras : Fields} {v : Json} (h : v ∈ extras.parts) :
    (∃ name, v = .str name) ∨ Part v.finite (.obj (own ++ finiteFields extras)) := by
  rcases part_of_parts h with hname | ⟨name, hfield⟩
  · exact Or.inl hname
  · exact Or.inr (.field (.self _) (List.mem_append_right _ hfield))

end Json

open Json (Part)

/-! Parts that can be written. -/

namespace Json

/-- A value that can be written in a text: it does not nest too deep, and no text in it holds half
a surrogate pair. -/
structure Writable (v : Json) : Prop where
  shallow : v.exceeds Record.deepest = false
  whole : v.Whole

theorem writable_str {s : String} : (str s).Writable ↔ Text.Whole s :=
  ⟨fun h => whole_str.mp h.whole, fun h => ⟨rfl, whole_str.mpr h⟩⟩

theorem writable_ofOption_str {o : Option String} :
    (ofOption .str o).Writable ↔ ∀ s, o = some s → Text.Whole s := by
  cases o with
  | none => exact iff_of_true ⟨rfl, rfl⟩ nofun
  | some s => exact writable_str.trans ⟨fun h _ heq => Option.some.inj heq ▸ h, fun h => h s rfl⟩

theorem textFault?_eq_none_iff {v : Json} : Record.textFault? v = none ↔ v.Writable := by
  have hiff : v.Writable ↔ v.exceeds Record.deepest = false ∧ v.Whole :=
    ⟨fun h => ⟨h.shallow, h.whole⟩, fun h => ⟨h.1, h.2⟩⟩
  rw [Record.textFault?, hiff]
  cases v.exceeds Record.deepest with
  | true =>
    refine iff_of_false nofun ?_
    rintro ⟨hdeep, -⟩
    cases hdeep
  | false =>
    rw [if_neg Bool.false_ne_true, Option.map_eq_none_iff]
    exact (and_iff_right rfl).symm

end Json

namespace Record

variable {α : Type} [Record α]

/-- A record can be written as a text exactly when every part of it can. -/
theorem checkText_eq_ok_iff {a : α} : checkText a = .ok () ↔ ∀ v ∈ parts a, v.Writable := by
  have hnone : (parts a).findSome? textFault? = none ↔ ∀ v ∈ parts a, v.Writable :=
    List.findSome?_eq_none_iff.trans (forall₂_congr fun _ _ => Json.textFault?_eq_none_iff)
  rw [← hnone, checkText]
  cases (parts a).findSome? textFault? with
  | none => exact iff_of_true rfl rfl
  | some fault => exact iff_of_false nofun nofun

theorem stored_eq_ok_iff {a : α} {text : String} :
    stored a = .ok text ↔ checkText a = .ok () ∧ text = storedText a := by
  rw [stored, Except.map_eq_ok]
  exact ⟨fun ⟨_, hcheck, htext⟩ => ⟨hcheck, htext.symm⟩, fun ⟨hcheck, htext⟩ =>
    ⟨(), hcheck, htext.symm⟩⟩

end Record

/-! Parts of parts. -/

section
variable {good : Json → Prop}

theorem NodeData.forall_parts {d : NodeData} : (∀ v ∈ Record.parts d, good v) ↔
    good (Json.ofOption .str d.id) ∧ good (.str d.label) ∧ (∀ v ∈ d.config.parts, good v) ∧
      (∀ b ∈ d.bindings, ∀ v ∈ Record.parts b, good v) ∧
      (∀ p ∈ d.customInputs, ∀ v ∈ Record.parts p, good v) ∧
      (∀ p ∈ d.customOutputs, ∀ v ∈ Record.parts p, good v) ∧ ∀ v ∈ d.extras.parts, good v := by
  have hparts : Record.parts d = Json.ofOption .str d.id :: .str d.label :: (d.config.parts ++
      d.bindings.flatMap Record.parts ++ (d.customInputs ++ d.customOutputs).flatMap Record.parts ++
        d.extras.parts) := rfl
  simp only [hparts, List.forall_mem_cons, List.forall_mem_append, List.forall_mem_flatMap,
    and_assoc]

theorem Node.forall_parts {n : Node} : (∀ v ∈ Record.parts n, good v) ↔
    good (.str n.id) ∧ good (.str n.type) ∧ (∀ v ∈ Record.parts n.data, good v) ∧
      ∀ v ∈ n.extras.parts, good v := by
  have hparts : Record.parts n =
      .str n.id :: .str n.type :: (Record.parts n.data ++ n.extras.parts) := rfl
  simp only [hparts, List.forall_mem_cons, List.forall_mem_append]

theorem Edge.forall_parts {e : Edge} : (∀ v ∈ Record.parts e, good v) ↔
    (∀ v ∈ e.fields.values, good v) ∧ ∀ v ∈ e.extras.parts, good v := by
  have hparts : Record.parts e = e.fields.values ++ e.extras.parts := rfl
  rw [hparts, List.forall_mem_append]

theorem Graph.forall_parts {g : Graph} : (∀ v ∈ Record.parts g, good v) ↔
    (∀ n ∈ g.nodes, ∀ v ∈ Record.parts n, good v) ∧
      ∀ e ∈ g.edges, ∀ v ∈ Record.parts e, good v := by
  have hparts : Record.parts g =
      g.nodes.flatMap Record.parts ++ g.edges.flatMap Record.parts := rfl
  rw [hparts, List.forall_mem_append, List.forall_mem_flatMap, List.forall_mem_flatMap]

end

/-! Bindings and parameters. -/

theorem ParamBinding.whole_write_iff (b : ParamBinding) :
    (write .kept b).Whole ↔ ∀ v ∈ Record.parts b, v.Whole := by
  have hnames : b.fields.names = ["paramKey", "sourceType", "sourceKey", "sourceParam"] := rfl
  have htype : (Vocabulary.toJson b.sourceType).Whole := by cases b.sourceType <;> rfl
  rw [write_kept, Json.whole_obj_declared (hnames ▸ by decide)]
  simp only [fields, Fields.values, Record.parts, List.map_cons, List.map_nil,
    List.forall_mem_cons, htype, true_and]

theorem ParamDefinition.whole_write_iff (p : ParamDefinition) :
    (write .kept p).Whole ↔ ∀ v ∈ Record.parts p, v.Whole := by
  have hnames : p.fields.names =
      ["key", "label", "type", "required", "defaultValue", "description"] := rfl
  have hrequired : (Json.bool p.required).Whole := rfl
  rw [write_kept, Json.whole_obj_declared (hnames ▸ by decide)]
  simp only [fields, Fields.values, Record.parts, List.map_cons, List.map_nil,
    List.forall_mem_cons, hrequired, true_and, Json.whole_finite]

/-! Nodes, edges and graphs. -/

theorem NodeData.whole_write_iff (d : NodeData) :
    (write .kept d).Whole ↔ ∀ v ∈ Record.parts d, v.Whole := by
  have hnames : d.fields.names = Fields.declared slots := rfl
  have htype : (Vocabulary.toJson d.nodeType).Whole := by cases d.nodeType <;> rfl
  have hstatus : (Vocabulary.toJson d.status).Whole := by cases d.status <;> rfl
  have hconfig : (Json.obj (Json.finiteFields d.config)).Whole ↔ ∀ v ∈ d.config.parts, v.Whole :=
    (Json.whole_finite (v := .obj d.config)).trans Json.whole_parts.symm
  rw [write_kept, Json.whole_obj_append (hnames ▸ by decide), forall_parts]
  simp only [fields, Fields.values, List.map_cons, List.map_nil, List.forall_mem_cons, htype,
    hstatus, hconfig, Json.whole_arr_map ParamBinding.whole_write_iff,
    Json.whole_arr_map ParamDefinition.whole_write_iff, List.not_mem_nil, false_imp_iff,
    implies_true, true_and, and_true, and_assoc]

theorem Position.whole_write (p : Position) : (write .kept p).Whole := by
  have hnames : p.fields.names = ["x", "y"] := rfl
  rw [write_kept, Json.whole_obj_declared (hnames ▸ by decide)]
  exact List.forall_mem_cons.mpr ⟨rfl, List.forall_mem_singleton.mpr rfl⟩

theorem Node.whole_write_iff (n : Node) :
    (write .kept n).Whole ↔ ∀ v ∈ Record.parts n, v.Whole := by
  have hnames : n.fields.names = Fields.declared slots := rfl
  rw [write_kept, Json.whole_obj_append (hnames ▸ by decide), forall_parts]
  simp only [fields, Fields.values, List.map_cons, List.map_nil, List.forall_mem_cons,
    Position.whole_write, NodeData.whole_write_iff, List.not_mem_nil, false_imp_iff,
    implies_true, true_and, and_true, and_assoc]

theorem Edge.whole_write_iff (e : Edge) :
    (write .kept e).Whole ↔ ∀ v ∈ Record.parts e, v.Whole := by
  have hnames : e.fields.names = Fields.declared slots := rfl
  rw [write_kept, Json.whole_obj_append (hnames ▸ by decide), forall_parts]

theorem Graph.whole_write_iff (g : Graph) :
    (write .kept g).Whole ↔ ∀ v ∈ Record.parts g, v.Whole := by
  have hnames : g.fields.names = ["nodes", "edges"] := rfl
  rw [write_kept, Json.whole_obj_declared (hnames ▸ by decide), forall_parts]
  simp only [fields, Fields.values, List.map_cons, List.map_nil, List.forall_mem_cons,
    Json.whole_arr_map Node.whole_write_iff, Json.whole_arr_map Edge.whole_write_iff,
    List.not_mem_nil, false_imp_iff, implies_true, and_true]

/-! Where a part stands. Only the names of fields are no values. -/

theorem ParamBinding.part_of_parts {b : ParamBinding} {v : Json} (h : v ∈ Record.parts b) :
    Part v.finite (write .kept b) := by
  rw [write_kept]
  simp only [Record.parts, List.mem_cons, List.not_mem_nil, or_false] at h
  rcases h with rfl | rfl | rfl
  · exact .of_get? (rfl : b.fields.get? "paramKey" = some _)
  · exact .of_get? (rfl : b.fields.get? "sourceKey" = some _)
  · rw [Json.finite_ofOption_str]
    exact .of_get? (rfl : b.fields.get? "sourceParam" = some _)

namespace ParamDefinition

theorem part_of_parts {p : ParamDefinition} {v : Json} (h : v ∈ Record.parts p) :
    Part v.finite (write .kept p) := by
  rw [write_kept]
  simp only [Record.parts, List.mem_cons, List.not_mem_nil, or_false] at h
  rcases h with rfl | rfl | rfl | rfl | rfl
  · exact .of_get? (rfl : p.fields.get? "key" = some _)
  · exact .of_get? (rfl : p.fields.get? "label" = some _)
  · exact .of_get? (rfl : p.fields.get? "type" = some _)
  · exact .of_get? (rfl : p.fields.get? "defaultValue" = some _)
  · rw [Json.finite_ofOption_str]
    exact .of_get? (rfl : p.fields.get? "description" = some _)

end ParamDefinition

namespace NodeData

theorem part_of_parts {d : NodeData} {v : Json} (h : v ∈ Record.parts d) :
    (∃ name, v = .str name) ∨ Part v.finite (write .kept d) := by
  have hown {name : String} {inner : Json} (hpart : Part v.finite inner)
      (hget : d.fields.get? name = some inner) : Part v.finite (write .kept d) := by
    rw [write_kept]
    exact .field hpart (List.mem_append_left _ (Fields.mem_of_get? hget))
  have hparts : Record.parts d = [Json.ofOption .str d.id, .str d.label] ++ d.config.parts ++
      d.bindings.flatMap Record.parts ++
        (d.customInputs ++ d.customOutputs).flatMap Record.parts ++ d.extras.parts := rfl
  simp only [hparts, List.flatMap_append, List.mem_append, List.mem_cons, List.not_mem_nil,
    or_false, List.mem_flatMap] at h
  rcases h with ((((rfl | rfl) | hconfig) | ⟨b, hb, hv⟩) | ⟨p, hp, hv⟩ | ⟨p, hp, hv⟩) | hextras
  · refine Or.inr (hown ?_ (rfl : d.fields.get? "id" = some _))
    rw [Json.finite_ofOption_str]
    exact .self _
  · exact Or.inl ⟨_, rfl⟩
  · rcases Json.part_of_parts hconfig with hname | ⟨name, hname⟩
    · exact Or.inl hname
    · exact Or.inr (hown (.field (.self _) hname) (rfl : d.fields.get? "config" = some _))
  · exact Or.inr (hown (.item (ParamBinding.part_of_parts hv) (List.mem_map_of_mem hb))
      (rfl : d.fields.get? "paramBindings" = some _))
  · exact Or.inr (hown (.item (ParamDefinition.part_of_parts hv) (List.mem_map_of_mem hp))
      (rfl : d.fields.get? "customInputParams" = some _))
  · exact Or.inr (hown (.item (ParamDefinition.part_of_parts hv) (List.mem_map_of_mem hp))
      (rfl : d.fields.get? "customOutputParams" = some _))
  · rw [write_kept]
    exact Json.part_of_extras hextras

end NodeData

theorem Node.part_of_parts {n : Node} {v : Json} (h : v ∈ Record.parts n) :
    (∃ name, v = .str name) ∨ Part v.finite (write .kept n) := by
  have hparts : Record.parts n =
      [.str n.id, .str n.type] ++ Record.parts n.data ++ n.extras.parts := rfl
  simp only [hparts, List.mem_append, List.mem_cons, List.not_mem_nil, or_false] at h
  rw [write_kept]
  rcases h with ((rfl | rfl) | hdata) | hextras
  · exact Or.inl ⟨_, rfl⟩
  · exact Or.inl ⟨_, rfl⟩
  · refine (NodeData.part_of_parts hdata).imp_right fun hpart => ?_
    exact .field hpart
      (List.mem_append_left _ (Fields.mem_of_get? (rfl : n.fields.get? "data" = some _)))
  · exact Json.part_of_extras hextras

theorem Edge.part_of_parts {e : Edge} {v : Json} (h : v ∈ Record.parts e) :
    (∃ name, v = .str name) ∨ Part v.finite (write .kept e) := by
  have hparts : Record.parts e = e.fields.values ++ e.extras.parts := rfl
  rw [hparts] at h
  rw [write_kept]
  rcases List.mem_append.mp h with hown | hextras
  · obtain ⟨field, hfield, rfl⟩ := List.mem_map.mp hown
    have htexts : Json.finiteFields e.fields = e.fields := by
      simp only [fields, Json.finite, Json.finiteFields, Json.finite_ofOption_str]
    have hwritten : (field.1, field.2.finite) ∈ e.fields := by
      rw [← htexts]
      exact Json.mem_finiteFields.mpr ⟨field, hfield, rfl⟩
    exact Or.inr (.field (.self _) (List.mem_append_left _ hwritten))
  · exact Json.part_of_extras hextras

theorem Graph.part_of_parts {g : Graph} {v : Json} (h : v ∈ Record.parts g) :
    (∃ name, v = .str name) ∨ Part v.finite (write .kept g) := by
  rw [write_kept]
  rcases List.mem_append.mp h with hnodes | hedges
  · obtain ⟨n, hn, hv⟩ := List.mem_flatMap.mp hnodes
    refine (Node.part_of_parts hv).imp_right fun hpart => ?_
    exact .field (.item hpart (List.mem_map_of_mem hn))
      (Fields.mem_of_get? (rfl : g.fields.get? "nodes" = some _))
  · obtain ⟨e, he, hv⟩ := List.mem_flatMap.mp hedges
    refine (Edge.part_of_parts hv).imp_right fun hpart => ?_
    exact .field (.item hpart (List.mem_map_of_mem he))
      (Fields.mem_of_get? (rfl : g.fields.get? "edges" = some _))

/-! Graphs that can be stored. -/

namespace Graph

/-- A graph that can be stored: no value in it nests too deep to be written, and no text in its
written form holds half a surrogate pair. -/
structure Storable (g : Graph) : Prop where
  shallow : ∀ v ∈ Record.parts g, v.exceeds Record.deepest = false
  whole : Json.Whole (write .kept g)

theorem storable_iff {g : Graph} : g.Storable ↔ ∀ v ∈ Record.parts g, v.Writable := by
  constructor
  · exact fun h v hv => ⟨h.shallow v hv, (whole_write_iff g).mp h.whole v hv⟩
  · exact fun h => ⟨fun v hv => (h v hv).shallow,
      (whole_write_iff g).mpr fun v hv => (h v hv).whole⟩

theorem checkText_eq_ok_iff {g : Graph} : Record.checkText g = .ok () ↔ g.Storable :=
  Record.checkText_eq_ok_iff.trans storable_iff.symm

theorem stored_eq_ok_iff {g : Graph} {text : String} :
    Record.stored g = .ok text ↔ g.Storable ∧ text = g.snapshot := by
  rw [Record.stored_eq_ok_iff, checkText_eq_ok_iff]
  rfl

end Graph
end WorkflowStudio
