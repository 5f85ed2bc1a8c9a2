import WorkflowStudio.ChangeLabel
import WorkflowStudio.Proofs.DecimalDigits
import WorkflowStudio.Proofs.GraphText

/-!
Snapshots that are loaded to be compared. A snapshot that was written loads unless it holds a
whole number with more digits than are read, and in what was loaded every record is found under
its id and every part of it under its name.
-/
namespace WorkflowStudio

namespace Json

/-! Values that load. -/

theorem exceeds_zero (v : Json) : exceeds 0 v = true := by rw [exceeds]

theorem exceeds_arr {bound : Nat} {items : List Json} :
    exceeds (bound + 1) (.arr items) = false ↔ ∀ v ∈ items, exceeds bound v = false := by
  rw [exceeds]
  induction items with
  | nil => simp [exceedsItems]
  | cons v rest ih => rw [exceedsItems, Bool.or_eq_false_iff, ih, List.forall_mem_cons]

theorem exceeds_obj {bound : Nat} {fs : Fields} :
    exceeds (bound + 1) (.obj fs) = false ↔ ∀ field ∈ fs, exceeds bound field.2 = false := by
  rw [exceeds]
  induction fs with
  | nil => simp [exceedsFields]
  | cons field rest ih => rw [exceedsFields, Bool.or_eq_false_iff, ih, List.forall_mem_cons]

theorem exceeds_mono {v : Json} {bound more : Nat} (h : exceeds bound v = false)
    (hle : bound ≤ more) : exceeds more v = false := by
  induction bound generalizing v more with
  | zero => simp [exceeds_zero] at h
  | succ bound ih =>
    obtain ⟨more, rfl⟩ : ∃ k, more = k + 1 := ⟨more - 1, by omega⟩
    cases v with
    | arr items => exact exceeds_arr.mpr fun v hv => ih (exceeds_arr.mp h v hv) (by omega)
    | obj fs => exact exceeds_obj.mpr fun field hf => ih (exceeds_obj.mp h field hf) (by omega)
    | _ => rfl

/-- A value loads when it does not nest too deep and no number in it is refused. -/
theorem legible_of_not_exceeds {dialect : Dialect} {v : Json} {depth : Nat}
    (hdepth : exceeds (depth + 1) v = false)
    (hints : ∀ n : Int, Part (.int n) v →
      dialect.refuses (n < 0) true (Numeral.wholeDigits n.natAbs) = false) :
    legible dialect depth v = true := by
  induction depth generalizing v with
  | zero =>
    cases v with
    | int n => simpa [legible] using hints n (.self _)
    | arr items =>
      cases items with
      | nil => rfl
      | cons v rest => simpa [exceeds_zero] using exceeds_arr.mp hdepth v List.mem_cons_self
    | obj fs =>
      cases fs with
      | nil => rfl
      | cons field rest =>
        simpa [exceeds_zero] using exceeds_obj.mp hdepth field List.mem_cons_self
    | _ => rfl
  | succ depth ih =>
    cases v with
    | int n => simpa [legible] using hints n (.self _)
    | arr items =>
      refine legible_arr.mpr fun v hv => ih (exceeds_arr.mp hdepth v hv) fun n hn => ?_
      exact hints n (.item hn hv)
    | obj fs =>
      refine legible_obj.mpr fun field hfield => ih (exceeds_obj.mp hdepth field hfield) ?_
      exact fun n hn => hints n (.field hn hfield)
    | _ => rfl

/-- A value in which a whole number has more digits than are read. -/
def HoldsOverlong (v : Json) : Prop :=
  ∃ n : Int, Part (.int n) v ∧ 10 ^ Numeral.digitLimit ≤ n.natAbs

theorem refuses_lenient_iff {n : Int} :
    lenient.refuses (n < 0) true (Numeral.wholeDigits n.natAbs) = true ↔
      10 ^ Numeral.digitLimit ≤ n.natAbs := by
  have hlength : (Numeral.wholeDigits n.natAbs).length ≤ Numeral.digitLimit ↔
      n.natAbs < 10 ^ Numeral.digitLimit := Numeral.length_wholeDigits_le_iff (by decide)
  have hrefuses : lenient.refuses (n < 0) true (Numeral.wholeDigits n.natAbs) =
      decide (Numeral.digitLimit < (Numeral.wholeDigits n.natAbs).length) := rfl
  rw [hrefuses, decide_eq_true_eq, ← not_le, hlength, not_lt]

theorem legible_lenient_iff {v : Json} (h : exceeds 300 v = false) :
    legible lenient lenient.deepest v = true ↔ ¬v.HoldsOverlong := by
  constructor
  · intro hlegible ⟨n, hpart, hlong⟩
    obtain ⟨below, -, hint⟩ := hpart.legible hlegible
    have hrefuses := refuses_lenient_iff.mpr hlong
    rw [legible, hrefuses] at hint
    cases hint
  · intro hshort
    refine legible_of_not_exceeds (exceeds_mono h (by decide)) fun n hpart => ?_
    by_contra hrefuses
    exact hshort ⟨n, hpart, refuses_lenient_iff.mp (by simpa using hrefuses)⟩

end Json

/-! Records nest little deeper than the values in them. -/

namespace ParamBinding

theorem exceeds_write (b : ParamBinding) : Json.exceeds 2 (write .kept b) = false := by
  rw [write_kept, Json.exceeds_obj]
  simp only [fields, List.forall_mem_cons]
  refine ⟨rfl, rfl, rfl, ?_, fun _ h => absurd h List.not_mem_nil⟩
  cases b.sourceParam <;> rfl

end ParamBinding

section Depth

variable {bound : Nat}

theorem Json.exceeds_ofOption_str (o : Option String) :
    exceeds (bound + 1) (ofOption .str o) = false := by
  cases o <;> rfl

/-- The fields of a record do not nest deeper than its own fields and the values behind them. -/
theorem Json.exceeds_obj_append {own extras : Fields}
    (hown : ∀ field ∈ own, exceeds bound field.2 = false)
    (hextras : ∀ v ∈ extras.parts, exceeds bound v = false) :
    exceeds (bound + 1) (.obj (own ++ finiteFields extras)) = false := by
  rw [exceeds_obj, List.forall_mem_append]
  refine ⟨hown, fun field hfield => ?_⟩
  obtain ⟨given, hgiven, rfl⟩ := mem_finiteFields.mp hfield
  refine (exceeds_finite bound given.2).trans (hextras given.2 ?_)
  exact List.mem_flatMap_of_mem hgiven (List.mem_cons_of_mem _ List.mem_cons_self)

theorem Json.exceeds_arr_map {α : Type} {write : α → Json} {items : List α}
    (h : ∀ a ∈ items, exceeds bound (write a) = false) :
    exceeds (bound + 1) (.arr (items.map write)) = false :=
  exceeds_arr.mpr (List.forall_mem_map.mpr h)

theorem ParamDefinition.exceeds_write {p : ParamDefinition}
    (h : ∀ v ∈ Record.parts p, Json.exceeds (bound + 1) v = false) :
    Json.exceeds (bound + 2) (write .kept p) = false := by
  have hvalue : Json.exceeds (bound + 1) p.defaultValue = false :=
    h _ (by simp only [Record.parts, List.mem_cons, true_or, or_true])
  rw [write_kept, Json.exceeds_obj]
  simp only [fields, List.forall_mem_cons]
  exact ⟨rfl, rfl, rfl, rfl, (Json.exceeds_finite _ _).trans hvalue, Json.exceeds_ofOption_str _,
    fun _ h => absurd h List.not_mem_nil⟩

theorem NodeData.exceeds_write {d : NodeData}
    (h : ∀ v ∈ Record.parts d, Json.exceeds (bound + 1) v = false) :
    Json.exceeds (bound + 4) (write .kept d) = false := by
  obtain ⟨-, -, hconfig, -, hinputs, houtputs, hextras⟩ := NodeData.forall_parts.mp h
  have hsettings : Json.exceeds (bound + 2) (.obj ([] ++ Json.finiteFields d.config)) = false :=
    Json.exceeds_obj_append (fun _ h => absurd h List.not_mem_nil) hconfig
  have hbindings : Json.exceeds (bound + 3) (.arr (d.bindings.map (ParamBinding.write .kept))) =
      false := Json.exceeds_arr_map fun b _ => Json.exceeds_mono b.exceeds_write (by omega)
  rw [write_kept]
  refine Json.exceeds_obj_append ?_ fun v hv => Json.exceeds_mono (hextras v hv) (by omega)
  simp only [fields, List.forall_mem_cons]
  exact ⟨Json.exceeds_ofOption_str _, rfl, rfl, Json.exceeds_mono hsettings (by omega), rfl,
    hbindings, Json.exceeds_arr_map fun p hp => ParamDefinition.exceeds_write (hinputs p hp),
    Json.exceeds_arr_map fun p hp => ParamDefinition.exceeds_write (houtputs p hp),
    fun _ h => absurd h List.not_mem_nil⟩

theorem Node.exceeds_write {n : Node}
    (h : ∀ v ∈ Record.parts n, Json.exceeds (bound + 1) v = false) :
    Json.exceeds (bound + 5) (write .kept n) = false := by
  obtain ⟨-, -, hdata, hextras⟩ := Node.forall_parts.mp h
  rw [write_kept]
  refine Json.exceeds_obj_append ?_ fun v hv => Json.exceeds_mono (hextras v hv) (by omega)
  simp only [fields, List.forall_mem_cons]
  exact ⟨rfl, rfl, rfl, NodeData.exceeds_write hdata, fun _ h => absurd h List.not_mem_nil⟩

theorem Edge.exceeds_write {e : Edge}
    (h : ∀ v ∈ Record.parts e, Json.exceeds (bound + 1) v = false) :
    Json.exceeds (bound + 2) (write .kept e) = false := by
  rw [write_kept]
  refine Json.exceeds_obj_append ?_ (Edge.forall_parts.mp h).2
  simp only [fields, List.forall_mem_cons]
  exact ⟨rfl, rfl, rfl, Json.exceeds_ofOption_str _, Json.exceeds_ofOption_str _,
    Json.exceeds_ofOption_str _, Json.exceeds_ofOption_str _, fun _ h => absurd h List.not_mem_nil⟩

theorem Graph.exceeds_write {g : Graph}
    (h : ∀ v ∈ Record.parts g, Json.exceeds (bound + 1) v = false) :
    Json.exceeds (bound + 7) (write .kept g) = false := by
  obtain ⟨hnodes, hedges⟩ := Graph.forall_parts.mp h
  have hedge (e : Edge) (he : e ∈ g.edges) :
      Json.exceeds (bound + 5) (Edge.write .kept e) = false :=
    Json.exceeds_mono (Edge.exceeds_write (hedges e he)) (by omega)
  rw [write_kept, Json.exceeds_obj]
  simp only [fields, List.forall_mem_cons]
  exact ⟨Json.exceeds_arr_map fun n hn => Node.exceeds_write (hnodes n hn),
    Json.exceeds_arr_map hedge, fun _ h => absurd h List.not_mem_nil⟩

end Depth

namespace Graph

/-- A graph with a whole number that is written with more digits than are read. -/
def HoldsOverlong (g : Graph) : Prop := Json.HoldsOverlong (write .kept g)

theorem exceeds_of_stored {g : Graph} {text : String} (h : Record.stored g = .ok text) :
    Json.exceeds 300 (write .kept g) = false := by
  have hgraph : Json.exceeds (254 + 7) (write .kept g) = false :=
    exceeds_write (stored_eq_ok_iff.mp h).1.shallow
  exact Json.exceeds_mono hgraph (by decide)

end Graph

namespace Change

open Classical in
/-- What a stored snapshot is loaded as. -/
theorem load_stored {g : Graph} (h : g.Sound) {text : String}
    (hstored : Record.stored g = .ok text) :
    load (.str text) = if g.HoldsOverlong then none else some (Graph.write .kept g).finite := by
  have hload : load (.str text) = Json.read? Json.lenient
      (Json.text Json.compact (Graph.write .kept g)) := by
    rw [(Graph.stored_eq_ok_iff.mp hstored).2]
    rfl
  have hlegible := Json.legible_lenient_iff (Graph.exceeds_of_stored hstored)
  rw [hload, Json.read?_text (Graph.proper_write h)]
  by_cases hlong : g.HoldsOverlong
  · rw [if_pos hlong, if_neg fun hread => hlegible.mp hread hlong]
  · rw [if_neg hlong, if_pos (hlegible.mpr hlong)]

end Change

/-! What is found in a loaded snapshot. -/

namespace Json

variable {own : Fields} {name : String} {v : Json}

theorem look_append (h : own.get? name = some v) (rest : Fields) :
    (obj (own ++ rest)).look name = some v := by
  rw [look, Fields.get?_append h, Option.getD_some]

theorem look_finite_append (h : own.get? name = some v) (rest : Fields) :
    (obj (own ++ rest)).finite.look name = some v.finite := by
  rw [finite, look, get?_finiteFields, Fields.get?_append h, Option.map_some, Option.getD_some]

theorem orElse_arr (items : List Json) : (arr items).orElse (.arr []) = .arr items := by
  cases items <;> rfl

theorem orElse_obj (fs : Fields) : (obj fs).orElse (.obj []) = .obj fs := by
  cases fs <;> rfl

theorem orElse_str (s : String) : (str s).orElse (.str "") = .str s := by
  by_cases h : s = ""
  · rw [h]
    rfl
  · exact if_pos (by simpa [isPresent] using h)

theorem lookList_of_look {items : List Json} (h : v.look name = some (.arr items)) :
    v.lookList name = some (.arr items) := by
  rw [lookList, h, Option.map_some, orElse_arr]

theorem lookObject_of_look {fs : Fields} (h : v.look name = some (.obj fs)) :
    v.lookObject name = some (.obj fs) := by
  rw [lookObject, h, Option.map_some, orElse_obj]

theorem equal_str {s t : String} : (str s).equal (.str t) = true ↔ s = t := by
  rw [equal, beq_iff_eq, str.injEq, eq_comm]

end Json

/-- A node as it is found in a loaded snapshot. -/
def Node.loaded (n : Node) : Json := (write .kept n).finite

theorem Node.look_id (n : Node) : n.loaded.look "id" = some (.str n.id) := by
  rw [loaded, write_kept, Json.look_finite_append (rfl : n.fields.get? "id" = some _)]
  rfl

theorem Node.payload_loaded (n : Node) :
    Change.payload n.loaded = some (NodeData.write .kept n.data) := by
  have hlook : n.loaded.look "data" = some (NodeData.write .kept n.data) := by
    rw [loaded, write_kept, Json.look_finite_append (rfl : n.fields.get? "data" = some _),
      NodeData.finite_write]
  rw [NodeData.write_kept] at hlook ⊢
  exact Json.lookObject_of_look hlook

namespace NodeData

variable {d : NodeData}

theorem lookObject_config :
    (write .kept d).lookObject "config" = some (.obj (Json.finiteFields d.config)) := by
  rw [write_kept]
  exact Json.lookObject_of_look (Json.look_append rfl _)

theorem lookList_bindings : (write .kept d).lookList "paramBindings" =
    some (.arr (d.bindings.map (ParamBinding.write .kept))) := by
  rw [write_kept]
  exact Json.lookList_of_look (Json.look_append rfl _)

theorem lookList_customInputs : (write .kept d).lookList "customInputParams" =
    some (.arr (d.customInputs.map (ParamDefinition.write .kept))) := by
  rw [write_kept]
  exact Json.lookList_of_look (Json.look_append rfl _)

theorem lookList_customOutputs : (write .kept d).lookList "customOutputParams" =
    some (.arr (d.customOutputs.map (ParamDefinition.write .kept))) := by
  rw [write_kept]
  exact Json.lookList_of_look (Json.look_append rfl _)

theorem exists_look (d : NodeData) (name : String) :
    ∃ v, (write .kept d).look name = some v := by
  rw [write_kept]
  exact ⟨_, rfl⟩

end NodeData

theorem ParamBinding.look_key (b : ParamBinding) :
    (write .kept b).look "paramKey" = some (.str b.paramKey) := by
  rw [write_kept]
  rfl

theorem ParamDefinition.look_key (p : ParamDefinition) :
    (write .kept p).look "key" = some (.str p.key) := by
  rw [write_kept]
  rfl

theorem Edge.look_id (e : Edge) : (write .kept e).look "id" = some (.str e.id) := by
  rw [write_kept]
  exact Json.look_append rfl _

theorem Edge.look_condition (e : Edge) :
    (write .kept e).look "condition" = some (Json.ofOption .str e.condition) := by
  rw [write_kept]
  exact Json.look_append rfl _

namespace Graph

theorem look_nodes (g : Graph) :
    (write .kept g).finite.look "nodes" = some (.arr (g.nodes.map Node.loaded)) := by
  have hfields := Json.look_finite_append (rfl : g.fields.get? "nodes" = some _) []
  rw [List.append_nil] at hfields
  rw [write_kept, hfields, Json.finite, Json.finiteItems_eq_map, List.map_map]
  rfl

theorem look_edges (g : Graph) :
    (write .kept g).finite.look "edges" = some (.arr (g.edges.map (Edge.write .kept))) := by
  have hfields := Json.look_finite_append (rfl : g.fields.get? "edges" = some _) []
  rw [List.append_nil] at hfields
  rw [write_kept, hfields, Json.finite, Json.finiteItems_map fun e (_ : e ∈ g.edges) =>
    e.finite_write]

end Graph

/-- Under distinct keys the item that is found by a key is the one that has it. -/
theorem find?_key_eq_some_iff {α : Type} {key : α → String} {items : List α}
    (h : (items.map key).Nodup) {s : String} {a : α} :
    (items.find? fun a => key a == s) = some a ↔ a ∈ items ∧ key a = s := by
  have hfits {found : α} (hfound : (items.find? fun a => key a == s) = some found) :
      found ∈ items ∧ key found = s :=
    ⟨List.mem_of_find?_eq_some hfound, by simpa using List.find?_some hfound⟩
  refine ⟨hfits, fun ⟨hmem, hkey⟩ => ?_⟩
  cases hfound : items.find? fun a => key a == s with
  | none => exact absurd (beq_iff_eq.mpr hkey) (List.find?_eq_none.mp hfound a hmem)
  | some found =>
    obtain ⟨hfoundMem, hfoundKey⟩ := hfits hfound
    rw [List.inj_on_of_nodup_map h hfoundMem hmem (hfoundKey.trans hkey.symm)]

namespace Change

/-- An item is found by its key among what the items were written as. -/
theorem findBy_map {α : Type} {name : String} {key : α → String} {write : α → Json}
    (h : ∀ a, (write a).look name = some (.str (key a))) (s : String) (items : List α) :
    findBy name (.str s) (items.map write) =
      some ((items.find? fun a => key a == s).map write) := by
  induction items with
  | nil => rfl
  | cons a rest ih =>
    rw [List.map_cons, findBy, h, Option.bind_some, List.find?_cons]
    by_cases hkey : key a = s
    · rw [if_pos (Json.equal_str.mpr hkey), beq_iff_eq.mpr hkey]
      rfl
    · rw [if_neg fun hequal => hkey (Json.equal_str.mp hequal), beq_eq_false_iff_ne.mpr hkey, ih]

/-- Every node of a loaded snapshot has a name. -/
theorem exists_nodeName (n : Node) : ∃ name, nodeName n.loaded = some name := by
  obtain ⟨label, hlabel⟩ := n.data.exists_look "nodeLabel"
  obtain ⟨old, hold⟩ := n.data.exists_look "label"
  unfold nodeName
  rw [n.payload_loaded]
  by_cases hpresent : label.isPresent = true
  · exact ⟨label, by simp [hlabel, hpresent]⟩
  · by_cases hold' : old.isPresent = true
    · exact ⟨old, by simp [hlabel, hpresent, hold, hold']⟩
    · refine ⟨(Fields.get? (Json.finiteFields (n.fields ++ Json.finiteFields n.extras)) "id").getD
        (.str ""), ?_⟩
      rw [Node.loaded, Node.write_kept]
      simp [hlabel, hpresent, hold, hold', Json.finite]

end Change

end WorkflowStudio
