import Mathlib.Data.List.Induction
import WorkflowStudio.Checks.Publication
import WorkflowStudio.Document.Export
import WorkflowStudio.Proofs.GraphStructure

/-!
The inputs of an exported document. A workflow can be published as soon as each required input
has a binding, whereas a binding is exported only when it names what it takes. An input that is
bound by half-filled bindings alone is thus missing from the document.
-/
namespace WorkflowStudio

namespace ParamBinding

/-- The binding says where its value comes from. An application parameter may be named by its
source key alone, and so may a parameter of the older kinds of scopes. -/
def Complete (b : ParamBinding) : Prop :=
  match b.sourceType with
  | .node => b.sourceKey ≠ "" ∧ b.sourceParam.getD "" ≠ ""
  | .interface | .session => b.sourceKey ≠ "" ∨ b.sourceParam.getD "" ≠ ""
  | .global =>
      if (Vocabulary.find? b.sourceKey : Option Scope).isSome then b.sourceParam.getD "" ≠ ""
      else b.sourceKey ≠ ""

theorem orElse_ne_empty {s : Option String} {t : String} :
    orElse s t ≠ "" ↔ t ≠ "" ∨ s.getD "" ≠ "" := by
  cases s with
  | none => simp [orElse]
  | some s =>
    by_cases h : s = ""
    · simp [orElse, h]
    · simp [orElse, h]

/-- The complete bindings are the ones that have an expression. -/
theorem isSome_ofBinding_iff (b : ParamBinding) :
    (Expression.ofBinding b).isSome ↔ b.Complete := by
  have hscoped (scope : Scope) (key : String) :
      (if key.isEmpty then none else some (Expression.enclose (scope.referenceName ++ "." ++ key))
        : Option String).isSome ↔ key ≠ "" := by
    by_cases h : key = "" <;> simp [h]
  obtain ⟨paramKey, sourceType, sourceKey, sourceParam⟩ := b
  cases sourceType with
  | node =>
    cases sourceParam with
    | none => simp [Expression.ofBinding, resolveGlobal, Complete]
    | some param =>
      by_cases hkey : sourceKey = "" <;> by_cases hparam : param = "" <;>
        simp [Expression.ofBinding, resolveGlobal, Complete, hkey, hparam]
  | interface =>
    rw [Expression.ofBinding, resolveGlobal]
    exact (hscoped _ _).trans orElse_ne_empty
  | session =>
    rw [Expression.ofBinding, resolveGlobal]
    exact (hscoped _ _).trans orElse_ne_empty
  | «global» =>
    rw [Expression.ofBinding, resolveGlobal, Complete]
    dsimp only
    cases hscope : (Vocabulary.find? sourceKey : Option Scope) with
    | none => exact hscoped _ _
    | some scope => exact hscoped _ _

end ParamBinding

theorem renderInputs_append (bindings : List ParamBinding) (b : ParamBinding) :
    renderInputs (bindings ++ [b]) = match Expression.ofBinding b with
      | some expression => (renderInputs bindings).insert b.paramKey (.str expression)
      | none => renderInputs bindings := by
  unfold renderInputs Fields.ofPairs Fields.merge
  rw [List.filterMap_append, List.foldl_append]
  cases hb : Expression.ofBinding b with
  | none => simp [hb]
  | some expression => simp [hb]

/-- An input is exported with the expression of its last complete binding. -/
theorem get?_renderInputs (bindings : List ParamBinding) (key : String) :
    (renderInputs bindings).get? key =
      ((bindings.filter (·.paramKey == key)).filterMap Expression.ofBinding).getLast?.map
        Json.str := by
  induction bindings using List.reverseRecOn with
  | nil => rfl
  | append_singleton bindings b ih =>
    rw [renderInputs_append, List.filter_append, List.filterMap_append]
    by_cases hkey : b.paramKey = key
    · cases hb : Expression.ofBinding b with
      | none => simpa [hkey, hb] using ih
      | some expression =>
        subst hkey
        simp [hb, Fields.get?_insert_self]
    · cases hb : Expression.ofBinding b with
      | none => simpa [hkey] using ih
      | some expression =>
        dsimp only
        rw [Fields.get?_insert_of_ne _ _ (Ne.symm hkey), ih]
        simp [hkey]

theorem isSome_get?_renderInputs_iff (bindings : List ParamBinding) (key : String) :
    ((renderInputs bindings).get? key).isSome ↔
      ∃ b ∈ bindings, b.paramKey = key ∧ b.Complete := by
  rw [get?_renderInputs, Option.isSome_map, List.getLast?_isSome]
  constructor
  · intro hne
    obtain ⟨expression, hexpression⟩ := List.exists_mem_of_ne_nil _ hne
    obtain ⟨b, hmem, hb⟩ := List.mem_filterMap.mp hexpression
    obtain ⟨hbinding, hkey⟩ := List.mem_filter.mp hmem
    refine ⟨b, hbinding, beq_iff_eq.mp hkey, ?_⟩
    rw [← ParamBinding.isSome_ofBinding_iff, hb]
    rfl
  · rintro ⟨b, hbinding, hkey, hcomplete⟩
    rw [← ParamBinding.isSome_ofBinding_iff] at hcomplete
    obtain ⟨expression, hb⟩ := Option.isSome_iff_exists.mp hcomplete
    have hmem : b ∈ bindings.filter (·.paramKey == key) :=
      List.mem_filter.mpr ⟨hbinding, beq_iff_eq.mpr hkey⟩
    exact List.ne_nil_of_mem (List.mem_filterMap.mpr ⟨b, hmem, hb⟩)

theorem NodeData.exists_of_isSome_binding? {d : NodeData} {key : String}
    (h : (d.binding? key).isSome) : ∃ b ∈ d.bindings, b.paramKey = key := by
  obtain ⟨b, hb⟩ := Option.isSome_iff_exists.mp h
  exact ⟨b, List.mem_of_find?_eq_some hb, by simpa using List.find?_some hb⟩

namespace Node

variable {node : Node} {catalog : Catalog} {param : ParamDefinition}

theorem mem_neededInputs (hparam : param ∈ catalog.inputs node.nodeType)
    (hown : ¬(node.hasCustomResponse = true ∧ param.key = finalOutput)) :
    param ∈ node.neededInputs catalog := by
  unfold neededInputs
  dsimp only
  split
  · rename_i hcustom
    refine List.mem_filter.mpr ⟨hparam, ?_⟩
    exact bne_iff_ne.mpr fun hkey => hown ⟨hcustom, hkey⟩
  · exact hparam

/-- A node without findings has a binding for each input that it needs. -/
theorem bound_of_errors_eq_nil (herrors : node.errors catalog = [])
    (hparam : param ∈ node.neededInputs catalog) (hrequired : param.required = true) :
    ∃ b ∈ node.data.bindings, b.paramKey = param.key := by
  have hunbound : node.unboundErrors (node.neededInputs catalog) = [] := by
    have h := List.append_eq_nil_iff.mp herrors
    exact (List.append_eq_nil_iff.mp (List.append_eq_nil_iff.mp h.1).1).1
  apply NodeData.exists_of_isSome_binding?
  by_contra hnone
  have hmem : param ∈ (node.neededInputs catalog).filter fun p =>
      p.required && (node.data.binding? p.key).isNone := by
    refine List.mem_filter.mpr ⟨hparam, ?_⟩
    rw [hrequired, Bool.true_and]
    simpa using hnone
  rw [unboundErrors, List.map_eq_nil_iff] at hunbound
  rw [hunbound] at hmem
  exact absurd hmem List.not_mem_nil

end Node

/-- In a workflow that can be published no node of the flow has a finding. -/
theorem errors_eq_nil_of_valid {catalog : Catalog} {g : Graph}
    (hvalid : (checkPublication catalog g).valid = true) {node : Node}
    (hnode : node ∈ g.flowNodes) : node.errors catalog = [] := by
  have hnodes : (catalog.checkNodes g.flowNodes).valid = true := by
    unfold checkPublication at hvalid
    dsimp only at hvalid
    split at hvalid
    · rename_i hinvalid
      rw [hvalid] at hinvalid
      cases hinvalid
    · split at hvalid
      · cases hvalid
      · rename_i hnodes
        simpa using hnodes
  have hreports : g.flowNodes.filterMap catalog.nodeReport? = [] := List.isEmpty_iff.mp hnodes
  have hreport := List.filterMap_eq_nil_iff.mp hreports node hnode
  unfold Catalog.nodeReport? at hreport
  dsimp only at hreport
  split at hreport
  · rename_i hempty
    exact List.isEmpty_iff.mp hempty
  · cases hreport

namespace Graph

theorem node?_toDocument {g : Graph} (hids : (g.nodes.map (·.id)).Nodup) (heading : Heading)
    {node : Node} (hnode : node ∈ g.flowNodes) :
    (g.toDocument heading).node? node.id = some node.toDocument := by
  have hfind : g.flowNodes.find? (·.id == node.id) = some node := by
    cases hfound : g.flowNodes.find? (·.id == node.id) with
    | none =>
      have hne := List.find?_eq_none.mp hfound node hnode
      exact absurd (beq_self_eq_true node.id) hne
    | some found =>
      have hmem := List.mem_of_find?_eq_some hfound
      have hid : found.id = node.id := by simpa using List.find?_some hfound
      rw [eq_of_id_eq hids (List.mem_of_mem_filter hmem) (List.mem_of_mem_filter hnode) hid]
  rw [Document.node?, toDocument, List.find?_map]
  exact congrArg (Option.map Node.toDocument) hfind

/-- In the document of a workflow that can be published, each required input has a binding. It
is filled in exactly when one of its bindings is complete. -/
theorem isSome_input_iff {catalog : Catalog} {g : Graph} (hids : (g.nodes.map (·.id)).Nodup)
    (hvalid : (checkPublication catalog g).valid = true) (heading : Heading) {node : Node}
    (hnode : node ∈ g.flowNodes) {param : ParamDefinition}
    (hparam : param ∈ catalog.inputs node.nodeType) (hrequired : param.required = true)
    (hown : ¬(node.hasCustomResponse = true ∧ param.key = Node.finalOutput)) :
    ∃ exported, (g.toDocument heading).node? node.id = some exported ∧
      (∃ b ∈ node.data.bindings, b.paramKey = param.key) ∧
      ((exported.inputs.get? param.key).isSome ↔
        ∃ b ∈ node.data.bindings, b.paramKey = param.key ∧ b.Complete) := by
  have hneeded := Node.mem_neededInputs hparam hown
  refine ⟨node.toDocument, node?_toDocument hids heading hnode, ?_, ?_⟩
  · exact Node.bound_of_errors_eq_nil (errors_eq_nil_of_valid hvalid hnode) hneeded hrequired
  · exact isSome_get?_renderInputs_iff node.data.bindings param.key

/-! An end node whose output is taken from a node, but from no output of it. -/

def halfBoundEnd : Node :=
  ⟨"e", "custom", .origin, ⟨some "e", .finish, "", [], .idle,
    [⟨Node.finalOutput, .node, "s", none⟩], [], [], []⟩, []⟩

def halfBound : Graph where
  nodes := [⟨"s", "custom", .origin, ⟨some "s", .start, "", [], .idle, [], [], [], []⟩, []⟩,
    halfBoundEnd]
  edges := [⟨edgeId "s" none "e", "s", "e", none, none, none, none, []⟩]

theorem input_missing_halfBound : (checkPublication .builtIn halfBound).valid = true ∧
    ∃ exported, (halfBound.toDocument ⟨none, ""⟩).node? "e" = some exported ∧
      exported.inputs.get? Node.finalOutput = none := by
  have hvalid : (checkPublication .builtIn halfBound).valid = true := by decide +kernel
  have hparam : NodeDefinition.needed Node.finalOutput "Final Output" ∈
      Catalog.builtIn.inputs halfBoundEnd.nodeType := by decide
  have hnode : halfBoundEnd ∈ halfBound.flowNodes := by decide
  obtain ⟨exported, hexported, -, hiff⟩ :=
    isSome_input_iff (by decide) hvalid ⟨none, ""⟩ hnode hparam rfl (by decide)
  refine ⟨hvalid, exported, hexported, ?_⟩
  rw [← Option.not_isSome_iff_eq_none]
  intro hsome
  obtain ⟨b, hb, -, hcomplete⟩ := hiff.mp hsome
  rw [List.mem_singleton.mp hb] at hcomplete
  exact hcomplete.2 rfl

end Graph
end WorkflowStudio
