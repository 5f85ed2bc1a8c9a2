import WorkflowStudio.Editing.Editor

/-!
Bindings in their places. The place of a new binding is counted among all bindings and used among
those of other keys. The two counts agree up to the first binding of its key, because none is left
out before it, so the new binding stands where that one stood.
-/
namespace WorkflowStudio
namespace Editor

/-! Putting a binding into a list. -/

section PutBinding

variable {binding first : ParamBinding} {rest : List ParamBinding}

theorem putBinding_nil (binding : ParamBinding) : putBinding binding [] = [binding] := rfl

theorem putBinding_cons_of_eq (h : first.paramKey = binding.paramKey) :
    putBinding binding (first :: rest) =
      binding :: rest.filter (·.paramKey != binding.paramKey) := by
  simp [putBinding, List.findIdx?_cons, h]

theorem putBinding_cons_of_ne (h : first.paramKey ≠ binding.paramKey) :
    putBinding binding (first :: rest) = first :: putBinding binding rest := by
  have hkept : (first :: rest).filter (·.paramKey != binding.paramKey) =
      first :: rest.filter (·.paramKey != binding.paramKey) :=
    List.filter_cons_of_pos (by simpa using h)
  have hother : (first.paramKey == binding.paramKey) = false := by simpa using h
  unfold putBinding
  rw [hkept, List.findIdx?_cons, hother]
  cases rest.findIdx? (·.paramKey == binding.paramKey) with
  | none => rfl
  | some index => rfl

end PutBinding

/-- One list of bindings is another one into which a binding was put. It is the only one of its key
and stands where the first one of its key stood before, or behind all others when there was none. -/
structure PutsInPlace (binding : ParamBinding) (before after : List ParamBinding) : Prop where
  only : after.filter (·.paramKey == binding.paramKey) = [binding]
  place : after[before.findIdx (·.paramKey == binding.paramKey)]? = some binding
  others : after.filter (·.paramKey != binding.paramKey) =
    before.filter (·.paramKey != binding.paramKey)

theorem putsInPlace_putBinding (binding : ParamBinding) (bindings : List ParamBinding) :
    PutsInPlace binding bindings (putBinding binding bindings) := by
  induction bindings with
  | nil =>
    rw [putBinding_nil]
    exact ⟨by simp, by simp, by simp⟩
  | cons first rest ih =>
    by_cases hkey : first.paramKey = binding.paramKey
    · rw [putBinding_cons_of_eq hkey]
      refine ⟨?_, ?_, ?_⟩
      · have hnone : (rest.filter (·.paramKey != binding.paramKey)).filter
            (·.paramKey == binding.paramKey) = [] := by simp [List.filter_eq_nil_iff]
        rw [List.filter_cons_of_pos (by simp), hnone]
      · simp [List.findIdx_cons, hkey]
      · simp [hkey]
    · rw [putBinding_cons_of_ne hkey]
      have hother : (first.paramKey == binding.paramKey) = false := by simpa using hkey
      refine ⟨?_, ?_, ?_⟩
      · rw [List.filter_cons_of_neg (by simpa using hkey)]
        exact ih.only
      · rw [List.findIdx_cons, hother]
        exact ih.place
      · rw [List.filter_cons_of_pos (by simpa using hkey),
          List.filter_cons_of_pos (by simpa using hkey), ih.others]

namespace PutsInPlace

variable {binding : ParamBinding} {before after : List ParamBinding}

theorem find?_self (h : PutsInPlace binding before after) :
    after.find? (·.paramKey == binding.paramKey) = some binding := by
  rw [← List.head?_filter, h.only]
  rfl

theorem find?_of_ne (h : PutsInPlace binding before after) {key : String}
    (hkey : key ≠ binding.paramKey) :
    after.find? (·.paramKey == key) = before.find? (·.paramKey == key) := by
  -- A binding of the key is among those of other keys, and these are the same.
  have hfound (bindings : List ParamBinding) :
      bindings.find? (·.paramKey == key) =
        (bindings.filter (·.paramKey != binding.paramKey)).find? (·.paramKey == key) := by
    rw [List.find?_filter]
    congr 1
    funext b
    by_cases hb : b.paramKey = key
    · simp [hb, hkey]
    · simp [hb]
  rw [hfound after, h.others, ← hfound before]

end PutsInPlace

/-! Commands on the first node with an id. -/

theorem find?_changeFirst {id : String} {change : Node → Node} {nodes : List Node} {node : Node}
    (h : nodes.find? (·.id == id) = some node) (hid : (change node).id = node.id) :
    (changeFirst id change nodes).find? (·.id == id) = some (change node) := by
  induction nodes with
  | nil => cases h
  | cons first rest ih =>
    by_cases hfirst : first.id = id
    · rw [List.find?_cons_of_pos (by simpa using hfirst)] at h
      obtain rfl := Option.some.inj h
      rw [changeFirst, if_pos (by simpa using hfirst)]
      exact List.find?_cons_of_pos (by simpa [hid] using hfirst)
    · rw [List.find?_cons_of_neg (by simpa using hfirst)] at h
      rw [changeFirst, if_neg (by simpa using hfirst),
        List.find?_cons_of_neg (by simpa using hfirst)]
      exact ih h

variable {e : Editor} {id : String} {node : Node}

theorem node?_updateData (h : e.node? id = some node) (change : NodeData → NodeData) :
    (e.updateData id change).editor.node? id =
      some { node with data := change node.data } :=
  find?_changeFirst h rfl

theorem setBinding_eq (h : e.node? id = some node) (binding : ParamBinding) :
    e.setBinding id binding =
      e.updateData id fun d => { d with bindings := putBinding binding d.bindings } := by
  rw [setBinding, h]

theorem removeBinding_eq (h : e.node? id = some node) {paramKey : String}
    (hbound : (node.data.binding? paramKey).isSome) :
    e.removeBinding id paramKey =
      e.updateData id fun d =>
        { d with bindings := d.bindings.filter (·.paramKey != paramKey) } := by
  have hsome : ¬(node.data.binding? paramKey).isNone = true := by
    simpa [Option.isSome_iff_ne_none] using hbound
  rw [removeBinding, h]
  exact if_neg hsome

/-- Setting a binding of a node updates its bindings in place as a map from keys. Removing the key
after that leaves exactly the other bindings in their old order. -/
theorem setBinding_in_place (h : e.node? id = some node) (binding : ParamBinding) :
    ∃ after : NodeData,
      after = { node.data with bindings := after.bindings } ∧
      (e.setBinding id binding).result = .ok true ∧
      (e.setBinding id binding).editor.node? id = some { node with data := after } ∧
      PutsInPlace binding node.data.bindings after.bindings ∧
      after.binding? binding.paramKey = some binding ∧
      (∀ key, key ≠ binding.paramKey → after.binding? key = node.data.binding? key) ∧
      ((e.setBinding id binding).editor.removeBinding id binding.paramKey).result = .ok true ∧
      ((e.setBinding id binding).editor.removeBinding id binding.paramKey).editor.node? id =
        some { node with
          data := { node.data with
            bindings := node.data.bindings.filter (·.paramKey != binding.paramKey) } } := by
  have hputs := putsInPlace_putBinding binding node.data.bindings
  let after : NodeData :=
    { node.data with bindings := putBinding binding node.data.bindings }
  have hset : (e.setBinding id binding).editor.node? id = some { node with data := after } := by
    rw [setBinding_eq h]
    exact node?_updateData h _
  have hself : after.binding? binding.paramKey = some binding := hputs.find?_self
  have hbound : (after.binding? binding.paramKey).isSome := by rw [hself]; rfl
  refine ⟨after, rfl, ?_, hset, hputs, hself, fun key hkey => hputs.find?_of_ne hkey, ?_, ?_⟩
  · rw [setBinding_eq h]
    rfl
  · rw [removeBinding_eq hset hbound]
    rfl
  · rw [removeBinding_eq hset hbound, node?_updateData hset, ← hputs.others]

/-! A chat node of an old graph, whose prompt is bound twice. -/

def tone : ParamBinding := ⟨"tone", .global, "app", some "tone"⟩

def question : ParamBinding := ⟨"question", .node, "start", some "query"⟩

def doublyBound : Editor :=
  let data := Catalog.builtIn.newData .llmChat (some "llm") "LLM" []
  { empty .builtIn ⟨[]⟩ (.str "") 0 with
    nodes := [⟨"llm", "custom", .origin, { data with
      bindings := [tone, ⟨"prompt", .session, "ask", none⟩, question,
        ⟨"prompt", .interface, "ask", none⟩] }, []⟩] }

def prompt : ParamBinding := ⟨"prompt", .node, "start", some "prompt"⟩

/-- The new binding takes the first place of its key, and the second one is dropped. -/
theorem setBinding_in_place_doublyBound :
    ∃ node, doublyBound.node? "llm" = some node ∧
      ∃ after : NodeData,
        (doublyBound.setBinding "llm" prompt).editor.node? "llm" =
          some { node with data := after } ∧
        PutsInPlace prompt node.data.bindings after.bindings ∧
        after.bindings = [tone, prompt, question] := by
  have hnode : doublyBound.node? "llm" = some _ := rfl
  refine ⟨_, hnode, ?_⟩
  obtain ⟨after, -, -, hset, hputs, -⟩ := setBinding_in_place hnode prompt
  have hbindings := congrArg (Option.map fun node => node.data.bindings) hset
  exact ⟨after, hset, hputs, (Option.some.inj hbindings).symm⟩

end Editor
end WorkflowStudio
