import WorkflowStudio.Proofs.EditorStructure
import WorkflowStudio.Proofs.ObserverOrder

/-!
What a command can lead to. It is refused, fails or changes nothing, edits the graph and leaves
something to save, or acts on the whole graph or its state. A command that fails changes nothing,
but for the change of settings that breaks off: what was done of it before stays.
-/
namespace WorkflowStudio
namespace Editor

variable {e : Editor} {id : String} {changes : Fields} {replace : Bool} {node : Node}

/-! A change of settings that breaks off. -/

theorem changeFirst_eq_self_iff {nodes : List Node} {changed : Node}
    (h : nodes.find? (·.id == id) = some node) :
    changeFirst id (fun _ => changed) nodes = nodes ↔ changed = node := by
  induction nodes with
  | nil => cases h
  | cons first rest ih =>
    by_cases hid : first.id = id
    · rw [List.find?_cons_of_pos (by simpa using hid), Option.some.injEq] at h
      subst h
      rw [changeFirst, if_pos (by simpa using hid), List.cons.injEq, and_iff_left rfl]
    · rw [List.find?_cons_of_neg (by simpa using hid)] at h
      rw [changeFirst, if_neg (by simpa using hid), List.cons.injEq, and_iff_right rfl, ih h]

theorem reconfigured_eq_iff (node : Node) (changes : Fields) (replace : Bool) :
    reconfigured node changes replace = node ↔
      (reconfigured node changes replace).config = node.config :=
  ⟨congrArg Node.config, fun h => congrArg
    (fun config => { node with data := { node.data with config := config } }) h⟩

/-- The editor with a node under new settings and the guards of its edges renewed, up to the
first that cannot be derived. -/
def renewed (e : Editor) (node : Node) (changes : Fields) (replace : Bool) : Editor :=
  { e.changeNode node.id fun _ => reconfigured node changes replace with
    edges := (renewGuards (reconfigured node changes replace) e.edges).1 }

theorem updateConfig_eq (hnode : e.node? id = some node) (changes : Fields) (replace : Bool) :
    e.updateConfig id changes replace =
      if node.nodeType = .intentClassifier then
        match (renewGuards (reconfigured node changes replace) e.edges).2 with
        | some fault => (e.renewed node changes replace).failed fault
        | none => (e.renewed node changes replace).edited true (.update id)
      else
        (e.changeNode id fun _ => reconfigured node changes replace).edited true (.update id) := by
  obtain ⟨-, rfl⟩ := Graph.node?_eq_some hnode
  rw [updateConfig, hnode]
  rfl

theorem updateConfig_of_leavesOverlong (hnode : e.node? id = some node)
    (h : e.LeavesOverlong id changes replace) : ∃ fault,
      e.updateConfig id changes replace = (e.renewed node changes replace).failed fault := by
  obtain ⟨fault, hfault⟩ := (leavesOverlong_iff hnode changes replace).mp h
  obtain ⟨found, hfound, _, _, _, htype, -⟩ := h
  obtain rfl := Option.some.inj (hnode.symm.trans hfound)
  have htype : node.nodeType = .intentClassifier := htype
  refine ⟨fault, ?_⟩
  rw [updateConfig_eq hnode, if_pos htype, hfault]

theorem renewed_eq_iff (hnode : e.node? id = some node) :
    e.renewed node changes replace = e ↔
      (reconfigured node changes replace).config = node.config ∧
        (renewGuards (reconfigured node changes replace) e.edges).1 = e.edges := by
  obtain ⟨-, rfl⟩ := Graph.node?_eq_some hnode
  have hnodes : (e.renewed node changes replace).nodes = e.nodes ↔
      (reconfigured node changes replace).config = node.config := by
    rw [← reconfigured_eq_iff]
    exact changeFirst_eq_self_iff hnode
  rw [← hnodes]
  refine ⟨fun h => ⟨congrArg Editor.nodes h, congrArg Editor.edges h⟩, ?_⟩
  rintro ⟨hsame, hedges⟩
  exact congrArg₂ (fun nodes edges => { e with nodes := nodes, edges := edges }) hsame hedges

/-! The effects of commands. -/

inductive Effect (e : Editor) : Edit → Outcome Editor Bool → Prop
  | refused (edit : Edit) : e.Effect edit (e.unchanged false)
  /-- A node is moved to where it is. -/
  | still (id : String) (x y : Json) : e.Effect (.moveNode id x y) (e.unchanged true)
  | failed {edit : Edit} (hwhole : ¬e.BreaksOff edit) (fault : Fault) :
      e.Effect edit (e.failed fault)
  | brokenOff {id : String} {changes : Fields} {replace : Bool} {node : Node}
      (hnode : e.node? id = some node) (h : e.LeavesOverlong id changes replace) (fault : Fault) :
      e.Effect (.updateConfig id changes replace) ((e.renewed node changes replace).failed fault)
  | edited {edit : Edit} (hwhole : ¬e.BreaksOff edit) (next : Editor) (mutation : Mutation) :
      e.Effect edit (next.edited true mutation)
  | replaced (graph : Graph) (label : Json) (markDirty : Bool) :
      e.Effect (.replaceGraph graph label markDirty) (e.replaceGraph graph label markDirty).done
  | cleared : e.Effect .clear e.clear.done
  | dirtied : e.Effect .markDirty ⟨e.markDirty, .ok true, none⟩
  | saved (saved : Bool) : e.Effect (.markSaved saved) ⟨e.markSaved saved, .ok true, none⟩
  | timed (millis : Int) : e.Effect (.setClock millis) ⟨{ e with millis := millis }, .ok true, none⟩

theorem effect_addNode {edit : Edit} (hwhole : ¬e.BreaksOff edit) (node : Node) :
    e.Effect edit (e.addNode node).accepted := by
  unfold addNode
  split
  · exact .refused edit
  · exact .edited hwhole _ _

theorem apply_of_breaksOff {edit : Edit} (h : e.BreaksOff edit) :
    ∃ id changes replace node fault, edit = .updateConfig id changes replace ∧
      e.node? id = some node ∧ e.LeavesOverlong id changes replace ∧
      e.apply edit = (e.renewed node changes replace).failed fault := by
  cases edit with
  | updateConfig id changes replace =>
    have ⟨node, hnode, _⟩ : e.LeavesOverlong id changes replace := h
    obtain ⟨fault, hbroken⟩ := updateConfig_of_leavesOverlong hnode h
    exact ⟨id, changes, replace, node, fault, rfl, hnode, h, hbroken⟩
  | _ => exact h.elim

theorem effect_of_not_breaksOff {edit : Edit} (h : ¬e.BreaksOff edit) :
    e.Effect edit (e.apply edit) := by
  cases edit with
  | addNode node => exact effect_addNode h node
  | createNode type position config id =>
    simp only [apply, createNode]
    split
    · exact .failed h _
    · split
      · exact effect_addNode h _
      · exact .failed h _
  | duplicateNode id offset =>
    simp only [apply, duplicateNode]
    split
    · exact .refused _
    · split
      · exact .refused _
      · split
        · exact .failed h _
        · exact .edited h _ _
  | moveNode id x y =>
    simp only [apply, moveNode]
    split
    · exact .refused _
    · split
      · exact .still id x y
      · split
        · exact .failed h _
        · exact .edited h _ _
  | removeNode id =>
    simp only [apply, removeNode]
    split
    · exact .refused _
    · exact .edited h _ _
  | updateNode id update =>
    simp only [apply, updateNode]
    split
    · exact .refused _
    · exact .edited h _ _
  | updateConfig id changes replace =>
    have hwhole : ¬e.LeavesOverlong id changes replace := h
    cases hnode : e.node? id with
    | none =>
      rw [apply, updateConfig, hnode]
      exact .refused _
    | some node =>
      rw [leavesOverlong_iff hnode] at hwhole
      rw [apply, updateConfig_eq hnode]
      split
      · split
        · rename_i fault hfault
          exact absurd ⟨fault, hfault⟩ hwhole
        · exact .edited h _ _
      · exact .edited h _ _
  | setBinding id binding =>
    simp only [apply, setBinding]
    split
    · exact .refused _
    · exact .edited h _ _
  | removeBinding id paramKey =>
    simp only [apply, removeBinding]
    split
    · exact .refused _
    · split
      · exact .refused _
      · exact .edited h _ _
  | connect connection =>
    simp only [apply, connect]
    split
    · exact .refused _
    · exact .failed h _
    · exact .edited h _ _
  | reconnect id connection =>
    simp only [apply, reconnect]
    split
    · exact .refused _
    · exact .refused _
    · exact .failed h _
    · exact .edited h _ _
  | removeEdge id =>
    simp only [apply, removeEdge]
    split
    · exact .refused _
    · exact .edited h _ _
  | replaceGraph graph label markDirty => exact .replaced graph label markDirty
  | clear => exact .cleared
  | markDirty => exact .dirtied
  | markSaved saved => exact .saved saved
  | setClock millis => exact .timed millis

theorem effect_apply (e : Editor) (edit : Edit) : e.Effect edit (e.apply edit) := by
  by_cases h : e.BreaksOff edit
  · obtain ⟨id, changes, replace, node, fault, rfl, hnode, hlong, happly⟩ := apply_of_breaksOff h
    rw [happly]
    exact .brokenOff hnode hlong fault
  · exact effect_of_not_breaksOff h

/-- A change of settings that breaks off after the settings became others, or after the guard or
the label of an edge did. -/
def LeavesTrace (e : Editor) : Edit → Prop
  | .updateConfig id changes replace => e.LeavesOverlong id changes replace ∧
      ∃ node, e.node? id = some node ∧ ((reconfigured node changes replace).config ≠ node.config ∨
        (renewGuards (reconfigured node changes replace) e.edges).1 ≠ e.edges)
  | _ => False

theorem LeavesTrace.breaksOff {edit : Edit} (h : e.LeavesTrace edit) : e.BreaksOff edit := by
  cases edit with
  | updateConfig id changes replace => exact h.1
  | _ => exact h

theorem leavesTrace_iff (hnode : e.node? id = some node)
    (h : e.LeavesOverlong id changes replace) :
    e.LeavesTrace (.updateConfig id changes replace) ↔ e.renewed node changes replace ≠ e := by
  rw [ne_eq, renewed_eq_iff hnode, not_and_or]
  constructor
  · rintro ⟨-, found, hfound, hother⟩
    obtain rfl := Option.some.inj (hnode.symm.trans hfound)
    exact hother
  · exact fun hother => ⟨h, node, hnode, hother⟩

end Editor

namespace Workspace

variable {w : Workspace Editor} {edit : Edit}

/-- No observer fails when it is told what an edit did. -/
def Accepts (w : Workspace Editor) (edit : Edit) : Prop :=
  ∀ mutation, (w.editor.apply edit).mutation = some mutation →
    (emit { w with editor := (w.editor.apply edit).editor } mutation).2 = .ok ()

def Raises (w : Workspace Editor) (edit : Edit) : Prop :=
  ∃ fault, (w.respond (.edit edit)).2 = .error fault

theorem respond_of_untold (h : (w.editor.apply edit).mutation = none) :
    w.respond (.edit edit) = ({ w with editor := (w.editor.apply edit).editor },
      (w.editor.apply edit).result.map fun _ => ()) := by
  rw [respond, perform_of_untold h]

theorem respond_snd_of_accepts (h : w.Accepts edit) :
    (w.respond (.edit edit)).2 = (w.editor.apply edit).result.map fun _ => () := by
  cases hmutation : (w.editor.apply edit).mutation with
  | none => rw [respond_of_untold hmutation]
  | some mutation =>
    have hemit := h mutation hmutation
    have hperform : w.perform (·.apply edit) = (_, (w.editor.apply edit).result) :=
      perform_eq_of_emit hmutation (Prod.ext rfl hemit)
    rw [respond, hperform]

theorem respond_of_breaksOff (h : w.editor.BreaksOff edit) :
    ∃ id changes replace node fault, edit = .updateConfig id changes replace ∧
      w.editor.node? id = some node ∧ w.editor.LeavesOverlong id changes replace ∧
      w.respond (.edit edit) =
        ({ w with editor := w.editor.renewed node changes replace }, .error fault) := by
  obtain ⟨id, changes, replace, node, fault, rfl, hnode, hlong, happly⟩ :=
    Editor.apply_of_breaksOff h
  refine ⟨id, changes, replace, node, fault, rfl, hnode, hlong, ?_⟩
  rw [respond_of_untold (by rw [happly]; rfl), happly]
  rfl

theorem Raises.eq_self (haccepts : w.Accepts edit) (h : w.Raises edit)
    (hwhole : ¬w.editor.BreaksOff edit) : (w.respond (.edit edit)).1 = w := by
  obtain ⟨fault, hfault⟩ := h
  rw [respond_snd_of_accepts haccepts] at hfault
  have heffect := w.editor.effect_apply edit
  generalize ho : w.editor.apply edit = o at hfault heffect
  cases heffect with
  | failed _ fault =>
    rw [respond_of_untold (by rw [ho]; rfl), ho]
    rfl
  | brokenOff _ hlong => exact absurd hlong hwhole
  | _ => cases hfault

def unreadWorkspace : Workspace Editor :=
  start { Editor.empty .builtIn ⟨[]⟩ (.str "") 0 with
    nodes := unreadGraph.nodes
    edges := unreadGraph.edges } none none

def makingReadable : Edit :=
  .updateConfig "c" [("modelId", .null), ("intents", .arr [.str "x"])] false

end Workspace
end WorkflowStudio
