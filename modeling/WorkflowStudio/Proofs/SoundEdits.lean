import WorkflowStudio.Proofs.EditorStructure
import WorkflowStudio.Proofs.FreshNames
import WorkflowStudio.Proofs.PlacedBindings
import WorkflowStudio.Proofs.SoundRecords
import WorkflowStudio.Proofs.WholeText

/-!
Edits with sound arguments keep the graph sound, and they tell observers of every change of the
graph by a mutation whose label is a text. Only an edit that fails may change the graph without
telling anyone.
-/
namespace WorkflowStudio

/-! New ids. -/

namespace Numbering

theorem whole_withSuffix {base : String} (h : Text.Whole base) (k : Nat) :
    Text.Whole (withSuffix base k) := by
  rw [withSuffix, Text.whole_append, Text.whole_append]
  exact ⟨⟨h, rfl⟩, Text.whole_toString k⟩

theorem freshId_eq (base : String) (taken : List String) :
    freshId base taken = base ∨ ∃ suffix, freshId base taken = withSuffix base suffix := by
  by_cases hbase : base ∈ taken
  · obtain ⟨k, hle, hleast⟩ := exists_least_free hbase
    exact Or.inr ⟨k, freshId_of_isLeast hbase hleast hle⟩
  · exact Or.inl (freshId_of_free hbase)

theorem whole_freshId {base : String} (h : Text.Whole base) (taken : List String) :
    Text.Whole (freshId base taken) := by
  rcases freshId_eq base taken with heq | ⟨suffix, heq⟩
  · rw [heq]
    exact h
  · rw [heq]
    exact whole_withSuffix h suffix

end Numbering

/-! Parts of the graph. -/

theorem Node.Sound.withData {n : Node} (h : n.Sound) {d : NodeData} (hd : d.Sound)
    (hid : d.id = n.data.id) : Sound { n with data := d } :=
  { h with
    data := hd
    data_id := by
      rw [hid]
      exact h.data_id }

theorem NodeData.Sound.withConfig {d : NodeData} (h : d.Sound) {config : Fields}
    (hconfig : Json.proper (.obj config) = true) : Sound { d with config := config } :=
  { h with config := hconfig }

theorem Connection.sound_toEdge (c : Connection) (condition : Option String) :
    (c.toEdge condition).Sound where
  id_ne := edgeId_ne_empty _ _ _
  extras := ⟨fun _ hfield => absurd hfield List.not_mem_nil, rfl⟩
  settled := nofun

/-- What a new node is shown by takes no name of a declared field. -/
theorem Catalog.free_presentation (c : Catalog) (t : NodeType) :
    Fields.Free NodeData.slots (c.presentation t) := by
  unfold presentation
  split
  · exact ⟨fun field hfield => absurd hfield List.not_mem_nil, rfl⟩
  · rename_i d _
    refine ⟨fun field hfield => ?_, ?_⟩
    · obtain ⟨row, hrow, hfield⟩ := List.mem_filterMap.mp hfield
      obtain ⟨value, -, rfl⟩ := Option.map_eq_some_iff.mp hfield
      simp only [List.mem_cons, List.not_mem_nil, or_false] at hrow
      rcases hrow with rfl | rfl | rfl <;> dsimp only <;> decide
    · cases d.icon <;> cases d.color <;> cases d.description <;> rfl

/-! Edits with sound arguments. -/

structure Editor.NodeUpdate.Sound (u : NodeUpdate) : Prop where
  customInputs : ∀ params, u.customInputs = some params → ∀ p ∈ params, p.Sound
  customOutputs : ∀ params, u.customOutputs = some params → ∀ p ∈ params, p.Sound

/-- An edit that is handed over sound records, and a text where it takes a label. -/
def Edit.Sound : Edit → Prop
  | .addNode node => node.Sound
  | .createNode _ _ config _ => Json.proper (.obj config) = true
  | .updateNode _ update => update.Sound
  | .updateConfig _ changes _ => Json.proper (.obj changes) = true
  | .replaceGraph graph label _ => graph.Sound ∧ label.IsText
  | _ => True

namespace Editor

variable {α : Type} {e : Editor}

/-- The graph stays sound, the label of a mutation is a text, and a command that succeeds without a
mutation leaves the graph as it is. -/
structure Keeps (e : Editor) (o : Outcome Editor α) : Prop where
  graph : o.editor.graph.Sound
  labels : ∀ mutation, o.mutation = some mutation → mutation.label.IsText
  told : ∀ a, o.result = .ok a → o.mutation = none → o.editor.graph = e.graph

theorem keeps_unchanged (h : e.graph.Sound) (value : α) : e.Keeps (e.unchanged value) :=
  ⟨h, nofun, fun _ _ _ => rfl⟩

theorem keeps_failed {next : Editor} (h : next.graph.Sound) (fault : Fault) :
    e.Keeps (next.failed fault : Outcome Editor α) := ⟨h, nofun, nofun⟩

theorem keeps_edited {next : Editor} (h : next.graph.Sound) (value : α) {mutation : Mutation}
    (hlabel : mutation.label.IsText) : e.Keeps (next.edited value mutation) :=
  ⟨h, fun _ hmutation => Option.some.inj hmutation ▸ hlabel, nofun⟩

theorem Keeps.accepted {o : Outcome Editor (Option α)} (h : e.Keeps o) : e.Keeps o.accepted where
  graph := h.graph
  labels := h.labels
  told := by
    intro _ hresult hmutation
    obtain ⟨a, ha, -⟩ := Except.map_eq_ok.mp hresult
    exact h.told a ha hmutation

/-! Nodes. -/

theorem mem_of_mem_changeFirst {id : String} {change : Node → Node} {nodes : List Node} {n : Node}
    (h : n ∈ changeFirst id change nodes) : n ∈ nodes ∨ ∃ old ∈ nodes, n = change old := by
  induction nodes with
  | nil => exact absurd h List.not_mem_nil
  | cons node rest ih =>
    rw [changeFirst] at h
    split at h
    · rcases List.mem_cons.mp h with rfl | hrest
      · exact Or.inr ⟨node, List.mem_cons_self, rfl⟩
      · exact Or.inl (List.mem_cons_of_mem _ hrest)
    · rcases List.mem_cons.mp h with rfl | hrest
      · exact Or.inl List.mem_cons_self
      · rcases ih hrest with hkept | ⟨old, hold, hchanged⟩
        · exact Or.inl (List.mem_cons_of_mem _ hkept)
        · exact Or.inr ⟨old, List.mem_cons_of_mem _ hold, hchanged⟩

theorem sound_changeNode (h : e.graph.Sound) (id : String) {change : Node → Node}
    (hchange : ∀ n, n.Sound → (change n).Sound) : (e.changeNode id change).graph.Sound where
  nodes := by
    intro n hn
    rcases mem_of_mem_changeFirst hn with hkept | ⟨old, hold, rfl⟩
    · exact h.nodes n hkept
    · exact hchange old (h.nodes old hold)
  edges := h.edges

theorem sound_of_node? (h : e.graph.Sound) {id : String} {n : Node} (hn : e.node? id = some n) :
    n.Sound := h.nodes n (Graph.node?_eq_some hn).1

theorem sound_append (h : e.graph.Sound) {node : Node} (hnode : node.Sound) :
    (graph { e with nodes := e.nodes ++ [node] }).Sound where
  nodes := List.forall_mem_append.mpr ⟨h.nodes, List.forall_mem_singleton.mpr hnode⟩
  edges := h.edges

theorem keeps_addNode (h : e.graph.Sound) {node : Node} (hnode : node.Sound) :
    e.Keeps (e.addNode node) := by
  unfold addNode
  split
  · exact keeps_unchanged h none
  · exact keeps_edited (sound_append h hnode) (some node) ⟨_, rfl⟩

/-- A made id is made of the kind, a number and digits, so a node can have it. -/
theorem whole_freshId (e : Editor) (t : NodeType) : Text.Whole (e.freshId t) := by
  refine Numbering.whole_freshId ?_ _
  rw [Text.whole_append, Text.whole_append]
  refine ⟨⟨?_, rfl⟩, Text.whole_intText _⟩
  have hlower : t.text.toLower.toList = t.text.toList.map Char.toLower := String.toList_map
  have hall : (t.text.toList.map Char.toLower).all (!Json.isHalf ·) = true := by cases t <;> rfl
  rw [Text.whole_iff, hlower]
  intro c hc
  simpa using List.all_eq_true.mp hall c hc

theorem freshId_ne_empty (e : Editor) (t : NodeType) : e.freshId t ≠ "" := by
  unfold freshId
  rcases Numbering.freshId_eq (t.text.toLower ++ "-" ++ Decimal.intText e.millis)
    (e.nodes.map (·.id)) with heq | ⟨suffix, heq⟩
  · rw [heq]
    exact Text.dashed_ne_empty _ _
  · rw [heq]
    exact Text.dashed_ne_empty _ _

theorem sound_newNode {t : NodeType} {position : Position} {config : Fields} {id : Option String}
    {node : Node} (hconfig : Json.proper (.obj config) = true)
    (h : e.newNode t position config id = .ok node) : node.Sound := by
  unfold newNode at h
  obtain ⟨label, -, h⟩ := Except.bind_eq_ok.mp h
  have hnode {id : String} (hne : id ≠ "") (hid : Text.Whole id) :
      (Node.mk id "custom" position (e.catalog.newData t (some id) label config) []).Sound := {
    id_ne := hne
    id := hid
    data := {
      config := hconfig
      customInputs := fun _ hp => absurd hp List.not_mem_nil
      customOutputs := fun _ hp => absurd hp List.not_mem_nil
      extras := e.catalog.free_presentation t }
    data_id := rfl
    extras := ⟨fun _ hfield => absurd hfield List.not_mem_nil, rfl⟩ }
  cases hgiven : id.filter (!·.isEmpty) with
  | some given =>
    rw [hgiven] at h
    obtain ⟨checked, hchecked, hmade⟩ := Except.bind_eq_ok.mp h
    obtain ⟨hne, hid, rfl⟩ := Node.checkId_eq_ok_iff.mp hchecked
    cases hmade
    exact hnode hne hid
  | none =>
    rw [hgiven] at h
    cases h
    exact hnode (freshId_ne_empty e t) (whole_freshId e t)

theorem keeps_createNode (h : e.graph.Sound) (type : String) (position : Position)
    {config : Fields} (id : Option String) (hconfig : Json.proper (.obj config) = true) :
    e.Keeps (e.createNode type position config id) := by
  unfold createNode
  split
  · exact keeps_failed h _
  · split
    · rename_i hnode
      exact keeps_addNode h (sound_newNode hconfig hnode)
    · exact keeps_failed h _

theorem keeps_removeNode (h : e.graph.Sound) (id : String) : e.Keeps (e.removeNode id) := by
  unfold removeNode
  split
  · exact keeps_unchanged h false
  · refine keeps_edited ⟨?_, ?_⟩ true ⟨_, rfl⟩
    · exact fun n hn => h.nodes n (List.mem_of_mem_eraseP hn)
    · exact fun edge hedge => h.edges edge (List.mem_of_mem_filter hedge)

theorem sound_copyNode {node copy : Node} (h : node.Sound) {offset : Double}
    (hcopy : e.copyNode node offset = .ok copy) : copy.Sound := by
  unfold copyNode at hcopy
  obtain ⟨label, -, hcopy⟩ := Except.bind_eq_ok.mp hcopy
  cases hcopy
  exact {
    id_ne := freshId_ne_empty e node.nodeType
    id := whole_freshId e node.nodeType
    data := { h.data with }
    data_id := rfl
    extras := ⟨fun _ hfield => absurd hfield List.not_mem_nil, rfl⟩ }

theorem keeps_duplicateNode (h : e.graph.Sound) (id : String) (offset : Double) :
    e.Keeps (e.duplicateNode id offset) := by
  unfold duplicateNode
  split
  · exact keeps_unchanged h none
  · rename_i node hnode
    split
    · exact keeps_unchanged h none
    · split
      · exact keeps_failed h _
      · rename_i copy hcopy
        have hcopied := sound_copyNode (sound_of_node? h hnode) hcopy
        exact keeps_edited (sound_append h hcopied) (some copy) ⟨_, rfl⟩

theorem keeps_moveNode (h : e.graph.Sound) (id : String) (x y : Json) :
    e.Keeps (e.moveNode id x y) := by
  unfold moveNode
  split
  · exact keeps_unchanged h false
  · split
    · exact keeps_unchanged h true
    · split
      · exact keeps_failed h _
      · refine keeps_edited ?_ true ⟨_, rfl⟩
        exact sound_changeNode h id fun n hn => { hn with }

theorem keeps_updateData (h : e.graph.Sound) (id : String) {change : NodeData → NodeData}
    (hchange : ∀ d, d.Sound → (change d).Sound) (hid : ∀ d, (change d).id = d.id) :
    e.Keeps (e.updateData id change) := by
  refine keeps_edited ?_ true ⟨_, rfl⟩
  exact sound_changeNode h id fun n hn => hn.withData (hchange n.data hn.data) (hid _)

theorem NodeUpdate.Sound.apply {u : NodeUpdate} (h : u.Sound) {d : NodeData} (hd : d.Sound) :
    (u.apply d).Sound := by
  have hparams {given : Option (List ParamDefinition)} {own : List ParamDefinition}
      (hgiven : ∀ params, given = some params → ∀ p ∈ params, p.Sound)
      (hown : ∀ p ∈ own, p.Sound) : ∀ p ∈ given.getD own, p.Sound := by
    cases given with
    | none => exact hown
    | some params => exact hgiven params rfl
  exact { hd with
    customInputs := hparams h.customInputs hd.customInputs
    customOutputs := hparams h.customOutputs hd.customOutputs }

theorem keeps_updateNode (h : e.graph.Sound) (id : String) {update : NodeUpdate}
    (hupdate : update.Sound) : e.Keeps (e.updateNode id update) := by
  unfold updateNode
  split
  · exact keeps_unchanged h false
  · exact keeps_updateData h id (fun _ hd => hupdate.apply hd) fun _ => rfl

theorem keeps_setBinding (h : e.graph.Sound) (id : String) (binding : ParamBinding) :
    e.Keeps (e.setBinding id binding) := by
  unfold setBinding
  split
  · exact keeps_unchanged h false
  · exact keeps_updateData h id (fun _ hd => { hd with }) fun _ => rfl

theorem keeps_removeBinding (h : e.graph.Sound) (id paramKey : String) :
    e.Keeps (e.removeBinding id paramKey) := by
  unfold removeBinding
  split
  · exact keeps_unchanged h false
  · split
    · exact keeps_unchanged h false
    · exact keeps_updateData h id (fun _ hd => { hd with }) fun _ => rfl

/-! Settings, and the guards that follow them. -/

theorem sound_renewGuard {source : Node} {edge renewed : Edge} (h : edge.Sound)
    (hrenewed : renewGuard source edge = .ok renewed) : renewed.Sound := by
  unfold renewGuard at hrenewed
  obtain ⟨condition, -, hrenewed⟩ := Except.bind_eq_ok.mp hrenewed
  cases hrenewed
  exact { h with }

theorem sound_renewGuards {source : Node} {edges : List Edge} (h : ∀ edge ∈ edges, edge.Sound) :
    ∀ edge ∈ (renewGuards source edges).1, edge.Sound := by
  induction edges with
  | nil => exact h
  | cons first rest ih =>
    obtain ⟨hfirst, hrest⟩ := List.forall_mem_cons.mp h
    rw [renewGuards]
    split
    · split
      · exact h
      · rename_i renewed hrenewed
        exact List.forall_mem_cons.mpr ⟨sound_renewGuard hfirst hrenewed, ih hrest⟩
    · exact List.forall_mem_cons.mpr ⟨hfirst, ih hrest⟩

theorem keeps_updateConfig (h : e.graph.Sound) (id : String) {changes : Fields}
    (hchanges : Json.proper (.obj changes) = true) (replace : Bool) :
    e.Keeps (e.updateConfig id changes replace) := by
  unfold updateConfig
  split
  · exact keeps_unchanged h false
  · rename_i node hnode
    have hnode := sound_of_node? h hnode
    dsimp only
    generalize hconfig : (if replace then changes else Fields.merge node.config changes) = config
    have hmerged : Json.proper (.obj config) = true := by
      rw [← hconfig]
      split
      · exact hchanges
      · exact Fields.proper_merge hnode.data.config (Json.proper_obj.mp hchanges).1
    have hchanged : (e.changeNode id fun _ =>
        { node with data := { node.data with config := config } }).graph.Sound :=
      sound_changeNode h id fun _ _ => hnode.withData (hnode.data.withConfig hmerged) rfl
    split
    · split
      · refine keeps_failed ?_ _
        exact ⟨hchanged.nodes, sound_renewGuards h.edges⟩
      · refine keeps_edited ?_ true ⟨_, rfl⟩
        exact ⟨hchanged.nodes, sound_renewGuards h.edges⟩
    · refine keeps_edited ?_ true ⟨_, rfl⟩
      exact hchanged

/-! Edges. -/

theorem sound_acceptedEdge {connection : Connection} {ignored : Option String} {edge : Edge}
    (hedge : e.acceptedEdge connection ignored = some (.ok edge)) : edge.Sound := by
  unfold acceptedEdge at hedge
  split at hedge
  · obtain ⟨source, -, hbuilt⟩ := Option.map_eq_some_iff.mp hedge
    obtain ⟨condition, -, rfl⟩ := Except.map_eq_ok.mp hbuilt
    exact connection.sound_toEdge condition
  · cases hedge

theorem sound_withEdges (h : e.graph.Sound) {edges : List Edge}
    (hedges : ∀ edge ∈ edges, edge.Sound) : (graph { e with edges := edges }).Sound :=
  ⟨h.nodes, hedges⟩

theorem keeps_connect (h : e.graph.Sound) (connection : Connection) :
    e.Keeps (e.connect connection) := by
  unfold connect
  split
  · exact keeps_unchanged h none
  · exact keeps_failed h _
  · rename_i edge hedge
    refine keeps_edited (sound_withEdges h ?_) (some edge) ⟨_, rfl⟩
    exact List.forall_mem_append.mpr
      ⟨h.edges, List.forall_mem_singleton.mpr (sound_acceptedEdge hedge)⟩

theorem keeps_reconnect (h : e.graph.Sound) (id : String) (connection : Connection) :
    e.Keeps (e.reconnect id connection) := by
  unfold reconnect
  split
  · exact keeps_unchanged h none
  · exact keeps_unchanged h none
  · exact keeps_failed h _
  · rename_i edge _ hedge
    refine keeps_edited (sound_withEdges h fun other hother => ?_) (some edge) ⟨_, rfl⟩
    rcases mem_replaceFirst hother with rfl | hold
    · exact sound_acceptedEdge hedge
    · exact h.edges other hold

theorem keeps_removeEdge (h : e.graph.Sound) (id : String) : e.Keeps (e.removeEdge id) := by
  unfold removeEdge
  split
  · exact keeps_unchanged h false
  · refine keeps_edited (sound_withEdges h fun edge hedge => ?_) true ⟨_, rfl⟩
    exact h.edges edge (List.mem_of_mem_eraseP hedge)

theorem keeps_replaceGraph {g : Graph} (h : g.Sound) {label : Json} (hlabel : label.IsText)
    (markDirty : Bool) : e.Keeps (e.replaceGraph g label markDirty).done :=
  ⟨h, fun _ hmutation => Option.some.inj hmutation ▸ hlabel, nofun⟩

theorem keeps_apply (h : e.graph.Sound) {edit : Edit} (hedit : edit.Sound) :
    e.Keeps (e.apply edit) := by
  cases edit with
  | addNode node => exact (keeps_addNode h hedit).accepted
  | createNode type position config id =>
    exact (keeps_createNode h type position id hedit).accepted
  | duplicateNode id offset => exact (keeps_duplicateNode h id offset).accepted
  | moveNode id x y => exact keeps_moveNode h id x y
  | removeNode id => exact keeps_removeNode h id
  | updateNode id update => exact keeps_updateNode h id hedit
  | updateConfig id changes replace => exact keeps_updateConfig h id hedit replace
  | setBinding id binding => exact keeps_setBinding h id binding
  | removeBinding id paramKey => exact keeps_removeBinding h id paramKey
  | connect connection => exact (keeps_connect h connection).accepted
  | reconnect id connection => exact (keeps_reconnect h id connection).accepted
  | removeEdge id => exact keeps_removeEdge h id
  | replaceGraph graph label markDirty => exact keeps_replaceGraph hedit.1 hedit.2 markDirty
  | clear =>
    have hempty : Graph.empty.Sound :=
      ⟨fun _ hn => absurd hn List.not_mem_nil, fun _ he => absurd he List.not_mem_nil⟩
    exact keeps_replaceGraph hempty ⟨_, rfl⟩ true
  | markDirty => exact ⟨h, nofun, fun _ _ _ => rfl⟩
  | markSaved saved =>
    cases saved with
    | true => exact ⟨h, nofun, fun _ _ _ => rfl⟩
    | false => exact keeps_unchanged h true
  | setClock millis => exact ⟨h, nofun, fun _ _ _ => rfl⟩

end Editor
end WorkflowStudio
