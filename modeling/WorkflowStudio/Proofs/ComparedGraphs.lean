import WorkflowStudio.Proofs.ComparedNodes

/-!
Two graphs, compared by their snapshots. When both snapshots can be read, a label is given exactly
when something has changed that is compared: the number of nodes or edges, the payload of a node
that both graphs have, or the guard of an edge that both have. Snapshots that cannot be read have
no label.
-/
namespace WorkflowStudio

namespace Graph

/-- A graph in which nothing that is compared has changed. -/
structure Unaltered (g h : Graph) : Prop where
  nodes_length : g.nodes.length = h.nodes.length
  nodes : ∀ new ∈ h.nodes, ∀ old, g.node? new.id = some old → old.data.Unaltered new.data
  edges_length : g.edges.length = h.edges.length
  conditions : ∀ new ∈ h.edges, ∀ old, g.edge? new.id = some old → new.condition = old.condition

end Graph

namespace Change

section Graphs

variable {g h : Graph}

theorem findBy_nodes (g : Graph) (id : String) :
    findBy "id" (.str id) (g.nodes.map Node.loaded) = some ((g.node? id).map Node.loaded) :=
  findBy_map Node.look_id id g.nodes

theorem findBy_edges (g : Graph) (id : String) : findBy "id" (.str id)
    (g.edges.map (Edge.write .kept)) = some ((g.edge? id).map (Edge.write .kept)) :=
  findBy_map Edge.look_id id g.edges

/-- An item is compared with the one of its id, and is not told when there is none. -/
theorem decides_matched {α : Type} {shape : String → Prop} {compare : Json → Json → Comparison}
    {write : α → Json} {found : Option α} {olds : List Json} {new : Json} {id : String}
    {same : α → Prop} (hid : new.look "id" = some (.str id))
    (hfound : findBy "id" (.str id) olds = some (found.map write))
    (h : ∀ old, found = some old → Decides shape (compare (write old) new) (same old)) :
    Decides shape (matched olds compare new) (∀ old, found = some old → same old) := by
  unfold matched
  refine decides_bind hid (decides_bind hfound ?_)
  cases found with
  | none => exact .unlabelled nofun rfl
  | some old =>
    refine (h old rfl).congr ⟨fun hsame other hother => ?_, fun hall => hall old rfl⟩
    rw [← Option.some.inj hother]
    exact hsame

theorem equal_ofOption_str {s t : Option String} :
    (Json.ofOption .str s).equal (.ofOption .str t) = true ↔ s = t := by
  cases s with
  | none => cases t <;> simp [Json.ofOption, Json.equal]
  | some s =>
    cases t with
    | none => simp [Json.ofOption, Json.equal]
    | some t => rw [Json.ofOption, Json.ofOption, Json.equal_str, Option.some.injEq]

/-- Lists of different lengths are told by that. -/
theorem decides_lengths {shape : String → Prop} {m n : Nat} {more fewer : String}
    {rest : Comparison} {same : Prop} (hmore : shape more) (hfewer : shape fewer)
    (h : Decides shape rest same) :
    Decides shape (if m < n then some (some more) else if n < m then some (some fewer) else rest)
      (m = n ∧ same) := by
  rcases Nat.lt_trichotomy m n with hlt | heq | hgt
  · exact .labelled (fun hboth => by omega) more hmore (if_pos hlt)
  · rw [if_neg (by omega), if_neg (by omega)]
    exact h.congr (and_iff_right heq).symm
  · refine .labelled (fun hboth => by omega) fewer hfewer ?_
    rw [if_neg (by omega), if_pos hgt]

/-- A label that tells of edges. -/
def TellsEdges (label : String) : Prop :=
  label = "Add connection" ∨ label = "Delete connection" ∨ label = "Connection condition changed"

theorem decides_guardChange (old new : Edge) : Decides TellsEdges
    (guardChange (Edge.write .kept old) (Edge.write .kept new))
      (new.condition = old.condition) := by
  have hlabel : TellsEdges "Connection condition changed" := Or.inr (Or.inr rfl)
  unfold guardChange
  refine decides_bind new.look_condition (decides_bind old.look_condition ?_)
  exact (decides_ite hlabel).congr equal_ofOption_str

theorem decides_edgesChange (g h : Graph) : Decides TellsEdges (edgesChange (between g h))
    (g.edges.length = h.edges.length ∧
      ∀ new ∈ h.edges, ∀ old, g.edge? new.id = some old → new.condition = old.condition) := by
  unfold edgesChange between
  refine decides_bind (Json.lookList_of_look g.look_edges) (decides_bind rfl
    (decides_bind (Json.lookList_of_look h.look_edges) (decides_bind rfl ?_)))
  rw [List.length_map, List.length_map]
  refine decides_lengths (Or.inl rfl) (Or.inr (Or.inl rfl)) ?_
  refine decides_firstOf_map fun new _ => decides_matched new.look_id (findBy_edges g new.id) ?_
  exact fun old _ => decides_guardChange old new

theorem decides_nodeOf (hg : g.Sound) {new : Node} (hnew : new.Sound) : Decides (fun _ => True)
    (matched (g.nodes.map Node.loaded) (nodeChange (between g h)) new.loaded)
      (∀ old, g.node? new.id = some old →
        old.data.OnlyNewKeys new.data ∧ ¬old.data.FillsKey new.data) := by
  refine decides_matched new.look_id (findBy_nodes g new.id) fun old hold => ?_
  exact decides_nodeChange (hg.nodes old (List.mem_of_find?_eq_some hold)) hnew

theorem decides_compare (hg : g.Sound) (hh : h.Sound) : Decides (fun _ => True)
    (compare (between g h)) (g.nodes.length = h.nodes.length ∧
      (∀ new ∈ h.nodes, ∀ old, g.node? new.id = some old →
        old.data.OnlyNewKeys new.data ∧ ¬old.data.FillsKey new.data) ∧
      g.edges.length = h.edges.length ∧
        ∀ new ∈ h.edges, ∀ old, g.edge? new.id = some old → new.condition = old.condition) := by
  unfold compare between
  refine decides_bind (Json.lookList_of_look g.look_nodes) (decides_bind rfl
    (decides_bind (Json.lookList_of_look h.look_nodes) (decides_bind rfl ?_)))
  rw [List.length_map, List.length_map]
  refine decides_lengths trivial trivial (decides_orNext ?_ ?_)
  · exact decides_firstOf_map fun new hnew => decides_nodeOf hg (hh.nodes new hnew)
  · exact (decides_edgesChange g h).weaken fun _ _ => trivial

/-! Labels for stored graphs. -/

section Stored

variable {old new : String}

/-- Snapshots of which one cannot be read have no label. -/
theorem describeTexts_of_overlong (hg : g.Sound) (hh : h.Sound) (hold : Record.stored g = .ok old)
    (hnew : Record.stored h = .ok new) (hlong : g.HoldsOverlong ∨ h.HoldsOverlong) :
    describeTexts old new = none := by
  unfold describeTexts describe
  rw [load_stored hg hold, load_stored hh hnew]
  rcases hlong with hlong | hlong
  · rw [if_pos hlong]
    rfl
  · rw [if_pos hlong]
    split <;> rfl

theorem describeTexts_of_read (hg : g.Sound) (hh : h.Sound) (hold : Record.stored g = .ok old)
    (hnew : Record.stored h = .ok new) (hlong : ¬(g.HoldsOverlong ∨ h.HoldsOverlong)) :
    describeTexts old new = (compare (between g h)).join := by
  obtain ⟨hshortOld, hshortNew⟩ := not_or.mp hlong
  unfold describeTexts describe
  rw [load_stored hg hold, load_stored hh hnew, if_neg hshortOld, if_neg hshortNew]
  rfl

end Stored

end Graphs

end Change

/-! What is tracked. -/

/-- What is compared of a node, and the id by which it is found. -/
def Node.tracked (n : Node) :
    String × Fields × List ParamDefinition × List ParamDefinition × List ParamBinding :=
  (n.id, n.data.config, n.data.customInputs, n.data.customOutputs, n.data.bindings)

def Edge.tracked (e : Edge) : String × Option String := (e.id, e.condition)

theorem ParamDefinition.Agrees.refl (p : ParamDefinition) : p.Agrees p := ⟨.self _, rfl⟩

theorem SettingsKept.refl {fs : Fields} (h : Json.proper (.obj fs) = true) :
    SettingsKept fs fs := by
  refine ⟨fun field hfield => ?_, fun _ hname => hname⟩
  rw [(Fields.get?_eq_some_iff (Json.proper_obj.mp h).2).mpr hfield]
  exact .self _

theorem NodeData.Unaltered.of_tracked_eq {old new : Node} (h : new.data.Sound)
    (htracked : old.tracked = new.tracked) : old.data.Unaltered new.data := by
  simp only [Node.tracked, Prod.mk.injEq] at htracked
  obtain ⟨-, hconfig, hinputs, houtputs, hbindings⟩ := htracked
  constructor
  · rw [hconfig]
    exact .refl h.config
  · rw [hinputs]
    exact List.forall₂_same.mpr fun p _ => .refl p
  · rw [houtputs]
    exact List.forall₂_same.mpr fun p _ => .refl p
  · intro key
    rw [NodeData.binding?, NodeData.binding?, hbindings]

/-- When two lists show the same of their items, keys among it, what is found in the one under the
key of an item of the other shows the same as this item. -/
theorem eq_of_found {α β : Type} {key : α → String} {shown : α → β} {items others : List α}
    (hkeys : (items.map key).Nodup) (hshown : items.map shown = others.map shown)
    (hkey : ∀ a b, shown a = shown b → key a = key b) {old new : α} (hnew : new ∈ others)
    (hold : (items.find? fun a => key a == key new) = some old) : shown old = shown new := by
  have hmem : shown new ∈ items.map shown := by
    rw [hshown]
    exact List.mem_map_of_mem hnew
  obtain ⟨same, hsame, heq⟩ := List.mem_map.mp hmem
  obtain rfl : same = old := Option.some.inj <|
    ((find?_key_eq_some_iff hkeys).mpr ⟨hsame, hkey same new heq⟩).symm.trans hold
  exact heq

theorem Graph.Unaltered.of_tracked_eq {g h : Graph} (hg : (g.nodes.map (·.id)).Nodup)
    (hedges : (g.edges.map (·.id)).Nodup) (hh : h.Sound)
    (hnodes : g.nodes.map Node.tracked = h.nodes.map Node.tracked)
    (hguards : g.edges.map Edge.tracked = h.edges.map Edge.tracked) : g.Unaltered h where
  nodes_length := by simpa using congrArg List.length hnodes
  nodes := by
    intro new hnew old hold
    have htracked : old.tracked = new.tracked :=
      eq_of_found hg hnodes (fun _ _ heq => congrArg Prod.fst heq) hnew hold
    exact .of_tracked_eq (hh.nodes new hnew).data htracked
  edges_length := by simpa using congrArg List.length hguards
  conditions := by
    intro new hnew old hold
    have htracked : old.tracked = new.tracked :=
      eq_of_found hedges hguards (fun _ _ heq => congrArg Prod.fst heq) hnew hold
    exact (congrArg Prod.snd htracked).symm

namespace Change

/-- Under distinct keys of bindings the comparison of two graphs gives no label exactly when
nothing that is compared has changed. -/
theorem compare_eq_unlabelled_iff {g h : Graph} (hg : g.Sound) (hh : h.Sound)
    (hkeys : ∀ n ∈ h.nodes, (n.data.bindings.map (·.paramKey)).Nodup) :
    compare (between g h) = some none ↔ g.Unaltered h := by
  rw [(decides_compare hg hh).eq_unlabelled_iff]
  constructor
  · intro ⟨hlength, hnodes, hedges, hguards⟩
    refine ⟨hlength, fun new hnew old hold => ?_, hedges, hguards⟩
    exact (NodeData.unaltered_iff (hkeys new hnew)).mpr (hnodes new hnew old hold)
  · intro ⟨hlength, hnodes, hedges, hguards⟩
    refine ⟨hlength, fun new hnew old hold => ?_, hedges, hguards⟩
    exact (NodeData.unaltered_iff (hkeys new hnew)).mp (hnodes new hnew old hold)

/-- A change between two stored graphs has no label exactly when one of the snapshots cannot be
read, or nothing that is compared has changed. Moves, labels, states and further fields are not
compared. -/
theorem unlabelled_iff {g h : Graph} (hg : g.Sound) (hh : h.Sound)
    (hkeys : ∀ n ∈ h.nodes, (n.data.bindings.map (·.paramKey)).Nodup) {old new : String}
    (hold : Record.stored g = .ok old) (hnew : Record.stored h = .ok new) :
    (describeTexts old new = none ↔ g.HoldsOverlong ∨ h.HoldsOverlong ∨ g.Unaltered h) ∧
      ((g.nodes.map (·.id)).Nodup → (g.edges.map (·.id)).Nodup →
        g.nodes.map Node.tracked = h.nodes.map Node.tracked →
          g.edges.map Edge.tracked = h.edges.map Edge.tracked →
            describeTexts old new = none) := by
  have hnone : describeTexts old new = none ↔
      g.HoldsOverlong ∨ h.HoldsOverlong ∨ g.Unaltered h := by
    rw [← or_assoc]
    by_cases hlong : g.HoldsOverlong ∨ h.HoldsOverlong
    · exact iff_of_true (describeTexts_of_overlong hg hh hold hnew hlong) (Or.inl hlong)
    · have hends := decides_compare hg hh
      have hsame := compare_eq_unlabelled_iff hg hh hkeys
      rw [describeTexts_of_read hg hh hold hnew hlong, or_iff_right hlong, ← hsame]
      cases hends with
      | unlabelled _ hc => rw [hc]; exact iff_of_true rfl rfl
      | labelled _ label _ hc => rw [hc]; exact iff_of_false nofun nofun
  refine ⟨hnone, fun hids hedgeIds hnodes hguards => ?_⟩
  exact hnone.mpr (Or.inr (Or.inr (.of_tracked_eq hids hedgeIds hh hnodes hguards)))

end Change

/-- A node that answers in a chat, with settings and inputs of its own. -/
def Node.chat (id : String) (position : Position) (config : Fields)
    (inputs : List ParamDefinition) : Node :=
  ⟨id, "custom", position, ⟨some id, .llmChat, "", config, .idle, [], inputs, [], []⟩, []⟩

/-- A graph that is found again in what it is written as is sound. -/
theorem Graph.sound_of_reread {g : Graph} (h : Json.proper (write .kept g) = true)
    (hread : read .value (write .kept g) = .ok g) : g.Sound := sound_of_read h hread

namespace Change

/-- One node with a setting that is an object. -/
def formatted (position : Position) (format : Fields) : Graph :=
  ⟨[.chat "a" position [("format", .obj format)] []], []⟩

/-- A node that is moved while the fields in a setting change places is not told. -/
theorem unlabelled_reordered :
    describeTexts (formatted .origin [("lines", .int 1), ("words", .int 2)]).snapshot
      (formatted (.ofInts 3 4) [("words", .int 2), ("lines", .int 1)]).snapshot = none := by
  have hold : (formatted .origin [("lines", .int 1), ("words", .int 2)]).Sound :=
    Graph.sound_of_reread rfl rfl
  have hnew : (formatted (.ofInts 3 4) [("words", .int 2), ("lines", .int 1)]).Sound :=
    Graph.sound_of_reread rfl rfl
  have hsettings : SettingsKept [("format", .obj [("lines", .int 1), ("words", .int 2)])]
      [("format", .obj [("words", .int 2), ("lines", .int 1)])] :=
    ⟨List.forall_mem_singleton.mpr ((Json.alike_iff rfl rfl).mp rfl), fun _ hname => hname⟩
  have hunaltered : (formatted .origin [("lines", .int 1), ("words", .int 2)]).Unaltered
      (formatted (.ofInts 3 4) [("words", .int 2), ("lines", .int 1)]) :=
    ⟨rfl, List.forall_mem_singleton.mpr fun old hold => by
      cases hold
      exact ⟨hsettings, .nil, .nil, fun _ => rfl⟩, rfl, fun _ he => absurd he List.not_mem_nil⟩
  exact (unlabelled_iff hold hnew (List.forall_mem_singleton.mpr List.nodup_nil) rfl rfl).1.mpr
    (Or.inr (Or.inr hunaltered))

/-- One node with a setting of one digit more than are read. -/
def overlong : Graph := ⟨[.chat "a" .origin [("seed", .int (10 ^ Numeral.digitLimit))] []], []⟩

theorem sound_overlong : overlong.Sound := Graph.sound_of_reread rfl rfl

theorem holdsOverlong_overlong : overlong.HoldsOverlong := by
  have hlarge (k : Nat) : 10 ^ k ≤ ((10 : Int) ^ k).natAbs := (Int.natAbs_pow 10 k).ge
  have hvalue : Json.int (10 ^ Numeral.digitLimit) ∈ Record.parts overlong :=
    List.mem_of_getElem? (rfl : (Record.parts overlong)[5]? = some _)
  rcases Graph.part_of_parts hvalue with ⟨_, hname⟩ | hpart
  · cases hname
  · exact ⟨_, hpart, hlarge _⟩

/-- A node that is added with such a setting is not told, since its snapshot cannot be read. -/
theorem unlabelled_overlong :
    Record.stored Graph.empty = .ok Graph.empty.snapshot ∧
      Record.stored overlong = .ok overlong.snapshot ∧
      (overlong.nodes.map (·.id)).Nodup ∧ overlong.edges = [] ∧
      (∀ n ∈ overlong.nodes, n.data.bindings = []) ∧
      ¬(describeTexts Graph.empty.snapshot overlong.snapshot = none ↔
        Graph.empty.Unaltered overlong) := by
  have hempty : Graph.empty.Sound := Graph.sound_of_reread rfl rfl
  have hnone : describeTexts Graph.empty.snapshot overlong.snapshot = none :=
    describeTexts_of_overlong hempty sound_overlong rfl rfl (Or.inr holdsOverlong_overlong)
  refine ⟨rfl, rfl, List.nodup_singleton _, rfl, List.forall_mem_singleton.mpr rfl, fun h => ?_⟩
  have hlength := (h.mp hnone).nodes_length
  cases hlength

end Change
end WorkflowStudio
