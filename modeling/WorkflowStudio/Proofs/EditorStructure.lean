import WorkflowStudio.Proofs.EditRuns
import WorkflowStudio.Proofs.FreshNames
import WorkflowStudio.Proofs.GraphStructure

/-!
Edits keep the structure of the graph. The one exception is a change of the settings of an
intent classifier from which an overlong handle leads: the change breaks off with the new
settings in place and the guards left behind.
-/
namespace WorkflowStudio
namespace Editor

variable {rules : ConnectionRules} {e : Editor}

/-! Changing the first node with an id. -/

theorem map_changeFirst {β : Type} (f : Node → β) {id : String} {change : Node → Node}
    (nodes : List Node) (h : ∀ n, nodes.find? (·.id == id) = some n → f (change n) = f n) :
    (changeFirst id change nodes).map f = nodes.map f := by
  induction nodes with
  | nil => rfl
  | cons node rest ih =>
    by_cases hid : node.id = id
    · simp only [changeFirst, hid, beq_self_eq_true, if_true, List.map_cons,
        h node (List.find?_cons_of_pos (by simpa using hid))]
    · have hrest : ∀ n, rest.find? (·.id == id) = some n → f (change n) = f n := by
        intro n hn
        exact h n (by rw [List.find?_cons_of_neg (by simpa using hid), hn])
      simp only [changeFirst, beq_iff_eq, hid, if_false, List.map_cons, ih hrest]

theorem mem_changeFirst (id : String) (change : Node → Node) {nodes : List Node} {n : Node}
    (h : n ∈ nodes) :
    n ∈ changeFirst id change nodes ∨
      (nodes.find? (·.id == id) = some n ∧ change n ∈ changeFirst id change nodes) := by
  induction nodes with
  | nil => exact absurd h List.not_mem_nil
  | cons node rest ih =>
    by_cases hid : node.id = id
    · simp only [changeFirst, hid, beq_self_eq_true, if_true, List.mem_cons, List.find?_cons]
      rcases List.mem_cons.mp h with rfl | hrest
      · exact Or.inr ⟨rfl, Or.inl rfl⟩
      · exact Or.inl (Or.inr hrest)
    · have hno : (node.id == id) = false := by simpa using hid
      simp only [changeFirst, hno, Bool.false_eq_true, if_false, List.mem_cons, List.find?_cons]
      rcases List.mem_cons.mp h with rfl | hrest
      · exact Or.inl (Or.inl rfl)
      · rcases ih hrest with hkept | ⟨hn, hchanged⟩
        · exact Or.inl (Or.inr hkept)
        · exact Or.inr ⟨hn, Or.inr hchanged⟩

theorem change_mem_changeFirst (change : Node → Node) {id : String} {nodes : List Node}
    {n : Node} (h : nodes.find? (·.id == id) = some n) :
    change n ∈ changeFirst id change nodes := by
  induction nodes with
  | nil => cases h
  | cons node rest ih =>
    rw [List.find?_cons] at h
    rw [changeFirst]
    split at h
    · rename_i hid
      rw [if_pos hid, Option.some.inj h]
      exact List.mem_cons_self
    · rename_i hid
      rw [if_neg (by simpa using hid)]
      exact List.mem_cons_of_mem _ (ih h)

section ChangedNode

variable {id : String} {change : Node → Node}

theorem ids_nodup_changeFirst (h : e.graph.Structured rules)
    (hid : ∀ n, e.node? id = some n → (change n).id = n.id) :
    ((changeFirst id change e.nodes).map (·.id)).Nodup := by
  rw [map_changeFirst (·.id) e.nodes hid]
  exact h.ids_nodup

theorem countP_isAppInfo_changeFirst (h : e.graph.Structured rules)
    (htype : ∀ n, e.node? id = some n → (change n).nodeType = n.nodeType) :
    (changeFirst id change e.nodes).countP Node.isAppInfo ≤ 1 := by
  have hkind : ∀ n, e.node? id = some n → (change n).isAppInfo = n.isAppInfo := by
    intro n hn
    simp only [Node.isAppInfo, htype n hn]
  have happ := map_changeFirst Node.isAppInfo e.nodes hkind
  have hcount := congrArg (List.countP fun b => b) happ
  simp only [List.countP_map] at hcount
  exact Nat.le_trans (Nat.le_of_eq hcount) h.appInfo_le_one

/-- A change that no edge can see keeps the structure. -/
theorem structured_changeNode (h : e.graph.Structured rules)
    (halike : ∀ n, e.node? id = some n → n.Alike (change n)) :
    (e.changeNode id change).graph.Structured rules := by
  refine h.of_alike (ids_nodup_changeFirst h fun n hn => (halike n hn).id_eq)
    (countP_isAppInfo_changeFirst h fun n hn => (halike n hn).nodeType_eq) ?_
  intro n hn
  rcases mem_changeFirst id change hn with hkept | ⟨hfound, hchanged⟩
  · exact ⟨n, hkept, .refl n⟩
  · exact ⟨change n, hchanged, halike n hfound⟩

theorem structured_updateData (h : e.graph.Structured rules) {change : NodeData → NodeData}
    (htype : ∀ d, (change d).nodeType = d.nodeType) (hconfig : ∀ d, (change d).config = d.config) :
    (e.updateData id change).editor.graph.Structured rules :=
  structured_changeNode h fun _ _ => .of_config_eq rfl (htype _) (hconfig _)

end ChangedNode

theorem structured_addNode (h : e.graph.Structured rules) (node : Node) :
    (e.addNode node).editor.graph.Structured rules := by
  unfold addNode
  split
  · exact h
  · rename_i hfree
    simp only [Bool.or_eq_true, Bool.and_eq_true, not_or, not_and, Bool.not_eq_true,
      Option.isSome_eq_false_iff, Option.isNone_iff_eq_none] at hfree
    exact h.addNode (Graph.node?_eq_none hfree.1) hfree.2

theorem structured_createNode (h : e.graph.Structured rules) (type : String) (position : Position)
    (config : Fields) (id : Option String) :
    (e.createNode type position config id).editor.graph.Structured rules := by
  unfold createNode
  split
  · exact h
  · split
    · exact structured_addNode h _
    · exact h

theorem structured_removeNode (h : e.graph.Structured rules) (id : String) :
    (e.removeNode id).editor.graph.Structured rules := by
  unfold removeNode
  split
  · exact h
  · exact h.removeNode id

/-- A copy has a fresh id and the kind of the node. -/
theorem copyNode_eq_ok {node copy : Node} {offset : Double}
    (h : e.copyNode node offset = .ok copy) :
    copy.id = e.freshId node.nodeType ∧ copy.nodeType = node.nodeType := by
  simp only [copyNode, bind, Except.bind] at h
  split at h
  · cases h
  · cases h
    exact ⟨rfl, rfl⟩

theorem structured_duplicateNode (h : e.graph.Structured rules) (id : String) (offset : Double) :
    (e.duplicateNode id offset).editor.graph.Structured rules := by
  unfold duplicateNode
  split
  · exact h
  · rename_i node hnode
    split
    · exact h
    · rename_i hflow
      split
      · exact h
      · rename_i copy hcopy
        obtain ⟨hid, htype⟩ := copyNode_eq_ok hcopy
        refine h.addNode ?_ ?_
        · rw [hid]
          exact Numbering.freshId_not_mem _ _
        · intro happ
          rw [Node.isAppInfo, htype] at happ
          exact absurd happ hflow

theorem structured_moveNode (h : e.graph.Structured rules) (id : String) (x y : Json) :
    (e.moveNode id x y).editor.graph.Structured rules := by
  unfold moveNode
  split
  · exact h
  · split
    · exact h
    · split
      · exact h
      · exact structured_changeNode h fun _ _ => .of_config_eq rfl rfl rfl

theorem structured_updateNode (h : e.graph.Structured rules) (id : String) (update : NodeUpdate) :
    (e.updateNode id update).editor.graph.Structured rules := by
  unfold updateNode
  split
  · exact h
  · exact structured_updateData h (fun _ => rfl) fun _ => rfl

theorem structured_setBinding (h : e.graph.Structured rules) (id : String)
    (binding : ParamBinding) : (e.setBinding id binding).editor.graph.Structured rules := by
  unfold setBinding
  split
  · exact h
  · exact structured_updateData h (fun _ => rfl) fun _ => rfl

theorem structured_removeBinding (h : e.graph.Structured rules) (id paramKey : String) :
    (e.removeBinding id paramKey).editor.graph.Structured rules := by
  unfold removeBinding
  split
  · exact h
  · split
    · exact h
    · exact structured_updateData h (fun _ => rfl) fun _ => rfl

/-! Edges that the rules accept. -/

theorem acceptedEdge_joins (h : e.graph.Structured e.rules) {connection : Connection}
    {ignored : Option String} {edge : Edge}
    (hedge : e.acceptedEdge connection ignored = some (.ok edge)) :
    ∃ source ∈ e.nodes, ∃ target ∈ e.nodes, edge.Joins e.rules source target := by
  unfold acceptedEdge at hedge
  split at hedge
  · rename_i hcan
    obtain ⟨source, hsource, hbuilt⟩ := Option.map_eq_some_iff.mp hedge
    obtain ⟨hmem, hid⟩ := Graph.node?_eq_some hsource
    simp only [ConnectionRules.canConnect, Bool.and_eq_true, bne_iff_ne] at hcan
    obtain ⟨hdistinct, hallowed⟩ := hcan
    split at hallowed
    · rename_i last target hlast htarget
      obtain ⟨hlastMem, hlastId⟩ := Graph.lastNode?_eq_some hlast
      obtain ⟨htargetMem, htargetId⟩ := Graph.lastNode?_eq_some htarget
      have hsame : last = source :=
        Graph.eq_of_id_eq h.ids_nodup hlastMem hmem (hlastId.trans hid.symm)
      simp only [Bool.and_eq_true, hsame] at hallowed
      cases hguard : Guard.derive source connection.sourceHandle with
      | error fault =>
        rw [ConnectionRules.buildEdge, hguard] at hbuilt
        cases hbuilt
      | ok condition =>
        rw [ConnectionRules.buildEdge, hguard] at hbuilt
        cases hbuilt
        exact ⟨source, hmem, target, htargetMem, hid, htargetId, hdistinct, hallowed.1, hguard,
          rfl⟩
    · cases hallowed
  · cases hedge

theorem mem_replaceFirst {id : String} {edge other : Edge} {edges : List Edge}
    (h : other ∈ replaceFirst id edge edges) : other = edge ∨ other ∈ edges := by
  induction edges with
  | nil => exact absurd h List.not_mem_nil
  | cons first rest ih =>
    rw [replaceFirst] at h
    split at h
    · rcases List.mem_cons.mp h with hnew | hrest
      · exact Or.inl hnew
      · exact Or.inr (List.mem_cons_of_mem _ hrest)
    · rcases List.mem_cons.mp h with hfirst | hrest
      · exact Or.inr (hfirst ▸ List.mem_cons_self)
      · exact (ih hrest).imp_right (List.mem_cons_of_mem _)

theorem structured_connect (h : e.graph.Structured e.rules) (connection : Connection) :
    (e.connect connection).editor.graph.Structured e.rules := by
  unfold connect
  split
  · exact h
  · exact h
  · rename_i edge hedge
    refine h.of_edges fun other hother => ?_
    rcases List.mem_append.mp hother with hold | hnew
    · exact h.joined other hold
    · rw [List.mem_singleton.mp hnew]
      exact acceptedEdge_joins h hedge

theorem structured_reconnect (h : e.graph.Structured e.rules) (id : String)
    (connection : Connection) :
    (e.reconnect id connection).editor.graph.Structured e.rules := by
  unfold reconnect
  split
  · exact h
  · exact h
  · exact h
  · rename_i edge _ hedge
    refine h.of_edges fun other hother => ?_
    rcases mem_replaceFirst hother with hnew | hold
    · rw [hnew]
      exact acceptedEdge_joins h hedge
    · exact h.joined other hold

theorem structured_removeEdge (h : e.graph.Structured rules) (id : String) :
    (e.removeEdge id).editor.graph.Structured rules := by
  unfold removeEdge
  split
  · exact h
  · exact h.of_edges fun other hother => h.joined other (List.mem_of_mem_eraseP hother)

/-! Guards that are derived anew. -/

theorem renewGuard_eq_ok {source : Node} {edge renewed : Edge}
    (h : renewGuard source edge = .ok renewed) :
    Guard.derive source edge.sourceHandle = .ok renewed.condition ∧ renewed.id = edge.id ∧
      renewed.source = edge.source ∧ renewed.target = edge.target ∧
      renewed.sourceHandle = edge.sourceHandle := by
  simp only [renewGuard, bind, Except.bind] at h
  split at h
  · cases h
  · rename_i hguard
    cases h
    exact ⟨hguard, rfl, rfl, rfl, rfl⟩

theorem renewGuard_eq_error {source : Node} {edge : Edge} {fault : Fault}
    (h : renewGuard source edge = .error fault) :
    Guard.derive source edge.sourceHandle = .error fault := by
  simp only [renewGuard, bind, Except.bind] at h
  split at h
  · rename_i hguard
    cases h
    exact hguard
  · cases h

/-- When every guard was derived, the edges that leave the node are renewed and the others
are as they were. -/
theorem mem_renewGuards {source : Node} {edges : List Edge}
    (h : (renewGuards source edges).2 = none) {edge : Edge}
    (hedge : edge ∈ (renewGuards source edges).1) :
    ∃ old ∈ edges, (old.source ≠ source.id ∧ edge = old) ∨
      (old.source = source.id ∧ renewGuard source old = .ok edge) := by
  induction edges with
  | nil => exact absurd hedge List.not_mem_nil
  | cons first rest ih =>
    rw [renewGuards] at h hedge
    split at h
    · rename_i hleaves
      rw [if_pos hleaves] at hedge
      split at h
      · cases h
      · rename_i renewed hrenewed
        rw [hrenewed] at hedge
        rcases List.mem_cons.mp hedge with rfl | hrest
        · exact ⟨first, List.mem_cons_self, Or.inr ⟨by simpa using hleaves, hrenewed⟩⟩
        · obtain ⟨old, hold, hstep⟩ := ih h hrest
          exact ⟨old, List.mem_cons_of_mem _ hold, hstep⟩
    · rename_i hstays
      rw [if_neg hstays] at hedge
      rcases List.mem_cons.mp hedge with rfl | hrest
      · exact ⟨edge, List.mem_cons_self, Or.inl ⟨by simpa using hstays, rfl⟩⟩
      · obtain ⟨old, hold, hstep⟩ := ih h hrest
        exact ⟨old, List.mem_cons_of_mem _ hold, hstep⟩

/-- The edge that the derivation breaks off at stays where it is. -/
theorem renewGuards_eq_some {source : Node} {edges : List Edge} {fault : Fault}
    (h : (renewGuards source edges).2 = some fault) :
    ∃ edge ∈ (renewGuards source edges).1, edge ∈ edges ∧ edge.source = source.id ∧
      Guard.derive source edge.sourceHandle = .error fault := by
  induction edges with
  | nil => cases h
  | cons first rest ih =>
    rw [renewGuards] at h ⊢
    split at h
    · rename_i hleaves
      rw [if_pos hleaves]
      split at h
      · rename_i hfault
        cases h
        exact ⟨first, List.mem_cons_self, List.mem_cons_self, by simpa using hleaves,
          renewGuard_eq_error hfault⟩
      · obtain ⟨edge, hedge, hold, hends⟩ := ih h
        exact ⟨edge, List.mem_cons_of_mem _ hedge, List.mem_cons_of_mem _ hold, hends⟩
    · rename_i hstays
      rw [if_neg hstays]
      obtain ⟨edge, hedge, hold, hends⟩ := ih h
      exact ⟨edge, List.mem_cons_of_mem _ hedge, List.mem_cons_of_mem _ hold, hends⟩

theorem derive_eq_ok_of_renewGuards {source : Node} {edges : List Edge}
    (h : (renewGuards source edges).2 = none) :
    ∀ edge ∈ edges, edge.source = source.id →
      ∃ condition, Guard.derive source edge.sourceHandle = .ok condition := by
  induction edges with
  | nil => exact fun edge hedge => absurd hedge List.not_mem_nil
  | cons first rest ih =>
    intro edge hedge hleaves
    rw [renewGuards] at h
    split at h
    · split at h
      · cases h
      · rename_i renewed hrenewed
        rcases List.mem_cons.mp hedge with rfl | hrest
        · exact ⟨renewed.condition, (renewGuard_eq_ok hrenewed).1⟩
        · exact ih h edge hrest hleaves
    · rename_i hstays
      rcases List.mem_cons.mp hedge with rfl | hrest
      · exact absurd (by simpa using hleaves) hstays
      · exact ih h edge hrest hleaves

/-- The derivation breaks off if and only if an edge that leaves the node has an overlong
handle. -/
theorem renewGuards_fault_iff {source : Node} {edges : List Edge} :
    (∃ fault, (renewGuards source edges).2 = some fault) ↔
      ∃ edge ∈ edges, edge.source = source.id ∧ Guard.Overlong source edge.sourceHandle := by
  constructor
  · rintro ⟨fault, hfault⟩
    obtain ⟨edge, -, hedge, hleaves, hfail⟩ := renewGuards_eq_some hfault
    exact ⟨edge, hedge, hleaves, Guard.derive_error_iff.mp ⟨fault, hfail⟩⟩
  · rintro ⟨edge, hedge, hleaves, hlong⟩
    obtain ⟨fault, hfail⟩ := Guard.derive_error_iff.mpr hlong
    refine Option.ne_none_iff_exists'.mp fun hnone => ?_
    obtain ⟨condition, hok⟩ := derive_eq_ok_of_renewGuards hnone edge hedge hleaves
    rw [hok] at hfail
    cases hfail

/-! Changes of settings. -/

/-- A node under settings that changes are merged into or that replace its own. -/
def reconfigured (node : Node) (changes : Fields) (replace : Bool) : Node :=
  { node with
    data := { node.data with
      config := if replace then changes else Fields.merge node.config changes } }

/-- A change of settings after which an edge that leaves the node has an overlong handle. -/
def LeavesOverlong (e : Editor) (id : String) (changes : Fields) (replace : Bool) : Prop :=
  ∃ node, e.node? id = some node ∧ ∃ edge ∈ e.edges, edge.source = id ∧
    Guard.Overlong (reconfigured node changes replace) edge.sourceHandle

theorem leavesOverlong_iff {id : String} {node : Node} (hnode : e.node? id = some node)
    (changes : Fields) (replace : Bool) : e.LeavesOverlong id changes replace ↔
      ∃ fault, (renewGuards (reconfigured node changes replace) e.edges).2 = some fault := by
  obtain ⟨-, hid⟩ := Graph.node?_eq_some hnode
  rw [renewGuards_fault_iff]
  constructor
  · rintro ⟨found, hfound, edge, hedge, hleaves, hlong⟩
    obtain rfl := Option.some.inj (hnode.symm.trans hfound)
    exact ⟨edge, hedge, hleaves.trans hid.symm, hlong⟩
  · rintro ⟨edge, hedge, hleaves, hlong⟩
    exact ⟨node, hnode, edge, hedge, hleaves.trans hid, hlong⟩

/-- The edges of a node keep the structure when all their guards were derived for its new
settings. -/
theorem structured_renewGuards (h : e.graph.Structured rules) {id : String} {node source : Node}
    (hnode : e.node? id = some node) (hid : source.id = node.id)
    (htype : source.nodeType = node.nodeType) (hok : (renewGuards source e.edges).2 = none) :
    (Graph.mk (e.changeNode id fun _ => source).nodes
      (renewGuards source e.edges).1).Structured rules where
  ids_nodup := ids_nodup_changeFirst h fun n hn => by
    rw [hnode] at hn
    cases hn
    exact hid
  appInfo_le_one := countP_isAppInfo_changeFirst h fun n hn => by
    rw [hnode] at hn
    cases hn
    exact htype
  joined := by
    intro edge hedge
    obtain ⟨old, hold, hstep⟩ := mem_renewGuards hok hedge
    obtain ⟨first, hfirst, target, htarget, hjoins⟩ := h.joined old hold
    have hchanged := change_mem_changeFirst (fun _ => source) hnode
    -- Every node still has one of its id and kind, and only the changed node is another one.
    have hpresent {n : Node} (hn : n ∈ e.nodes) :
        ∃ m ∈ changeFirst id (fun _ => source) e.nodes, m.id = n.id ∧ m.nodeType = n.nodeType ∧
          (n.id ≠ source.id → m = n) := by
      rcases mem_changeFirst id (fun _ => source) hn with hkept | ⟨hfound, _⟩
      · exact ⟨n, hkept, rfl, rfl, fun _ => rfl⟩
      · have heq : n = node := Option.some.inj (hfound.symm.trans hnode)
        subst heq
        exact ⟨source, hchanged, hid, htype, fun hne => absurd hid.symm hne⟩
    obtain ⟨target', htarget', htargetId, htargetType, -⟩ := hpresent htarget
    rcases hstep with ⟨hother, rfl⟩ | ⟨hleaves, hrenewed⟩
    · obtain ⟨first', hfirst', -, -, hsame⟩ := hpresent hfirst
      have hsame := hsame (hjoins.source_id ▸ hother)
      subst hsame
      exact ⟨first', hfirst', target', htarget', hjoins.alike (.refl _) htargetId htargetType⟩
    · obtain ⟨hguard, hedgeId, hsource, htargetEq, hhandle⟩ := renewGuard_eq_ok hrenewed
      obtain ⟨hnodeMem, -⟩ := Graph.node?_eq_some hnode
      have hfirstEq : first = node := Graph.eq_of_id_eq h.ids_nodup hfirst hnodeMem
        (hjoins.source_id.trans (hleaves.trans hid))
      subst hfirstEq
      refine ⟨source, hchanged, target', htarget', ?_⟩
      exact {
        source_id := by rw [hsource, hleaves]
        target_id := by rw [htargetEq, htargetId, hjoins.target_id]
        distinct := by rw [hsource, htargetEq]; exact hjoins.distinct
        allowed := by rw [htype, htargetType]; exact hjoins.allowed
        guard := by rw [hhandle]; exact hguard
        id_eq := by rw [hedgeId, hsource, htargetEq, hhandle]; exact hjoins.id_eq }

/-- The edge that the derivation broke off at has no guard that could be derived. -/
theorem not_structured_renewGuards {id : String} {node source : Node} {fault : Fault}
    (hnode : e.node? id = some node) (hfault : (renewGuards source e.edges).2 = some fault) :
    ¬(Graph.mk (e.changeNode id fun _ => source).nodes
      (renewGuards source e.edges).1).Structured rules := by
  intro h
  obtain ⟨edge, hedge, -, hleaves, hderive⟩ := renewGuards_eq_some hfault
  obtain ⟨first, hfirst, _, _, hjoins⟩ := h.joined edge hedge
  have hchanged := change_mem_changeFirst (fun _ => source) hnode
  have heq : first = source :=
    Graph.eq_of_id_eq h.ids_nodup hfirst hchanged (hjoins.source_id.trans hleaves)
  have hguard := hjoins.guard
  rw [heq, hderive] at hguard
  cases hguard

theorem updateConfig_graph {id : String} {node : Node} (hnode : e.node? id = some node)
    (changes : Fields) (replace : Bool) :
    (e.updateConfig id changes replace).editor.graph =
      Graph.mk (e.changeNode id fun _ => reconfigured node changes replace).nodes
        (if node.nodeType = .intentClassifier then
          (renewGuards (reconfigured node changes replace) e.edges).1 else e.edges) := by
  unfold updateConfig
  rw [hnode]
  dsimp only
  split
  · split <;> rfl
  · rfl

theorem structured_updateConfig_iff (h : e.graph.Structured rules) (id : String)
    (changes : Fields) (replace : Bool) :
    (e.updateConfig id changes replace).editor.graph.Structured rules ↔
      ¬e.LeavesOverlong id changes replace := by
  cases hnode : e.node? id with
  | none =>
    have hsame : (e.updateConfig id changes replace).editor = e := by rw [updateConfig, hnode]; rfl
    rw [hsame]
    refine iff_of_true h ?_
    rintro ⟨node, hfound, -⟩
    rw [hnode] at hfound
    cases hfound
  | some node =>
    rw [updateConfig_graph hnode]
    split
    · rw [leavesOverlong_iff hnode]
      cases hfault : (renewGuards (reconfigured node changes replace) e.edges).2 with
      | none =>
        refine iff_of_true (structured_renewGuards h hnode rfl rfl hfault) ?_
        rintro ⟨fault, hfail⟩
        cases hfail
      | some fault =>
        exact iff_of_false (not_structured_renewGuards hnode hfault) (not_not_intro ⟨fault, rfl⟩)
    · rename_i hother
      refine iff_of_true (structured_changeNode h fun n hn => ?_) ?_
      · rw [hnode, Option.some.injEq] at hn
        subst hn
        exact .of_ne_classifier rfl rfl hother
      · rintro ⟨node', hfound, _, _, _, hlong⟩
        rw [hnode, Option.some.injEq] at hfound
        subst hfound
        exact hother hlong.1

/-! Edits and runs of them. -/

theorem addNode_rules (e : Editor) (node : Node) : (e.addNode node).editor.rules = e.rules := by
  unfold addNode
  split <;> rfl

theorem apply_rules (e : Editor) (edit : Edit) : (e.apply edit).editor.rules = e.rules := by
  cases edit with
  | addNode node => exact addNode_rules e node
  | createNode type position config id =>
    simp only [apply, Outcome.accepted, createNode]
    split
    · rfl
    · split
      · exact addNode_rules e _
      · rfl
  | duplicateNode id offset =>
    simp only [apply, Outcome.accepted, duplicateNode]
    split
    · rfl
    · split
      · rfl
      · split <;> rfl
  | moveNode id x y =>
    simp only [apply, moveNode]
    split
    · rfl
    · split
      · rfl
      · split <;> rfl
  | removeNode id =>
    simp only [apply, removeNode]
    split <;> rfl
  | updateNode id update =>
    simp only [apply, updateNode]
    split <;> rfl
  | updateConfig id changes replace =>
    simp only [apply, updateConfig]
    split
    · rfl
    · split
      · split <;> rfl
      · rfl
  | setBinding id binding =>
    simp only [apply, setBinding]
    split <;> rfl
  | removeBinding id paramKey =>
    simp only [apply, removeBinding]
    split
    · rfl
    · split <;> rfl
  | connect connection =>
    simp only [apply, Outcome.accepted, connect]
    split <;> rfl
  | reconnect id connection =>
    simp only [apply, Outcome.accepted, reconnect]
    split <;> rfl
  | removeEdge id =>
    simp only [apply, removeEdge]
    split <;> rfl
  | replaceGraph graph label markDirty => rfl
  | clear => rfl
  | markDirty => rfl
  | markSaved saved =>
    simp only [apply, markSaved]
    split <;> rfl
  | setClock millis => rfl

/-- A graph that is put in the place of the whole graph is structured itself. -/
def Sustains (rules : ConnectionRules) : Edit → Prop
  | .replaceGraph graph _ _ => graph.Structured rules
  | _ => True

def BreaksOff (e : Editor) : Edit → Prop
  | .updateConfig id changes replace => e.LeavesOverlong id changes replace
  | _ => False

theorem structured_apply_iff (h : e.graph.Structured e.rules) {edit : Edit}
    (hedit : Sustains e.rules edit) :
    (e.apply edit).editor.graph.Structured e.rules ↔ ¬e.BreaksOff edit := by
  have hkept {next : Editor} (hnext : next.graph.Structured e.rules) :
      next.graph.Structured e.rules ↔ ¬False := iff_of_true hnext not_false
  cases edit with
  | addNode node => exact hkept (structured_addNode h node)
  | createNode type position config id =>
    exact hkept (structured_createNode h type position config id)
  | duplicateNode id offset => exact hkept (structured_duplicateNode h id offset)
  | moveNode id x y => exact hkept (structured_moveNode h id x y)
  | removeNode id => exact hkept (structured_removeNode h id)
  | updateNode id update => exact hkept (structured_updateNode h id update)
  | updateConfig id changes replace => exact structured_updateConfig_iff h id changes replace
  | setBinding id binding => exact hkept (structured_setBinding h id binding)
  | removeBinding id paramKey => exact hkept (structured_removeBinding h id paramKey)
  | connect connection => exact hkept (structured_connect h connection)
  | reconnect id connection => exact hkept (structured_reconnect h id connection)
  | removeEdge id => exact hkept (structured_removeEdge h id)
  | replaceGraph graph label markDirty => exact hkept hedit
  | clear => exact hkept .empty
  | markDirty => exact hkept h
  | markSaved saved =>
    refine hkept ?_
    simp only [apply, markSaved]
    split <;> exact h
  | setClock millis => exact hkept h

end Editor

namespace Workspace

/-- Commands in any order and any batches, of which none breaks off. -/
def Editing (rules : ConnectionRules) (w : Workspace Editor) : Event → Prop
  | .edit edit => Editor.Sustains rules edit ∧ ¬w.editor.BreaksOff edit
  | .openBatch => True
  | .closeBatch => True
  | .call _ => False

theorem structured_of_reaches {start w : Workspace Editor}
    (h : start.editor.graph.Structured start.editor.rules)
    (hrun : Reaches (Editing start.editor.rules) start w) :
    w.editor.rules = start.editor.rules ∧ w.editor.graph.Structured start.editor.rules := by
  refine editor_of_reaches (fun e => e.rules = _ ∧ e.graph.Structured _) (fun _ _ => not_false)
    (fun w edit hkept hallowed => ?_) ⟨rfl, h⟩ hrun
  obtain ⟨hrules, hw⟩ := hkept
  rw [Editor.apply_rules, ← hrules]
  rw [← hrules] at hw hallowed
  exact ⟨rfl, (Editor.structured_apply_iff hw hallowed.1).mpr hallowed.2⟩

def overlongDigits : List Char := List.replicate (Numeral.digitLimit + 1) '1'

def overlongHandle : String := "intent-" ++ String.ofList overlongDigits

theorem handleDigits?_overlongHandle :
    Guard.handleDigits? overlongHandle = some overlongDigits := by
  refine Guard.handleDigits?_of_digits ?_ ?_
  · rw [overlongDigits, List.replicate_succ]
    exact List.cons_ne_nil _ _
  · rw [overlongDigits, List.all_replicate]
    exact if_neg (Nat.succ_ne_zero _)

theorem overlongHandle_ne_elseHandle : overlongHandle ≠ Guard.elseHandle := by
  intro h
  have hdigits := handleDigits?_overlongHandle
  rw [h] at hdigits
  cases hdigits

/-- An intent classifier whose settings cannot be read, and a node that it leads to through
the overlong handle. -/
def unreadGraph : Graph where
  nodes :=
    [⟨"c", "custom", .origin,
        ⟨some "c", .intentClassifier, "", [("modelId", .arr [])], .idle, [], [], [], []⟩, []⟩,
      ⟨"a", "custom", .origin, ⟨some "a", .llmChat, "", [], .idle, [], [], [], []⟩, []⟩]
  edges := [Connection.toEdge ⟨"c", "a", some overlongHandle, none⟩ none]

theorem structured_unreadGraph : unreadGraph.Structured ⟨[]⟩ where
  ids_nodup := by decide
  appInfo_le_one := by decide
  joined := by
    intro edge hedge
    rw [List.mem_singleton.mp hedge]
    refine ⟨_, List.mem_cons_self, _, List.mem_cons_of_mem _ List.mem_cons_self, ?_⟩
    exact {
      source_id := rfl
      target_id := rfl
      distinct := by decide
      allowed := by decide
      guard := Guard.derive_of_unread rfl overlongHandle_ne_elseHandle
      id_eq := rfl }

end Workspace
end WorkflowStudio
