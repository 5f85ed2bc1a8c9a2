import Mathlib.Data.List.Count
import Mathlib.Data.List.Nodup
import WorkflowStudio.ConnectionRules
import WorkflowStudio.Proofs.GuardText

/-!
The structure of an edited graph: ids tell nodes apart, there is at most one application
node, and every edge joins two nodes under the guard and the id that are derived for it.
Nodes may be exchanged for others that no edge can tell from them, and they may be added
and removed.
-/
namespace WorkflowStudio

/-- An edge leads from one node to another one whose kind may follow, under the guard and
the id that are derived for it. -/
structure Edge.Joins (rules : ConnectionRules) (edge : Edge) (source target : Node) : Prop where
  source_id : source.id = edge.source
  target_id : target.id = edge.target
  distinct : edge.source ≠ edge.target
  allowed : rules.allows source.nodeType.text target.nodeType.text = true
  guard : Guard.derive source edge.sourceHandle = .ok edge.condition
  id_eq : edge.id = edgeId edge.source edge.sourceHandle edge.target

structure Graph.Structured (rules : ConnectionRules) (g : Graph) : Prop where
  ids_nodup : (g.nodes.map (·.id)).Nodup
  appInfo_le_one : g.nodes.countP Node.isAppInfo ≤ 1
  joined : ∀ edge ∈ g.edges, ∃ source ∈ g.nodes, ∃ target ∈ g.nodes,
    edge.Joins rules source target

/-- Two nodes that no edge can tell apart. -/
structure Node.Alike (n m : Node) : Prop where
  id_eq : m.id = n.id
  nodeType_eq : m.nodeType = n.nodeType
  derive_eq : ∀ handle, Guard.derive m handle = Guard.derive n handle

namespace Node.Alike

variable {n m : Node}

theorem refl (n : Node) : n.Alike n := ⟨rfl, rfl, fun _ => rfl⟩

theorem of_config_eq (hid : m.id = n.id) (htype : m.nodeType = n.nodeType)
    (hconfig : m.config = n.config) : n.Alike m :=
  ⟨hid, htype, fun _ => by simp only [Guard.derive, Guard.intentConfig?, htype, hconfig]⟩

/-- Only the settings of an intent classifier are told by its edges. -/
theorem of_ne_classifier (hid : m.id = n.id) (htype : m.nodeType = n.nodeType)
    (hn : n.nodeType ≠ .intentClassifier) : n.Alike m :=
  ⟨hid, htype, fun handle => by
    rw [Guard.derive_of_ne_classifier hn, Guard.derive_of_ne_classifier (htype ▸ hn)]⟩

end Node.Alike

theorem Edge.Joins.alike {rules : ConnectionRules} {edge : Edge}
    {source target source' target' : Node} (h : edge.Joins rules source target)
    (hs : source.Alike source') (hid : target'.id = target.id)
    (htype : target'.nodeType = target.nodeType) :
    edge.Joins rules source' target' where
  source_id := hs.id_eq.trans h.source_id
  target_id := hid.trans h.target_id
  distinct := h.distinct
  allowed := by rw [hs.nodeType_eq, htype]; exact h.allowed
  guard := (hs.derive_eq _).trans h.guard
  id_eq := h.id_eq

namespace Graph

theorem node?_eq_some {g : Graph} {id : String} {node : Node} (h : g.node? id = some node) :
    node ∈ g.nodes ∧ node.id = id :=
  ⟨List.mem_of_find?_eq_some h, by simpa using List.find?_some h⟩

theorem node?_eq_none {g : Graph} {id : String} (h : g.node? id = none) :
    id ∉ g.nodes.map (·.id) := by
  intro hmem
  obtain ⟨node, hnode, rfl⟩ := List.mem_map.mp hmem
  simpa using List.find?_eq_none.mp h node hnode

theorem lastNode?_eq_some {nodes : List Node} {id : String} {node : Node}
    (h : lastNode? nodes id = some node) : node ∈ nodes ∧ node.id = id :=
  ⟨List.mem_reverse.mp (List.mem_of_find?_eq_some h), by simpa using List.find?_some h⟩

theorem countP_isAppInfo_eq_zero {g : Graph} (h : g.appInfo? = none) :
    g.nodes.countP Node.isAppInfo = 0 := by
  rw [List.countP_eq_zero]
  intro node hnode
  simpa using List.find?_eq_none.mp h node hnode

theorem eq_of_id_eq {nodes : List Node} (h : (nodes.map (·.id)).Nodup) {n m : Node}
    (hn : n ∈ nodes) (hm : m ∈ nodes) (hid : n.id = m.id) : n = m :=
  List.inj_on_of_nodup_map h hn hm hid

namespace Structured

variable {rules : ConnectionRules} {g : Graph}

theorem empty : Graph.empty.Structured rules where
  ids_nodup := List.nodup_nil
  appInfo_le_one := Nat.zero_le 1
  joined := fun _ h => absurd h List.not_mem_nil

/-- Nodes may be exchanged for others that no edge can tell from them. -/
theorem of_alike (h : g.Structured rules) {nodes : List Node}
    (hids : (nodes.map (·.id)).Nodup) (happ : nodes.countP Node.isAppInfo ≤ 1)
    (halike : ∀ n ∈ g.nodes, ∃ m ∈ nodes, n.Alike m) :
    (Graph.mk nodes g.edges).Structured rules where
  ids_nodup := hids
  appInfo_le_one := happ
  joined := by
    intro edge hedge
    obtain ⟨source, hs, target, ht, hjoins⟩ := h.joined edge hedge
    obtain ⟨source', hs', hsalike⟩ := halike source hs
    obtain ⟨target', ht', htalike⟩ := halike target ht
    exact ⟨source', hs', target', ht',
      hjoins.alike hsalike htalike.id_eq htalike.nodeType_eq⟩

theorem of_edges (h : g.Structured rules) {edges : List Edge}
    (hjoined : ∀ edge ∈ edges, ∃ source ∈ g.nodes, ∃ target ∈ g.nodes,
      edge.Joins rules source target) : (Graph.mk g.nodes edges).Structured rules :=
  { h with joined := hjoined }

/-- A node under a new id may be added, but no second application node. -/
theorem addNode (h : g.Structured rules) {node : Node} (hid : node.id ∉ g.nodes.map (·.id))
    (happ : node.isAppInfo = true → g.appInfo? = none) :
    (Graph.mk (g.nodes ++ [node]) g.edges).Structured rules := by
  refine h.of_alike ?_ ?_ ?_
  · rw [List.map_append, List.map_singleton]
    refine h.ids_nodup.append (List.nodup_singleton _) ?_
    intro id hmem hnew
    rw [List.mem_singleton] at hnew
    exact hid (hnew ▸ hmem)
  · rw [List.countP_append, List.countP_singleton]
    split
    · have hzero := countP_isAppInfo_eq_zero (happ ‹_›)
      omega
    · exact h.appInfo_le_one
  · intro n hn
    exact ⟨n, List.mem_append_left _ hn, .refl n⟩

/-- A node may be removed together with the edges that touch it. -/
theorem removeNode (h : g.Structured rules) (id : String) :
    (Graph.mk (g.nodes.eraseP (·.id == id)) (g.edges.filter (!·.touches id))).Structured rules where
  ids_nodup := h.ids_nodup.sublist (List.eraseP_sublist.map _)
  appInfo_le_one := Nat.le_trans List.eraseP_sublist.countP_le h.appInfo_le_one
  joined := by
    intro edge hedge
    obtain ⟨hmem, huntouched⟩ := List.mem_filter.mp hedge
    simp only [Edge.touches, Bool.not_eq_true', Bool.or_eq_false_iff, beq_eq_false_iff_ne]
      at huntouched
    obtain ⟨source, hs, target, ht, hjoins⟩ := h.joined edge hmem
    have hkept {n : Node} (hn : n ∈ g.nodes) (hne : n.id ≠ id) :
        n ∈ g.nodes.eraseP (·.id == id) :=
      (List.mem_eraseP_of_neg (by simpa using hne)).mpr hn
    exact ⟨source, hkept hs (hjoins.source_id ▸ huntouched.1), target,
      hkept ht (hjoins.target_id ▸ huntouched.2), hjoins⟩

end Structured
end Graph

end WorkflowStudio
