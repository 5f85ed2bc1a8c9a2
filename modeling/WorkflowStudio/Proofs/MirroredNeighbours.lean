import Mathlib.Algebra.BigOperators.Group.Finset.Piecewise
import Mathlib.Data.List.Induction
import WorkflowStudio.Proofs.NearestAncestors

/-!
Both directions of a topology tell the same. Each addition of an edge lengthens one list of
successors and one list of predecessors, so after any additions these lists are read off the added
edges, and the ids are the added ones in the order in which they were first added.
-/
namespace WorkflowStudio

theorem Neighbours.of_add {ι : Type} [DecidableEq ι] (table : Neighbours ι)
    (id neighbour other : ι) :
    of (add table id neighbour) other =
      of table other ++ if id == other then [neighbour] else [] := by
  by_cases hsame : id = other
  · rw [hsame, of_add_self, BEq.rfl, if_pos rfl]
  · rw [of_add_of_ne _ _ (Ne.symm hsame), if_neg (by simpa using hsame), List.append_nil]

namespace Topology

variable {ι : Type}

def Addition.edge? : Addition ι → Option (ι × ι)
  | .edge source target => some (source, target)
  | .node _ => none

def Addition.id? : Addition ι → Option ι
  | .node id => some id
  | .edge _ _ => none

/-- The added edges, each as often as it was added. -/
def addedEdges (additions : List (Addition ι)) : List (ι × ι) := additions.filterMap (·.edge?)

def addedIds (additions : List (Addition ι)) : List ι := additions.filterMap (·.id?)

theorem mem_addedEdges {additions : List (Addition ι)} {source target : ι} :
    (source, target) ∈ addedEdges additions ↔ Records additions source target := by
  unfold addedEdges Records
  rw [List.mem_filterMap]
  constructor
  · intro ⟨addition, hmem, hedge⟩
    cases addition with
    | node id => cases hedge
    | edge first second =>
      obtain ⟨rfl, rfl⟩ := Prod.mk.inj (Option.some.inj hedge)
      exact hmem
  · intro hmem
    exact ⟨_, hmem, rfl⟩

variable [DecidableEq ι]

/-! Lists of edges. -/

/-- The ends of the edges that leave an id. -/
def targetsOf (edges : List (ι × ι)) (source : ι) : List ι :=
  (edges.filter (·.1 == source)).map (·.2)

/-- The starts of the edges that reach an id. -/
def sourcesOf (edges : List (ι × ι)) (target : ι) : List ι :=
  (edges.filter (·.2 == target)).map (·.1)

theorem targetsOf_append (edges : List (ι × ι)) (first second source : ι) :
    targetsOf (edges ++ [(first, second)]) source =
      targetsOf edges source ++ if first == source then [second] else [] := by
  by_cases hfirst : first = source
  · simp [targetsOf, hfirst]
  · simp [targetsOf, hfirst]

theorem sourcesOf_append (edges : List (ι × ι)) (first second target : ι) :
    sourcesOf (edges ++ [(first, second)]) target =
      sourcesOf edges target ++ if second == target then [first] else [] := by
  by_cases hsecond : second = target
  · simp [sourcesOf, hsecond]
  · simp [sourcesOf, hsecond]

theorem count_targetsOf (edges : List (ι × ι)) (source target : ι) :
    (targetsOf edges source).count target = edges.count (source, target) := by
  induction edges with
  | nil => rfl
  | cons edge rest ih =>
    obtain ⟨first, second⟩ := edge
    unfold targetsOf at ih ⊢
    by_cases hfirst : first = source
    · simp [hfirst, List.count_cons, ih]
    · simp [hfirst, ih]

theorem count_sourcesOf (edges : List (ι × ι)) (source target : ι) :
    (sourcesOf edges target).count source = edges.count (source, target) := by
  induction edges with
  | nil => rfl
  | cons edge rest ih =>
    obtain ⟨first, second⟩ := edge
    unfold sourcesOf at ih ⊢
    by_cases hsecond : second = target
    · simp [hsecond, List.count_cons, ih]
    · simp [hsecond, ih]

theorem targetsOf_eq_nil {edges : List (ι × ι)} {source : ι} :
    targetsOf edges source = [] ↔ ∀ target, (source, target) ∉ edges := by
  simp only [targetsOf, List.map_eq_nil_iff, List.filter_eq_nil_iff, beq_iff_eq]
  constructor
  · intro h target hmem
    exact h _ hmem rfl
  · intro h edge hmem hsource
    rw [← hsource] at h
    exact h edge.2 hmem

/-- Every edge leaves one of the ids that include all starts. -/
theorem sum_length_targetsOf {edges : List (ι × ι)} {ids : Finset ι}
    (h : ∀ edge ∈ edges, edge.1 ∈ ids) :
    ∑ id ∈ ids, (targetsOf edges id).length = edges.length := by
  induction edges with
  | nil => simp [targetsOf]
  | cons edge rest ih =>
    have hstep : ∀ id, (targetsOf (edge :: rest) id).length =
        (targetsOf rest id).length + if edge.1 = id then 1 else 0 := by
      intro id
      by_cases hid : edge.1 = id
      · simp [targetsOf, hid]
      · simp [targetsOf, hid]
    simp only [hstep]
    rw [Finset.sum_add_distrib, ih fun other hother => h other (List.mem_cons_of_mem _ hother),
      Finset.sum_ite_eq, if_pos (h edge List.mem_cons_self), List.length_cons]

/-! What one addition does to the ids, to both tables and to the number of edges. -/

theorem mem_ids_addNode {t : Topology ι} {added id : ι} :
    id ∈ (t.addNode added).ids ↔ id ∈ t.ids ∨ id = added := by
  rw [addNode]
  split
  · rename_i hknown
    rw [List.contains_iff_mem] at hknown
    exact ⟨Or.inl, fun h => h.elim (fun hold => hold) (fun hsame => hsame ▸ hknown)⟩
  · rw [List.mem_append, List.mem_singleton]

theorem successors_addNode (t : Topology ι) (id : ι) :
    (t.addNode id).successors = t.successors := by
  rw [addNode]
  split <;> rfl

theorem predecessors_addNode (t : Topology ι) (id : ι) :
    (t.addNode id).predecessors = t.predecessors := by
  rw [addNode]
  split <;> rfl

theorem edgeCount_addNode (t : Topology ι) (id : ι) : (t.addNode id).edgeCount = t.edgeCount := by
  rw [addNode]
  split <;> rfl

theorem successors_addEdge (t : Topology ι) (source target id : ι) :
    (t.addEdge source target).successors.of id =
      t.successors.of id ++ if source == id then [target] else [] :=
  Neighbours.of_add t.successors source target id

theorem predecessors_addEdge (t : Topology ι) (source target id : ι) :
    (t.addEdge source target).predecessors.of id =
      t.predecessors.of id ++ if target == id then [source] else [] :=
  Neighbours.of_add t.predecessors target source id

/-! What a topology tells of the additions that it was built by. -/

/-- Both tables hold the added edges, and the ids are the added ones, each at the place at which
it was first added. -/
structure Mirrors (additions : List (Addition ι)) (t : Topology ι) : Prop where
  successors : ∀ id, t.successors.of id = targetsOf (addedEdges additions) id
  predecessors : ∀ id, t.predecessors.of id = sourcesOf (addedEdges additions) id
  edgeCount : t.edgeCount = (addedEdges additions).length
  mem_ids : ∀ id, id ∈ t.ids ↔ id ∈ addedIds additions
  ordered : t.ids.Pairwise fun a b => (addedIds additions).idxOf a < (addedIds additions).idxOf b

namespace Mirrors

variable {additions : List (Addition ι)} {t : Topology ι}

theorem empty : Mirrors ([] : List (Addition ι)) empty where
  successors _ := rfl
  predecessors _ := rfl
  edgeCount := rfl
  mem_ids _ := Iff.rfl
  ordered := List.Pairwise.nil

theorem addEdge (h : Mirrors additions t) (source target : ι) :
    Mirrors (additions ++ [.edge source target]) (t.addEdge source target) := by
  have hedges : addedEdges (additions ++ [.edge source target]) =
      addedEdges additions ++ [(source, target)] := List.filterMap_append
  have hids : addedIds (additions ++ [.edge source target]) = addedIds additions := by
    simp [addedIds, Addition.id?]
  constructor
  case successors =>
    intro id
    rw [hedges, successors_addEdge, h.successors, targetsOf_append]
  case predecessors =>
    intro id
    rw [hedges, predecessors_addEdge, h.predecessors, sourcesOf_append]
  case edgeCount =>
    rw [hedges, List.length_append, ← h.edgeCount]
    rfl
  case mem_ids =>
    rw [hids]
    exact h.mem_ids
  case ordered =>
    rw [hids]
    exact h.ordered

/-- The place at which an id was first added stays the same. -/
theorem ordered_append (h : Mirrors additions t) (id : ι) :
    t.ids.Pairwise fun a b =>
      (addedIds additions ++ [id]).idxOf a < (addedIds additions ++ [id]).idxOf b := by
  refine h.ordered.imp_of_mem fun {a b} ha hb hlt => ?_
  rw [List.idxOf_append_of_mem ((h.mem_ids a).mp ha),
    List.idxOf_append_of_mem ((h.mem_ids b).mp hb)]
  exact hlt

theorem addNode (h : Mirrors additions t) (id : ι) :
    Mirrors (additions ++ [.node id]) (t.addNode id) := by
  have hedges : addedEdges (additions ++ [.node id]) = addedEdges additions := by
    simp [addedEdges, Addition.edge?]
  have hids : addedIds (additions ++ [.node id]) = addedIds additions ++ [id] :=
    List.filterMap_append
  constructor
  case successors =>
    rw [hedges, successors_addNode]
    exact h.successors
  case predecessors =>
    rw [hedges, predecessors_addNode]
    exact h.predecessors
  case edgeCount =>
    rw [hedges, edgeCount_addNode]
    exact h.edgeCount
  case mem_ids =>
    intro other
    rw [hids, mem_ids_addNode, h.mem_ids, List.mem_append, List.mem_singleton]
  case ordered =>
    rw [hids]
    by_cases hid : id ∈ t.ids
    · rw [Topology.addNode, if_pos (by simpa using hid)]
      exact h.ordered_append id
    · rw [Topology.addNode, if_neg (by simpa using hid)]
      refine List.pairwise_append.mpr ⟨h.ordered_append id, List.pairwise_singleton _ id, ?_⟩
      intro other hother last hlast
      have hold : other ∈ addedIds additions := (h.mem_ids other).mp hother
      have hnew : id ∉ addedIds additions := fun hmem => hid ((h.mem_ids id).mpr hmem)
      have hbefore := List.idxOf_lt_length_of_mem hold
      rw [List.mem_singleton.mp hlast, List.idxOf_append_of_mem hold,
        List.idxOf_append_of_notMem hnew]
      omega

theorem apply (h : Mirrors additions t) (addition : Addition ι) :
    Mirrors (additions ++ [addition]) (addition.apply t) := by
  cases addition with
  | node id => exact h.addNode id
  | edge source target => exact h.addEdge source target

theorem build (additions : List (Addition ι)) : Mirrors additions (build additions) := by
  induction additions using List.reverseRecOn with
  | nil => exact empty
  | append_singleton additions addition ih =>
    have hstep : Topology.build (additions ++ [addition]) =
        addition.apply (Topology.build additions) := by
      rw [Topology.build, List.foldl_append]
      rfl
    rw [hstep]
    exact ih.apply addition

theorem nodup_ids (h : Mirrors additions t) : t.ids.Nodup := by
  refine h.ordered.imp fun {a b} hlt heq => ?_
  rw [heq] at hlt
  exact absurd hlt (Nat.lt_irrefl _)

theorem nodeCount (h : Mirrors additions t) :
    t.nodeCount = (addedIds additions).toFinset.card := by
  have hsame : t.ids.toFinset = (addedIds additions).toFinset := by
    ext id
    rw [List.mem_toFinset, List.mem_toFinset]
    exact h.mem_ids id
  rw [← hsame, List.toFinset_card_of_nodup h.nodup_ids, Topology.nodeCount]

theorem mem_terminals (h : Mirrors additions t) {id : ι} :
    id ∈ t.terminals ↔ id ∈ addedIds additions ∧ ∀ target, ¬Records additions id target := by
  rw [terminals, List.mem_filter, h.mem_ids, List.isEmpty_iff, h.successors, targetsOf_eq_nil]
  simp only [mem_addedEdges]

end Mirrors

/-- A terminal of listed ids and edges is a listed id that no edge leaves. -/
theorem mem_terminals_ofLists {ids : List ι} {edges : List (ι × ι)} {id : ι} :
    id ∈ (ofLists ids edges).terminals ↔ id ∈ ids ∧ ∀ edge ∈ edges, edge.1 ≠ id := by
  have hids : addedIds (ids.map .node ++ edges.map fun edge => .edge edge.1 edge.2) = ids := by
    simp [addedIds, Addition.id?]
  rw [ofLists_eq_build, (Mirrors.build _).mem_terminals, hids, records_lists, Prod.forall]
  refine and_congr_right fun _ => ?_
  constructor
  · intro h source target hedge hsource
    exact h target (hsource ▸ hedge)
  · intro h target hedge
    exact h id target hedge rfl

/-- After any additions of nodes and edges, in any order, both tables of neighbours count every edge
as often as it was added. The number of edges is the sum of the numbers of successors, over any ids
that include all starts of edges, and the number of nodes is that of the distinct added ids. The
terminals are the added ids that no added edge leaves, each once, in the order in which they were
first added. -/
theorem neighbours_mirror_additions (additions : List (Addition ι)) :
    (∀ source target,
      ((build additions).successors.of source).count target =
        (addedEdges additions).count (source, target) ∧
      ((build additions).predecessors.of target).count source =
        (addedEdges additions).count (source, target)) ∧
    (∀ ids : Finset ι, (∀ source target, Records additions source target → source ∈ ids) →
      (build additions).edgeCount = ∑ id ∈ ids, ((build additions).successors.of id).length) ∧
    (build additions).nodeCount = (addedIds additions).toFinset.card ∧
    (∀ id, id ∈ (build additions).terminals ↔
      id ∈ addedIds additions ∧ ∀ target, ¬Records additions id target) ∧
    (build additions).terminals.Pairwise fun a b =>
      (addedIds additions).idxOf a < (addedIds additions).idxOf b := by
  have hbuilt := Mirrors.build additions
  refine ⟨fun source target => ⟨?_, ?_⟩, fun ids hids => ?_, hbuilt.nodeCount,
    fun id => hbuilt.mem_terminals, hbuilt.ordered.filter _⟩
  · rw [hbuilt.successors, count_targetsOf]
  · rw [hbuilt.predecessors, count_sourcesOf]
  · have hstarts : ∀ edge ∈ addedEdges additions, edge.1 ∈ ids := by
      intro edge hedge
      exact hids edge.1 edge.2 (mem_addedEdges.mp hedge)
    simp only [hbuilt.successors]
    rw [hbuilt.edgeCount, sum_length_targetsOf hstarts]

/-- Edges come before their nodes, one of them twice, and one leads to an id that is no node. -/
def scattered : List (Addition String) :=
  [.edge "a" "b", .node "b", .node "d", .edge "a" "b", .node "a", .edge "b" "x", .node "c",
    .node "d"]

theorem neighbours_mirror_scattered :
    (∀ source target, Records scattered source target → source ∈ ({"a", "b"} : Finset String)) ∧
    (build scattered).edgeCount =
      ∑ id ∈ ({"a", "b"} : Finset String), ((build scattered).successors.of id).length ∧
    (build scattered).edgeCount = 3 ∧
    ((build scattered).predecessors.of "b").count "a" = 2 ∧
    (build scattered).terminals = ["d", "c"] := by
  have hstarts : ∀ source target, Records scattered source target →
      source ∈ ({"a", "b"} : Finset String) := by
    intro source target hedge
    have hmem := mem_addedEdges.mpr hedge
    have hall : ∀ edge ∈ addedEdges scattered, edge.1 ∈ ({"a", "b"} : Finset String) := by decide
    exact hall _ hmem
  obtain ⟨hcounts, hsum, -⟩ := neighbours_mirror_additions scattered
  have hrepeated := (hcounts "a" "b").2
  exact ⟨hstarts, hsum _ hstarts, by decide, hrepeated, by decide⟩

end Topology
end WorkflowStudio
