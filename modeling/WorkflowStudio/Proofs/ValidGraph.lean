import WorkflowStudio.Checks.Structure
import WorkflowStudio.Proofs.MirroredNeighbours
import WorkflowStudio.Proofs.StoredGraph

/-!
What a valid graph is, and when its stored part is one as well. The checks look at the nodes of
the flow but at all edges. So an edge to an application node can keep a node from being a terminal,
and an edge that is not stored can be a finding.
-/
namespace WorkflowStudio.Graph

variable {g : Graph}

/-- No edge leaves the node. -/
def isTerminal (g : Graph) (n : Node) : Bool := !g.edges.any (·.source == n.id)

def HasEnds (g : Graph) (e : Edge) : Prop :=
  e.source ∈ g.nodes.map (·.id) ∧ e.target ∈ g.nodes.map (·.id)

structure WellShaped (g : Graph) : Prop where
  start : ∃ n, g.flowNodes.filter (·.nodeType == .start) = [n]
  terminal : ∃ n, g.flowNodes.filter g.isTerminal = [n] ∧ n.nodeType = .finish
  finish : ∀ n ∈ g.flowNodes, n.nodeType = .finish → g.isTerminal n = true
  joined : ∀ e ∈ g.edges, g.HasEnds e

theorem isTerminal_iff {n : Node} : g.isTerminal n = true ↔ ∀ e ∈ g.edges, e.source ≠ n.id := by
  simp [isTerminal]

/-! What each check finds. -/

theorem terminalNodes_eq (g : Graph) :
    terminalNodes g.flowNodes g.edges = g.flowNodes.filter g.isTerminal := by
  refine List.filter_congr fun n hn => ?_
  rw [Bool.eq_iff_iff, List.contains_iff_mem, isTerminal_iff, Topology.ofGraph,
    Topology.mem_terminals_ofLists, and_iff_right (List.mem_map_of_mem hn), List.forall_mem_map]

theorem startIssues_eq_nil {flow : List Node} :
    startIssues flow = [] ↔ ∃ n, flow.filter (·.nodeType == .start) = [n] := by
  unfold startIssues
  dsimp only
  split
  · rename_i hnone
    simp [hnone]
  · rename_i n hone
    simp [hone]
  · rename_i hmany
    simpa using fun n hone => hmany n hone

theorem terminalIssues_eq_nil {flow : List Node} {edges : List Edge} :
    terminalIssues flow edges = [] ↔
      ∃ n, terminalNodes flow edges = [n] ∧ n.nodeType = .finish := by
  unfold terminalIssues
  dsimp only
  split
  · rename_i hnone
    simp [hnone]
  · rename_i n hone
    simp [hone]
  · rename_i hmany
    simpa using fun n hone => absurd hone (hmany n)

theorem endIssues_eq_nil {flow : List Node} {edges : List Edge} :
    endIssues flow edges = [] ↔
      ∀ n ∈ flow, n.nodeType = .finish → ∀ e ∈ edges, e.source ≠ n.id := by
  rw [endIssues, List.filterMap_eq_nil_iff]
  refine forall₂_congr fun n _ => ?_
  simp

theorem danglingFrom_eq_nil {ids : List String} {edges : List Edge} {index : Nat} :
    danglingFrom ids index edges = [] ↔ ∀ e ∈ edges, e.source ∈ ids ∧ e.target ∈ ids := by
  induction edges generalizing index with
  | nil => simp [danglingFrom]
  | cons e rest ih => simp [danglingFrom, ih, and_assoc]

/-- A graph is valid exactly when one node of the flow is a start node, one of them is left by no
edge and is an end node, no edge leaves an end node, and every edge has both of its ends. -/
theorem valid_checkStructure : g.checkStructure.valid = true ↔ g.WellShaped := by
  have hempty (hstart : ∃ n, g.flowNodes.filter (·.nodeType == .start) = [n]) :
      g.flowNodes.isEmpty = false := by
    obtain ⟨n, hone⟩ := hstart
    rw [Bool.eq_false_iff]
    intro hnone
    rw [List.isEmpty_iff.mp hnone] at hone
    cases hone
  have hvalid : g.checkStructure.valid = g.issues.isEmpty := rfl
  rw [hvalid, List.isEmpty_iff, issues]
  simp only [List.append_eq_nil_iff, startIssues_eq_nil, endIssues_eq_nil, danglingFrom_eq_nil]
  constructor
  · rintro ⟨⟨⟨⟨-, hstart⟩, hterminal⟩, hfinish⟩, hjoined⟩
    rw [hempty hstart, if_neg Bool.false_ne_true, terminalIssues_eq_nil, terminalNodes_eq]
      at hterminal
    exact ⟨hstart, hterminal, fun n hn hend => isTerminal_iff.mpr (hfinish n hn hend), hjoined⟩
  · rintro ⟨hstart, hterminal, hfinish, hjoined⟩
    refine ⟨⟨⟨⟨?_, hstart⟩, ?_⟩, fun n hn hend => isTerminal_iff.mp (hfinish n hn hend)⟩, hjoined⟩
    · rw [emptyIssues, hempty hstart, if_neg Bool.false_ne_true]
    · rw [hempty hstart, if_neg Bool.false_ne_true, terminalIssues_eq_nil, terminalNodes_eq]
      exact hterminal

/-! Without its application nodes. -/

def TouchesAppInfo (g : Graph) (e : Edge) : Prop :=
  ∃ app ∈ g.nodes, app.isAppInfo = true ∧ e.touches app.id = true

/-- Some node of the flow is no end node, and all edges that leave it touch an application node. -/
def StrandsNode (g : Graph) : Prop :=
  ∃ n ∈ g.flowNodes, n.nodeType ≠ .finish ∧ ∀ e ∈ g.edges, e.source = n.id → g.TouchesAppInfo e

/-- An edge that touches an application node leaves an end node or lacks one of its ends. -/
def MisplacesEdge (g : Graph) : Prop :=
  ∃ e ∈ g.edges, g.TouchesAppInfo e ∧
    ((∃ n ∈ g.flowNodes, n.nodeType = .finish ∧ e.source = n.id) ∨ ¬g.HasEnds e)

theorem mem_edges_withoutAppInfo {e : Edge} :
    e ∈ g.withoutAppInfo.edges ↔ e ∈ g.edges ∧ ¬g.TouchesAppInfo e := by
  rw [withoutAppInfo, List.mem_filter, TouchesAppInfo]
  simp only [Bool.not_eq_true', List.any_eq_false, Bool.and_eq_true, not_exists, not_and]

theorem flowNodes_withoutAppInfo (g : Graph) : g.withoutAppInfo.flowNodes = g.flowNodes := by
  rw [flowNodes, withoutAppInfo, List.filter_filter]
  simp only [Bool.and_self]
  rfl

theorem isTerminal_withoutAppInfo {n : Node} (h : g.isTerminal n = true) :
    g.withoutAppInfo.isTerminal n = true := by
  rw [isTerminal_iff] at h ⊢
  exact fun e he => h e (mem_edges_withoutAppInfo.mp he).1

theorem hasEnds_withoutAppInfo {e : Edge} (h : ¬g.TouchesAppInfo e) :
    g.withoutAppInfo.HasEnds e ↔ g.HasEnds e := by
  have hids {id : String} (htouches : ∀ app ∈ g.nodes, app.id = id → e.touches app.id = true) :
      id ∈ g.withoutAppInfo.nodes.map (·.id) ↔ id ∈ g.nodes.map (·.id) := by
    rw [List.mem_map, List.mem_map]
    constructor
    · rintro ⟨n, hn, hid⟩
      exact ⟨n, List.mem_of_mem_filter hn, hid⟩
    · rintro ⟨n, hn, hid⟩
      refine ⟨n, List.mem_filter.mpr ⟨hn, ?_⟩, hid⟩
      rw [Bool.not_eq_true', ← Bool.not_eq_true]
      exact fun happ => h ⟨n, hn, happ, htouches n hn hid⟩
  refine and_congr (hids fun app _ hid => ?_) (hids fun app _ hid => ?_)
  · rw [Edge.touches, hid, BEq.rfl, Bool.true_or]
  · rw [Edge.touches, hid, BEq.rfl, Bool.or_true]

/-- An edge that leaves a node which nothing leaves in the rest of the graph touches an application
node. -/
theorem touchesAppInfo_of_isTerminal {n : Node} (hkept : g.withoutAppInfo.isTerminal n = true)
    {e : Edge} (he : e ∈ g.edges) (hleaves : e.source = n.id) : g.TouchesAppInfo e := by
  by_contra hfree
  exact isTerminal_iff.mp hkept e (mem_edges_withoutAppInfo.mpr ⟨he, hfree⟩) hleaves

theorem filter_isTerminal_withoutAppInfo
    (h : ∀ n ∈ g.flowNodes, g.withoutAppInfo.isTerminal n = true → g.isTerminal n = true) :
    g.withoutAppInfo.flowNodes.filter g.withoutAppInfo.isTerminal =
      g.flowNodes.filter g.isTerminal := by
  rw [flowNodes_withoutAppInfo]
  refine List.filter_congr fun n hn => ?_
  rw [Bool.eq_iff_iff]
  exact ⟨h n hn, isTerminal_withoutAppInfo⟩

theorem WellShaped.withoutAppInfo_iff (h : g.WellShaped) :
    g.withoutAppInfo.WellShaped ↔ ¬g.StrandsNode := by
  constructor
  · rintro hkept ⟨n, hn, hother, hleaves⟩
    obtain ⟨last, hlast, hend⟩ := hkept.terminal
    have hterminal : g.withoutAppInfo.isTerminal n = true := by
      rw [isTerminal_iff]
      intro e he hsource
      obtain ⟨hedge, hfree⟩ := mem_edges_withoutAppInfo.mp he
      exact hfree (hleaves e hedge hsource)
    have hmem : n ∈ g.withoutAppInfo.flowNodes.filter g.withoutAppInfo.isTerminal := by
      rw [flowNodes_withoutAppInfo]
      exact List.mem_filter.mpr ⟨hn, hterminal⟩
    rw [hlast, List.mem_singleton] at hmem
    exact hother (hmem ▸ hend)
  · intro hstrands
    have hterminals : ∀ n ∈ g.flowNodes, g.withoutAppInfo.isTerminal n = true →
        g.isTerminal n = true := by
      intro n hn hkept
      by_cases hend : n.nodeType = .finish
      · exact h.finish n hn hend
      · exact absurd ⟨n, hn, hend, fun e he => touchesAppInfo_of_isTerminal hkept he⟩ hstrands
    refine ⟨flowNodes_withoutAppInfo g ▸ h.start, ?_, ?_, ?_⟩
    · rw [filter_isTerminal_withoutAppInfo hterminals]
      exact h.terminal
    · intro n hn hend
      rw [flowNodes_withoutAppInfo] at hn
      exact isTerminal_withoutAppInfo (h.finish n hn hend)
    · intro e he
      obtain ⟨hedge, hfree⟩ := mem_edges_withoutAppInfo.mp he
      exact (hasEnds_withoutAppInfo hfree).mpr (h.joined e hedge)

theorem WellShaped.of_withoutAppInfo_iff (h : g.withoutAppInfo.WellShaped) :
    g.WellShaped ↔ ¬g.MisplacesEdge := by
  constructor
  · rintro hwhole ⟨e, he, -, ⟨n, hn, hend, hsource⟩ | hmissing⟩
    · exact isTerminal_iff.mp (hwhole.finish n hn hend) e he hsource
    · exact hmissing (hwhole.joined e he)
  · intro hmisplaces
    have hfinish : ∀ n ∈ g.flowNodes, n.nodeType = .finish → g.isTerminal n = true := by
      intro n hn hend
      have hkept := h.finish n (flowNodes_withoutAppInfo g ▸ hn) hend
      rw [isTerminal_iff]
      intro e he hsource
      have htouches := touchesAppInfo_of_isTerminal hkept he hsource
      exact hmisplaces ⟨e, he, htouches, .inl ⟨n, hn, hend, hsource⟩⟩
    obtain ⟨last, hlast, hend⟩ := h.terminal
    have hterminals : ∀ n ∈ g.flowNodes, g.withoutAppInfo.isTerminal n = true →
        g.isTerminal n = true := by
      intro n hn hkept
      have hmem : n ∈ g.withoutAppInfo.flowNodes.filter g.withoutAppInfo.isTerminal := by
        rw [flowNodes_withoutAppInfo]
        exact List.mem_filter.mpr ⟨hn, hkept⟩
      rw [hlast, List.mem_singleton] at hmem
      exact hfinish n hn (hmem ▸ hend)
    refine ⟨flowNodes_withoutAppInfo g ▸ h.start, ⟨last, ?_, hend⟩, hfinish, ?_⟩
    · rw [← filter_isTerminal_withoutAppInfo hterminals]
      exact hlast
    · intro e he
      by_cases htouches : g.TouchesAppInfo e
      · by_contra hmissing
        exact hmisplaces ⟨e, he, htouches, .inr hmissing⟩
      · exact (hasEnds_withoutAppInfo htouches).mp
          (h.joined e (mem_edges_withoutAppInfo.mpr ⟨he, htouches⟩))

/-- When ids tell nodes apart, the verdict on a graph is the one on its stored part, unless the
graph is valid but its edges to application nodes keep a node of the flow from being a terminal,
or its stored part is valid but such an edge leaves an end node or lacks an end. -/
theorem valid_stored_iff (hids : (g.nodes.map (·.id)).Nodup) :
    g.stored = g.withoutAppInfo ∧
      (g.checkStructure.valid = g.stored.checkStructure.valid ↔
        ¬(g.checkStructure.valid = true ∧ g.StrandsNode) ∧
          ¬(g.stored.checkStructure.valid = true ∧ g.MisplacesEdge)) := by
  have hstored := (stored_eq_iff g).mpr (not_sharesAppInfoId_of_nodup hids)
  refine ⟨hstored, ?_⟩
  rw [hstored, Bool.eq_iff_iff, valid_checkStructure, valid_checkStructure, not_and, not_and]
  constructor
  · intro hiff
    exact ⟨fun h => h.withoutAppInfo_iff.mp (hiff.mp h),
      fun h => h.of_withoutAppInfo_iff.mp (hiff.mpr h)⟩
  · rintro ⟨hstrands, hmisplaces⟩
    exact ⟨fun h => h.withoutAppInfo_iff.mpr (hstrands h),
      fun h => h.of_withoutAppInfo_iff.mpr (hmisplaces h)⟩

/-! A start node whose only edge leads to the application node. -/

def strandedStart : Graph where
  nodes := [.plain "s" .start .origin, .plain "e" .finish .origin, .plain "a" .appInfo .origin]
  edges := [Connection.toEdge ⟨"s", "a", none, none⟩ none]

/-- The graph is valid, and what is stored of it is not. -/
theorem valid_stored_strandedStart : strandedStart.checkStructure.valid = true ∧
    strandedStart.stored.checkStructure.valid = false := by
  have hvalid : strandedStart.checkStructure.valid = true := by decide
  have hids : (strandedStart.nodes.map (·.id)).Nodup := by decide
  have hstrands : strandedStart.StrandsNode := by
    refine ⟨.plain "s" .start .origin, by decide, by decide, fun e he _ => ?_⟩
    rw [List.mem_singleton.mp he]
    exact ⟨.plain "a" .appInfo .origin, by decide, rfl, rfl⟩
  refine ⟨hvalid, ?_⟩
  rw [← Bool.not_eq_true]
  intro hstored
  obtain ⟨-, hiff⟩ := valid_stored_iff hids
  exact (hiff.mp (hvalid.trans hstored.symm)).1 ⟨hvalid, hstrands⟩

end WorkflowStudio.Graph
