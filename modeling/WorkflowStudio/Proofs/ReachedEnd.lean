import Mathlib.Order.WellFoundedSet
import WorkflowStudio.Proofs.ValidGraph

/-!
Where a valid graph leads. It has one end node, and this node is its only terminal. So from any
other node of the flow an edge leads on, and without cycles the finitely many nodes are used up
at the end node.
-/
namespace WorkflowStudio.Graph

variable {g : Graph}

/-- Some edge leads from one id to another. -/
def Leads (g : Graph) (source target : String) : Prop :=
  ∃ e ∈ g.edges, e.source = source ∧ e.target = target

def Acyclic (g : Graph) : Prop := ∀ id, ¬Relation.TransGen g.Leads id id

/-- Edges that all lead to a higher rank close no cycle. -/
theorem acyclic_of_rank (rank : String → Nat)
    (h : ∀ e ∈ g.edges, rank e.source < rank e.target) : g.Acyclic := by
  have hpath {a b : String} (hab : Relation.TransGen g.Leads a b) : rank a < rank b := by
    induction hab with
    | single hstep =>
      obtain ⟨e, he, rfl, rfl⟩ := hstep
      exact h e he
    | tail _ hstep ih =>
      obtain ⟨e, he, rfl, rfl⟩ := hstep
      exact ih.trans (h e he)
  exact fun id hcycle => Nat.lt_irrefl _ (hpath hcycle)

/-- Among the ids of its nodes an acyclic graph can be followed only finitely far. -/
theorem Acyclic.wellFoundedOn (h : g.Acyclic) :
    {id | id ∈ g.nodes.map (·.id)}.WellFoundedOn fun a b => Relation.TransGen g.Leads b a := by
  have : IsStrictOrder String fun a b => Relation.TransGen g.Leads b a := {
    irrefl := h
    trans := fun _ _ _ hab hbc => hbc.trans hab }
  exact (List.finite_toSet _).wellFoundedOn

theorem nodesOfType_finish (g : Graph) :
    g.nodesOfType .finish = g.flowNodes.filter (·.nodeType == .finish) := by
  rw [nodesOfType, flowNodes, List.filter_filter]
  refine List.filter_congr fun n _ => ?_
  by_cases hend : n.nodeType = .finish
  · simp [Node.isAppInfo, hend]
  · simp [hend]

namespace WellShaped

/-- The only terminal is the only end node. -/
theorem nodesOfType_finish_eq (h : g.WellShaped) :
    ∃ last, g.nodesOfType .finish = [last] ∧ g.flowNodes.filter g.isTerminal = [last] := by
  obtain ⟨last, hlast, hend⟩ := h.terminal
  refine ⟨last, ?_, hlast⟩
  have hends : g.flowNodes.filter (·.nodeType == .finish) =
      (g.flowNodes.filter g.isTerminal).filter (·.nodeType == .finish) := by
    rw [List.filter_filter]
    refine List.filter_congr fun n hn => ?_
    by_cases hfinish : n.nodeType = .finish
    · rw [h.finish n hn hfinish, Bool.and_true]
    · simp [hfinish]
  rw [nodesOfType_finish, hends, hlast]
  simp [hend]

/-- From a node of the flow that is no terminal an edge leads on to a node of the flow, unless it
touches an application node. -/
theorem exists_leads (h : g.WellShaped) (hapart : ∀ e ∈ g.edges, ¬g.TouchesAppInfo e) {n : Node}
    (hn : g.isTerminal n = false) : ∃ next ∈ g.flowNodes, g.Leads n.id next.id := by
  obtain ⟨e, he, hsource⟩ : ∃ e ∈ g.edges, e.source = n.id := by
    rw [← Bool.not_eq_true, isTerminal_iff] at hn
    push Not at hn
    exact hn
  obtain ⟨next, hnext, hid⟩ := List.mem_map.mp (h.joined e he).2
  have hflow : next.isAppInfo = false := by
    rw [← Bool.not_eq_true]
    intro happ
    refine hapart e he ⟨next, hnext, happ, ?_⟩
    rw [Edge.touches, hid, BEq.rfl, Bool.or_true]
  exact ⟨next, List.mem_filter.mpr ⟨hnext, by rw [hflow]; rfl⟩, e, he, hsource, hid.symm⟩

theorem reaches_terminal (h : g.WellShaped) (hapart : ∀ e ∈ g.edges, ¬g.TouchesAppInfo e)
    (hacyclic : g.Acyclic) {last : Node} (hlast : g.flowNodes.filter g.isTerminal = [last])
    {n : Node} (hn : n ∈ g.flowNodes) : Relation.ReflTransGen g.Leads n.id last.id := by
  have hid : n.id ∈ g.nodes.map (·.id) := List.mem_map_of_mem (List.mem_of_mem_filter hn)
  refine hacyclic.wellFoundedOn.induction
    (P := fun id => ∀ n ∈ g.flowNodes, n.id = id → Relation.ReflTransGen g.Leads id last.id)
    hid ?_ n hn rfl
  rintro _ - ih n hn rfl
  cases hterminal : g.isTerminal n with
  | true =>
    have hmem : n ∈ g.flowNodes.filter g.isTerminal := List.mem_filter.mpr ⟨hn, hterminal⟩
    rw [hlast, List.mem_singleton] at hmem
    rw [hmem]
  | false =>
    obtain ⟨next, hnext, hleads⟩ := h.exists_leads hapart hterminal
    have hnextId : next.id ∈ g.nodes.map (·.id) :=
      List.mem_map_of_mem (List.mem_of_mem_filter hnext)
    exact .head hleads (ih next.id hnextId (.single hleads) next hnext rfl)

end WellShaped

/-- A graph is valid exactly when it is well shaped. A valid graph has exactly one end node, and
when in addition no edge touches an application node and the edges close no cycle, a path leads to
it from every node of the flow. -/
theorem valid_iff_wellShaped_and_reaches (g : Graph) :
    (g.checkStructure.valid = true ↔ g.WellShaped) ∧
      (g.checkStructure.valid = true → ∃ last, g.nodesOfType .finish = [last] ∧
        ((∀ e ∈ g.edges, ¬g.TouchesAppInfo e) → g.Acyclic →
          ∀ n ∈ g.flowNodes, Relation.ReflTransGen g.Leads n.id last.id)) := by
  refine ⟨valid_checkStructure, fun hvalid => ?_⟩
  have h := valid_checkStructure.mp hvalid
  obtain ⟨last, hends, hlast⟩ := h.nodesOfType_finish_eq
  exact ⟨last, hends, fun hapart hacyclic n hn => h.reaches_terminal hapart hacyclic hlast hn⟩

/-! Two branches of a flow beside an application node. -/

def branchedFlow : Graph where
  nodes := [.plain "s" .start .origin, .plain "a" .llmChat .origin, .plain "i" .appInfo .origin,
    .plain "b" .llmChat .origin, .plain "e" .finish .origin]
  edges := [Connection.toEdge ⟨"s", "a", none, none⟩ none,
    Connection.toEdge ⟨"s", "b", none, none⟩ none, Connection.toEdge ⟨"a", "e", none, none⟩ none,
    Connection.toEdge ⟨"b", "e", none, none⟩ none]

theorem reaches_branchedFlow : branchedFlow.checkStructure.valid = true ∧
    (∀ e ∈ branchedFlow.edges, ¬branchedFlow.TouchesAppInfo e) ∧ branchedFlow.Acyclic ∧
    Relation.ReflTransGen branchedFlow.Leads "s" "e" := by
  have hvalid : branchedFlow.checkStructure.valid = true := by decide
  have hapart : ∀ e ∈ branchedFlow.edges, ¬branchedFlow.TouchesAppInfo e := by
    unfold TouchesAppInfo
    decide
  have hacyclic : branchedFlow.Acyclic :=
    acyclic_of_rank (fun id => ["s", "a", "b", "e"].idxOf id) (by decide)
  obtain ⟨last, hends, hreaches⟩ := (valid_iff_wellShaped_and_reaches branchedFlow).2 hvalid
  have hlast : branchedFlow.nodesOfType .finish = [.plain "e" .finish .origin] := by decide
  rw [hlast, List.cons.injEq] at hends
  refine ⟨hvalid, hapart, hacyclic, ?_⟩
  rw [← hends.1] at hreaches
  exact hreaches hapart hacyclic (.plain "s" .start .origin) (by decide)

end WorkflowStudio.Graph
