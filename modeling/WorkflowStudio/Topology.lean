import WorkflowStudio.Graph

/-!
The directed graph of ids beneath a workflow. Edges are recorded in both
directions, also when an endpoint is not a node. Ancestors are found breadth
first, so the nearest ones come first, and each is listed once.
-/
namespace WorkflowStudio

/-- The neighbours of each id in the order they were added. -/
abbrev Neighbours (ι : Type) := List (ι × List ι)

namespace Neighbours

variable {ι : Type} [BEq ι]

def of (table : Neighbours ι) (id : ι) : List ι := ((table.find? (·.1 == id)).map (·.2)).getD []

def add (table : Neighbours ι) (id neighbour : ι) : Neighbours ι :=
  match table with
  | [] => [(id, [neighbour])]
  | row :: rest =>
      if row.1 == id then (row.1, row.2 ++ [neighbour]) :: rest
      else row :: add rest id neighbour

theorem of_add_self [LawfulBEq ι] (table : Neighbours ι) (id neighbour : ι) :
    of (add table id neighbour) id = of table id ++ [neighbour] := by
  induction table with
  | nil => simp [add, of]
  | cons row rest ih =>
    by_cases h : row.1 = id
    · simp [add, of, h]
    · simpa [add, of, h] using ih

theorem of_add_of_ne [LawfulBEq ι] (table : Neighbours ι) {id other : ι} (neighbour : ι)
    (h : other ≠ id) : of (add table id neighbour) other = of table other := by
  induction table with
  | nil => simp [add, of, Ne.symm h]
  | cons row rest ih =>
    by_cases hid : row.1 = id
    · subst hid
      simp [add, of, Ne.symm h]
    · by_cases ho : row.1 = other
      · have hid' : other ≠ id := h
        simp [add, of, ho, hid']
      · simpa [add, of, hid, ho] using ih

end Neighbours

structure Topology (ι : Type) where
  ids : List ι
  successors : Neighbours ι
  predecessors : Neighbours ι
  edgeCount : Nat

namespace Topology

variable {ι : Type}

def empty : Topology ι := ⟨[], [], [], 0⟩

def nodeCount (t : Topology ι) : Nat := t.ids.length

def summary (t : Topology ι) : String :=
  "Graph(nodes=" ++ toString t.nodeCount ++ ", edges=" ++ toString t.edgeCount ++ ")"

variable [BEq ι]

def addNode (t : Topology ι) (id : ι) : Topology ι :=
  if t.ids.contains id then t else { t with ids := t.ids ++ [id] }

def addEdge (t : Topology ι) (source target : ι) : Topology ι :=
  { t with
    successors := t.successors.add source target
    predecessors := t.predecessors.add target source
    edgeCount := t.edgeCount + 1 }

def contains (t : Topology ι) (id : ι) : Bool := t.ids.contains id

/-- The nodes that no edge leaves, in node order. -/
def terminals (t : Topology ι) : List ι := t.ids.filter fun id => (t.successors.of id).isEmpty

/-- Adds the ids that were not seen before to the seen and to the waiting ones. -/
def discover (seen waiting : List ι) : List ι → List ι × List ι
  | [] => (seen, waiting)
  | id :: rest =>
      if seen.contains id then discover seen waiting rest
      else discover (seen ++ [id]) (waiting ++ [id]) rest

/-- Visits the waiting ids in order. Each edge makes at most one id wait. -/
def visit (t : Topology ι) : Nat → List ι → List ι → List ι
  | 0, seen, _ => seen
  | _ + 1, seen, [] => seen
  | steps + 1, seen, id :: waiting =>
      let (seen, waiting) := discover seen waiting (t.predecessors.of id)
      visit t steps seen waiting

/-- Every other id with a path to the given one. -/
def ancestors (t : Topology ι) (id : ι) : List ι :=
  (visit t (t.edgeCount + 1) [id] [id]).drop 1

/-- The graph with the given ids and the given edges. -/
def ofLists (ids : List ι) (edges : List (ι × ι)) : Topology ι :=
  edges.foldl (fun t edge => t.addEdge edge.1 edge.2) (ids.foldl addNode empty)

def ofGraph (nodes : List Node) (edges : List Edge) : Topology String :=
  ofLists (nodes.map (·.id)) (edges.map fun edge => (edge.source, edge.target))

end Topology

/-- The nodes that lead to an id, nearest first. Edges that leave no known node
are ignored. -/
def feedingNodes (id : String) (nodes : List Node) (edges : List Edge) : List Node :=
  let known := edges.filter fun edge => (Graph.lastNode? nodes edge.source).isSome
  ((Topology.ofGraph [] known).ancestors id).filterMap (Graph.lastNode? nodes)

end WorkflowStudio
