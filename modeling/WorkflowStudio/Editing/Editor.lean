import WorkflowStudio.ConnectionRules
import WorkflowStudio.Editing.Numbering
import WorkflowStudio.Editing.Outcome
import WorkflowStudio.Json.Order
import WorkflowStudio.Storage.FixedNode

/-!
The editor of a graph. Each command changes the graph, gives a result, and says
by a mutation what observers have to be told. A command that is refused changes
nothing and tells nothing.
-/
namespace WorkflowStudio

structure Editor where
  catalog : Catalog
  rules : ConnectionRules
  name : Json
  /-- The time in milliseconds that new ids are made from. -/
  millis : Int
  nodes : List Node
  edges : List Edge
  /-- Whether there are edits that were not saved. -/
  dirty : Bool

namespace Editor

variable {α : Type}

def empty (catalog : Catalog) (rules : ConnectionRules) (name : Json) (millis : Int) : Editor :=
  ⟨catalog, rules, name, millis, [], [], false⟩

def graph (e : Editor) : Graph := ⟨e.nodes, e.edges⟩

def node? (e : Editor) (id : String) : Option Node := e.graph.node? id

def edge? (e : Editor) (id : String) : Option Edge := e.graph.edge? id

def summary (e : Editor) : String :=
  "WorkflowEditor(name=" ++ e.name.named ++ ", nodes=" ++ toString e.nodes.length ++
    ", edges=" ++ toString e.edges.length ++ ")"

def unchanged (e : Editor) (value : α) : Outcome Editor α := ⟨e, .ok value, none⟩

def failed (e : Editor) (fault : Fault) : Outcome Editor α := ⟨e, .error fault, none⟩

/-- An edit leaves the editor with something to save. -/
def edited (e : Editor) (value : α) (mutation : Mutation) : Outcome Editor α :=
  ⟨{ e with dirty := true }, .ok value, some mutation⟩

/-- Changes the first node with an id. -/
def changeFirst (id : String) (change : Node → Node) : List Node → List Node
  | [] => []
  | node :: rest =>
      if node.id == id then change node :: rest else node :: changeFirst id change rest

def changeNode (e : Editor) (id : String) (change : Node → Node) : Editor :=
  { e with nodes := changeFirst id change e.nodes }

def changeData (e : Editor) (id : String) (change : NodeData → NodeData) : Editor :=
  e.changeNode id fun node => { node with data := change node.data }

/-- Changes the payload of a node in a way that quick repeats may share. -/
def updateData (e : Editor) (id : String) (change : NodeData → NodeData) : Outcome Editor Bool :=
  (e.changeData id change).edited true (.update id)

def nextLabel (e : Editor) (base : String) : Except Fault String :=
  Numbering.nextLabel base (e.nodes.map (·.data.label))

def freshId (e : Editor) (t : NodeType) : String :=
  Numbering.freshId (t.text.toLower ++ "-" ++ Decimal.intText e.millis) (e.nodes.map (·.id))

/-- Adds a node. Refused when its id is taken, or for a second application
node. -/
def addNode (e : Editor) (node : Node) : Outcome Editor (Option Node) :=
  if (e.node? node.id).isSome || (node.isAppInfo && e.graph.appInfo?.isSome) then e.unchanged none
  else
    { e with nodes := e.nodes ++ [node] }.edited (some node)
      (.ofNode .nodeAdded ("Add node [" ++ node.displayName ++ "]") node.id)

/-- A new node of a kind, labelled and shown as the catalog says. -/
def newNode (e : Editor) (t : NodeType) (position : Position) (config : Fields)
    (id : Option String) : Except Fault Node := do
  let label ← e.nextLabel (e.catalog.label t)
  let id ← match id.filter (!·.isEmpty) with
    | some id => Node.checkId id
    | none => .ok (e.freshId t)
  return ⟨id, "custom", position, e.catalog.newData t (some id) label config, []⟩

/-- Creates a node of the kind that a text spells. -/
def createNode (e : Editor) (type : String) (position : Position) (config : Fields)
    (id : Option String) : Outcome Editor (Option Node) :=
  match (Vocabulary.find? type : Option NodeType) with
  | none => e.failed (.notMember (.str type) (Vocabulary.title NodeType))
  | some t => match e.newNode t position config id with
      | .ok node => e.addNode node
      | .error fault => e.failed fault

/-- Removes a node and every edge that touches it. -/
def removeNode (e : Editor) (id : String) : Outcome Editor Bool :=
  match e.node? id with
  | none => e.unchanged false
  | some node =>
      { e with
        nodes := e.nodes.eraseP (·.id == id)
        edges := e.edges.filter (!·.touches id) }.edited true
        (.ofNode .nodeRemoved ("Delete node [" ++ node.displayName ++ "]") id)

/-- A copy of a node with a fresh id and label. -/
def copyNode (e : Editor) (node : Node) (offset : Double) : Except Fault Node := do
  let stem := Numbering.dropNumber node.data.label
  let id := e.freshId node.nodeType
  let label ← e.nextLabel (if stem.isEmpty then e.catalog.label node.nodeType else stem)
  return {
    id := id
    type := node.type
    position := ⟨node.position.x.add offset, node.position.y.add offset⟩
    data := { node.data with id := some id, label := label, status := .idle }
    extras := [] }

/-- Copies a node without its edges. The application node cannot be copied. -/
def duplicateNode (e : Editor) (id : String) (offset : Double) : Outcome Editor (Option Node) :=
  match e.node? id with
  | none => e.unchanged none
  | some node =>
      if node.isAppInfo then e.unchanged none
      else match e.copyNode node offset with
        | .error fault => e.failed fault
        | .ok copy =>
            { e with nodes := e.nodes ++ [copy] }.edited (some copy)
              (.ofNode .nodeAdded
                ("Duplicate node [" ++ node.displayName ++ "] to [" ++ copy.displayName ++ "]")
                copy.id)

/-- Moves a node. Nothing happens when it is there already. -/
def moveNode (e : Editor) (id : String) (x y : Json) : Outcome Editor Bool :=
  match e.node? id with
  | none => e.unchanged false
  | some node =>
      if (Json.num node.position.x).equal x && (Json.num node.position.y).equal y then
        e.unchanged true
      else match Position.of x y with
        | .error fault => e.failed fault
        | .ok position =>
            (e.changeNode id fun node => { node with position := position }).edited true
              (.move ("Move node [" ++ node.displayName ++ "]") id)

/-- The fields of a node that can be edited; missing ones stay as they are. -/
structure NodeUpdate where
  label : Option String
  status : Option NodeStatus
  customInputs : Option (List ParamDefinition)
  customOutputs : Option (List ParamDefinition)

def NodeUpdate.apply (u : NodeUpdate) (d : NodeData) : NodeData :=
  { d with
    label := u.label.getD d.label
    status := u.status.getD d.status
    customInputs := u.customInputs.getD d.customInputs
    customOutputs := u.customOutputs.getD d.customOutputs }

def updateNode (e : Editor) (id : String) (u : NodeUpdate) : Outcome Editor Bool :=
  match e.node? id with
  | none => e.unchanged false
  | some _ => e.updateData id u.apply

/-- The guard of an edge derived anew. A label that repeated the guard goes
along with it. -/
def renewGuard (source : Node) (edge : Edge) : Except Fault Edge := do
  let condition ← Guard.derive source edge.sourceHandle
  return { edge with
    condition := condition
    label := if edge.label.isSome && edge.label = edge.condition then condition else edge.label }

/-- Derives the guards of the edges that leave a node, one after the other, up
to the first that fails. -/
def renewGuards (source : Node) : List Edge → List Edge × Option Fault
  | [] => ([], none)
  | edge :: rest =>
      if edge.source == source.id then
        match renewGuard source edge with
        | .error fault => (edge :: rest, some fault)
        | .ok edge =>
            let (rest, fault) := renewGuards source rest
            (edge :: rest, fault)
      else
        let (rest, fault) := renewGuards source rest
        (edge :: rest, fault)

/-- Changes the settings of a node by merging changes into them or by replacing
them. The guards that leave an intent classifier are derived anew. -/
def updateConfig (e : Editor) (id : String) (changes : Fields) (replace : Bool) :
    Outcome Editor Bool :=
  match e.node? id with
  | none => e.unchanged false
  | some node =>
      let config := if replace then changes else Fields.merge node.config changes
      let source := { node with data := { node.data with config := config } }
      let changed := e.changeNode id fun _ => source
      if node.nodeType = .intentClassifier then
        let (edges, fault) := renewGuards source e.edges
        let renewed := { changed with edges := edges }
        match fault with
        | some fault => renewed.failed fault
        | none => renewed.edited true (.update id)
      else changed.edited true (.update id)

/-- The bindings with one binding put in the place of the first of its key, or
at the end. Further bindings of the key are dropped. -/
def putBinding (binding : ParamBinding) (bindings : List ParamBinding) : List ParamBinding :=
  let others := bindings.filter (·.paramKey != binding.paramKey)
  match bindings.findIdx? (·.paramKey == binding.paramKey) with
  | some index => others.take index ++ binding :: others.drop index
  | none => others ++ [binding]

def setBinding (e : Editor) (id : String) (binding : ParamBinding) : Outcome Editor Bool :=
  match e.node? id with
  | none => e.unchanged false
  | some _ => e.updateData id fun d => { d with bindings := putBinding binding d.bindings }

def removeBinding (e : Editor) (id paramKey : String) : Outcome Editor Bool :=
  match e.node? id with
  | none => e.unchanged false
  | some node =>
      if (node.data.binding? paramKey).isNone then e.unchanged false
      else e.updateData id fun d =>
        { d with bindings := d.bindings.filter (·.paramKey != paramKey) }

/-- The label of an edit that joins two nodes. -/
def joinLabel (e : Editor) (connection : Connection) (label : String → String → String) : String :=
  let name (id : String) := ((e.node? id).map Node.displayName).getD id
  label (name connection.source) (name connection.target)

/-- The edge of a connection that the rules allow. -/
def acceptedEdge (e : Editor) (connection : Connection) (ignored : Option String) :
    Option (Except Fault Edge) :=
  if e.rules.canConnect connection e.nodes e.edges ignored then
    (e.node? connection.source).map fun source => ConnectionRules.buildEdge source connection
  else none

def connect (e : Editor) (connection : Connection) : Outcome Editor (Option Edge) :=
  match e.acceptedEdge connection none with
  | none => e.unchanged none
  | some (.error fault) => e.failed fault
  | some (.ok edge) =>
      { e with edges := e.edges ++ [edge] }.edited (some edge)
        (.ofEdge .edgeAdded
          (e.joinLabel connection fun source target =>
            "[" ++ source ++ "] connected to [" ++ target ++ "]") (.str edge.id))

/-- Puts an edge in the place of the first one with an id. -/
def replaceFirst (id : String) (edge : Edge) : List Edge → List Edge
  | [] => []
  | other :: rest =>
      if other.id == id then edge :: rest else other :: replaceFirst id edge rest

/-- Moves an edge to other endpoints; it keeps its place among the edges. -/
def reconnect (e : Editor) (id : String) (connection : Connection) : Outcome Editor (Option Edge) :=
  match e.edge? id, e.acceptedEdge connection (some id) with
  | none, _ => e.unchanged none
  | some _, none => e.unchanged none
  | some _, some (.error fault) => e.failed fault
  | some _, some (.ok edge) =>
      { e with edges := replaceFirst id edge e.edges }.edited (some edge)
        (.ofEdge .edgeUpdated
          (e.joinLabel connection fun source target =>
            "Reconnect [" ++ source ++ "] to [" ++ target ++ "]") (.str edge.id))

def removeEdge (e : Editor) (id : String) : Outcome Editor Bool :=
  match e.edge? id with
  | none => e.unchanged false
  | some _ =>
      { e with edges := e.edges.eraseP (·.id == id) }.edited true
        (.ofEdge .edgeRemoved "Delete connection" (.str id))

/-- Replaces the whole graph. It counts as an edit only on demand. -/
def replaceGraph (e : Editor) (g : Graph) (label : Json) (markDirty : Bool) : Outcome Editor Unit :=
  ⟨{ e with nodes := g.nodes, edges := g.edges, dirty := e.dirty || markDirty }, .ok (),
   some (.replacement label)⟩

def clear (e : Editor) : Outcome Editor Unit :=
  e.replaceGraph Graph.empty (.str "Clear canvas") true

def markDirty (e : Editor) : Editor := { e with dirty := true }

/-- Notes that the graph was saved; a save that failed changes nothing. -/
def markSaved (e : Editor) (saved : Bool) : Editor := if saved then { e with dirty := false } else e

def nodeRow (node : Node) : List Json := [.str node.id, .str node.data.label]

def edgeRow (edge : Edge) : List Json :=
  [.str edge.id, Json.ofOption .str edge.condition, Json.ofOption .str edge.label]

instance : GraphEditor Editor where
  settled e := e
  snapshot e := Record.stored e.graph
  dump e := Record.dump e.graph
  replaceGraph := replaceGraph
  dirty := (·.dirty)
  summary := summary
  nodeRows e := e.nodes.map nodeRow
  edgeRows e := e.edges.map edgeRow

end Editor
end WorkflowStudio
