import WorkflowStudio.Editing.Editor
import WorkflowStudio.Editing.LooseRecord
import WorkflowStudio.Clock

/-!
The editor of a live graph into which values were assigned from outside, and whose
commands take arguments of any kind. On records and arguments of their declared
kinds each command does what it does in an editor that keeps the kinds. A command
that meets a value of another kind than it needs fails there, and what it had
changed until then stays.
-/
namespace WorkflowStudio

structure LooseEditor where
  catalog : Catalog
  rules : ConnectionRules
  name : Json
  /-- The time in milliseconds, when the clock shows one. -/
  millis : Except Fault Int
  nodes : List LooseNode
  edges : List LooseEdge
  dirty : Bool

/-- The fields of a node that are assigned together; null and missing ones stay as
they are. -/
structure LooseUpdate where
  label : Json
  status : Option NodeStatus
  customInputs : Option (List ParamDefinition)
  customOutputs : Option (List ParamDefinition)

def LooseUpdate.apply (u : LooseUpdate) (d : LooseData) : LooseData :=
  { d with
    label := if u.label == .null then d.label else u.label
    status := (u.status.map fun s => Json.str s.text).getD d.status
    customInputs := (u.customInputs.map Slot.held).getD d.customInputs
    customOutputs := (u.customOutputs.map Slot.held).getD d.customOutputs }

/-- What becomes of an item of a list at an index of unknown kind. -/
def Json.setItem (items : List Json) (index value : Json) : Except Fault (List Json) :=
  match index.whole? with
  | none => .error (.indexRequired index)
  | some n =>
      let place := if n < 0 then n + items.length else n
      if n < -0x8000000000000000 ∨ 0x8000000000000000 ≤ n then .error .indexTooLarge
      else if 0 ≤ place ∧ place < items.length then .ok (items.set place.toNat value)
      else .error .indexOutOfRange

namespace LooseEditor

variable {α : Type}

/-- The same editor, open to values of any kind. -/
def ofEditor (e : Editor) : LooseEditor where
  catalog := e.catalog
  rules := e.rules
  name := e.name
  millis := .ok e.millis
  nodes := e.nodes.map .ofNode
  edges := e.edges.map .ofEdge
  dirty := e.dirty

/-- Looking at the graph as a whole gives ids to payloads and edges that have none. -/
def settled (e : LooseEditor) : LooseEditor :=
  { e with nodes := e.nodes.map (·.fillDataId), edges := e.edges.map (·.deriveId) }

def node? (e : LooseEditor) (id : Json) : Option LooseNode := e.nodes.find? fun n => .str n.id == id

def edge? (e : LooseEditor) (id : Json) : Option LooseEdge := e.edges.find? (·.id.equal id)

/-- The last node with an id, which a table by id holds. -/
def lastNode? (e : LooseEditor) (id : String) : Option LooseNode :=
  e.nodes.reverse.find? (·.id == id)

def write (e : LooseEditor) : Json :=
  .obj [("nodes", .arr (e.nodes.map (·.write))), ("edges", .arr (e.edges.map (·.write)))]

def parts (e : LooseEditor) : List Json :=
  e.nodes.flatMap (·.parts) ++ e.edges.flatMap (·.parts)

/-- The full form of something with the given parts. -/
def dumped (parts : List Json) (form : Json) : Except Fault Json :=
  if parts.any (Json.exceeds Record.deepest) then .error (.tooDeep false) else .ok form

def snapshot (e : LooseEditor) : Except Fault String :=
  match e.parts.findSome? Record.textFault? with
  | some fault => .error fault
  | none => .ok (e.write.text Json.compact)

def dumpNode (n : LooseNode) : Except Fault Json := do
  n.additions.use "model_dump"
  dumped n.parts n.write

def dumpEdge (e : LooseEdge) : Except Fault Json := do
  e.additions.use "model_dump"
  dumped e.parts e.write

def summary (e : LooseEditor) : String :=
  "WorkflowEditor(name=" ++ e.name.named ++ ", nodes=" ++ toString e.nodes.length ++
    ", edges=" ++ toString e.edges.length ++ ")"

def unchanged (e : LooseEditor) (value : α) : Outcome LooseEditor α := ⟨e, .ok value, none⟩

def failed (e : LooseEditor) (fault : Fault) : Outcome LooseEditor α := ⟨e, .error fault, none⟩

def edited (e : LooseEditor) (value : α) (mutation : Mutation) : Outcome LooseEditor α :=
  ⟨{ e with dirty := true }, .ok value, some mutation⟩

/-- An outcome that is decided by what may fail before anything is changed. -/
def deciding {β : Type} (e : LooseEditor) (decision : Except Fault β)
    (next : β → Outcome LooseEditor α) : Outcome LooseEditor α :=
  match decision with
  | .ok value => next value
  | .error fault => e.failed fault

/-- Changes the first node with an id. -/
def changeFirst (id : String) (change : LooseNode → LooseNode) : List LooseNode → List LooseNode
  | [] => []
  | node :: rest =>
      if node.id == id then change node :: rest else node :: changeFirst id change rest

def changeNode (e : LooseEditor) (id : String) (change : LooseNode → LooseNode) : LooseEditor :=
  { e with nodes := changeFirst id change e.nodes }

def changeData (e : LooseEditor) (id : String) (change : LooseData → LooseData) : LooseEditor :=
  e.changeNode id fun node => { node with data := change node.data }

def updateData (e : LooseEditor) (id : String) (change : LooseData → LooseData) :
    Outcome LooseEditor Bool :=
  (e.changeData id change).edited true (.update id)

def nextLabel (e : LooseEditor) (base : String) : Except Fault String :=
  Numbering.nextLabelAmong base (e.nodes.map (·.data.label))

def freshId (e : LooseEditor) (t : NodeType) : Except Fault String := do
  let base := t.text.toLower ++ "-" ++ Decimal.intText (← e.millis)
  return Numbering.freshId base (e.nodes.map (·.id))

def addNode (e : LooseEditor) (node : LooseNode) : Outcome LooseEditor (Option LooseNode) :=
  if (e.node? (.str node.id)).isSome then e.unchanged none
  else
    let seen := if node.isAppInfo then e.settled else e
    if node.isAppInfo && seen.nodes.any (·.isAppInfo) then seen.unchanged none
    else
      { seen with nodes := seen.nodes ++ [node] }.edited (some node)
        (.ofNode .nodeAdded ("Add node [" ++ node.displayName ++ "]") node.id)

/-- The id of a new node; one that is not present is made up. -/
def newId (e : LooseEditor) (t : NodeType) (id : Json) : Except Fault String :=
  if id.isPresent then (id.asNonemptyText.inside (.field "id")).orFault (Record.title Node)
  else e.freshId t

def newNode (e : LooseEditor) (type : Json) (position : Position) (config id : Json) :
    Except Fault Node :=
  match (Vocabulary.ofJson? type : Option NodeType) with
  | none => .error (.notMember type (Vocabulary.title NodeType))
  | some t => do
      let label ← e.nextLabel (e.catalog.label t)
      let fields ← LooseFields.ofJson (config.orElse (.obj []))
      let config ← (fields.asObject.inside (.field "config")).orFault (Record.title NodeData)
      let id ← e.newId t id
      return ⟨id, "custom", position, e.catalog.newData t (some id) label config, []⟩

def createNode (e : LooseEditor) (type : Json) (position : Position) (config id : Json) :
    Outcome LooseEditor (Option LooseNode) :=
  e.deciding (e.newNode type position config id) fun node => e.addNode (.ofNode node)

def removeNode (e : LooseEditor) (id : Json) : Outcome LooseEditor Bool :=
  match e.node? id with
  | none => e.unchanged false
  | some node =>
      { e with
        nodes := e.nodes.eraseP (·.id == node.id)
        edges := e.edges.filter fun edge => !edge.source.equal id && !edge.target.equal id }.edited
        true (.ofNode .nodeRemoved ("Delete node [" ++ node.displayName ++ "]") node.id)

/-- The text of a label without its number; a label that is not present is empty. -/
def stem (label : Json) : Except Fault String :=
  match label.orElse (.str "") with
  | .str text => .ok (Numbering.dropNumber text)
  | v => .error (.notText v)

/-- A position at an offset from that of a node. -/
def shifted (position : Slot Position) (offset : Json) : Except Fault Position :=
  match position with
  | .stray v => .error (.noAttribute v "x")
  | .held p => do
      let x ← (Json.num p.x).plus offset
      let y ← (Json.num p.y).plus offset
      Position.of x y

def copyNode (e : LooseEditor) (node : LooseNode) (offset : Json) : Except Fault LooseNode := do
  let id ← e.freshId node.nodeType
  let stem ← stem node.data.label
  node.data.additions.use "model_copy"
  let label ← e.nextLabel (if stem.isEmpty then e.catalog.label node.nodeType else stem)
  let position ← shifted node.position offset
  let type ← (node.type.asText.inside (.field "type")).orFault (Record.title Node)
  return {
    id := id
    type := .str type
    position := .held position
    data := { node.data with
      id := .str id
      label := .str label
      status := .str NodeStatus.idle.text }
    additions := .ofExtras [] }

def duplicateNode (e : LooseEditor) (id offset : Json) :
    Outcome LooseEditor (Option LooseNode) :=
  match e.node? id with
  | none => e.unchanged none
  | some node =>
      if node.isAppInfo then e.unchanged none
      else e.deciding (e.copyNode node offset) fun copy =>
        { e with nodes := e.nodes ++ [copy] }.edited (some copy)
          (.ofNode .nodeAdded
            ("Duplicate node [" ++ node.displayName ++ "] to [" ++ copy.displayName ++ "]")
            copy.id)

def moveNode (e : LooseEditor) (id x y : Json) : Outcome LooseEditor Bool :=
  match e.node? id with
  | none => e.unchanged false
  | some node => match node.position with
      | .stray v => e.failed (.noAttribute v "x")
      | .held p =>
          if (Json.num p.x).equal x && (Json.num p.y).equal y then e.unchanged true
          else e.deciding (Position.of x y) fun position =>
            (e.changeNode node.id fun node => { node with position := .held position }).edited
              true (.move ("Move node [" ++ node.displayName ++ "]") node.id)

def updateNode (e : LooseEditor) (id : Json) (u : LooseUpdate) : Outcome LooseEditor Bool :=
  match e.node? id with
  | none => e.unchanged false
  | some node => e.updateData node.id u.apply

/-- The settings after a change, which replaces them or is merged into them. -/
def changedSettings (config : Slot LooseFields) (changes : Json) (replace : Bool) :
    Except Fault LooseFields :=
  if replace then LooseFields.ofJson changes
  else match config, changes with
    | .stray v, _ => .error (.notMapping v)
    | .held fs, .obj fields => .ok (fs.merge fields)
    | .held _, v => .error (.notMapping v)

/-- The guard of an edge derived anew from the settings of its source. A label
that repeated the guard goes along with it. -/
def renewGuard (source : LooseNode) (edge : LooseEdge) : Except Fault LooseEdge := do
  let guard ← Guard.ofAnyHandle source.nodeType source.data.intentConfig? edge.sourceHandle
  let condition := Json.ofOption .str guard
  return { edge with
    condition := condition
    label :=
      if edge.label != .null && edge.label.equal edge.condition then condition else edge.label }

def renewGuards (source : LooseNode) : List LooseEdge → List LooseEdge × Option Fault
  | [] => ([], none)
  | edge :: rest =>
      if edge.source.equal (.str source.id) then
        match renewGuard source edge with
        | .error fault => (edge :: rest, some fault)
        | .ok edge =>
            let (rest, fault) := renewGuards source rest
            (edge :: rest, fault)
      else
        let (rest, fault) := renewGuards source rest
        (edge :: rest, fault)

def updateConfig (e : LooseEditor) (id changes : Json) (replace : Bool) :
    Outcome LooseEditor Bool :=
  match e.node? id with
  | none => e.unchanged false
  | some node => e.deciding (changedSettings node.data.config changes replace) fun config =>
      let source := { node with data := { node.data with config := .held config } }
      let changed := e.changeNode node.id fun _ => source
      if node.nodeType = .intentClassifier then
        let (edges, fault) := renewGuards source e.edges
        let renewed := { changed with edges := edges }
        match fault with
        | some fault => renewed.failed fault
        | none => renewed.edited true (.update node.id)
      else changed.edited true (.update node.id)

def bindingsOf (node : LooseNode) : Except Fault (List ParamBinding) :=
  node.data.bindings.items "param_key"

def setBinding (e : LooseEditor) (id : Json) (binding : ParamBinding) :
    Outcome LooseEditor Bool :=
  match e.node? id with
  | none => e.unchanged false
  | some node => e.deciding (bindingsOf node) fun bindings =>
      e.updateData node.id fun d =>
        { d with bindings := .held (Editor.putBinding binding bindings) }

/-- The bindings of a node, looked through for one of an input. -/
def searched (node : LooseNode) : Except Fault (List ParamBinding) := do
  node.data.additions.use "get_binding"
  bindingsOf node

def removeBinding (e : LooseEditor) (id paramKey : Json) : Outcome LooseEditor Bool :=
  match e.node? id with
  | none => e.unchanged false
  | some node => e.deciding (searched node) fun bindings =>
      if bindings.all fun b => .str b.paramKey != paramKey then e.unchanged false
      else e.updateData node.id fun d =>
        { d with bindings := .held (bindings.filter fun b => .str b.paramKey != paramKey) }

/-- Whether an edge joins the same handle to the same node. -/
def duplicates (connection : Connection) (edge : LooseEdge) : Bool :=
  edge.source.equal (.str connection.source) && edge.target.equal (.str connection.target) &&
    edge.handle.equal (.str (connection.sourceHandle.getD ""))

def canConnect (e : LooseEditor) (connection : Connection) (ignored : Json) : Bool :=
  connection.source != connection.target &&
    (match e.lastNode? connection.source, e.lastNode? connection.target with
    | some source, some target =>
        e.rules.allows source.nodeType.text target.nodeType.text &&
          !(e.edges.any fun edge =>
            !(ignored != .null && edge.id.equal ignored) && duplicates connection edge)
    | _, _ => false)

/-- The label of an edit that joins two nodes. -/
def joinLabel (e : LooseEditor) (connection : Connection) (label : String → String → String) :
    String :=
  let name (id : String) := ((e.node? (.str id)).map (·.displayName)).getD id
  label (name connection.source) (name connection.target)

/-- The edge of a connection that the rules allow. -/
def acceptedEdge (e : LooseEditor) (connection : Connection) (ignored : Json) :
    Option (Except Fault LooseEdge) :=
  if e.canConnect connection ignored then
    (e.node? (.str connection.source)).map fun source =>
      (Guard.ofAnyHandle source.nodeType source.data.intentConfig?
        (Json.ofOption .str connection.sourceHandle)).map fun condition =>
          .ofEdge (connection.toEdge condition)
  else none

def connect (e : LooseEditor) (connection : Connection) : Outcome LooseEditor (Option LooseEdge) :=
  match e.acceptedEdge connection .null with
  | none => e.unchanged none
  | some edge => e.deciding edge fun edge =>
      { e with edges := e.edges ++ [edge] }.edited (some edge)
        (.ofEdge .edgeAdded
          (e.joinLabel connection fun source target =>
            "[" ++ source ++ "] connected to [" ++ target ++ "]") edge.id)

/-- Puts an edge in the place of the first one with an id. -/
def replaceFirst (id : Json) (edge : LooseEdge) : List LooseEdge → List LooseEdge
  | [] => []
  | other :: rest =>
      if other.id.equal id then edge :: rest else other :: replaceFirst id edge rest

def reconnect (e : LooseEditor) (id : Json) (connection : Connection) :
    Outcome LooseEditor (Option LooseEdge) :=
  match e.edge? id, e.acceptedEdge connection id with
  | none, _ => e.unchanged none
  | some _, none => e.unchanged none
  | some _, some edge => e.deciding edge fun edge =>
      { e with edges := replaceFirst id edge e.edges }.edited (some edge)
        (.ofEdge .edgeUpdated
          (e.joinLabel connection fun source target =>
            "Reconnect [" ++ source ++ "] to [" ++ target ++ "]") edge.id)

def removeEdge (e : LooseEditor) (id : Json) : Outcome LooseEditor Bool :=
  match e.edge? id with
  | none => e.unchanged false
  | some _ =>
      { e with edges := e.edges.eraseP (·.id.equal id) }.edited true
        (.ofEdge .edgeRemoved "Delete connection" id)

def replaceGraph (e : LooseEditor) (g : Graph) (label : Json) (markDirty : Bool) :
    Outcome LooseEditor Unit :=
  ⟨{ e with
      nodes := g.nodes.map .ofNode
      edges := g.edges.map .ofEdge
      dirty := e.dirty || markDirty }, .ok (), some (.replacement label)⟩

def clear (e : LooseEditor) : Outcome LooseEditor Unit :=
  e.replaceGraph Graph.empty (.str "Clear canvas") true

/-- A numbered label after a base, which has to be a text. -/
def generateLabel (e : LooseEditor) : Json → Except Fault String
  | .str base => e.nextLabel base
  | v => .error (.notEncoded v)

/-- Sets the clock to a number of seconds. What is no number of them is found out
when the time is needed. -/
def setClock (e : LooseEditor) (seconds : Json) : LooseEditor :=
  { e with millis := Clock.millis seconds }

/-- Assigns an item of the settings of a node. -/
def assignSetting (config : Slot LooseFields) (key value : Json) :
    Except Fault (Slot LooseFields) :=
  match config with
  | .held fs => do return .held (fs.put (← key.toKey) value)
  | .stray (.arr items) => do return .stray (.arr (← Json.setItem items key value))
  | .stray v => .error (.unassignable v)

def nodeRow (node : LooseNode) : List Json := [.str node.id, node.data.label]

def edgeRow (edge : LooseEdge) : List Json := [edge.id, edge.condition, edge.label]

instance : GraphEditor LooseEditor where
  settled := settled
  snapshot := snapshot
  dump e := dumped e.parts e.write
  replaceGraph := replaceGraph
  dirty := (·.dirty)
  summary := summary
  nodeRows e := e.nodes.map nodeRow
  edgeRows e := e.edges.map edgeRow

end LooseEditor
end WorkflowStudio
