import WorkflowStudio.Param

/-!
The editable graph: nodes with their positions, settings and bindings, and
directed edges with the guards derived for them. Records keep the fields that
this library does not know, so that a stored graph is written back unchanged.
-/
namespace WorkflowStudio

/-- The id of the edge that leaves a node through a handle for another node. -/
def edgeId (source : String) (handle : Option String) (target : String) : String :=
  "e-" ++ source ++ "-" ++ handle.getD "" ++ "-" ++ target

/-- The id of an edge between values of unknown kind; a handle that is not present
is an empty one. -/
def edgeIdOf (source handle target : Json) : String :=
  edgeId source.display (if handle.isPresent then some handle.display else none) target.display

structure Position where
  x : Double
  y : Double
deriving DecidableEq

namespace Position

def origin : Position := ⟨Double.zero false, Double.zero false⟩

def ofInts (x y : Int) : Position := ⟨Double.ofInt x, Double.ofInt y⟩

def read (medium : Medium) : Json → Checked Position :=
  Json.asRecord fun fs =>
    mk <$> fs.optional ["x"] (Double.zero false) (Json.asReal medium)
      <*> fs.optional ["y"] (Double.zero false) (Json.asReal medium)

def write (nulls : Nulls) (p : Position) : Json :=
  writeRecord nulls [Entry.always "x" (.num p.x), Entry.always "y" (.num p.y)]

instance : Record Position := ⟨"Position", read, write, fun _ => []⟩

/-- The position at two coordinates of unknown kind. -/
def of (x y : Json) : Except Fault Position :=
  (read .value (.obj [("x", x), ("y", y)])).orFault (Record.title Position)

def isFinite (p : Position) : Bool := p.x.isFinite && p.y.isFinite

end Position

structure NodeData where
  id : Option String
  nodeType : NodeType
  label : String
  config : Fields
  status : NodeStatus
  bindings : List ParamBinding
  customInputs : List ParamDefinition
  customOutputs : List ParamDefinition
  extras : Fields
deriving DecidableEq

namespace NodeData

def slots : List (List String) :=
  [["id"], ["nodeType", "node_type"], ["nodeLabel", "node_label", "label"], ["config"],
   ["status"], ["paramBindings", "param_bindings"],
   ["customInputParams", "custom_input_params"], ["customOutputParams", "custom_output_params"]]

def read : Json → Checked NodeData :=
  Json.asRecord fun fs =>
    mk <$> fs.optional ["id"] none (Json.asOptional Json.asText)
      <*> fs.required ["nodeType", "node_type"] Vocabulary.read
      <*> fs.optional ["nodeLabel", "node_label", "label"] "" Json.asText
      <*> fs.optional ["config"] [] Json.asObject
      <*> fs.optional ["status"] .idle Vocabulary.read
      <*> fs.optional ["paramBindings", "param_bindings"] [] (Json.asList ParamBinding.read)
      <*> fs.optional ["customInputParams", "custom_input_params"] []
        (Json.asList ParamDefinition.read)
      <*> fs.optional ["customOutputParams", "custom_output_params"] []
        (Json.asList ParamDefinition.read)
      <*> pure (fs.extras slots)

def write (nulls : Nulls) (d : NodeData) : Json :=
  writeRecord nulls
    ([Entry.optionalText "id" d.id, Entry.text "nodeType" d.nodeType.text,
      Entry.text "nodeLabel" d.label, Entry.always "config" (.obj (Json.finiteFields d.config)),
      Entry.text "status" d.status.text,
      Entry.always "paramBindings" (.arr (d.bindings.map (ParamBinding.write nulls))),
      Entry.always "customInputParams" (.arr (d.customInputs.map (ParamDefinition.write nulls))),
      Entry.always "customOutputParams"
        (.arr (d.customOutputs.map (ParamDefinition.write nulls)))] ++
      d.extras.map Entry.extra)

instance : Record NodeData where
  title := "NodeData"
  read _ := read
  write := write
  parts d :=
    [Json.ofOption .str d.id, .str d.label] ++ d.config.parts ++ d.bindings.flatMap Record.parts ++
      (d.customInputs ++ d.customOutputs).flatMap Record.parts ++ d.extras.parts

/-- The first binding of an input. -/
def binding? (d : NodeData) (paramKey : String) : Option ParamBinding :=
  d.bindings.find? (·.paramKey == paramKey)

end NodeData

structure Node where
  id : String
  type : String
  position : Position
  data : NodeData
  extras : Fields
deriving DecidableEq

namespace Node

def slots : List (List String) := [["id"], ["type"], ["position"], ["data"]]

/-- Gives the payload the id of its node when it has none. -/
def fillDataId (node : Node) : Node :=
  { node with data := { node.data with id := some (node.data.id.getD node.id) } }

def read (medium : Medium) (v : Json) : Checked Node :=
  fillDataId <$> v.asRecord fun fs =>
    mk <$> fs.required ["id"] Json.asNonemptyText
      <*> fs.optional ["type"] "custom" Json.asText
      <*> fs.optional ["position"] Position.origin (Position.read medium)
      <*> fs.required ["data"] NodeData.read
      <*> pure (fs.extras slots)

def write (nulls : Nulls) (n : Node) : Json :=
  writeRecord nulls
    ([Entry.text "id" n.id, Entry.text "type" n.type,
      Entry.always "position" (Position.write nulls n.position),
      Entry.always "data" (NodeData.write nulls n.data)] ++ n.extras.map Entry.extra)

instance : Record Node where
  title := "Node"
  read := read
  write := write
  parts n := [.str n.id, .str n.type] ++ Record.parts n.data ++ n.extras.parts

/-- An id that a node can have is not empty and holds whole characters only. -/
def checkId (id : String) : Except Fault String :=
  ((Json.str id).asNonemptyText.inside (.field "id")).orFault (Record.title Node)

def nodeType (n : Node) : NodeType := n.data.nodeType

def config (n : Node) : Fields := n.data.config

/-- The label of a node, or its id when the label is empty. -/
def displayName (n : Node) : String := if n.data.label.isEmpty then n.id else n.data.label

def isAppInfo (n : Node) : Bool := n.nodeType == .appInfo

end Node

/-- A proposed edge. -/
structure Connection where
  source : String
  target : String
  sourceHandle : Option String
  targetHandle : Option String
deriving DecidableEq

namespace Connection

def read : Json → Checked Connection :=
  Json.asRecord fun fs =>
    mk <$> fs.required ["source"] Json.asText
      <*> fs.required ["target"] Json.asText
      <*> fs.optional ["sourceHandle", "source_handle"] none (Json.asOptional Json.asText)
      <*> fs.optional ["targetHandle", "target_handle"] none (Json.asOptional Json.asText)

def write (nulls : Nulls) (c : Connection) : Json :=
  writeRecord nulls
    [Entry.text "source" c.source, Entry.text "target" c.target,
     Entry.optionalText "sourceHandle" c.sourceHandle,
     Entry.optionalText "targetHandle" c.targetHandle]

instance : Record Connection where
  title := "Connection"
  read _ := read
  write := write
  parts c :=
    [.str c.source, .str c.target, Json.ofOption .str c.sourceHandle,
     Json.ofOption .str c.targetHandle]

end Connection

structure Edge where
  id : String
  source : String
  target : String
  sourceHandle : Option String
  targetHandle : Option String
  label : Option String
  condition : Option String
  extras : Fields
deriving DecidableEq

namespace Edge

def slots : List (List String) :=
  [["id"], ["source"], ["target"], ["sourceHandle", "source_handle"],
   ["targetHandle", "target_handle"], ["label"], ["condition"]]

/-- Moves a guard that an older edge keeps in its payload to the edge itself.
The rest of the payload stays, behind the other fields, unless it is empty. -/
def liftCondition (fs : Fields) : Fields :=
  match fs.get? "data" with
  | some (.obj payload) =>
      let lifted := (Fields.get? payload "condition").getD .null
      let own := (fs.get? "condition").getD .null
      let fs := fs.erase "data"
      let fs := if own == .null && lifted.isPresent then fs.insert "condition" lifted else fs
      let rest := Fields.erase payload "condition"
      if rest.isEmpty then fs else fs.insert "data" (.obj rest)
  | _ => fs

def deriveId (e : Edge) : Edge :=
  if e.id.isEmpty then { e with id := edgeId e.source e.sourceHandle e.target } else e

def read (v : Json) : Checked Edge :=
  deriveId <$> v.asRecord fun given =>
    let fs := liftCondition given
    mk <$> fs.optional ["id"] "" Json.asText
      <*> fs.required ["source"] Json.asText
      <*> fs.required ["target"] Json.asText
      <*> fs.optional ["sourceHandle", "source_handle"] none (Json.asOptional Json.asText)
      <*> fs.optional ["targetHandle", "target_handle"] none (Json.asOptional Json.asText)
      <*> fs.optional ["label"] none (Json.asOptional Json.asText)
      <*> fs.optional ["condition"] none (Json.asOptional Json.asText)
      <*> pure (fs.extras slots)

def write (nulls : Nulls) (e : Edge) : Json :=
  writeRecord nulls
    ([Entry.text "id" e.id, Entry.text "source" e.source, Entry.text "target" e.target,
      Entry.optionalText "sourceHandle" e.sourceHandle,
      Entry.optionalText "targetHandle" e.targetHandle, Entry.optionalText "label" e.label,
      Entry.optionalText "condition" e.condition] ++ e.extras.map Entry.extra)

instance : Record Edge where
  title := "Edge"
  read _ := read
  write := write
  parts e :=
    [.str e.id, .str e.source, .str e.target, Json.ofOption .str e.sourceHandle,
     Json.ofOption .str e.targetHandle, Json.ofOption .str e.label,
     Json.ofOption .str e.condition] ++ e.extras.parts

/-- The handle an edge leaves through; a missing handle is an empty one. -/
def handle (e : Edge) : String := e.sourceHandle.getD ""

def touches (e : Edge) (id : String) : Bool := e.source == id || e.target == id

end Edge

structure Graph where
  nodes : List Node
  edges : List Edge
deriving DecidableEq

namespace Graph

def empty : Graph := ⟨[], []⟩

def read (medium : Medium) : Json → Checked Graph :=
  Json.asRecord fun fs =>
    mk <$> fs.optional ["nodes"] [] (Json.asList (Node.read medium))
      <*> fs.optional ["edges"] [] (Json.asList Edge.read)

def write (nulls : Nulls) (g : Graph) : Json :=
  writeRecord nulls
    [Entry.always "nodes" (.arr (g.nodes.map (Node.write nulls))),
     Entry.always "edges" (.arr (g.edges.map (Edge.write nulls)))]

instance : Record Graph where
  title := "WorkflowGraph"
  read := read
  write := write
  parts g := g.nodes.flatMap Record.parts ++ g.edges.flatMap Record.parts

/-- The stored text of the whole graph. -/
def snapshot (g : Graph) : String := Record.storedText g

def ofSnapshot (text : String) : Checked Graph := Record.readText text

def node? (g : Graph) (id : String) : Option Node := g.nodes.find? (·.id == id)

def edge? (g : Graph) (id : String) : Option Edge := g.edges.find? (·.id == id)

def nodesOfType (g : Graph) (t : NodeType) : List Node := g.nodes.filter (·.nodeType == t)

def appInfo? (g : Graph) : Option Node := g.nodes.find? Node.isAppInfo

/-- The nodes that take part in the flow. -/
def flowNodes (g : Graph) : List Node := g.nodes.filter (!·.isAppInfo)

/-- The last node with an id, which a table by id holds. -/
def lastNode? (nodes : List Node) (id : String) : Option Node :=
  nodes.reverse.find? (·.id == id)

end Graph
end WorkflowStudio
