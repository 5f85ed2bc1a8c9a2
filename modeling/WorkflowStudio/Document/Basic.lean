import WorkflowStudio.Reading.Record
import WorkflowStudio.Json.Order

/-!
The execution document of a workflow: the nodes of the flow with their inputs
written as values or reference expressions, plain edges, and an entry point.
-/
namespace WorkflowStudio

structure DocumentNode where
  id : String
  type : String
  name : String
  config : Fields
  inputs : Fields
deriving DecidableEq

namespace DocumentNode

def read : Json → Checked DocumentNode :=
  Json.asRecord fun fs =>
    mk <$> fs.required ["id"] Json.asText
      <*> fs.required ["type"] Json.asText
      <*> fs.optional ["name"] "" Json.asText
      <*> fs.optional ["config"] [] Json.asObject
      <*> fs.optional ["inputs"] [] Json.asObject

def write (nulls : Nulls) (n : DocumentNode) : Json :=
  writeRecord nulls
    [Entry.text "id" n.id, Entry.text "type" n.type, Entry.text "name" n.name,
     Entry.always "config" (.obj (Json.finiteFields n.config)),
     Entry.always "inputs" (.obj (Json.finiteFields n.inputs))]

instance : Record DocumentNode where
  title := "DslNodeConfig"
  read _ := read
  write := write
  parts n :=
    [.str n.id, .str n.type, .str n.name] ++ n.config.parts ++ n.inputs.parts

end DocumentNode

structure DocumentEdge where
  source : String
  target : String
  condition : Option String
deriving DecidableEq

namespace DocumentEdge

def read : Json → Checked DocumentEdge :=
  Json.asRecord fun fs =>
    mk <$> fs.required ["from", "from_"] Json.asText
      <*> fs.required ["to"] Json.asText
      <*> fs.optional ["condition"] none (Json.asOptional Json.asText)

def write (nulls : Nulls) (e : DocumentEdge) : Json :=
  writeRecord nulls
    [Entry.text "from" e.source, Entry.text "to" e.target,
     Entry.optionalText "condition" e.condition]

instance : Record DocumentEdge where
  title := "DslEdgeConfig"
  read _ := read
  write := write
  parts e := [.str e.source, .str e.target, Json.ofOption .str e.condition]

end DocumentEdge

structure Document where
  workflowId : Option Reference
  name : String
  entryPoint : String
  nodes : List DocumentNode
  edges : List DocumentEdge
deriving DecidableEq

namespace Document

def read : Json → Checked Document :=
  Json.asRecord fun fs =>
    mk <$> fs.optional ["workflowId", "workflow_id"] none (Json.asOptional Json.asReference)
      <*> fs.optional ["name"] "" Json.asText
      <*> fs.optional ["entryPoint", "entry_point"] "" Json.asText
      <*> fs.optional ["nodes"] [] (Json.asList DocumentNode.read)
      <*> fs.optional ["edges"] [] (Json.asList DocumentEdge.read)

def write (nulls : Nulls) (d : Document) : Json :=
  writeRecord nulls
    [Entry.optional "workflowId" Reference.toJson d.workflowId, Entry.text "name" d.name,
     Entry.text "entryPoint" d.entryPoint,
     Entry.always "nodes" (.arr (d.nodes.map (DocumentNode.write nulls))),
     Entry.always "edges" (.arr (d.edges.map (DocumentEdge.write nulls)))]

instance : Record Document where
  title := "WorkflowDsl"
  read _ := read
  write := write
  parts d :=
    [Json.ofOption Reference.toJson d.workflowId, .str d.name, .str d.entryPoint] ++
      d.nodes.flatMap Record.parts ++ d.edges.flatMap Record.parts

/-- The document as stored text, without the fields that have no value. -/
def text (d : Document) : String := (write .dropped d).text Json.compact

def node? (d : Document) (id : String) : Option DocumentNode := d.nodes.find? (·.id == id)

/-- Equality that compares the amounts of numbers and ignores the order of
settings. -/
def agrees (d e : Document) : Bool := Json.equal (write .kept d) (write .kept e)

end Document

/-- The identity that a document is exported under. -/
structure Heading where
  workflowId : Option Reference
  name : String
deriving DecidableEq

namespace Heading

def of (workflowId name : Json) : Checked Heading :=
  mk <$> (Json.asOptional Json.asReference workflowId).inside (.field "workflow_id")
    <*> name.asText.inside (.field "name")

end Heading
end WorkflowStudio
