import WorkflowStudio.Document.Export
import WorkflowStudio.Document.Import
import WorkflowStudio.Storage.AppSettings

/-!
Saving and loading. A workflow is stored as two texts, its graph and its
document, both without the application node. The text of the graph counts when
it can be read, then the document, and else loading starts from the default
graph.
-/
namespace WorkflowStudio

structure StoredWorkflow where
  graphData : Option String
  documentData : Option String
deriving DecidableEq

namespace StoredWorkflow

def read : Json → Checked StoredWorkflow :=
  Json.asRecord fun fs =>
    mk <$> fs.optional ["graphData", "graph_data"] none (Json.asOptional Json.asText)
      <*> fs.optional ["dslData", "dsl_data"] none (Json.asOptional Json.asText)

def write (nulls : Nulls) (s : StoredWorkflow) : Json :=
  writeRecord nulls
    [Entry.optionalText "graphData" s.graphData, Entry.optionalText "dslData" s.documentData]

instance : Record StoredWorkflow where
  title := "PersistedWorkflow"
  read _ := read
  write := write
  parts s := [Json.ofOption .str s.graphData, Json.ofOption .str s.documentData]

end StoredWorkflow

namespace Graph

/-- The graph without its application nodes and every edge that touches one. -/
def stored (g : Graph) : Graph :=
  let apps := (g.nodesOfType .appInfo).map (·.id)
  ⟨g.nodes.filter fun node => !apps.contains node.id,
   g.edges.filter fun edge => !apps.contains edge.source && !apps.contains edge.target⟩

/-- The two texts, if both can be written. -/
def save (g : Graph) (heading : Heading) : Except Fault StoredWorkflow := do
  let graphText ← Record.stored g.stored
  let document := g.stored.toDocument heading
  Record.checkText document
  return ⟨some graphText, some document.text⟩

def decode (text : String) : Except Fault Graph :=
  match (Record.readText text : Checked Graph) with
  | .ok g => .ok g
  | .bad problems => .error (.undecodable .graph (Record.title Graph) problems)

end Graph

def Document.decode (text : String) : Except Fault Document :=
  match (Record.readText text : Checked Document) with
  | .ok d => .ok d
  | .bad problems => .error (.undecodable .document (Record.title Document) problems)

/-- Decodes what should be a stored text. -/
def StoredText.decode {α : Type} [Record α] (what : StoredText) (decode : String → Except Fault α) :
    Json → Except Fault α
  | .str text => decode text
  | _ => .error (.undecodable what (Record.title α) [⟨[], .notJson⟩])

namespace StoredWorkflow

/-- A text that is missing or empty has nothing stored. -/
def present (text : Option String) : Option String := text.filter (!·.isEmpty)

def graph? (s : StoredWorkflow) : Option Graph :=
  (present s.graphData).bind fun text => (Graph.decode text).toOption

/-- The graph of the document. A record that is rejected on the way leaves none,
and a grid that cannot be reckoned with is a fault. -/
def documentGraph? (s : StoredWorkflow) (grid : Grid) : Except Fault (Option Graph) :=
  match (present s.documentData).bind fun text => (Document.decode text).toOption with
  | none => .ok none
  | some d => match d.toGraph grid with
      | .ok g => .ok (some g)
      | .error (.invalid _ _) => .ok none
      | .error fault => .error fault

def loadGraph (s : StoredWorkflow) (grid : Grid) (catalog : Catalog) : Except Fault Graph :=
  match s.graph? with
  | some g => .ok g
  | none => (s.documentGraph? grid).map (·.getD catalog.defaultGraph)

/-- Loads the graph and adds the application node for the given settings when
the graph has none. -/
def load (s : StoredWorkflow) (grid : Grid) (catalog : Catalog) (settings : Option Json) :
    Except Fault Graph := do
  let g ← s.loadGraph grid catalog
  match settings, g.appInfo? with
  | some settings, none =>
      let node ← catalog.appInfoNode settings
      return { g with nodes := g.nodes ++ [node] }
  | _, _ => return g

end StoredWorkflow
end WorkflowStudio
