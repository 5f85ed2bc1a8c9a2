import WorkflowStudio.Catalog.Definition
import WorkflowStudio.Json.Key
import WorkflowStudio.NodeConfig
import WorkflowStudio.Report
import WorkflowStudio.Storage.Stored

/-!
The kinds of records that are exchanged, by name. A value of unknown shape is
brought into normal form by reading it as a record and writing it back.
-/
namespace WorkflowStudio

/-- A record that declares no fields and keeps none. -/
structure BareRecord where

namespace BareRecord

def read : Json → Checked BareRecord := Json.asRecord fun _ => pure ⟨⟩

def write (nulls : Nulls) (_ : BareRecord) : Json := writeRecord nulls []

instance : Record BareRecord := ⟨"BaseSchema", fun _ => read, write, fun _ => []⟩

end BareRecord

/-- The two written forms of a value. -/
structure NormalForm where
  withNulls : Json
  withoutNulls : Json

structure Schema where
  title : String
  normalize : Medium → Json → Except Fault NormalForm

namespace Schema

def of (α : Type) [Record α] : Schema where
  title := Record.title α
  normalize medium v := do
    let a ← (Record.read medium v : Checked α).orFault (Record.title α)
    Record.checkText a
    return ⟨Record.write .kept a, Record.write .dropped a⟩

def all : List Schema :=
  [of BareRecord, of ParamDefinition, of ParamBinding, of ParamSource, of Position, of NodeData,
   of Node, of Connection, of Edge, of Graph, of DocumentNode, of DocumentEdge, of Document,
   of StoredWorkflow, of NodeDefinition, of Issue, of GraphReport, of NodeReport,
   of WorkflowReport, of PlainConfig, of StartConfig, of EndConfig, of LlmChatConfig,
   of IntentConfig, of ConditionBranch, of ConditionConfig, of FixedResponseConfig,
   of DbQueryConfig, of SqlGenerateConfig, of SqlExecuteConfig, of KnowledgeConfig,
   of AppInfoConfig]

def find? (title : String) : Option Schema := all.find? (·.title == title)

def ofName (name : Json) : Except Fault Schema := name.findIn find?

/-- Normalizes what a text holds; a value that is no text holds nothing. -/
def normalizeText (schema : Schema) (text : Json) : Except Fault NormalForm := do
  let v ← (Json.ofStored text).orFault schema.title
  schema.normalize .text v

end Schema
end WorkflowStudio
