import WorkflowStudio.Reading.Record
import WorkflowStudio.Vocabulary

/-!
Reports of the checks: structural findings about a graph, and findings about
single nodes.
-/
namespace WorkflowStudio

structure Issue where
  code : IssueCode
  message : String
  nodeIds : List String
  edgeIds : List String
deriving DecidableEq

namespace Issue

def read : Json → Checked Issue :=
  Json.asRecord fun fs =>
    mk <$> fs.required ["code"] Vocabulary.read
      <*> fs.required ["message"] Json.asText
      <*> fs.optional ["nodeIds", "node_ids"] [] (Json.asList Json.asText)
      <*> fs.optional ["edgeIds", "edge_ids"] [] (Json.asList Json.asText)

def write (nulls : Nulls) (i : Issue) : Json :=
  writeRecord nulls
    [Entry.text "code" i.code.text, Entry.text "message" i.message,
     Entry.always "nodeIds" (Json.ofStrings i.nodeIds),
     Entry.always "edgeIds" (Json.ofStrings i.edgeIds)]

instance : Record Issue where
  title := "GraphIssue"
  read _ := read
  write := write
  parts i := (i.message :: i.nodeIds ++ i.edgeIds).map .str

end Issue

structure GraphReport where
  valid : Bool
  errors : List String
  issues : List Issue
deriving DecidableEq

namespace GraphReport

def read : Json → Checked GraphReport :=
  Json.asRecord fun fs =>
    mk <$> fs.required ["valid"] Json.asTruth
      <*> fs.optional ["errors"] [] (Json.asList Json.asText)
      <*> fs.optional ["issues"] [] (Json.asList Issue.read)

def write (nulls : Nulls) (r : GraphReport) : Json :=
  writeRecord nulls
    [Entry.always "valid" (.bool r.valid), Entry.always "errors" (Json.ofStrings r.errors),
     Entry.always "issues" (.arr (r.issues.map (Issue.write nulls)))]

instance : Record GraphReport where
  title := "GraphValidationResult"
  read _ := read
  write := write
  parts r := r.errors.map .str ++ r.issues.flatMap Record.parts

/-- A report is valid when nothing was found. -/
def ofErrors (errors : List String) : GraphReport := ⟨errors.isEmpty, errors, []⟩

def ofIssues (issues : List Issue) : GraphReport :=
  ⟨issues.isEmpty, issues.map (·.message), issues⟩

end GraphReport

structure NodeReport where
  nodeId : String
  nodeName : String
  nodeType : String
  errors : List String
deriving DecidableEq

namespace NodeReport

def read : Json → Checked NodeReport :=
  Json.asRecord fun fs =>
    mk <$> fs.required ["nodeId", "node_id"] Json.asText
      <*> fs.required ["nodeName", "node_name"] Json.asText
      <*> fs.required ["nodeType", "node_type"] Json.asText
      <*> fs.optional ["errors"] [] (Json.asList Json.asText)

def write (nulls : Nulls) (r : NodeReport) : Json :=
  writeRecord nulls
    [Entry.text "nodeId" r.nodeId, Entry.text "nodeName" r.nodeName,
     Entry.text "nodeType" r.nodeType, Entry.always "errors" (Json.ofStrings r.errors)]

instance : Record NodeReport where
  title := "NodeValidationError"
  read _ := read
  write := write
  parts r := ([r.nodeId, r.nodeName, r.nodeType] ++ r.errors).map .str

end NodeReport

structure WorkflowReport where
  valid : Bool
  nodeErrors : List NodeReport
deriving DecidableEq

namespace WorkflowReport

def read : Json → Checked WorkflowReport :=
  Json.asRecord fun fs =>
    mk <$> fs.required ["valid"] Json.asTruth
      <*> fs.optional ["nodeErrors", "node_errors"] [] (Json.asList NodeReport.read)

def write (nulls : Nulls) (r : WorkflowReport) : Json :=
  writeRecord nulls
    [Entry.always "valid" (.bool r.valid),
     Entry.always "nodeErrors" (.arr (r.nodeErrors.map (NodeReport.write nulls)))]

instance : Record WorkflowReport where
  title := "WorkflowValidationResult"
  read _ := read
  write := write
  parts r := r.nodeErrors.flatMap Record.parts

def errorCount (r : WorkflowReport) : Nat :=
  r.nodeErrors.foldl (fun count entry => count + entry.errors.length) 0

def lines (r : WorkflowReport) : List String :=
  "The following nodes have incomplete configuration:" ::
    r.nodeErrors.flatMap fun entry =>
      ("\n[" ++ entry.nodeName ++ "]") :: entry.errors.map ("  - " ++ ·)

/-- The findings as a message of several lines; a valid report has none. -/
def text (r : WorkflowReport) : String := if r.valid then "" else "\n".intercalate r.lines

end WorkflowReport
end WorkflowStudio
