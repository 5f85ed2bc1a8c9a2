import WorkflowStudio.Json.Arithmetic
import WorkflowStudio.Reading.Record
import WorkflowStudio.Text.Upper

/-!
The settings of the program. Each one is taken from the given values, else from
the environment, else it has its standard value. Unknown names are ignored.
-/
namespace WorkflowStudio

structure Settings where
  projectName : String
  debug : Bool
  historyLimit : Int
  quietPeriod : Double
  gridOrigin : Int
  columnSpacing : Int
  rowSpacing : Int
  logLevel : String
  logFile : Option String
  logJson : Bool
deriving DecidableEq

namespace Settings

def title : String := "Settings"

def standard : Settings where
  projectName := "FlowCanvas"
  debug := false
  historyLimit := 50
  quietPeriod := Double.ofInt 1
  gridOrigin := 50
  columnSpacing := 250
  rowSpacing := 150
  logLevel := "INFO"
  logFile := none
  logJson := true

/-- A whole number. Values that are no numbers at all, and numbers beyond all
bounds, are faults, and other ones are rejected. -/
def wholeOf (v : Json) : Except Fault (Checked Int) :=
  match v.toWhole with
  | .ok n => .ok (.ok n)
  | .error (.notNumeric v) => .error (.notNumeric v)
  | .error (.notFiniteWhole false) => .error (.notFiniteWhole false)
  | .error _ => .ok (.fail .rejected)

/-- At least one entry is kept. -/
def historyLimitOf (v : Json) : Except Fault (Checked Int) :=
  (wholeOf v).map fun n => max 1 <$> n

/-- The name of a level in capitals. -/
def levelNameOf (v : Json) : Checked String := .ok (Text.upper (Text.strip v.display))

def readWith (fs : Fields) (historyLimit : Checked Int) : Checked Settings :=
  mk <$> fs.optional ["PROJECT_NAME"] standard.projectName Json.asText
    <*> fs.optional ["DEBUG"] standard.debug Json.asTruth
    <*> historyLimit.inside (.field "HISTORY_MAX_ENTRIES")
    <*> fs.optional ["HISTORY_DEBOUNCE_SECONDS"] standard.quietPeriod (Json.asReal .value)
    <*> fs.optional ["DSL_LAYOUT_ORIGIN"] standard.gridOrigin Json.asWhole
    <*> fs.optional ["DSL_LAYOUT_COLUMN_SPACING"] standard.columnSpacing Json.asWhole
    <*> fs.optional ["DSL_LAYOUT_ROW_SPACING"] standard.rowSpacing Json.asWhole
    <*> fs.optional ["LOG_LEVEL"] standard.logLevel levelNameOf
    <*> fs.optional ["LOG_FILE"] standard.logFile (Json.asOptional Json.asText)
    <*> fs.optional ["LOG_JSON_FORMAT"] standard.logJson Json.asTruth

/-- Reads settings. A limit that is no number at all is a fault before any
problem is reported. -/
def load (environment given : Fields) : Except Fault Settings := do
  let fs := Fields.merge environment given
  let historyLimit ← match fs.get? "HISTORY_MAX_ENTRIES" with
    | some v => historyLimitOf v
    | none => .ok (.ok standard.historyLimit)
  (readWith fs historyLimit).orFault title

def fields (s : Settings) : Fields :=
  [("PROJECT_NAME", .str s.projectName),
   ("DEBUG", .bool s.debug),
   ("HISTORY_MAX_ENTRIES", .int s.historyLimit),
   ("HISTORY_DEBOUNCE_SECONDS", .num s.quietPeriod),
   ("DSL_LAYOUT_ORIGIN", .int s.gridOrigin),
   ("DSL_LAYOUT_COLUMN_SPACING", .int s.columnSpacing),
   ("DSL_LAYOUT_ROW_SPACING", .int s.rowSpacing),
   ("LOG_LEVEL", .str s.logLevel),
   ("LOG_FILE", Json.ofOption .str s.logFile),
   ("LOG_JSON_FORMAT", .bool s.logJson)]

end Settings
end WorkflowStudio
