import WorkflowStudio.Json.Pairs
import WorkflowStudio.Picker
import WorkflowStudio.Storage.FixedNode

/-!
The settings of the application, which are stored apart from the graph. The
application node is built from them, and its parameters are taken from it to be
stored with them.
-/
namespace WorkflowStudio

namespace AppSettings

/-- The settings with those under the name of the parameters lifted out. -/
def flatten (settings : Json) : Except Fault LooseFields := do
  let settings ← LooseFields.ofJson settings
  let nested : Option Json :=
    (settings.find? fun field => field.1 == Key.ofText "parameters").map (·.2)
  let outer := settings.filter fun field => field.1 != Key.ofText "parameters"
  LooseFields.addAll outer ((nested.getD .null).orElse (.obj []))

/-- The older list of global parameters is written only when it has entries. -/
def keepsField (config : AppInfoConfig) (name : String) : Bool :=
  !config.globalParams.isEmpty || (name != "globalParams" && name != "global_params")

def textSettings : List String := ["appName", "description", "icon", "prologue"]

/-- Missing texts are empty. -/
def fillTexts (fs : Fields) : Fields :=
  textSettings.foldl (fun fs name => if fs.has name then fs else fs.insert name (.str "")) fs

/-- The settings as fields of the application node. -/
def nodeFields (config : AppInfoConfig) : Fields :=
  match AppInfoConfig.write .dropped config with
  | .obj fields => fillTexts (fields.filter fun field => keepsField config field.1)
  | _ => []

end AppSettings

def appInfoId : String := "app-info"

/-- The application node for stored settings. -/
def Catalog.appInfoNode (c : Catalog) (settings : Json) : Except Fault Node := do
  let fields ← AppSettings.flatten settings
  let config ← (fields.asRecord : Checked AppInfoConfig).orFault (Record.title AppInfoConfig)
  Record.checkValue config
  return c.fixedNode appInfoId .appInfo (Position.ofInts 10 50) (AppSettings.nodeFields config)

/-- The parameters of a scope as they are stored. -/
def storedParams (appInfo : Option Node) (scope : Scope) : Except Fault (String × Json) := do
  let params ← (globalParams appInfo scope).mapM Record.exported
  return (scope.configKey, .arr params)

/-- The parameters of every scope, to be stored with the application. -/
def Graph.appParameters (g : Graph) : Except Fault (Option Fields) :=
  match g.appInfo? with
  | none => .ok none
  | some app => some <$> (Vocabulary.words : List Scope).mapM (storedParams (some app))

end WorkflowStudio
