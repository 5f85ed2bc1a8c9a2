import WorkflowStudio.Graph
import WorkflowStudio.Json.Order
import WorkflowStudio.Json.Shown

/-!
The settings of each kind of node. A node keeps its settings as plain fields;
these records give typed access to them and keep unknown fields as extras.
-/
namespace WorkflowStudio

/-- The name of one intent. A number counts by its text, and any other value
takes up a place with an empty name, so that later handles keep their index. -/
def coerceIntent : Json → String
  | .str s => s
  | .int n => Json.display (.int n)
  | .num x => Json.display (.num x)
  | _ => ""

/-- Whatever is no list declares no intents. -/
def coerceIntents : Json → List String
  | .arr items => items.map coerceIntent
  | _ => []

/-- Whether an intent is a number with more digits than can be written. -/
def isUnwritableIntent : Json → Bool
  | .int n => Json.isOverlong n
  | _ => false

/-- Whether a number among the intents cannot be written. -/
def holdsUnwritable : Json → Bool
  | .arr items => items.any isUnwritableIntent
  | _ => false

/-- Reads the names of intents. -/
def readIntents (v : Json) : Checked (List String) :=
  if holdsUnwritable v then .fail .rejected
  else (Json.ofStrings (coerceIntents v)).asList Json.asText

/-- Settings without any declared field. -/
structure PlainConfig where
  extras : Fields
deriving DecidableEq

namespace PlainConfig

def read : Json → Checked PlainConfig := Json.asRecord fun fs => pure ⟨fs.extras []⟩

def write (nulls : Nulls) (c : PlainConfig) : Json := writeRecord nulls (c.extras.map Entry.extra)

instance : Record PlainConfig := ⟨"NodeConfigBase", fun _ => read, write, (·.extras.parts)⟩

end PlainConfig

/-- The settings of a start node. -/
structure StartConfig where
  globalParams : List ParamDefinition
  extras : Fields
deriving DecidableEq

namespace StartConfig

def slots : List (List String) :=
  [["globalParams", "global_params"]]

def read : Json → Checked StartConfig :=
  Json.asRecord fun fs =>
    mk <$> fs.optional ["globalParams", "global_params"] [] (Json.asList ParamDefinition.read)
      <*> pure (fs.extras slots)

def write (nulls : Nulls) (c : StartConfig) : Json :=
  writeRecord nulls
    ([Entry.always "globalParams" (.arr (c.globalParams.map (ParamDefinition.write nulls)))] ++
      c.extras.map Entry.extra)

instance : Record StartConfig where
  title := "StartConfig"
  read _ := read
  write := write
  parts c := c.globalParams.flatMap Record.parts ++ c.extras.parts

end StartConfig

/-- The settings of a chat node. -/
structure LlmChatConfig where
  modelId : Option Reference
  systemPrompt : Option String
  userPrompt : Option String
  temperature : Option Double
  maxTokens : Option Int
  historyEnabled : Bool
  historyLimit : Option Int
  extras : Fields
deriving DecidableEq

namespace LlmChatConfig

def slots : List (List String) :=
  [["modelId", "model_id"], ["systemPrompt", "system_prompt"], ["userPrompt", "user_prompt"],
   ["temperature"], ["maxTokens", "max_tokens"], ["historyEnabled", "history_enabled"],
   ["historyLimit", "history_limit"]]

def read (medium : Medium) : Json → Checked LlmChatConfig :=
  Json.asRecord fun fs =>
    mk <$> fs.optional ["modelId", "model_id"] none (Json.asOptional Json.asReference)
      <*> fs.optional ["systemPrompt", "system_prompt"] none (Json.asOptional Json.asText)
      <*> fs.optional ["userPrompt", "user_prompt"] none (Json.asOptional Json.asText)
      <*> fs.optional ["temperature"] none (Json.asOptional (Json.asReal medium))
      <*> fs.optional ["maxTokens", "max_tokens"] none (Json.asOptional Json.asWhole)
      <*> fs.optional ["historyEnabled", "history_enabled"] false Json.asTruth
      <*> fs.optional ["historyLimit", "history_limit"] none (Json.asOptional Json.asWhole)
      <*> pure (fs.extras slots)

def write (nulls : Nulls) (c : LlmChatConfig) : Json :=
  writeRecord nulls
    ([Entry.optional "modelId" Reference.toJson c.modelId,
      Entry.optionalText "systemPrompt" c.systemPrompt,
      Entry.optionalText "userPrompt" c.userPrompt,
      Entry.optional "temperature" Json.num c.temperature,
      Entry.optional "maxTokens" Json.int c.maxTokens,
      Entry.always "historyEnabled" (.bool c.historyEnabled),
      Entry.optional "historyLimit" Json.int c.historyLimit] ++ c.extras.map Entry.extra)

instance : Record LlmChatConfig where
  title := "LlmChatConfig"
  read := read
  write := write
  parts c :=
    [Json.ofOption Reference.toJson c.modelId, Json.ofOption .str c.systemPrompt,
     Json.ofOption .str c.userPrompt] ++ c.extras.parts

end LlmChatConfig

/-- The settings of an intent classifier, which has one handle per intent. -/
structure IntentConfig where
  modelId : Option Reference
  intents : List String
  extras : Fields
deriving DecidableEq

namespace IntentConfig

def slots : List (List String) :=
  [["modelId", "model_id"], ["intents"]]

def read : Json → Checked IntentConfig :=
  Json.asRecord fun fs =>
    mk <$> fs.optional ["modelId", "model_id"] none (Json.asOptional Json.asReference)
      <*> fs.optional ["intents"] [] readIntents
      <*> pure (fs.extras slots)

def write (nulls : Nulls) (c : IntentConfig) : Json :=
  writeRecord nulls
    ([Entry.optional "modelId" Reference.toJson c.modelId,
      Entry.always "intents" (Json.ofStrings c.intents)] ++ c.extras.map Entry.extra)

instance : Record IntentConfig where
  title := "IntentClassifierConfig"
  read _ := read
  write := write
  parts c := [Json.ofOption Reference.toJson c.modelId] ++ c.intents.map .str ++ c.extras.parts

/-- The intent of a handle; an empty name is no intent. -/
def intentAt (c : IntentConfig) (index : Nat) : Option String :=
  match c.intents[index]? with
  | some name => if name.isEmpty then none else some name
  | none => none

/-- The intent at an index of unknown kind. A real number is only compared, so it
is at fault where it is within bounds. -/
def intentOfIndex (c : IntentConfig) (index : Json) : Except Fault (Option String) :=
  match index.amount? with
  | none => .error (.notComparable "<=" (.int 0) index)
  | some (.whole n) => .ok (if n < 0 then none else c.intentAt n.toNat)
  | some (.real x) =>
      if Amount.le (.whole 0) (.real x) && !Amount.le (.whole c.intents.length) (.real x) then
        .error (.indexRequired index)
      else .ok none

/-- The first place of a name. -/
def indexOf (c : IntentConfig) (name : String) : Option Nat := c.intents.idxOf? name

end IntentConfig

/-- One branch of a condition node. -/
structure ConditionBranch where
  name : String
  condition : Fields
  handleId : Option String
  targetNodeId : Option String
  extras : Fields
deriving DecidableEq

namespace ConditionBranch

def slots : List (List String) :=
  [["name"], ["condition"], ["handleId", "handle_id"], ["targetNodeId", "target_node_id"]]

def read : Json → Checked ConditionBranch :=
  Json.asRecord fun fs =>
    mk <$> fs.optional ["name"] "" Json.asText
      <*> fs.optional ["condition"] [] Json.asObject
      <*> fs.optional ["handleId", "handle_id"] none (Json.asOptional Json.asText)
      <*> fs.optional ["targetNodeId", "target_node_id"] none (Json.asOptional Json.asText)
      <*> pure (fs.extras slots)

def write (nulls : Nulls) (c : ConditionBranch) : Json :=
  writeRecord nulls
    ([Entry.text "name" c.name, Entry.always "condition" (.obj (Json.finiteFields c.condition)),
      Entry.optionalText "handleId" c.handleId, Entry.optionalText "targetNodeId" c.targetNodeId] ++
      c.extras.map Entry.extra)

instance : Record ConditionBranch where
  title := "ConditionBranch"
  read _ := read
  write := write
  parts c :=
    [.str c.name] ++ c.condition.parts ++
      [Json.ofOption .str c.handleId, Json.ofOption .str c.targetNodeId] ++ c.extras.parts

end ConditionBranch

/-- The settings of a condition node. -/
structure ConditionConfig where
  branches : List ConditionBranch
  hasDefaultBranch : Bool
  extras : Fields
deriving DecidableEq

namespace ConditionConfig

def slots : List (List String) :=
  [["branches"], ["hasDefaultBranch", "has_default_branch"]]

def read : Json → Checked ConditionConfig :=
  Json.asRecord fun fs =>
    mk <$> fs.optional ["branches"] [] (Json.asList ConditionBranch.read)
      <*> fs.optional ["hasDefaultBranch", "has_default_branch"] false Json.asTruth
      <*> pure (fs.extras slots)

def write (nulls : Nulls) (c : ConditionConfig) : Json :=
  writeRecord nulls
    ([Entry.always "branches" (.arr (c.branches.map (ConditionBranch.write nulls))),
      Entry.always "hasDefaultBranch" (.bool c.hasDefaultBranch)] ++ c.extras.map Entry.extra)

instance : Record ConditionConfig where
  title := "ConditionConfig"
  read _ := read
  write := write
  parts c := c.branches.flatMap Record.parts ++ c.extras.parts

end ConditionConfig

/-- The settings of a fixed response. -/
structure FixedResponseConfig where
  content : Option String
  extras : Fields
deriving DecidableEq

namespace FixedResponseConfig

def slots : List (List String) :=
  [["content"]]

def read : Json → Checked FixedResponseConfig :=
  Json.asRecord fun fs =>
    mk <$> fs.optional ["content"] none (Json.asOptional Json.asText)
      <*> pure (fs.extras slots)

def write (nulls : Nulls) (c : FixedResponseConfig) : Json :=
  writeRecord nulls
    ([Entry.optionalText "content" c.content] ++ c.extras.map Entry.extra)

instance : Record FixedResponseConfig where
  title := "FixedResponseConfig"
  read _ := read
  write := write
  parts c := [Json.ofOption .str c.content] ++ c.extras.parts

end FixedResponseConfig

/-- The settings of an end node. -/
structure EndConfig where
  isCustomResponse : Bool
  customResponse : Option String
  extras : Fields
deriving DecidableEq

namespace EndConfig

def slots : List (List String) :=
  [["isCustomResponse", "is_custom_response"], ["customResponse", "custom_response"]]

def read : Json → Checked EndConfig :=
  Json.asRecord fun fs =>
    mk <$> fs.optional ["isCustomResponse", "is_custom_response"] false Json.asTruth
      <*> fs.optional ["customResponse", "custom_response"] none (Json.asOptional Json.asText)
      <*> pure (fs.extras slots)

def write (nulls : Nulls) (c : EndConfig) : Json :=
  writeRecord nulls
    ([Entry.always "isCustomResponse" (.bool c.isCustomResponse),
      Entry.optionalText "customResponse" c.customResponse] ++ c.extras.map Entry.extra)

instance : Record EndConfig where
  title := "EndConfig"
  read _ := read
  write := write
  parts c := [Json.ofOption .str c.customResponse] ++ c.extras.parts

end EndConfig

/-- The settings of the application and the parameters of its scopes. The last list is
an older form of the first. -/
structure AppInfoConfig where
  appName : Option String
  description : Option String
  icon : Option String
  modelId : Option Reference
  prologue : Option String
  appParams : List ParamDefinition
  interfaceParams : List ParamDefinition
  sessionParams : List ParamDefinition
  globalParams : List ParamDefinition
  extras : Fields
deriving DecidableEq

namespace AppInfoConfig

def slots : List (List String) :=
  [["appName", "app_name"], ["description"], ["icon"], ["modelId", "model_id"], ["prologue"],
   ["appParams", "app_params"], ["interfaceParams", "interface_params"],
   ["sessionParams", "session_params"], ["globalParams", "global_params"]]

def read : Json → Checked AppInfoConfig :=
  Json.asRecord fun fs =>
    mk <$> fs.optional ["appName", "app_name"] none (Json.asOptional Json.asText)
      <*> fs.optional ["description"] none (Json.asOptional Json.asText)
      <*> fs.optional ["icon"] none (Json.asOptional Json.asText)
      <*> fs.optional ["modelId", "model_id"] none (Json.asOptional Json.asReference)
      <*> fs.optional ["prologue"] none (Json.asOptional Json.asText)
      <*> fs.optional ["appParams", "app_params"] [] (Json.asList ParamDefinition.read)
      <*> fs.optional ["interfaceParams", "interface_params"] []
        (Json.asList ParamDefinition.read)
      <*> fs.optional ["sessionParams", "session_params"] [] (Json.asList ParamDefinition.read)
      <*> fs.optional ["globalParams", "global_params"] [] (Json.asList ParamDefinition.read)
      <*> pure (fs.extras slots)

def write (nulls : Nulls) (c : AppInfoConfig) : Json :=
  writeRecord nulls
    ([Entry.optionalText "appName" c.appName, Entry.optionalText "description" c.description,
      Entry.optionalText "icon" c.icon, Entry.optional "modelId" Reference.toJson c.modelId,
      Entry.optionalText "prologue" c.prologue,
      Entry.always "appParams" (.arr (c.appParams.map (ParamDefinition.write nulls))),
      Entry.always "interfaceParams" (.arr (c.interfaceParams.map (ParamDefinition.write nulls))),
      Entry.always "sessionParams" (.arr (c.sessionParams.map (ParamDefinition.write nulls))),
      Entry.always "globalParams" (.arr (c.globalParams.map (ParamDefinition.write nulls)))] ++
      c.extras.map Entry.extra)

instance : Record AppInfoConfig where
  title := "AppInfoConfig"
  read _ := read
  write := write
  parts c :=
    [Json.ofOption .str c.appName, Json.ofOption .str c.description, Json.ofOption .str c.icon,
     Json.ofOption Reference.toJson c.modelId, Json.ofOption .str c.prologue] ++
      (c.appParams ++ c.interfaceParams ++ c.sessionParams ++ c.globalParams).flatMap
        Record.parts ++ c.extras.parts

end AppInfoConfig

/-- The settings of a database query. -/
structure DbQueryConfig where
  dataSourceId : Option Reference
  modelId : Option Reference
  maxRows : Int
  tableWhitelist : Option String
  tableBlacklist : Option String
  extras : Fields
deriving DecidableEq

namespace DbQueryConfig

def slots : List (List String) :=
  [["dataSourceId", "data_source_id"], ["modelId", "model_id"], ["maxRows", "max_rows"],
   ["tableWhitelist", "table_whitelist"], ["tableBlacklist", "table_blacklist"]]

def read : Json → Checked DbQueryConfig :=
  Json.asRecord fun fs =>
    mk <$> fs.optional ["dataSourceId", "data_source_id"] none (Json.asOptional Json.asReference)
      <*> fs.optional ["modelId", "model_id"] none (Json.asOptional Json.asReference)
      <*> fs.optional ["maxRows", "max_rows"] 100 Json.asWhole
      <*> fs.optional ["tableWhitelist", "table_whitelist"] none (Json.asOptional Json.asText)
      <*> fs.optional ["tableBlacklist", "table_blacklist"] none (Json.asOptional Json.asText)
      <*> pure (fs.extras slots)

def write (nulls : Nulls) (c : DbQueryConfig) : Json :=
  writeRecord nulls
    ([Entry.optional "dataSourceId" Reference.toJson c.dataSourceId,
      Entry.optional "modelId" Reference.toJson c.modelId,
      Entry.always "maxRows" (.int c.maxRows),
      Entry.optionalText "tableWhitelist" c.tableWhitelist,
      Entry.optionalText "tableBlacklist" c.tableBlacklist] ++ c.extras.map Entry.extra)

instance : Record DbQueryConfig where
  title := "DbQueryConfig"
  read _ := read
  write := write
  parts c :=
    [Json.ofOption Reference.toJson c.dataSourceId, Json.ofOption Reference.toJson c.modelId,
     Json.ofOption .str c.tableWhitelist, Json.ofOption .str c.tableBlacklist] ++ c.extras.parts

end DbQueryConfig

/-- The settings of a statement generator. -/
structure SqlGenerateConfig where
  dataSourceId : Option Reference
  modelId : Option Reference
  tableWhitelist : Option String
  tableBlacklist : Option String
  extras : Fields
deriving DecidableEq

namespace SqlGenerateConfig

def slots : List (List String) :=
  [["dataSourceId", "data_source_id"], ["modelId", "model_id"],
   ["tableWhitelist", "table_whitelist"], ["tableBlacklist", "table_blacklist"]]

def read : Json → Checked SqlGenerateConfig :=
  Json.asRecord fun fs =>
    mk <$> fs.optional ["dataSourceId", "data_source_id"] none (Json.asOptional Json.asReference)
      <*> fs.optional ["modelId", "model_id"] none (Json.asOptional Json.asReference)
      <*> fs.optional ["tableWhitelist", "table_whitelist"] none (Json.asOptional Json.asText)
      <*> fs.optional ["tableBlacklist", "table_blacklist"] none (Json.asOptional Json.asText)
      <*> pure (fs.extras slots)

def write (nulls : Nulls) (c : SqlGenerateConfig) : Json :=
  writeRecord nulls
    ([Entry.optional "dataSourceId" Reference.toJson c.dataSourceId,
      Entry.optional "modelId" Reference.toJson c.modelId,
      Entry.optionalText "tableWhitelist" c.tableWhitelist,
      Entry.optionalText "tableBlacklist" c.tableBlacklist] ++ c.extras.map Entry.extra)

instance : Record SqlGenerateConfig where
  title := "SqlGenerateConfig"
  read _ := read
  write := write
  parts c :=
    [Json.ofOption Reference.toJson c.dataSourceId, Json.ofOption Reference.toJson c.modelId,
     Json.ofOption .str c.tableWhitelist, Json.ofOption .str c.tableBlacklist] ++ c.extras.parts

end SqlGenerateConfig

/-- The settings of a statement runner. -/
structure SqlExecuteConfig where
  dataSourceId : Option Reference
  maxRows : Int
  extras : Fields
deriving DecidableEq

namespace SqlExecuteConfig

def slots : List (List String) :=
  [["dataSourceId", "data_source_id"], ["maxRows", "max_rows"]]

def read : Json → Checked SqlExecuteConfig :=
  Json.asRecord fun fs =>
    mk <$> fs.optional ["dataSourceId", "data_source_id"] none (Json.asOptional Json.asReference)
      <*> fs.optional ["maxRows", "max_rows"] 100 Json.asWhole
      <*> pure (fs.extras slots)

def write (nulls : Nulls) (c : SqlExecuteConfig) : Json :=
  writeRecord nulls
    ([Entry.optional "dataSourceId" Reference.toJson c.dataSourceId,
      Entry.always "maxRows" (.int c.maxRows)] ++ c.extras.map Entry.extra)

instance : Record SqlExecuteConfig where
  title := "SqlExecuteConfig"
  read _ := read
  write := write
  parts c := [Json.ofOption Reference.toJson c.dataSourceId] ++ c.extras.parts

end SqlExecuteConfig

/-- The settings of a document retrieval. -/
structure KnowledgeConfig where
  kbIds : List Int
  datasetIds : List Int
  topK : Int
  threshold : Double
  mode : String
  enableRerank : Bool
  emptyResponse : Option String
  extras : Fields
deriving DecidableEq

namespace KnowledgeConfig

def slots : List (List String) :=
  [["kbIds", "kb_ids"], ["datasetIds", "dataset_ids"], ["topK", "top_k"], ["threshold"],
   ["mode"], ["enableRerank", "enable_rerank"], ["emptyResponse", "empty_response"]]

def read (medium : Medium) : Json → Checked KnowledgeConfig :=
  Json.asRecord fun fs =>
    mk <$> fs.optional ["kbIds", "kb_ids"] [] (Json.asList Json.asWhole)
      <*> fs.optional ["datasetIds", "dataset_ids"] [] (Json.asList Json.asWhole)
      <*> fs.optional ["topK", "top_k"] 5 Json.asWhole
      <*> fs.optional ["threshold"] (Double.ofRatio false 1 2) (Json.asReal medium)
      <*> fs.optional ["mode"] "VECTOR" Json.asText
      <*> fs.optional ["enableRerank", "enable_rerank"] false Json.asTruth
      <*> fs.optional ["emptyResponse", "empty_response"] none (Json.asOptional Json.asText)
      <*> pure (fs.extras slots)

def write (nulls : Nulls) (c : KnowledgeConfig) : Json :=
  writeRecord nulls
    ([Entry.always "kbIds" (.arr (c.kbIds.map Json.int)),
      Entry.always "datasetIds" (.arr (c.datasetIds.map Json.int)),
      Entry.always "topK" (.int c.topK), Entry.always "threshold" (.num c.threshold),
      Entry.text "mode" c.mode, Entry.always "enableRerank" (.bool c.enableRerank),
      Entry.optionalText "emptyResponse" c.emptyResponse] ++ c.extras.map Entry.extra)

instance : Record KnowledgeConfig where
  title := "KnowledgeRetrievalConfig"
  read := read
  write := write
  parts c := [.str c.mode, Json.ofOption .str c.emptyResponse] ++ c.extras.parts

end KnowledgeConfig

/-- The settings of a node in the record of its kind. -/
inductive NodeConfig where
  | start (c : StartConfig)
  | finish (c : EndConfig)
  | llmChat (c : LlmChatConfig)
  | intentClassifier (c : IntentConfig)
  | condition (c : ConditionConfig)
  | fixedResponse (c : FixedResponseConfig)
  | dbQuery (c : DbQueryConfig)
  | sqlGenerate (c : SqlGenerateConfig)
  | sqlExecute (c : SqlExecuteConfig)
  | knowledgeRetrieval (c : KnowledgeConfig)
  | appInfo (c : AppInfoConfig)

namespace NodeConfig

def title : NodeType → String
  | .start => "StartConfig"
  | .finish => "EndConfig"
  | .llmChat => "LlmChatConfig"
  | .intentClassifier => "IntentClassifierConfig"
  | .condition => "ConditionConfig"
  | .fixedResponse => "FixedResponseConfig"
  | .dbQuery => "DbQueryConfig"
  | .sqlGenerate => "SqlGenerateConfig"
  | .sqlExecute => "SqlExecuteConfig"
  | .knowledgeRetrieval => "KnowledgeRetrievalConfig"
  | .appInfo => "AppInfoConfig"

def read (type : NodeType) (v : Json) : Checked NodeConfig :=
  match type with
  | .start => start <$> StartConfig.read v
  | .finish => finish <$> EndConfig.read v
  | .llmChat => llmChat <$> LlmChatConfig.read .value v
  | .intentClassifier => intentClassifier <$> IntentConfig.read v
  | .condition => condition <$> ConditionConfig.read v
  | .fixedResponse => fixedResponse <$> FixedResponseConfig.read v
  | .dbQuery => dbQuery <$> DbQueryConfig.read v
  | .sqlGenerate => sqlGenerate <$> SqlGenerateConfig.read v
  | .sqlExecute => sqlExecute <$> SqlExecuteConfig.read v
  | .knowledgeRetrieval => knowledgeRetrieval <$> KnowledgeConfig.read .value v
  | .appInfo => appInfo <$> AppInfoConfig.read v

/-- The stored text of settings that can be written. -/
def stored : NodeConfig → Except Fault String
  | .start c => Record.stored c
  | .finish c => Record.stored c
  | .llmChat c => Record.stored c
  | .intentClassifier c => Record.stored c
  | .condition c => Record.stored c
  | .fixedResponse c => Record.stored c
  | .dbQuery c => Record.stored c
  | .sqlGenerate c => Record.stored c
  | .sqlExecute c => Record.stored c
  | .knowledgeRetrieval c => Record.stored c
  | .appInfo c => Record.stored c

/-- Reads the settings of a node by the spelling of its kind. Settings that are
not present are read as empty. -/
def parse (type : Json) (settings : Json) : Except Fault (NodeType × NodeConfig) :=
  match Vocabulary.ofJson? type with
  | none => .error (.notMember type (Vocabulary.title NodeType))
  | some type =>
      (read type (if settings.isPresent then settings else .obj [])).orFault (title type) |>.map
        (type, ·)

end NodeConfig
end WorkflowStudio
