import WorkflowStudio.Catalog.Definition

/-!
The definitions that hold when no registry was loaded.
-/
namespace WorkflowStudio.NodeDefinition

def param (type : DataType) (required : Bool) (key label : String) : ParamDefinition :=
  ⟨key, label, type.text, required, .null, none⟩

def needed : String → String → ParamDefinition := param .string true

def spare : String → String → ParamDefinition := param .string false

def builtIn : List NodeDefinition :=
  [{ nodeType := .appInfo
     label := "App Info"
     icon := some "mdi:information-outline"
     color := some "#64748b"
     category := some "basic"
     description := some "Application settings and global parameters"
     isSystem := true
     allowsCustomInputs := false
     allowsCustomOutputs := false
     inputs := []
     outputs := [] },
   { nodeType := .start
     label := "Start"
     icon := some "mdi:play-circle-outline"
     color := some "#22c55e"
     category := some "basic"
     description := some "Workflow entry point"
     isSystem := true
     allowsCustomInputs := false
     allowsCustomOutputs := false
     inputs := []
     outputs :=
       [needed "userInput" "User Input", needed "sessionId" "Session ID",
        needed "userId" "User ID"] },
   { nodeType := .finish
     label := "End"
     icon := some "mdi:stop-circle-outline"
     color := some "#ef4444"
     category := some "basic"
     description := some "Workflow exit point"
     isSystem := true
     allowsCustomInputs := true
     allowsCustomOutputs := false
     inputs := [needed "finalOutput" "Final Output"]
     outputs := [] },
   { nodeType := .llmChat
     label := "LLM Chat"
     icon := some "mdi:robot-outline"
     color := some "#6366f1"
     category := some "ai"
     description := some "Call a large language model"
     isSystem := false
     allowsCustomInputs := true
     allowsCustomOutputs := true
     inputs :=
       [needed "prompt" "Prompt", spare "context" "Context", spare "systemPrompt" "System Prompt"]
     outputs := [needed "response" "Response", param .number true "tokens" "Tokens"] },
   { nodeType := .intentClassifier
     label := "Intent Classifier"
     icon := some "mdi:call-split"
     color := some "#f59e0b"
     category := some "ai"
     description := some "Route by the classified user intent"
     isSystem := false
     allowsCustomInputs := false
     allowsCustomOutputs := false
     inputs := [needed "text" "Text"]
     outputs := [needed "intent" "Intent", param .number true "confidence" "Confidence"] },
   { nodeType := .condition
     label := "Condition"
     icon := some "mdi:source-branch"
     color := some "#8b5cf6"
     category := some "logic"
     description := some "Branch on a condition"
     isSystem := false
     allowsCustomInputs := false
     allowsCustomOutputs := false
     inputs := [needed "value" "Value"]
     outputs := [param .boolean true "result" "Result", spare "matchedBranch" "Matched Branch"] },
   { nodeType := .fixedResponse
     label := "Fixed Response"
     icon := some "mdi:message-text-outline"
     color := some "#0ea5e9"
     category := some "basic"
     description := some "Reply with fixed content"
     isSystem := false
     allowsCustomInputs := false
     allowsCustomOutputs := true
     inputs := [spare "template" "Template"]
     outputs := [needed "response" "Response"] },
   { nodeType := .dbQuery
     label := "DB Query"
     icon := some "mdi:database-search-outline"
     color := some "#14b8a6"
     category := some "data"
     description := some "Answer a question from a database"
     isSystem := false
     allowsCustomInputs := false
     allowsCustomOutputs := false
     inputs := [needed "question" "Question"]
     outputs :=
       [param .array false "rows" "Rows", spare "sql" "SQL",
        param .number false "rowCount" "Row Count"] },
   { nodeType := .sqlGenerate
     label := "SQL Generate"
     icon := some "mdi:code-braces"
     color := some "#06b6d4"
     category := some "data"
     description := some "Generate SQL from a question"
     isSystem := false
     allowsCustomInputs := false
     allowsCustomOutputs := false
     inputs := [needed "question" "Question"]
     outputs := [spare "sql" "SQL"] },
   { nodeType := .sqlExecute
     label := "SQL Execute"
     icon := some "mdi:database-arrow-right-outline"
     color := some "#0891b2"
     category := some "data"
     description := some "Execute a SQL statement"
     isSystem := false
     allowsCustomInputs := false
     allowsCustomOutputs := false
     inputs := [needed "sql" "SQL"]
     outputs := [param .array false "rows" "Rows", param .number false "rowCount" "Row Count"] },
   { nodeType := .knowledgeRetrieval
     label := "Knowledge Retrieval"
     icon := some "mdi:book-search-outline"
     color := some "#d946ef"
     category := some "data"
     description := some "Retrieve documents from knowledge bases"
     isSystem := false
     allowsCustomInputs := false
     allowsCustomOutputs := false
     inputs := [needed "query" "Query"]
     outputs := [param .array false "documents" "Documents", spare "context" "Context"] }]

end WorkflowStudio.NodeDefinition
