import WorkflowStudio.Reading.Record
import WorkflowStudio.Vocabulary

/-!
Parameters, the bindings that feed them, and the groups of parameters that a
binding may point at.
-/
namespace WorkflowStudio

/-- A declared input or output of a node or of a global scope. -/
structure ParamDefinition where
  key : String
  label : String
  type : String
  required : Bool
  defaultValue : Json
  description : Option String
deriving DecidableEq

namespace ParamDefinition

def read : Json → Checked ParamDefinition :=
  Json.asRecord fun fs =>
    mk <$> fs.optional ["key"] "" Json.asText
      <*> fs.optional ["label"] "" Json.asText
      <*> fs.optional ["type"] "string" Json.asText
      <*> fs.optional ["required"] false Json.asTruth
      <*> fs.optional ["defaultValue", "default_value"] .null Json.asAny
      <*> fs.optional ["description"] none (Json.asOptional Json.asText)

def write (nulls : Nulls) (p : ParamDefinition) : Json :=
  writeRecord nulls
    [Entry.text "key" p.key, Entry.text "label" p.label, Entry.text "type" p.type,
     Entry.always "required" (.bool p.required), Entry.untyped "defaultValue" p.defaultValue,
     Entry.optionalText "description" p.description]

instance : Record ParamDefinition where
  title := "ParamDefinition"
  read _ := read
  write := write
  parts p :=
    [.str p.key, .str p.label, .str p.type, p.defaultValue, Json.ofOption .str p.description]

end ParamDefinition

/-- Feeds one input of a node. A node source names the producing node and its
output; a global source names a scope and a parameter of it. -/
structure ParamBinding where
  paramKey : String
  sourceType : SourceType
  sourceKey : String
  sourceParam : Option String
deriving DecidableEq

namespace ParamBinding

def read : Json → Checked ParamBinding :=
  Json.asRecord fun fs =>
    mk <$> fs.required ["paramKey", "param_key"] Json.asText
      <*> fs.required ["sourceType", "source_type"] Vocabulary.read
      <*> fs.required ["sourceKey", "source_key"] Json.asText
      <*> fs.optional ["sourceParam", "source_param"] none (Json.asOptional Json.asText)

def write (nulls : Nulls) (b : ParamBinding) : Json :=
  writeRecord nulls
    [Entry.text "paramKey" b.paramKey, Entry.text "sourceType" b.sourceType.text,
     Entry.text "sourceKey" b.sourceKey, Entry.optionalText "sourceParam" b.sourceParam]

instance : Record ParamBinding where
  title := "ParamBinding"
  read _ := read
  write := write
  parts b := [.str b.paramKey, .str b.sourceKey, Json.ofOption .str b.sourceParam]

def isNodeSource (b : ParamBinding) : Bool := b.sourceType == .node

/-- The first of two texts that is not empty. -/
def orElse (s : Option String) (t : String) : String :=
  match s with
  | some s => if s.isEmpty then t else s
  | none => t

/-- The scope and key of a global binding. Older bindings spell the scope as
their type, or name an application parameter by their source key alone. -/
def resolveGlobal (b : ParamBinding) : Option (Scope × String) :=
  match b.sourceType with
  | .node => none
  | .interface => some (.interface, orElse b.sourceParam b.sourceKey)
  | .session => some (.session, orElse b.sourceParam b.sourceKey)
  | .global => match Vocabulary.find? b.sourceKey with
      | some scope => some (scope, b.sourceParam.getD "")
      | none => some (.app, b.sourceKey)

theorem resolveGlobal_eq_none_iff (b : ParamBinding) :
    b.resolveGlobal = none ↔ b.sourceType = .node := by
  unfold resolveGlobal
  cases b.sourceType <;> simp
  split <;> simp

end ParamBinding

/-- A named group of parameters offered to a parameter picker. -/
structure ParamSource where
  type : SourceType
  sourceKey : String
  sourceName : String
  params : List ParamDefinition
deriving DecidableEq

namespace ParamSource

def read : Json → Checked ParamSource :=
  Json.asRecord fun fs =>
    mk <$> fs.required ["type"] Vocabulary.read
      <*> fs.required ["sourceKey", "source_key"] Json.asText
      <*> fs.required ["sourceName", "source_name"] Json.asText
      <*> fs.optional ["params"] [] (Json.asList ParamDefinition.read)

def write (nulls : Nulls) (s : ParamSource) : Json :=
  writeRecord nulls
    [Entry.text "type" s.type.text, Entry.text "sourceKey" s.sourceKey,
     Entry.text "sourceName" s.sourceName,
     Entry.always "params" (.arr (s.params.map (ParamDefinition.write nulls)))]

instance : Record ParamSource where
  title := "ParamSource"
  read _ := read
  write := write
  parts s := [.str s.sourceKey, .str s.sourceName] ++ s.params.flatMap Record.parts

end ParamSource
end WorkflowStudio
