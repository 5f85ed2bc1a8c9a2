import WorkflowStudio.Param

/-!
The description of one kind of node: how it is shown in the palette, and the
parameters it declares.
-/
namespace WorkflowStudio

structure NodeDefinition where
  nodeType : NodeType
  label : String
  icon : Option String
  color : Option String
  category : Option String
  description : Option String
  isSystem : Bool
  allowsCustomInputs : Bool
  allowsCustomOutputs : Bool
  inputs : List ParamDefinition
  outputs : List ParamDefinition
deriving DecidableEq

namespace NodeDefinition

def read : Json → Checked NodeDefinition :=
  Json.asRecord fun fs =>
    mk <$> fs.required ["nodeType", "node_type"] Vocabulary.read
      <*> fs.required ["nodeLabel", "node_label"] Json.asText
      <*> fs.optional ["nodeIcon", "node_icon"] none (Json.asOptional Json.asText)
      <*> fs.optional ["nodeColor", "node_color"] none (Json.asOptional Json.asText)
      <*> fs.optional ["category"] none (Json.asOptional Json.asText)
      <*> fs.optional ["description"] none (Json.asOptional Json.asText)
      <*> fs.optional ["isSystem", "is_system"] false Json.asTruth
      <*> fs.optional ["allowCustomInputParams", "allow_custom_input_params"] false Json.asTruth
      <*> fs.optional ["allowCustomOutputParams", "allow_custom_output_params"] false
        Json.asTruth
      <*> fs.optional ["inputParams", "input_params"] [] (Json.asList ParamDefinition.read)
      <*> fs.optional ["outputParams", "output_params"] [] (Json.asList ParamDefinition.read)

def write (nulls : Nulls) (d : NodeDefinition) : Json :=
  writeRecord nulls
    [Entry.text "nodeType" d.nodeType.text, Entry.text "nodeLabel" d.label,
     Entry.optionalText "nodeIcon" d.icon, Entry.optionalText "nodeColor" d.color,
     Entry.optionalText "category" d.category, Entry.optionalText "description" d.description,
     Entry.always "isSystem" (.bool d.isSystem),
     Entry.always "allowCustomInputParams" (.bool d.allowsCustomInputs),
     Entry.always "allowCustomOutputParams" (.bool d.allowsCustomOutputs),
     Entry.always "inputParams" (.arr (d.inputs.map (ParamDefinition.write nulls))),
     Entry.always "outputParams" (.arr (d.outputs.map (ParamDefinition.write nulls)))]

instance : Record NodeDefinition where
  title := "NodeDefinition"
  read _ := read
  write := write
  parts d :=
    [.str d.label, Json.ofOption .str d.icon, Json.ofOption .str d.color,
     Json.ofOption .str d.category, Json.ofOption .str d.description] ++
      (d.inputs ++ d.outputs).flatMap Record.parts

def requiredInputs (d : NodeDefinition) : List ParamDefinition := d.inputs.filter (·.required)

end NodeDefinition
end WorkflowStudio
