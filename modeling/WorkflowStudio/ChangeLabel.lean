import WorkflowStudio.Json.Access
import WorkflowStudio.Json.Display
import WorkflowStudio.Json.Order
import WorkflowStudio.Json.Reader
import WorkflowStudio.Param
import WorkflowStudio.Text.Blank

/-!
Labels for changes between two stored graphs. The first difference in a fixed
order gives the label: the number of nodes, the settings of a node, its own
parameters, its bindings, a parameter key filled in for the first time, the
number of edges, the guards. Graphs are compared as plain values, and graphs
that cannot be compared have no label.
-/
namespace WorkflowStudio.Change

/-- Missing when the values have no shape that can be compared; otherwise the
label of the first difference, if there is any. -/
abbrev Comparison := Option (Option String)

/-- The first difference that one of the items gives. -/
def firstOf {α : Type} (compare : α → Comparison) : List α → Comparison
  | [] => some none
  | item :: rest => match compare item with
      | some none => firstOf compare rest
      | result => result

/-- Continues only where no difference was found. -/
def orNext (first : Comparison) (next : Unit → Comparison) : Comparison :=
  match first with
  | some none => next ()
  | result => result

def maxLength : Nat := 20

/-- The short form of a setting. -/
def valueText : Json → String
  | .null => "empty"
  | .str s =>
      if s.isEmpty then "empty"
      else if maxLength < s.length then String.ofList (s.toList.take maxLength) ++ "..."
      else s
  | .bool b => if b then "true" else "false"
  | .arr items => toString items.length ++ "-item array"
  | .obj _ => "object value"
  | v =>
      let text := v.display
      if maxLength < text.length then String.ofList (text.toList.take maxLength) ++ "..."
      else text

/-- The first item with a field of the given value. -/
def findBy (name : String) (value : Json) : List Json → Option (Option Json)
  | [] => some none
  | item :: rest => (item.look name).bind fun found =>
      if found.equal value then some (some item) else findBy name value rest

def payload (node : Json) : Option Json := node.lookObject "data"

/-- The label of a node, under either of its names, or its id. -/
def nodeName (node : Json) : Option Json := do
  let data ← payload node
  let label ← data.look "nodeLabel"
  if label.isPresent then return label
  let label ← data.look "label"
  if label.isPresent then return label
  match node with
  | .obj fields => return (Fields.get? fields "id").getD (.str "")
  | _ => none

def titled (name : Json) (rest : String) : String := "[" ++ name.display ++ "] " ++ rest

def settingLabel (name : Json) (key : String) (old new : Json) : String :=
  match old, new with
  | .arr olds, .arr news =>
      if olds.length = news.length then
        titled name ("config [" ++ key ++ "] array items modified")
      else
        titled name ("config [" ++ key ++ "] count changed from [" ++ toString olds.length ++
          "] to [" ++ toString news.length ++ "]")
  | old, new =>
      titled name ("config [" ++ key ++ "] changed from [" ++ valueText old ++ "] to [" ++
        valueText new ++ "]")

/-- Whether an item can name a setting. -/
def isKey : Json → Bool
  | .arr _ => false
  | .obj _ => false
  | _ => true

def removedSetting (name : Json) (news : Fields) (key : Json) : Comparison :=
  if !isKey key then none
  else if (match key with
    | .str s => Fields.has news s
    | _ => false) then some none
  else some (some (titled name ("removed config [" ++ key.display ++ "]")))

def settingsChange (old new : Json) : Comparison := do
  let name ← nodeName new
  let newSettings ← (← payload new).lookObject "config"
  let oldSettings ← (← payload old).lookObject "config"
  match newSettings with
  | .obj news =>
      orNext
        (firstOf (fun field => (oldSettings.look field.1).bind fun oldValue =>
          if field.2.alike oldValue then some none
          else some (some (settingLabel name field.1 oldValue field.2))) news)
        fun _ => oldSettings.items?.bind (firstOf (removedSetting name news))
  | _ => none

/-- The outcome for a list of parameters: a label, or the label of a key that
was filled in for the first time, which counts less. -/
structure ParamChange where
  label : Option String
  keyLabel : Option String

/-- Compares two definitions of one place. -/
def definitionChange (word : String) (name : Json) (change : ParamChange) (old new : Json) :
    Option ParamChange := do
  let newKey := (← new.look "key").orElse (.str "")
  let oldKey := (← old.look "key").orElse (.str "")
  if newKey.equal oldKey then
    if new.alike old then return change
    let label := (← new.look "label").orElse (newKey.orElse (.str "unnamed"))
    return { change with
      label := some (titled name ("modified " ++ word ++ " [" ++ label.display ++ "] config")) }
  match oldKey with
  | .str s =>
      if Text.isAllBlank s then
        return { change with
          keyLabel := some (titled name ("set " ++ word ++ " key [" ++ newKey.display ++ "]")) }
      else
        return { change with
          label := some (titled name
            ("renamed " ++ word ++ " key [" ++ s ++ " -> " ++ newKey.display ++ "]")) }
  | _ => none

/-- Compares definitions place by place up to the first label. -/
def definitionsChange (word : String) (name : Json) (change : ParamChange) :
    List Json → List Json → Option ParamChange
  | old :: olds, new :: news =>
      (definitionChange word name change old new).bind fun change =>
        if change.label.isSome then some change
        else definitionsChange word name change olds news
  | _, _ => some change

def paramsChange (word : String) (name old new : Json) : Option ParamChange := do
  let news ← new.items?
  let olds ← old.items?
  if olds.length < news.length then return ⟨some (titled name ("added " ++ word)), none⟩
  if news.length < olds.length then return ⟨some (titled name ("removed " ++ word)), none⟩
  definitionsChange word name ⟨none, none⟩ olds news

/-- The graphs that a change leads from and to. -/
structure States where
  old : Json
  new : Json

/-- The nodes of a graph in which another node was found. -/
def nodesOf (state : Json) : Option (List Json) := (state.look "nodes").bind Json.items?

/-- The node with an id in the new graph, else in the old one. -/
def findNode (states : States) (id : String) : Option (Option Json) := do
  match ← findBy "id" (.str id) (← nodesOf states.new) with
  | some node => return some node
  | none => findBy "id" (.str id) (← nodesOf states.old)

def bindingText (states : States) (binding : Option Json) : Option String :=
  match binding.filter Json.isPresent with
  | none => some "empty"
  | some v => do
      let b ← (ParamBinding.read v).ok?
      match b.resolveGlobal with
      | some (scope, key) => return "[" ++ scope.referenceName ++ "." ++ key ++ "]"
      | none =>
          let name ← match ← findNode states b.sourceKey with
            | some node => nodeName node
            | none => some (.str b.sourceKey)
          return "[" ++ name.display ++ "." ++ b.sourceParam.getD "" ++ "]"

/-- The label of an input that a node declares itself, or the key of the input. -/
def inputName (node key : Json) : Option Json := do
  let declared ← ((← payload node).lookList "customInputParams").bind Json.items?
  match ← findBy "key" key declared with
  | some param =>
      let label ← param.look "label"
      return label.orElse key
  | none => return key

def bindingChange (states : States) (name node : Json) (olds : Json) (new : Json) :
    Comparison := do
  let key ← new.look "paramKey"
  let old ← findBy "paramKey" key (← olds.items?)
  if new.alike (old.getD .null) then return none
  let input ← inputName node key
  let before ← bindingText states old
  let after ← bindingText states (some new)
  return some (titled name ("input [" ++ input.display ++ "] changed from " ++ before ++ " to " ++
    after))

def bindingRemoval (name node : Json) (news : List Json) (old : Json) : Comparison := do
  let key ← old.look "paramKey"
  match ← findBy "paramKey" key news with
  | some _ => return none
  | none =>
      let input ← inputName node key
      return some (titled name ("removed input [" ++ input.display ++ "]"))

def bindingsChange (states : States) (name old new : Json) : Comparison := do
  let newBindings ← (← payload new).lookList "paramBindings"
  let oldBindings ← (← payload old).lookList "paramBindings"
  let news ← newBindings.items?
  orNext (firstOf (bindingChange states name new oldBindings) news) fun _ =>
    oldBindings.items?.bind (firstOf (bindingRemoval name old news))

/-- A key filled in for the first time counts only when nothing else changed. -/
def nodeChange (states : States) (old new : Json) : Comparison := do
  let name ← nodeName new
  orNext (settingsChange old new) fun _ => do
    let inputs ← paramsChange "custom input param" name
      (← (← payload old).lookList "customInputParams")
      (← (← payload new).lookList "customInputParams")
    if inputs.label.isSome then return inputs.label
    let outputs ← paramsChange "custom output param" name
      (← (← payload old).lookList "customOutputParams")
      (← (← payload new).lookList "customOutputParams")
    if outputs.label.isSome then return outputs.label
    orNext (bindingsChange states name old new) fun _ =>
      some (outputs.keyLabel.orElse fun _ => inputs.keyLabel)

/-- Compares a node or an edge with the one of its id, if there is any. -/
def matched (olds : List Json) (compare : Json → Json → Comparison) (new : Json) :
    Comparison := do
  let id ← new.look "id"
  match ← findBy "id" id olds with
  | some old => compare old new
  | none => return none

def guardChange (old new : Json) : Comparison := do
  let newGuard ← new.look "condition"
  let oldGuard ← old.look "condition"
  if newGuard.equal oldGuard then return none
  return some "Connection condition changed"

def edgesChange (states : States) : Comparison := do
  let olds ← (← states.old.lookList "edges").items?
  let news ← (← states.new.lookList "edges").items?
  if olds.length < news.length then return some "Add connection"
  if news.length < olds.length then return some "Delete connection"
  firstOf (matched olds guardChange) news

def compare (states : States) : Comparison := do
  let olds ← (← states.old.lookList "nodes").items?
  let news ← (← states.new.lookList "nodes").items?
  if olds.length < news.length then return some "Add node"
  if news.length < olds.length then return some "Delete node"
  orNext (firstOf (matched olds (nodeChange states)) news) fun _ => edgesChange states

/-- The label for the change between two graphs. -/
def label (old new : Json) : Option String := (compare ⟨old, new⟩).join

/-- A text stands for the value that it spells. -/
def load : Json → Option Json
  | .str text => Json.read? Json.lenient text
  | v => some v

/-- The label for the change between two graphs or their stored texts. -/
def describe (old new : Json) : Option String := do
  let old ← load old
  let new ← load new
  label old new

def describeTexts (old new : String) : Option String := describe (.str old) (.str new)

end WorkflowStudio.Change
