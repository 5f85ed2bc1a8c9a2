import WorkflowStudio.NodeConfig

/-!
Guards of edges. Only an intent classifier guards its edges: each handle of it
stands for the fallback or for one of its intents, and the guard names that
intent. A guard can be traced back to the first handle that gives it.
-/
namespace WorkflowStudio.Guard

def elseHandle : String := "else"

def intentHandle (index : Nat) : String := "intent-" ++ toString index

def ofIntent (name : String) : String := "intent == '" ++ name ++ "'"

def dropPart : List Char → List Char → Option (List Char)
  | [], rest => some rest
  | c :: part, d :: rest => if c = d then dropPart part rest else none
  | _ :: _, [] => none

/-- Leaves out one line break at the end. -/
def dropLineEnd (cs : List Char) : List Char :=
  if cs.getLast? = some '\n' then cs.dropLast else cs

/-- The digits of an intent handle. -/
def handleDigits? (handle : String) : Option (List Char) :=
  (dropPart "intent-".toList handle.toList).bind fun rest =>
    let digits := dropLineEnd rest
    if !digits.isEmpty && digits.all Text.isDigit then some digits else none

/-- The settings of an intent classifier, when they can be read. -/
def intentConfig? (node : Node) : Option IntentConfig := (IntentConfig.read (.obj node.config)).ok?

/-- The guard that a handle of a node stands for, given the kind of the node and
its settings as those of an intent classifier. -/
def ofHandle (type : NodeType) (config : Option IntentConfig) (handle : String) :
    Except Fault (Option String) :=
  if type ≠ .intentClassifier ∨ handle.isEmpty then .ok none
  else if handle = elseHandle then .ok (some (ofIntent elseHandle))
  else
    match handleDigits? handle, config with
    | some digits, some config =>
        if Numeral.digitLimit < digits.length then .error (.tooManyDigits digits.length)
        else .ok ((config.intentAt (Text.digitsValue digits)).map ofIntent)
    | _, _ => .ok none

/-- The guard that a handle of unknown kind stands for. Only an intent classifier
looks at its handles, and only at those that are present. -/
def ofAnyHandle (type : NodeType) (config : Option IntentConfig) :
    Json → Except Fault (Option String)
  | .str handle => ofHandle type config handle
  | v => if v.isPresent && type == .intentClassifier then .error (.notText v) else .ok none

/-- The guard of an edge that leaves a node through a handle. -/
def derive (source : Node) (handle : Option String) : Except Fault (Option String) :=
  ofHandle source.nodeType (intentConfig? source) (handle.getD "")

/-- The guard of an edge that leaves a node through a handle of unknown kind. -/
def deriveFrom (source : Node) (handle : Json) : Except Fault (Option String) :=
  ofAnyHandle source.nodeType (intentConfig? source) handle

def skipBlank (cs : List Char) : List Char := cs.dropWhile Text.isBlank

/-- The name between the quotes of a guard, which holds no line break. -/
def intentOf? (guardText : String) : Option String :=
  (dropPart "intent".toList (skipBlank guardText.toList)).bind fun rest =>
    (dropPart "==".toList (skipBlank rest)).bind fun rest =>
      (dropPart ['\''] (skipBlank rest)).bind fun rest =>
        match skipBlank rest.reverse with
        | '\'' :: name => if name.contains '\n' then none else some (String.ofList name.reverse)
        | _ => none

/-- The handle that a guard was derived from. -/
def recoverHandle (source : Option Node) (condition : Option String) : Option String :=
  match source, condition with
  | some source, some condition =>
      if condition.isEmpty ∨ source.nodeType ≠ .intentClassifier then none
      else
        (intentOf? condition).bind fun name =>
          if name = elseHandle then some elseHandle
          else (intentConfig? source).bind fun config => (config.indexOf name).map intentHandle
  | _, _ => none

/-- The handle that a guard of unknown kind was derived from. -/
def recoverFrom (source : Option Node) : Json → Except Fault (Option String)
  | .str condition => .ok (recoverHandle source (some condition))
  | v => match source with
      | some source =>
          if v.isPresent && source.nodeType == .intentClassifier then .error (.notText v)
          else .ok none
      | none => .ok none

end WorkflowStudio.Guard
