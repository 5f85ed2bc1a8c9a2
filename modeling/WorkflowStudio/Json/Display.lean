import WorkflowStudio.Json.Basic
import WorkflowStudio.Decimal.Layout
import WorkflowStudio.Text.Quoted

/-!
The text of a value inside a message. A text stands for itself at the top and
is quoted inside a list or an object.
-/
namespace WorkflowStudio.Json

mutual

/-- The form in which a value is named. -/
def named : Json → String
  | .null => "None"
  | .bool b => if b then "True" else "False"
  | .int n => Decimal.intText n
  | .num x => Decimal.displayed.text x
  | .str s => Text.quoted s
  | .arr items => "[" ++ namedItems items ++ "]"
  | .obj fields => "\x7b" ++ namedFields fields ++ "\x7d"

def namedItems : List Json → String
  | [] => ""
  | [item] => named item
  | item :: rest => named item ++ ", " ++ namedItems rest

def namedFields : List (String × Json) → String
  | [] => ""
  | [(name, value)] => Text.quoted name ++ ": " ++ named value
  | (name, value) :: rest =>
      Text.quoted name ++ ": " ++ named value ++ ", " ++ namedFields rest

end

def display : Json → String
  | .str s => s
  | v => named v

/-- The word for the kind of a value. -/
def kindName : Json → String
  | .null => "NoneType"
  | .bool _ => "bool"
  | .int _ => "int"
  | .num _ => "float"
  | .str _ => "str"
  | .arr _ => "list"
  | .obj _ => "dict"

end WorkflowStudio.Json
