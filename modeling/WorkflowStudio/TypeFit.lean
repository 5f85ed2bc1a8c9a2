import WorkflowStudio.Vocabulary
import WorkflowStudio.Json.Display

/-!
How values of one declared type fit an input of another. Text carries any
scalar, while text fed into a narrower type may fail to convert. A type that is
empty or not known fits everything.
-/
namespace WorkflowStudio.TypeFit

def level : DataType → DataType → Fit
  | .string, .string => .compatible
  | .number, .string => .compatible
  | .boolean, .string => .compatible
  | .datetime, .string => .compatible
  | .object, .string => .incompatible
  | .array, .string => .incompatible
  | .string, _ => .conditional
  | .number, .number => .compatible
  | .number, .boolean => .conditional
  | .number, .datetime => .conditional
  | .boolean, .number => .conditional
  | .boolean, .boolean => .compatible
  | .object, .object => .compatible
  | .array, .array => .compatible
  | .datetime, .datetime => .compatible
  | _, _ => .incompatible

def known? (v : Json) : Option DataType :=
  if v.isPresent then Vocabulary.find? v.display else none

def check (source target : Json) : Fit :=
  match known? source, known? target with
  | some source, some target => level source target
  | _, _ => .compatible

def checkNames (source target : String) : Fit := check (.str source) (.str target)

def canConvert (source target : Json) : Bool := check source target != .incompatible

def isFull (source target : Json) : Bool := check source target == .compatible

/-- The warning for a pair; a full fit has none. -/
def message (source target : Json) : Option String :=
  match check source target with
  | .compatible => none
  | .conditional =>
      some ("Type " ++ source.display ++ " to " ++ target.display ++
        " conversion may fail, make sure the value has a compatible format")
  | .incompatible =>
      some ("Type " ++ source.display ++ " cannot be converted to " ++ target.display)

theorem level_self (t : DataType) : level t t = .compatible := by
  cases t <;> rfl

end WorkflowStudio.TypeFit
