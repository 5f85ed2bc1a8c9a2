import WorkflowStudio.Decimal.Numeral
import WorkflowStudio.Fault
import WorkflowStudio.Json.Writer

/-!
Values written out in messages and in logs. A whole number with too many digits
cannot be written, and a value that nests too deep cannot be named.
-/
namespace WorkflowStudio.Json

/-- Whether a whole number has more digits than can be written. -/
def isOverlong (n : Int) : Bool := Nat.pow 10 Numeral.digitLimit ≤ n.natAbs

mutual

/-- Whether a number somewhere in a value is too long to be written. -/
def holdsOverlong : Json → Bool
  | .int n => isOverlong n
  | .arr items => itemsHoldOverlong items
  | .obj fields => fieldsHoldOverlong fields
  | _ => false

def itemsHoldOverlong : List Json → Bool
  | [] => false
  | v :: rest => holdsOverlong v || itemsHoldOverlong rest

def fieldsHoldOverlong : List (String × Json) → Bool
  | [] => false
  | field :: rest => holdsOverlong field.2 || fieldsHoldOverlong rest

end

mutual

/-- What keeps a value from being named in a message, given the room there is for
values inside of values. -/
def nameFault? : Nat → Json → Option Fault
  | 0, _ => some .nameTooDeep
  | _ + 1, .int n => if isOverlong n then some .unwritableWhole else none
  | room + 1, .arr items => nameItemsFault? room items
  | room + 1, .obj fields => nameFieldsFault? room fields
  | _ + 1, _ => none

def nameItemsFault? (room : Nat) : List Json → Option Fault
  | [] => none
  | v :: rest => (nameFault? room v).or (nameItemsFault? room rest)

def nameFieldsFault? (room : Nat) : List (String × Json) → Option Fault
  | [] => none
  | field :: rest => (nameFault? room field.2).or (nameFieldsFault? room rest)

end

def checkDigits (v : Json) : Except Fault Unit :=
  if v.holdsOverlong then .error .unwritableWhole else .ok ()

/-- The text of a value inside a message, if it can be written. -/
def shown (v : Json) : Except Fault String := v.checkDigits.map fun _ => v.display

/-- The JSON text of a value, if it can be written. -/
def written (style : Style) (v : Json) : Except Fault String :=
  v.checkDigits.map fun _ => v.text style

end WorkflowStudio.Json
