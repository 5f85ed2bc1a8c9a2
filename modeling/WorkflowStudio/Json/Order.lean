import WorkflowStudio.Json.Basic
import WorkflowStudio.Decimal.Amount

/-!
Two coarser equalities of values. One ignores the order of fields and keeps
whole and real numbers apart. The other compares numbers and truth values by
their amount and fields by name.
-/
namespace WorkflowStudio.Json

def insertSorted (name : String) (value : Json) : List (String × Json) → List (String × Json)
  | [] => [(name, value)]
  | field :: rest =>
      if name < field.1 then (name, value) :: field :: rest
      else field :: insertSorted name value rest

mutual

/-- Orders the fields by name at every depth. -/
def sorted : Json → Json
  | .arr items => .arr (sortedItems items)
  | .obj fields => .obj (sortedFields fields)
  | v => v

def sortedItems : List Json → List Json
  | [] => []
  | v :: rest => sorted v :: sortedItems rest

def sortedFields : List (String × Json) → List (String × Json)
  | [] => []
  | (name, v) :: rest => insertSorted name (sorted v) (sortedFields rest)

end

/-- Equality up to the order of fields. -/
def alike (a b : Json) : Bool := sorted a == sorted b

/-- The amount of a number or truth value. -/
def amount? : Json → Option Amount
  | .bool b => some (.whole (if b then 1 else 0))
  | .int n => some (.whole n)
  | .num x => some (.real x)
  | _ => none

def areNaN : Json → Json → Bool
  | .num x, .num y => x.isNaN && y.isNaN
  | _, _ => false

mutual

/-- Equality that compares amounts. A NaN equals a NaN only inside a list or an
object. -/
def equal : Json → Json → Bool
  | .null, b => b == .null
  | .str s, b => b == .str s
  | .arr as, b => match b with
      | .arr bs => equalItems as bs
      | _ => false
  | .obj as, b => match b with
      | .obj bs => as.length == bs.length && equalFields as bs
      | _ => false
  | .bool p, b => match b.amount? with
      | some n => Amount.equal (.whole (if p then 1 else 0)) n
      | none => false
  | .int m, b => match b.amount? with
      | some n => Amount.equal (.whole m) n
      | none => false
  | .num x, b => match b.amount? with
      | some n => Amount.equal (.real x) n
      | none => false

def equalItems : List Json → List Json → Bool
  | [], bs => bs.isEmpty
  | a :: as, bs => match bs with
      | b :: bs => (areNaN a b || equal a b) && equalItems as bs
      | [] => false

/-- Whether every field has an equal one of its name in the second list. -/
def equalFields : List (String × Json) → List (String × Json) → Bool
  | [], _ => true
  | (name, a) :: rest, bs => (match Fields.get? bs name with
      | some b => areNaN a b || equal a b
      | none => false) && equalFields rest bs

end

end WorkflowStudio.Json
