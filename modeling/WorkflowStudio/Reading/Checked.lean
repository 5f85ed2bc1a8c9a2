/-!
Reading with findings. A reader gives a value or the list of all problems it
met, each with the place it was met at. Readers of parts combine so that the
problems of every part are reported in the order of the parts.
-/
namespace WorkflowStudio

inductive Place where
  | field (name : String)
  | item (index : Nat)
deriving DecidableEq, Repr

def Place.text : Place → String
  | .field name => name
  | .item index => toString index

inductive Cause where
  | missing
  | notRecord
  | notList
  | notObject
  | notText
  | brokenText
  | textTooShort
  | notMember
  | notWhole
  | malformedWhole
  | fractional
  | wholeTooLarge
  | notFinite
  | notReal
  | malformedReal
  | notTruth
  | malformedTruth
  | notJson
  | malformedJson
  | frozen
  | rejected
  | badKey
deriving DecidableEq, Repr

/-- The word by which a problem is reported. -/
def Cause.code : Cause → String
  | .missing => "missing"
  | .notRecord => "model_type"
  | .notList => "list_type"
  | .notObject => "dict_type"
  | .notText => "string_type"
  | .brokenText => "string_unicode"
  | .textTooShort => "string_too_short"
  | .notMember => "enum"
  | .notWhole => "int_type"
  | .malformedWhole => "int_parsing"
  | .fractional => "int_from_float"
  | .wholeTooLarge => "int_parsing_size"
  | .notFinite => "finite_number"
  | .notReal => "float_type"
  | .malformedReal => "float_parsing"
  | .notTruth => "bool_type"
  | .malformedTruth => "bool_parsing"
  | .notJson => "json_type"
  | .malformedJson => "json_invalid"
  | .frozen => "frozen_field"
  | .rejected => "value_error"
  | .badKey => "invalid_key"

structure Problem where
  places : List Place
  cause : Cause
deriving DecidableEq, Repr

def Problem.text (p : Problem) : String :=
  ".".intercalate (p.places.map Place.text) ++ ": " ++ p.cause.code

inductive Checked (α : Type) where
  | ok (value : α)
  | bad (problems : List Problem)

namespace Checked

variable {α β : Type}

def fail (cause : Cause) : Checked α := .bad [⟨[], cause⟩]

def map (f : α → β) : Checked α → Checked β
  | .ok value => .ok (f value)
  | .bad problems => .bad problems

/-- Applies a read function to a read argument and keeps the problems of both. -/
def apply : Checked (α → β) → Checked α → Checked β
  | .ok f, .ok a => .ok (f a)
  | .ok _, .bad problems => .bad problems
  | .bad problems, .ok _ => .bad problems
  | .bad first, .bad second => .bad (first ++ second)

instance : Applicative Checked where
  pure := .ok
  map := map
  seq f a := apply f (a ())

/-- Continues with a reader that needs the value read so far. -/
def andThen (a : Checked α) (f : α → Checked β) : Checked β :=
  match a with
  | .ok value => f value
  | .bad problems => .bad problems

/-- Puts the problems of a part at its place. -/
def inside (place : Place) : Checked α → Checked α
  | .ok value => .ok value
  | .bad problems => .bad (problems.map fun p => { p with places := place :: p.places })

def ok? : Checked α → Option α
  | .ok value => some value
  | .bad _ => none

/-- Reads every item of a list from the given index on. -/
def eachFrom {γ : Type} (read : γ → Checked α) (index : Nat) : List γ → Checked (List α)
  | [] => .ok []
  | item :: rest =>
      List.cons <$> (read item).inside (.item index) <*> eachFrom read (index + 1) rest

def each {γ : Type} (read : γ → Checked α) (items : List γ) : Checked (List α) :=
  eachFrom read 0 items

theorem map_ok (f : α → β) (a : α) : f <$> Checked.ok a = Checked.ok (f a) := rfl

theorem seq_ok (f : α → β) (a : α) : Checked.ok f <*> Checked.ok a = Checked.ok (f a) := rfl

theorem inside_ok (place : Place) (a : α) : (Checked.ok a).inside place = .ok a := rfl

theorem eachFrom_ok {γ : Type} (read : γ → Checked α) (index : Nat) (items : List γ)
    (values : List α) (h : items.map read = values.map Checked.ok) :
    eachFrom read index items = .ok values := by
  induction items generalizing index values with
  | nil => cases values <;> simp_all [eachFrom]
  | cons item rest ih =>
    cases values with
    | nil => simp at h
    | cons value values =>
      simp only [List.map_cons, List.cons.injEq] at h
      rw [eachFrom, h.1, ih (index + 1) values h.2]
      rfl

end Checked
end WorkflowStudio
