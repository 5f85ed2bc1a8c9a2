import WorkflowStudio.Param
import WorkflowStudio.Text.Blank

/-!
Reference expressions. A dollar sign and braces enclose the name of a scope or
of a producing node, a point, and a key. The first point divides; a reserved
scope name always stands for the scope.
-/
namespace WorkflowStudio.Expression

def enclose (body : String) : String := "$\x7b" ++ body ++ "\x7d"

def isBrace (c : Char) : Bool := c == '{' || c == '}'

/-- What the braces of an expression enclose. -/
def body? (cs : List Char) : Option (List Char) :=
  match cs with
  | '$' :: '{' :: rest =>
      if rest.getLast? = some '}' then
        let body := rest.dropLast
        if body.isEmpty || body.any isBrace then none else some body
      else none
  | _ => none

/-- The parts before and after the first point; neither may be empty. -/
def divide (body : List Char) : Option (String × String) :=
  match body.span (· != '.') with
  | (source, '.' :: key) =>
      if source.isEmpty || key.isEmpty then none
      else some (String.ofList source, String.ofList key)
  | _ => none

def scope? (name : String) : Option Scope :=
  (Vocabulary.words : List Scope).find? fun scope => scope.referenceName == name

/-- The expression of a binding; an incomplete binding has none. -/
def ofBinding (b : ParamBinding) : Option String :=
  match b.resolveGlobal with
  | some (scope, key) =>
      if key.isEmpty then none else some (enclose (scope.referenceName ++ "." ++ key))
  | none =>
      match b.sourceParam with
      | some param =>
          if b.sourceKey.isEmpty || param.isEmpty then none
          else some (enclose (b.sourceKey ++ "." ++ param))
      | none => none

def binding (paramKey source key : String) : ParamBinding :=
  match scope? source with
  | some scope => ⟨paramKey, .global, scope.text, some key⟩
  | none => ⟨paramKey, .node, source, some key⟩

/-- The binding that an expression stands for; any other value has none. -/
def toBinding (paramKey : String) : Json → Option ParamBinding
  | .str s =>
      (body? (Text.strip s).toList).bind fun body =>
        (divide body).map fun (source, key) => binding paramKey source key
  | _ => none

/-- The binding of an input of unknown kind. An expression without a binding
leaves the input unread. -/
def readBinding (paramKey expression : Json) : Except Fault (Option ParamBinding) :=
  match toBinding "" expression with
  | none => .ok none
  | some b =>
      (((fun key source param => some ⟨key, b.sourceType, source, some param⟩)
        <$> paramKey.asText.inside (.field "param_key")
        <*> (Json.str b.sourceKey).asText.inside (.field "source_key")
        <*> (Json.str (b.sourceParam.getD "")).asText.inside (.field "source_param")).orFault
          (Record.title ParamBinding))

theorem toBinding_paramKey {paramKey : String} {v : Json} {b : ParamBinding}
    (h : toBinding paramKey v = some b) : b.paramKey = paramKey := by
  cases v with
  | str s =>
    simp only [toBinding, Option.bind_eq_some_iff, Option.map_eq_some_iff] at h
    obtain ⟨_, _, ⟨source, key⟩, _, rfl⟩ := h
    simp only [binding]
    split <;> rfl
  | _ => simp [toBinding] at h

end WorkflowStudio.Expression
