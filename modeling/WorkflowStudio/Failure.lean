import WorkflowStudio.Fault
import WorkflowStudio.Json.Access
import WorkflowStudio.Json.Key

/-!
Failures to decode stored texts, as they are shown to a caller: a message, a
code and details. A caller may give any values for them.
-/
namespace WorkflowStudio

structure Failure where
  message : Json
  code : Json
  details : Json

namespace Failure

def text (f : Failure) : String := f.message.display

/-- A failure with the details given; details that are not present are empty. -/
def of (message code details : Json) : Failure := ⟨message, code, details.orElse (.obj [])⟩

def ofStored (what : StoredText) (reason : Json) : Failure :=
  ⟨.str (what.label ++ reason.display), .str what.code, .obj [("reason", reason)]⟩

def ofSnapshot (index reason : Json) : Failure :=
  ⟨.str ("Corrupt history snapshot at index " ++ index.display ++ ": " ++ reason.display),
   .str "SNAPSHOT_DECODE_FAILED", .obj [("index", index), ("reason", reason)]⟩

/-- A kind of failure, with the names of the arguments that it takes. -/
structure Kind where
  title : String
  required : List String
  optional : List String
  /-- The failure for the arguments in their order. -/
  make : List Json → Failure

/-- The kinds of failures: one for each text that may be undecodable, one for the
entries of a history, and one that says what it is told. -/
def kinds : List Kind :=
  [⟨"GraphDecodeError", ["reason"], [], fun args => ofStored .graph (args.getD 0 .null)⟩,
   ⟨"DslDecodeError", ["reason"], [], fun args => ofStored .document (args.getD 0 .null)⟩,
   ⟨"SnapshotDecodeError", ["index", "reason"], [],
    fun args => ofSnapshot (args.getD 0 .null) (args.getD 1 .null)⟩,
   ⟨"WorkflowError", ["message", "error_code"], ["details"],
    fun args => of (args.getD 0 .null) (args.getD 1 .null) (args.getD 2 .null)⟩]

namespace Kind

def find? (title : String) : Option Kind := kinds.find? (·.title == title)

/-- The failure of a kind, when it is given as many arguments as it takes. The
failure itself counts as one of them. -/
def apply (kind : Kind) (args : List Json) : Except Fault Failure :=
  let operation := kind.title ++ ".__init__"
  let least := kind.required.length
  let most := least + kind.optional.length
  if args.length < least then
    .error (.argumentsMissing operation (kind.required.drop args.length))
  else if most < args.length then
    .error (.tooManyArguments operation (least + 1) (most + 1) (args.length + 1))
  else .ok (kind.make args)

end Kind

/-- The failure of a kind that is given by its name. -/
def ofArguments (kind : Json) (args : List Json) : Except Fault Failure := do
  (← kind.findIn Kind.find?).apply args

end Failure
end WorkflowStudio
