import WorkflowStudio.Json.Writer
import WorkflowStudio.Log.Level
import WorkflowStudio.Log.Moment
import WorkflowStudio.Log.Template

/-!
Log records and the two forms in which they are written: a JSON object for
machines and a coloured line for people. The coloured form changes the record
that it writes, and whoever writes the record next sees the change.
-/
namespace WorkflowStudio

/-- An error that was caught, by the name of its kind and what it tells. -/
structure LoggedError where
  kind : String
  detail : Json
deriving DecidableEq, Repr

namespace LoggedError

/-- The text of an error. A missing key is shown in quotes. -/
def text (e : LoggedError) : Except Fault String :=
  e.detail.checkDigits.map fun _ =>
    if e.kind = "KeyError" then e.detail.named else e.detail.display

/-- The line that tells an error, also one without a text of its own. -/
def line (e : LoggedError) : String :=
  match e.text with
  | .ok text => if text.isEmpty then e.kind else e.kind ++ ": " ++ text
  | .error _ => e.kind ++ ": <exception str() failed>"

def fields (e : LoggedError) : Except Fault Fields := do
  return [("type", .str e.kind), ("message", .str (← e.text)), ("traceback", .str e.line)]

end LoggedError

/-- A record. Whoever makes it may put values of any kind into it. -/
structure LogRecord where
  name : Json
  level : Json
  levelName : Json
  path : Json
  line : Json
  function : Json
  message : Json
  args : List Json
  created : Json
  /-- Missing where no scope and no caller has attached one. -/
  context : Option Json
  error : Option LoggedError
deriving DecidableEq

namespace LogRecord

/-- The message with its arguments filled in; without arguments it is taken as
it is. -/
def text (r : LogRecord) : Except Fault String := do
  let message ← r.message.shown
  if r.args.isEmpty then return message else Template.expand message r.args

def sourceFields (r : LogRecord) : Fields :=
  [("function", r.function), ("line", r.line), ("file", r.path)]

/-- The time of a record as a number. -/
def time (r : LogRecord) : Except Fault Amount :=
  match r.created.amount? with
  | some amount => .ok amount
  | none => .error (.notWholeTime r.created)

def exceptionFields (r : LogRecord) : Except Fault Fields :=
  match r.error with
  | some e => e.fields.map fun fs => [("exception", .obj fs)]
  | none => .ok []

/-- The record as an object. The place in the source is given for errors. -/
def fields (service : Json) (r : LogRecord) : Except Fault Fields := do
  let time ← (← r.time).recordTime
  let message ← r.text
  let exception ← r.exceptionFields
  let isError ← LogLevel.isError r.level
  return [("timestamp", .str time), ("level", r.levelName), ("logger", r.name),
      ("message", .str message), ("service", service)] ++
    (r.context.map fun v => ("context", v)).toList ++ exception ++
    (if isError then [("source", .obj r.sourceFields)] else [])

def resetColor : String := "\x1b[0m"

def levelColors : List (String × String) :=
  [("DEBUG", "\x1b[36m"), ("INFO", "\x1b[32m"), ("WARNING", "\x1b[33m"), ("ERROR", "\x1b[31m"),
   ("CRITICAL", "\x1b[41m")]

def colorOf (levelName : Json) : String :=
  ((levelColors.find? fun entry => Json.str entry.1 == levelName).map (·.2)).getD resetColor

/-- The name of the level in its colour. -/
def coloredLevel (r : LogRecord) : Except Fault String :=
  r.levelName.shown.map fun name => colorOf r.levelName ++ name ++ resetColor

/-- The message with a context behind it, unless the context is empty. -/
def messageWithContext (r : LogRecord) : Except Fault Json :=
  match r.context with
  | some v =>
      if v.isPresent then do
        return .str ((← r.message.shown) ++ " | Context: " ++ (← v.written Json.spacedAscii))
      else .ok r.message
  | none => .ok r.message

/-- Colours the level of a record and puts its context into its message. What comes
before a fault has happened to the record. -/
def highlight (r : LogRecord) : LogRecord × Except Fault Unit :=
  match r.coloredLevel with
  | .error fault => (r, .error fault)
  | .ok level =>
      let colored := { r with levelName := .str level }
      match colored.messageWithContext with
      | .error fault => (colored, .error fault)
      | .ok message => ({ colored with message := message }, .ok ())

/-- A new line follows only where the text does not end with one. -/
def appendLine (text line : String) : String :=
  text ++ (if text.toList.getLast? = some '\n' then "" else "\n") ++ line

def plainLine (r : LogRecord) : Except Fault String := do
  let message ← r.text
  let time ← (← r.time).lineTime
  let name ← r.name.shown
  let level ← r.levelName.shown
  let line := time ++ " - " ++ name ++ " - " ++ level ++ " - " ++ message
  return match r.error with
    | some e => appendLine line e.line
    | none => line

end LogRecord

/-- A form in which records are written. -/
inductive LogForm where
  | json (service : Json)
  | console
deriving DecidableEq, Repr

namespace LogForm

/-- Writes a record and returns it as it is left. -/
def write (form : LogForm) (r : LogRecord) : LogRecord × Except Fault String :=
  match form with
  | .json service =>
      (r, (r.fields service).bind fun fields => (Json.obj fields).written Json.spaced)
  | .console => match r.highlight with
      | (left, .ok _) => (left, left.plainLine)
      | (left, .error fault) => (left, .error fault)

end LogForm
end WorkflowStudio
