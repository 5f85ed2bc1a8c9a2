import WorkflowStudio.Json.Access
import WorkflowStudio.Log.Record
import WorkflowStudio.Settings

/-!
Setting up the log: a console, and a file that is rotated when it grows too
large. What the caller leaves open is taken from the settings.
-/
namespace WorkflowStudio

/-- What a caller asks for; null where it leaves something open. -/
structure LogRequest where
  level : Json
  file : Json
  service : Json
  json : Json

/-- What is taken where a caller leaves something open. -/
structure LogDefaults where
  debug : Json
  level : Json
  file : Json
  service : Json
  json : Json

def Settings.logDefaults (s : Settings) : LogDefaults :=
  ⟨.bool s.debug, .str s.logLevel, Json.ofOption .str s.logFile, .str s.projectName,
   .bool s.logJson⟩

/-- Where records go. -/
inductive LogTarget where
  | console
  | file (path : String)
deriving DecidableEq, Repr

structure LogHandler where
  target : LogTarget
  level : LogLevel
  form : LogForm
deriving DecidableEq, Repr

structure LogSetup where
  level : LogLevel
  handlers : List LogHandler
  /-- The number of lines that the setup itself has shown. -/
  announced : Nat
deriving DecidableEq, Repr

/-- The size in bytes at which a log file is rotated. -/
def rotationSize : Int := 5 * 1024 * 1024

/-- The number of rotated files that are kept. -/
def rotatedFiles : Int := 3

/-- Adds a part to the parts of a path, the last of which comes first. A step
upwards takes back the last part unless that is a step upwards too. -/
def addPart (kept : List String) (part : String) : List String :=
  if part = "" ∨ part = "." then kept
  else if part = ".." then
    match kept with
    | last :: rest => if last = ".." then part :: kept else rest
    | [] => [part]
  else part :: kept

/-- A path without empty parts, and without steps upwards where they can be
taken. -/
def normalPath (path : String) : String :=
  "/".intercalate ((path.splitOn "/").foldl addPart []).reverse

/-- A value that is not null, or another one. -/
def givenOr (given standard : Json) : Json := if given == .null then standard else given

/-- The level named by a text in any case. -/
def LogLevel.ofJson : Json → Except Fault LogLevel
  | .str name => LogLevel.ofName (Text.upper name)
  | v => .error (.noAttribute v "upper")

/-- The handler of a file, unless there is none. -/
def LogHandler.ofFile (service file : Json) : Except Fault (List LogHandler) :=
  match file with
  | .str path =>
      .ok (if path.isEmpty then [] else [⟨.file (normalPath path), LogLevel.debug, .json service⟩])
  | file => if file.isPresent then .error (.notPath file) else .ok []

/-- Characters that end a line and are written as they are. -/
def isPlainBreak (c : Char) : Bool := c = '\u0085' || c = '\u2028' || c = '\u2029'

def lineCount (text : String) : Nat := (text.toList.filter isPlainBreak).length + 1

/-- The number of lines of the record that the setup itself shows on the
console while debugging. A service that cannot be written leaves none. -/
def announcedLines (form : LogForm) (level : LogLevel) (file : Json) : Nat :=
  if LogLevel.debug < level then 0
  else match form with
    | .console => 1
    | .json service => ((Json.arr [service, file]).written Json.spaced).toOption.elim 0 lineCount

namespace LogRequest

/-- The handlers for a request. The console is coloured while debugging. -/
def setup (r : LogRequest) (d : LogDefaults) : Except Fault LogSetup := do
  let level ← LogLevel.ofJson (r.level.orElse d.level)
  let service := r.service.orElse d.service
  let form := if d.debug.isPresent || !(givenOr r.json d.json).isPresent then LogForm.console
    else .json service
  let file := givenOr r.file d.file
  return ⟨level, ⟨.console, level, form⟩ :: (← LogHandler.ofFile service file),
    announcedLines form level file⟩

end LogRequest
end WorkflowStudio
