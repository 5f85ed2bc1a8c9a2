import WorkflowStudio.Json.Order
import WorkflowStudio.Json.Shown

/-!
Log levels are whole numbers, some of which have names. A record is shown where
the level of the place is not above its own.
-/
namespace WorkflowStudio

abbrev LogLevel := Int

namespace LogLevel

def debug : LogLevel := 10
def info : LogLevel := 20
def error : LogLevel := 40

def names : List (LogLevel × String) :=
  [(50, "CRITICAL"), (error, "ERROR"), (30, "WARNING"), (info, "INFO"), (debug, "DEBUG"),
   (0, "NOTSET")]

/-- Further names by which a level can be asked for. -/
def aliases : List (LogLevel × String) := [(50, "FATAL"), (30, "WARN")]

/-- The plain layout of a line. Its name stands among those of the levels. -/
def lineLayout : String := "%(levelname)s:%(name)s:%(message)s"

/-- The styles of layouts, whose name stands among those of the levels too. -/
def layoutStyles : String :=
  "\x7b'%': (<class 'logging.PercentStyle'>, '" ++ lineLayout ++ "'), '\x7b': " ++
    "(<class 'logging.StrFormatStyle'>, '\x7blevelname\x7d:\x7bname\x7d:\x7bmessage\x7d'), " ++
    "'$': (<class 'logging.StringTemplateStyle'>, " ++
    "'$\x7blevelname\x7d:$\x7bname\x7d:$\x7bmessage\x7d')\x7d"

def level? (name : String) : Option LogLevel := ((names ++ aliases).find? (·.2 == name)).map (·.1)

def name? (level : Amount) : Option String :=
  (names.find? fun entry => Amount.equal (.whole entry.1) level).map (·.2)

/-- What a record calls its level. A level given by name is called by its
number. -/
def nameOf (level : Json) : Except Fault Json :=
  match level with
  | .arr _ => .error (.unhashable level)
  | .obj _ => .error (.unhashable level)
  | .str s => .ok (((level? s).map Json.int).getD (.str ("Level " ++ s)))
  | level => match level.amount?.bind name? with
      | some name => .ok (.str name)
      | none => do return .str ("Level " ++ (← level.shown))

/-- The level of a name in capitals. Unknown names stand for the level of
ordinary messages. -/
def ofName (name : String) : Except Fault LogLevel :=
  if name = "BASIC_FORMAT" then .error (.unknownLevel lineLayout)
  else if name = "_STYLES" then .error (.unusableLevel layoutStyles)
  else .ok ((level? name).getD info)

/-- Whether a level of unknown kind is that of an error. -/
def isError (level : Json) : Except Fault Bool :=
  match level.amount? with
  | some amount => .ok (Amount.le (.whole error) amount)
  | none => .error (.notComparable ">=" level (.int error))

end LogLevel
end WorkflowStudio
