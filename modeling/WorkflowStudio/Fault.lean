import WorkflowStudio.Reading.Checked
import WorkflowStudio.Json.Display
import WorkflowStudio.Text.Surrogate

/-!
What can go wrong, by cause, and the wording of each cause.
-/
namespace WorkflowStudio

/-- Which of the two stored texts could not be read. -/
inductive StoredText where
  | graph
  | document
deriving DecidableEq, Repr

def StoredText.label : StoredText → String
  | .graph => "Invalid graph data: "
  | .document => "Invalid DSL data: "

def StoredText.code : StoredText → String
  | .graph => "GRAPH_DECODE_FAILED"
  | .document => "DSL_DECODE_FAILED"

inductive Fault where
  /-- A value was rejected by the reader of a record. -/
  | invalid (title : String) (problems : List Problem)
  | undecodable (what : StoredText) (title : String) (problems : List Problem)
  | notMember (value : Json) (vocabulary : String)
  | notIterable (value : Json)
  | noAttribute (value : Json) (name : String)
  | entryLength (index length : Nat)
  | entryNotSequence (index : Nat)
  | unhashable (value : Json)
  | tooManyDigits (count : Nat)
  | notNumeric (value : Json)
  | squareRootOfNegative
  | contextTaken
  | missingArguments
  | unusedArguments
  | mappingRequired
  | missingKey (key : Json)
  | numberRequired (conversion : Char) (value : Json)
  | wholeRequired (conversion : Char) (value : Json)
  | characterRequired (value : Json)
  | characterOutOfRange
  | unknownConversion (conversion : Char) (index : Nat)
  | incompleteFormat
  | incompleteKey
  | starWidthRequired
  | layoutTooLarge (name : String)
  | argumentTooLarge (word : String)
  | precisionTooLong
  | notFiniteWhole (nan : Bool)
  | timeOutOfRange (year : Int)
  | timeNotNumber
  | notWholeTime (value : Json)
  | timeBeyondClock
  | timeBeyondCalendar
  | yearTooLarge
  | outOfRoom
  /-- An operation has a parameter of its own under the name of a given argument. -/
  | nameReserved (operation name : String)
  | unknownArgument (operation name : String)
  | argumentsMissing (operation : String) (names : List String)
  | tooManyArguments (operation : String) (least most given : Nat)
  | unwritableWhole
  | realRequired (value : Json)
  | wholeTooLargeForReal
  | unknownLevel (name : String)
  /-- The name of a level stands for something that is no level. -/
  | unusableLevel (shown : String)
  | notPath (value : Json)
  | notMapping (value : Json)
  | indexOutOfRange
  | indexRequired (value : Json)
  | indexTooLarge
  /-- A value has no items that could be replaced. -/
  | unassignable (value : Json)
  | malformedWhole (value : Json)
  | notText (value : Json)
  | notEncoded (value : Json)
  | noSum (left right : Json)
  | noAdvance (left right : Json)
  | noProduct (left right : Json)
  | noQuotient (left right : Json)
  | notComparable (sign : String) (left right : Json)
  | notJoinable (left right : Json)
  | notRepeatable (count : Json)
  | countTooLarge
  | notCallable (value : Json)
  | unsettable (owner name : String)
  | nameRequired (value : Json)
  | delayRequired
  /-- A value nests deeper than is written, as a text or as a value. -/
  | tooDeep (asText : Bool)
  /-- A value nests deeper than there is room to name it in a message. -/
  | nameTooDeep
  /-- A text holds half a surrogate pair. -/
  | brokenText (text : String)
deriving Repr

def problemsText (title : String) (problems : List Problem) : String :=
  title ++ ": " ++ "; ".intercalate (problems.map Problem.text)

def hexOf (width n : Nat) : String := String.ofList (Text.hexDigits width n)

/-- Names joined by commas and an `and`. -/
def enumeration : List String → String
  | [] => ""
  | [name] => name
  | [first, second] => first ++ " and " ++ second
  | names => ", ".intercalate names.dropLast ++ ", and " ++ names.getLastD ""

def unsupported (operator : String) (left right : Json) : String :=
  "unsupported operand type(s) for " ++ operator ++ ": '" ++ left.kindName ++ "' and '" ++
    right.kindName ++ "'"

def unwritten (kind : String) : String := "Error serializing to JSON: " ++ kind ++ ": "

/-- Where the first run of halves of surrogate pairs stands in a text. -/
def brokenMessage (text : String) : String :=
  let (before, rest) := text.toList.span fun c => (Text.half? c).isNone
  let halves := rest.takeWhile fun c => (Text.half? c).isSome
  let start := before.length
  let place :=
    if halves.length ≤ 1 then
      "character '\\u" ++ hexOf 4 ((rest.head?.bind Text.half?).getD 0) ++ "' in position " ++
        toString start
    else "characters in position " ++ toString start ++ "-" ++
      toString (start + halves.length - 1)
  "'utf-8' codec can't encode " ++ place ++ ": surrogates not allowed"

def Fault.message : Fault → String
  | .invalid title problems => problemsText title problems
  | .undecodable what title problems => what.label ++ problemsText title problems
  | .notMember value vocabulary => value.named ++ " is not a valid " ++ vocabulary
  | .notIterable value => "'" ++ value.kindName ++ "' object is not iterable"
  | .noAttribute value name =>
      "'" ++ value.kindName ++ "' object has no attribute '" ++ name ++ "'"
  | .entryLength index length =>
      "dictionary update sequence element #" ++ toString index ++ " has length " ++
        toString length ++ "; 2 is required"
  | .entryNotSequence index =>
      "cannot convert dictionary update sequence element #" ++ toString index ++
        " to a sequence"
  | .unhashable value => "unhashable type: '" ++ value.kindName ++ "'"
  | .tooManyDigits count =>
      "Exceeds the limit (4300 digits) for integer string conversion: value has " ++
        toString count ++ " digits; use sys.set_int_max_str_digits() to increase the limit"
  | .notNumeric value =>
      "int() argument must be a string, a bytes-like object or a real number, not '" ++
        value.kindName ++ "'"
  | .squareRootOfNegative => "math domain error"
  | .contextTaken => Text.quoted "Attempt to overwrite 'context' in LogRecord"
  | .missingArguments => "not enough arguments for format string"
  | .unusedArguments => "not all arguments converted during string formatting"
  | .mappingRequired => "format requires a mapping"
  | .missingKey key => key.named
  | .numberRequired conversion value =>
      "%" ++ conversion.toString ++ " format: a real number is required, not " ++ value.kindName
  | .wholeRequired conversion value =>
      "%" ++ conversion.toString ++ " format: an integer is required, not " ++ value.kindName
  | .characterRequired _ => "%c requires int or char"
  | .characterOutOfRange => "%c arg not in range(0x110000)"
  | .unknownConversion conversion index =>
      let shown := if 31 ≤ conversion.toNat ∧ conversion.toNat ≤ 126 then conversion else '?'
      "unsupported format character '" ++ shown.toString ++ "' (0x" ++
        String.ofList (Nat.toDigits 16 conversion.toNat) ++ ") at index " ++ toString index
  | .incompleteFormat => "incomplete format"
  | .incompleteKey => "incomplete format key"
  | .starWidthRequired => "* wants int"
  | .layoutTooLarge name => name ++ " too big"
  | .argumentTooLarge word => "Python int too large to convert to C " ++ word
  | .precisionTooLong => "precision too large"
  | .notFiniteWhole nan =>
      if nan then "cannot convert float NaN to integer"
      else "cannot convert float infinity to integer"
  | .unwritableWhole =>
      "Exceeds the limit (4300 digits) for integer string conversion; use " ++
        "sys.set_int_max_str_digits() to increase the limit"
  | .realRequired value => "must be real number, not " ++ value.kindName
  | .wholeTooLargeForReal => "int too large to convert to float"
  | .unknownLevel name => "Unknown level: " ++ Text.quoted name
  | .notMapping value => "'" ++ value.kindName ++ "' object is not a mapping"
  | .notPath value =>
      "argument should be a str or an os.PathLike object where __fspath__ returns a str, not '" ++
        value.kindName ++ "'"
  | .unusableLevel shown => "Level not an integer or a valid string: " ++ shown
  | .indexOutOfRange => "list assignment index out of range"
  | .indexRequired value => "list indices must be integers or slices, not " ++ value.kindName
  | .indexTooLarge => "cannot fit 'int' into an index-sized integer"
  | .unassignable value => "'" ++ value.kindName ++ "' object does not support item assignment"
  | .malformedWhole value =>
      "invalid literal for int() with base 10: " ++ String.ofList (value.named.toList.take 200)
  | .notText value => "expected string or bytes-like object, got '" ++ value.kindName ++ "'"
  | .notEncoded value =>
      "decoding to str: need a bytes-like object, " ++ value.kindName ++ " found"
  | .noSum left right => unsupported "+" left right
  | .noAdvance left right => unsupported "+=" left right
  | .noProduct left right => unsupported "*" left right
  | .noQuotient left right => unsupported "divmod()" left right
  | .notComparable sign left right =>
      "'" ++ sign ++ "' not supported between instances of '" ++ left.kindName ++ "' and '" ++
        right.kindName ++ "'"
  | .notJoinable left right =>
      "can only concatenate " ++ left.kindName ++ " (not \"" ++ right.kindName ++ "\") to " ++
        left.kindName
  | .notRepeatable count => "can't multiply sequence by non-int of type '" ++ count.kindName ++ "'"
  | .countTooLarge => "cannot fit 'int' into an index-sized integer"
  | .notCallable value => "'" ++ value.kindName ++ "' object is not callable"
  | .unsettable owner name =>
      "property '" ++ name ++ "' of '" ++ owner ++ "' object has no setter"
  | .nameRequired value => "attribute name must be string, not '" ++ value.kindName ++ "'"
  | .delayRequired => "delay must not be None"
  | .tooDeep asText =>
      (if asText then unwritten "ValueError" else "") ++ "Maximum serialization depth exceeded"
  | .nameTooDeep => "maximum recursion depth exceeded while getting the repr of an object"
  | .brokenText text => unwritten "UnicodeEncodeError" ++ brokenMessage text
  | .notWholeTime value =>
      "'" ++ value.kindName ++ "' object cannot be interpreted as an integer"
  | .timeNotNumber => "Invalid value NaN (not a number)"
  | .timeBeyondClock => "timestamp out of range for platform time_t"
  | .timeBeyondCalendar => "[Errno 75] Value too large for defined data type"
  | .outOfRoom => ""
  | .yearTooLarge => "signed integer is greater than maximum"
  | .nameReserved operation name =>
      operation ++ "() got multiple values for argument '" ++ name ++ "'"
  | .unknownArgument operation name =>
      operation ++ "() got an unexpected keyword argument '" ++ name ++ "'"
  | .argumentsMissing operation names =>
      operation ++ "() missing " ++ toString names.length ++ " required positional argument" ++
        (if names.length = 1 then "" else "s") ++ ": " ++ enumeration (names.map Text.quoted)
  | .tooManyArguments operation least most given =>
      operation ++ "() takes " ++
        (if least = most then toString most
          else "from " ++ toString least ++ " to " ++ toString most) ++
        " positional arguments but " ++ toString given ++ " were given"
  | .timeOutOfRange year => "year " ++ toString year ++ " is out of range"

def Checked.orFault {α : Type} (title : String) : Checked α → Except Fault α
  | .ok value => .ok value
  | .bad problems => .error (.invalid title problems)

end WorkflowStudio
