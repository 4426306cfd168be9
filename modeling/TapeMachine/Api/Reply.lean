import TapeMachine.Json
import TapeMachine.Listing
import TapeMachine.Message
import TapeMachine.Registry
import TapeMachine.Text.CodePoint
import TapeMachine.Text.Hex

/-!
# Replies of the HTTP service

Every answer of the service as a value, with its status code and its JSON body.
-/

namespace TapeMachine.Api

/-- The fields of a request body. -/
inductive Field where
  | input
  | stepLimit
  | tapeSize
  | code
deriving DecidableEq, Inhabited

/-- The key of a field. -/
def Field.key : Field → String
  | input => "input"
  | stepLimit => "max_steps"
  | tapeSize => "tape_size"
  | code => "code"

/-- What can be wrong with the value of a field. -/
inductive Defect where
  | notString
  | notInteger
  | notText
  | notNumeral
  | oversized
  | fractional
  | notFinite
  | belowOne
  | above (bound : Nat)
  | wideInput
deriving DecidableEq, Inhabited

/-- The type of a defect, as it is reported. -/
def Defect.kind : Defect → String
  | notString => "string_type"
  | notInteger => "int_type"
  | notText => "string_unicode"
  | notNumeral => "int_parsing"
  | oversized => "int_parsing_size"
  | fractional => "int_from_float"
  | notFinite => "finite_number"
  | belowOne => "greater_than_equal"
  | above _ => "less_than_equal"
  | wideInput => "value_error"

/-- The message for a defect. -/
def Defect.message : Defect → String
  | notString => "Input should be a valid string"
  | notInteger => "Input should be a valid integer"
  | notText => "Input should be a valid string, unable to parse raw data as a unicode string"
  | notNumeral => "Input should be a valid integer, unable to parse string as an integer"
  | oversized => "Unable to parse input string as an integer, exceeded maximum size"
  | fractional => "Input should be a valid integer, got a number with a fractional part"
  | notFinite => "Input should be a finite number"
  | belowOne => "Input should be greater than or equal to 1"
  | above bound => s!"Input should be less than or equal to {bound}"
  | wideInput => "Value error, input must only contain characters in the range U+0000-U+00FF"

/-- Why a request body is not valid. -/
inductive Problem where
  | missingBody
  | notJson
  | notObject
  | badField (field : Field) (defect : Defect)
deriving DecidableEq, Inhabited

/-- A problem as it is reported: its type, its place and its message. -/
def Problem.members (problem : Problem) : List (String × Json) :=
  let (kind, place, message) :=
    match problem with
    | missingBody => ("missing", ["body"], "Field required")
    | notJson => ("json_invalid", ["body"], "JSON decode error")
    | notObject =>
        ("model_attributes_type", ["body"],
          "Input should be a valid dictionary or object to extract fields from")
    | badField field defect => (defect.kind, ["body", field.key], defect.message)
  [("type", .string kind), ("loc", .array (place.map .string)), ("msg", .string message)]

/-- Why the report of problems cannot be written: it shows an infinite number, arrays or objects
too deep inside each other, or surrogates that stand alone. -/
inductive ReportFault where
  | infinite
  | tooDeep
  | surrogates (run : Text.SurrogateRun)
deriving DecidableEq, Inhabited

/-- The message for a report that cannot be written. -/
def ReportFault.message : ReportFault → String
  | infinite => "Out of range float values are not JSON compliant"
  | tooDeep => "maximum recursion depth exceeded while encoding a JSON object"
  | surrogates ⟨position, code, length⟩ =>
      let last := position + length - 1
      let place :=
        if length = 1 then
          "character '\\u" ++ String.ofList (Text.hexPadded 4 code) ++ s!"' in position {position}"
        else
          s!"characters in position {position}-{last}"
      "'utf-8' codec can't encode " ++ place ++ ": surrogates not allowed"

/-- A program as clients see it: its listing and its shortest source. -/
structure ProgramView where
  rows : List Row
  normalized : String
deriving DecidableEq, Inhabited

/-- The view of a program. -/
def ProgramView.ofProgram (program : Program) : ProgramView :=
  ⟨program.listing, Operator.toText program.spell⟩

/-- The result of a run: the bytes written, the steps taken, the final place of the head, and
the size of the program. -/
structure RunResult where
  output : List UInt8
  steps : Int
  pointer : Int
  instructionCount : Nat
deriving DecidableEq, Inhabited

/-- An answer of the service. -/
inductive Reply where
  | parsed (view : ProgramView)
  | created (id : String) (view : ProgramView)
  | found (id : String) (view : ProgramView)
  | ran (result : RunResult)
  | deleted
  | rejected (fault : BracketFault)
  | limitReached (limit : Int)
  | transferFailed (fault : ConsoleFault)
  | unknownProgram (id : String)
  | nothingToDelete (id : String)
  | invalid (problems : List Problem)
  | unreportable (fault : ReportFault)
  | unreadable
  | notFound
  | notAllowed
  | redirected
  | crashed
deriving DecidableEq, Inhabited

/-- What is answered to a request that makes no call. -/
inductive Reply.IsRefusal : Reply → Prop where
  | invalid (problems : List Problem) : IsRefusal (.invalid problems)
  | unreportable (fault : ReportFault) : IsRefusal (.unreportable fault)
  | unreadable : IsRefusal .unreadable
  | notFound : IsRefusal .notFound
  | notAllowed : IsRefusal .notAllowed
  | redirected : IsRefusal .redirected

/-- The status code of an answer. -/
def Reply.status : Reply → Nat
  | parsed _ | found .. | ran _ => 200
  | created .. => 201
  | deleted => 204
  | redirected => 307
  | transferFailed _ | unreadable => 400
  | unknownProgram _ | nothingToDelete _ | notFound => 404
  | notAllowed => 405
  | limitReached _ => 409
  | rejected _ | invalid _ => 422
  | crashed | unreportable _ => 500

/-- A row of a listing with all its columns. -/
def rowJson (row : Row) : Json :=
  .object
    [("index", .integer row.index), ("op", .string row.operation), ("delta", .ofInt? row.delta),
      ("offset", .ofInt? row.offset), ("end", .ofInt? row.close), ("start", .ofInt? row.start)]

/-- The members that show a program. -/
def ProgramView.members (view : ProgramView) : List (String × Json) :=
  [("instructions", .array (view.rows.map rowJson)),
    ("instruction_count", .integer view.rows.length), ("normalized", .string view.normalized)]

/-- Bytes as the text whose characters have these codes. -/
def latinText (bytes : List UInt8) : String :=
  String.ofList (bytes.map fun b ↦ Char.ofNat b.toNat)

/-- The members that show the result of a run. -/
def RunResult.members (result : RunResult) : List (String × Json) :=
  [("output", .string (latinText result.output)),
    ("output_bytes", .array (result.output.map fun b ↦ .integer b.toNat)),
    ("steps", .integer result.steps), ("pointer", .integer result.pointer),
    ("instruction_count", .integer result.instructionCount)]

/-- The body of an answer that gives a reason. -/
def detail (text : String) : Option Json :=
  some (.object [("detail", .string text)])

/-- The body of an answer, `none` where it is empty. -/
def Reply.body : Reply → Option Json
  | parsed view => some (.object view.members)
  | created id view | found id view => some (.object (("program_id", .string id) :: view.members))
  | ran result => some (.object result.members)
  | deleted | redirected => none
  | rejected fault => detail fault.message
  | limitReached limit => detail (limitMessage limit)
  | transferFailed fault => detail fault.message
  | unknownProgram id => detail (Registry.lookupMessage id)
  | nothingToDelete id => detail (Registry.unknownMessage id)
  | invalid problems => some (.object [("invalid", .array (problems.map (.object ·.members)))])
  | unreadable => detail "There was an error parsing the body"
  | notFound => detail "Not Found"
  | notAllowed => detail "Method Not Allowed"
  | crashed | unreportable _ => detail "Internal Server Error"

end TapeMachine.Api
