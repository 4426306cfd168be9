import TapeMachine.Api.Call
import TapeMachine.Api.Report
import TapeMachine.Binary64
import TapeMachine.Json.Reader
import TapeMachine.Text.Encoding
import TapeMachine.Text.Numeral.Field

/-!
# Validation of request bodies

A body must be a JSON object. Its known fields are checked one by one, missing ones have
defaults, and unknown ones are ignored. All defects are reported together, in the order input,
step limit, tape size, code.
-/

namespace TapeMachine.Api

/-- The limits on the JSON text of a body. -/
def bodyLimits : Document.Limits :=
  ⟨4300, 967, 3⟩

/-- The members of an object, with keys as they were read. -/
abbrev Members :=
  List (List Text.CodePoint × Document)

/-- The members of a body that is a JSON object, or the answer to any other body. -/
def readMembers (body : List UInt8) : Except Reply Members :=
  if body.isEmpty then .error (.invalid [.missingBody])
  else
    match Text.decodeJsonText? body with
    | none => .error .unreadable
    | some text =>
        match Document.read bodyLimits text with
        | .error .oversizedInteger | .error .tooDeep => .error .unreadable
        | .error .malformed => .error (.invalid [.notJson])
        | .ok (.object members) => .ok members
        | .ok value => .error (.ofFindings [⟨.notObject, value⟩])

/-- The answer to a body that is no JSON object refuses the request. -/
theorem isRefusal_of_readMembers {body : List UInt8} {reply : Reply}
    (h : readMembers body = .error reply) : reply.IsRefusal := by
  unfold readMembers at h
  repeat' split at h
  all_goals cases h
  case h_5 => exact isRefusal_ofFindings _
  all_goals constructor

/-- A string field; a missing one is empty. Surrogates that stand alone are tolerated. -/
def checkString : Option Document → Except Defect (List Text.CodePoint)
  | none => .ok []
  | some (.string value) => .ok value
  | some _ => .error .notString

/-- An input field: a string of characters up to `U+00FF`. -/
def checkInput (value : Option Document) : Except Defect (List UInt8) :=
  match checkString value with
  | .error defect => .error defect
  | .ok points =>
      if points.all fun p ↦ p.char?.any fun c ↦ c.toNat < 256 then
        .ok (Source.ofText (Text.shownText points))
      else
        .error .wideInput

/-- The integer that a value stands for. A decimal stands for one only strictly between the ends
of the signed words of 64 bits; integers and text are not bounded so. -/
def checkInteger : Document → Except Defect Int
  | .integer value => .ok value
  | .bool value => .ok (if value then 1 else 0)
  | .decimal decimal =>
      match Binary64.ofDecimal? decimal with
      | none => .error .notFinite
      | some number =>
          match number.integer? with
          | none => .error .fractional
          | some value =>
              if -9223372036854775808 < value ∧ value < 9223372036854775808 then .ok value
              else .error .oversized
  | .string points =>
      if points.any Text.CodePoint.isSurrogate then .error .notText
      else
        match Text.fieldInteger (Text.shownText points) with
        | .ok value => .ok value
        | .error .malformed => .error .notNumeral
        | .error .oversized => .error .oversized
  | .null | .array _ | .object _ => .error .notInteger

/-- A number from one up to a bound. -/
abbrev Bounded (bound : Nat) :=
  { n : Nat // 1 ≤ n ∧ n ≤ bound }

/-- An integer field from one up to a bound; a missing one has the default. -/
def checkBounded (bound : Nat) (default : Bounded bound) :
    Option Document → Except Defect (Bounded bound)
  | none => .ok default
  | some value =>
      match checkInteger value with
      | .error defect => .error defect
      | .ok n =>
          if low : n < 1 then .error .belowOne
          else if high : n ≤ bound then .ok ⟨n.toNat, by omega, by omega⟩
          else .error (.above bound)

/-- The value of a field, if the body has it. -/
def fieldOf (members : Members) (field : Field) : Option Document :=
  JsonOf.lookup (Text.codePoints field.key) members

/-- The finding about a field, if its value has a defect. -/
def findingsOf {α : Type} (members : Members) (field : Field) (checked : Except Defect α) :
    List Finding :=
  match checked with
  | .error defect => [⟨.badField field defect, (fieldOf members field).getD .null⟩]
  | .ok _ => []

/-- The code of a body that has only this field. -/
def checkCode (members : Members) : Except (List Finding) String :=
  let code := checkString (fieldOf members .code)
  match code with
  | .ok points => .ok (Text.shownText points)
  | .error _ => .error (findingsOf members .code code)

/-- The options of a run. -/
def checkOptions (members : Members) : Except (List Finding) RunOptions :=
  let input := checkInput (fieldOf members .input)
  let steps :=
    checkBounded maxStepLimit ⟨defaultStepLimit, by decide⟩ (fieldOf members .stepLimit)
  let tape := checkBounded maxTapeSize ⟨defaultTapeSize, by decide⟩ (fieldOf members .tapeSize)
  match input, steps, tape with
  | .ok input, .ok steps, .ok tape =>
      .ok ⟨input, steps.val, tape.val, steps.property.1, steps.property.2, tape.property.1,
        tape.property.2⟩
  | _, _, _ =>
      .error (findingsOf members .input input ++ findingsOf members .stepLimit steps ++
        findingsOf members .tapeSize tape)

/-- The code and the options of a run. -/
def checkRun (members : Members) : Except (List Finding) (String × RunOptions) :=
  match checkOptions members, checkCode members with
  | .ok options, .ok code => .ok (code, options)
  | .error findings, .ok _ => .error findings
  | .ok _, .error findings => .error findings
  | .error first, .error second => .error (first ++ second)

end TapeMachine.Api
