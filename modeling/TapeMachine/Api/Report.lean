import TapeMachine.Api.Reply
import TapeMachine.Json.Writer

/-!
# Reports of invalid requests

An invalid request is answered with a report, which shows the offending values as they were sent.
The report has to be written as JSON in UTF-8. That fails where an offending value holds a number
beyond the range, arrays or objects too deep inside each other, or surrogates that stand alone;
the first two are noticed before the last.
-/

namespace TapeMachine.Api

open Text

/-- A problem together with the value that has it. -/
structure Finding where
  problem : Problem
  value : Document

/-- What a defect adds to its report. -/
def Defect.context : Defect → List (String × Json)
  | belowOne => [("ctx", .object [("ge", .integer 1)])]
  | above bound => [("ctx", .object [("le", .integer bound)])]
  | wideInput => [("ctx", .object [("error", .object [])])]
  | _ => []

/-- What a problem adds to its report. -/
def Problem.context : Problem → List (String × Json)
  | badField _ defect => defect.context
  | _ => []

/-- Members of reports whose keys start like this are left out. -/
def hiddenStart : List CodePoint :=
  codePoints "_sa"

/-- A finding as it is reported. -/
def Finding.report (finding : Finding) : Document :=
  let value := finding.value.tidy fun key ↦ !hiddenStart.isPrefixOf key
  .object
    (JsonOf.mapMembers codePoints finding.problem.members ++ [(codePoints "input", value)] ++
      JsonOf.mapMembers codePoints finding.problem.context)

/-- The number of arrays and objects that may lie inside each other in a report. -/
def reportDepth : Nat :=
  965

/-- Why the report of some findings cannot be written, if it cannot. -/
def reportFault? (findings : List Finding) : Option ReportFault :=
  let report : Document :=
    .object [(codePoints "detail", .array (findings.map Finding.report))]
  match report.write reportDepth with
  | .error .infinite => some .infinite
  | .error .tooDeep => some .tooDeep
  | .ok text => (firstSurrogates? 0 text).map .surrogates

/-- The answer to an invalid request. -/
def Reply.ofFindings (findings : List Finding) : Reply :=
  match reportFault? findings with
  | some fault => .unreportable fault
  | none => .invalid (findings.map Finding.problem)

/-- The report of findings refuses a request. -/
theorem isRefusal_ofFindings (findings : List Finding) :
    (Reply.ofFindings findings).IsRefusal := by
  unfold Reply.ofFindings
  split <;> constructor

end TapeMachine.Api
