import TapeMachine.Binary64.Shortest
import TapeMachine.Json
import TapeMachine.Text.Hex

/-!
# Writing documents

A document is written on one line without blanks. Of members with the same key only one is
written: it stands where the first of them stood and has the value of the last. Decimals are
written as the binary64 numbers nearest to them. Numbers beyond the range cannot be written, nor
documents whose arrays and objects lie too deep inside each other.
-/

namespace TapeMachine.Document

open Text

/-- Add a member to members that are held last one first. A member with its key is replaced. -/
def putMember (members : List (List CodePoint × Document)) (member : List CodePoint × Document) :
    List (List CodePoint × Document) :=
  if members.any fun other ↦ other.1 = member.1 then
    members.map fun other ↦ if other.1 = member.1 then member else other
  else
    member :: members

/-- The members with different keys: the places of the first ones and the values of the last. -/
def distinctMembers (members : List (List CodePoint × Document)) :
    List (List CodePoint × Document) :=
  (members.foldl putMember []).reverse

mutual

/-- The document with the members of its objects made distinct, and of those only the ones whose
keys are kept. -/
def tidy (keeps : List CodePoint → Bool) : Document → Document
  | .array items => .array (tidyItems keeps items)
  | .object members =>
      .object ((distinctMembers (tidyMembers keeps members)).filter fun member ↦ keeps member.1)
  | scalar => scalar

/-- The items of an array, each of them tidied. -/
def tidyItems (keeps : List CodePoint → Bool) : List Document → List Document
  | [] => []
  | item :: rest => tidy keeps item :: tidyItems keeps rest

/-- The members of an object, the value of each of them tidied. -/
def tidyMembers (keeps : List CodePoint → Bool) :
    List (List CodePoint × Document) → List (List CodePoint × Document)
  | [] => []
  | (key, value) :: rest => (key, tidy keeps value) :: tidyMembers keeps rest

end

/-- Why a document cannot be written. -/
inductive WriteFault where
  | infinite
  | tooDeep
deriving DecidableEq, Inhabited

/-- Append the characters of a string. -/
def pushText (out : Array CodePoint) (text : String) : Array CodePoint :=
  text.toList.foldl (fun out c ↦ out.push (.char c)) out

/-- The short escape of a character in a string, if it has one. -/
def shortForm? : Char → Option String
  | '"' => some "\\\""
  | '\\' => some "\\\\"
  | '\n' => some "\\n"
  | '\r' => some "\\r"
  | '\t' => some "\\t"
  | '\x0c' => some "\\f"
  | '\x08' => some "\\b"
  | _ => none

/-- Append a code point of a string. -/
def pushPoint (out : Array CodePoint) (p : CodePoint) : Array CodePoint :=
  match p with
  | .surrogate _ => out.push p
  | .char c =>
      match shortForm? c with
      | some text => pushText out text
      | none =>
          if c.toNat < 0x20 then
            pushText out ("\\u" ++ String.ofList (hexPadded 4 c.toNat))
          else
            out.push p

/-- Append a string in quotation marks. -/
def pushString (out : Array CodePoint) (text : List CodePoint) : Array CodePoint :=
  (text.foldl pushPoint (out.push (.char '"'))).push (.char '"')

/-- Append a comma in front of all items but the first. -/
def pushComma (out : Array CodePoint) (isFirst : Bool) : Array CodePoint :=
  if isFirst then out else out.push (.char ',')

mutual

/-- Append a value in which at most `depth` arrays and objects lie inside each other. -/
def writeValue (out : Array CodePoint) (depth : Nat) :
    Document → Except WriteFault (Array CodePoint)
  | .null => .ok (pushText out "null")
  | .bool true => .ok (pushText out "true")
  | .bool false => .ok (pushText out "false")
  | .integer value => .ok (pushText out (toString value))
  | .decimal value =>
      match Binary64.ofDecimal? value with
      | none => .error .infinite
      | some number => .ok (pushText out number.render)
  | .string value => .ok (pushString out value)
  | .array items =>
      match depth with
      | 0 => .error .tooDeep
      | depth + 1 =>
          (writeItems (out.push (.char '[')) depth true items).map (·.push (.char ']'))
  | .object members =>
      match depth with
      | 0 => .error .tooDeep
      | depth + 1 =>
          (writeMembers (out.push (.char '\x7b')) depth true members).map (·.push (.char '\x7d'))

/-- Append the items of an array. -/
def writeItems (out : Array CodePoint) (depth : Nat) (isFirst : Bool) :
    List Document → Except WriteFault (Array CodePoint)
  | [] => .ok out
  | item :: rest =>
      match writeValue (pushComma out isFirst) depth item with
      | .error fault => .error fault
      | .ok out => writeItems out depth false rest

/-- Append the members of an object. -/
def writeMembers (out : Array CodePoint) (depth : Nat) (isFirst : Bool) :
    List (List CodePoint × Document) → Except WriteFault (Array CodePoint)
  | [] => .ok out
  | (key, value) :: rest =>
      let out := (pushString (pushComma out isFirst) key).push (.char ':')
      match writeValue out depth value with
      | .error fault => .error fault
      | .ok out => writeMembers out depth false rest

end

/-- The text of a document. -/
def write (depth : Nat) (document : Document) : Except WriteFault (List CodePoint) :=
  (writeValue #[] depth document).map Array.toList

end TapeMachine.Document
