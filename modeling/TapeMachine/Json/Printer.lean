import TapeMachine.Json
import TapeMachine.Text.Hex

/-!
# Printing JSON

Values on one line without blanks. In strings the quotation mark, the backslash and the control
characters are escaped, and all other characters stand for themselves.
-/

namespace TapeMachine.Json

/-- Append a character of a string. -/
def pushEscaped (out : String) (c : Char) : String :=
  if c = '"' then out ++ "\\\""
  else if c = '\\' then out ++ "\\\\"
  else if c.toNat < 0x20 then out ++ "\\u" ++ String.ofList (Text.hexPadded 4 c.toNat)
  else out.push c

/-- Append a string in quotation marks. -/
def pushString (out : String) (text : String) : String :=
  (text.toList.foldl pushEscaped (out.push '"')).push '"'

/-- Append a decimal, exactly. -/
def pushDecimal (out : String) (value : Decimal) : String :=
  out ++ (if value.isNegative then "-" else "") ++ toString value.digits ++ "e" ++
    toString value.exponent

mutual

/-- Append a value. -/
def push (out : String) : Json → String
  | .null => out ++ "null"
  | .bool true => out ++ "true"
  | .bool false => out ++ "false"
  | .integer value => out ++ toString value
  | .decimal value => pushDecimal out value
  | .string value => pushString out value
  | .array [] => out ++ "[]"
  | .array (first :: rest) => (pushItems (push (out.push '[') first) rest).push ']'
  | .object members => (pushMembers (out.push '\x7b') true members).push '\x7d'

/-- Append the items after the first, each behind a comma. -/
def pushItems (out : String) : List Json → String
  | [] => out
  | item :: rest => pushItems (push (out.push ',') item) rest

/-- Append members, each behind a comma but the first. -/
def pushMembers (out : String) (isFirst : Bool) : List (String × Json) → String
  | [] => out
  | (key, value) :: rest =>
      let out := if isFirst then out else out.push ','
      pushMembers (push ((pushString out key).push ':') value) false rest

end

/-- The text of a value. -/
def render (value : Json) : String :=
  push "" value

end TapeMachine.Json
