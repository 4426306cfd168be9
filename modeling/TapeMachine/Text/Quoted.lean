import TapeMachine.Text.Hex
import TapeMachine.Text.Printable

/-!
# Quoted text

Text in quotes, for messages. Single quotes are used unless the text holds a single quote and no
double quote. The backslash, the quote in use, tab, newline and carriage return have short
escapes; the other characters that are not printable are written as two, four or eight
hexadecimal digits, the fewest that suffice; everything else stands for itself.
-/

namespace TapeMachine.Text

/-- The quote that a text is written in. -/
def quoteFor (text : List Char) : Char :=
  if text.contains '\'' && !text.contains '"' then '"' else '\''

/-- A code point in hexadecimal digits behind the letter that says how many they are. -/
def escapeCode (code : Nat) : List Char :=
  if code < 0x100 then '\\' :: 'x' :: hexPadded 2 code
  else if code < 0x10000 then '\\' :: 'u' :: hexPadded 4 code
  else '\\' :: 'U' :: hexPadded 8 code

/-- A character inside quotes. -/
def escape (quote c : Char) : List Char :=
  if c = '\\' || c = quote then ['\\', c]
  else if c = '\t' then ['\\', 't']
  else if c = '\n' then ['\\', 'n']
  else if c = '\r' then ['\\', 'r']
  else if isPrintable c then [c]
  else escapeCode c.toNat

/-- A text in quotes. -/
def quoted (text : String) : String :=
  let chars := text.toList
  let quote := quoteFor chars
  String.ofList (quote :: chars.flatMap (escape quote) ++ [quote])

end TapeMachine.Text
