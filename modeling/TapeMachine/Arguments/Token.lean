import TapeMachine.Arguments.Grammar
import TapeMachine.Text.Numeral

/-!
# Classification of arguments

Before anything is consumed, each argument is classified as a switch, a plain argument or an
unknown switch. Switches may be shortened to a prefix that no other switch has, and may carry
their value behind an equals sign. A lone `--` ends the switches. Negative numbers and arguments
with a space are plain, although they start with a dash.
-/

namespace TapeMachine.Arguments

/-- What an argument turns out to be. -/
inductive Token where
  | separator
  | plain (text : String)
  | switch (switch : Switch) (spelling : String) (attached : Option String)
  | unknown (text : String)

/-- A text cut at its first equals sign. -/
def cutAtEquals (text : String) : Option (String × String) :=
  let chars := text.toList
  match chars.dropWhile (· ≠ '=') with
  | '=' :: value => some (String.ofList (chars.takeWhile (· ≠ '=')), String.ofList value)
  | _ => none

/-- The first text starts with the second. -/
def startsWith (text start : String) : Bool :=
  start.toList.isPrefixOf text.toList

/-- The switches that an argument may abbreviate. Behind two dashes the text up to an equals
sign is compared; behind one dash the first letter may name a switch, with what follows
attached. -/
def Grammar.abbreviations (grammar : Grammar) (text : String) :
    List (String × Switch × Option String) :=
  if startsWith text "--" then
    let (start, attached) :=
      match cutAtEquals text with
      | some (start, value) => (start, some value)
      | none => (text, none)
    grammar.spellings.filterMap fun (spelling, switch) ↦
      if startsWith spelling start then some (spelling, switch, attached) else none
  else
    let short := String.ofList (text.toList.take 2)
    grammar.spellings.filterMap fun (spelling, switch) ↦
      if spelling = short then
        some (spelling, switch, some (String.ofList (text.toList.drop 2)))
      else if startsWith spelling text then some (spelling, switch, none)
      else none

/-- Classify an argument in front of the separator. -/
def Grammar.classify (grammar : Grammar) (text : String) : Except Stop Token :=
  let named (spelling : String) : Option Switch := grammar.spellings.lookup spelling
  if !startsWith text "-" || text = "-" then .ok (.plain text)
  else
    match named text with
    | some switch => .ok (.switch switch text none)
    | none =>
        let cut := cutAtEquals text
        match cut.bind fun (spelling, value) ↦ (named spelling).map (spelling, ·, value) with
        | some (spelling, switch, value) => .ok (.switch switch spelling (some value))
        | none =>
            match grammar.abbreviations text with
            | [(spelling, switch, attached)] => .ok (.switch switch spelling attached)
            | [] =>
                if Text.isNegativeNumeral text || text.toList.contains ' ' then .ok (.plain text)
                else .ok (.unknown text)
            | several =>
                let matching := ", ".intercalate (several.map (·.1))
                .error (.complaint s!"ambiguous option: {text} could match {matching}")

/-- Classify all arguments. Behind the first `--` all are plain. -/
def Grammar.tokens (grammar : Grammar) : List String → Except Stop (List Token)
  | [] => .ok []
  | "--" :: rest => .ok (.separator :: rest.map .plain)
  | text :: rest =>
      match grammar.classify text with
      | .error stop => .error stop
      | .ok token =>
          match grammar.tokens rest with
          | .error stop => .error stop
          | .ok tokens => .ok (token :: tokens)

/-- The text of a token that is no switch. -/
def Token.text : Token → String
  | separator => "--"
  | plain text => text
  | switch _ spelling _ => spelling
  | unknown text => text

/-- A token that is no switch and looks like none. -/
def Token.isPlain : Token → Bool
  | separator | plain _ => true
  | switch .. | unknown _ => false

end TapeMachine.Arguments
