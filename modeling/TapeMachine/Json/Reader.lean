import TapeMachine.Json.Lexeme

/-!
# Reading JSON

The grammar is strict: there are no comments, no trailing commas, and nothing but blanks around
the value. An array or object that would lie too deep is refused at its opening bracket, and so is
a broken string or a wrong separator whose description would lie too deep.
-/

namespace TapeMachine.Document

open Text

/-- The text behind a word, if the text starts with it. -/
def dropWord : List Char → List CodePoint → Option (List CodePoint)
  | [], text => some text
  | c :: word, d :: text => if d = .char c then dropWord word text else none
  | _ :: _, [] => none

/-- A value that is spelt as a word. -/
def readWord (word : String) (value : Document) (text : List CodePoint) : Read Document :=
  match dropWord word.toList text with
  | some rest => .ok (value, rest)
  | none => .error .malformed

mutual

/-- A value without blanks in front. The limits are those for the value and what lies in it. The
fuel bounds the number of calls. -/
def readValue : Nat → Limits → List CodePoint → Read Document
  | 0, _, _ => .error .malformed
  | fuel + 1, limits, text =>
      match text with
      | [] => .error .malformed
      | .char '"' :: rest =>
          match readString? rest with
          | none => .error limits.fault
          | some (value, rest) => .ok (.string value, rest)
      | .char '[' :: rest =>
          match limits with
          | ⟨_, 0, _⟩ => .error .tooDeep
          | ⟨digits, depth + 1, margin⟩ =>
              match skipBlanks rest with
              | .char ']' :: rest => .ok (.array [], rest)
              | rest => readItems fuel ⟨digits, depth, margin⟩ [] rest
      | .char '\x7b' :: rest =>
          match limits with
          | ⟨_, 0, _⟩ => .error .tooDeep
          | ⟨digits, depth + 1, margin⟩ =>
              match skipBlanks rest with
              | .char '\x7d' :: rest => .ok (.object [], rest)
              | rest => readMembers fuel ⟨digits, depth, margin⟩ [] rest
      | .char 'n' :: _ => readWord "null" .null text
      | .char 't' :: _ => readWord "true" (.bool true) text
      | .char 'f' :: _ => readWord "false" (.bool false) text
      | _ => readNumber limits.digits text

/-- The items of an array from the next one on. -/
def readItems : Nat → Limits → List Document → List CodePoint → Read Document
  | 0, _, _, _ => .error .malformed
  | fuel + 1, limits, items, text =>
      match readValue fuel limits text with
      | .error fault => .error fault
      | .ok (item, rest) =>
          match skipBlanks rest with
          | .char ',' :: rest => readItems fuel limits (item :: items) (skipBlanks rest)
          | .char ']' :: rest => .ok (.array (item :: items).reverse, rest)
          | _ => .error limits.fault

/-- The members of an object from the next one on. -/
def readMembers : Nat → Limits → List (List CodePoint × Document) → List CodePoint → Read Document
  | 0, _, _, _ => .error .malformed
  | fuel + 1, limits, members, text =>
      match text with
      | .char '"' :: rest =>
          match readString? rest with
          | none => .error limits.fault
          | some (key, rest) =>
              match skipBlanks rest with
              | .char ':' :: rest =>
                  match readValue fuel limits (skipBlanks rest) with
                  | .error fault => .error fault
                  | .ok (value, rest) =>
                      let members := (key, value) :: members
                      match skipBlanks rest with
                      | .char ',' :: rest => readMembers fuel limits members (skipBlanks rest)
                      | .char '\x7d' :: rest => .ok (.object members.reverse, rest)
                      | _ => .error limits.fault
              | _ => .error limits.fault
      | _ => .error limits.fault

end

/-- Read a whole text as one value. -/
def read (limits : Limits) (text : List CodePoint) : Except ReadFault Document :=
  match readValue (2 * text.length + 2) limits (skipBlanks text) with
  | .error fault => .error fault
  | .ok (value, rest) => if (skipBlanks rest).isEmpty then .ok value else .error .malformed

end TapeMachine.Document
