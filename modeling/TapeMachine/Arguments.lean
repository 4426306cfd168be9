import TapeMachine.Arguments.Token
import TapeMachine.Text.Quoted

/-!
# Reading command line arguments

`Grammar.read` classifies all arguments and then consumes them from left to right. The first
complaint ends the reading, and a request for help does so too; a missing position is complained
about only then, and arguments for which there is no use last of all.
-/

namespace TapeMachine.Arguments

/-- Where the reading stands: what has been read, the positional arguments still to come, and
the arguments for which there is no use. -/
structure State where
  reading : Reading
  pending : List String
  extras : List String

/-- Fill pending positional arguments from the front of the tokens. One value is taken for each;
a separator before or behind it goes with it. -/
def fillPositionals : List String → List Token → List (String × String) × List String × List Token
  | [], tokens => ([], [], tokens)
  | name :: pending, tokens =>
      let behindSeparator :=
        match tokens with
        | .separator :: rest => rest
        | _ => tokens
      match behindSeparator with
      | .plain text :: rest =>
          let rest :=
            match rest with
            | .separator :: rest => rest
            | _ => rest
          let (filled, pending, rest) := fillPositionals pending rest
          ((name, text) :: filled, pending, rest)
      | _ => ([], name :: pending, tokens)

/-- Fill pending positional arguments and record them. -/
def State.fill (state : State) (tokens : List Token) : State × List Token :=
  let (filled, pending, rest) := fillPositionals state.pending tokens
  let reading :=
    { state.reading with positionals := state.reading.positionals ++ filled }
  ({ state with reading := reading, pending := pending }, rest)

/-- Record a setting. -/
def State.set (state : State) (name : String) (value : Option String) : State :=
  let settings := state.reading.settings ++ [⟨name, value⟩]
  { state with reading := { state.reading with settings := settings } }

/-- The complaint about a value attached to a switch that takes none. -/
def ignored (switch : Switch) (attached : String) : Stop :=
  switch.complaint ("ignored explicit argument " ++ Text.quoted attached)

/-- The complaint about letters attached to a switch of one letter. Each of them must be such a
switch itself; the complaint is about the last switch before the first letter that is none. -/
def strayLetters? (grammar : Grammar) (switch : Switch) : List Char → Option Stop
  | [] => none
  | letter :: rest =>
      match grammar.spellings.lookup (String.ofList ['-', letter]) with
      | none => some (ignored switch (String.ofList (letter :: rest)))
      | some other => strayLetters? grammar other rest

/-- The complaint about what is attached to a switch that takes no value. -/
def attachedComplaint? (grammar : Grammar) (switch : Switch) (spelling : String) :
    Option String → Option Stop
  | none => none
  | some attached =>
      if startsWith spelling "--" || attached = "" then some (ignored switch attached)
      else strayLetters? grammar switch attached.toList

/-- Use a switch with the tokens behind it. A separator attached to it as its value is dropped
unchecked, which leaves the setting without a value. -/
def State.use (grammar : Grammar) (state : State) (switch : Switch) (spelling : String)
    (attached : Option String) (tokens : List Token) : Except Stop (State × List Token) :=
  match switch.effect with
  | .help =>
      match attachedComplaint? grammar switch spelling attached with
      | some stop => .error stop
      | none => .error .help
  | .flag =>
      match attachedComplaint? grammar switch spelling attached with
      | some stop => .error stop
      | none => .ok (state.set switch.name none, tokens)
  | .value check =>
      let accept (value : String) (rest : List Token) : Except Stop (State × List Token) :=
        match check value with
        | some text => .error (switch.complaint text)
        | none => .ok (state.set switch.name (some value), rest)
      match attached, tokens with
      | some "--", rest => .ok (state.set switch.name none, rest)
      | some value, rest => accept value rest
      | none, .plain value :: rest => accept value rest
      | none, _ => .error (switch.complaint "expected one argument")

/-- Consume all tokens. In front of a switch the plain arguments that fill no position are of no
use; behind the last switch likewise. The fuel bounds the number of turns. -/
def consume (grammar : Grammar) : Nat → State → List Token → Except Stop State
  | 0, state, _ => .ok state
  | fuel + 1, state, tokens =>
      match tokens with
      | [] => .ok state
      | .unknown text :: rest =>
          consume grammar fuel { state with extras := state.extras ++ [text] } rest
      | .switch switch spelling attached :: rest =>
          match state.use grammar switch spelling attached rest with
          | .error stop => .error stop
          | .ok (state, rest) => consume grammar fuel state rest
      | _ =>
          let (state, rest) := state.fill tokens
          let useless := (rest.takeWhile Token.isPlain).map Token.text
          consume grammar fuel { state with extras := state.extras ++ useless }
            (rest.dropWhile Token.isPlain)

/-- Read an argument list. -/
def Grammar.read (grammar : Grammar) (arguments : List String) : Except Stop Reading :=
  match grammar.tokens arguments with
  | .error stop => .error stop
  | .ok tokens =>
      match consume grammar tokens.length ⟨⟨[], []⟩, grammar.positionals, []⟩ tokens with
      | .error stop => .error stop
      | .ok state =>
          if !state.pending.isEmpty then
            let missing := ", ".intercalate state.pending
            .error (.complaint s!"the following arguments are required: {missing}")
          else if !state.extras.isEmpty then
            let useless := " ".intercalate state.extras
            .error (.complaint s!"unrecognized arguments: {useless}")
          else
            .ok state.reading

end TapeMachine.Arguments
