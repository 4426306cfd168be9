/-!
# Grammars of command line arguments

What a command line may hold: switches with their spellings and effects, and positional
arguments. What reading one comes to: the settings made and the positions filled, or the reason
why the reading ended early.
-/

namespace TapeMachine.Arguments

/-- What a switch does. -/
inductive Effect where
  | help
  | flag
  | value (check : String → Option String)

/-- A switch: its spellings and its effect. The check of a value gives the complaint about a
value that is not acceptable. -/
structure Switch where
  spellings : List String
  effect : Effect

/-- The switch as complaints name it. -/
def Switch.label (switch : Switch) : String :=
  "/".intercalate switch.spellings

/-- A grammar: the switches, and the names of the positional arguments, all of them required. -/
structure Grammar where
  switches : List Switch
  positionals : List String

/-- A setting that the arguments make: a switch that was used, with its value if it has one. A
switch that takes a value has none where its value was a separator. -/
structure Setting where
  name : String
  value : Option String
deriving DecidableEq, Inhabited

/-- What a list of arguments says. -/
structure Reading where
  settings : List Setting
  positionals : List (String × String)
deriving DecidableEq, Inhabited

/-- Why the reading of arguments ends early. -/
inductive Stop where
  | help
  | complaint (message : String)
deriving DecidableEq, Inhabited

/-- The complaint about the arguments of a switch. -/
def Switch.complaint (switch : Switch) (text : String) : Stop :=
  .complaint s!"argument {switch.label}: {text}"

/-- All spellings with their switches, in order. -/
def Grammar.spellings (grammar : Grammar) : List (String × Switch) :=
  grammar.switches.flatMap fun switch ↦ switch.spellings.map fun spelling ↦ (spelling, switch)

/-- The name under which the settings of a switch are recorded: its last spelling. -/
def Switch.name (switch : Switch) : String :=
  switch.spellings.getLast?.getD ""

/-- The last setting made under a name. -/
def Reading.setting? (reading : Reading) (name : String) : Option Setting :=
  reading.settings.reverse.find? fun setting ↦ setting.name = name

/-- A setting was made under this name. -/
def Reading.has (reading : Reading) (name : String) : Bool :=
  reading.settings.any fun setting ↦ setting.name = name

end TapeMachine.Arguments
