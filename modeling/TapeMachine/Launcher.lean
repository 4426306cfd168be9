import TapeMachine.Arguments

/-!
# Launching the HTTP service

The arguments of the server command, and the settings that it starts the service with.
-/

namespace TapeMachine.Launcher

/-- The names of the log levels. -/
def logLevels : List String :=
  ["critical", "error", "warning", "info", "debug"]

/-- The complaint about a port that is no integer. -/
def checkPort (text : String) : Option String :=
  match Text.integer? text with
  | some _ => none
  | none => some ("invalid int value: " ++ Text.quoted text)

/-- The complaint about a log level that does not exist. -/
def checkLogLevel (text : String) : Option String :=
  if logLevels.contains text then none
  else
    let choices := ", ".intercalate (logLevels.map Text.quoted)
    some ("invalid choice: " ++ Text.quoted text ++ " (choose from " ++ choices ++ ")")

/-- The arguments of the server command. -/
def grammar : Arguments.Grammar :=
  ⟨[⟨["-h", "--help"], .help⟩, ⟨["--host"], .value fun _ ↦ none⟩,
      ⟨["--port"], .value checkPort⟩, ⟨["--reload"], .flag⟩,
      ⟨["--log-level"], .value checkLogLevel⟩],
    []⟩

/-- The usage lines. -/
def usage : String :=
  "usage: bfvm-server [-h] [--host HOST] [--port PORT] [--reload]\n" ++
  "                   [--log-level \x7bcritical,error,warning,info,debug\x7d]\n"

/-- The help text. -/
def help : String :=
  usage ++ "\n" ++
  "Serve the bfvm HTTP API\n" ++
  "\n" ++
  "options:\n" ++
  "  -h, --help            show this help message and exit\n" ++
  "  --host HOST           Bind address (default: 127.0.0.1)\n" ++
  "  --port PORT           Port to listen on (default: 8000)\n" ++
  "  --reload              Restart the server when package sources change\n" ++
  "                        (development only)\n" ++
  "  --log-level \x7bcritical,error,warning,info,debug\x7d\n" ++
  "                        Logging level for bfvm and uvicorn (default: info)\n"

/-- What the service is started with. A host or port whose value was a separator is missing. -/
structure Settings where
  host : Option String
  port : Option Int
  reload : Bool
  logLevel : String
deriving DecidableEq, Inhabited

/-- The module path under which the server finds the service. -/
def target : String :=
  "bfvm.webui.app:create_app"

/-- What the server command comes to: a help text, a complaint, a start of the service, or a
failure for want of a log level. -/
inductive Launch where
  | help
  | refused (errors : String)
  | serve (settings : Settings)
  | noLogLevel
deriving DecidableEq, Inhabited

/-- The message for a missing log level. -/
def noLogLevelMessage : String :=
  "'list' object has no attribute 'upper'"

/-- The value that a switch was given last, or its default. -/
def valueOf (reading : Arguments.Reading) (name default : String) : Option String :=
  match reading.setting? name with
  | none => some default
  | some setting => setting.value

/-- The start of the service that a reading of the arguments asks for. -/
def launchOf (reading : Arguments.Reading) : Launch :=
  match valueOf reading "--log-level" "info" with
  | none => .noLogLevel
  | some logLevel =>
      .serve
        { host := valueOf reading "--host" "127.0.0.1"
          port := (valueOf reading "--port" "8000").bind Text.integer?
          reload := reading.has "--reload"
          logLevel := logLevel }

/-- Read the arguments of the server command. -/
def launch (arguments : List String) : Launch :=
  match grammar.read arguments with
  | .error .help => .help
  | .error (.complaint message) => .refused (usage ++ "bfvm-server: error: " ++ message ++ "\n")
  | .ok reading => launchOf reading

end TapeMachine.Launcher
