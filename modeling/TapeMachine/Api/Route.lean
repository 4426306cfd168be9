import TapeMachine.Text.Pieces

/-!
# Routes of the HTTP service

Paths name endpoints, and each endpoint knows the methods it answers. The last fixed segment of
a path may be followed by one newline.
-/

namespace TapeMachine.Api

/-- The endpoints of the service. -/
inductive Endpoint where
  | parse
  | run
  | programs
  | program (id : String)
  | programRun (id : String)
deriving DecidableEq, Inhabited

/-- The last segment of a path is this word, perhaps with a newline behind it. -/
def endsAs (word segment : String) : Bool :=
  segment = word || segment = word ++ "\n"

/-- The endpoint that a path names. -/
def Endpoint.ofPath? (path : String) : Option Endpoint :=
  match Text.splitAt '/' path with
  | ["", "api", last] =>
      if endsAs "parse" last then some parse
      else if endsAs "run" last then some run
      else if endsAs "programs" last then some programs
      else none
  | ["", "api", "programs", id] => if id = "" then none else some (program id)
  | ["", "api", "programs", id, last] =>
      if id ≠ "" && endsAs "run" last then some (programRun id) else none
  | _ => none

/-- The path without the slashes at its end. -/
def withoutTrailingSlashes (path : String) : String :=
  String.ofList (path.toList.reverse.dropWhile (· = '/')).reverse

/-- A path that names no endpoint itself, but does so without the slashes at its end. -/
def isRedirected (path : String) : Bool :=
  path.endsWith "/" && (Endpoint.ofPath? (withoutTrailingSlashes path)).isSome

end TapeMachine.Api
