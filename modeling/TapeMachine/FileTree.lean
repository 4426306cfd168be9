import TapeMachine.Text.Pieces

/-!
# Files and paths

A tree of files and directories with a working directory in it, and the paths through it. A path
starts from the root or from the working directory. In a path, empty segments and single dots mean
nothing; double dots lead to the parent, but only from a directory that exists, and the root is its
own parent. Names and paths have a greatest length, counted in bytes of UTF-8.
-/

namespace TapeMachine

/-- A path: the slashes it starts from, if it is absolute, and its segments. -/
structure Path where
  root : String
  segments : List String
deriving DecidableEq, Inhabited

namespace Path

/-- The path that a text denotes. Exactly two slashes in front are a root of their own; any
other number of them is a single slash. -/
def ofText (text : String) : Path :=
  let slashes := (text.toList.takeWhile (· = '/')).length
  let root := if slashes = 0 then "" else if slashes = 2 then "//" else "/"
  ⟨root, (Text.splitAt '/' text).filter fun segment ↦ segment ≠ "" && segment ≠ "."⟩

/-- The shortest text of a path, a dot for the working directory. -/
def render (path : Path) : String :=
  if path.root = "" && path.segments.isEmpty then "."
  else path.root ++ "/".intercalate path.segments

end Path

/-- A tree: the place of its working directory, its files with their places and contents, and the
places of its directories. A place is the list of segments from the root down. -/
structure FileTree where
  working : List String
  files : List (List String × List UInt8)
  directories : List (List String)

namespace FileTree

/-- The greatest length of a name. -/
def maxNameLength : Nat :=
  255

/-- The greatest length of a path. -/
def maxPathLength : Nat :=
  4095

/-- What stands at a path. A path that is too long is not followed at all; a name that is too
long is noticed only in a directory that exists. -/
inductive Entry where
  | missing
  | tooLong
  | directory
  | file (content : List UInt8)
deriving DecidableEq, Inhabited

/-- A place holds a directory: a listed one, the working directory, or one that one of these or a
file lies in. -/
def isDirectory (tree : FileTree) (place : List String) : Bool :=
  place.isPrefixOf tree.working || tree.directories.any place.isPrefixOf ||
    tree.files.any fun file ↦ place.isPrefixOf file.1 && place ≠ file.1

/-- Follow segments from the place of a directory. -/
def walk (tree : FileTree) (place : List String) : List String → Entry
  | [] => .directory
  | ".." :: rest => tree.walk place.dropLast rest
  | segment :: rest =>
      let below := place ++ [segment]
      if maxNameLength < segment.utf8ByteSize then .tooLong
      else
        match tree.files.lookup below with
        | some content => if rest.isEmpty then .file content else .missing
        | none => if tree.isDirectory below then tree.walk below rest else .missing

/-- What stands at a path. There is nothing at a path that holds a null character. -/
def find (tree : FileTree) (path : Path) : Entry :=
  if path.segments.any fun segment ↦ segment.toList.contains '\x00' then .missing
  else if maxPathLength < path.render.utf8ByteSize then .tooLong
  else tree.walk (if path.root = "" then tree.working else []) path.segments

end FileTree

end TapeMachine
