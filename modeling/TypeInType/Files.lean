/-!
Files as a program sees them: a working directory, and what is found under a
path. Paths with dots are made absolute by their text alone, without a look at
the files.
-/

namespace TypeInType

/-- A file may be locked, so that it cannot be opened, or hold bytes that are no text. -/
inductive FileStatus where
  | missing
  | directory
  | locked
  | undecodable
  | file (content : String)
  deriving DecidableEq, Repr

/-- The names on the way from the root to a directory or file, innermost first. -/
abbrev Route := List String

namespace Route

def text (route : Route) : String :=
  "/" ++ "/".intercalate route.reverse

/-- One name further: a dot stays, two dots go back, and the root has nothing
above it. -/
def enter (route : Route) (name : String) : Route :=
  if name = "" ∨ name = "." then route
  else if name = ".." then route.tail
  else name :: route

def names (path : String) : List String :=
  path.splitOn "/"

def isAbsolute (path : String) : Bool :=
  path.toList.head? = some '/'

def ofPath (workingDirectory : Route) (path : String) : Route :=
  (names path).foldl enter (if isAbsolute path then [] else workingDirectory)

def upward : Route → List Route
  | [] => [[]]
  | name :: outer => (name :: outer) :: upward outer

end Route

structure Files where
  workingDirectory : Route
  status : String → FileStatus

namespace Files

/-- Every way to end a line becomes a newline. -/
def plainLines : List Char → List Char
  | '\r' :: '\n' :: rest => '\n' :: plainLines rest
  | '\r' :: rest => '\n' :: plainLines rest
  | char :: rest => char :: plainLines rest
  | [] => []

def readable (content : String) : String :=
  String.ofList (plainLines content.toList)

def isFile (files : Files) (path : String) : Bool :=
  match files.status path with
  | .locked | .undecodable | .file _ => true
  | .missing | .directory => false

/-- Two views of files show the same under some paths. -/
def Agree (left right : Files) (paths : List String) : Prop :=
  ∀ path ∈ paths, left.status path = right.status path

end Files

end TypeInType
