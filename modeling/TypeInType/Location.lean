/-!
Places in a source text. Lines and columns count from one; a column counts
code points, and only a newline ends a line.
-/

namespace TypeInType

structure Location where
  line : Int
  column : Int
  file : String
  deriving DecidableEq, Repr

namespace Location

def standardInput : String := "<stdin>"

def text (place : Location) : String :=
  place.file ++ ":" ++ toString place.line ++ ":" ++ toString place.column

end Location

end TypeInType
