import TypeInType.Document.Basic

/-!
The JSON form of a document. All of a text outside the printable ASCII
characters is escaped, code points above the basic plane as two surrogates.
With an indentation every item stands on its own line; without one the form
takes a single line.
-/

namespace TypeInType.Document

def fourHex (value : Nat) : String :=
  let digits := Nat.toDigits 16 value
  String.ofList (List.replicate (4 - digits.length) '0' ++ digits)

def escapedCodePoint (code : Nat) : String :=
  if code < 0x10000 then "\\u" ++ fourHex code
  else
    let above := code - 0x10000
    "\\u" ++ fourHex (0xd800 + above / 0x400) ++ "\\u" ++ fourHex (0xdc00 + above % 0x400)

def escapedChar (char : Char) : String :=
  if char = '"' then "\\\""
  else if char = '\\' then "\\\\"
  else if char = '\n' then "\\n"
  else if char = '\r' then "\\r"
  else if char = '\t' then "\\t"
  else if char.toNat = 8 then "\\b"
  else if char.toNat = 12 then "\\f"
  else if 32 ≤ char.toNat ∧ char.toNat ≤ 126 then char.toString
  else escapedCodePoint char.toNat

def quoted (value : String) : String :=
  "\"" ++ String.join (value.toList.map escapedChar) ++ "\""

/-- How the parts of a list or record are set: on lines of their own, each
level indented by so many blanks, or all on one line. -/
inductive Layout where
  | lines (blanks : Nat)
  | oneLine

def Layout.newline (layout : Layout) (depth : Nat) : String :=
  match layout with
  | .lines blanks => "\n" ++ String.ofList (List.replicate (blanks * depth) ' ')
  | .oneLine => ""

def Layout.separator (layout : Layout) (depth : Nat) : String :=
  match layout with
  | .lines _ => "," ++ layout.newline depth
  | .oneLine => ", "

mutual

def jsonAt (layout : Layout) (depth : Nat) : Document → String
  | .boolean value => if value then "true" else "false"
  | .integer value => toString value
  | .text value => quoted value
  | .list [] => "[]"
  | .list items =>
      "[" ++ layout.newline (depth + 1)
        ++ (layout.separator (depth + 1)).intercalate (jsonItems layout (depth + 1) items)
        ++ layout.newline depth ++ "]"
  | .record [] => "\x7b\x7d"
  | .record entries =>
      "\x7b" ++ layout.newline (depth + 1)
        ++ (layout.separator (depth + 1)).intercalate (jsonEntries layout (depth + 1) entries)
        ++ layout.newline depth ++ "\x7d"

def jsonItems (layout : Layout) (depth : Nat) : List Document → List String
  | [] => []
  | item :: rest => jsonAt layout depth item :: jsonItems layout depth rest

def jsonEntries (layout : Layout) (depth : Nat) : List (String × Document) → List String
  | [] => []
  | (key, value) :: rest =>
      (quoted key ++ ": " ++ jsonAt layout depth value) :: jsonEntries layout depth rest

end

def json (document : Document) (layout : Layout) : String :=
  jsonAt layout 0 document

end TypeInType.Document
