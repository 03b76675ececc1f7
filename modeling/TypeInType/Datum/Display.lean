import TypeInType.Datum.Basic
import TypeInType.Number.Shortest
import TypeInType.Text.Literal

/-!
The text a datum stands for where a text is wanted: a text stands for itself,
anything else for its literal form.
-/

namespace TypeInType.Datum

mutual

def literal : Datum → String
  | .null => "None"
  | .boolean value => if value then "True" else "False"
  | .integer value => toString value
  | .decimal value => value.text
  | .text value => value.literal
  | .list items => "[" ++ ", ".intercalate (itemLiterals items) ++ "]"
  | .record entries => "\x7b" ++ ", ".intercalate (entryLiterals entries) ++ "\x7d"
  | .foreign value => value.literal?.getD ""

def itemLiterals : List Datum → List String
  | [] => []
  | item :: rest => item.literal :: itemLiterals rest

def entryLiterals : List (LooseText × Datum) → List String
  | [] => []
  | (key, value) :: rest => (key.literal ++ ": " ++ value.literal) :: entryLiterals rest

end

mutual

def hasFewDigits : Datum → Bool
  | .integer value => value.natAbs < Nat.pow 10 Whole.greatestLength
  | .list items => itemsHaveFewDigits items
  | .record entries => entriesHaveFewDigits entries
  | .foreign value => value.literal?.isSome
  | _ => true

def itemsHaveFewDigits : List Datum → Bool
  | [] => true
  | item :: rest => item.hasFewDigits && itemsHaveFewDigits rest

def entriesHaveFewDigits : List (LooseText × Datum) → Bool
  | [] => true
  | (_, value) :: rest => value.hasFewDigits && entriesHaveFewDigits rest

end

def display? : Datum → Option String
  | .text value => some value.shown
  | .foreign value => value.text?
  | other => if other.hasFewDigits then some other.literal else none

/-- Zero, nothing and all that is empty count as false. -/
def isTruthy : Datum → Bool
  | .null => false
  | .boolean value => value
  | .integer value => value ≠ 0
  | .decimal value => !value.isZero
  | .text value => !value.isEmpty
  | .list items => !items.isEmpty
  | .record entries => !entries.isEmpty
  | .foreign value => value.isTruthy

end TypeInType.Datum
