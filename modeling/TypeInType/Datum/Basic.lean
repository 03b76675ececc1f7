import TypeInType.Number.Binary64
import TypeInType.Number.Whole
import TypeInType.Text.Loose

/-!
What a settings file holds. The entries of a record keep their order, with one
entry for each key.
-/

namespace TypeInType

/-- A value of a type of its own, such as a date, by what is made of it: whether it counts as
true, the whole number it counts as or else the message with which it refuses, its text, and
its form inside another value. There is no text where a number in it has too many digits. -/
structure ForeignValue where
  isTruthy : Bool
  whole : Except (Option String) Int
  text? : Option String
  literal? : Option String
  deriving Inhabited

inductive Datum where
  | null
  | boolean (value : Bool)
  | integer (value : Int)
  | decimal (value : Binary64)
  | text (value : LooseText)
  | list (items : List Datum)
  | record (entries : List (LooseText × Datum))
  | foreign (value : ForeignValue)
  deriving Inhabited

/-- Why no datum can be read. Only what is malformed is told from everything else that a reader
may refuse. -/
inductive DatumFault where
  | malformed
  | tooLong (digits : Nat)
  | noDigits (base : Nat)
  | noCodePoint (code : Nat)
  | other (message : Option String)
  deriving DecidableEq, Repr

namespace DatumFault

def ofWhole : WholeFault → DatumFault
  | .malformed => .malformed
  | .tooLong digits => .tooLong digits

def codeBound : Nat := 0x80000000

def message? : DatumFault → Option String
  | .malformed => none
  | .tooLong digits =>
      some ("Exceeds the limit (4300 digits) for integer string conversion: value has "
        ++ toString digits ++ " digits; use sys.set_int_max_str_digits() to increase the limit")
  | .noDigits base =>
      some ("invalid literal for int() with base " ++ toString base ++ ": ''")
  | .noCodePoint code =>
      if code < codeBound then some "chr() arg not in range(0x110000)" else none
  | .other message => message

end DatumFault

/-- The reader of YAML that the program is built with. Nothing is known of it but that it comes
to an end with a datum or a fault. -/
class YamlReader where
  read : String → Except DatumFault Datum

namespace Datum

/-- The entries with `key` set to `value`: in its old place, or at the end. -/
def set (entries : List (LooseText × Datum)) (key : LooseText) (value : Datum) :
    List (LooseText × Datum) :=
  match entries with
  | [] => [(key, value)]
  | entry :: rest => if entry.1 = key then (key, value) :: rest else entry :: set rest key value

def get? (entries : List (LooseText × Datum)) (key : LooseText) : Option Datum :=
  (entries.find? fun entry => entry.1 = key).map Prod.snd

end Datum

end TypeInType
