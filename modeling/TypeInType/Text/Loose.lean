/-!
Texts in which surrogates may stand alone, as escapes in a file can leave them.
-/

namespace TypeInType

/-- A character, or a surrogate without its partner. -/
inductive CodePoint where
  | character (char : Char)
  | surrogate (offset : Fin 2048)
  deriving DecidableEq, Repr

namespace CodePoint

def leastSurrogate : Nat := 0xd800

def toNat : CodePoint → Nat
  | .character char => char.toNat
  | .surrogate offset => leastSurrogate + offset

def ofNat (code : Nat) : CodePoint :=
  if inside : leastSurrogate ≤ code ∧ code < leastSurrogate + 2048 then
    .surrogate ⟨code - leastSurrogate, by omega⟩
  else .character (Char.ofNat code)

def shown : CodePoint → Char
  | .character char => char
  | .surrogate _ => Char.ofNat 0xfffd

end CodePoint

abbrev LooseText := List CodePoint

namespace LooseText

def ofChars (chars : List Char) : LooseText :=
  chars.map .character

def ofString (value : String) : LooseText :=
  ofChars value.toList

def shown (value : LooseText) : String :=
  String.ofList (value.map CodePoint.shown)

end LooseText

end TypeInType
