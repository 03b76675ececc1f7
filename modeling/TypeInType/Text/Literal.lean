import TypeInType.Text.Loose
import TypeInType.Text.Printable

/-!
The literal form of a text: in single quotes, or in double ones if it holds a
single quote and no double one. What cannot be printed is written by its code.
-/

namespace TypeInType

def hexDigits (count code : Nat) : List Char :=
  let digits := Nat.toDigits 16 code
  List.replicate (count - digits.length) '0' ++ digits

def literalChar (quote char : Char) : List Char :=
  if char = quote ∨ char = '\\' then ['\\', char]
  else if char = '\n' then ['\\', 'n']
  else if char = '\r' then ['\\', 'r']
  else if char = '\t' then ['\\', 't']
  else if isPrintable char then [char]
  else if char.toNat ≤ 0xff then '\\' :: 'x' :: hexDigits 2 char.toNat
  else if char.toNat ≤ 0xffff then '\\' :: 'u' :: hexDigits 4 char.toNat
  else '\\' :: 'U' :: hexDigits 8 char.toNat

def literalCodePoint (quote : Char) (point : CodePoint) : List Char :=
  match point with
  | .character char => literalChar quote char
  | .surrogate _ => '\\' :: 'u' :: hexDigits 4 point.toNat

def LooseText.literal (value : LooseText) : String :=
  let quote :=
    if value.contains (.character '\'') && !value.contains (.character '"') then '"' else '\''
  String.ofList (quote :: value.flatMap (literalCodePoint quote) ++ [quote])

end TypeInType
