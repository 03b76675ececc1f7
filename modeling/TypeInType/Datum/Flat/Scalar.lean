import TypeInType.Datum.Basic

/-!
Values in flat files. A value stands in single quotes, where a quote is written
twice, or in double quotes, where a backslash starts an escape, or it is plain.
What a plain value means is read off its form: a truth value, a number, nothing
or a text. A value may go on over several lines, which are folded into one.
-/

namespace TypeInType

namespace Flat

abbrev Reading := Except DatumFault

def isBreak (char : Char) : Bool :=
  [0xa, 0x85, 0x2028, 0x2029].contains char.toNat

def isBlank (char : Char) : Bool :=
  char = ' ' || char = '\t' || isBreak char

def plainBreak (char : Char) : Char :=
  if char.toNat = 0x85 then '\n' else char

def isSeparator (chars : List Char) : Bool :=
  ["---".toList, "...".toList].contains (chars.take 3) && (chars.drop 3).head?.all isBlank

def escaped? (char : Char) : Option Char :=
  match char with
  | '0' => some (Char.ofNat 0)
  | 'a' => some (Char.ofNat 7)
  | 'b' => some (Char.ofNat 8)
  | 't' => some '\t'
  | '\t' => some '\t'
  | 'n' => some '\n'
  | 'v' => some (Char.ofNat 11)
  | 'f' => some (Char.ofNat 12)
  | 'r' => some '\r'
  | 'e' => some (Char.ofNat 27)
  | ' ' => some ' '
  | '"' => some '"'
  | '/' => some '/'
  | '\\' => some '\\'
  | 'N' => some (Char.ofNat 0x85)
  | '_' => some (Char.ofNat 0xa0)
  | 'L' => some (Char.ofNat 0x2028)
  | 'P' => some (Char.ofNat 0x2029)
  | _ => none

def codePoint (digits : List Char) : Reading CodePoint :=
  match digits.mapM Whole.hexDigit? with
  | none => .error .malformed
  | some values =>
      let code := Whole.valueOf 16 values
      if code < 0x110000 then .ok (.ofNat code) else .error (.noCodePoint code)

/-- What stands in quotes. Blanks and line breaks count only as far as folding
leaves them; a joint is a line break that is taken back. -/
inductive QuotedPart where
  | point (point : CodePoint)
  | blank (char : Char)
  | lineBreak (char : Char)
  | joint

def QuotedPart.ofChar (char : Char) : QuotedPart :=
  if char = ' ' || char = '\t' then .blank char
  else if isBreak char then .lineBreak (plainBreak char)
  else .point (.character char)

/-- What the breaks between two pieces of text become. A newline that comes first
is dropped, or becomes a space if no other break follows; all others stay. -/
def foldedBreaks (first : Option Char) (later : List Char) : List Char :=
  match first, later with
  | some '\n', [] => [' ']
  | some '\n', later => later
  | some char, later => char :: later
  | none, later => later

mutual

def folded (blanks : List Char) : List QuotedPart → LooseText
  | [] => .ofChars blanks
  | .point point :: rest => LooseText.ofChars blanks ++ point :: folded [] rest
  | .blank char :: rest => folded (blanks ++ [char]) rest
  | .lineBreak char :: rest => foldedBehind (some char) [] rest
  | .joint :: rest => LooseText.ofChars blanks ++ foldedBehind none [] rest

def foldedBehind (first : Option Char) (later : List Char) : List QuotedPart → LooseText
  | [] => .ofChars (foldedBreaks first later)
  | .point point :: rest => LooseText.ofChars (foldedBreaks first later) ++ point :: folded [] rest
  | .blank _ :: rest => foldedBehind first later rest
  | .lineBreak char :: rest => foldedBehind first (later ++ [char]) rest
  | .joint :: rest => LooseText.ofChars (foldedBreaks first later) ++ foldedBehind none [] rest

end

def singleQuoted : List Char → Reading (List QuotedPart × List Char)
  | [] => .error .malformed
  | '\'' :: '\'' :: rest =>
      (singleQuoted rest).map fun (parts, after) => (.point (.character '\'') :: parts, after)
  | '\'' :: rest => .ok ([], rest)
  | char :: rest =>
      if isBreak char && isSeparator rest then .error .malformed
      else (singleQuoted rest).map fun (parts, after) => (.ofChar char :: parts, after)

def doubleQuoted : List Char → Reading (List QuotedPart × List Char)
  | [] => .error .malformed
  | '"' :: rest => .ok ([], rest)
  | '\\' :: 'x' :: a :: b :: rest => do
      let point ← codePoint [a, b]
      let (parts, after) ← doubleQuoted rest
      return (.point point :: parts, after)
  | '\\' :: 'u' :: a :: b :: c :: d :: rest => do
      let point ← codePoint [a, b, c, d]
      let (parts, after) ← doubleQuoted rest
      return (.point point :: parts, after)
  | '\\' :: 'U' :: a :: b :: c :: d :: e :: f :: g :: h :: rest => do
      let point ← codePoint [a, b, c, d, e, f, g, h]
      let (parts, after) ← doubleQuoted rest
      return (.point point :: parts, after)
  | '\\' :: char :: rest =>
      if isBreak char then
        if isSeparator rest then .error .malformed
        else (doubleQuoted rest).map fun (parts, after) => (.joint :: parts, after)
      else
        match escaped? char with
        | none => .error .malformed
        | some meant =>
            (doubleQuoted rest).map fun (parts, after) =>
              (.point (.character meant) :: parts, after)
  | char :: rest =>
      if isBreak char && isSeparator rest then .error .malformed
      else (doubleQuoted rest).map fun (parts, after) => (.ofChar char :: parts, after)

def quotedFront (quote : Char) (chars : List Char) : Reading (LooseText × List Char) :=
  (if quote = '"' then doubleQuoted chars else singleQuoted chars).map
    fun (parts, after) => (folded [] parts, after)

def partsBetween (separates : Char → Bool) : List Char → List (List Char)
  | [] => [[]]
  | char :: rest =>
      if separates char then [] :: partsBetween separates rest
      else
        match partsBetween separates rest with
        | [] => [[char]]
        | part :: more => (char :: part) :: more

def truthWords : List (String × Bool) :=
  ["yes", "Yes", "YES", "true", "True", "TRUE", "on", "On", "ON"].map (·, true)
    ++ ["no", "No", "NO", "false", "False", "FALSE", "off", "Off", "OFF"].map (·, false)

def nothingWords : List String := ["", "~", "null", "Null", "NULL"]

def isDigitWord (chars : List Char) : Bool :=
  chars.head?.any Char.isDigit && chars.all fun char => char.isDigit || char = '_'

def inBinaryBase? (base : Nat) (chars : List Char) : Option (Reading Nat) :=
  let digits := chars.filter (· ≠ '_')
  match digits.mapM fun char => (Whole.hexDigit? char).filter (· < base) with
  | none => none
  | some values =>
      if chars.isEmpty then none
      else if values.isEmpty then some (.error (.noDigits base))
      else some (.ok (Whole.valueOf base values))

def inBaseTen (chars : List Char) : Reading Nat :=
  (Whole.ofDigitChars (chars.filter (· ≠ '_'))).mapError .ofWhole

def isSixtieth (chars : List Char) : Bool :=
  match chars with
  | [low] => low.isDigit
  | [high, low] => '0' ≤ high && high ≤ '5' && low.isDigit
  | _ => false

def inBaseSixty? (chars : List Char) : Option (Reading Nat) :=
  match partsBetween (· = ':') chars with
  | first :: second :: rest =>
      if isDigitWord first && (second :: rest).all isSixtieth then
        some do
          let first ← inBaseTen first
          let later ← (second :: rest).mapM inBaseTen
          return Whole.valueOf 60 (first :: later)
      else none
  | _ => none

/-- A whole number without its sign: to base 2 after `0b`, to base 16 after `0x`,
to base 8 after `0`, to base 60 with colons, and else to base 10. -/
def magnitude? (chars : List Char) : Option (Reading Nat) :=
  match chars with
  | ['0'] => some (.ok 0)
  | '0' :: 'b' :: rest => inBinaryBase? 2 rest
  | '0' :: 'x' :: rest => inBinaryBase? 16 rest
  | '0' :: rest => inBinaryBase? 8 ('0' :: rest)
  | chars => if isDigitWord chars then some (inBaseTen chars) else inBaseSixty? chars

def whole? (chars : List Char) : Option (Reading Int) :=
  let (negative, body) := Whole.signed chars
  (magnitude? body).map fun result => result.map (Whole.withSign negative)

def valueIn (base : Nat) (chars : List Char) : Nat :=
  Whole.valueOf base (chars.filterMap Whole.hexDigit?)

def exponent? (chars : List Char) : Option Int :=
  match chars with
  | [] => some 0
  | mark :: sign :: digits =>
      if (mark = 'e' ∨ mark = 'E') ∧ (sign = '+' ∨ sign = '-') ∧ !digits.isEmpty
          ∧ digits.all Char.isDigit then
        some (Whole.withSign (sign = '-') (valueIn 10 digits))
      else none
  | _ => none

/-- A decimal has a point, with a digit before it or, unsigned, behind it. -/
def decimal? (chars : List Char) : Option Binary64 :=
  let (negative, body) := Whole.signed chars
  let signed := body.length < chars.length
  let inDigits (char : Char) : Bool := char.isDigit || char = '_'
  let before := body.takeWhile inDigits
  match body.dropWhile inDigits with
  | '.' :: rest =>
      let behind := rest.takeWhile inDigits
      let startsRight :=
        if before.isEmpty then !signed && behind.head?.any Char.isDigit
        else before.head?.any Char.isDigit
      let word := String.ofList rest
      if before.isEmpty && ["inf", "Inf", "INF"].contains word then some (.infinite negative)
      else if before.isEmpty && !signed && ["nan", "NaN", "NAN"].contains word then some .nan
      else if startsRight then
        (exponent? (rest.dropWhile inDigits)).map fun power =>
          let fraction := behind.filter (· ≠ '_')
          .ofDecimal negative (valueIn 10 (before ++ fraction)) (power - fraction.length)
      else none
  | _ => none

def reservedWords : List String := ["=", "<<"]

def plainMeaning (chars : List Char) : Reading Datum :=
  let word := String.ofList chars
  if nothingWords.contains word then .ok .null
  else if reservedWords.contains word then .error .malformed
  else
    match truthWords.lookup word with
    | some value => .ok (.boolean value)
    | none =>
        match decimal? chars with
        | some value => .ok (.decimal value)
        | none =>
            match whole? chars with
            | some result => result.map Datum.integer
            | none => .ok (.text (.ofChars chars))

inductive Scalar where
  | quoted (body : LooseText)
  | plain (chars : List Char)

def Scalar.meaning : Scalar → Reading Datum
  | .quoted body => .ok (.text body)
  | .plain chars => plainMeaning chars

/-- A key means what a value means, but an equals sign is a key as any other. -/
def Scalar.keyMeaning : Scalar → Reading Datum
  | .plain ['='] => .ok (.text [.character '='])
  | key => key.meaning

end Flat

end TypeInType
