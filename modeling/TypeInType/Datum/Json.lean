import TypeInType.Datum.Basic

/-!
Reading JSON. Beside the standard's values `NaN`, `Infinity` and `-Infinity` are
taken. Of two entries of one key the last counts, in the place of the first. A
character below the space must be escaped in a text, and surrogates that are
escaped in pairs are one character. Of two faults the first one counts.
-/

namespace TypeInType

namespace Json

inductive Token where
  | openList
  | closeList
  | openRecord
  | closeRecord
  | comma
  | colon
  | value (value : Datum)
  | whole (negative : Bool) (digits : List Char)

def isSpace (char : Char) : Bool :=
  char = ' ' || char = '\t' || char = '\n' || char = '\r'

def codeUnit? (digits : List Char) : Option Nat :=
  (digits.mapM Whole.hexDigit?).map (Whole.valueOf 16)

def escaped? (char : Char) : Option Nat :=
  match char with
  | '"' => some 0x22
  | '\\' => some 0x5c
  | '/' => some 0x2f
  | 'b' => some 8
  | 'f' => some 12
  | 'n' => some 10
  | 'r' => some 13
  | 't' => some 9
  | _ => none

def textBody? : List Char → Option (List Nat × Nat)
  | [] => none
  | '"' :: _ => some ([], 1)
  | '\\' :: 'u' :: a :: b :: c :: d :: rest =>
      match codeUnit? [a, b, c, d], textBody? rest with
      | some unit, some (codes, count) => some (unit :: codes, count + 6)
      | _, _ => none
  | '\\' :: char :: rest =>
      match escaped? char, textBody? rest with
      | some code, some (codes, count) => some (code :: codes, count + 2)
      | _, _ => none
  | char :: rest =>
      if char.toNat < 32 then none
      else
        match textBody? rest with
        | some (codes, count) => some (char.toNat :: codes, count + 1)
        | none => none

def joinSurrogates : List Nat → LooseText
  | high :: low :: rest =>
      if 0xd800 ≤ high ∧ high < 0xdc00 ∧ 0xdc00 ≤ low ∧ low < 0xe000 then
        .ofNat (0x10000 + (high - 0xd800) * 0x400 + (low - 0xdc00)) :: joinSurrogates rest
      else .ofNat high :: joinSurrogates (low :: rest)
  | [code] => [.ofNat code]
  | [] => []

def fraction (chars : List Char) : List Char :=
  match chars with
  | '.' :: rest => rest.takeWhile Char.isDigit
  | _ => []

def exponent (chars : List Char) : Int × Nat :=
  match chars with
  | mark :: rest =>
      if mark = 'e' ∨ mark = 'E' then
        let (negative, body) := Whole.signed rest
        let digits := body.takeWhile Char.isDigit
        if digits.isEmpty then (0, 0)
        else
          let magnitude := Whole.valueOf 10 (digits.map fun char => char.toNat - '0'.toNat)
          (Whole.withSign negative magnitude, 1 + (rest.length - body.length) + digits.length)
      else (0, 0)
  | [] => (0, 0)

def number (negative : Bool) (chars : List Char) : Option (Token × Nat) :=
  let digits :=
    if chars.head? = some '0' then ['0'] else chars.takeWhile Char.isDigit
  if digits.isEmpty then none
  else
    let rest := chars.drop digits.length
    let fraction := fraction rest
    let fractionLength := if fraction.isEmpty then 0 else fraction.length + 1
    let (power, exponentLength) := exponent (rest.drop fractionLength)
    if fractionLength + exponentLength = 0 then
      some (.whole negative digits, digits.length)
    else
      let all := (digits ++ fraction).map fun char => char.toNat - '0'.toNat
      some (.value (.decimal
          (.ofDecimal negative (Whole.valueOf 10 all) (power - fraction.length))),
        digits.length + fractionLength + exponentLength)

def words : List (String × Datum) :=
  [("null", .null), ("true", .boolean true), ("false", .boolean false), ("NaN", .decimal .nan),
    ("Infinity", .decimal (.infinite false)), ("-Infinity", .decimal (.infinite true))]

def token? (char : Char) (rest : List Char) : Option (Token × Nat) :=
  match char with
  | '[' => some (.openList, 0)
  | ']' => some (.closeList, 0)
  | '\x7b' => some (.openRecord, 0)
  | '\x7d' => some (.closeRecord, 0)
  | ',' => some (.comma, 0)
  | ':' => some (.colon, 0)
  | '"' => (textBody? rest).map fun (codes, count) => (.value (.text (joinSurrogates codes)), count)
  | char =>
      match words.find? fun word => word.1.toList.isPrefixOf (char :: rest) with
      | some (word, value) => some (.value value, word.length - 1)
      | none =>
          if char = '-' then number true rest
          else (number false (char :: rest)).map fun (token, count) => (token, count - 1)

/-- A list or record that is not closed yet: the items before, latest first, or
the entries before and the key of the next one. -/
inductive Container where
  | list (items : List Datum)
  | record (entries : List (LooseText × Datum)) (key : LooseText)

inductive State where
  | value (outer : List Container)
  | firstItem (outer : List Container)
  | firstKey (outer : List Container)
  | key (entries : List (LooseText × Datum)) (outer : List Container)
  | colon (entries : List (LooseText × Datum)) (key : LooseText) (outer : List Container)
  | filled (value : Datum) (outer : List Container)

/-- A value begins. Only here are the digits of a whole number looked at. -/
def start (token : Token) (outer : List Container) : Except DatumFault State :=
  match token with
  | .openList => .ok (.firstItem outer)
  | .openRecord => .ok (.firstKey outer)
  | .value value => .ok (.filled value outer)
  | .whole negative digits =>
      match Whole.ofDigitChars digits with
      | .ok magnitude => .ok (.filled (.integer (Whole.withSign negative magnitude)) outer)
      | .error fault => .error (.ofWhole fault)
  | _ => .error .malformed

def takeKey (token : Token) (entries : List (LooseText × Datum))
    (outer : List Container) : Except DatumFault State :=
  match token with
  | .value (.text key) => .ok (.colon entries key outer)
  | _ => .error .malformed

def extend (state : State) (token : Token) : Except DatumFault State :=
  match state, token with
  | .value outer, token => start token outer
  | .firstItem outer, .closeList => .ok (.filled (.list []) outer)
  | .firstItem outer, token => start token (.list [] :: outer)
  | .firstKey outer, .closeRecord => .ok (.filled (.record []) outer)
  | .firstKey outer, token => takeKey token [] outer
  | .key entries outer, token => takeKey token entries outer
  | .colon entries key outer, .colon => .ok (.value (.record entries key :: outer))
  | .filled value (.list items :: outer), .comma => .ok (.value (.list (value :: items) :: outer))
  | .filled value (.list items :: outer), .closeList =>
      .ok (.filled (.list (value :: items).reverse) outer)
  | .filled value (.record entries key :: outer), .comma =>
      .ok (.key (Datum.set entries key value) outer)
  | .filled value (.record entries key :: outer), .closeRecord =>
      .ok (.filled (.record (Datum.set entries key value)) outer)
  | _, _ => .error .malformed

def readFrom (state : State) : List Char → Except DatumFault Datum
  | [] =>
      match state with
      | .filled value [] => .ok value
      | _ => .error .malformed
  | char :: rest =>
      if isSpace char then readFrom state rest
      else
        match token? char rest with
        | none => .error .malformed
        | some (token, count) =>
            match extend state token with
            | .ok next => readFrom next (rest.drop count)
            | .error fault => .error fault
termination_by text => text.length
decreasing_by
  · simp
  · simp only [List.length_drop, List.length_cons]
    omega

end Json

def Datum.ofJson (source : String) : Except DatumFault Datum :=
  Json.readFrom (.value []) source.toList

end TypeInType
