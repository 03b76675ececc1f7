import TypeInType.Datum.Flat.Scalar

/-!
Flat files: records of values that hold no further values. The entries stand on
lines of their own as `key: value`, all of them indented alike, or else all of
them stand in braces, with commas between them. A comment starts at a `#` that
begins a line, follows a space or follows a closed value. A value in quotes may
go on over lines of any form, a plain one over lines that are indented further.
A list with an item on each line and a value alone on a line are read as well.

All this is YAML, but YAML has other forms too, and these are taken for malformed here. So this
reader may stand for one of YAML where the files are flat, as it does in the program that is run.
-/

namespace TypeInType

namespace Flat

def isAllowed (char : Char) : Bool :=
  let code := char.toNat
  code = 9 || code = 10 || code = 13 || (0x20 ≤ code && code ≤ 0x7e) || code = 0x85
    || (0xa0 ≤ code && code ≠ 0xfffe && code ≠ 0xffff)

def withoutTrailingSpace (chars : List Char) : List Char :=
  (chars.reverse.dropWhile (· = ' ')).reverse

def isRemark (chars : List Char) : Bool :=
  match chars.dropWhile (· = ' ') with
  | [] => true
  | '#' :: _ => true
  | _ => false

def isMark (char : Char) : Bool :=
  ",[]\x7b\x7d#&*!|>'\"%@\x60".toList.contains char

def isPlainStart (chars : List Char) : Bool :=
  match chars with
  | [] => false
  | char :: rest =>
      if char = '-' ∨ char = '?' ∨ char = ':' then rest.head?.any (!isBlank ·)
      else !isMark char && !isBlank char

/-- The plain text at the front of a line, perhaps with space behind it. It ends
before a tab, before a comment and before a colon with nothing or a blank behind
it. -/
def plainFront : List Char → List Char
  | [] => []
  | char :: rest =>
      if char = '\t' || isBreak char then []
      else if char = ':' && rest.head?.all isBlank then []
      else if char = ' ' && rest.head? = some '#' then []
      else char :: plainFront rest

/-- The breaks before the next text, and that text with the column it stands in.
Nothing, if a separator comes first. -/
def nextText? (column : Nat) : List Char → Option (List Char × Nat × List Char)
  | [] => some ([], column, [])
  | char :: rest =>
      if char = ' ' then nextText? (column + 1) rest
      else if isBreak char then
        if isSeparator rest then none
        else (nextText? 0 rest).map fun (breaks, found) => (plainBreak char :: breaks, found)
      else some ([], column, char :: rest)

theorem length_nextText?_le (column : Nat) (chars : List Char) :
    ∀ found, nextText? column chars = some found →
      found.1.length + found.2.2.length ≤ chars.length := by
  induction chars generalizing column with
  | nil =>
      intro found hit
      simp only [nextText?, Option.some.injEq] at hit
      simp [← hit]
  | cons char rest ih =>
      intro found hit
      simp only [nextText?] at hit
      split at hit
      · exact Nat.le_succ_of_le (ih _ found hit)
      · split at hit
        · split at hit
          · simp at hit
          · simp only [Option.map_eq_some_iff] at hit
            obtain ⟨inner, innerHit, rfl⟩ := hit
            have shorter := ih 0 inner innerHit
            simp only [List.length_cons]
            omega
        · simp only [Option.some.injEq] at hit
          simp [← hit]

def plainText (depth : Nat) (chars : List Char) : List Char × List Char :=
  let front := plainFront chars
  let after := chars.drop front.length
  let text := withoutTrailingSpace front
  match found : nextText? 0 after with
  | some (first :: later, column, next) =>
      if column ≤ depth || next.head? = some '#' || (plainFront next).isEmpty then (text, after)
      else
        have : next.length < chars.length := by
          have shorter := length_nextText?_le 0 after _ found
          simp only [after, List.length_cons, List.length_drop] at shorter
          omega
        let (more, rest) := plainText depth next
        (text ++ foldedBreaks (some first) later ++ more, rest)
  | _ => (text, after)
termination_by chars.length

def scalarFront (depth : Nat) (chars : List Char) : Reading (Scalar × List Char) :=
  let quoted (parts : LooseText × List Char) : Scalar × List Char := (.quoted parts.1, parts.2)
  match chars with
  | '\'' :: rest => (quotedFront '\'' rest).map quoted
  | '"' :: rest => (quotedFront '"' rest).map quoted
  | chars =>
      if isPlainStart chars then
        let (text, after) := plainText depth chars
        .ok (.plain text, after)
      else .error .malformed

def afterRemark (chars : List Char) : Reading (List Char) :=
  let rest := chars.takeWhile (!isBreak ·)
  if isRemark rest then .ok (chars.drop rest.length) else .error .malformed

def scalarAlone (depth : Nat) (chars : List Char) : Reading (Scalar × List Char) := do
  match afterRemark chars with
  | .ok after => return (.plain [], after)
  | .error _ =>
      let (value, after) ← scalarFront depth (chars.dropWhile (· = ' '))
      return (value, ← afterRemark after)

inductive Line where
  | entry (key value : Scalar)
  | item (value : Scalar)
  | alone (value : Scalar)

def longestKey : Nat := 1024

/-- Is `rest` what follows the colon behind a key, which `chars` begin with? A key
stands on one line. -/
def isBehindKey (chars rest : List Char) : Bool :=
  let key := chars.take (chars.length - rest.length - 1)
  rest.head?.all isBlank && key.length ≤ longestKey && !key.any isBreak

def line (depth : Nat) (chars : List Char) : Reading (Line × List Char) := do
  if chars.head? = some '-' && chars.tail.head?.all isBlank then
    let (value, after) ← scalarAlone depth chars.tail
    return (.item value, after)
  let (front, after) ← scalarFront depth chars
  match after.dropWhile (· = ' ') with
  | ':' :: rest =>
      if isBehindKey chars rest then
        let (value, after) ← scalarAlone depth rest
        return (.entry front value, after)
      else .error .malformed
  | _ => return (.alone front, ← afterRemark after)

def indentation (chars : List Char) : Nat :=
  (chars.takeWhile (· = ' ')).length

def lines (depth : Nat) : List Char → Reading (List Line)
  | [] => .ok []
  | char :: rest =>
      let text := (char :: rest).takeWhile (!isBreak ·)
      if isRemark text then lines depth (rest.drop text.length)
      else if indentation text ≠ depth || (depth = 0 && isSeparator (char :: rest)) then
        .error .malformed
      else
        match line depth ((char :: rest).drop depth) with
        | .ok (first, after) =>
            (lines depth (rest.drop (rest.length - after.length))).map (first :: ·)
        | .error fault => .error fault
termination_by chars => chars.length
decreasing_by
  · simp only [List.length_drop, List.length_cons]
    omega
  · simp only [List.length_drop, List.length_cons]
    omega

inductive Piece where
  | comma
  | colon
  | scalar (value : Scalar)

def bracedPlain : List Char → List Char
  | [] => []
  | char :: rest =>
      let endsAt (char : Char) : Bool := ",[]\x7b\x7d".toList.contains char
      if char = '\t' || isBreak char || char = '?' || endsAt char then []
      else if char = ':' && rest.head?.all fun next => isBlank next || endsAt next then []
      else if char = ' ' && rest.head? = some '#' then []
      else char :: bracedPlain rest

def piece (char : Char) (rest : List Char) : Reading (Piece × Nat) :=
  let quoted (parts : LooseText × List Char) : Reading (Piece × Nat) :=
    let length := rest.length - parts.2.length
    if (rest.take length).any isBreak then .error .malformed
    else .ok (.scalar (.quoted parts.1), length)
  match char with
  | ',' => .ok (.comma, 0)
  | ':' => .ok (.colon, 0)
  | '\'' => quotedFront '\'' rest >>= quoted
  | '"' => quotedFront '"' rest >>= quoted
  | '?' => .error .malformed
  | char =>
      if isPlainStart (char :: rest) then
        let plain := bracedPlain rest
        .ok (.scalar (.plain (withoutTrailingSpace (char :: plain))), plain.length)
      else .error .malformed

def pieces : List Char → Reading (List Piece)
  | [] => .error .malformed
  | '\x7d' :: rest =>
      if (partsBetween isBreak rest).all isRemark then .ok [] else .error .malformed
  | char :: rest =>
      if char = ' ' || isBreak char then pieces rest
      else
        match piece char rest with
        | .ok (piece, count) => (pieces (rest.drop count)).map (piece :: ·)
        | .error fault => .error fault
termination_by chars => chars.length
decreasing_by
  · simp
  · simp only [List.length_drop, List.length_cons]
    omega

abbrev Entries := List (Scalar × Scalar)

def pieceEntries? : List Piece → Option Entries
  | [] => some []
  | .scalar key :: .colon :: .scalar value :: .comma :: rest =>
      (pieceEntries? rest).map ((key, value) :: ·)
  | .scalar key :: .colon :: .comma :: rest =>
      (pieceEntries? rest).map ((key, .plain []) :: ·)
  | .scalar key :: .comma :: rest => (pieceEntries? rest).map ((key, .plain []) :: ·)
  | [.scalar key, .colon, .scalar value] => some [(key, value)]
  | [.scalar key, .colon] => some [(key, .plain [])]
  | [.scalar key] => some [(key, .plain [])]
  | _ => none

/-- The entries with their meanings. Of two values of one key the last counts,
and a key that is no text is left out. -/
def recordFrom (known : List (LooseText × Datum)) :
    Entries → Reading (List (LooseText × Datum))
  | [] => .ok known
  | (key, value) :: rest => do
      let key ← key.keyMeaning
      let value ← value.meaning
      match key with
      | .text key => recordFrom (Datum.set known key value) rest
      | _ => recordFrom known rest

def record (entries : Entries) : Reading Datum :=
  let isMerge : Scalar → Bool
    | .plain ['<', '<'] => true
    | _ => false
  if entries.any fun entry => isMerge entry.1 then .error .malformed
  else (recordFrom [] entries).map .record

def ofLines : List Line → Reading Datum
  | [] => .ok .null
  | [.alone value] => value.meaning
  | lines =>
      let entry? : Line → Option (Scalar × Scalar)
        | .entry key value => some (key, value)
        | _ => none
      let item? : Line → Option Scalar
        | .item value => some value
        | _ => none
      match lines.mapM entry?, lines.mapM item? with
      | some entries, _ => record entries
      | none, some items => (items.mapM Scalar.meaning).map .list
      | none, none => .error .malformed

def ofText (source : List Char) : Reading Datum :=
  match source.dropWhile fun char => char = ' ' || isBreak char with
  | '\x7b' :: rest => do
      match pieceEntries? (← pieces rest) with
      | some entries => record entries
      | none => .error .malformed
  | _ => do
      let first? := (partsBetween isBreak source).find? (!isRemark ·)
      ofLines (← lines ((first?.map indentation).getD 0) source)

end Flat

/-- The datum in a flat file, which may begin with a byte order mark. -/
def Datum.ofFlat (source : String) : Except DatumFault Datum :=
  if source.toList.all Flat.isAllowed then
    match source.toList with
    | '\ufeff' :: rest => Flat.ofText rest
    | chars => Flat.ofText chars
  else .error .malformed

instance : YamlReader :=
  ⟨Datum.ofFlat⟩

end TypeInType
