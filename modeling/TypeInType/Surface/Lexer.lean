import TypeInType.Diagnosis
import TypeInType.Surface.Gap
import TypeInType.Surface.Token
import TypeInType.Text.Letter
import TypeInType.Text.Numeral

/-!
Splitting a text into tokens. A token is the longest one at its place: a name
runs on while letters, numerals and underscores follow and then takes the primes
behind it, and the longer of two symbols goes first in the table.
-/

namespace TypeInType

def isNameStart (char : Char) : Bool :=
  isLetter char || char = '_'

def isNameChar (char : Char) : Bool :=
  isLetter char || isNumeral char || char = '_'

def isPrime (char : Char) : Bool :=
  char = '\''

def nameTail (text : List Char) : List Char :=
  text.takeWhile isNameChar ++ (text.dropWhile isNameChar).takeWhile isPrime

def symbols : List (List Char × TokenKind) :=
  [(['-', '>'], .arrow),
    (['=', '>'], .fatArrow),
    (['='], .assign),
    ([':', '='], .define),
    ([':'], .colon),
    (['('], .leftParen),
    ([')'], .rightParen),
    ([','], .comma),
    ([';'], .semicolon)]

def lexeme? (text : List Char) : Option (TokenKind × List Char) :=
  match symbols.find? fun symbol => symbol.1.isPrefixOf text with
  | some (word, kind) => some (kind, word)
  | none =>
      match text with
      | [] => none
      | char :: rest =>
          if isNameStart char then
            let word := char :: nameTail rest
            some (.ofWord (String.ofList word), word)
          else none

theorem nameTail_prefix (text : List Char) : nameTail text <+: text := by
  refine ⟨(text.dropWhile isNameChar).dropWhile isPrime, ?_⟩
  rw [nameTail, List.append_assoc, List.takeWhile_append_dropWhile,
    List.takeWhile_append_dropWhile]

theorem lexeme?_prefix (text : List Char) (kind : TokenKind) (word : List Char)
    (found : lexeme? text = some (kind, word)) : word ≠ [] ∧ word <+: text := by
  unfold lexeme? at found
  split at found
  next symbolWord symbolKind hit =>
    simp only [Option.some.injEq, Prod.mk.injEq] at found
    obtain ⟨rfl, rfl⟩ := found
    constructor
    · have listed := List.mem_of_find?_eq_some hit
      intro empty
      subst empty
      simp [symbols] at listed
    · simpa using List.find?_some hit
  next =>
    split at found
    · simp at found
    · split at found
      · simp only [Option.some.injEq, Prod.mk.injEq] at found
        obtain ⟨rfl, rfl⟩ := found
        exact ⟨by simp, List.cons_prefix_cons.mpr ⟨rfl, nameTail_prefix _⟩⟩
      · simp at found

theorem length_drop_lexeme (text : List Char) (kind : TokenKind) (word : List Char)
    (found : lexeme? text = some (kind, word)) :
    (text.drop word.length).length < text.length := by
  obtain ⟨nonempty, rest, rfl⟩ := lexeme?_prefix text kind word found
  have positive := List.length_pos_iff.mpr nonempty
  simp only [List.length_drop, List.length_append]
  omega

def unterminatedComment : Cause := .badSyntax "Unterminated comment"

def unexpectedCharacter (char : Char) : Cause :=
  .badSyntax ("Unexpected character '" ++ char.toString ++ "'")

def scan (file : String) (position : Position) (text : List Char) : Except Diagnosis Tokens :=
  match _ : skipGap .between position text with
  | .error opened => .error (.of unterminatedComment (some (opened.place file)))
  | .ok (position, rest) =>
      match _ : lexeme? rest with
      | some (kind, word) =>
          match scan file (position.afterAll word) (rest.drop word.length) with
          | .error diagnosis => .error diagnosis
          | .ok following =>
              let token : Token := ⟨kind, String.ofList word, position.place file⟩
              .ok { following with items := token :: following.items }
      | none =>
          match rest with
          | [] => .ok ⟨[], position.place file⟩
          | char :: _ =>
              .error (.of (unexpectedCharacter char) (some (position.place file)))
termination_by text.length
decreasing_by
  have notLonger := skipGap_length_le _ _ _ _ _ (by assumption)
  have shorter := length_drop_lexeme _ _ _ (by assumption)
  omega

def tokenize (source file : String) : Except Diagnosis Tokens :=
  scan file .start source.toList

end TypeInType
