import TypeInType.Proofs.Gaps
import TypeInType.Surface.Lexer

/-!
Texts made of pieces that the lexer tells apart. A word is read as a whole where no
character behind it would carry it on, and what is read as a name anywhere is read
as that name alone.
-/

namespace TypeInType

theorem scan_eq (file : String) (position : Position) (text : List Char) :
    scan file position text =
      match skipGap .between position text with
      | .error opened => .error (.of unterminatedComment (some (opened.place file)))
      | .ok (position, rest) =>
          match lexeme? rest with
          | some (kind, word) =>
              (scan file (position.afterAll word) (rest.drop word.length)).map fun following =>
                { following with
                  items := ⟨kind, String.ofList word, position.place file⟩ :: following.items }
          | none =>
              match rest with
              | [] => .ok ⟨[], position.place file⟩
              | char :: _ =>
                  .error (.of (unexpectedCharacter char) (some (position.place file))) := by
  rw [scan]
  split
  · rename_i opened failed
    simp only [failed]
  · rename_i after rest skipped
    simp only [skipped]
    split
    · rename_i kind word found
      simp only [found]
      cases scan file (after.afterAll word) (rest.drop word.length) <;> rfl
    · rename_i missing
      simp only [missing]
      cases rest <;> rfl

/-! Words. -/

def IsWord (word : List Char) : Prop :=
  ∃ first tail, word = first :: tail ∧ isNameStart first = true ∧ nameTail tail = tail

/-- No word in front of the text runs on into it. -/
def StopsWord (text : List Char) : Prop :=
  ∀ char ∈ text.head?, isNameChar char = false ∧ isPrime char = false

theorem stopsWord_nil : StopsWord [] := by
  intro char impossible
  cases impossible

theorem stopsWord_cons {char : Char} (notName : isNameChar char = false)
    (notPrime : isPrime char = false) (rest : List Char) : StopsWord (char :: rest) := by
  intro other same
  obtain rfl := Option.some.inj same
  exact ⟨notName, notPrime⟩

theorem takeWhile_of_stop {stops : Char → Bool} {text : List Char}
    (stopped : ∀ char ∈ text.head?, stops char = false) :
    text.takeWhile stops = [] ∧ text.dropWhile stops = text := by
  cases text with
  | nil => exact ⟨rfl, rfl⟩
  | cons char rest =>
      have first := stopped char rfl
      constructor
      · rw [List.takeWhile_cons, first]
        rfl
      · rw [List.dropWhile_cons, first]
        rfl

theorem isNameChar_of_isPrime {char : Char} (prime : isPrime char = true) :
    isNameChar char = false := by
  obtain rfl := of_decide_eq_true prime
  decide

theorem nameTail_of_parts {chars primes rest : List Char}
    (areChars : ∀ char ∈ chars, isNameChar char = true)
    (arePrimes : ∀ char ∈ primes, isPrime char = true) (stops : StopsWord rest) :
    nameTail (chars ++ (primes ++ rest)) = chars ++ primes := by
  have charsStop : ∀ char ∈ (primes ++ rest).head?, isNameChar char = false := by
    intro char first
    cases primes with
    | nil => exact (stops char first).1
    | cons prime others =>
        obtain rfl := Option.some.inj first
        exact isNameChar_of_isPrime (arePrimes _ List.mem_cons_self)
  obtain ⟨noChars, keepsPrimes⟩ := takeWhile_of_stop charsStop
  obtain ⟨noPrimes, _⟩ := takeWhile_of_stop fun char first => (stops char first).2
  rw [nameTail, List.takeWhile_append_of_pos areChars, List.dropWhile_append_of_pos areChars,
    noChars, keepsPrimes, List.takeWhile_append_of_pos arePrimes, noPrimes, List.append_nil,
    List.append_nil]

theorem nameTail_parts (text : List Char) :
    ∃ chars primes, nameTail text = chars ++ primes ∧
      (∀ char ∈ chars, isNameChar char = true) ∧ ∀ char ∈ primes, isPrime char = true :=
  ⟨_, _, rfl, fun _ => List.mem_takeWhile_imp, fun _ => List.mem_takeWhile_imp⟩

theorem nameTail_append {tail rest : List Char} (whole : nameTail tail = tail)
    (stops : StopsWord rest) : nameTail (tail ++ rest) = tail := by
  obtain ⟨chars, primes, split, areChars, arePrimes⟩ := nameTail_parts tail
  rw [whole] at split
  rw [split, List.append_assoc]
  exact nameTail_of_parts areChars arePrimes stops

theorem lexeme?_cons {first : Char} (starts : isNameStart first = true) (rest : List Char) :
    lexeme? (first :: rest) =
      some (.ofWord (String.ofList (first :: nameTail rest)), first :: nameTail rest) := by
  have differs : ∀ symbol : Char, isNameStart symbol = false → (symbol == first) = false := by
    intro symbol notStart
    rw [beq_eq_false_iff_ne]
    rintro rfl
    rw [notStart] at starts
    cases starts
  have noSymbol : symbols.find? (fun symbol => symbol.1.isPrefixOf (first :: rest)) = none := by
    simp [symbols, List.isPrefixOf, differs '-' (by decide), differs '=' (by decide),
      differs ':' (by decide), differs '(' (by decide), differs ')' (by decide),
      differs ',' (by decide), differs ';' (by decide)]
  rw [lexeme?, noSymbol]
  exact if_pos starts

theorem lexeme?_word {word rest : List Char} (isWord : IsWord word) (stops : StopsWord rest) :
    lexeme? (word ++ rest) = some (.ofWord (String.ofList word), word) := by
  obtain ⟨first, tail, rfl, starts, whole⟩ := isWord
  rw [List.cons_append, lexeme?_cons starts, nameTail_append whole stops]

inductive Spells : TokenKind → List Char → Prop where
  | symbol {kind : TokenKind} {word : List Char} : (word, kind) ∈ symbols → Spells kind word
  | word {first : Char} {chars primes : List Char} :
      isNameStart first = true → (∀ char ∈ chars, isNameChar char = true) →
        (∀ char ∈ primes, isPrime char = true) →
          Spells (.ofWord (String.ofList (first :: (chars ++ primes)))) (first :: (chars ++ primes))

theorem spells_nameTail {first : Char} (starts : isNameStart first = true) (text : List Char) :
    Spells (.ofWord (String.ofList (first :: nameTail text))) (first :: nameTail text) := by
  obtain ⟨chars, primes, split, areChars, arePrimes⟩ := nameTail_parts text
  rw [split]
  exact .word starts areChars arePrimes

theorem spells_of_lexeme? {text word : List Char} {kind : TokenKind}
    (found : lexeme? text = some (kind, word)) : Spells kind word := by
  unfold lexeme? at found
  split at found
  · rename_i symbol symbolKind hit
    simp only [Option.some.injEq, Prod.mk.injEq] at found
    obtain ⟨rfl, rfl⟩ := found
    exact .symbol (List.mem_of_find?_eq_some hit)
  · cases text with
    | nil => cases found
    | cons first rest =>
        simp only at found
        split at found
        · rename_i starts
          simp only [Option.some.injEq, Prod.mk.injEq] at found
          obtain ⟨rfl, rfl⟩ := found
          exact spells_nameTail starts rest
        · cases found

theorem Spells.isWord {kind : TokenKind} {word : List Char} (spelled : Spells kind word)
    (notSymbol : ∀ symbol ∈ symbols, symbol.2 ≠ kind) :
    IsWord word ∧ TokenKind.ofWord (String.ofList word) = kind := by
  cases spelled with
  | symbol listed => exact absurd rfl (notSymbol _ listed)
  | @word first chars primes starts areChars arePrimes =>
      have whole := nameTail_of_parts areChars arePrimes stopsWord_nil
      rw [List.append_nil] at whole
      exact ⟨⟨first, _, rfl, starts, whole⟩, rfl⟩

theorem isWord_of_lexeme? {text word : List Char} (found : lexeme? text = some (.name, word)) :
    IsWord word ∧ TokenKind.ofWord (String.ofList word) = .name :=
  (spells_of_lexeme? found).isWord (by decide)

def RunsOn (word rest : List Char) : Prop :=
  word = ['='] ∧ rest.head? = some '>' ∨ word = [':'] ∧ rest.head? = some '='

theorem lexeme?_symbol {kind : TokenKind} {word rest : List Char}
    (listed : (word, kind) ∈ symbols) (whole : ¬RunsOn word rest) :
    lexeme? (word ++ rest) = some (kind, word) := by
  -- In each of the cases the symbols that stand before this one in the table differ from the
  -- text at their first or second character.
  have found : symbols.find? (fun symbol => symbol.1.isPrefixOf (word ++ rest)) =
      some (word, kind) := by
    simp only [symbols, List.mem_cons, Prod.mk.injEq, List.not_mem_nil, or_false] at listed
    have differ : ∀ {char other : Char}, char ≠ other → (other == char) = false :=
      fun differ => beq_eq_false_iff_ne.mpr differ.symm
    rcases listed with ⟨rfl, rfl⟩ | ⟨rfl, rfl⟩ | ⟨rfl, rfl⟩ | ⟨rfl, rfl⟩ | ⟨rfl, rfl⟩ | ⟨rfl, rfl⟩ |
      ⟨rfl, rfl⟩ | ⟨rfl, rfl⟩ | ⟨rfl, rfl⟩ <;>
      cases rest <;> simp_all [RunsOn, symbols, List.isPrefixOf]
  rw [lexeme?.eq_def, found]

theorem lexeme?_eq_none {first : Char} (notStart : isNameStart first = false)
    (notSymbol : ∀ symbol ∈ symbols, symbol.1.head? ≠ some first) (rest : List Char) :
    lexeme? (first :: rest) = none := by
  have noSymbol : symbols.find? (fun symbol => symbol.1.isPrefixOf (first :: rest)) = none := by
    rw [List.find?_eq_none]
    intro symbol listed isPrefix
    have differs := notSymbol symbol listed
    obtain ⟨word, kind⟩ := symbol
    cases word with
    | nil => simp [symbols] at listed
    | cons char word =>
        simp only [List.isPrefixOf, Bool.and_eq_true, beq_iff_eq] at isPrefix
        exact differs (congrArg some isPrefix.1)
  rw [lexeme?, noSymbol]
  exact if_neg (Bool.eq_false_iff.mp notStart)

theorem head_of_lexeme? {first : Char} {rest : List Char} {found : TokenKind × List Char}
    (hit : lexeme? (first :: rest) = some found) : isBlank first = false ∧ first ≠ '/' := by
  have none : ∀ char : Char, isNameStart char = false →
      (∀ symbol ∈ symbols, symbol.1.head? ≠ some char) → first ≠ char := by
    rintro char notStart notSymbol rfl
    rw [lexeme?_eq_none notStart notSymbol] at hit
    cases hit
  constructor
  · simp only [isBlank, Bool.or_eq_false_iff, decide_eq_false_iff_not]
    exact ⟨⟨⟨none ' ' (by decide) (by decide), none '\t' (by decide) (by decide)⟩,
      none '\r' (by decide) (by decide)⟩, none '\n' (by decide) (by decide)⟩
  · exact none '/' (by decide) (by decide)

/-! Pieces. -/

inductive Piece where
  | blank (char : Char)
  | lexeme (kind : TokenKind) (word : List Char)

namespace Piece

def chars : Piece → List Char
  | .blank char => [char]
  | .lexeme _ word => word

def lexemes : Piece → List (TokenKind × String)
  | .blank _ => []
  | .lexeme kind word => [(kind, String.ofList word)]

end Piece

def charsOf (pieces : List Piece) : List Char :=
  pieces.flatMap Piece.chars

def lexemesOf (pieces : List Piece) : List (TokenKind × String) :=
  pieces.flatMap Piece.lexemes

@[simp]
theorem charsOf_nil : charsOf [] = [] := rfl

@[simp]
theorem charsOf_blank (char : Char) (rest : List Piece) :
    charsOf (.blank char :: rest) = char :: charsOf rest := rfl

@[simp]
theorem charsOf_lexeme (kind : TokenKind) (word : List Char) (rest : List Piece) :
    charsOf (.lexeme kind word :: rest) = word ++ charsOf rest := rfl

def Separated : List Piece → Prop
  | [] => True
  | .blank char :: rest => isBlank char = true ∧ Separated rest
  | .lexeme kind word :: rest => lexeme? (word ++ charsOf rest) = some (kind, word) ∧ Separated rest

def Token.lexeme (token : Token) : TokenKind × String :=
  (token.kind, token.text)

theorem scan_blank (file : String) (position : Position) {char : Char}
    (blank : isBlank char = true) (rest : List Char) :
    scan file position (char :: rest) = scan file (position.after char) rest := by
  rw [scan_eq, scan_eq file (position.after char), skipGap_blank blank]

theorem startsNoGap_of_lexeme? {text : List Char} {found : TokenKind × List Char}
    (hit : lexeme? text = some found) : StartsNoGap text := by
  cases text with
  | nil => cases hit
  | cons first rest =>
      obtain ⟨notBlank, notSlash⟩ := head_of_lexeme? hit
      constructor
      · rintro char same
        obtain rfl := Option.some.inj same
        exact notBlank
      · exact fun comment => notSlash (List.cons_prefix_cons.mp comment).1.symm
      · exact fun comment => notSlash (List.cons_prefix_cons.mp comment).1.symm

theorem scan_lexeme (file : String) (position : Position) {text word : List Char}
    {kind : TokenKind} (found : lexeme? text = some (kind, word)) :
    scan file position text =
      (scan file (position.afterAll word) (text.drop word.length)).map fun following =>
        { following with
          items := ⟨kind, String.ofList word, position.place file⟩ :: following.items } := by
  rw [scan_eq, skipGap_stops (startsNoGap_of_lexeme? found)]
  simp only [found]

/-- The tokens of a text in separate pieces are those of the pieces. -/
theorem scan_charsOf {pieces : List Piece} (separated : Separated pieces) (file : String)
    (position : Position) :
    ∃ tokens, scan file position (charsOf pieces) = .ok tokens ∧
      tokens.items.map Token.lexeme = lexemesOf pieces := by
  induction pieces generalizing position with
  | nil =>
      refine ⟨⟨[], position.place file⟩, ?_, rfl⟩
      rw [scan_eq]
      rfl
  | cons piece rest ih =>
      cases piece with
      | blank char =>
          obtain ⟨blank, separated⟩ := separated
          obtain ⟨tokens, scanned, spelled⟩ := ih separated (position.after char)
          exact ⟨tokens, (scan_blank file position blank _).trans scanned, spelled⟩
      | lexeme kind word =>
          obtain ⟨found, separated⟩ := separated
          obtain ⟨tokens, scanned, spelled⟩ := ih separated (position.afterAll word)
          let first : Token := ⟨kind, String.ofList word, position.place file⟩
          refine ⟨{ tokens with items := first :: tokens.items }, ?_, ?_⟩
          · show scan file position (word ++ charsOf rest) = _
            rw [scan_lexeme file position found, List.drop_left, scanned]
            rfl
          · exact congrArg (List.cons first.lexeme) spelled

end TypeInType
