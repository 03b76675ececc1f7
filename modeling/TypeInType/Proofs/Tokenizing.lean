import TypeInType.Proofs.Lexing

/-!
What the lexer makes of a text, said of the text alone. A text is laid out as tokens with a gap
in front of each, where every token is the longest one at its place and carries that place.
Every text is laid out so, up to a last gap and what cannot be read behind it, and the lexer
finds just this layout: nothing of the text is lost, and no token stands where it was not.
-/

namespace TypeInType

/-! ## The longest token at a place -/

structure Longest (kind : TokenKind) (word behind : List Char) : Prop where
  spelled : Spells kind word
  longest : ∀ other longer, Spells other longer → longer <+: word ++ behind →
    longer.length ≤ word.length

theorem length_le_nameTail {chars primes : List Char}
    (areChars : ∀ char ∈ chars, isNameChar char = true)
    (arePrimes : ∀ char ∈ primes, isPrime char = true) (rest : List Char) :
    (chars ++ primes).length ≤ (nameTail (chars ++ primes ++ rest)).length := by
  rw [nameTail, List.append_assoc, List.takeWhile_append_of_pos areChars,
    List.dropWhile_append_of_pos areChars]
  cases primes with
  | nil => simp
  | cons prime others =>
      have notName := isNameChar_of_isPrime (arePrimes prime List.mem_cons_self)
      have stopped : ∀ char ∈ (prime :: others ++ rest).head?, isNameChar char = false := by
        intro char first
        obtain rfl := Option.some.inj first
        exact notName
      obtain ⟨noChars, keepsPrimes⟩ := takeWhile_of_stop stopped
      rw [noChars, keepsPrimes, List.takeWhile_append_of_pos arePrimes]
      simp

theorem longest_of_lexeme? {word behind : List Char} {kind : TokenKind}
    (found : lexeme? (word ++ behind) = some (kind, word)) : Longest kind word behind := by
  refine ⟨spells_of_lexeme? found, ?_⟩
  rintro other longer spelled ⟨rest, split⟩
  rw [← split] at found
  cases spelled with
  | symbol listed =>
      by_cases runsOn : RunsOn longer rest
      · -- A symbol that runs on is a single character.
        obtain ⟨nonempty, _⟩ := lexeme?_prefix _ _ _ found
        rcases runsOn with ⟨rfl, _⟩ | ⟨rfl, _⟩
        · exact List.length_pos_iff.mpr nonempty
        · exact List.length_pos_iff.mpr nonempty
      · rw [lexeme?_symbol listed runsOn] at found
        obtain ⟨_, rfl⟩ := Prod.mk.inj (Option.some.inj found)
        exact Nat.le_refl _
  | word starts areChars arePrimes =>
      rw [List.cons_append, lexeme?_cons starts] at found
      obtain ⟨_, rfl⟩ := Prod.mk.inj (Option.some.inj found)
      exact Nat.succ_le_succ (length_le_nameTail areChars arePrimes rest)

theorem not_runsOn_of_longest {kind : TokenKind} {word behind : List Char}
    (longest : Longest kind word behind) : ¬RunsOn word behind := by
  rintro (⟨rfl, next⟩ | ⟨rfl, next⟩)
  · obtain ⟨rest, rfl⟩ := List.head?_eq_some_iff.mp next
    have shorter := longest.longest .fatArrow ['=', '>'] (.symbol (by decide)) ⟨rest, rfl⟩
    simp at shorter
  · obtain ⟨rest, rfl⟩ := List.head?_eq_some_iff.mp next
    have shorter := longest.longest .define [':', '='] (.symbol (by decide)) ⟨rest, rfl⟩
    simp at shorter

theorem lexeme?_longest {kind : TokenKind} {word behind : List Char}
    (longest : Longest kind word behind) : lexeme? (word ++ behind) = some (kind, word) := by
  cases longest.spelled with
  | symbol listed => exact lexeme?_symbol listed (not_runsOn_of_longest longest)
  | @word first chars primes starts areChars arePrimes =>
      rw [List.cons_append, lexeme?_cons starts]
      have reaches := length_le_nameTail areChars arePrimes behind
      have taken := nameTail_prefix (chars ++ primes ++ behind)
      have stops := Nat.le_of_succ_le_succ <| longest.longest _ _
        (spells_nameTail starts (chars ++ primes ++ behind)) (List.cons_prefix_cons.mpr ⟨rfl, taken⟩)
      have same : nameTail (chars ++ primes ++ behind) = chars ++ primes :=
        (List.prefix_of_prefix_length_le taken (List.prefix_append _ _) stops).eq_of_length
          (Nat.le_antisymm stops reaches)
      rw [same]

theorem exists_lexeme_of_spells {kind : TokenKind} {word : List Char} (spelled : Spells kind word)
    (behind : List Char) : ∃ found, lexeme? (word ++ behind) = some found := by
  cases spelled with
  | symbol listed =>
      by_cases runsOn : RunsOn word behind
      · rcases runsOn with ⟨rfl, next⟩ | ⟨rfl, next⟩
        · obtain ⟨rest, rfl⟩ := List.head?_eq_some_iff.mp next
          exact ⟨(.fatArrow, ['=', '>']), rfl⟩
        · obtain ⟨rest, rfl⟩ := List.head?_eq_some_iff.mp next
          exact ⟨(.define, [':', '=']), rfl⟩
      · exact ⟨_, lexeme?_symbol listed runsOn⟩
  | word starts areChars arePrimes => exact ⟨_, lexeme?_cons starts _⟩

structure StartsNothing (text : List Char) : Prop where
  noGap : StartsNoGap text
  noToken : ∀ kind word, Spells kind word → ¬word <+: text

theorem lexeme?_startsNothing {text : List Char} (starts : StartsNothing text) :
    lexeme? text = none := by
  cases found : lexeme? text with
  | none => rfl
  | some hit =>
      obtain ⟨_, begins⟩ := lexeme?_prefix text hit.1 hit.2 found
      exact absurd begins (starts.noToken _ _ (spells_of_lexeme? found))

theorem startsNothing_of_lexeme? {text : List Char} (noGap : StartsNoGap text)
    (missing : lexeme? text = none) : StartsNothing text := by
  refine ⟨noGap, ?_⟩
  rintro kind word spelled ⟨behind, rfl⟩
  obtain ⟨found, hit⟩ := exists_lexeme_of_spells spelled behind
  rw [missing] at hit
  cases hit

/-! ## Layouts -/

structure Stretch where
  gap : List Char
  token : Token

def Stretch.word (stretch : Stretch) : List Char :=
  stretch.token.text.toList

def Stretch.chars (stretch : Stretch) : List Char :=
  stretch.gap ++ stretch.word

/-- The gap is one and the token is the longest at its place, which it carries. -/
structure Stretch.Fits (file : String) (before : List Char) (stretch : Stretch)
    (behind : List Char) : Prop where
  gap : Gap (stretch.word ++ behind) stretch.gap
  token : Longest stretch.token.kind stretch.word behind
  place : stretch.token.place = placeBehind (before ++ stretch.gap) file

def charsOfAll (stretches : List Stretch) : List Char :=
  stretches.flatMap Stretch.chars

def LaidOut (file : String) (before : List Char) : List Stretch → List Char → Prop
  | [], _ => True
  | stretch :: rest, behind =>
      stretch.Fits file before (charsOfAll rest ++ behind) ∧
        LaidOut file (before ++ stretch.chars) rest behind

inductive Unreadable : List Char → String → Prop where
  | comment {text : List Char} : Unclosed text → Unreadable text "Unterminated comment"
  | character {char : Char} {rest : List Char} : StartsNothing (char :: rest) →
      Unreadable (char :: rest) ("Unexpected character '" ++ char.toString ++ "'")

section Scanning

variable {file : String} {before : List Char}

theorem scan_gap {gap behind : List Char} (isGap : Gap behind gap) (position : Position) :
    scan file position (gap ++ behind) = scan file (position.afterAll gap) behind := by
  rw [scan_eq, scan_eq file (position.afterAll gap), skipGap_gap isGap]

theorem scan_fits {stretch : Stretch} {behind : List Char} (fits : stretch.Fits file before behind) :
    scan file (Position.start.afterAll before) (stretch.chars ++ behind) =
      (scan file (Position.start.afterAll (before ++ stretch.chars)) behind).map fun following =>
        { following with items := stretch.token :: following.items } := by
  obtain ⟨gap, token⟩ := stretch
  obtain ⟨isGap, longest, place⟩ := fits
  rw [Stretch.chars, List.append_assoc, scan_gap isGap,
    scan_lexeme file _ (lexeme?_longest longest), List.drop_left, ← Position.afterAll_append,
    ← Position.afterAll_append, place_afterAll, ← place, List.append_assoc]
  simp only [Stretch.word, String.ofList_toList]

theorem scan_laidOut {stretches : List Stretch} {behind : List Char}
    (laidOut : LaidOut file before stretches behind) :
    scan file (Position.start.afterAll before) (charsOfAll stretches ++ behind) =
      (scan file (Position.start.afterAll (before ++ charsOfAll stretches)) behind).map
        fun following =>
          { following with items := stretches.map Stretch.token ++ following.items } := by
  induction stretches generalizing before with
  | nil =>
      rw [charsOfAll, List.flatMap_nil, List.nil_append, List.append_nil]
      cases scan file (Position.start.afterAll before) behind <;> rfl
  | cons stretch rest ih =>
      obtain ⟨fits, laidOut⟩ := laidOut
      rw [charsOfAll, List.flatMap_cons, List.append_assoc]
      rw [← charsOfAll, scan_fits fits, ih laidOut, ← List.append_assoc]
      cases scan file _ behind <;> rfl

theorem scan_end {gap : List Char} (isGap : Gap [] gap) :
    scan file (Position.start.afterAll before) gap =
      .ok ⟨[], placeBehind (before ++ gap) file⟩ := by
  rw [← List.append_nil gap, scan_gap isGap, scan_eq, ← Position.afterAll_append,
    ← place_afterAll, List.append_nil]
  rfl

theorem scan_unreadable {gap rest : List Char} {message : String} (isGap : Gap rest gap)
    (unreadable : Unreadable rest message) :
    scan file (Position.start.afterAll before) (gap ++ rest) =
      .error (.of (.badSyntax message) (some (placeBehind (before ++ gap) file))) := by
  rw [scan_gap isGap, scan_eq, ← Position.afterAll_append, ← place_afterAll]
  cases unreadable with
  | comment unclosed =>
      rw [skipGap_unclosed unclosed]
      rfl
  | character starts =>
      rw [skipGap_stops starts.noGap]
      simp only [lexeme?_startsNothing starts]
      rfl

end Scanning

theorem exists_stretch (file : String) (before : List Char) {gap rest word : List Char}
    {kind : TokenKind} (isGap : Gap rest gap) (found : lexeme? rest = some (kind, word)) :
    ∃ (stretch : Stretch) (behind : List Char), gap ++ rest = stretch.chars ++ behind ∧
      behind.length < rest.length ∧ stretch.Fits file before behind := by
  obtain ⟨nonempty, behind, rfl⟩ := lexeme?_prefix rest kind word found
  let stretch : Stretch := ⟨gap, kind, String.ofList word, placeBehind (before ++ gap) file⟩
  have spelled : stretch.word = word := String.toList_ofList
  refine ⟨stretch, behind, ?_, ?_, ?_, ?_, rfl⟩
  · rw [Stretch.chars, spelled, List.append_assoc]
  · rw [List.length_append]
    exact Nat.lt_add_of_pos_left (List.length_pos_iff.mpr nonempty)
  · rw [spelled]
    exact isGap
  · rw [spelled]
    exact longest_of_lexeme? found

/-- Every text has a layout, up to a last gap and what cannot be read behind it. -/
theorem exists_layout (file : String) (before text : List Char) :
    ∃ stretches gap rest, text = charsOfAll stretches ++ (gap ++ rest) ∧
      LaidOut file before stretches (gap ++ rest) ∧ Gap rest gap ∧
        (rest = [] ∨ ∃ message, Unreadable rest message) := by
  obtain ⟨gap, rest, split, isGap, noGap | unclosed⟩ := exists_gap text
  · cases found : lexeme? rest with
    | none =>
        refine ⟨[], gap, rest, split, trivial, isGap, ?_⟩
        cases rest with
        | nil => exact .inl rfl
        | cons char rest =>
            exact .inr ⟨_, .character (startsNothing_of_lexeme? noGap found)⟩
    | some hit =>
        obtain ⟨stretch, behind, begins, shorter, fits⟩ := exists_stretch file before isGap found
        have decreases : behind.length < text.length := by
          rw [split, List.length_append]
          omega
        obtain ⟨stretches, lastGap, last, further, laidOut, ends⟩ :=
          exists_layout file (before ++ stretch.chars) behind
        refine ⟨stretch :: stretches, lastGap, last, ?_, ⟨further ▸ fits, laidOut⟩, ends⟩
        rw [split, begins, further, charsOfAll, charsOfAll, List.flatMap_cons, List.append_assoc]
  · exact ⟨[], gap, rest, split, trivial, isGap, .inr ⟨_, .comment unclosed⟩⟩
termination_by text.length

theorem tokenize_laidOut {source file : String} {stretches : List Stretch} {gap : List Char}
    (split : source.toList = charsOfAll stretches ++ gap)
    (laidOut : LaidOut file [] stretches gap) (isGap : Gap [] gap) :
    tokenize source file =
      .ok ⟨stretches.map Stretch.token, placeBehind source.toList file⟩ := by
  rw [tokenize, split]
  have scanned := scan_laidOut laidOut
  rw [List.nil_append, scan_end isGap] at scanned
  refine Eq.trans scanned ?_
  rw [Except.map, List.append_nil]

theorem tokenize_unreadable {source file message : String} {stretches : List Stretch}
    {gap rest : List Char} (split : source.toList = charsOfAll stretches ++ (gap ++ rest))
    (laidOut : LaidOut file [] stretches (gap ++ rest)) (isGap : Gap rest gap)
    (unreadable : Unreadable rest message) :
    tokenize source file = .error (.of (.badSyntax message)
      (some (placeBehind (charsOfAll stretches ++ gap) file))) := by
  rw [tokenize, split]
  have scanned := scan_laidOut laidOut
  rw [List.nil_append, scan_unreadable isGap unreadable] at scanned
  exact scanned

/-- What is tokenized is a text laid out up to a last gap, and what is refused is refused at
what cannot be read behind one. -/
theorem tokens_and_gaps_make_up_text (source file : String) :
    (∀ tokens, tokenize source file = .ok tokens ↔
      ∃ stretches gap, source.toList = charsOfAll stretches ++ gap ∧
        LaidOut file [] stretches gap ∧ Gap [] gap ∧
          tokens = ⟨stretches.map Stretch.token, placeBehind source.toList file⟩) ∧
    ∀ diagnosis, tokenize source file = .error diagnosis ↔
      ∃ stretches gap rest message, source.toList = charsOfAll stretches ++ (gap ++ rest) ∧
        LaidOut file [] stretches (gap ++ rest) ∧ Gap rest gap ∧ Unreadable rest message ∧
          diagnosis = .of (.badSyntax message)
            (some (placeBehind (charsOfAll stretches ++ gap) file)) := by
  -- The text has a layout, and a layout leaves only one outcome.
  obtain ⟨stretches, gap, rest, split, laidOut, isGap, ends⟩ :=
    exists_layout file [] source.toList
  constructor
  · intro tokens
    constructor
    · intro tokenized
      rcases ends with rfl | ⟨message, unreadable⟩
      · rw [List.append_nil] at split laidOut
        rw [tokenize_laidOut split laidOut isGap] at tokenized
        exact ⟨stretches, gap, split, laidOut, isGap, (Except.ok.inj tokenized).symm⟩
      · rw [tokenize_unreadable split laidOut isGap unreadable] at tokenized
        cases tokenized
    · rintro ⟨stretches, gap, split, laidOut, isGap, rfl⟩
      exact tokenize_laidOut split laidOut isGap
  · intro diagnosis
    constructor
    · intro refused
      rcases ends with rfl | ⟨message, unreadable⟩
      · rw [List.append_nil] at split laidOut
        rw [tokenize_laidOut split laidOut isGap] at refused
        cases refused
      · rw [tokenize_unreadable split laidOut isGap unreadable] at refused
        exact ⟨stretches, gap, rest, message, split, laidOut, isGap, unreadable,
          (Except.error.inj refused).symm⟩
    · rintro ⟨stretches, gap, rest, message, split, laidOut, isGap, unreadable, rfl⟩
      exact tokenize_unreadable split laidOut isGap unreadable

end TypeInType
