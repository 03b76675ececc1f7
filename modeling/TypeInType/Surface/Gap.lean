import TypeInType.Location

/-!
What may stand between two tokens: blanks, comments from `//` to the end of the
line, and comments from `/*` to the next `*/`. A position is carried along, so
that a comment that is never closed can be reported where it was opened.
-/

namespace TypeInType

structure Position where
  line : Nat
  column : Nat
  deriving DecidableEq, Repr

namespace Position

def start : Position := ⟨1, 1⟩

def after (position : Position) (char : Char) : Position :=
  if char = '\n' then ⟨position.line + 1, 1⟩ else ⟨position.line, position.column + 1⟩

def afterAll (position : Position) (chars : List Char) : Position :=
  chars.foldl after position

theorem afterAll_append (position : Position) (left right : List Char) :
    position.afterAll (left ++ right) = (position.afterAll left).afterAll right := by
  simp [afterAll]

def place (position : Position) (file : String) : Location :=
  ⟨position.line, position.column, file⟩

end Position

def isBlank (char : Char) : Bool :=
  char = ' ' || char = '\t' || char = '\r' || char = '\n'

inductive GapState where
  | between
  | lineComment
  | blockComment (opened : Position)

/-- The position and the text after the gap at the front of a text, or the place
of a comment that is not closed. -/
def skipGap : GapState → Position → List Char → Except Position (Position × List Char)
  | .between, position, [] => .ok (position, [])
  | .between, position, '/' :: '/' :: rest =>
      skipGap .lineComment (position.afterAll ['/', '/']) rest
  | .between, position, '/' :: '*' :: rest =>
      skipGap (.blockComment position) (position.afterAll ['/', '*']) rest
  | .between, position, char :: rest =>
      if isBlank char then skipGap .between (position.after char) rest
      else .ok (position, char :: rest)
  | .lineComment, position, [] => .ok (position, [])
  | .lineComment, position, char :: rest =>
      skipGap (if char = '\n' then .between else .lineComment) (position.after char) rest
  | .blockComment opened, _, [] => .error opened
  | .blockComment _, position, '*' :: '/' :: rest =>
      skipGap .between (position.afterAll ['*', '/']) rest
  | .blockComment opened, position, char :: rest =>
      skipGap (.blockComment opened) (position.after char) rest

theorem skipGap_splits (state : GapState) (position : Position) (text : List Char)
    (after : Position) (rest : List Char)
    (skipped : skipGap state position text = .ok (after, rest)) :
    ∃ gap, text = gap ++ rest ∧ after = position.afterAll gap := by
  fun_induction skipGap state position text with
  | case1 position =>
      obtain ⟨rfl, rfl⟩ := Prod.mk.inj (Except.ok.inj skipped)
      exact ⟨[], rfl, rfl⟩
  | case2 position tail ih =>
      obtain ⟨gap, rfl, rfl⟩ := ih skipped
      exact ⟨'/' :: '/' :: gap, rfl, rfl⟩
  | case3 position tail ih =>
      obtain ⟨gap, rfl, rfl⟩ := ih skipped
      exact ⟨'/' :: '*' :: gap, rfl, rfl⟩
  | case4 position char tail _ _ _ ih =>
      obtain ⟨gap, rfl, rfl⟩ := ih skipped
      exact ⟨char :: gap, rfl, rfl⟩
  | case5 position char tail =>
      obtain ⟨rfl, rfl⟩ := Prod.mk.inj (Except.ok.inj skipped)
      exact ⟨[], rfl, rfl⟩
  | case6 position =>
      obtain ⟨rfl, rfl⟩ := Prod.mk.inj (Except.ok.inj skipped)
      exact ⟨[], rfl, rfl⟩
  | case7 position char tail ih =>
      obtain ⟨gap, rfl, rfl⟩ := ih skipped
      exact ⟨char :: gap, rfl, rfl⟩
  | case8 => simp at skipped
  | case9 opened position tail ih =>
      obtain ⟨gap, rfl, rfl⟩ := ih skipped
      exact ⟨'*' :: '/' :: gap, rfl, rfl⟩
  | case10 opened position char tail _ ih =>
      obtain ⟨gap, rfl, rfl⟩ := ih skipped
      exact ⟨char :: gap, rfl, rfl⟩

theorem skipGap_length_le (state : GapState) (position : Position) (text : List Char)
    (after : Position) (rest : List Char)
    (skipped : skipGap state position text = .ok (after, rest)) :
    rest.length ≤ text.length := by
  obtain ⟨gap, rfl, _⟩ := skipGap_splits state position text after rest skipped
  simp

end TypeInType
