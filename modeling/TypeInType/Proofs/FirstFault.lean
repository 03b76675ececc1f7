import Mathlib.Data.List.Basic
import Mathlib.Data.Option.Basic
import TypeInType.Proofs.Acceptance

/-!
A refusal points at the first token that cannot be right. What has been taken before it can
still be completed: whatever is open is closed by made-up tokens that end it. And behind the
tokens before it the refused one stands in no sentence, since the reader that keeps trees gets
over every sentence. The end of the text counts as its last token, so that a text which ends
too early is at fault there.
-/

namespace TypeInType

/-! ## Where a text is at fault -/

def withEnd (tokens : List Token) : List (Option Token) :=
  tokens.map some ++ [none]

def Tokens.placeOf (text : Tokens) : Option Token → Location
  | some token => token.place
  | none => text.finish

/-- The diagnosis tells of bad syntax and points at a token of the text. The tokens before that
one begin some sentence, and together with it they begin none. -/
def PointsAtFirstFault {Tree : Type} (tokensOf : Tree → List Token) (text : Tokens)
    (diagnosis : Diagnosis) : Prop :=
  ∃ before found behind,
    withEnd text.items = before ++ found :: behind ∧
      (∃ tree, before <+: withEnd (tokensOf tree)) ∧
      (∀ tree, ¬before ++ [found] <+: withEnd (tokensOf tree)) ∧
      diagnosis.cause.kind = "syntax_error" ∧ diagnosis.place = some (text.placeOf found)

theorem prefix_withEnd {before tokens : List Token} (begins : before <+: tokens) :
    before.map some <+: withEnd tokens :=
  (begins.map some).trans (List.prefix_append _ _)

theorem prefix_of_withEnd {before tokens : List Token} (begins : before.map some <+: withEnd tokens) :
    before <+: tokens := by
  rw [withEnd, List.prefix_concat_iff] at begins
  rcases begins with reachesEnd | within
  · have ends : none ∈ before.map some := by
      rw [reachesEnd]
      exact List.mem_append_right _ List.mem_cons_self
    simp at ends
  · exact (List.prefix_map_iff_of_injective (Option.some_injective _)).mp within

theorem eq_of_ended {before tokens : List Token}
    (begins : before.map some ++ [none] <+: withEnd tokens) : before = tokens := by
  rw [withEnd, List.prefix_concat_iff] at begins
  rcases begins with whole | within
  · exact List.map_injective_iff.mpr (Option.some_injective _) (List.append_cancel_right whole)
  · have ends : none ∈ tokens.map some := within.subset (List.mem_append_right _ List.mem_cons_self)
    simp at ends

section Readers

variable {State Result : Type}

/-- A reader fails where the text ends too early, or at a token that it does not take. -/
theorem Reader.readFrom_eq_error (reader : Reader State Result) {finish : Location}
    {state : State} {tokens : List Token} {diagnosis : Diagnosis}
    (refused : reader.readFrom finish state tokens = .error diagnosis) :
    (∃ last expectation, reader.reach state tokens = some last ∧
        reader.status last = .error expectation ∧
          diagnosis = Reader.refusal expectation none finish) ∨
      ∃ before token behind last, tokens = before ++ token :: behind ∧
        reader.reach state before = some last ∧ reader.extend last token = none ∧
          diagnosis = Reader.refusal (reader.wanted last) (some token) token.place := by
  induction tokens generalizing state with
  | nil =>
      left
      rw [readFrom] at refused
      cases status : reader.status state with
      | ok result =>
          rw [status] at refused
          cases refused
      | error expectation =>
          rw [status] at refused
          exact ⟨state, expectation, rfl, status, (Except.error.inj refused).symm⟩
  | cons token rest ih =>
      rw [readFrom] at refused
      cases extended : reader.extend state token with
      | none =>
          right
          rw [extended] at refused
          exact ⟨[], token, rest, state, rfl, rfl, extended, (Except.error.inj refused).symm⟩
      | some next =>
          rw [extended] at refused
          have goesOn : ∀ taken, reader.reach state (token :: taken) = reader.reach next taken := by
            intro taken
            rw [reach, List.foldlM_cons, extended]
            rfl
          rcases ih refused with ⟨last, expectation, reached, missing⟩ |
            ⟨before, wrong, behind, last, rfl, reached, wrongly⟩
          · exact .inl ⟨last, expectation, (goesOn _).trans reached, missing⟩
          · exact .inr ⟨token :: before, wrong, behind, last, rfl, (goesOn _).trans reached, wrongly⟩

namespace TreeReader

variable {reader : Reader State Result} {start : State} {Tree : Type}
  {tokensOf : Tree → List Token} {meaning : Tree → Result}
  (trees : TreeReader reader start tokensOf meaning)

include trees

/-- If all that grows can be completed, tokens that are taken begin a sentence. -/
theorem begins_of_reach
    (viable : ∀ grown : trees.Grown, ∃ tree, trees.tokens grown <+: tokensOf tree)
    {taken : List Token} {last : State} (reached : reader.reach start taken = some last) :
    ∃ tree, taken <+: tokensOf tree := by
  obtain ⟨grown, _, _, spelled⟩ := trees.grown_of_reach reached
  obtain ⟨tree, begins⟩ := viable grown
  rw [spelled] at begins
  exact ⟨tree, begins⟩

theorem extend_of_begins {taken : List Token} {token : Token} {last : State} {tree : Tree}
    (reached : reader.reach start taken = some last)
    (begins : taken ++ [token] <+: tokensOf tree) :
    ∃ next, reader.extend last token = some next := by
  obtain ⟨grown, grows, rfl, _⟩ := trees.grown_of_reach reached
  obtain ⟨behind, spelled⟩ := begins
  obtain ⟨whole, growsWhole, _⟩ := trees.grow_tree tree
  rw [← spelled, List.append_assoc, grow_append grows, List.singleton_append, grow,
    List.foldlM_cons, Option.bind_eq_bind, Option.bind_eq_some_iff] at growsWhole
  obtain ⟨next, extended, _⟩ := growsWhole
  refine ⟨trees.view next, ?_⟩
  rw [trees.view_extend, extended, Option.map_some]

theorem points_at_first_fault
    (viable : ∀ grown : trees.Grown, ∃ tree, trees.tokens grown <+: tokensOf tree) {text : Tokens}
    {diagnosis : Diagnosis} (refused : reader.read start text = .error diagnosis) :
    PointsAtFirstFault tokensOf text diagnosis := by
  rcases reader.readFrom_eq_error refused with ⟨last, expectation, reached, missing, rfl⟩ |
    ⟨before, token, behind, last, split, reached, notTaken, rfl⟩
  · -- The text ends too early: were it a sentence, it would have been read.
    obtain ⟨tree, begins⟩ := trees.begins_of_reach viable reached
    refine ⟨text.items.map some, none, [], rfl, ⟨tree, prefix_withEnd begins⟩, ?_, rfl, rfl⟩
    intro sentence ended
    have read := (trees.read_eq_ok_iff text (meaning sentence)).mpr
      ⟨sentence, (eq_of_ended ended).symm, rfl⟩
    rw [refused] at read
    cases read
  · obtain ⟨tree, begins⟩ := trees.begins_of_reach viable reached
    refine ⟨before.map some, some token, withEnd behind, ?_, ⟨tree, prefix_withEnd begins⟩, ?_,
      rfl, rfl⟩
    · rw [split, withEnd, withEnd, List.map_append, List.map_cons, List.append_assoc,
        List.cons_append]
    · intro sentence goesOn
      rw [← List.map_singleton, ← List.map_append] at goesOn
      obtain ⟨next, taken⟩ := trees.extend_of_begins reached (prefix_of_withEnd goesOn)
      rw [notTaken] at taken
      cases taken

end TreeReader

end Readers

/-! ## What is open can be closed -/

def madeUp : Leaf :=
  ⟨"", ⟨0, 0, ""⟩⟩

def Tree.shortest : Tree .expression :=
  .operation (.operand (.typeWord madeUp))

theorem viable_below (stems : List Stem) (tree : Tree .expression) :
    ∃ whole : Tree .expression, tokensBelow stems ++ tree.tokens <+: whole.tokens := by
  induction stems generalizing tree with
  | nil => exact ⟨tree, List.prefix_rfl⟩
  | cons stem stems ih =>
      cases stem with
      | codomain domain mark =>
          obtain ⟨whole, begins⟩ := ih (.arrow domain mark tree)
          exact ⟨whole, by simpa [tokensBelow, Stem.tokens, Tree.tokens] using begins⟩
      | body kind word binders mark =>
          obtain ⟨whole, begins⟩ := ih (.abstraction kind word binders mark tree)
          exact ⟨whole, by simpa [tokensBelow, Stem.tokens, Tree.tokens] using begins⟩
      | domain kind word before left name colon =>
          -- The binder is closed, and the abstraction gets a body.
          let binder : Tree .binder := .typed left name colon tree madeUp
          obtain ⟨whole, begins⟩ :=
            ih (.abstraction kind word (Tree.behind before binder) madeUp .shortest)
          refine ⟨whole, List.IsPrefix.trans ?_ begins⟩
          simp [tokensBelow, Stem.tokens, Tree.tokens, tokens_behind, binder]
      | group function left =>
          obtain ⟨whole, begins⟩ := ih (.operation (Tree.joined function (.group left tree madeUp)))
          refine ⟨whole, List.IsPrefix.trans ?_ begins⟩
          simp [tokensBelow, Stem.tokens, Tree.tokens, tokens_joined]

theorem viable_abstraction (stems : List Stem) (kind : BinderKind) (word : Leaf)
    (binders : Tree .binders) {begun : List Token} (begins : begun <+: binders.tokens) :
    ∃ whole : Tree .expression,
      tokensBelow stems ++ word.as kind.openingWord :: begun <+: whole.tokens := by
  obtain ⟨whole, within⟩ := viable_below stems (.abstraction kind word binders madeUp .shortest)
  refine ⟨whole, List.IsPrefix.trans ?_ within⟩
  rw [List.prefix_append_right_inj, Tree.tokens, List.cons_prefix_cons]
  exact ⟨rfl, begins.trans (List.prefix_append _ _)⟩

theorem Growth.viable (growth : Growth) :
    ∃ tree : Tree .expression, growth.tokens <+: tree.tokens := by
  cases growth with
  | opening stems =>
      obtain ⟨tree, begins⟩ := viable_below stems .shortest
      exact ⟨tree, (List.prefix_append _ _).trans begins⟩
  | applied application stems => exact viable_below stems (.operation application)
  | firstBinder kind word stems =>
      exact viable_abstraction stems kind word
        (Tree.behind none (.typed madeUp madeUp madeUp .shortest madeUp)) (List.nil_prefix ..)
  | binderName kind word before left stems =>
      refine viable_abstraction stems kind word
        (Tree.behind before (.typed left madeUp madeUp .shortest madeUp)) ?_
      simp [tokens_behind, Tree.tokens]
  | binderColon kind word before left name stems =>
      refine viable_abstraction stems kind word
        (Tree.behind before (.typed left name madeUp .shortest madeUp)) ?_
      simp [tokens_behind, Tree.tokens]
  | bound kind word binders stems =>
      exact viable_abstraction stems kind word binders List.prefix_rfl

theorem viable_opened (before : List DeclarationTree) (opened : Opened) (growth : Growth) :
    ∃ whole : ProgramTree,
      before.flatMap DeclarationTree.tokens ++ (opened.tokens ++ growth.tokens) <+:
        whole.tokens := by
  obtain ⟨tree, begins⟩ := growth.viable
  obtain ⟨declaration, within⟩ : ∃ declaration : DeclarationTree,
      opened.tokens ++ tree.tokens <+: declaration.tokens := by
    cases opened with
    | value word name sign =>
        refine ⟨.definition word name sign tree madeUp, ?_⟩
        simp [Opened.tokens, DeclarationTree.tokens]
    | statement word name colon =>
        refine ⟨.claim word name colon tree madeUp .shortest madeUp, ?_⟩
        simp [Opened.tokens, DeclarationTree.tokens]
    | proof word name colon goal sign =>
        refine ⟨.claim word name colon goal sign tree madeUp, ?_⟩
        simp [Opened.tokens, DeclarationTree.tokens]
  refine ⟨⟨before ++ [declaration], none⟩, ?_⟩
  have behind : opened.tokens ++ growth.tokens <+: declaration.tokens :=
    ((List.prefix_append_right_inj _).mpr begins).trans within
  simpa [ProgramTree.tokens] using behind

theorem ProgramGrowth.viable (growth : ProgramGrowth) :
    ∃ tree : ProgramTree, growth.tokens <+: tree.tokens := by
  cases growth with
  | between before => exact ⟨⟨before, none⟩, List.prefix_append _ _⟩
  | declaredName declaration word before =>
      obtain ⟨tree, begins⟩ :=
        viable_opened before (declaration.opened word madeUp madeUp) (.opening [])
      refine ⟨tree, List.IsPrefix.trans ?_ begins⟩
      simp [ProgramGrowth.tokens, tokens_opened]
  | declaredMark declaration word name before =>
      obtain ⟨tree, begins⟩ :=
        viable_opened before (declaration.opened word name madeUp) (.opening [])
      refine ⟨tree, List.IsPrefix.trans ?_ begins⟩
      simp [ProgramGrowth.tokens, tokens_opened]
  | inside opened growth before => exact viable_opened before opened growth
  | last first growth begins before =>
      obtain ⟨tree, within⟩ := growth.viable
      refine ⟨⟨before, some ⟨tree, none⟩⟩, ?_⟩
      simpa [ProgramGrowth.tokens, ProgramTree.tokens, ExpressionTree.tokens] using within
  | ended value semicolon before =>
      refine ⟨⟨before, some ⟨value, some semicolon⟩⟩, ?_⟩
      simp [ProgramGrowth.tokens, ProgramTree.tokens, ExpressionTree.tokens]

/-- What is refused is refused once, as bad syntax at the first token that cannot be right. -/
theorem refusals_point_at_first_fault (text : Tokens) (diagnosis : Diagnosis) :
    (readProgram text = .error diagnosis →
      PointsAtFirstFault ProgramTree.tokens text diagnosis) ∧
    (readExpression text = .error diagnosis →
      PointsAtFirstFault (@Tree.tokens .expression) text diagnosis) := by
  constructor
  · intro refused
    exact programTrees.points_at_first_fault ProgramGrowth.viable refused
  · intro refused
    exact expressionTrees.points_at_first_fault Growth.viable refused

/-- Behind `let x = f` a bracket too many is at fault, and behind `(f` the end of the text. -/
theorem bracket_and_end_are_first_faults :
    let opening : List Token := [⟨.letWord, "let", ⟨1, 1, ""⟩⟩, ⟨.name, "x", ⟨1, 5, ""⟩⟩,
      ⟨.assign, "=", ⟨1, 7, ""⟩⟩, ⟨.name, "f", ⟨1, 9, ""⟩⟩]
    let program : Tokens := ⟨opening ++ [⟨.rightParen, ")", ⟨1, 10, ""⟩⟩,
      ⟨.semicolon, ";", ⟨1, 11, ""⟩⟩], ⟨1, 12, ""⟩⟩
    let expression : Tokens :=
      ⟨[⟨.leftParen, "(", ⟨1, 1, ""⟩⟩, ⟨.name, "f", ⟨1, 2, ""⟩⟩], ⟨1, 3, ""⟩⟩
    let excess : Diagnosis :=
      .of (.badSyntax "Expected SEMICOLON, got RPAREN (')')") (some ⟨1, 10, ""⟩)
    let tooEarly : Diagnosis :=
      .of (.badSyntax "Expected RPAREN, got EOF (end of input)") (some ⟨1, 3, ""⟩)
    (readProgram program = .error excess ∧
        PointsAtFirstFault ProgramTree.tokens program excess) ∧
      readExpression expression = .error tooEarly ∧
        PointsAtFirstFault (@Tree.tokens .expression) expression tooEarly := by
  intro opening program expression excess tooEarly
  have programRefused : readProgram program = .error excess := by
    decide
  have expressionRefused : readExpression expression = .error tooEarly := by
    decide
  obtain ⟨ofProgram, _⟩ := refusals_point_at_first_fault program excess
  obtain ⟨_, ofExpression⟩ := refusals_point_at_first_fault expression tooEarly
  exact ⟨⟨programRefused, ofProgram programRefused⟩, expressionRefused,
    ofExpression expressionRefused⟩

end TypeInType
