import TypeInType.Proofs.Spelling
import TypeInType.Surface.Parser

/-!
Reading back what has been written. Every part of a written form stands as an operand:
it is a name, `Type`, or something in brackets. So wherever an operand may stand, the
reader of expressions gets over the written form of a term and holds that term, up to
places.
-/

namespace TypeInType

namespace Reader

variable {State Result : Type} {reader : Reader State Result}

/-- From a state in front of some tokens to another in front of those behind them. -/
def Passes (reader : Reader State Result) (state : State) (tokens : List Token) (next : State)
    (later : List Token) : Prop :=
  ∃ taken, tokens = taken ++ later ∧ reader.reach state taken = some next

theorem passes_step {state next : State} {token : Token}
    (taken : reader.extend state token = some next) (later : List Token) :
    reader.Passes state (token :: later) next later := by
  refine ⟨[token], rfl, ?_⟩
  simp [reach, taken]

theorem Passes.trans {state middle next : State} {tokens rest later : List Token}
    (first : reader.Passes state tokens middle rest)
    (second : reader.Passes middle rest next later) :
    reader.Passes state tokens next later := by
  obtain ⟨firstTaken, rfl, firstReached⟩ := first
  obtain ⟨secondTaken, rfl, secondReached⟩ := second
  refine ⟨firstTaken ++ secondTaken, (List.append_assoc ..).symm, ?_⟩
  rw [reach, List.foldlM_append, Option.bind_eq_bind, Option.bind_eq_some_iff]
  exact ⟨middle, firstReached, secondReached⟩

theorem Passes.first {state next : State} {tokens later : List Token}
    (passes : reader.Passes state tokens next later) (moves : state ≠ next) :
    ∃ token rest middle, tokens = token :: rest ∧ reader.extend state token = some middle ∧
      reader.Passes middle rest next later := by
  obtain ⟨taken, rfl, reached⟩ := passes
  cases taken with
  | nil => exact absurd (Option.some.inj reached) moves
  | cons token taken =>
      rw [reach, List.foldlM_cons, Option.bind_eq_bind, Option.bind_eq_some_iff] at reached
      obtain ⟨middle, extended, reached⟩ := reached
      exact ⟨token, taken ++ later, middle, rfl, extended, taken, rfl, reached⟩

theorem Passes.readFrom_eq {state next : State} {tokens later : List Token}
    (passes : reader.Passes state tokens next later) (finish : Location) :
    reader.readFrom finish state tokens = reader.readFrom finish next later := by
  obtain ⟨taken, rfl, reached⟩ := passes
  exact reader.readFrom_append finish state next taken later reached

end Reader

theorem exists_token {tokens : List Token} {kind : TokenKind} {text : String}
    {lexemes : List (TokenKind × String)}
    (spelled : tokens.map Token.lexeme = (kind, text) :: lexemes) :
    ∃ place later, tokens = ⟨kind, text, place⟩ :: later ∧ later.map Token.lexeme = lexemes := by
  obtain ⟨⟨kind, text, place⟩, later, rfl, first, behind⟩ := List.map_eq_cons_iff.mp spelled
  cases first
  exact ⟨place, later, rfl, behind⟩

/-! Expressions. -/

namespace ExpressionState

def beforeOperand : Option (Term × Location) → List Frame → ExpressionState
  | none, frames => .opening frames
  | some (function, start), frames => .applied function start frames

theorem extend_beforeOperand (function : Option (Term × Location)) (frames : List Frame)
    {token : Token}
    (starts : token.kind = .name ∨ token.kind = .typeWord ∨ token.kind = .leftParen) :
    (beforeOperand function frames).extend token =
      operand (function.map Prod.fst) ((function.map Prod.snd).getD token.place) frames token := by
  cases function with
  | none => rcases starts with kind | kind | kind <;> simp [beforeOperand, extend, kind]
  | some function => rcases starts with kind | kind | kind <;> simp [beforeOperand, extend, kind]

end ExpressionState

open ExpressionState

def ReadAsOperand (form : List Piece → List Piece) (term : Term) : Prop :=
  ∀ tokens rest, tokens.map Token.lexeme = lexemesOf (form rest) → ∀ function frames,
    ∃ again start later, later.map Token.lexeme = lexemesOf rest ∧ again.Same term ∧
      expressionReader.Passes (beforeOperand function frames) tokens
        (.applied (applied (function.map Prod.fst) again start) start frames) later

/-- The reader gets over a form behind an open bracket, and holds the term once the frames
inside are closed. -/
def ReadInBrackets (form : List Piece → List Piece) (term : Term) : Prop :=
  ∀ tokens rest, tokens.map Token.lexeme = lexemesOf (form rest) → ∀ function start frames,
    ∃ again whole place inner later, later.map Token.lexeme = lexemesOf rest ∧ whole.Same term ∧
      settle again inner = (whole, .group function start :: frames) ∧
      expressionReader.Passes (.opening (.group function start :: frames)) tokens
        (.applied again place inner) later

theorem ReadInBrackets.readAsOperand {form : List Piece → List Piece} {term : Term}
    (inside : ReadInBrackets form term) : ReadAsOperand (bracketed form) term := by
  intro tokens rest spelled function frames
  obtain ⟨place, tokens, rfl, spelledInside⟩ := exists_token spelled
  let opening : Token := ⟨.leftParen, String.ofList ['('], place⟩
  let start := (function.map Prod.snd).getD place
  have opens := extend_beforeOperand function frames (.inr (.inr (Eq.refl opening.kind)))
  obtain ⟨again, whole, _, inner, closing, spelledClosing, same, settled, passes⟩ :=
    inside _ _ spelledInside (function.map Prod.fst) start frames
  obtain ⟨_, later, rfl, spelledRest⟩ := exists_token spelledClosing
  refine ⟨whole, start, later, spelledRest, same, ?_⟩
  refine (Reader.passes_step opens _).trans (passes.trans (Reader.passes_step ?_ _))
  show closeBracket (settle again inner).1 (settle again inner).2 = _
  rw [settled]
  rfl

theorem readAsOperand_token {kind : TokenKind} {word : List Char} {term : Term}
    (read : ∀ function start frames place, ∃ again : Term, again.Same term ∧
      operand function start frames ⟨kind, String.ofList word, place⟩ =
        some (.applied (applied function again start) start frames))
    (starts : kind = .name ∨ kind = .typeWord) :
    ReadAsOperand (fun rest => .lexeme kind word :: rest) term := by
  intro tokens rest spelled function frames
  obtain ⟨place, later, rfl, spelledRest⟩ := exists_token spelled
  let token : Token := ⟨kind, String.ofList word, place⟩
  have tokenStarts : token.kind = .name ∨ token.kind = .typeWord ∨ token.kind = .leftParen :=
    starts.imp_right .inl
  have extended := extend_beforeOperand function frames tokenStarts
  obtain ⟨again, same, taken⟩ := read (function.map Prod.fst) _ frames place
  exact ⟨again, _, later, spelledRest, same, Reader.passes_step (extended.trans taken) _⟩

theorem readInBrackets_application {function argument : Term} {place : Option Location}
    (readFunction : ReadAsOperand function.spell function)
    (readArgument : ReadAsOperand argument.spell argument) :
    ReadInBrackets (fun rest => function.spell (.blank ' ' :: argument.spell rest))
      (.app function argument place) := by
  intro tokens rest spelled outer start frames
  obtain ⟨againFunction, place, behind, spelledBehind, sameFunction, passesFunction⟩ :=
    readFunction _ _ spelled none (.group outer start :: frames)
  obtain ⟨againArgument, appliedAt, later, spelledRest, sameArgument, passesArgument⟩ :=
    readArgument _ _ spelledBehind (some (againFunction, place)) (.group outer start :: frames)
  -- The argument stands where the function has been read, so the two become one application.
  refine ⟨_, _, _, _, later, spelledRest, ?_, rfl, passesFunction.trans passesArgument⟩
  simp only [applied, Option.map_some, Term.Same, Term.bare]
  rw [sameFunction, sameArgument]

theorem readInBrackets_arrow {domain codomain : Term} {place : Option Location}
    (readDomain : ReadAsOperand domain.spell domain)
    (readCodomain : ReadAsOperand codomain.spell codomain) :
    ReadInBrackets (fun rest => domain.spell (spaced .arrow ['-', '>'] (codomain.spell rest)))
      (.arrow domain codomain place) := by
  intro tokens rest spelled outer start frames
  obtain ⟨againDomain, place, behind, spelledBehind, sameDomain, passesDomain⟩ :=
    readDomain _ _ spelled none (.group outer start :: frames)
  obtain ⟨_, behind, rfl, spelledCodomain⟩ := exists_token spelledBehind
  -- The arrow leaves a frame, which the bracket behind the codomain closes.
  obtain ⟨againCodomain, _, later, spelledRest, sameCodomain, passesCodomain⟩ :=
    readCodomain _ _ spelledCodomain none
      (.codomain againDomain place :: .group outer start :: frames)
  refine ⟨_, _, _, _, later, spelledRest, ?_, rfl,
    passesDomain.trans ((Reader.passes_step rfl _).trans passesCodomain)⟩
  simp only [applied, Option.map_none, Term.Same, Term.bare, Term.arrow]
  rw [sameDomain, sameCodomain]

theorem passes_keyword {kind : BinderKind} {tokens : List Token} {rest : List Piece}
    (spelled : tokens.map Token.lexeme = lexemesOf (kind.keyword :: rest)) (frames : List Frame) :
    ∃ later, later.map Token.lexeme = lexemesOf rest ∧
      expressionReader.Passes (.opening frames) tokens (.firstBinder kind frames) later := by
  cases kind with
  | lambda =>
      obtain ⟨_, later, rfl, behind⟩ := exists_token spelled
      exact ⟨later, behind, Reader.passes_step rfl _⟩
  | pi =>
      obtain ⟨_, later, rfl, behind⟩ := exists_token spelled
      exact ⟨later, behind, Reader.passes_step rfl _⟩

theorem passes_lead {kind : BinderKind} {tokens : List Token} {rest : List Piece}
    (spelled : tokens.map Token.lexeme = lexemesOf (kind.lead rest)) (binders : List Bound)
    (frames : List Frame) :
    ∃ later, later.map Token.lexeme = lexemesOf rest ∧ expressionReader.Passes
      (.bound kind binders frames) tokens (.opening (.body kind binders :: frames)) later := by
  cases kind with
  | lambda =>
      obtain ⟨_, later, rfl, behind⟩ := exists_token spelled
      exact ⟨later, behind, Reader.passes_step rfl _⟩
  | pi =>
      obtain ⟨_, later, rfl, behind⟩ := exists_token spelled
      exact ⟨later, behind, Reader.passes_step rfl _⟩

theorem passes_binder {kind : BinderKind} {name : String} {domain : Term}
    (readDomain : ReadAsOperand domain.spell domain) {tokens : List Token} {rest : List Piece}
    (spelled : tokens.map Token.lexeme =
      lexemesOf (bracketed (typedName name domain.spell) rest)) (frames : List Frame) :
    ∃ again start later, later.map Token.lexeme = lexemesOf rest ∧ again.Same domain ∧
      expressionReader.Passes (.firstBinder kind frames) tokens
        (.bound kind [⟨name, again, start⟩] frames) later := by
  obtain ⟨start, named, rfl, spelledNamed⟩ := exists_token spelled
  obtain ⟨_, typed, rfl, spelledTyped⟩ := exists_token spelledNamed
  obtain ⟨_, domainTokens, rfl, spelledDomain⟩ := exists_token spelledTyped
  obtain ⟨again, _, closing, spelledClosing, same, passes⟩ :=
    readDomain _ _ spelledDomain none (.domain kind [] name start :: frames)
  obtain ⟨_, later, rfl, spelledRest⟩ := exists_token spelledClosing
  rw [String.ofList_toList]
  refine ⟨again, start, later, spelledRest, same, ?_⟩
  -- The bracket, the name and the colon; then the domain and the bracket behind it.
  refine (Reader.passes_step rfl _).trans ((Reader.passes_step rfl _).trans ?_)
  exact (Reader.passes_step rfl _).trans (passes.trans (Reader.passes_step rfl _))

theorem readInBrackets_abstraction {kind : BinderKind} {name : String} {domain body : Term}
    {place : Option Location} (readDomain : ReadAsOperand domain.spell domain)
    (readBody : ReadAsOperand body.spell body) :
    ReadInBrackets (fun rest => kind.keyword :: .blank ' ' ::
      bracketed (typedName name domain.spell) (kind.lead (body.spell rest)))
      (.bind kind name domain body place) := by
  intro tokens rest spelled outer start frames
  obtain ⟨binder, spelledBinder, passesKeyword⟩ :=
    passes_keyword spelled (.group outer start :: frames)
  obtain ⟨againDomain, binderStart, leading, spelledLead, sameDomain, passesBinder⟩ :=
    passes_binder readDomain spelledBinder (.group outer start :: frames)
  obtain ⟨bodyTokens, spelledBody, passesLead⟩ :=
    passes_lead spelledLead [⟨name, againDomain, binderStart⟩] (.group outer start :: frames)
  obtain ⟨againBody, _, later, spelledRest, sameBody, passesBody⟩ :=
    readBody _ _ spelledBody none
      (.body kind [⟨name, againDomain, binderStart⟩] :: .group outer start :: frames)
  refine ⟨_, _, _, _, later, spelledRest, ?_, rfl,
    passesKeyword.trans (passesBinder.trans (passesLead.trans passesBody))⟩
  simp only [applied, Option.map_none, abstracted, List.foldl_cons, List.foldl_nil, Term.Same,
    Term.bare]
  rw [sameDomain, sameBody]

theorem Term.readAsOperand (term : Term) : ReadAsOperand term.spell term := by
  induction term with
  | sort place =>
      refine readAsOperand_token (fun _ _ _ place => ?_) (.inr rfl)
      exact ⟨.sort place, rfl, rfl⟩
  | var name place =>
      refine readAsOperand_token (fun _ _ _ place => ?_) (.inl rfl)
      rw [String.ofList_toList]
      exact ⟨.var name place, rfl, rfl⟩
  | app function argument place functionIH argumentIH =>
      exact (readInBrackets_application functionIH argumentIH).readAsOperand
  | bind kind name domain body place domainIH bodyIH =>
      by_cases unnamed : kind = .pi ∧ name = anonymous
      · obtain ⟨rfl, rfl⟩ := unnamed
        exact (readInBrackets_arrow domainIH bodyIH).readAsOperand
      · have form : (bind kind name domain body place).spell = bracketed (fun rest =>
            kind.keyword :: .blank ' ' ::
              bracketed (typedName name domain.spell) (kind.lead (body.spell rest))) := by
          funext rest
          rw [spell, if_neg unnamed]
        rw [form]
        exact (readInBrackets_abstraction domainIH bodyIH).readAsOperand

/-- The text of a term is read back as the term if the lexer can read its names. -/
theorem Term.parse_text {term : Term} (spellable : ∀ name ∈ term.allNames, IsName name)
    (file : String) : ∃ again, parseExpression term.text file = .ok again ∧ again.Same term := by
  have separated : Separated (term.spell []) :=
    separated_spell spellable stopsWord_nil trivial
  obtain ⟨tokens, scanned, spelled⟩ := scan_charsOf separated file .start
  rw [charsOf_spell, charsOf_nil, List.append_nil] at scanned
  obtain ⟨again, start, later, finished, same, passes⟩ := term.readAsOperand _ _ spelled none []
  obtain rfl : later = [] := List.map_eq_nil_iff.mp finished
  refine ⟨again, ?_, same⟩
  rw [parseExpression, tokenize, scanned]
  show expressionReader.readFrom tokens.finish (.opening []) tokens.items = _
  exact passes.readFrom_eq tokens.finish

/-! Programs. -/

/-- A reader of programs goes on inside a slot as the reader of expressions does. -/
theorem passes_inside {state next : ExpressionState} {tokens later : List Token}
    (passes : expressionReader.Passes state tokens next later) (slot : Slot) (steps : List Step) :
    programReader.Passes (.inside slot state steps) tokens (.inside slot next steps) later := by
  obtain ⟨taken, rfl, reached⟩ := passes
  induction taken generalizing state with
  | nil =>
      obtain rfl := Option.some.inj reached
      exact ⟨[], rfl, rfl⟩
  | cons token taken ih =>
      rw [Reader.reach, List.foldlM_cons, Option.bind_eq_bind, Option.bind_eq_some_iff] at reached
      obtain ⟨middle, extended, reached⟩ := reached
      have taken : programReader.extend (.inside slot state steps) token =
          some (.inside slot middle steps) := by
        have again : state.extend token = some middle := extended
        show (ProgramState.inside slot state steps).extend token = _
        rw [ProgramState.extend, again]
      exact (Reader.passes_step taken _).trans (ih reached)

theorem passes_slot {term : Term} (slot : Slot) {tokens : List Token} {rest behind : List Piece}
    {text : String} (spelled : tokens.map Token.lexeme = lexemesOf (term.spell rest))
    (ends : lexemesOf rest = (slot.terminator, text) :: lexemesOf behind) (steps : List Step) :
    ∃ again later, later.map Token.lexeme = lexemesOf behind ∧ again.Same term ∧
      programReader.Passes (.inside slot (.opening []) steps) tokens
        (slot.fill again steps) later := by
  obtain ⟨again, start, ending, spelledEnd, same, passes⟩ :=
    term.readAsOperand _ _ spelled none []
  obtain ⟨place, later, rfl, spelledRest⟩ := exists_token (spelledEnd.trans ends)
  refine ⟨again, later, spelledRest, same, ?_⟩
  refine (passes_inside passes slot steps).trans (Reader.passes_step ?_ _)
  cases slot <;> rfl

theorem passes_declaration {step : Step} (declares : step.isDeclaration = true)
    {tokens : List Token} {rest : List Piece}
    (spelled : tokens.map Token.lexeme = lexemesOf (step.spell rest)) (steps : List Step) :
    ∃ again later, later.map Token.lexeme = lexemesOf rest ∧ again.bare = step.bare ∧
      programReader.Passes (.between steps) tokens (.between (again :: steps)) later := by
  cases step with
  | define name value place =>
      obtain ⟨start, named, rfl, spelledName⟩ := exists_token spelled
      obtain ⟨_, marked, rfl, spelledMark⟩ := exists_token spelledName
      obtain ⟨_, inside, rfl, spelledValue⟩ := exists_token spelledMark
      obtain ⟨again, later, spelledRest, same, passes⟩ :=
        passes_slot (.value name start) spelledValue rfl steps
      rw [String.ofList_toList]
      refine ⟨.define name again (some start), later, spelledRest, ?_, ?_⟩
      · simp only [Step.bare]
        rw [same]
      · exact (Reader.passes_step rfl _).trans ((Reader.passes_step rfl _).trans
          ((Reader.passes_step rfl _).trans passes))
  | prove claim place =>
      obtain ⟨start, named, rfl, spelledName⟩ := exists_token spelled
      obtain ⟨_, marked, rfl, spelledMark⟩ := exists_token spelledName
      obtain ⟨_, inside, rfl, spelledStatement⟩ := exists_token spelledMark
      obtain ⟨statement, proofTokens, spelledProof, sameStatement, passesStatement⟩ :=
        passes_slot (.statement claim.name start) spelledStatement rfl steps
      obtain ⟨proof, later, spelledRest, sameProof, passesProof⟩ :=
        passes_slot (.proof claim.name statement start) spelledProof rfl steps
      rw [String.ofList_toList]
      refine ⟨.prove ⟨claim.name, statement, proof⟩ (some start), later, spelledRest, ?_, ?_⟩
      · simp only [Step.bare, Theorem.bare]
        rw [sameStatement, sameProof]
      · exact (Reader.passes_step rfl _).trans ((Reader.passes_step rfl _).trans
          ((Reader.passes_step rfl _).trans (passesStatement.trans passesProof)))
  | express value place => cases declares

theorem extend_between {state : ExpressionState} {token : Token}
    (extended : (ExpressionState.opening []).extend token = some state) (steps : List Step) :
    programReader.extend (.between steps) token =
      some (.inside (.last token.place) state steps) := by
  show (ProgramState.between steps).extend token = _
  simp only [ProgramState.extend, extended]
  split
  · rename_i isLet
    simp [extend, operand, isLet] at extended
  · rename_i isTheorem
    simp [extend, operand, isTheorem] at extended
  · rfl

theorem readFrom_express {term : Term} {tokens : List Token} {rest : List Piece}
    (spelled : tokens.map Token.lexeme = lexemesOf (term.spell rest))
    (ends : lexemesOf rest = []) (steps : List Step) (finish : Location) :
    ∃ again place, again.Same term ∧ programReader.readFrom finish (.between steps) tokens =
      .ok (steps.reverse ++ [.express again (some place)]) := by
  obtain ⟨again, start, later, finished, same, passes⟩ := term.readAsOperand _ _ spelled none []
  obtain rfl : later = [] := List.map_eq_nil_iff.mp (finished.trans ends)
  have moves : beforeOperand none [] ≠ .applied again start [] := by
    intro stays
    cases stays
  obtain ⟨token, rest, middle, rfl, extended, passes⟩ := passes.first moves
  refine ⟨again, token.place, same, ?_⟩
  have started := Reader.passes_step (extend_between extended steps) rest
  rw [(started.trans (passes_inside passes _ steps)).readFrom_eq finish]
  rfl

theorem Program.exists_spell_cons (step : Step) (rest : Program) :
    ∃ behind, Program.spell (step :: rest) = step.spell behind ∧
      lexemesOf behind = lexemesOf (Program.spell rest) := by
  cases rest with
  | nil => exact ⟨[], rfl, rfl⟩
  | cons next rest => exact ⟨_, rfl, rfl⟩

theorem Program.linked_cons_iff (step : Step) (rest : Program) :
    Program.Linked (step :: rest) ↔
      (step.isDeclaration = true ∨ rest = []) ∧ Program.Linked rest := by
  cases rest with
  | nil => simp [Linked]
  | cons next rest => simp [Linked]

theorem Program.readFrom_spell {program : Program} (linked : program.Linked)
    {tokens : List Token} (spelled : tokens.map Token.lexeme = lexemesOf program.spell)
    (steps : List Step) (finish : Location) :
    ∃ again, programReader.readFrom finish (.between steps) tokens =
        .ok (steps.reverse ++ again) ∧ again.map Step.bare = program.map Step.bare := by
  induction program generalizing tokens steps with
  | nil =>
      obtain rfl : tokens = [] := List.map_eq_nil_iff.mp spelled
      refine ⟨[], ?_, rfl⟩
      rw [List.append_nil]
      rfl
  | cons step rest ih =>
      obtain ⟨behind, form, spelledBehind⟩ := exists_spell_cons step rest
      rw [form] at spelled
      obtain ⟨declaresOrEnds, linkedRest⟩ := (linked_cons_iff step rest).mp linked
      by_cases declares : step.isDeclaration = true
      · obtain ⟨again, later, spelledLater, same, passes⟩ :=
          passes_declaration declares spelled steps
        obtain ⟨others, read, sameOthers⟩ :=
          ih linkedRest (spelledLater.trans spelledBehind) (again :: steps)
        refine ⟨again :: others, ?_, ?_⟩
        · rw [passes.readFrom_eq finish, read, List.reverse_cons, List.append_assoc]
          rfl
        · rw [List.map_cons, List.map_cons, same, sameOthers]
      · -- Only the last step may be an expression.
        obtain rfl := declaresOrEnds.resolve_left declares
        cases step with
        | define name value place => exact absurd rfl declares
        | prove claim place => exact absurd rfl declares
        | express value place =>
            obtain ⟨again, start, same, read⟩ :=
              readFrom_express spelled spelledBehind steps finish
            refine ⟨[.express again (some start)], read, ?_⟩
            simp only [List.map_cons, List.map_nil, Step.bare]
            rw [same]

/-- The text of a linked program is read back as the program if the lexer can read its
names. -/
theorem Program.parse_text {program : Program} (linked : program.Linked)
    (spellable : ∀ step ∈ program, ∀ name ∈ step.names, IsName name) (file : String) :
    ∃ again, parseProgram program.text file = .ok again ∧
      again.map Step.bare = program.map Step.bare := by
  obtain ⟨tokens, scanned, spelled⟩ := scan_charsOf (separated_spell spellable) file .start
  rw [charsOf_spell] at scanned
  obtain ⟨again, read, same⟩ := readFrom_spell linked spelled [] tokens.finish
  refine ⟨again, ?_, same⟩
  rw [parseProgram, tokenize, scanned]
  exact read

end TypeInType
