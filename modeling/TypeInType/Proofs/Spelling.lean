import TypeInType.Proofs.Lexing
import TypeInType.Program.Basic
import TypeInType.Term.Names

/-!
The written forms of terms and programs, piece by piece. The lexer tells the pieces
apart if it reads the names in them as names.
-/

namespace TypeInType

def IsName (name : String) : Prop :=
  IsWord name.toList ∧ TokenKind.ofWord name = .name

theorem isName_anonymous : IsName Term.anonymous :=
  ⟨⟨'_', [], rfl, by decide, by decide⟩, by decide⟩

theorem stopsWord_blank (rest : List Char) : StopsWord (' ' :: rest) :=
  stopsWord_cons (by decide) (by decide) rest

theorem stopsWord_rightParen (rest : List Char) : StopsWord (')' :: rest) :=
  stopsWord_cons (by decide) (by decide) rest

theorem stopsWord_semicolon (rest : List Char) : StopsWord (';' :: rest) :=
  stopsWord_cons (by decide) (by decide) rest

section Pieces

variable {rest : List Piece}

theorem separated_space (separated : Separated rest) : Separated (.blank ' ' :: rest) :=
  ⟨by decide, separated⟩

theorem separated_name {name : String} (isName : IsName name) (stops : StopsWord (charsOf rest))
    (separated : Separated rest) : Separated (.lexeme .name name.toList :: rest) := by
  refine ⟨?_, separated⟩
  rw [lexeme?_word isName.1 stops, String.ofList_toList, isName.2]

theorem separated_keyword {kind : TokenKind} {word : List Char} (isWord : IsWord word)
    (isKeyword : TokenKind.ofWord (String.ofList word) = kind) (stops : StopsWord (charsOf rest))
    (separated : Separated rest) : Separated (.lexeme kind word :: rest) := by
  refine ⟨?_, separated⟩
  rw [lexeme?_word isWord stops, isKeyword]

theorem separated_symbol {kind : TokenKind} {word : List Char} (listed : (word, kind) ∈ symbols)
    (whole : ¬RunsOn word (charsOf rest)) (separated : Separated rest) :
    Separated (.lexeme kind word :: rest) :=
  ⟨lexeme?_symbol listed whole, separated⟩

end Pieces

/-! What the forms are put together from. Each is followed by more pieces. -/

def spaced (kind : TokenKind) (word : List Char) (rest : List Piece) : List Piece :=
  .blank ' ' :: .lexeme kind word :: .blank ' ' :: rest

def bracketed (inside : List Piece → List Piece) (rest : List Piece) : List Piece :=
  .lexeme .leftParen ['('] :: inside (.lexeme .rightParen [')'] :: rest)

def BinderKind.keyword : BinderKind → Piece
  | .lambda => .lexeme .funWord ['f', 'u', 'n']
  | .pi => .lexeme .forallWord ['f', 'o', 'r', 'a', 'l', 'l']

def BinderKind.lead : BinderKind → List Piece → List Piece
  | .lambda, rest => spaced .fatArrow ['=', '>'] rest
  | .pi, rest => .lexeme .comma [','] :: .blank ' ' :: rest

def typedName (name : String) (type : List Piece → List Piece) (rest : List Piece) :
    List Piece :=
  .lexeme .name name.toList :: spaced .colon [':'] (type rest)

def Term.spell : Term → List Piece → List Piece
  | .sort _, rest => .lexeme .typeWord ['T', 'y', 'p', 'e'] :: rest
  | .var name _, rest => .lexeme .name name.toList :: rest
  | .app function argument _, rest =>
      bracketed (fun rest => function.spell (.blank ' ' :: argument.spell rest)) rest
  | .bind kind name domain body _, rest =>
      if kind = .pi ∧ name = anonymous then
        bracketed (fun rest => domain.spell (spaced .arrow ['-', '>'] (body.spell rest))) rest
      else
        bracketed (fun rest => kind.keyword :: .blank ' ' ::
          bracketed (typedName name domain.spell) (kind.lead (body.spell rest))) rest

def Step.spell : Step → List Piece → List Piece
  | .define name value _, rest =>
      .lexeme .letWord ['l', 'e', 't'] :: .blank ' ' :: .lexeme .name name.toList ::
        spaced .assign ['='] (value.spell (.lexeme .semicolon [';'] :: rest))
  | .prove claim _, rest =>
      .lexeme .theoremWord ['t', 'h', 'e', 'o', 'r', 'e', 'm'] :: .blank ' ' ::
        .lexeme .name claim.name.toList :: spaced .colon [':'] (claim.statement.spell
          (spaced .define [':', '='] (claim.proof.spell (.lexeme .semicolon [';'] :: rest))))
  | .express value _, rest => value.spell rest

def Program.spell : Program → List Piece
  | [] => []
  | [step] => step.spell []
  | step :: next :: rest => step.spell (.blank '\n' :: Program.spell (next :: rest))

/-! The pieces make up the text. -/

theorem Term.charsOf_spell (term : Term) (rest : List Piece) :
    charsOf (term.spell rest) = term.text.toList ++ charsOf rest := by
  induction term generalizing rest with
  | sort place => simp [spell, text]
  | var name place => simp [spell, text]
  | app function argument place functionIH argumentIH =>
      simp [spell, bracketed, text, functionIH, argumentIH]
  | bind kind name domain body place domainIH bodyIH =>
      cases kind with
      | lambda =>
          simp [spell, bracketed, typedName, spaced, BinderKind.keyword, BinderKind.lead, text,
            domainIH, bodyIH]
      | pi =>
          by_cases unnamed : name = anonymous
          · simp [spell, bracketed, spaced, text, unnamed, domainIH, bodyIH]
          · simp [spell, bracketed, typedName, spaced, BinderKind.keyword, BinderKind.lead, text,
              unnamed, domainIH, bodyIH]

theorem Step.charsOf_spell (step : Step) (rest : List Piece) :
    charsOf (step.spell rest) = step.text.toList ++ charsOf rest := by
  cases step with
  | define name value place => simp [spell, spaced, text, Term.charsOf_spell]
  | prove claim place => simp [spell, spaced, text, Theorem.text, Term.charsOf_spell]
  | express value place => exact Term.charsOf_spell value rest

theorem Program.charsOf_spell (program : Program) :
    charsOf program.spell = program.text.toList := by
  induction program with
  | nil => rfl
  | cons step rest ih =>
      cases rest with
      | nil => simp [spell, text, Step.charsOf_spell]
      | cons next rest =>
          rw [text] at ih
          rw [spell, Step.charsOf_spell, charsOf_blank, ih, text]
          simp [String.intercalate_cons_cons]

/-! The pieces are separate. -/

section Separation

variable {rest : List Piece}

theorem separated_spaced {kind : TokenKind} {word : List Char} (listed : (word, kind) ∈ symbols)
    (separated : Separated rest) : Separated (spaced kind word rest) := by
  refine separated_space (separated_symbol listed ?_ (separated_space separated))
  simp [RunsOn]

theorem separated_bracketed {inside : List Piece → List Piece}
    (separatedInside : ∀ {rest}, StopsWord (charsOf rest) → Separated rest →
      Separated (inside rest)) (separated : Separated rest) :
    Separated (bracketed inside rest) := by
  have closed : Separated (.lexeme .rightParen [')'] :: rest) :=
    separated_symbol (by decide) (by simp [RunsOn]) separated
  have whole : Separated (inside (.lexeme .rightParen [')'] :: rest)) :=
    separatedInside (stopsWord_rightParen _) closed
  exact separated_symbol (by decide) (by simp [RunsOn]) whole

theorem separated_lead {kind : BinderKind} (separated : Separated rest) :
    Separated (kind.lead rest) := by
  cases kind with
  | lambda => exact separated_spaced (by decide) separated
  | pi => exact separated_symbol (by decide) (by simp [RunsOn]) (separated_space separated)

theorem BinderKind.separated_keyword (kind : BinderKind) (separated : Separated rest) :
    Separated (kind.keyword :: .blank ' ' :: rest) := by
  cases kind with
  | lambda =>
      exact TypeInType.separated_keyword ⟨_, _, rfl, by decide, by decide⟩ (by decide)
        (stopsWord_blank _) (separated_space separated)
  | pi =>
      exact TypeInType.separated_keyword ⟨_, _, rfl, by decide, by decide⟩ (by decide)
        (stopsWord_blank _) (separated_space separated)

theorem Term.separated_spell {term : Term} (spellable : ∀ name ∈ term.allNames, IsName name)
    (stops : StopsWord (charsOf rest)) (separated : Separated rest) :
    Separated (term.spell rest) := by
  induction term generalizing rest with
  | sort place =>
      exact separated_keyword ⟨_, _, rfl, by decide, by decide⟩ (by decide) stops separated
  | var name place => exact separated_name (spellable name List.mem_cons_self) stops separated
  | app function argument place functionIH argumentIH =>
      simp only [allNames, List.mem_append] at spellable
      refine separated_bracketed (fun stops separated => ?_) separated
      have behind := argumentIH (fun name member => spellable name (.inr member)) stops separated
      exact functionIH (fun name member => spellable name (.inl member)) (stopsWord_blank _)
        (separated_space behind)
  | bind kind name domain body place domainIH bodyIH =>
      simp only [allNames, List.cons_append, List.mem_cons, List.mem_append] at spellable
      have inDomain {rest} :=
        @domainIH rest fun other member => spellable other (.inr (.inl member))
      have inBody {rest} := @bodyIH rest fun other member => spellable other (.inr (.inr member))
      rw [spell]
      split
      · refine separated_bracketed (fun stops separated => ?_) separated
        exact inDomain (stopsWord_blank _) (separated_spaced (by decide) (inBody stops separated))
      · refine separated_bracketed (fun stops separated => kind.separated_keyword ?_) separated
        refine separated_bracketed (fun stops separated => ?_)
          (separated_lead (inBody stops separated))
        exact separated_name (spellable name (.inl rfl)) (stopsWord_blank _)
          (separated_spaced (by decide) (inDomain stops separated))

def Step.names : Step → List String
  | .define name value _ => name :: value.allNames
  | .prove claim _ => claim.name :: (claim.statement.allNames ++ claim.proof.allNames)
  | .express value _ => value.allNames

theorem separated_declaration {kind mark : TokenKind} {word sign : List Char} {name : String}
    (isWord : IsWord word) (isKeyword : TokenKind.ofWord (String.ofList word) = kind)
    (listed : (sign, mark) ∈ symbols) (isName : IsName name) (separated : Separated rest) :
    Separated (.lexeme kind word :: .blank ' ' :: .lexeme .name name.toList ::
      spaced mark sign rest) := by
  have named : Separated (.lexeme .name name.toList :: spaced mark sign rest) :=
    separated_name isName (stopsWord_blank _) (separated_spaced listed separated)
  exact separated_keyword isWord isKeyword (stopsWord_blank _) (separated_space named)

theorem Step.separated_spell {step : Step} (spellable : ∀ name ∈ step.names, IsName name)
    (stops : StopsWord (charsOf rest)) (separated : Separated rest) :
    Separated (step.spell rest) := by
  have closed : Separated (.lexeme .semicolon [';'] :: rest) :=
    separated_symbol (by decide) (by simp [RunsOn]) separated
  cases step with
  | define name value place =>
      simp only [names, List.mem_cons] at spellable
      refine separated_declaration ⟨_, _, rfl, by decide, by decide⟩ (by decide) (by decide)
        (spellable name (.inl rfl)) ?_
      exact Term.separated_spell (fun other member => spellable other (.inr member))
        (stopsWord_semicolon _) closed
  | prove claim place =>
      simp only [names, List.mem_cons, List.mem_append] at spellable
      refine separated_declaration ⟨_, _, rfl, by decide, by decide⟩ (by decide) (by decide)
        (spellable claim.name (.inl rfl)) ?_
      refine Term.separated_spell (fun other member => spellable other (.inr (.inl member)))
        (stopsWord_blank _) (separated_spaced (by decide) ?_)
      exact Term.separated_spell (fun other member => spellable other (.inr (.inr member)))
        (stopsWord_semicolon _) closed
  | express value place => exact Term.separated_spell spellable stops separated

end Separation

theorem Program.separated_spell {program : Program}
    (spellable : ∀ step ∈ program, ∀ name ∈ step.names, IsName name) :
    Separated program.spell := by
  induction program with
  | nil => trivial
  | cons step rest ih =>
      have first := spellable step List.mem_cons_self
      cases rest with
      | nil => exact Step.separated_spell first stopsWord_nil trivial
      | cons next rest =>
          have behind := ih fun other member => spellable other (List.mem_cons_of_mem _ member)
          refine Step.separated_spell first ?_ ⟨by decide, behind⟩
          exact stopsWord_cons (by decide) (by decide) _

end TypeInType
