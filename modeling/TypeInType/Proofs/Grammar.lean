import TypeInType.Surface.Parser

/-!
The grammar of the surface language, as trees.

    program := step*
    step    := 'let' IDENT '=' expr ';'
             | 'theorem' IDENT ':' expr ':=' expr ';'
             | expr ';'?                              (last step only)
    expr    := 'fun' binder+ '=>' expr | 'forall' binder+ ',' expr | app ('->' expr)?
    binder  := '(' IDENT ':' expr ')'
    app     := atom atom*
    atom    := IDENT | 'Type' | '(' expr ')'

There is one kind of node for each alternative, and a tree keeps every token it is made of.
So the sentences of the grammar are the token lists of trees, and a tree is a derivation of
its sentence. What a sentence stands for is said of its tree alone, without a reader.
-/

namespace TypeInType

/-- A token whose kind is known from where it stands. -/
structure Leaf where
  text : String
  place : Location

def Leaf.as (leaf : Leaf) (kind : TokenKind) : Token :=
  ⟨kind, leaf.text, leaf.place⟩

def Token.leaf (token : Token) : Leaf :=
  ⟨token.text, token.place⟩

theorem Token.leaf_as {token : Token} {kind : TokenKind} (known : token.kind = kind) :
    token.leaf.as kind = token := by
  subst known
  rfl

def BinderKind.openingWord : BinderKind → TokenKind
  | .lambda => .funWord
  | .pi => .forallWord

inductive Phrase where
  | expression
  | binders
  | binder
  | application
  | atom

/-- A phrase that is repeated grows at its right end: `binder+` is a binder or one more
binder behind others, and `atom atom*` is an atom or an application to one more atom. -/
inductive Tree : Phrase → Type where
  | abstraction (kind : BinderKind) (word : Leaf) (binders : Tree .binders) (mark : Leaf)
      (body : Tree .expression) : Tree .expression
  | operation (application : Tree .application) : Tree .expression
  | arrow (domain : Tree .application) (mark : Leaf) (codomain : Tree .expression) :
      Tree .expression
  | firstBinder (binder : Tree .binder) : Tree .binders
  | nextBinder (before : Tree .binders) (binder : Tree .binder) : Tree .binders
  | typed (left name colon : Leaf) (domain : Tree .expression) (right : Leaf) : Tree .binder
  | operand (atom : Tree .atom) : Tree .application
  | apply (function : Tree .application) (argument : Tree .atom) : Tree .application
  | identifier (word : Leaf) : Tree .atom
  | typeWord (word : Leaf) : Tree .atom
  | group (left : Leaf) (inside : Tree .expression) (right : Leaf) : Tree .atom

abbrev Phrase.Meaning : Phrase → Type
  | .binders => List Bound
  | .binder => Bound
  | _ => Term

namespace Tree

def tokens {phrase : Phrase} : Tree phrase → List Token
  | .abstraction kind word binders mark body =>
      word.as kind.openingWord :: (binders.tokens ++ mark.as kind.bodyMark :: body.tokens)
  | .operation application => application.tokens
  | .arrow domain mark codomain => domain.tokens ++ mark.as .arrow :: codomain.tokens
  | .firstBinder binder => binder.tokens
  | .nextBinder before binder => before.tokens ++ binder.tokens
  | .typed left name colon domain right =>
      left.as .leftParen :: name.as .name :: colon.as .colon ::
        (domain.tokens ++ [right.as .rightParen])
  | .operand atom => atom.tokens
  | .apply function argument => function.tokens ++ argument.tokens
  | .identifier word => [word.as .name]
  | .typeWord word => [word.as .typeWord]
  | .group left inside right => left.as .leftParen :: (inside.tokens ++ [right.as .rightParen])

def start {phrase : Phrase} : Tree phrase → Location
  | .abstraction _ word _ _ _ => word.place
  | .operation application => application.start
  | .arrow domain _ _ => domain.start
  | .firstBinder binder => binder.start
  | .nextBinder before _ => before.start
  | .typed left _ _ _ _ => left.place
  | .operand atom => atom.start
  | .apply function _ => function.start
  | .identifier word => word.place
  | .typeWord word => word.place
  | .group left _ _ => left.place

/-- Binders nest to the right and applications to the left, an arrow binds `_` in all that
follows it, and brackets leave no trace. -/
def meaning {phrase : Phrase} : Tree phrase → phrase.Meaning
  | .abstraction kind _ binders _ body =>
      binders.meaning.foldr
        (fun bound body => .bind kind bound.name bound.domain body (some bound.place)) body.meaning
  | .operation application => application.meaning
  | .arrow domain _ codomain => .pi "_" domain.meaning codomain.meaning (some domain.start)
  | .firstBinder binder => [binder.meaning]
  | .nextBinder before binder => before.meaning ++ [binder.meaning]
  | .typed left name _ domain _ => ⟨name.text, domain.meaning, left.place⟩
  | .operand atom => atom.meaning
  | .apply function argument => .app function.meaning argument.meaning (some function.start)
  | .identifier word => .var word.text (some word.place)
  | .typeWord word => .sort (some word.place)
  | .group _ inside _ => inside.meaning

theorem exists_first {phrase : Phrase} (tree : Tree phrase) :
    ∃ token rest, tree.tokens = token :: rest ∧ token.place = tree.start := by
  induction tree with
  | abstraction kind word binders mark body => exact ⟨word.as kind.openingWord, _, rfl, rfl⟩
  | operation application ih => exact ih
  | arrow domain mark codomain ih =>
      obtain ⟨token, rest, begins, starts⟩ := ih
      exact ⟨token, _, by rw [tokens, begins, List.cons_append], starts⟩
  | firstBinder binder ih => exact ih
  | nextBinder before binder ih =>
      obtain ⟨token, rest, begins, starts⟩ := ih
      exact ⟨token, _, by rw [tokens, begins, List.cons_append], starts⟩
  | typed left name colon domain right => exact ⟨left.as .leftParen, _, rfl, rfl⟩
  | operand atom ih => exact ih
  | apply function argument ih =>
      obtain ⟨token, rest, begins, starts⟩ := ih
      exact ⟨token, _, by rw [tokens, begins, List.cons_append], starts⟩
  | identifier word => exact ⟨word.as .name, _, rfl, rfl⟩
  | typeWord word => exact ⟨word.as .typeWord, _, rfl, rfl⟩
  | group left inside right => exact ⟨left.as .leftParen, _, rfl, rfl⟩

end Tree

inductive DeclarationTree where
  | definition (word name sign : Leaf) (value : Tree .expression) (semicolon : Leaf)
  | claim (word name colon : Leaf) (statement : Tree .expression) (sign : Leaf)
      (proof : Tree .expression) (semicolon : Leaf)

structure ExpressionTree where
  value : Tree .expression
  semicolon : Option Leaf

structure ProgramTree where
  declarations : List DeclarationTree
  last : Option ExpressionTree

namespace DeclarationTree

def tokens : DeclarationTree → List Token
  | .definition word name sign value semicolon =>
      word.as .letWord :: name.as .name :: sign.as .assign ::
        (value.tokens ++ [semicolon.as .semicolon])
  | .claim word name colon statement sign proof semicolon =>
      word.as .theoremWord :: name.as .name :: colon.as .colon ::
        (statement.tokens ++ sign.as .define :: (proof.tokens ++ [semicolon.as .semicolon]))

def meaning : DeclarationTree → Step
  | .definition word name _ value _ => .define name.text value.meaning (some word.place)
  | .claim word name _ statement _ proof _ =>
      .prove ⟨name.text, statement.meaning, proof.meaning⟩ (some word.place)

theorem isDeclaration_meaning (declaration : DeclarationTree) :
    declaration.meaning.isDeclaration = true := by
  cases declaration <;> rfl

end DeclarationTree

namespace ExpressionTree

def tokens (last : ExpressionTree) : List Token :=
  last.value.tokens ++ last.semicolon.toList.map (Leaf.as · .semicolon)

def meaning (last : ExpressionTree) : Step :=
  .express last.value.meaning (some last.value.start)

end ExpressionTree

namespace ProgramTree

def tokens (tree : ProgramTree) : List Token :=
  tree.declarations.flatMap DeclarationTree.tokens ++ tree.last.toList.flatMap ExpressionTree.tokens

def meaning (tree : ProgramTree) : Program :=
  tree.declarations.map DeclarationTree.meaning ++ tree.last.toList.map ExpressionTree.meaning

theorem linked_meaning (tree : ProgramTree) : tree.meaning.Linked := by
  have declares : ∀ step ∈ tree.declarations.map DeclarationTree.meaning,
      step.isDeclaration = true := by
    intro step member
    obtain ⟨declaration, _, rfl⟩ := List.mem_map.mp member
    exact declaration.isDeclaration_meaning
  intro step member
  rw [meaning] at member
  cases last : tree.last with
  | none =>
      rw [last, Option.toList_none, List.map_nil, List.append_nil] at member
      exact declares step (List.dropLast_subset _ member)
  | some value =>
      rw [last, Option.toList_some, List.map_singleton, List.dropLast_concat] at member
      exact declares step member

end ProgramTree

end TypeInType
