import TypeInType.Proofs.Grammar

/-!
A reader that keeps the trees of what it has read. It moves as the reader of expressions
does, its states are those of that reader once the trees are replaced by what they stand for,
and the tokens of its state are the tokens it was given. It gets over the tokens of every
tree and then holds that tree, and since it is a function, no other tree has these tokens.
-/

namespace TypeInType

inductive Stem where
  | codomain (domain : Tree .application) (mark : Leaf)
  | body (kind : BinderKind) (word : Leaf) (binders : Tree .binders) (mark : Leaf)
  | domain (kind : BinderKind) (word : Leaf) (before : Option (Tree .binders))
      (left name colon : Leaf)
  | group (function : Option (Tree .application)) (left : Leaf)

inductive Growth where
  | opening (stems : List Stem)
  | applied (application : Tree .application) (stems : List Stem)
  | firstBinder (kind : BinderKind) (word : Leaf) (stems : List Stem)
  | binderName (kind : BinderKind) (word : Leaf) (before : Option (Tree .binders)) (left : Leaf)
      (stems : List Stem)
  | binderColon (kind : BinderKind) (word : Leaf) (before : Option (Tree .binders))
      (left name : Leaf) (stems : List Stem)
  | bound (kind : BinderKind) (word : Leaf) (binders : Tree .binders) (stems : List Stem)

def Tree.joined (function : Option (Tree .application)) (argument : Tree .atom) :
    Tree .application :=
  match function with
  | none => .operand argument
  | some function => .apply function argument

def Tree.behind (before : Option (Tree .binders)) (binder : Tree .binder) : Tree .binders :=
  match before with
  | none => .firstBinder binder
  | some before => .nextBinder before binder

def ripen (tree : Tree .expression) : List Stem → Tree .expression × List Stem
  | .codomain domain mark :: stems => ripen (.arrow domain mark tree) stems
  | .body kind word binders mark :: stems =>
      ripen (.abstraction kind word binders mark tree) stems
  | stems => (tree, stems)

namespace Growth

def operand (function : Option (Tree .application)) (stems : List Stem) (token : Token) :
    Option Growth :=
  match token.kind with
  | .name => some (.applied (Tree.joined function (.identifier token.leaf)) stems)
  | .typeWord => some (.applied (Tree.joined function (.typeWord token.leaf)) stems)
  | .leftParen => some (.opening (.group function token.leaf :: stems))
  | _ => none

def closeBracket (tree : Tree .expression) (right : Leaf) : List Stem → Option Growth
  | .domain kind word before left name colon :: stems =>
      some (.bound kind word (Tree.behind before (.typed left name colon tree right)) stems)
  | .group function left :: stems =>
      some (.applied (Tree.joined function (.group left tree right)) stems)
  | _ => none

def extend (growth : Growth) (token : Token) : Option Growth :=
  match growth with
  | .opening stems =>
      match token.kind with
      | .funWord => some (.firstBinder .lambda token.leaf stems)
      | .forallWord => some (.firstBinder .pi token.leaf stems)
      | _ => operand none stems token
  | .applied application stems =>
      match token.kind with
      | .arrow => some (.opening (.codomain application token.leaf :: stems))
      | .rightParen =>
          let (whole, stems) := ripen (.operation application) stems
          closeBracket whole token.leaf stems
      | _ => operand (some application) stems token
  | .firstBinder kind word stems =>
      if token.kind = .leftParen then some (.binderName kind word none token.leaf stems) else none
  | .binderName kind word before left stems =>
      if token.kind = .name then some (.binderColon kind word before left token.leaf stems)
      else none
  | .binderColon kind word before left name stems =>
      if token.kind = .colon then
        some (.opening (.domain kind word before left name token.leaf :: stems))
      else none
  | .bound kind word binders stems =>
      if token.kind = .leftParen then
        some (.binderName kind word (some binders) token.leaf stems)
      else if token.kind = kind.bodyMark then
        some (.opening (.body kind word binders token.leaf :: stems))
      else none

def tree? : Growth → Option (Tree .expression)
  | .applied application stems =>
      match ripen (.operation application) stems with
      | (whole, []) => some whole
      | (_, _ :: _) => none
  | _ => none

end Growth

/-! ## What the reader of expressions keeps of it -/

def boundBefore (before : Option (Tree .binders)) : List Bound :=
  match before with
  | none => []
  | some before => before.meaning.reverse

def startFrom (function : Option (Tree .application)) (place : Location) : Location :=
  (function.map Tree.start).getD place

def Stem.frame : Stem → Frame
  | .codomain type _ => .codomain type.meaning type.start
  | .body kind _ binders _ => .body kind (boundBefore (some binders))
  | .domain kind _ before left name _ => .domain kind (boundBefore before) name.text left.place
  | .group function left => .group (function.map Tree.meaning) (startFrom function left.place)

def Growth.state : Growth → ExpressionState
  | .opening stems => .opening (stems.map Stem.frame)
  | .applied application stems =>
      .applied application.meaning application.start (stems.map Stem.frame)
  | .firstBinder kind _ stems => .firstBinder kind (stems.map Stem.frame)
  | .binderName kind _ before left stems =>
      .binderName kind (boundBefore before) left.place (stems.map Stem.frame)
  | .binderColon kind _ before left name stems =>
      .binderColon kind (boundBefore before) name.text left.place (stems.map Stem.frame)
  | .bound kind _ binders stems =>
      .bound kind (boundBefore (some binders)) (stems.map Stem.frame)

theorem boundBefore_behind (before : Option (Tree .binders)) (binder : Tree .binder) :
    boundBefore (some (Tree.behind before binder)) = binder.meaning :: boundBefore before := by
  cases before with
  | none => rfl
  | some before => simp [boundBefore, Tree.behind, Tree.meaning]

theorem abstracted_boundBefore (kind : BinderKind) (word mark : Leaf) (binders : Tree .binders)
    (body : Tree .expression) :
    abstracted kind (boundBefore (some binders)) body.meaning =
      (Tree.abstraction kind word binders mark body).meaning := by
  simp [abstracted, boundBefore, Tree.meaning, List.foldl_reverse]

theorem settle_ripen (tree : Tree .expression) (stems : List Stem) :
    settle tree.meaning (stems.map Stem.frame) =
      ((ripen tree stems).1.meaning, (ripen tree stems).2.map Stem.frame) := by
  fun_induction ripen tree stems with
  | case1 tree domain mark stems ih => exact ih
  | case2 tree kind word binders mark stems ih =>
      rw [List.map_cons, Stem.frame, settle, abstracted_boundBefore kind word mark]
      exact ih
  | case3 tree stems notCodomain notBody =>
      -- Only what ends with its last expression is closed, by either of the two.
      cases stems with
      | nil => rfl
      | cons stem stems =>
          cases stem with
          | codomain domain mark => exact absurd rfl (notCodomain _ _ _)
          | body kind word binders mark => exact absurd rfl (notBody _ _ _ _ _)
          | domain kind word before left name colon => rfl
          | group function left => rfl

theorem meaning_joined (function : Option (Tree .application)) (argument : Tree .atom) :
    (Tree.joined function argument).meaning =
      applied (function.map Tree.meaning) argument.meaning (startFrom function argument.start) := by
  cases function <;> rfl

theorem start_joined (function : Option (Tree .application)) (argument : Tree .atom) :
    (Tree.joined function argument).start = startFrom function argument.start := by
  cases function <;> rfl

theorem state_operand (function : Option (Tree .application)) (stems : List Stem)
    (token : Token) :
    (Growth.operand function stems token).map Growth.state =
      ExpressionState.operand (function.map Tree.meaning) (startFrom function token.place)
        (stems.map Stem.frame) token := by
  cases token with
  | mk kind text place =>
      cases kind with
      | name =>
          simp only [Growth.operand, Option.map_some, Growth.state, meaning_joined, start_joined]
          rfl
      | typeWord =>
          simp only [Growth.operand, Option.map_some, Growth.state, meaning_joined, start_joined]
          rfl
      | _ => rfl

theorem state_closeBracket (tree : Tree .expression) (right : Leaf) (stems : List Stem) :
    (Growth.closeBracket tree right stems).map Growth.state =
      ExpressionState.closeBracket tree.meaning (stems.map Stem.frame) := by
  cases stems with
  | nil => rfl
  | cons stem stems =>
      cases stem with
      | codomain type mark => rfl
      | body kind word binders mark => rfl
      | domain kind word before left name colon =>
          simp only [Growth.closeBracket, Option.map_some, Growth.state, boundBefore_behind]
          rfl
      | group function left =>
          simp only [Growth.closeBracket, Option.map_some, Growth.state, meaning_joined,
            start_joined]
          rfl

theorem state_extend (growth : Growth) (token : Token) :
    growth.state.extend token = (growth.extend token).map Growth.state := by
  cases growth with
  | opening stems =>
      have operands := state_operand none stems token
      cases token with
      | mk kind text place =>
          cases kind with
          | funWord => rfl
          | forallWord => rfl
          -- Where an expression may start, all other tokens are taken as operands.
          | _ => exact operands.symm
  | applied application stems =>
      have operands := state_operand (some application) stems token
      have settled := settle_ripen (.operation application) stems
      cases token with
      | mk kind text place =>
          cases kind with
          | arrow => rfl
          | rightParen =>
              simp only [Growth.state, ExpressionState.extend, Growth.extend]
              rw [Tree.meaning] at settled
              rw [settled]
              exact (state_closeBracket _ _ _).symm
          | _ => exact operands.symm
  | firstBinder kind word stems =>
      simp only [Growth.state, ExpressionState.extend, Growth.extend]
      split <;> rfl
  | binderName kind word before left stems =>
      simp only [Growth.state, ExpressionState.extend, Growth.extend]
      split <;> rfl
  | binderColon kind word before left name stems =>
      simp only [Growth.state, ExpressionState.extend, Growth.extend]
      split <;> rfl
  | bound kind word binders stems =>
      simp only [Growth.state, ExpressionState.extend, Growth.extend]
      split
      · rfl
      · split <;> rfl

/-- The reader of expressions may end where a tree is whole, and gives what it stands for. -/
theorem status_state (growth : Growth) (term : Term) :
    growth.state.status = .ok term ↔
      ∃ tree, growth.tree? = some tree ∧ tree.meaning = term := by
  cases growth with
  | applied application stems =>
      have settled := settle_ripen (.operation application) stems
      rw [Tree.meaning] at settled
      simp only [Growth.state, ExpressionState.status, Growth.tree?, settled]
      cases ripen (.operation application) stems with
      | mk whole rest => cases rest <;> simp
  | _ => simp [Growth.state, ExpressionState.status, Growth.tree?]

/-! ## Nothing is lost -/

namespace Stem

def beforeTokens (before : Option (Tree .binders)) : List Token :=
  before.toList.flatMap Tree.tokens

def tokens : Stem → List Token
  | .codomain type mark => type.tokens ++ [mark.as .arrow]
  | .body kind word binders mark =>
      word.as kind.openingWord :: (binders.tokens ++ [mark.as kind.bodyMark])
  | .domain kind word before left name colon =>
      word.as kind.openingWord ::
        (beforeTokens before ++ [left.as .leftParen, name.as .name, colon.as .colon])
  | .group function left => function.toList.flatMap Tree.tokens ++ [left.as .leftParen]

end Stem

def tokensBelow : List Stem → List Token
  | [] => []
  | stem :: stems => tokensBelow stems ++ stem.tokens

namespace Growth

def tokens : Growth → List Token
  | .opening stems => tokensBelow stems
  | .applied application stems => tokensBelow stems ++ application.tokens
  | .firstBinder kind word stems => tokensBelow stems ++ [word.as kind.openingWord]
  | .binderName kind word before left stems =>
      tokensBelow stems ++
        word.as kind.openingWord :: (Stem.beforeTokens before ++ [left.as .leftParen])
  | .binderColon kind word before left name stems =>
      tokensBelow stems ++ word.as kind.openingWord ::
        (Stem.beforeTokens before ++ [left.as .leftParen, name.as .name])
  | .bound kind word binders stems =>
      tokensBelow stems ++ word.as kind.openingWord :: binders.tokens

end Growth

theorem tokens_joined (function : Option (Tree .application)) (argument : Tree .atom) :
    (Tree.joined function argument).tokens =
      function.toList.flatMap Tree.tokens ++ argument.tokens := by
  cases function with
  | none => rfl
  | some function => simp [Tree.joined, Tree.tokens]

theorem tokens_behind (before : Option (Tree .binders)) (binder : Tree .binder) :
    (Tree.behind before binder).tokens = Stem.beforeTokens before ++ binder.tokens := by
  cases before with
  | none => rfl
  | some before => simp [Tree.behind, Tree.tokens, Stem.beforeTokens]

theorem tokens_ripen (tree : Tree .expression) (stems : List Stem) :
    tokensBelow (ripen tree stems).2 ++ (ripen tree stems).1.tokens =
      tokensBelow stems ++ tree.tokens := by
  fun_induction ripen tree stems with
  | case1 tree domain mark stems ih =>
      rw [ih]
      simp [tokensBelow, Stem.tokens, Tree.tokens]
  | case2 tree kind word binders mark stems ih =>
      rw [ih]
      simp [tokensBelow, Stem.tokens, Tree.tokens]
  | case3 => rfl

theorem tokens_operand {function : Option (Tree .application)} {stems : List Stem}
    {token : Token} {next : Growth} (taken : Growth.operand function stems token = some next) :
    next.tokens = tokensBelow stems ++ (function.toList.flatMap Tree.tokens ++ [token]) := by
  unfold Growth.operand at taken
  split at taken
  · rename_i isName
    obtain rfl := Option.some.inj taken
    simp [Growth.tokens, tokens_joined, Tree.tokens, Token.leaf_as isName]
  · rename_i isType
    obtain rfl := Option.some.inj taken
    simp [Growth.tokens, tokens_joined, Tree.tokens, Token.leaf_as isType]
  · rename_i isLeft
    obtain rfl := Option.some.inj taken
    simp [Growth.tokens, tokensBelow, Stem.tokens, Token.leaf_as isLeft]
  · cases taken

theorem tokens_closeBracket {tree : Tree .expression} {token : Token}
    (isRight : token.kind = .rightParen) {stems : List Stem} {next : Growth}
    (taken : Growth.closeBracket tree token.leaf stems = some next) :
    next.tokens = tokensBelow stems ++ (tree.tokens ++ [token]) := by
  unfold Growth.closeBracket at taken
  split at taken
  · obtain rfl := Option.some.inj taken
    simp [Growth.tokens, tokensBelow, Stem.tokens, tokens_behind, Tree.tokens,
      Token.leaf_as isRight]
  · obtain rfl := Option.some.inj taken
    simp [Growth.tokens, tokensBelow, Stem.tokens, tokens_joined, Tree.tokens,
      Token.leaf_as isRight]
  · cases taken

theorem tokens_extend {growth next : Growth} {token : Token}
    (taken : growth.extend token = some next) : next.tokens = growth.tokens ++ [token] := by
  cases growth with
  | opening stems =>
      simp only [Growth.extend] at taken
      split at taken
      · rename_i isFun
        obtain rfl := Option.some.inj taken
        simp [Growth.tokens, BinderKind.openingWord, Token.leaf_as isFun]
      · rename_i isForall
        obtain rfl := Option.some.inj taken
        simp [Growth.tokens, BinderKind.openingWord, Token.leaf_as isForall]
      · rw [tokens_operand taken]
        rfl
  | applied application stems =>
      simp only [Growth.extend] at taken
      split at taken
      · rename_i isArrow
        obtain rfl := Option.some.inj taken
        simp [Growth.tokens, tokensBelow, Stem.tokens, Token.leaf_as isArrow]
      · rename_i isRight
        -- Before the bracket is taken, what ends here is closed, and that moves no token.
        rw [tokens_closeBracket isRight taken, ← List.append_assoc, tokens_ripen]
        rfl
      · rw [tokens_operand taken]
        simp [Growth.tokens]
  | firstBinder kind word stems =>
      simp only [Growth.extend, Option.ite_none_right_eq_some, Option.some.injEq] at taken
      obtain ⟨isLeft, rfl⟩ := taken
      simp [Growth.tokens, Stem.beforeTokens, Token.leaf_as isLeft]
  | binderName kind word before left stems =>
      simp only [Growth.extend, Option.ite_none_right_eq_some, Option.some.injEq] at taken
      obtain ⟨isName, rfl⟩ := taken
      simp [Growth.tokens, Token.leaf_as isName]
  | binderColon kind word before left name stems =>
      simp only [Growth.extend, Option.ite_none_right_eq_some, Option.some.injEq] at taken
      obtain ⟨isColon, rfl⟩ := taken
      simp [Growth.tokens, tokensBelow, Stem.tokens, Token.leaf_as isColon]
  | bound kind word binders stems =>
      simp only [Growth.extend] at taken
      split at taken
      · rename_i isLeft
        obtain rfl := Option.some.inj taken
        simp [Growth.tokens, Stem.beforeTokens, Token.leaf_as isLeft]
      · simp only [Option.ite_none_right_eq_some, Option.some.injEq] at taken
        obtain ⟨isMark, rfl⟩ := taken
        simp [Growth.tokens, tokensBelow, Stem.tokens, Token.leaf_as isMark]

theorem tokens_of_tree? {growth : Growth} {tree : Tree .expression}
    (whole : growth.tree? = some tree) : tree.tokens = growth.tokens := by
  cases growth with
  | applied application stems =>
      have kept := tokens_ripen (.operation application) stems
      simp only [Growth.tree?] at whole
      cases ripened : ripen (.operation application) stems with
      | mk ripe rest =>
          rw [ripened] at whole kept
          cases rest with
          | nil =>
              obtain rfl := Option.some.inj whole
              exact kept
          | cons stem stems => cases whole
  | _ => cases whole

/-! ## Every tree grows from its tokens -/

section Grow

variable {State : Type} {extend : State → Token → Option State} {state next : State}

def grow (extend : State → Token → Option State) (state : State) (tokens : List Token) :
    Option State :=
  tokens.foldlM extend state

theorem grow_cons {token : Token} (taken : extend state token = some next) (rest : List Token) :
    grow extend state (token :: rest) = grow extend next rest := by
  simp [grow, taken]

theorem grow_append {tokens : List Token} (grown : grow extend state tokens = some next)
    (rest : List Token) : grow extend state (tokens ++ rest) = grow extend next rest := by
  rw [grow] at grown
  simp [grow, grown]

end Grow

namespace Growth

def beforeAtom (function : Option (Tree .application)) (stems : List Stem) : Growth :=
  match function with
  | none => .opening stems
  | some function => .applied function stems

def beforeBinder (kind : BinderKind) (word : Leaf) (before : Option (Tree .binders))
    (stems : List Stem) : Growth :=
  match before with
  | none => .firstBinder kind word stems
  | some before => .bound kind word before stems

theorem extend_atom_left (function : Option (Tree .application)) (stems : List Stem)
    (left : Leaf) :
    (beforeAtom function stems).extend (left.as .leftParen) =
      some (.opening (.group function left :: stems)) := by
  cases function <;> rfl

theorem extend_binder_left (kind : BinderKind) (word : Leaf) (before : Option (Tree .binders))
    (stems : List Stem) (left : Leaf) :
    (beforeBinder kind word before stems).extend (left.as .leftParen) =
      some (.binderName kind word before left stems) := by
  cases before <;> rfl

theorem extend_body_mark (kind : BinderKind) (word : Leaf) (binders : Tree .binders)
    (stems : List Stem) (mark : Leaf) :
    (bound kind word binders stems).extend (mark.as kind.bodyMark) =
      some (.opening (.body kind word binders mark :: stems)) := by
  cases kind <;> rfl

end Growth

/-- Wherever a phrase may stand, its tokens lead to its tree. Behind an expression the frames
that end with it are still open, but they close to it. -/
def GrowsThrough : {phrase : Phrase} → Tree phrase → Prop
  | .expression, tree =>
      ∀ stems, ∃ application inner,
        grow Growth.extend (.opening stems) tree.tokens = some (.applied application inner) ∧
          ripen (.operation application) inner = ripen tree stems
  | .binders, tree =>
      ∀ kind word stems,
        grow Growth.extend (.firstBinder kind word stems) tree.tokens =
          some (.bound kind word tree stems)
  | .binder, tree =>
      ∀ kind word before stems,
        grow Growth.extend (.beforeBinder kind word before stems) tree.tokens =
          some (.bound kind word (Tree.behind before tree) stems)
  | .application, tree =>
      ∀ stems, grow Growth.extend (.opening stems) tree.tokens = some (.applied tree stems)
  | .atom, tree =>
      ∀ function stems, grow Growth.extend (.beforeAtom function stems) tree.tokens =
        some (.applied (Tree.joined function tree) stems)

theorem grow_bracketed {tree : Tree .expression} (grows : GrowsThrough tree) {stems : List Stem}
    (stops : ripen tree stems = (tree, stems)) (right : Leaf) :
    grow Growth.extend (.opening stems) (tree.tokens ++ [right.as .rightParen]) =
      Growth.closeBracket tree right stems := by
  obtain ⟨application, inner, grown, ripened⟩ := grows stems
  have closes : (Growth.applied application inner).extend (right.as .rightParen) =
      Growth.closeBracket tree right stems := by
    show Growth.closeBracket (ripen (.operation application) inner).1 right
      (ripen (.operation application) inner).2 = _
    rw [ripened, stops]
  rw [grow_append grown, grow, List.foldlM_cons, closes]
  exact bind_pure _

theorem Tree.growsThrough {phrase : Phrase} (tree : Tree phrase) : GrowsThrough tree := by
  induction tree with
  | abstraction kind word binders mark body bindersIH bodyIH =>
      intro stems
      -- The body is read above the abstraction, which is closed only with what is below it.
      obtain ⟨application, inner, grown, ripened⟩ := bodyIH (.body kind word binders mark :: stems)
      refine ⟨application, inner, ?_, ripened⟩
      have opens : (Growth.opening stems).extend (word.as kind.openingWord) =
          some (.firstBinder kind word stems) := by
        cases kind <;> rfl
      rw [tokens, grow_cons opens, grow_append (bindersIH kind word stems),
        grow_cons (Growth.extend_body_mark kind word binders stems mark), grown]
  | operation application ih =>
      intro stems
      exact ⟨application, stems, ih stems, rfl⟩
  | arrow domain mark codomain domainIH codomainIH =>
      intro stems
      obtain ⟨application, inner, grown, ripened⟩ := codomainIH (.codomain domain mark :: stems)
      refine ⟨application, inner, ?_, ripened⟩
      have opens : (Growth.applied domain stems).extend (mark.as .arrow) =
          some (.opening (.codomain domain mark :: stems)) := rfl
      rw [tokens, grow_append (domainIH stems), grow_cons opens, grown]
  | firstBinder binder ih =>
      intro kind word stems
      exact ih kind word none stems
  | nextBinder before binder beforeIH binderIH =>
      intro kind word stems
      rw [tokens, grow_append (beforeIH kind word stems)]
      exact binderIH kind word (some before) stems
  | typed left name colon domain right ih =>
      intro kind word before stems
      have named : (Growth.binderName kind word before left stems).extend (name.as .name) =
          some (.binderColon kind word before left name stems) := rfl
      have opens : (Growth.binderColon kind word before left name stems).extend (colon.as .colon) =
          some (.opening (.domain kind word before left name colon :: stems)) := rfl
      rw [tokens, grow_cons (Growth.extend_binder_left kind word before stems left),
        grow_cons named, grow_cons opens, grow_bracketed ih rfl]
      rfl
  | operand atom ih =>
      intro stems
      exact ih none stems
  | apply function argument functionIH argumentIH =>
      intro stems
      rw [tokens, grow_append (functionIH stems)]
      exact argumentIH (some function) stems
  | identifier word =>
      intro function stems
      cases function <;> rfl
  | typeWord word =>
      intro function stems
      cases function <;> rfl
  | group left inside right ih =>
      intro function stems
      rw [tokens, grow_cons (Growth.extend_atom_left function stems left),
        grow_bracketed ih rfl]
      rfl

end TypeInType
