import TypeInType.Proofs.ProgramGrowth

/-!
The readers accept exactly the grammar. Beside each of them stands a reader that keeps trees:
it takes the same tokens, loses none of them, and gets over the tokens of every tree. So a
list of tokens is read where it is the tokens of a tree, the result is what the tree stands
for, and there is one tree only.
-/

namespace TypeInType

section Readers

variable {State Result : Type}

/-- A reader that keeps the trees of what another one reads. -/
structure TreeReader (reader : Reader State Result) (start : State) {Tree : Type}
    (tokensOf : Tree → List Token) (meaning : Tree → Result) where
  Grown : Type
  extend : Grown → Token → Option Grown
  seed : Grown
  /-- What the other reader keeps. -/
  view : Grown → State
  /-- All tokens that have been taken. -/
  tokens : Grown → List Token
  tree? : Grown → Option Tree
  view_seed : view seed = start
  view_extend : ∀ grown token, reader.extend (view grown) token = (extend grown token).map view
  status_view : ∀ grown result, reader.status (view grown) = .ok result ↔
    ∃ tree, tree? grown = some tree ∧ meaning tree = result
  tokens_seed : tokens seed = []
  tokens_extend : ∀ grown token next, extend grown token = some next →
    tokens next = tokens grown ++ [token]
  tokens_tree? : ∀ grown tree, tree? grown = some tree → tokensOf tree = tokens grown
  grow_tree : ∀ tree, ∃ grown, grow extend seed (tokensOf tree) = some grown ∧
    tree? grown = some tree

namespace TreeReader

variable {reader : Reader State Result} {start : State} {Tree : Type}
  {tokensOf : Tree → List Token} {meaning : Tree → Result}
  (trees : TreeReader reader start tokensOf meaning)

include trees

theorem reach_view (grown : trees.Grown) (tokens : List Token) :
    reader.reach (trees.view grown) tokens =
      (grow trees.extend grown tokens).map trees.view := by
  induction tokens generalizing grown with
  | nil => rfl
  | cons token rest ih =>
      rw [Reader.reach, List.foldlM_cons, trees.view_extend, grow, List.foldlM_cons]
      cases trees.extend grown token with
      | none => rfl
      | some next => exact ih next

theorem tokens_grow {grown next : trees.Grown} {tokens : List Token}
    (taken : grow trees.extend grown tokens = some next) :
    trees.tokens next = trees.tokens grown ++ tokens := by
  induction tokens generalizing grown with
  | nil =>
      obtain rfl := Option.some.inj taken
      exact (List.append_nil _).symm
  | cons token rest ih =>
      rw [grow, List.foldlM_cons, Option.bind_eq_bind, Option.bind_eq_some_iff] at taken
      obtain ⟨middle, extended, taken⟩ := taken
      rw [ih taken, trees.tokens_extend _ _ _ extended, List.append_assoc]
      rfl

theorem reach_start (tokens : List Token) :
    reader.reach start tokens = (grow trees.extend trees.seed tokens).map trees.view := by
  have reached := trees.reach_view trees.seed tokens
  rwa [trees.view_seed] at reached

theorem grown_of_reach {taken : List Token} {last : State}
    (reached : reader.reach start taken = some last) :
    ∃ grown, grow trees.extend trees.seed taken = some grown ∧ trees.view grown = last ∧
      trees.tokens grown = taken := by
  rw [trees.reach_start, Option.map_eq_some_iff] at reached
  obtain ⟨grown, grows, viewed⟩ := reached
  refine ⟨grown, grows, viewed, ?_⟩
  rw [trees.tokens_grow grows, trees.tokens_seed, List.nil_append]

/-- A text is read where it is the text of a tree, and as what the tree stands for. -/
theorem read_eq_ok_iff (tokens : Tokens) (result : Result) :
    reader.read start tokens = .ok result ↔
      ∃ tree, tokensOf tree = tokens.items ∧ meaning tree = result := by
  rw [Reader.read, Reader.readFrom_eq_ok_iff]
  constructor
  · -- What has been reached is the view of something grown, and that has lost no token.
    rintro ⟨last, reached, status⟩
    obtain ⟨grown, _, rfl, spelled⟩ := trees.grown_of_reach reached
    obtain ⟨tree, whole, means⟩ := (trees.status_view grown result).mp status
    exact ⟨tree, (trees.tokens_tree? grown tree whole).trans spelled, means⟩
  · -- The reader that keeps trees gets over these tokens, and the other one goes along.
    rintro ⟨tree, spelled, means⟩
    obtain ⟨grown, taken, whole⟩ := trees.grow_tree tree
    refine ⟨trees.view grown, ?_, (trees.status_view grown result).mpr ⟨tree, whole, means⟩⟩
    rw [trees.reach_start, ← spelled, taken, Option.map_some]

theorem tokens_injective : Function.Injective tokensOf := by
  intro left right same
  obtain ⟨grown, taken, whole⟩ := trees.grow_tree left
  obtain ⟨other, takenToo, wholeToo⟩ := trees.grow_tree right
  rw [same, takenToo] at taken
  obtain rfl := Option.some.inj taken
  rw [whole] at wholeToo
  exact Option.some.inj wholeToo

end TreeReader

end Readers

def expressionTrees :
    TreeReader expressionReader (.opening []) (@Tree.tokens .expression)
      (@Tree.meaning .expression) where
  Grown := Growth
  extend := Growth.extend
  seed := .opening []
  view := Growth.state
  tokens := Growth.tokens
  tree? := Growth.tree?
  view_seed := rfl
  view_extend := state_extend
  status_view := status_state
  tokens_seed := rfl
  tokens_extend _ _ _ := tokens_extend
  tokens_tree? _ _ := tokens_of_tree?
  grow_tree := grow_expression

def programTrees :
    TreeReader programReader (.between []) ProgramTree.tokens ProgramTree.meaning where
  Grown := ProgramGrowth
  extend := ProgramGrowth.extend
  seed := .between []
  view := ProgramGrowth.state
  tokens := ProgramGrowth.tokens
  tree? := ProgramGrowth.tree?
  view_seed := rfl
  view_extend := state_programExtend
  status_view := status_programState
  tokens_seed := rfl
  tokens_extend _ _ _ := tokens_programExtend
  tokens_tree? _ _ := tokens_of_programTree?
  grow_tree := grow_program

/-- The readers accept the sentences of the grammar and nothing else, no sentence has two
trees, and what is read is what the tree stands for. -/
theorem readers_accept_grammar :
    ((∀ tokens program, readProgram tokens = .ok program ↔
        ∃ tree : ProgramTree, tree.tokens = tokens.items ∧ tree.meaning = program) ∧
      Function.Injective ProgramTree.tokens ∧
      ∀ tree : ProgramTree, tree.meaning.Linked) ∧
    (∀ tokens term, readExpression tokens = .ok term ↔
        ∃ tree : Tree .expression, tree.tokens = tokens.items ∧ tree.meaning = term) ∧
      Function.Injective (@Tree.tokens .expression) := by
  refine ⟨⟨?_, ?_, ProgramTree.linked_meaning⟩, ?_, ?_⟩
  · intro tokens program
    exact programTrees.read_eq_ok_iff tokens program
  · exact programTrees.tokens_injective
  · intro tokens term
    exact expressionTrees.read_eq_ok_iff tokens term
  · exact expressionTrees.tokens_injective

/-- `f x -> Type` is an arrow from an application, and nothing else. -/
theorem arrow_sentence_has_one_tree :
    let place : Location := ⟨1, 1, ""⟩
    let application : Tree .application :=
      .apply (.operand (.identifier ⟨"f", place⟩)) (.identifier ⟨"x", place⟩)
    let tree : Tree .expression :=
      .arrow application ⟨"->", place⟩ (.operation (.operand (.typeWord ⟨"Type", place⟩)))
    readExpression ⟨[⟨.name, "f", place⟩, ⟨.name, "x", place⟩, ⟨.arrow, "->", place⟩,
        ⟨.typeWord, "Type", place⟩], place⟩ =
      .ok (.pi "_" (.app (.var "f" (some place)) (.var "x" (some place)) (some place))
        (.sort (some place)) (some place)) ∧
      ∀ other : Tree .expression, other.tokens = tree.tokens → other = tree := by
  intro place application tree
  obtain ⟨_, reads, injective⟩ := readers_accept_grammar
  constructor
  · exact (reads _ _).mpr ⟨tree, rfl, rfl⟩
  · intro other same
    exact injective same

end TypeInType
