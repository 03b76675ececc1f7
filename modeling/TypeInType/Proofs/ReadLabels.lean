import TypeInType.Proofs.Acceptance
import TypeInType.Proofs.Spelling

/-!
What a node carries beside its parts: the name of a variable or a binder, and perhaps a place.
A text puts the names and the places of its tokens there, and the name of a binder that has
none. So whatever is true of all of these is true of the labels in all that is read.
-/

namespace TypeInType

section Labels

variable {named : String → Prop} {placed : Location → Prop}

/-- All names in the term, of variables and of binders, are of one sort, and so are all
places. -/
def Term.LabelsAre (named : String → Prop) (placed : Location → Prop) : Term → Prop
  | .sort place => ∀ here ∈ place, placed here
  | .var name place => named name ∧ ∀ here ∈ place, placed here
  | .app function argument place =>
      function.LabelsAre named placed ∧ argument.LabelsAre named placed ∧
        ∀ here ∈ place, placed here
  | .bind _ name domain body place =>
      named name ∧ domain.LabelsAre named placed ∧ body.LabelsAre named placed ∧
        ∀ here ∈ place, placed here

theorem unplaced (placed : Location → Prop) : ∀ here ∈ (none : Option Location), placed here :=
  fun _ member => nomatch member

theorem placed_some {place : Location} (isPlaced : placed place) :
    ∀ here ∈ some place, placed here := by
  rintro here ⟨⟩
  exact isPlaced

theorem Term.LabelsAre.place {term : Term} (labels : term.LabelsAre named placed) :
    ∀ here ∈ term.place, placed here := by
  cases term with
  | sort place => exact labels
  | var name place => exact labels.2
  | app function argument place => exact labels.2.2
  | bind kind name domain body place => exact labels.2.2.2

def Step.LabelsAre (named : String → Prop) (placed : Location → Prop) : Step → Prop
  | .define name value place =>
      named name ∧ value.LabelsAre named placed ∧ ∀ here ∈ place, placed here
  | .prove claim place =>
      named claim.name ∧ claim.statement.LabelsAre named placed ∧
        claim.proof.LabelsAre named placed ∧ ∀ here ∈ place, placed here
  | .express value place => value.LabelsAre named placed ∧ ∀ here ∈ place, placed here

theorem Step.LabelsAre.place {step : Step} (labels : step.LabelsAre named placed) :
    ∀ here ∈ step.place, placed here := by
  cases step with
  | define name value place => exact labels.2.2
  | prove claim place => exact labels.2.2.2
  | express value place => exact labels.2

def Program.LabelsAre (named : String → Prop) (placed : Location → Prop) (program : Program) :
    Prop :=
  ∀ step ∈ program, step.LabelsAre named placed

/-! ## Names alone -/

def Term.NamesAre (good : String → Prop) (term : Term) : Prop :=
  ∀ name ∈ term.allNames, good name

def Step.NamesAre (good : String → Prop) (step : Step) : Prop :=
  ∀ name ∈ step.names, good name

def Program.NamesAre (good : String → Prop) (program : Program) : Prop :=
  ∀ step ∈ program, step.NamesAre good

section Names

variable {good : String → Prop}

theorem Term.namesAre_iff (term : Term) :
    term.NamesAre good ↔ term.LabelsAre good fun _ => True := by
  induction term with
  | sort place => simp [NamesAre, LabelsAre, allNames]
  | var name place => simp [NamesAre, LabelsAre, allNames]
  | app function argument place functionIH argumentIH =>
      simp [LabelsAre, ← functionIH, ← argumentIH, NamesAre, allNames, or_imp, forall_and]
  | bind kind name domain body place domainIH bodyIH =>
      simp [LabelsAre, ← domainIH, ← bodyIH, NamesAre, allNames, or_imp, forall_and]

theorem Step.namesAre_iff (step : Step) :
    step.NamesAre good ↔ step.LabelsAre good fun _ => True := by
  cases step with
  | define name value place =>
      simp [LabelsAre, ← Term.namesAre_iff, NamesAre, names, Term.NamesAre]
  | prove claim place =>
      simp [LabelsAre, ← Term.namesAre_iff, NamesAre, names, Term.NamesAre, or_imp, forall_and]
  | express value place => simp [LabelsAre, ← Term.namesAre_iff, NamesAre, names, Term.NamesAre]

theorem Program.namesAre_iff (program : Program) :
    program.NamesAre good ↔ program.LabelsAre good fun _ => True :=
  forall₂_congr fun step _ => step.namesAre_iff

end Names

/-! ## Labels of what is read -/

structure Token.LabelsAre (named : String → Prop) (placed : Location → Prop) (token : Token) :
    Prop where
  name : token.kind = .name → named token.text
  place : placed token.place

structure Bound.LabelsAre (named : String → Prop) (placed : Location → Prop) (bound : Bound) :
    Prop where
  name : named bound.name
  domain : bound.domain.LabelsAre named placed
  place : placed bound.place

def Phrase.LabelsAre (named : String → Prop) (placed : Location → Prop) :
    (phrase : Phrase) → phrase.Meaning → Prop
  | .binders, bounds => ∀ bound ∈ bounds, bound.LabelsAre named placed
  | .binder, bound => bound.LabelsAre named placed
  | .expression, term => Term.LabelsAre named placed term
  | .application, term => Term.LabelsAre named placed term
  | .atom, term => Term.LabelsAre named placed term

theorem labelsAre_foldr (kind : BinderKind) {bounds : List Bound} {body : Term}
    (inBounds : ∀ bound ∈ bounds, bound.LabelsAre named placed)
    (inBody : body.LabelsAre named placed) :
    Term.LabelsAre named placed (bounds.foldr
      (fun bound body => .bind kind bound.name bound.domain body (some bound.place)) body) := by
  induction bounds with
  | nil => exact inBody
  | cons bound rest ih =>
      obtain ⟨⟨name, domain, place⟩, inRest⟩ := List.forall_mem_cons.mp inBounds
      exact ⟨name, domain, ih inRest, placed_some place⟩

namespace Tree

theorem placed_start {phrase : Phrase} (tree : Tree phrase)
    (labels : ∀ token ∈ tree.tokens, token.LabelsAre named placed) : placed tree.start := by
  obtain ⟨token, rest, begins, starts⟩ := tree.exists_first
  rw [begins] at labels
  rw [← starts]
  exact (labels token List.mem_cons_self).place

theorem labelsAre_meaning (unnamed : named Term.anonymous) {phrase : Phrase} (tree : Tree phrase)
    (labels : ∀ token ∈ tree.tokens, token.LabelsAre named placed) :
    phrase.LabelsAre named placed tree.meaning := by
  induction tree with
  | abstraction kind word binders mark body bindersIH bodyIH =>
      simp only [tokens, List.forall_mem_cons, List.forall_mem_append] at labels
      obtain ⟨_, inBinders, _, inBody⟩ := labels
      exact labelsAre_foldr kind (bindersIH inBinders) (bodyIH inBody)
  | operation application ih => exact ih labels
  | arrow domain mark codomain domainIH codomainIH =>
      simp only [tokens, List.forall_mem_cons, List.forall_mem_append] at labels
      obtain ⟨inDomain, _, inCodomain⟩ := labels
      exact ⟨unnamed, domainIH inDomain, codomainIH inCodomain,
        placed_some (domain.placed_start inDomain)⟩
  | firstBinder binder ih => exact List.forall_mem_singleton.mpr (ih labels)
  | nextBinder before binder beforeIH binderIH =>
      obtain ⟨inBefore, inBinder⟩ := List.forall_mem_append.mp labels
      exact List.forall_mem_append.mpr
        ⟨beforeIH inBefore, List.forall_mem_singleton.mpr (binderIH inBinder)⟩
  | typed left name colon domain right ih =>
      simp only [tokens, List.forall_mem_cons, List.forall_mem_append] at labels
      obtain ⟨isLeft, isName, _, inDomain, _⟩ := labels
      exact ⟨isName.name rfl, ih inDomain, isLeft.place⟩
  | operand atom ih => exact ih labels
  | apply function argument functionIH argumentIH =>
      obtain ⟨inFunction, inArgument⟩ := List.forall_mem_append.mp labels
      exact ⟨functionIH inFunction, argumentIH inArgument,
        placed_some (function.placed_start inFunction)⟩
  | identifier word =>
      have isWord := labels (word.as .name) List.mem_cons_self
      exact ⟨isWord.name rfl, placed_some isWord.place⟩
  | typeWord word => exact placed_some (labels (word.as .typeWord) List.mem_cons_self).place
  | group left inside right ih =>
      simp only [tokens, List.forall_mem_cons, List.forall_mem_append] at labels
      exact ih labels.2.1

end Tree

theorem DeclarationTree.labelsAre_meaning (unnamed : named Term.anonymous)
    (tree : DeclarationTree) (labels : ∀ token ∈ tree.tokens, token.LabelsAre named placed) :
    tree.meaning.LabelsAre named placed := by
  cases tree with
  | definition word name sign value semicolon =>
      simp only [tokens, List.forall_mem_cons, List.forall_mem_append] at labels
      obtain ⟨isWord, isName, _, inValue, _⟩ := labels
      exact ⟨isName.name rfl, value.labelsAre_meaning unnamed inValue, placed_some isWord.place⟩
  | claim word name colon statement sign proof semicolon =>
      simp only [tokens, List.forall_mem_cons, List.forall_mem_append] at labels
      obtain ⟨isWord, isName, _, inStatement, _, inProof, _⟩ := labels
      exact ⟨isName.name rfl, statement.labelsAre_meaning unnamed inStatement,
        proof.labelsAre_meaning unnamed inProof, placed_some isWord.place⟩

theorem ExpressionTree.labelsAre_meaning (unnamed : named Term.anonymous)
    (tree : ExpressionTree) (labels : ∀ token ∈ tree.tokens, token.LabelsAre named placed) :
    tree.meaning.LabelsAre named placed := by
  obtain ⟨inValue, _⟩ := List.forall_mem_append.mp labels
  exact ⟨tree.value.labelsAre_meaning unnamed inValue,
    placed_some (tree.value.placed_start inValue)⟩

theorem ProgramTree.labelsAre_meaning (unnamed : named Term.anonymous) (tree : ProgramTree)
    (labels : ∀ token ∈ tree.tokens, token.LabelsAre named placed) :
    Program.LabelsAre named placed tree.meaning := by
  obtain ⟨inDeclarations, inLast⟩ := List.forall_mem_append.mp labels
  refine List.forall_mem_append.mpr ⟨?_, ?_⟩
  · intro step member
    obtain ⟨declaration, found, rfl⟩ := List.mem_map.mp member
    exact declaration.labelsAre_meaning unnamed fun token inside =>
      inDeclarations token (List.mem_flatMap.mpr ⟨declaration, found, inside⟩)
  · intro step member
    obtain ⟨last, found, rfl⟩ := List.mem_map.mp member
    exact last.labelsAre_meaning unnamed fun token inside =>
      inLast token (List.mem_flatMap.mpr ⟨last, found, inside⟩)

theorem labelsAre_of_readExpression (unnamed : named Term.anonymous) {tokens : Tokens}
    (labels : ∀ token ∈ tokens.items, token.LabelsAre named placed) {term : Term}
    (read : readExpression tokens = .ok term) : term.LabelsAre named placed := by
  obtain ⟨tree, spelled, rfl⟩ := (expressionTrees.read_eq_ok_iff tokens term).mp read
  rw [← spelled] at labels
  exact tree.labelsAre_meaning unnamed labels

theorem labelsAre_of_readProgram (unnamed : named Term.anonymous) {tokens : Tokens}
    (labels : ∀ token ∈ tokens.items, token.LabelsAre named placed) {program : Program}
    (read : readProgram tokens = .ok program) : program.LabelsAre named placed := by
  obtain ⟨tree, spelled, rfl⟩ := (programTrees.read_eq_ok_iff tokens program).mp read
  rw [← spelled] at labels
  exact tree.labelsAre_meaning unnamed labels

end Labels

/-- A program that has been read is linked, and all its steps have places. -/
theorem linked_of_readProgram {tokens : Tokens} {program : Program}
    (read : readProgram tokens = .ok program) :
    program.Linked ∧ ∀ step ∈ program, ∃ here, step.place = some here := by
  obtain ⟨tree, _, rfl⟩ := (programTrees.read_eq_ok_iff tokens program).mp read
  refine ⟨tree.linked_meaning, List.forall_mem_append.mpr ⟨?_, ?_⟩⟩
  · intro step member
    obtain ⟨declaration, _, rfl⟩ := List.mem_map.mp member
    cases declaration with
    | definition word => exact ⟨word.place, rfl⟩
    | claim word => exact ⟨word.place, rfl⟩
  · intro step member
    obtain ⟨last, _, rfl⟩ := List.mem_map.mp member
    exact ⟨last.value.start, rfl⟩

end TypeInType
