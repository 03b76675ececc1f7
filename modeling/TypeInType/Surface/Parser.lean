import TypeInType.Program.Basic
import TypeInType.Surface.Expression
import TypeInType.Surface.Lexer

/-!
Reading a program.

    program := step*
    step    := 'let' IDENT '=' expr ';'
             | 'theorem' IDENT ':' expr ':=' expr ';'
             | expr ';'?                              (last step only)
-/

namespace TypeInType

inductive Declaration where
  | definition
  | claim
  deriving DecidableEq, Repr

def Declaration.mark : Declaration → TokenKind
  | .definition => .assign
  | .claim => .colon

inductive Slot where
  | value (name : String) (place : Location)
  | statement (name : String) (place : Location)
  | proof (name : String) (statement : Term) (place : Location)
  | last (place : Location)

def Slot.terminator : Slot → TokenKind
  | .statement _ _ => .define
  | _ => .semicolon

/-- Where in a program a reader stands, with the steps before, latest first. -/
inductive ProgramState where
  | between (steps : List Step)
  | declaredName (declaration : Declaration) (place : Location) (steps : List Step)
  | declaredMark (declaration : Declaration) (name : String) (place : Location)
      (steps : List Step)
  | inside (slot : Slot) (expression : ExpressionState) (steps : List Step)
  | ended (steps : List Step)

def Declaration.slot (declaration : Declaration) (name : String) (place : Location) : Slot :=
  match declaration with
  | .definition => .value name place
  | .claim => .statement name place

def Slot.fill (slot : Slot) (term : Term) (steps : List Step) : ProgramState :=
  match slot with
  | .value name place => .between (.define name term place :: steps)
  | .statement name place => .inside (.proof name term place) (.opening []) steps
  | .proof name goal place => .between (.prove ⟨name, goal, term⟩ place :: steps)
  | .last place => .ended (.express term place :: steps)

namespace ProgramState

def extend (state : ProgramState) (token : Token) : Option ProgramState :=
  match state with
  | .between steps =>
      match token.kind with
      | .letWord => some (.declaredName .definition token.place steps)
      | .theoremWord => some (.declaredName .claim token.place steps)
      | _ =>
          ((ExpressionState.opening []).extend token).map fun expression =>
            .inside (.last token.place) expression steps
  | .declaredName declaration place steps =>
      if token.kind = .name then some (.declaredMark declaration token.text place steps)
      else none
  | .declaredMark declaration name place steps =>
      if token.kind = declaration.mark then
        some (.inside (declaration.slot name place) (.opening []) steps)
      else none
  | .inside slot expression steps =>
      match expression.extend token with
      | some next => some (.inside slot next steps)
      | none =>
          match expression.status with
          | .ok term => if token.kind = slot.terminator then some (slot.fill term steps) else none
          | .error _ => none
  | .ended _ => none

def status : ProgramState → Except Expectation Program
  | .between steps => .ok steps.reverse
  | .declaredName _ _ _ => .error (.exactly .name)
  | .declaredMark declaration _ _ _ => .error (.exactly declaration.mark)
  | .inside slot expression steps =>
      match expression.status, slot with
      | .error expectation, _ => .error expectation
      | .ok term, .last place => .ok (steps.reverse ++ [.express term place])
      | .ok _, slot => .error (.exactly slot.terminator)
  | .ended steps => .ok steps.reverse

/-- What a state waits for when the text goes on. Behind an expression step
nothing can follow. -/
def wanted (state : ProgramState) : Expectation :=
  match state with
  | .between _ => .expression
  | _ =>
      match state.status with
      | .ok _ => .noFurtherStep
      | .error expectation => expectation

end ProgramState

def programReader : Reader ProgramState Program where
  extend := ProgramState.extend
  status := ProgramState.status
  wanted := ProgramState.wanted

def readProgram (tokens : Tokens) : Except Diagnosis Program :=
  programReader.read (.between []) tokens

def parseExpression (source file : String) : Except Diagnosis Term :=
  tokenize source file >>= readExpression

def parseProgram (source file : String) : Except Diagnosis Program :=
  tokenize source file >>= readProgram

end TypeInType
