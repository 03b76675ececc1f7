import TypeInType.Surface.Reader
import TypeInType.Term.Basic

/-!
Reading an expression.

    expr    := 'fun' binder+ '=>' expr | 'forall' binder+ ',' expr | app ('->' expr)?
    binder  := '(' IDENT ':' expr ')'
    app     := atom atom*
    atom    := IDENT | 'Type' | '(' expr ')'

The state keeps a stack of frames: for each construct that has been opened, what
has been read of it. Application leans to the left, and an arrow or the body of
an abstraction reaches as far to the right as it can, so these frames close only
when something else does.
-/

namespace TypeInType

structure Bound where
  name : String
  domain : Term
  place : Location

inductive Frame where
  | codomain (domain : Term) (start : Location)
  | body (kind : BinderKind) (binders : List Bound)
  | domain (kind : BinderKind) (binders : List Bound) (name : String) (start : Location)
  | group (function : Option Term) (start : Location)

/-- Where in an expression a reader stands. Binders are listed innermost first. -/
inductive ExpressionState where
  | opening (frames : List Frame)
  | applied (term : Term) (start : Location) (frames : List Frame)
  | firstBinder (kind : BinderKind) (frames : List Frame)
  | binderName (kind : BinderKind) (binders : List Bound) (start : Location)
      (frames : List Frame)
  | binderColon (kind : BinderKind) (binders : List Bound) (name : String) (start : Location)
      (frames : List Frame)
  | bound (kind : BinderKind) (binders : List Bound) (frames : List Frame)

def BinderKind.bodyMark : BinderKind → TokenKind
  | .lambda => .fatArrow
  | .pi => .comma

def abstracted (kind : BinderKind) (binders : List Bound) (body : Term) : Term :=
  binders.foldl (fun body bound => .bind kind bound.name bound.domain body (some bound.place)) body

def applied (function : Option Term) (argument : Term) (start : Location) : Term :=
  match function with
  | some function => .app function argument (some start)
  | none => argument

/-- Closes the frames that end where their expression ends. -/
def settle (term : Term) : List Frame → Term × List Frame
  | .codomain domain start :: frames => settle (.arrow domain term (some start)) frames
  | .body kind binders :: frames => settle (abstracted kind binders term) frames
  | frames => (term, frames)

namespace ExpressionState

def operand (function : Option Term) (start : Location) (frames : List Frame) (token : Token) :
    Option ExpressionState :=
  match token.kind with
  | .name => some (.applied (TypeInType.applied function (.var token.text token.place) start)
      start frames)
  | .typeWord => some (.applied (TypeInType.applied function (.sort token.place) start)
      start frames)
  | .leftParen => some (.opening (.group function start :: frames))
  | _ => none

def closeBracket (term : Term) : List Frame → Option ExpressionState
  | .domain kind binders name start :: frames =>
      some (.bound kind (⟨name, term, start⟩ :: binders) frames)
  | .group function start :: frames =>
      some (.applied (TypeInType.applied function term start) start frames)
  | _ => none

def extend (state : ExpressionState) (token : Token) : Option ExpressionState :=
  match state with
  | .opening frames =>
      match token.kind with
      | .funWord => some (.firstBinder .lambda frames)
      | .forallWord => some (.firstBinder .pi frames)
      | _ => operand none token.place frames token
  | .applied term start frames =>
      match token.kind with
      | .arrow => some (.opening (.codomain term start :: frames))
      | .rightParen =>
          let (whole, frames) := settle term frames
          closeBracket whole frames
      | _ => operand (some term) start frames token
  | .firstBinder kind frames =>
      if token.kind = .leftParen then some (.binderName kind [] token.place frames) else none
  | .binderName kind binders start frames =>
      if token.kind = .name then some (.binderColon kind binders token.text start frames)
      else none
  | .binderColon kind binders name start frames =>
      if token.kind = .colon then some (.opening (.domain kind binders name start :: frames))
      else none
  | .bound kind binders frames =>
      if token.kind = .leftParen then some (.binderName kind binders token.place frames)
      else if token.kind = kind.bodyMark then some (.opening (.body kind binders :: frames))
      else none

def status : ExpressionState → Except Expectation Term
  | .opening _ => .error .expression
  | .applied term _ frames =>
      match settle term frames with
      | (whole, []) => .ok whole
      | (_, _ :: _) => .error (.exactly .rightParen)
  | .firstBinder _ _ => .error (.exactly .leftParen)
  | .binderName _ _ _ _ => .error (.exactly .name)
  | .binderColon _ _ _ _ _ => .error (.exactly .colon)
  | .bound kind _ _ => .error (.exactly kind.bodyMark)

end ExpressionState

def expressionReader : Reader ExpressionState Term where
  extend := ExpressionState.extend
  status := ExpressionState.status
  wanted state :=
    match state.status with
    | .ok _ => .finish
    | .error expectation => expectation

def readExpression (tokens : Tokens) : Except Diagnosis Term :=
  expressionReader.read (.opening []) tokens

end TypeInType
