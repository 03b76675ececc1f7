import TypeInType.Surface.Parser

/-!
The grammar as functions, by recursive descent. There is one function for each phrase. It
reads the phrase from the front of some tokens and gives what it has read with the tokens
behind it, and it looks at no more than the first token to choose between alternatives.
Whatever is read takes up at least one token, and this is why the descent ends.
-/

namespace TypeInType

/-- What has been read from the front of some tokens, and those behind it. -/
structure Taken (Value : Type) (tokens : List Token) where
  value : Value
  rest : List Token
  shorter : rest.length < tokens.length

namespace Taken

variable {Value Other : Type} {tokens : List Token}

/-- Two things one behind the other, of which the second is kept. -/
def followedBy (first : Taken Other tokens) (second : Taken Value first.rest) :
    Taken Value tokens :=
  ⟨second.value, second.rest, Nat.lt_trans second.shorter first.shorter⟩

def as (taken : Taken Other tokens) (value : Value) : Taken Value tokens :=
  ⟨value, taken.rest, taken.shorter⟩

end Taken

namespace Descent

def operandStarts : List TokenKind :=
  [.name, .typeWord, .leftParen]

def startsWith (kinds : List TokenKind) (tokens : List Token) : Bool :=
  tokens.head?.any fun token => token.kind ∈ kinds

def take? (kind : TokenKind) : (tokens : List Token) → Option (Taken Token tokens)
  | [] => none
  | token :: rest => if token.kind = kind then some ⟨token, rest, Nat.lt_succ_self _⟩ else none

/-- Without the token of a kind behind it, if there is one. -/
def passOver {Value : Type} (kind : TokenKind) {tokens : List Token}
    (taken : Taken Value tokens) : Taken Value tokens :=
  match take? kind taken.rest with
  | some mark => (taken.followedBy mark).as taken.value
  | none => taken

section Text

variable (finish : Location)

def placeOf (tokens : List Token) : Location :=
  (tokens.head?.map Token.place).getD finish

def refuse (expectation : Expectation) (tokens : List Token) : Diagnosis :=
  Reader.refusal expectation tokens.head? (placeOf finish tokens)

def expect (kind : TokenKind) (tokens : List Token) : Except Diagnosis (Taken Token tokens) :=
  match take? kind tokens with
  | some taken => .ok taken
  | none => .error (refuse finish (.exactly kind) tokens)

mutual

def expression (tokens : List Token) : Except Diagnosis (Taken Term tokens) :=
  match take? .funWord tokens with
  | some word => do
      let whole ← abstraction .lambda word.rest
      return word.followedBy whole
  | none =>
      match take? .forallWord tokens with
      | some word => do
          let whole ← abstraction .pi word.rest
          return word.followedBy whole
      | none => do
          let left ← application tokens
          match take? .arrow left.rest with
          | some mark => do
              let codomain ← expression mark.rest
              return (left.followedBy (mark.followedBy codomain)).as
                (.arrow left.value codomain.value (some (placeOf finish tokens)))
          | none => return left
termination_by (tokens.length, 3)
decreasing_by
  · exact .left _ _ word.shorter
  · exact .left _ _ word.shorter
  · exact .right _ (by decide)
  · exact .left _ _ (Nat.lt_trans mark.shorter left.shorter)

/-- All behind `fun` or `forall`. -/
def abstraction (kind : BinderKind) (tokens : List Token) :
    Except Diagnosis (Taken Term tokens) := do
  let bound ← binders tokens
  let mark ← expect finish kind.bodyMark bound.rest
  let body ← expression mark.rest
  return (bound.followedBy (mark.followedBy body)).as
    (bound.value.foldr
      (fun bound body => .bind kind bound.name bound.domain body (some bound.place)) body.value)
termination_by (tokens.length, 2)
decreasing_by
  · exact .right _ (by decide)
  · exact .left _ _ (Nat.lt_trans mark.shorter bound.shorter)

/-- The outermost binder comes first. -/
def binders (tokens : List Token) : Except Diagnosis (Taken (List Bound) tokens) := do
  let first ← binder tokens
  if startsWith [.leftParen] first.rest then
    let others ← binders first.rest
    return first.followedBy (others.as (first.value :: others.value))
  else return first.as [first.value]
termination_by (tokens.length, 1)
decreasing_by
  · exact .right _ (by decide)
  · exact .left _ _ first.shorter

def binder (tokens : List Token) : Except Diagnosis (Taken Bound tokens) := do
  let left ← expect finish .leftParen tokens
  let name ← expect finish .name left.rest
  let colon ← expect finish .colon name.rest
  let domain ← expression colon.rest
  let right ← expect finish .rightParen domain.rest
  return (left.followedBy (name.followedBy (colon.followedBy (domain.followedBy right)))).as
    ⟨name.value.text, domain.value, placeOf finish tokens⟩
termination_by (tokens.length, 0)
decreasing_by
  exact .left _ _ (Nat.lt_trans colon.shorter (Nat.lt_trans name.shorter left.shorter))

def application (tokens : List Token) : Except Diagnosis (Taken Term tokens) := do
  let first ← atom tokens
  operands (placeOf finish tokens) first
termination_by (tokens.length, 2)
decreasing_by
  · exact .right _ (by decide)
  · exact .left _ _ first.shorter

def operands (start : Location) {tokens : List Token} (function : Taken Term tokens) :
    Except Diagnosis (Taken Term tokens) := do
  if startsWith operandStarts function.rest then
    let argument ← atom function.rest
    operands start
      (function.followedBy (argument.as (.app function.value argument.value (some start))))
  else return function
termination_by (function.rest.length, 1)
decreasing_by
  · exact .right _ (by decide)
  · exact .left _ _ argument.shorter

def atom (tokens : List Token) : Except Diagnosis (Taken Term tokens) :=
  match tokens with
  | [] => .error (refuse finish .expression [])
  | token :: rest =>
      match token.kind with
      | .name => .ok ⟨.var token.text (some token.place), rest, Nat.lt_succ_self _⟩
      | .typeWord => .ok ⟨.sort (some token.place), rest, Nat.lt_succ_self _⟩
      | .leftParen => do
          let left : Taken Token (token :: rest) := ⟨token, rest, Nat.lt_succ_self _⟩
          let inside ← expression rest
          let right ← expect finish .rightParen inside.rest
          return left.followedBy ((inside.followedBy right).as inside.value)
      | _ => .error (refuse finish .expression (token :: rest))
termination_by (tokens.length, 0)

end

def endedBy (kind : TokenKind) (tokens : List Token) : Except Diagnosis (Taken Term tokens) := do
  let inside ← expression finish tokens
  let mark ← expect finish kind inside.rest
  return (inside.followedBy mark).as inside.value

def step (tokens : List Token) : Except Diagnosis (Taken Step tokens) :=
  match take? .letWord tokens with
  | some word => do
      let name ← expect finish .name word.rest
      let sign ← expect finish .assign name.rest
      let value ← endedBy finish .semicolon sign.rest
      return (word.followedBy (name.followedBy (sign.followedBy value))).as
        (.define name.value.text value.value (some (placeOf finish tokens)))
  | none =>
      match take? .theoremWord tokens with
      | some word => do
          let name ← expect finish .name word.rest
          let colon ← expect finish .colon name.rest
          let statement ← endedBy finish .define colon.rest
          let proof ← endedBy finish .semicolon statement.rest
          return (word.followedBy
              (name.followedBy (colon.followedBy (statement.followedBy proof)))).as
            (.prove ⟨name.value.text, statement.value, proof.value⟩
              (some (placeOf finish tokens)))
      | none => do
          let value ← expression finish tokens
          return (passOver .semicolon value).as
            (.express value.value (some (placeOf finish tokens)))

def program (tokens : List Token) : Except Diagnosis Program :=
  match tokens with
  | [] => .ok []
  | token :: rest => do
      let first ← step finish (token :: rest)
      if first.value.isDeclaration = false ∧ first.rest ≠ [] then
        .error (refuse finish .noFurtherStep first.rest)
      else
        let others ← program first.rest
        return first.value :: others
termination_by tokens.length
decreasing_by exact first.shorter

end Text

def readExpression (tokens : Tokens) : Except Diagnosis Term := do
  let whole ← expression tokens.finish tokens.items
  match whole.rest with
  | [] => return whole.value
  | _ :: _ => .error (refuse tokens.finish .finish whole.rest)

def readProgram (tokens : Tokens) : Except Diagnosis Program :=
  program tokens.finish tokens.items

end Descent

end TypeInType
