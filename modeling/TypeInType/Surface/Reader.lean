import TypeInType.Diagnosis
import TypeInType.Surface.Token

/-!
Reading a list of tokens from left to right. A reader moves from state to state;
a token it cannot move on is the first one that is wrong, and the state says
what should have stood there.
-/

namespace TypeInType

inductive Expectation where
  | expression
  | exactly (kind : TokenKind)
  | finish
  | noFurtherStep
  deriving DecidableEq, Repr

namespace Expectation

def quotedOrEnd : Option Token → String
  | some token => "'" ++ token.text ++ "'"
  | none => "end of input"

def expectedMessage (wanted : String) (found : Option Token) : String :=
  let kind := match found with
    | some token => token.kind.text
    | none => endOfInput
  "Expected " ++ wanted ++ ", got " ++ kind ++ " (" ++ quotedOrEnd found ++ ")"

def message (expectation : Expectation) (found : Option Token) : String :=
  match expectation with
  | .expression => "Expected an expression, got " ++ quotedOrEnd found
  | .exactly kind => expectedMessage kind.text found
  | .finish => expectedMessage endOfInput found
  | .noFurtherStep => "An expression step must be the last step"

end Expectation

/-- A reader of tokens. `extend` takes one more token, `status` is the result if
the text ends here, or what is missing, and `wanted` is what a state is waiting
for when another token follows. -/
structure Reader (State Result : Type) where
  extend : State → Token → Option State
  status : State → Except Expectation Result
  wanted : State → Expectation

namespace Reader

variable {State Result : Type}

def refusal (expectation : Expectation) (found : Option Token) (place : Location) : Diagnosis :=
  .of (.badSyntax (expectation.message found)) (some place)

def readFrom (reader : Reader State Result) (finish : Location) (state : State) :
    List Token → Except Diagnosis Result
  | [] =>
      match reader.status state with
      | .ok result => .ok result
      | .error expectation => .error (refusal expectation none finish)
  | token :: rest =>
      match reader.extend state token with
      | some next => reader.readFrom finish next rest
      | none => .error (refusal (reader.wanted state) (some token) token.place)

def read (reader : Reader State Result) (start : State) (tokens : Tokens) :
    Except Diagnosis Result :=
  reader.readFrom tokens.finish start tokens.items

def reach (reader : Reader State Result) (state : State) (tokens : List Token) : Option State :=
  tokens.foldlM reader.extend state

theorem readFrom_append (reader : Reader State Result) (finish : Location) (state next : State)
    (taken rest : List Token) (reached : reader.reach state taken = some next) :
    reader.readFrom finish state (taken ++ rest) = reader.readFrom finish next rest := by
  induction taken generalizing state with
  | nil =>
      obtain rfl : state = next := by simpa [reach] using reached
      rfl
  | cons token taken ih =>
      simp only [reach, List.foldlM_cons, Option.bind_eq_bind, Option.bind_eq_some_iff] at reached
      obtain ⟨middle, extended, reached⟩ := reached
      simp only [List.cons_append, readFrom, extended]
      exact ih middle reached

theorem readFrom_eq_ok_iff (reader : Reader State Result) (finish : Location) (state : State)
    (tokens : List Token) (result : Result) :
    reader.readFrom finish state tokens = .ok result ↔
      ∃ last, reader.reach state tokens = some last ∧ reader.status last = .ok result := by
  induction tokens generalizing state with
  | nil =>
      rw [readFrom]
      cases status : reader.status state <;> simp [reach, status]
  | cons token rest ih =>
      rw [readFrom]
      cases extended : reader.extend state token with
      | none => simp [reach, extended]
      | some next => simpa [reach, extended] using ih next

end Reader

end TypeInType
