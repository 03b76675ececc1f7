import TypeInType.Proofs.Descent
import TypeInType.Proofs.Rereading

/-!
The reader of expressions reads as the recursive descent does: it passes the same tokens, has
the same results and refuses for the same reasons. Its frames are the calls of the descent
that have not returned. So a call is compared with the reader above any frames, from the state
in which the phrase may come. Where the call returns, the reader has passed the same tokens
and holds the result, and where the call refuses, the reader is stuck there and misses the
same.
-/

namespace TypeInType

namespace Reader

variable {State Result : Type} {reader : Reader State Result} {finish : Location}
  {state next : State} {tokens later : List Token}

theorem passes_refl (reader : Reader State Result) (state : State) (tokens : List Token) :
    reader.Passes state tokens state tokens :=
  ⟨[], rfl, rfl⟩

theorem passes_taken {taken : Taken Token tokens} (split : tokens = taken.value :: taken.rest)
    (extended : reader.extend state taken.value = some next) :
    reader.Passes state tokens next taken.rest := by
  refine ⟨[taken.value], split, ?_⟩
  simp [reach, extended]

/-- The reader can neither end in a state nor take the first of some tokens. -/
structure Misses (reader : Reader State Result) (state : State) (tokens : List Token)
    (expectation : Expectation) : Prop where
  missing : reader.status state = .error expectation
  wanted : reader.wanted state = expectation
  stuck : ∀ token ∈ tokens.head?, reader.extend state token = none

theorem Misses.readFrom_eq {expectation : Expectation}
    (misses : reader.Misses state tokens expectation) (finish : Location) :
    reader.readFrom finish state tokens =
      .error (Descent.refuse finish expectation tokens) := by
  cases tokens with
  | nil =>
      rw [readFrom, misses.missing]
      rfl
  | cons token rest =>
      rw [readFrom, misses.stuck token rfl, misses.wanted]
      rfl

def Refuses (reader : Reader State Result) (finish : Location) (state : State)
    (tokens : List Token) (diagnosis : Diagnosis) : Prop :=
  ∃ last rest expectation, reader.Passes state tokens last rest ∧
    reader.Misses last rest expectation ∧ diagnosis = Descent.refuse finish expectation rest

theorem Refuses.readFrom_eq {diagnosis : Diagnosis}
    (refuses : reader.Refuses finish state tokens diagnosis) :
    reader.readFrom finish state tokens = .error diagnosis := by
  obtain ⟨last, rest, expectation, passes, misses, rfl⟩ := refuses
  rw [passes.readFrom_eq finish, misses.readFrom_eq finish]

/-- What a call does, the reader does from a state: it refuses where the call does, and what
is said of the result holds where there is one. -/
def Simulates {Value : Type} (reader : Reader State Result) (finish : Location) (state : State)
    (tokens : List Token) (good : Value → Prop) : Except Diagnosis Value → Prop
  | .ok value => good value
  | .error diagnosis => reader.Refuses finish state tokens diagnosis

namespace Simulates

variable {Value Other : Type} {call : Except Diagnosis Value} {good whole : Value → Prop}

theorem after (passes : reader.Passes state tokens next later)
    (called : reader.Simulates finish next later good call)
    (further : ∀ value, good value → whole value) :
    reader.Simulates finish state tokens whole call := by
  cases call with
  | ok value => exact further value called
  | error diagnosis =>
      obtain ⟨last, rest, expectation, goesOn, misses, told⟩ := called
      exact ⟨last, rest, expectation, passes.trans goesOn, misses, told⟩

theorem bind {go : Value → Except Diagnosis Other} {result : Other → Prop}
    (called : reader.Simulates finish state tokens good call)
    (further : ∀ value, good value → reader.Simulates finish state tokens result (go value)) :
    reader.Simulates finish state tokens result (call >>= go) := by
  cases call with
  | ok value => exact further value called
  | error diagnosis => exact called

theorem goOn {go : Value → Except Diagnosis Other} {result : Other → Prop}
    (called : reader.Simulates finish next later good call)
    (passes : reader.Passes state tokens next later)
    (further : ∀ value, good value → reader.Simulates finish state tokens result (go value)) :
    reader.Simulates finish state tokens result (call >>= go) :=
  (called.after passes fun _ => id).bind further

theorem readFrom_eq {go : Value → Except Diagnosis Result}
    (called : reader.Simulates finish state tokens good call)
    (further : ∀ value, good value → reader.readFrom finish state tokens = go value) :
    reader.readFrom finish state tokens = call >>= go := by
  cases call with
  | ok value => exact further value called
  | error diagnosis => exact called.readFrom_eq

end Simulates

end Reader

namespace Descent

/-! ## The first token -/

theorem take?_eq_some {kind : TokenKind} {tokens : List Token} {taken : Taken Token tokens}
    (found : take? kind tokens = some taken) :
    taken.value ∈ tokens.head? ∧ tokens = taken.value :: taken.rest ∧
      taken.value.kind = kind := by
  cases tokens with
  | nil => cases found
  | cons token rest =>
      rw [take?] at found
      split at found
      · rename_i same
        obtain rfl := Option.some.inj found
        exact ⟨rfl, rfl, same⟩
      · cases found

theorem take?_eq_none {kind : TokenKind} {tokens : List Token} (absent : take? kind tokens = none)
    {token : Token} (first : token ∈ tokens.head?) : token.kind ≠ kind := by
  cases tokens with
  | nil => cases first
  | cons head rest =>
      obtain rfl := Option.some.inj first
      intro same
      rw [take?, if_pos same] at absent
      cases absent

theorem startsWith_iff {kinds : List TokenKind} {tokens : List Token} :
    startsWith kinds tokens = true ↔ ∃ token ∈ tokens.head?, token.kind ∈ kinds := by
  simp [startsWith, Option.any_eq_true]

theorem not_mem_of_startsWith {kinds : List TokenKind} {tokens : List Token}
    (absent : ¬startsWith kinds tokens = true) {token : Token} (first : token ∈ tokens.head?) :
    token.kind ∉ kinds :=
  fun member => absent (startsWith_iff.mpr ⟨token, first, member⟩)

theorem placeOf_eq {finish : Location} {tokens : List Token} {token : Token}
    (first : token ∈ tokens.head?) : placeOf finish tokens = token.place := by
  rw [placeOf, Option.mem_def.mp first]
  rfl

theorem expect_simulated {State Result : Type} {reader : Reader State Result}
    {finish : Location} {state : State} {tokens : List Token} {kind : TokenKind}
    (behind : Token → State)
    (takes : ∀ token ∈ tokens.head?, token.kind = kind →
      reader.extend state token = some (behind token))
    (misses : (∀ token ∈ tokens.head?, token.kind ≠ kind) →
      reader.Misses state tokens (.exactly kind)) :
    reader.Simulates finish state tokens
      (fun taken => reader.Passes state tokens (behind taken.value) taken.rest)
      (expect finish kind tokens) := by
  rw [expect]
  cases found : take? kind tokens with
  | some taken =>
      obtain ⟨first, split, same⟩ := take?_eq_some found
      exact Reader.passes_taken split (takes _ first same)
  | none =>
      have missed := misses fun _ => take?_eq_none found
      exact ⟨state, tokens, _, reader.passes_refl state tokens, missed, rfl⟩

/-! ## Brackets, binders and operands -/

open ExpressionState

variable {finish : Location} {state next : ExpressionState} {tokens : List Token}

/-- The reader has passed an expression. It holds the last part of it, above frames that close
as those below close on the whole, and no token follows that would belong to it. -/
def Holds (state : ExpressionState) (frames : List Frame) (taken : Taken Term tokens) : Prop :=
  ∃ term start inner,
    expressionReader.Passes state tokens (.applied term start inner) taken.rest ∧
      settle term inner = settle taken.value frames ∧
        ¬startsWith (.arrow :: operandStarts) taken.rest = true

def ReadAlike (finish : Location) (tokens : List Token) : Prop :=
  ∀ frames, expressionReader.Simulates finish (.opening frames) tokens
    (Holds (.opening frames) frames) (expression finish tokens)

def ShorterAlike (finish : Location) (tokens : List Token) : Prop :=
  ∀ later : List Token, later.length < tokens.length → ReadAlike finish later

section Shorter

variable {Value : Type} (shorter : ShorterAlike finish tokens) (taken : Taken Value tokens)

include shorter

theorem ShorterAlike.behind : ShorterAlike finish taken.rest :=
  fun later less => shorter later (Nat.lt_trans less taken.shorter)

theorem ShorterAlike.readAlike : ReadAlike finish taken.rest :=
  shorter taken.rest taken.shorter

end Shorter

theorem extend_applied_eq_none {term : Term} {start : Location} {inner : List Frame}
    {token : Token} (other : token.kind ∉ TokenKind.arrow :: operandStarts)
    (notRight : token.kind ≠ .rightParen) :
    (ExpressionState.applied term start inner).extend token = none := by
  cases token with
  | mk kind text place => cases kind <;> simp_all [operandStarts, extend, operand]

theorem closing_simulated {frames below : List Frame} {frame : Frame} {taken : Taken Term tokens}
    (holds : Holds state frames taken)
    (settled : settle taken.value frames = (taken.value, frame :: below))
    (closed : closeBracket taken.value (frame :: below) = some next) :
    expressionReader.Simulates finish state tokens
      (fun right : Taken Token taken.rest => expressionReader.Passes state tokens next right.rest)
      (expect finish .rightParen taken.rest) := by
  obtain ⟨term, start, inner, passes, same, ends⟩ := holds
  rw [settled] at same
  refine (expect_simulated (fun _ => next) ?_ ?_).after passes fun _ => passes.trans
  · intro token _ isRight
    simp only [expressionReader, extend, isRight, same, closed]
  · intro notRight
    have missing : (ExpressionState.applied term start inner).status =
        .error (.exactly .rightParen) := by
      rw [status, same]
    refine ⟨missing, ?_, fun token first => ?_⟩
    · simp only [expressionReader, missing]
    · exact extend_applied_eq_none (not_mem_of_startsWith ends first) (notRight token first)

def beforeBinder (kind : BinderKind) (binders : List Bound) (frames : List Frame) :
    ExpressionState :=
  match binders with
  | [] => .firstBinder kind frames
  | _ :: _ => .bound kind binders frames

section Binders

variable (kind : BinderKind) (before : List Bound) (start : Location) (frames : List Frame)

theorem binderStart_simulated (starts : before = [] ∨ startsWith [.leftParen] tokens = true) :
    expressionReader.Simulates finish (beforeBinder kind before frames) tokens
      (fun left => expressionReader.Passes (beforeBinder kind before frames) tokens
        (.binderName kind before (placeOf finish tokens) frames) left.rest)
      (expect finish .leftParen tokens) := by
  refine expect_simulated (fun _ => binderName kind before (placeOf finish tokens) frames) ?_ ?_
  · intro token first isLeft
    rw [placeOf_eq first]
    cases before <;> exact if_pos isLeft
  · intro notLeft
    obtain rfl : before = [] := by
      refine starts.resolve_right fun left => ?_
      obtain ⟨token, first, isLeft⟩ := startsWith_iff.mp left
      exact notLeft token first (List.mem_singleton.mp isLeft)
    exact ⟨rfl, rfl, fun token first => if_neg (notLeft token first)⟩

theorem binderName_simulated :
    expressionReader.Simulates finish (.binderName kind before start frames) tokens
      (fun name => expressionReader.Passes (.binderName kind before start frames) tokens
        (.binderColon kind before name.value.text start frames) name.rest)
      (expect finish .name tokens) := by
  refine expect_simulated (fun token => binderColon kind before token.text start frames) ?_ ?_
  · intro token _ isName
    exact if_pos isName
  · intro notName
    exact ⟨rfl, rfl, fun token first => if_neg (notName token first)⟩

theorem binderColon_simulated (name : String) :
    expressionReader.Simulates finish (.binderColon kind before name start frames) tokens
      (fun colon => expressionReader.Passes (.binderColon kind before name start frames) tokens
        (.opening (.domain kind before name start :: frames)) colon.rest)
      (expect finish .colon tokens) := by
  refine expect_simulated (fun _ => opening (.domain kind before name start :: frames)) ?_ ?_
  · intro token _ isColon
    exact if_pos isColon
  · intro notColon
    exact ⟨rfl, rfl, fun token first => if_neg (notColon token first)⟩

theorem bodyMark_simulated (notLeft : ¬startsWith [.leftParen] tokens = true) :
    expressionReader.Simulates finish (.bound kind before frames) tokens
      (fun mark => expressionReader.Passes (.bound kind before frames) tokens
        (.opening (.body kind before :: frames)) mark.rest)
      (expect finish kind.bodyMark tokens) := by
  refine expect_simulated (fun _ => opening (.body kind before :: frames)) ?_ ?_
  · intro token _ isMark
    have differ : kind.bodyMark ≠ .leftParen := by
      cases kind <;> decide
    simp [expressionReader, extend, isMark, differ]
  · intro notMark
    refine ⟨rfl, rfl, fun token first => ?_⟩
    have noLeft : token.kind ≠ .leftParen := fun isLeft =>
      not_mem_of_startsWith notLeft first (List.mem_singleton.mpr isLeft)
    simp [expressionReader, extend, noLeft, notMark token first]

end Binders

theorem atom_eq_error (other : ¬startsWith operandStarts tokens = true) :
    atom finish tokens = .error (refuse finish .expression tokens) := by
  cases tokens with
  | nil => rw [atom]
  | cons token rest =>
      have noOperand := not_mem_of_startsWith other rfl
      rw [atom]
      cases token with
      | mk kind text place => cases kind <;> simp_all [operandStarts]

/-! ## Phrases

Each of them is read alike where all shorter expressions are. -/

section Phrases

variable (shorter : ShorterAlike finish tokens)

include shorter

theorem atom_simulated (function : Option (Term × Location)) (frames : List Frame)
    {start : Location} (begun : (function.map Prod.snd).getD (placeOf finish tokens) = start)
    (starts : startsWith operandStarts tokens = true) :
    expressionReader.Simulates finish (beforeOperand function frames) tokens
      (fun taken => expressionReader.Passes (beforeOperand function frames) tokens
        (.applied (applied (function.map Prod.fst) taken.value start) start frames) taken.rest)
      (atom finish tokens) := by
  cases tokens with
  | nil => cases starts
  | cons token rest =>
      have isStart : token.kind = .name ∨ token.kind = .typeWord ∨ token.kind = .leftParen := by
        simpa [startsWith, operandStarts] using starts
      have extended := extend_beforeOperand function frames isStart
      rw [show token.place = placeOf finish (token :: rest) from rfl, begun] at extended
      rw [atom]
      rcases isStart with isName | isType | isLeft
      · rw [operand, isName] at extended
        rw [isName]
        exact Reader.passes_step extended rest
      · rw [operand, isType] at extended
        rw [isType]
        exact Reader.passes_step extended rest
      · rw [operand, isLeft] at extended
        rw [isLeft]
        let inner := Frame.group (function.map Prod.fst) start :: frames
        have opens : expressionReader.Passes (beforeOperand function frames) (token :: rest)
            (.opening inner) rest := Reader.passes_step extended rest
        refine (shorter rest (Nat.lt_succ_self _) inner).goOn opens fun inside holds => ?_
        refine (closing_simulated holds rfl rfl).goOn opens fun right closes => ?_
        exact opens.trans closes

theorem operands_simulated (start : Location) (function : Taken Term tokens)
    (frames : List Frame) :
    expressionReader.Simulates finish (.applied function.value start frames) function.rest
      (fun taken : Taken Term tokens =>
        expressionReader.Passes (.applied function.value start frames) function.rest
          (.applied taken.value start frames) taken.rest ∧
            ¬startsWith operandStarts taken.rest = true)
      (operands finish start function) := by
  induction size : function.rest.length using Nat.strong_induction_on generalizing function with
  | h length ih =>
      subst size
      rw [operands]
      split
      · rename_i starts
        have further := shorter.behind function
        refine (atom_simulated further (some (function.value, start)) frames rfl starts).bind
          fun argument passes => ?_
        refine (ih argument.rest.length argument.shorter _ rfl).after passes fun whole goesOn => ?_
        exact ⟨passes.trans goesOn.1, goesOn.2⟩
      · rename_i ends
        exact ⟨expressionReader.passes_refl _ _, ends⟩

theorem application_simulated (frames : List Frame)
    (plain : ∀ token ∈ tokens.head?, token.kind ≠ .funWord ∧ token.kind ≠ .forallWord) :
    expressionReader.Simulates finish (.opening frames) tokens
      (fun taken => expressionReader.Passes (.opening frames) tokens
        (.applied taken.value (placeOf finish tokens) frames) taken.rest ∧
          ¬startsWith operandStarts taken.rest = true)
      (application finish tokens) := by
  rw [application]
  by_cases starts : startsWith operandStarts tokens = true
  · refine (atom_simulated shorter none frames rfl starts).bind fun first passes => ?_
    refine (operands_simulated shorter _ first frames).after passes fun whole goesOn => ?_
    exact ⟨passes.trans goesOn.1, goesOn.2⟩
  · rw [atom_eq_error starts]
    -- Neither an abstraction nor an operand starts like this.
    refine ⟨_, tokens, _, expressionReader.passes_refl _ _, ⟨rfl, rfl, fun token first => ?_⟩, rfl⟩
    have noOperand := not_mem_of_startsWith starts first
    have noAbstraction := plain token first
    cases token with
    | mk kind text place =>
        cases kind <;> simp_all [expressionReader, operandStarts, extend, operand]

theorem binder_simulated (kind : BinderKind) (before : List Bound) (frames : List Frame)
    (starts : before = [] ∨ startsWith [.leftParen] tokens = true) :
    expressionReader.Simulates finish (beforeBinder kind before frames) tokens
      (fun taken => expressionReader.Passes (beforeBinder kind before frames) tokens
        (.bound kind (taken.value :: before) frames) taken.rest)
      (binder finish tokens) := by
  rw [binder]
  refine (binderStart_simulated kind before frames starts).bind fun left opens => ?_
  refine (binderName_simulated kind before _ frames).goOn opens fun name names => ?_
  have named := opens.trans names
  refine (binderColon_simulated kind before _ frames _).goOn named fun colon types => ?_
  have typed := named.trans types
  have inside := shorter.readAlike (left.followedBy (name.followedBy colon))
  refine (inside _).goOn typed fun domain holds => ?_
  refine (closing_simulated holds rfl rfl).goOn typed fun right closes => ?_
  exact typed.trans closes

theorem binders_simulated (kind : BinderKind) (before : List Bound) (frames : List Frame)
    (starts : before = [] ∨ startsWith [.leftParen] tokens = true) :
    expressionReader.Simulates finish (beforeBinder kind before frames) tokens
      (fun taken => expressionReader.Passes (beforeBinder kind before frames) tokens
        (.bound kind (taken.value.reverse ++ before) frames) taken.rest ∧
          ¬startsWith [.leftParen] taken.rest = true)
      (binders finish tokens) := by
  induction size : tokens.length using Nat.strong_induction_on generalizing tokens before with
  | h length ih =>
      subst size
      rw [binders]
      refine (binder_simulated shorter kind before frames starts).bind fun first passes => ?_
      split
      · rename_i another
        have rest := ih first.rest.length first.shorter (shorter.behind first)
          (first.value :: before) (.inr another) rfl
        refine rest.goOn passes fun others goesOn => ?_
        refine ⟨?_, goesOn.2⟩
        -- The reader lists the innermost binder first.
        show expressionReader.Passes _ tokens
          (.bound kind ((first.value :: others.value).reverse ++ before) frames) others.rest
        rw [List.reverse_cons, List.append_assoc]
        exact passes.trans goesOn.1
      · rename_i last
        exact ⟨passes, last⟩

theorem abstraction_simulated (kind : BinderKind) (frames : List Frame) :
    expressionReader.Simulates finish (.firstBinder kind frames) tokens
      (Holds (.firstBinder kind frames) frames) (abstraction finish kind tokens) := by
  rw [abstraction]
  refine (binders_simulated shorter kind [] frames (.inl rfl)).bind fun bound reached => ?_
  obtain ⟨binds, last⟩ := reached
  rw [List.append_nil] at binds
  refine (bodyMark_simulated kind _ frames last).goOn binds fun mark marks => ?_
  have marked := binds.trans marks
  refine (shorter.readAlike (bound.followedBy mark) _).goOn marked fun body holds => ?_
  obtain ⟨term, start, inner, passes, settled, ends⟩ := holds
  refine ⟨term, start, inner, marked.trans passes, ?_, ends⟩
  rw [settled, settle, abstracted, List.foldl_reverse]
  rfl

theorem opened_simulated {kind : BinderKind} {frames : List Frame} {word : Taken Token tokens}
    (opens : expressionReader.Passes (.opening frames) tokens (.firstBinder kind frames)
      word.rest) :
    expressionReader.Simulates finish (.opening frames) tokens (Holds (.opening frames) frames)
      (do
        let whole ← abstraction finish kind word.rest
        return word.followedBy whole) := by
  refine (abstraction_simulated (shorter.behind word) kind frames).goOn opens
    fun whole holds => ?_
  obtain ⟨term, start, inner, passes, settled, ends⟩ := holds
  exact ⟨term, start, inner, opens.trans passes, settled, ends⟩

theorem operation_simulated (frames : List Frame)
    (plain : ∀ token ∈ tokens.head?, token.kind ≠ .funWord ∧ token.kind ≠ .forallWord) :
    expressionReader.Simulates finish (.opening frames) tokens (Holds (.opening frames) frames)
      (do
        let left ← application finish tokens
        match take? .arrow left.rest with
        | some mark => do
            let codomain ← expression finish mark.rest
            return (left.followedBy (mark.followedBy codomain)).as
              (.arrow left.value codomain.value (some (placeOf finish tokens)))
        | none => return left) := by
  refine (application_simulated shorter frames plain).bind fun left reached => ?_
  obtain ⟨applies, ends⟩ := reached
  cases found : take? .arrow left.rest with
  | some mark =>
      obtain ⟨_, split, isArrow⟩ := take?_eq_some found
      let place := placeOf finish tokens
      have points : expressionReader.Passes (.applied left.value place frames) left.rest
          (.opening (.codomain left.value place :: frames)) mark.rest :=
        Reader.passes_taken split (by simp [expressionReader, extend, isArrow])
      have pointed := applies.trans points
      refine (shorter.readAlike (left.followedBy mark) _).goOn pointed fun codomain holds => ?_
      obtain ⟨term, start, inner, passes, settled, ends⟩ := holds
      exact ⟨term, start, inner, pointed.trans passes, settled, ends⟩
  | none =>
      refine ⟨left.value, placeOf finish tokens, frames, applies, rfl, fun goesOn => ?_⟩
      obtain ⟨token, first, member⟩ := startsWith_iff.mp goesOn
      rcases List.mem_cons.mp member with isArrow | isOperand
      · exact take?_eq_none found first isArrow
      · exact not_mem_of_startsWith ends first isOperand

end Phrases

theorem readAlike (finish : Location) (tokens : List Token) : ReadAlike finish tokens := by
  induction size : tokens.length using Nat.strong_induction_on generalizing tokens with
  | h length ih =>
      subst size
      have shorter : ShorterAlike finish tokens := fun later less => ih later.length less later rfl
      intro frames
      rw [expression]
      cases lambda : take? .funWord tokens with
      | some word =>
          obtain ⟨_, split, isFun⟩ := take?_eq_some lambda
          exact opened_simulated shorter
            (Reader.passes_taken split (by simp [expressionReader, extend, isFun]))
      | none =>
          cases pi : take? .forallWord tokens with
          | some word =>
              obtain ⟨_, split, isForall⟩ := take?_eq_some pi
              exact opened_simulated shorter
                (Reader.passes_taken split (by simp [expressionReader, extend, isForall]))
          | none =>
              refine operation_simulated shorter frames fun token first => ?_
              exact ⟨take?_eq_none lambda first, take?_eq_none pi first⟩

theorem Holds.ends {taken : Taken Term tokens} (holds : Holds state [] taken) :
    ∃ last, expressionReader.Passes state tokens last taken.rest ∧
      last.status = .ok taken.value ∧ ∀ token ∈ taken.rest.head?, last.extend token = none := by
  obtain ⟨term, start, inner, passes, settled, ends⟩ := holds
  refine ⟨_, passes, ?_, fun token first => ?_⟩
  · rw [status, settled]
    rfl
  · by_cases isRight : token.kind = .rightParen
    · simp only [extend, isRight, settled]
      rfl
    · exact extend_applied_eq_none (not_mem_of_startsWith ends first) isRight

/-- A text is read as an expression by the reader and by the descent alike. -/
theorem readExpression_eq (tokens : Tokens) :
    TypeInType.readExpression tokens = readExpression tokens := by
  refine (readAlike tokens.finish tokens.items []).readFrom_eq fun whole holds => ?_
  obtain ⟨last, passes, ended, stuck⟩ := holds.ends
  rw [passes.readFrom_eq tokens.finish]
  cases behind : whole.rest with
  | nil =>
      simp only [Reader.readFrom, expressionReader, ended]
      rfl
  | cons token rest =>
      rw [behind] at stuck
      simp only [Reader.readFrom, expressionReader, stuck token rfl, ended]
      rfl

end Descent

end TypeInType
