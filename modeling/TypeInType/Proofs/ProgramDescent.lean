import TypeInType.Proofs.ExpressionDescent

/-!
The reader of programs reads as the recursive descent does. Inside a slot it goes on as the
reader of expressions, so what is known of expressions carries over. A declaration brings it
back to where the next step may come; behind an expression it may end but takes no token.
-/

namespace TypeInType

open Reader

namespace Descent

variable {finish : Location} {state next : ProgramState} {tokens : List Token}

theorem refuses_inside {inner : ExpressionState} {diagnosis : Diagnosis}
    (refuses : expressionReader.Refuses finish inner tokens diagnosis) (slot : Slot)
    (steps : List Step) :
    programReader.Refuses finish (.inside slot inner steps) tokens diagnosis := by
  obtain ⟨last, rest, expectation, passes, misses, told⟩ := refuses
  have missing : last.status = .error expectation := misses.missing
  have status : (ProgramState.inside slot last steps).status = .error expectation := by
    simp only [ProgramState.status, missing]
  refine ⟨_, rest, expectation, passes_inside passes slot steps, ⟨status, ?_, ?_⟩, told⟩
  · simp only [programReader, ProgramState.wanted, status]
  · intro token first
    have stuck : last.extend token = none := misses.stuck token first
    simp only [programReader, ProgramState.extend, stuck, missing]

theorem slot_simulated (slot : Slot) (steps : List Step) (tokens : List Token) :
    programReader.Simulates finish (.inside slot (.opening []) steps) tokens
      (fun taken : Taken Term tokens => ∃ last,
        programReader.Passes (.inside slot (.opening []) steps) tokens (.inside slot last steps)
          taken.rest ∧ last.status = .ok taken.value ∧
            ∀ token ∈ taken.rest.head?, last.extend token = none)
      (expression finish tokens) := by
  have alike := readAlike finish tokens []
  cases outcome : expression finish tokens with
  | ok taken =>
      rw [outcome] at alike
      obtain ⟨last, passes, ended, stuck⟩ := alike.ends
      exact ⟨last, passes_inside passes slot steps, ended, stuck⟩
  | error diagnosis =>
      rw [outcome] at alike
      exact refuses_inside alike slot steps

/-! ## Declarations -/

theorem declaredName_simulated (declaration : Declaration) (place : Location)
    (steps : List Step) :
    programReader.Simulates finish (.declaredName declaration place steps) tokens
      (fun name => programReader.Passes (.declaredName declaration place steps) tokens
        (.declaredMark declaration name.value.text place steps) name.rest)
      (expect finish .name tokens) := by
  refine expect_simulated
    (fun token => ProgramState.declaredMark declaration token.text place steps) ?_ ?_
  · intro token _ isName
    exact if_pos isName
  · intro notName
    exact ⟨rfl, rfl, fun token first => if_neg (notName token first)⟩

theorem declaredMark_simulated (declaration : Declaration) (name : String) (place : Location)
    (steps : List Step) :
    programReader.Simulates finish (.declaredMark declaration name place steps) tokens
      (fun mark => programReader.Passes (.declaredMark declaration name place steps) tokens
        (.inside (declaration.slot name place) (.opening []) steps) mark.rest)
      (expect finish declaration.mark tokens) := by
  refine expect_simulated
    (fun _ => ProgramState.inside (declaration.slot name place) (.opening []) steps) ?_ ?_
  · intro token _ isMark
    exact if_pos isMark
  · intro notMark
    exact ⟨rfl, rfl, fun token first => if_neg (notMark token first)⟩

theorem endedBy_simulated {slot : Slot} (inner : ∀ place, slot ≠ .last place)
    (steps : List Step) (tokens : List Token) :
    programReader.Simulates finish (.inside slot (.opening []) steps) tokens
      (fun taken : Taken Term tokens =>
        programReader.Passes (.inside slot (.opening []) steps) tokens
          (slot.fill taken.value steps) taken.rest)
      (endedBy finish slot.terminator tokens) := by
  rw [endedBy]
  refine (slot_simulated slot steps tokens).bind fun inside reached => ?_
  obtain ⟨last, passes, ended, stuck⟩ := reached
  have missing : (ProgramState.inside slot last steps).status =
      .error (.exactly slot.terminator) := by
    cases slot with
    | last place => exact absurd rfl (inner place)
    | _ => simp only [ProgramState.status, ended]
  refine (expect_simulated (fun _ => slot.fill inside.value steps) ?_ ?_).goOn passes
    fun mark marks => passes.trans marks
  · intro token first isMark
    simp only [programReader, ProgramState.extend, stuck token first, ended, isMark, if_true]
  · intro notMark
    refine ⟨missing, ?_, fun token first => ?_⟩
    · simp only [programReader, ProgramState.wanted, missing]
    · simp only [programReader, ProgramState.extend, stuck token first, ended,
        notMark token first, if_false]

section Declared

variable {word : Taken Token tokens} {before : List Step} {place : Location}

theorem definition_simulated
    (opens : programReader.Passes state tokens (.declaredName .definition place before)
      word.rest) :
    programReader.Simulates finish state tokens
      (fun taken : Taken Step tokens => taken.value.isDeclaration = true ∧
        programReader.Passes state tokens (.between (taken.value :: before)) taken.rest)
      (do
        let name ← expect finish .name word.rest
        let sign ← expect finish .assign name.rest
        let value ← endedBy finish .semicolon sign.rest
        return (word.followedBy (name.followedBy (sign.followedBy value))).as
          (.define name.value.text value.value (some place))) := by
  refine (declaredName_simulated .definition place before).goOn opens fun name names => ?_
  have named := opens.trans names
  refine (declaredMark_simulated .definition _ place before).goOn named fun sign signs => ?_
  have signed := named.trans signs
  have inner : ∀ last, Slot.value name.value.text place ≠ .last last := by simp
  refine (endedBy_simulated inner before sign.rest).goOn signed fun value ends => ?_
  exact ⟨rfl, signed.trans ends⟩

theorem claim_simulated
    (opens : programReader.Passes state tokens (.declaredName .claim place before) word.rest) :
    programReader.Simulates finish state tokens
      (fun taken : Taken Step tokens => taken.value.isDeclaration = true ∧
        programReader.Passes state tokens (.between (taken.value :: before)) taken.rest)
      (do
        let name ← expect finish .name word.rest
        let colon ← expect finish .colon name.rest
        let statement ← endedBy finish .define colon.rest
        let proof ← endedBy finish .semicolon statement.rest
        return (word.followedBy
            (name.followedBy (colon.followedBy (statement.followedBy proof)))).as
          (.prove ⟨name.value.text, statement.value, proof.value⟩ (some place))) := by
  refine (declaredName_simulated .claim place before).goOn opens fun name names => ?_
  have named := opens.trans names
  refine (declaredMark_simulated .claim _ place before).goOn named fun colon colons => ?_
  have typed := named.trans colons
  have innerStatement : ∀ last, Slot.statement name.value.text place ≠ .last last := by simp
  refine (endedBy_simulated innerStatement before colon.rest).goOn typed
    fun statement states => ?_
  have stated := typed.trans states
  have innerProof : ∀ last, Slot.proof name.value.text statement.value place ≠ .last last := by
    simp
  refine (endedBy_simulated innerProof before statement.rest).goOn stated fun proof ends => ?_
  exact ⟨rfl, stated.trans ends⟩

end Declared

/-! ## Steps -/

def readBehind (finish : Location) (before : List Step) (taken : Taken Step tokens) :
    Except Diagnosis Program :=
  if taken.value.isDeclaration = false ∧ taken.rest ≠ [] then
    .error (refuse finish .noFurtherStep taken.rest)
  else programReader.readFrom finish (.between (taken.value :: before)) taken.rest

theorem readFrom_declaration {before : List Step} {taken : Taken Step tokens}
    (declares : taken.value.isDeclaration = true)
    (passes : programReader.Passes (.between before) tokens (.between (taken.value :: before))
      taken.rest) :
    programReader.readFrom finish (.between before) tokens = readBehind finish before taken := by
  rw [readBehind, if_neg (by simp [declares]), passes.readFrom_eq finish]

theorem readFrom_ended {before : List Step} {taken : Taken Step tokens}
    (expresses : taken.value.isDeclaration = false)
    (ended : next.status = .ok (before.reverse ++ [taken.value]))
    (wanted : next.wanted = .noFurtherStep)
    (stuck : ∀ token ∈ taken.rest.head?, next.extend token = none) :
    programReader.readFrom finish next taken.rest = readBehind finish before taken := by
  rw [readBehind]
  cases behind : taken.rest with
  | nil =>
      rw [if_neg fun further => further.2 rfl]
      simp only [readFrom, programReader, ended]
      simp only [ProgramState.status, List.reverse_cons]
  | cons token rest =>
      rw [behind] at stuck
      rw [if_pos ⟨expresses, List.cons_ne_nil _ _⟩]
      simp only [readFrom, programReader, stuck token rfl, wanted]
      rfl

theorem readFrom_between (finish : Location) {token : Token} (noLet : token.kind ≠ .letWord)
    (noTheorem : token.kind ≠ .theoremWord) (rest : List Token) (steps : List Step) :
    programReader.readFrom finish (.between steps) (token :: rest) =
      programReader.readFrom finish (.inside (.last token.place) (.opening []) steps)
        (token :: rest) := by
  simp only [readFrom, programReader, ProgramState.extend]
  cases (ExpressionState.opening []).extend token <;> rfl

theorem readFrom_last (finish : Location) (before : List Step) (place : Location)
    (tokens : List Token) :
    programReader.readFrom finish (.inside (.last place) (.opening []) before) tokens =
      expression finish tokens >>= fun value =>
        readBehind finish before
          ((passOver .semicolon value).as (.express value.value (some place))) := by
  refine (slot_simulated (.last place) before tokens).readFrom_eq fun value reached => ?_
  obtain ⟨last, passes, ended, stuck⟩ := reached
  rw [passes.readFrom_eq finish, passOver]
  cases found : take? .semicolon value.rest with
  | some mark =>
      obtain ⟨first, split, isMark⟩ := take?_eq_some found
      have ends : programReader.Passes (.inside (.last place) last before) value.rest
          (.ended (.express value.value place :: before)) mark.rest :=
        passes_taken split (by simp [programReader, ProgramState.extend, stuck mark.value first,
          ended, isMark, Slot.terminator, Slot.fill])
      rw [ends.readFrom_eq finish]
      let whole : Taken Step tokens :=
        (value.followedBy mark).as (.express value.value (some place))
      have status : (ProgramState.ended (whole.value :: before)).status =
          .ok (before.reverse ++ [whole.value]) := by
        rw [ProgramState.status, List.reverse_cons]
      show _ = readBehind finish before whole
      exact readFrom_ended rfl status rfl fun _ _ => rfl
  | none =>
      let whole : Taken Step tokens := value.as (.express value.value (some place))
      have status : (ProgramState.inside (.last place) last before).status =
          .ok (before.reverse ++ [whole.value]) := by
        simp only [ProgramState.status, ended]
        rfl
      show _ = readBehind finish before whole
      refine readFrom_ended rfl status ?_ fun token first => ?_
      · simp only [ProgramState.wanted, status]
      · have noMark : token.kind ≠ (Slot.last place).terminator := take?_eq_none found first
        simp only [ProgramState.extend, stuck token first, ended, noMark, if_false]

theorem readFrom_step (finish : Location) (before : List Step) (token : Token)
    (rest : List Token) :
    programReader.readFrom finish (.between before) (token :: rest) =
      step finish (token :: rest) >>= readBehind finish before := by
  rw [step]
  cases isLet : take? .letWord (token :: rest) with
  | some word =>
      obtain ⟨first, split, same⟩ := take?_eq_some isLet
      have opens : programReader.Passes (.between before) (token :: rest)
          (.declaredName .definition (placeOf finish (token :: rest)) before) word.rest :=
        passes_taken split (by simp [programReader, ProgramState.extend, same, placeOf_eq first])
      exact (definition_simulated opens).readFrom_eq fun taken ends =>
        readFrom_declaration ends.1 ends.2
  | none =>
      cases isTheorem : take? .theoremWord (token :: rest) with
      | some word =>
          obtain ⟨first, split, same⟩ := take?_eq_some isTheorem
          have opens : programReader.Passes (.between before) (token :: rest)
              (.declaredName .claim (placeOf finish (token :: rest)) before) word.rest :=
            passes_taken split
              (by simp [programReader, ProgramState.extend, same, placeOf_eq first])
          exact (claim_simulated opens).readFrom_eq fun taken ends =>
            readFrom_declaration ends.1 ends.2
      | none =>
          have noLet := take?_eq_none isLet rfl
          have noTheorem := take?_eq_none isTheorem rfl
          rw [readFrom_between finish noLet noTheorem, readFrom_last]
          cases expression finish (token :: rest) <;> rfl

theorem readFrom_program (finish : Location) (before : List Step) (tokens : List Token) :
    programReader.readFrom finish (.between before) tokens =
      (program finish tokens).map (before.reverse ++ ·) := by
  induction size : tokens.length using Nat.strong_induction_on generalizing tokens before with
  | h length ih =>
      subst size
      cases tokens with
      | nil =>
          rw [program]
          simp [readFrom, programReader, ProgramState.status, Except.map]
      | cons token rest =>
          rw [readFrom_step, program]
          cases step finish (token :: rest) with
          | error diagnosis => rfl
          | ok first =>
              simp only [bind, Except.bind, readBehind]
              split
              · rfl
              · rw [ih first.rest.length first.shorter _ _ rfl]
                cases program finish first.rest with
                | error diagnosis => rfl
                | ok others => simp [Except.map, pure, Except.pure]

/-- A text is read as a program by the reader and by the descent alike. -/
theorem readProgram_eq (tokens : Tokens) :
    TypeInType.readProgram tokens = readProgram tokens := by
  refine (readFrom_program tokens.finish [] tokens.items).trans ?_
  rw [readProgram]
  cases program tokens.finish tokens.items <;> rfl

end Descent

end TypeInType
