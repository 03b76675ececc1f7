import TypeInType.Proofs.Growth

/-!
The reader of programs, keeping trees. An expression that stands last is told apart from one
in a declaration: its step takes its place from the first token, which is kept for that.
-/

namespace TypeInType

inductive Opened where
  | value (word name sign : Leaf)
  | statement (word name colon : Leaf)
  | proof (word name colon : Leaf) (statement : Tree .expression) (sign : Leaf)

def Declaration.opened (declaration : Declaration) (word name sign : Leaf) : Opened :=
  match declaration with
  | .definition => .value word name sign
  | .claim => .statement word name sign

inductive ProgramGrowth where
  | between (before : List DeclarationTree)
  | declaredName (declaration : Declaration) (word : Leaf) (before : List DeclarationTree)
  | declaredMark (declaration : Declaration) (word name : Leaf) (before : List DeclarationTree)
  | inside (opened : Opened) (growth : Growth) (before : List DeclarationTree)
  | last (first : Token) (growth : Growth) (begins : growth.tokens.head? = some first)
      (before : List DeclarationTree)
  | ended (value : Tree .expression) (semicolon : Leaf) (before : List DeclarationTree)

def Opened.fill (opened : Opened) (tree : Tree .expression) (mark : Leaf)
    (before : List DeclarationTree) : ProgramGrowth :=
  match opened with
  | .value word name sign => .between (before ++ [.definition word name sign tree mark])
  | .statement word name colon =>
      .inside (.proof word name colon tree mark) (.opening []) before
  | .proof word name colon goal sign =>
      .between (before ++ [.claim word name colon goal sign tree mark])

def Opened.slot : Opened → Slot
  | .value word name _ => .value name.text word.place
  | .statement word name _ => .statement name.text word.place
  | .proof word name _ goal _ => .proof name.text goal.meaning word.place

theorem Growth.begins_extend {growth next : Growth} {token first : Token}
    (begins : growth.tokens.head? = some first) (taken : growth.extend token = some next) :
    next.tokens.head? = some first := by
  rw [tokens_extend taken, List.head?_append, begins]
  rfl

theorem Growth.begins_opening {next : Growth} {token : Token}
    (taken : (Growth.opening []).extend token = some next) : next.tokens.head? = some token := by
  rw [tokens_extend taken]
  rfl

namespace ProgramGrowth

def extend (growth : ProgramGrowth) (token : Token) : Option ProgramGrowth :=
  match growth with
  | .between before =>
      match token.kind with
      | .letWord => some (.declaredName .definition token.leaf before)
      | .theoremWord => some (.declaredName .claim token.leaf before)
      | _ =>
          match taken : (Growth.opening []).extend token with
          | some next => some (.last token next (Growth.begins_opening taken) before)
          | none => none
  | .declaredName declaration word before =>
      if token.kind = .name then some (.declaredMark declaration word token.leaf before) else none
  | .declaredMark declaration word name before =>
      if token.kind = declaration.mark then
        some (.inside (declaration.opened word name token.leaf) (.opening []) before)
      else none
  | .inside opened growth before =>
      match growth.extend token with
      | some next => some (.inside opened next before)
      | none =>
          match growth.tree? with
          | some tree =>
              if token.kind = opened.slot.terminator then some (opened.fill tree token.leaf before)
              else none
          | none => none
  | .last first growth begins before =>
      match taken : growth.extend token with
      | some next => some (.last first next (Growth.begins_extend begins taken) before)
      | none =>
          match growth.tree? with
          | some tree => if token.kind = .semicolon then some (.ended tree token.leaf before) else none
          | none => none
  | .ended _ _ _ => none

def tree? : ProgramGrowth → Option ProgramTree
  | .between before => some ⟨before, none⟩
  | .last _ growth _ before => growth.tree?.map fun tree => ⟨before, some ⟨tree, none⟩⟩
  | .ended value semicolon before => some ⟨before, some ⟨value, some semicolon⟩⟩
  | _ => none

end ProgramGrowth

/-! ## What the reader of programs keeps of it -/

def stepsBefore (before : List DeclarationTree) : List Step :=
  (before.map DeclarationTree.meaning).reverse

theorem stepsBefore_concat (before : List DeclarationTree) (declaration : DeclarationTree) :
    stepsBefore (before ++ [declaration]) = declaration.meaning :: stepsBefore before := by
  simp [stepsBefore]

def ProgramGrowth.state : ProgramGrowth → ProgramState
  | .between before => .between (stepsBefore before)
  | .declaredName declaration word before =>
      .declaredName declaration word.place (stepsBefore before)
  | .declaredMark declaration word name before =>
      .declaredMark declaration name.text word.place (stepsBefore before)
  | .inside opened growth before => .inside opened.slot growth.state (stepsBefore before)
  | .last first growth _ before =>
      .inside (.last first.place) growth.state (stepsBefore before)
  | .ended value _ before =>
      .ended (.express value.meaning (some value.start) :: stepsBefore before)

theorem state_fill (opened : Opened) (tree : Tree .expression) (mark : Leaf)
    (before : List DeclarationTree) :
    (opened.fill tree mark before).state =
      opened.slot.fill tree.meaning (stepsBefore before) := by
  cases opened with
  | value word name sign =>
      rw [Opened.fill, ProgramGrowth.state, stepsBefore_concat]
      rfl
  | statement word name colon => rfl
  | proof word name colon goal sign =>
      rw [Opened.fill, ProgramGrowth.state, stepsBefore_concat]
      rfl

theorem slot_opened (declaration : Declaration) (word name sign : Leaf) :
    (declaration.opened word name sign).slot = declaration.slot name.text word.place := by
  cases declaration <;> rfl

theorem start_of_begins {growth : Growth} {first : Token} {tree : Tree .expression}
    (begins : growth.tokens.head? = some first) (whole : growth.tree? = some tree) :
    tree.start = first.place := by
  obtain ⟨token, rest, spelled, starts⟩ := tree.exists_first
  rw [← tokens_of_tree? whole, spelled] at begins
  obtain rfl := Option.some.inj begins
  exact starts.symm

theorem status_eq (growth : Growth) :
    (∃ tree, growth.tree? = some tree ∧ growth.state.status = .ok tree.meaning) ∨
      (growth.tree? = none ∧ ∃ expectation, growth.state.status = .error expectation) := by
  cases whole : growth.tree? with
  | some tree => exact .inl ⟨tree, rfl, (status_state growth _).mpr ⟨tree, whole, rfl⟩⟩
  | none =>
      refine .inr ⟨rfl, ?_⟩
      cases status : growth.state.status with
      | error expectation => exact ⟨expectation, rfl⟩
      | ok term =>
          obtain ⟨tree, wholeToo, _⟩ := (status_state growth term).mp status
          rw [whole] at wholeToo
          cases wholeToo

section Last

variable {growth : Growth} {first token : Token} {before : List DeclarationTree}

theorem extend_last {next : Growth} (begins : growth.tokens.head? = some first)
    (taken : growth.extend token = some next) :
    (ProgramGrowth.last first growth begins before).extend token =
      some (.last first next (Growth.begins_extend begins taken) before) := by
  simp only [ProgramGrowth.extend]
  -- What is taken stands in the result's proof, so it cannot be rewritten before the split.
  split
  · rename_i other takenToo
    rw [taken] at takenToo
    obtain rfl := Option.some.inj takenToo
    rfl
  · rename_i notTaken
    rw [taken] at notTaken
    cases notTaken

theorem extend_last_none (begins : growth.tokens.head? = some first)
    (notTaken : growth.extend token = none) :
    (ProgramGrowth.last first growth begins before).extend token =
      match growth.tree? with
      | some tree => if token.kind = .semicolon then some (.ended tree token.leaf before) else none
      | none => none := by
  simp only [ProgramGrowth.extend]
  split
  · rename_i next taken
    rw [notTaken] at taken
    cases taken
  · rfl

end Last

theorem state_programExtend (growth : ProgramGrowth) (token : Token) :
    growth.state.extend token = (growth.extend token).map ProgramGrowth.state := by
  cases growth with
  | between before =>
      have begun := state_extend (.opening []) token
      cases token with
      | mk kind text place =>
          cases kind with
          | letWord => rfl
          | theoremWord => rfl
          | _ =>
              -- No keyword of a declaration: this would be the first token of the last step.
              simp only [ProgramGrowth.state, ProgramState.extend, ProgramGrowth.extend]
              rw [Growth.state, List.map_nil] at begun
              rw [begun]
              split <;> simp_all [ProgramGrowth.state]
  | declaredName declaration word before =>
      simp only [ProgramGrowth.state, ProgramState.extend, ProgramGrowth.extend]
      split <;> rfl
  | declaredMark declaration word name before =>
      simp only [ProgramGrowth.state, ProgramState.extend, ProgramGrowth.extend]
      split
      · rw [Option.map_some, ProgramGrowth.state, slot_opened]
        rfl
      · rfl
  | inside opened growth before =>
      simp only [ProgramGrowth.state, ProgramState.extend, ProgramGrowth.extend,
        state_extend growth token]
      cases growth.extend token with
      | some next => rfl
      | none =>
          -- The expression cannot go on, so the token has to end the slot it stands in.
          rcases status_eq growth with ⟨tree, whole, status⟩ | ⟨notWhole, expectation, status⟩
          · simp only [Option.map_none, whole, status]
            split
            · rw [Option.map_some, state_fill]
            · rfl
          · simp only [Option.map_none, notWhole, status]
  | last first growth begins before =>
      simp only [ProgramGrowth.state, ProgramState.extend, state_extend growth token]
      cases taken : growth.extend token with
      | some next =>
          rw [extend_last begins taken]
          rfl
      | none =>
          rw [extend_last_none begins taken]
          rcases status_eq growth with ⟨tree, whole, status⟩ | ⟨notWhole, expectation, status⟩
          · simp only [Option.map_none, whole, status]
            by_cases isSemicolon : token.kind = .semicolon
            · simp [isSemicolon, ProgramGrowth.state, Slot.fill, start_of_begins begins whole,
                Slot.terminator]
            · rw [if_neg isSemicolon]
              exact if_neg isSemicolon
          · simp only [Option.map_none, notWhole, status]
  | ended value semicolon before => rfl

/-- The reader of programs may end where a tree is whole, and gives what it stands for. -/
theorem status_programState (growth : ProgramGrowth) (program : Program) :
    growth.state.status = .ok program ↔
      ∃ tree, growth.tree? = some tree ∧ tree.meaning = program := by
  cases growth with
  | between before =>
      simp [ProgramGrowth.state, ProgramState.status, ProgramGrowth.tree?, ProgramTree.meaning,
        stepsBefore]
  | declaredName => simp [ProgramGrowth.state, ProgramState.status, ProgramGrowth.tree?]
  | declaredMark => simp [ProgramGrowth.state, ProgramState.status, ProgramGrowth.tree?]
  | inside opened growth before =>
      simp only [ProgramGrowth.state, ProgramState.status, ProgramGrowth.tree?]
      rcases status_eq growth with ⟨tree, whole, status⟩ | ⟨notWhole, expectation, status⟩
      · cases opened <;> simp [status, Opened.slot]
      · simp [status]
  | last first growth begins before =>
      simp only [ProgramGrowth.state, ProgramState.status, ProgramGrowth.tree?]
      rcases status_eq growth with ⟨tree, whole, status⟩ | ⟨notWhole, expectation, status⟩
      · simp [status, whole, ProgramTree.meaning, ExpressionTree.meaning, stepsBefore,
          start_of_begins begins whole]
      · simp [status, notWhole]
  | ended value semicolon before =>
      simp [ProgramGrowth.state, ProgramState.status, ProgramGrowth.tree?, ProgramTree.meaning,
        ExpressionTree.meaning, stepsBefore]

/-! ## Nothing is lost -/

def Opened.tokens : Opened → List Token
  | .value word name sign => [word.as .letWord, name.as .name, sign.as .assign]
  | .statement word name colon => [word.as .theoremWord, name.as .name, colon.as .colon]
  | .proof word name colon goal sign =>
      word.as .theoremWord :: name.as .name :: colon.as .colon :: (goal.tokens ++ [sign.as .define])

def Declaration.word : Declaration → TokenKind
  | .definition => .letWord
  | .claim => .theoremWord

def ProgramGrowth.tokens : ProgramGrowth → List Token
  | .between before => before.flatMap DeclarationTree.tokens
  | .declaredName declaration word before =>
      before.flatMap DeclarationTree.tokens ++ [word.as declaration.word]
  | .declaredMark declaration word name before =>
      before.flatMap DeclarationTree.tokens ++ [word.as declaration.word, name.as .name]
  | .inside opened growth before =>
      before.flatMap DeclarationTree.tokens ++ (opened.tokens ++ growth.tokens)
  | .last _ growth _ before => before.flatMap DeclarationTree.tokens ++ growth.tokens
  | .ended value semicolon before =>
      before.flatMap DeclarationTree.tokens ++ (value.tokens ++ [semicolon.as .semicolon])

theorem tokens_fill (opened : Opened) (tree : Tree .expression) (mark : Leaf)
    (before : List DeclarationTree) :
    (opened.fill tree mark before).tokens = before.flatMap DeclarationTree.tokens ++
      (opened.tokens ++ (tree.tokens ++ [mark.as opened.slot.terminator])) := by
  cases opened with
  | value word name sign =>
      simp [Opened.fill, ProgramGrowth.tokens, DeclarationTree.tokens, Opened.tokens, Opened.slot,
        Slot.terminator]
  | statement word name colon =>
      simp [Opened.fill, ProgramGrowth.tokens, Growth.tokens, tokensBelow, Opened.tokens,
        Opened.slot, Slot.terminator]
  | proof word name colon goal sign =>
      simp [Opened.fill, ProgramGrowth.tokens, DeclarationTree.tokens, Opened.tokens, Opened.slot,
        Slot.terminator]

theorem tokens_opened (declaration : Declaration) (word name sign : Leaf) :
    (declaration.opened word name sign).tokens =
      [word.as declaration.word, name.as .name, sign.as declaration.mark] := by
  cases declaration <;> rfl

theorem tokens_programExtend {growth next : ProgramGrowth} {token : Token}
    (taken : growth.extend token = some next) : next.tokens = growth.tokens ++ [token] := by
  cases growth with
  | between before =>
      simp only [ProgramGrowth.extend] at taken
      split at taken
      · rename_i isLet
        obtain rfl := Option.some.inj taken
        simp [ProgramGrowth.tokens, Declaration.word, Token.leaf_as isLet]
      · rename_i isTheorem
        obtain rfl := Option.some.inj taken
        simp [ProgramGrowth.tokens, Declaration.word, Token.leaf_as isTheorem]
      · split at taken
        · rename_i inside begun
          obtain rfl := Option.some.inj taken
          have spelled : inside.tokens = [token] := tokens_extend begun
          simp [ProgramGrowth.tokens, spelled]
        · cases taken
  | declaredName declaration word before =>
      simp only [ProgramGrowth.extend, Option.ite_none_right_eq_some, Option.some.injEq] at taken
      obtain ⟨isName, rfl⟩ := taken
      simp [ProgramGrowth.tokens, Token.leaf_as isName]
  | declaredMark declaration word name before =>
      simp only [ProgramGrowth.extend, Option.ite_none_right_eq_some, Option.some.injEq] at taken
      obtain ⟨isMark, rfl⟩ := taken
      simp [ProgramGrowth.tokens, tokens_opened, Growth.tokens, tokensBelow, Token.leaf_as isMark]
  | inside opened growth before =>
      simp only [ProgramGrowth.extend] at taken
      split at taken
      · rename_i further extended
        obtain rfl := Option.some.inj taken
        simp [ProgramGrowth.tokens, tokens_extend extended]
      · split at taken
        · rename_i tree whole
          rw [Option.ite_none_right_eq_some, Option.some.injEq] at taken
          obtain ⟨isMark, rfl⟩ := taken
          rw [tokens_fill, tokens_of_tree? whole, Token.leaf_as isMark]
          simp [ProgramGrowth.tokens]
        · cases taken
  | last first growth begins before =>
      simp only [ProgramGrowth.extend] at taken
      split at taken
      · rename_i further extended
        obtain rfl := Option.some.inj taken
        simp [ProgramGrowth.tokens, tokens_extend extended]
      · split at taken
        · rename_i tree whole
          rw [Option.ite_none_right_eq_some, Option.some.injEq] at taken
          obtain ⟨isSemicolon, rfl⟩ := taken
          simp [ProgramGrowth.tokens, Token.leaf_as isSemicolon, tokens_of_tree? whole]
        · cases taken
  | ended value semicolon before => cases taken

theorem tokens_of_programTree? {growth : ProgramGrowth} {tree : ProgramTree}
    (whole : growth.tree? = some tree) : tree.tokens = growth.tokens := by
  cases growth with
  | between before =>
      obtain rfl := Option.some.inj whole
      exact List.append_nil _
  | last first growth begins before =>
      rw [ProgramGrowth.tree?, Option.map_eq_some_iff] at whole
      obtain ⟨value, wholeValue, rfl⟩ := whole
      simp [ProgramTree.tokens, ExpressionTree.tokens, ProgramGrowth.tokens,
        tokens_of_tree? wholeValue]
  | ended value semicolon before =>
      obtain rfl := Option.some.inj whole
      simp [ProgramTree.tokens, ExpressionTree.tokens, ProgramGrowth.tokens]
  | _ => cases whole

/-! ## Every program grows from its tokens -/

theorem grow_expression (tree : Tree .expression) :
    ∃ growth, grow Growth.extend (.opening []) tree.tokens = some growth ∧
      growth.tree? = some tree := by
  obtain ⟨application, inner, grown, ripened⟩ := tree.growsThrough []
  refine ⟨_, grown, ?_⟩
  rw [Growth.tree?, ripened]
  rfl

theorem extend_mark {growth : Growth} {tree : Tree .expression} (whole : growth.tree? = some tree)
    (slot : Slot) (mark : Leaf) : growth.extend (mark.as slot.terminator) = none := by
  cases growth with
  | applied application stems => cases slot <;> rfl
  | _ => cases whole

theorem grow_inside {growth next : Growth} {tokens : List Token}
    (grown : grow Growth.extend growth tokens = some next) (opened : Opened)
    (before : List DeclarationTree) :
    grow ProgramGrowth.extend (.inside opened growth before) tokens =
      some (.inside opened next before) := by
  induction tokens generalizing growth with
  | nil =>
      obtain rfl := Option.some.inj grown
      rfl
  | cons token rest ih =>
      rw [grow, List.foldlM_cons, Option.bind_eq_bind, Option.bind_eq_some_iff] at grown
      obtain ⟨middle, extended, grown⟩ := grown
      have taken : (ProgramGrowth.inside opened growth before).extend token =
          some (.inside opened middle before) := by
        simp [ProgramGrowth.extend, extended]
      rw [grow_cons taken, ih grown]

theorem grow_last {growth next : Growth} {first : Token}
    (begins : growth.tokens.head? = some first) {tokens : List Token}
    (grown : grow Growth.extend growth tokens = some next) (before : List DeclarationTree) :
    ∃ beginsToo, grow ProgramGrowth.extend (.last first growth begins before) tokens =
      some (.last first next beginsToo before) := by
  induction tokens generalizing growth with
  | nil =>
      obtain rfl := Option.some.inj grown
      exact ⟨begins, rfl⟩
  | cons token rest ih =>
      rw [grow, List.foldlM_cons, Option.bind_eq_bind, Option.bind_eq_some_iff] at grown
      obtain ⟨middle, extended, grown⟩ := grown
      rw [grow_cons (extend_last begins extended)]
      exact ih _ grown

theorem grow_filled (opened : Opened) (tree : Tree .expression) (mark : Leaf)
    (before : List DeclarationTree) (rest : List Token) :
    grow ProgramGrowth.extend (.inside opened (.opening []) before)
        (tree.tokens ++ mark.as opened.slot.terminator :: rest) =
      grow ProgramGrowth.extend (opened.fill tree mark before) rest := by
  obtain ⟨growth, grown, whole⟩ := grow_expression tree
  have fills : (ProgramGrowth.inside opened growth before).extend
      (mark.as opened.slot.terminator) = some (opened.fill tree mark before) := by
    simp only [ProgramGrowth.extend, extend_mark whole, whole]
    exact if_pos rfl
  rw [grow_append (grow_inside grown opened before), grow_cons fills]

theorem grow_declaration (declaration : DeclarationTree) (before : List DeclarationTree)
    (rest : List Token) :
    grow ProgramGrowth.extend (.between before) (declaration.tokens ++ rest) =
      grow ProgramGrowth.extend (.between (before ++ [declaration])) rest := by
  cases declaration with
  | definition word name sign value semicolon =>
      rw [DeclarationTree.tokens, List.cons_append, List.cons_append, List.cons_append,
        List.append_assoc, List.singleton_append]
      exact grow_filled (.value word name sign) value semicolon before rest
  | claim word name colon statement sign proof semicolon =>
      rw [DeclarationTree.tokens, List.cons_append, List.cons_append, List.cons_append,
        List.append_assoc, List.cons_append, List.append_assoc, List.singleton_append]
      -- Two slots in a row: the statement is filled in, and then the proof.
      exact (grow_filled (.statement word name colon) statement sign before _).trans
        (grow_filled (.proof word name colon statement sign) proof semicolon before rest)

theorem grow_declarations (declarations before : List DeclarationTree) (rest : List Token) :
    grow ProgramGrowth.extend (.between before)
        (declarations.flatMap DeclarationTree.tokens ++ rest) =
      grow ProgramGrowth.extend (.between (before ++ declarations)) rest := by
  induction declarations generalizing before with
  | nil => rw [List.flatMap_nil, List.nil_append, List.append_nil]
  | cons declaration declarations ih =>
      rw [List.flatMap_cons, List.append_assoc, grow_declaration, ih, List.append_assoc,
        List.singleton_append]

theorem extend_between_expression {token : Token} {next : Growth}
    (taken : (Growth.opening []).extend token = some next) (before : List DeclarationTree) :
    (ProgramGrowth.between before).extend token =
      some (.last token next (Growth.begins_opening taken) before) := by
  simp only [ProgramGrowth.extend]
  split
  · rename_i isLet
    simp [Growth.extend, Growth.operand, isLet] at taken
  · rename_i isTheorem
    simp [Growth.extend, Growth.operand, isTheorem] at taken
  · split
    · rename_i other takenToo
      rw [taken] at takenToo
      obtain rfl := Option.some.inj takenToo
      rfl
    · rename_i notTaken
      rw [taken] at notTaken
      cases notTaken

theorem grow_lastExpression (last : ExpressionTree) (before : List DeclarationTree) :
    ∃ growth, grow ProgramGrowth.extend (.between before) last.tokens = some growth ∧
      growth.tree? = some ⟨before, some last⟩ := by
  obtain ⟨value, semicolon⟩ := last
  obtain ⟨growth, grown, whole⟩ := grow_expression value
  obtain ⟨first, rest, spelled, _⟩ := value.exists_first
  rw [spelled, grow, List.foldlM_cons, Option.bind_eq_bind, Option.bind_eq_some_iff] at grown
  obtain ⟨middle, begun, grown⟩ := grown
  obtain ⟨begins, grownLast⟩ := grow_last (Growth.begins_opening begun) grown before
  -- The first token is taken between steps, all others inside the step it starts.
  have through : ∀ tokens, grow ProgramGrowth.extend (.between before) (value.tokens ++ tokens) =
      grow ProgramGrowth.extend (.last first growth begins before) tokens := by
    intro tokens
    rw [spelled, List.cons_append, grow_cons (extend_between_expression begun before),
      grow_append grownLast]
  cases semicolon with
  | none =>
      refine ⟨_, through [], ?_⟩
      rw [ProgramGrowth.tree?, whole]
      rfl
  | some mark =>
      have notTaken : growth.extend (mark.as .semicolon) = none :=
        extend_mark whole (.last first.place) mark
      have ends : (ProgramGrowth.last first growth begins before).extend (mark.as .semicolon) =
          some (.ended value mark before) := by
        rw [extend_last_none begins notTaken, whole]
        exact if_pos rfl
      exact ⟨_, (through [mark.as .semicolon]).trans (grow_cons ends []), rfl⟩

theorem grow_program (tree : ProgramTree) :
    ∃ growth, grow ProgramGrowth.extend (.between []) tree.tokens = some growth ∧
      growth.tree? = some tree := by
  obtain ⟨declarations, last⟩ := tree
  rw [ProgramTree.tokens, grow_declarations, List.nil_append]
  cases last with
  | none => exact ⟨_, rfl, rfl⟩
  | some last =>
      rw [Option.toList_some, List.flatMap_singleton]
      exact grow_lastExpression last declarations

end TypeInType
