import TypeInType.Proofs.ReadLabels
import TypeInType.Proofs.Rereading

/-!
What an accepted text yields can be written down and read again: the names in it are
names to the lexer, and an expression comes last if there is one.
-/

namespace TypeInType

/-! Names come from the text. -/

def ReadsAsName (name : String) : Prop :=
  ∃ file place finish, tokenize name file = .ok ⟨[⟨.name, name, place⟩], finish⟩

theorem isName_of_scan {file : String} {position : Position} {text : List Char} {tokens : Tokens}
    (scanned : scan file position text = .ok tokens) :
    ∀ token ∈ tokens.items, token.kind = .name → IsName token.text := by
  fun_induction scan file position text generalizing tokens with
  | case1 => cases scanned
  | case2 => cases scanned
  | case3 position text after rest skipped kind word found following scannedRest token =>
      rename_i ih
      obtain rfl := Except.ok.inj scanned
      refine List.forall_mem_cons.mpr ⟨?_, ih scannedRest⟩
      rintro rfl
      obtain ⟨isWord, isName⟩ := isWord_of_lexeme? found
      exact ⟨by rwa [String.toList_ofList], isName⟩
  | case4 =>
      obtain rfl := Except.ok.inj scanned
      exact List.forall_mem_nil _
  | case5 => cases scanned

/-- These are the words that are no keywords. -/
theorem readsAsName_iff (name : String) : ReadsAsName name ↔ IsName name := by
  constructor
  · rintro ⟨file, place, finish, scanned⟩
    exact isName_of_scan scanned _ List.mem_cons_self rfl
  · intro isName
    have separated : Separated [.lexeme .name name.toList] :=
      separated_name isName stopsWord_nil trivial
    obtain ⟨⟨items, finish⟩, scanned, spelled⟩ := scan_charsOf separated "" .start
    obtain ⟨place, later, rfl, nothing⟩ := exists_token spelled
    obtain rfl : later = [] := List.map_eq_nil_iff.mp nothing
    rw [charsOf_lexeme, charsOf_nil, List.append_nil, String.ofList_toList] at scanned
    exact ⟨"", place, finish, scanned⟩

theorem labelsAre_of_tokenize {source file : String} {tokens : Tokens}
    (scanned : tokenize source file = .ok tokens) :
    ∀ token ∈ tokens.items, token.LabelsAre IsName fun _ => True :=
  fun token member => ⟨isName_of_scan scanned token member, trivial⟩

theorem isName_of_parseExpression {source file : String} {term : Term}
    (parsed : parseExpression source file = .ok term) : ∀ name ∈ term.allNames, IsName name := by
  obtain ⟨tokens, scanned, read⟩ := bind_eq_ok_iff.mp parsed
  have labels := labelsAre_of_readExpression isName_anonymous (labelsAre_of_tokenize scanned) read
  exact term.namesAre_iff.mpr labels

theorem linked_of_parseProgram {source file : String} {program : Program}
    (parsed : parseProgram source file = .ok program) :
    program.Linked ∧ ∀ step ∈ program, ∀ name ∈ step.names, IsName name := by
  obtain ⟨tokens, scanned, read⟩ := bind_eq_ok_iff.mp parsed
  have labels := labelsAre_of_readProgram isName_anonymous (labelsAre_of_tokenize scanned) read
  exact ⟨(linked_of_readProgram read).1, program.namesAre_iff.mpr labels⟩

/-- Writing and reading are inverse to each other, places aside: on terms and linked programs
whose names the lexer reads as names, and so on all that has been read from a text. -/
theorem writing_and_reading_are_inverse :
    (∀ (term : Term) (file : String), (∀ name ∈ term.allNames, ReadsAsName name) →
      ∃ again, parseExpression term.text file = .ok again ∧ again.Same term) ∧
    (∀ (program : Program) (file : String), program.Linked →
      (∀ step ∈ program, ∀ name ∈ step.names, ReadsAsName name) →
      ∃ again, parseProgram program.text file = .ok again ∧
        again.map Step.bare = program.map Step.bare) ∧
    (∀ (source origin file : String) (term : Term), parseExpression source origin = .ok term →
      ∃ again, parseExpression term.text file = .ok again ∧ again.Same term) ∧
    ∀ (source origin file : String) (program : Program),
      parseProgram source origin = .ok program →
      ∃ again, parseProgram program.text file = .ok again ∧
        again.map Step.bare = program.map Step.bare := by
  refine ⟨fun term file readable => ?_, fun program file linked readable => ?_,
    fun source origin file term parsed => ?_, fun source origin file program parsed => ?_⟩
  · exact term.parse_text (fun name member => (readsAsName_iff name).mp (readable name member)) file
  · refine Program.parse_text linked (fun step member name inStep => ?_) file
    exact (readsAsName_iff name).mp (readable step member name inStep)
  · exact term.parse_text (isName_of_parseExpression parsed) file
  · obtain ⟨linked, spellable⟩ := linked_of_parseProgram parsed
    exact Program.parse_text linked spellable file

theorem small_program_reads_back :
    let function : Term := .lam "x'" (.sort none) (.arrow (.var "x'" none) (.sort none) none) none
    let program : Program := [.define "f" function none, .express (.var "f" none) none]
    (∀ name ∈ ["x'", "_", "f"], ReadsAsName name) ∧
      (∃ again, parseExpression function.text "" = .ok again ∧ again.Same function) ∧
      (∃ again, parseProgram program.text "" = .ok again ∧
        again.map Step.bare = program.map Step.bare) ∧
      ∃ read, parseExpression "x -> Type" "" = .ok read ∧
        ∃ again, parseExpression read.text "" = .ok again ∧ again.Same read := by
  have parsed : parseExpression "x -> Type" "" =
      .ok (.arrow (.var "x" (some ⟨1, 1, ""⟩)) (.sort (some ⟨1, 6, ""⟩)) (some ⟨1, 1, ""⟩)) := by
    cbv
  have readable : ∀ name ∈ ["x'", "_", "f"], ReadsAsName name := by
    simp only [List.forall_mem_cons, readsAsName_iff]
    exact ⟨⟨⟨'x', ['\''], rfl, by decide, by decide⟩, by decide⟩, isName_anonymous,
      ⟨⟨'f', [], rfl, by decide, by decide⟩, by decide⟩, List.forall_mem_nil _⟩
  intro function program
  obtain ⟨ofTerm, ofProgram, ofSource, _⟩ := writing_and_reading_are_inverse
  refine ⟨readable, ?_, ?_, _, parsed, ofSource "x -> Type" "" "" _ parsed⟩
  · refine ofTerm function "" fun name member => readable name ?_
    revert name
    decide
  · refine ofProgram program "" (by decide) fun step member name inStep => readable name ?_
    revert step name
    decide

end TypeInType
