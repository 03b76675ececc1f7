import TypeInType.Proofs.Errands

/-!
The renaming inside a substitution is a substitution itself, of a variable that the term does
not know. It is a pure relabelling: every node stays where it stands, and only the free
occurrences of the old name become the new one. So a renamed body is as large as the body was,
and an errand only sends errands that are smaller.
-/

namespace TypeInType

open NameSupply

inductive Node where
  | sort
  | var (name : String)
  | app
  | bind (kind : BinderKind) (name : String)
  deriving DecidableEq, Repr

inductive Side where
  | left
  | right
  deriving DecidableEq, Repr

namespace Term

def node : Term → Node
  | .sort _ => .sort
  | .var name _ => .var name
  | .app _ _ _ => .app
  | .bind kind name _ _ _ => .bind kind name

def nodeAt? : Term → List Side → Option (Node × Option Location)
  | term, [] => some (term.node, term.place)
  | .app function _ _, .left :: path => function.nodeAt? path
  | .app _ argument _, .right :: path => argument.nodeAt? path
  | .bind _ _ domain _ _, .left :: path => domain.nodeAt? path
  | .bind _ _ _ body _, .right :: path => body.nodeAt? path
  | _, _ => none

/-- Does the path end at a free occurrence of the name? A binder of the name hides it in its
body and not in its annotation. -/
def freeAt (name : String) : Term → List Side → Bool
  | .var other _, [] => other = name
  | .app function _ _, .left :: path => function.freeAt name path
  | .app _ argument _, .right :: path => argument.freeAt name path
  | .bind _ _ domain _ _, .left :: path => domain.freeAt name path
  | .bind _ bound _ body _, .right :: path => bound ≠ name && body.freeAt name path
  | _, _ => false

/-- A variable that is plugged in keeps every node but those of the name. -/
theorem nodeAt?_plug_var (term : Term) (old new : String) (place : Option Location)
    (path : List Side) :
    (term.plug false old (.var new place)).nodeAt? path =
      if term.freeAt old path then some (.var new, place) else term.nodeAt? path := by
  induction term generalizing path with
  | sort place =>
      cases path <;> rfl
  | var other place =>
      by_cases same : other = old
      · cases path <;> simp [plug, same, nodeAt?, freeAt, node, Term.place]
      · cases path <;> simp [plug, same, nodeAt?, freeAt]
  | app function argument place functionIH argumentIH =>
      cases path with
      | nil => rfl
      | cons side path =>
          cases side with
          | left => exact functionIH path
          | right => exact argumentIH path
  | bind kind bound domain body place domainIH bodyIH =>
      by_cases same : bound = old
      · rw [plug, if_pos same, if_neg Bool.false_ne_true]
        cases path with
        | nil => rfl
        | cons side path =>
            cases side with
            | left => exact domainIH path
            | right => simp [nodeAt?, freeAt, same]
      · rw [plug, if_neg same]
        cases path with
        | nil => rfl
        | cons side path =>
            cases side with
            | left => exact domainIH path
            | right => simpa [nodeAt?, freeAt, same] using bodyIH path

/-- A replacement that is no larger than a variable leaves the size as it is, even where binders
have to give way. -/
theorem size_replace (term : Term) (name : String) {replacement : Term} (supply : NameSupply)
    (small : replacement.size = 1) :
    (term.replace name replacement supply).1.size = term.size := by
  fun_induction replace term name replacement supply with
  | case1 supply place => rfl
  | case2 supply other place =>
      dsimp only
      split
      · exact small
      · rfl
  | case3 supply function argument place newFunction between functionEq newArgument after
      argumentEq functionIH argumentIH =>
      rw [functionEq] at functionIH
      rw [argumentEq] at argumentIH
      rw [size, functionIH, argumentIH, size]
  | case4 supply kind bound domain body place newDomain after domainEq stops domainIH =>
      rw [domainEq] at domainIH
      rw [size, domainIH, size]
  | case5 supply kind bound domain body place newDomain between domainEq goesOn captures renamed
      afterFresh freshEq newBody after bodyEq domainIH bodyIH =>
      rw [domainEq] at domainIH
      rw [bodyEq, size_rename] at bodyIH
      rw [size, domainIH, bodyIH, size]
  | case6 supply kind bound domain body place newDomain between domainEq goesOn safe newBody after
      bodyEq domainIH bodyIH =>
      rw [domainEq] at domainIH
      rw [bodyEq] at bodyIH
      rw [size, domainIH, bodyIH, size]

theorem name_of_bindersOutside (term : Term) (name : String) :
    ∀ binder ∈ term.bindersOutside name, binder.name ∈ term.allNames := by
  induction term with
  | sort place => exact List.forall_mem_nil _
  | var other place => exact List.forall_mem_nil _
  | app function argument place functionIH argumentIH =>
      rw [forall_bindersOutside_app]
      exact ⟨fun binder member => function_names_subset _ _ _ (functionIH binder member),
        fun binder member => argument_names_subset _ _ _ (argumentIH binder member)⟩
  | bind kind bound domain body place domainIH bodyIH =>
      rw [forall_bindersOutside_bind]
      exact ⟨List.mem_cons_self,
        fun binder member => domain_names_subset _ _ _ _ _ (domainIH binder member),
        fun _ binder member => body_names_subset _ _ _ _ _ (bodyIH binder member)⟩

theorem not_captures_unknown (term : Term) (old new : String) (place : Option Location)
    (absent : new ∉ term.allNames) :
    ∀ binder ∈ term.bindersOutside old, ¬binder.Captures old (.var new place) := by
  rintro binder member ⟨_, captured, _⟩
  have known := term.name_of_bindersOutside old binder member
  rw [List.mem_singleton.mp captured] at known
  exact absent known

theorem replaceRecord_of_uncaptured (term : Term) (name : String) (replacement : Term)
    (supply : NameSupply)
    (uncaptured : ∀ binder ∈ term.bindersOutside name, ¬binder.Captures name replacement) :
    term.replaceRecord name replacement supply = [] := by
  induction term generalizing supply with
  | sort place => rw [replaceRecord]
  | var other place => rw [replaceRecord]
  | app function argument place functionIH argumentIH =>
      rw [forall_bindersOutside_app] at uncaptured
      rw [replaceRecord, functionIH supply uncaptured.1, argumentIH _ uncaptured.2]
      rfl
  | bind kind bound domain body place domainIH bodyIH =>
      rw [forall_bindersOutside_bind] at uncaptured
      obtain ⟨here, inDomain, inBody⟩ := uncaptured
      rw [replaceRecord, domainIH supply inDomain, List.nil_append]
      split
      · rfl
      · rename_i goesOn
        rw [not_or, not_not] at goesOn
        have safe : ¬replacement.hasFree bound = true := by
          intro captured
          exact here ⟨goesOn.1, (hasFree_iff ..).mp captured, (hasFree_iff ..).mp goesOn.2⟩
        rw [if_neg safe]
        exact bodyIH _ (inBody goesOn.1)

end Term

/-! ## Errands come to an end -/

namespace Errand

def Sent (next call : NameSupply × Errand) : Prop :=
  call.2.plan.Sends call.1 next

def extent : Errand → Nat
  | .substitute term _ _ => 2 * term.size + 1
  | .walk term _ _ => 2 * term.size

theorem size_of_renaming {body answer : Term} {bound renamed : String} {supply : NameSupply}
    {record : List Entry}
    (runs : (Errand.substitute body bound (.var renamed none)).plan.Runs supply answer record) :
    answer.size = body.size := by
  obtain ⟨rfl, _⟩ := (runs_substitute body bound (.var renamed none) supply).unique runs
  exact body.size_replace bound _ rfl

theorem extent_lt_of_bodyPlan {kind : BinderKind} {bound name : String}
    {domain body replacement : Term} {place : Option Location} {supply : NameSupply}
    {next : NameSupply × Errand}
    (sent : (bodyPlan kind bound domain body place name replacement).Sends supply next) :
    next.2.extent < 2 * body.size + 2 := by
  unfold bodyPlan at sent
  split at sent
  · exact sent.elim
  · split at sent
    · -- The renaming of the body comes first, then the walk along what it answers.
      obtain rfl | ⟨answer, record, runs, rfl | ⟨_, _, _, ⟨⟩⟩⟩ := sent
      · exact Nat.lt_succ_self _
      · have same := size_of_renaming runs
        dsimp only [extent]
        omega
    · obtain rfl | ⟨_, _, _, ⟨⟩⟩ := sent
      dsimp only [extent]
      omega

theorem extent_lt_of_sent {next call : NameSupply × Errand} (sent : Sent next call) :
    next.2.extent < call.2.extent := by
  obtain ⟨supply, errand⟩ := call
  cases errand with
  | substitute term name replacement =>
      obtain rfl | ⟨_, _, _, ⟨⟩⟩ := sent
      exact Nat.lt_succ_self _
  | walk term name replacement =>
      cases term with
      | sort place => exact sent.elim
      | var other place => exact sent.elim
      | app function argument place =>
          obtain rfl | ⟨_, _, _, rfl | ⟨_, _, _, ⟨⟩⟩⟩ := sent
          · dsimp only [extent, Term.size]
            omega
          · dsimp only [extent, Term.size]
            omega
      | bind kind bound domain body place =>
          obtain rfl | ⟨newDomain, record, _, sent⟩ := sent
          · dsimp only [extent, Term.size]
            omega
          · have smaller := extent_lt_of_bodyPlan sent
            show next.2.extent < 2 * (domain.size + body.size + 1)
            omega

theorem wellFounded_sent : WellFounded Sent :=
  Subrelation.wf extent_lt_of_sent (measure fun call : NameSupply × Errand => call.2.extent).wf

end Errand

/-! ## Relabelling -/

/-- A variable that the term does not know is put in place of another: the supply is drawn on
nowhere and only gains the names in play, every node stays where it stands with what it is and
its place, and just the free occurrences of the old name become the new one. So the size stays,
and no substitution, whatever it is asked, goes on for ever. -/
theorem renaming_only_relabels (term : Term) (old new : String) (place : Option Location)
    (supply : NameSupply) (absent : new ∉ term.allNames) :
    let result := (term.substituteAvoiding old (.var new place) supply).1
    let after := (term.substituteAvoiding old (.var new place) supply).2
    (∀ like, .drawn like ∉ term.substitutionRecord old (.var new place) supply) ∧
    (∀ name, name ∈ after ↔
      name ∈ supply ∨ name ∈ term.allNames ∨ name = old ∨ name = new) ∧
    (∀ path, result.nodeAt? path =
      if term.freeAt old path then some (.var new, place) else term.nodeAt? path) ∧
    result.size = term.size ∧
    WellFounded Errand.Sent ∧
    ∀ whole name replacement start,
      (Errand.substitute whole name replacement).plan.Runs start
        (whole.substituteAvoiding name replacement start).1
        (whole.substitutionRecord name replacement start) := by
  intro result after
  have uncaptured := term.not_captures_unknown old new place absent
  have record : term.substitutionRecord old (.var new place) supply =
      [.reserved (old :: (term.allNames ++ [new])), .substituted term old (.var new place) result] := by
    rw [Term.substitutionRecord, term.replaceRecord_of_uncaptured old _ _ uncaptured]
    rfl
  have plugged : result = term.plug false old (.var new place) :=
    term.substituteAvoiding_of_uncaptured old _ supply uncaptured
  refine ⟨?_, ?_, ?_, ?_, Errand.wellFounded_sent, Errand.runs_substitute⟩
  · rw [record]
    simp
  · intro name
    have replayed := (term.records_substituteAvoiding old (.var new place) supply).replay_eq
    rw [record] at replayed
    show name ∈ (term.substituteAvoiding old (.var new place) supply).2 ↔ _
    rw [← replayed]
    show name ∈ supply.reserve (old :: (term.allNames ++ [new])) ↔ _
    rw [mem_reserve, List.mem_cons, List.mem_append, List.mem_singleton]
    grind
  · intro path
    rw [plugged]
    exact term.nodeAt?_plug_var old new place path
  · exact term.size_replace old _ rfl

/-- The inner binder of `y` hides the occurrence in its body and not the one in its annotation. -/
theorem renaming_reaches_shadowed_annotation :
    let place : Option Location := some ⟨1, 16, "<stdin>"⟩
    let term : Term := .app (.lam "y" (.var "y" place) (.var "y" place) place) (.var "x" place) place
    let result := (term.substituteAvoiding "y" (.var "y'" none) (.ofNames ["z"])).1
    "y'" ∉ term.allNames ∧
      (∀ like, .drawn like ∉ term.substitutionRecord "y" (.var "y'" none) (.ofNames ["z"])) ∧
      result.nodeAt? [.left] = some (.bind .lambda "y", place) ∧
      result.nodeAt? [.left, .left] = some (.var "y'", none) ∧
      result.nodeAt? [.left, .right] = some (.var "y", place) ∧ result.size = 5 := by
  intro place term result
  have absent : "y'" ∉ term.allNames := by
    decide
  obtain ⟨undrawn, _, nodes, size, _⟩ :=
    renaming_only_relabels term "y" "y'" none (.ofNames ["z"]) absent
  exact ⟨absent, undrawn, nodes [.left], nodes [.left, .left], nodes [.left, .right], size⟩

end TypeInType
