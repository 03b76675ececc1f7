import TypeInType.Program.Elaborate
import TypeInType.Surface.Parser

/-!
Running a program. A cursor walks over the steps; each step that succeeds has its
value put into the steps behind it. Behind every definition or theorem the cursor
may skip one more step, which is then never elaborated, and a failing step either
ends the run or is passed over. A step's number is its place in the program as it
was given.
-/

namespace TypeInType

/-- How far a run has come: the steps not yet passed, the index of the first of
them, and what has been found so far. -/
structure Run where
  position : Nat
  remaining : Program
  elaborated : List String
  skipped : List String
  errors : List Diagnosis
  warnings : List Diagnosis
  events : List Event

namespace Run

def start (program : Program) : Run :=
  ⟨0, program, [], [], [], [], []⟩

def ok (run : Run) : Bool :=
  run.errors.isEmpty

def isOver (settings : Settings) (run : Run) : Bool :=
  run.remaining.isEmpty || (settings.haltOnError && !run.ok)

/-- The run after a step has failed. When it is to halt, the cursor stays. -/
def fail (settings : Settings) (run : Run) (mark : StepMark) (place : Option Location)
    (rest : Program) (diagnosis : Diagnosis) : Run :=
  let run := { run with
    errors := run.errors ++ [diagnosis.atStep mark place]
    events := run.events ++ [.failed mark diagnosis] }
  if settings.haltOnError then run
  else { run with position := run.position + 1, remaining := rest }

def finish (run : Run) (mark : StepMark) (next : Program) : Run :=
  { run with
    position := run.position + 1
    remaining := next
    elaborated := run.elaborated ++ [mark.label]
    events := run.events ++ [.finished mark] }

def skip (run : Run) : Run :=
  match run.remaining with
  | [] => run
  | step :: rest =>
      { run with
        position := run.position + 1
        remaining := rest
        skipped := run.skipped ++ [step.label]
        events := run.events ++ [.skipped ⟨run.position, step.label⟩] }

def turn (settings : Settings) (run : Run) : Run :=
  if run.isOver settings then run
  else
    match run.remaining with
    | [] => run
    | step :: rest =>
        let mark : StepMark := ⟨run.position, step.label⟩
        let done := elaborateStep settings step rest
        let warnings := done.warnings.map (Diagnosis.atStep · mark step.place)
        let run := { run with
          warnings := run.warnings ++ warnings
          events := run.events ++ done.events }
        match done.outcome with
        | .error diagnosis => run.fail settings mark step.place rest diagnosis
        | .ok next =>
            let run := run.finish mark next
            if step.isDeclaration && settings.skipAfterSubstitution then run.skip else run

def turns (settings : Settings) : Nat → Run → Run
  | 0, run => run
  | count + 1, run => turns settings count (run.turn settings)

end Run

/-- Runs a program to its end. Every turn passes at least one step, so there are
no more turns than steps. -/
def Program.run (settings : Settings) (program : Program) : Run :=
  Run.turns settings program.length (.start program)

def checkSource (settings : Settings) (source file : String) : Run :=
  match parseProgram source file with
  | .ok program => program.run settings
  | .error diagnosis => { Run.start [] with errors := [diagnosis] }

namespace Run

def document (run : Run) : Document :=
  let remaining := match run.remaining with
    | [] => []
    | remaining => [("remaining", .text (Program.text remaining))]
  .record ([("ok", .boolean run.ok),
    ("elaborated", .list (run.elaborated.map .text)),
    ("skipped", .list (run.skipped.map .text)),
    ("position", .integer run.position),
    ("errors", Diagnosis.documents run.errors),
    ("warnings", Diagnosis.documents run.warnings)] ++ remaining)

end Run

end TypeInType
