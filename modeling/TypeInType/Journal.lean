import TypeInType.Diagnosis
import TypeInType.Term.Text

/-!
What the checker reports while it works. A computation that may fail also keeps
the events up to its end, whether it fails or not; its outcome does not depend
on them.
-/

namespace TypeInType

inductive Event where
  | synthesizing (term : Term)
  | noContextRule (telescope context : Term)
  | reduced (name : String) (value : Term)
  | ambiguousStatement (name : String) (diagnosis : Diagnosis)
  | proved (name : String) (value : Term)
  | failed (step : StepMark) (diagnosis : Diagnosis)
  | finished (step : StepMark)
  | skipped (step : StepMark)
  deriving DecidableEq, Repr

inductive Severity where
  | debug
  | info
  | warning
  deriving DecidableEq, Repr

namespace Severity

def text : Severity → String
  | .debug => "DEBUG"
  | .info => "INFO"
  | .warning => "WARNING"

def rank : Severity → Nat
  | .debug => 10
  | .info => 20
  | .warning => 30

end Severity

namespace Event

def severity : Event → Severity
  | .noContextRule _ _ | .ambiguousStatement _ _ => .warning
  | .failed _ _ | .finished _ => .info
  | _ => .debug

def source : Event → String
  | .synthesizing _ | .noContextRule _ _ => "pitype.judgement"
  | _ => "pitype.pipeline"

def markText (mark : StepMark) : String :=
  "step " ++ toString mark.index ++ " (" ++ mark.label ++ ")"

def message : Event → String
  | .synthesizing term => "synthesize " ++ term.text
  | .noContextRule telescope context =>
      "no context rule for " ++ telescope.text ++ " under " ++ context.text
  | .reduced name value => "let " ++ name ++ " = " ++ value.text
  | .ambiguousStatement name diagnosis => "statement of " ++ name ++ ": " ++ diagnosis.text
  | .proved name value => "theorem " ++ name ++ " proved by " ++ value.text
  | .failed mark diagnosis => markText mark ++ " failed: " ++ diagnosis.text
  | .finished mark => markText mark ++ " ok"
  | .skipped mark => markText mark ++ " skipped"

def line (event : Event) : String :=
  event.severity.text ++ " " ++ event.source ++ ": " ++ event.message

end Event

structure Checked (α : Type) where
  events : List Event
  outcome : Except Diagnosis α

namespace Checked

variable {α β : Type}

def value (result : α) : Checked α := ⟨[], .ok result⟩

def fail (diagnosis : Diagnosis) : Checked α := ⟨[], .error diagnosis⟩

def note (event : Event) : Checked Unit := ⟨[event], .ok ()⟩

def silent (outcome : Except Diagnosis α) : Checked α := ⟨[], outcome⟩

def andThen (first : Checked α) (next : α → Checked β) : Checked β :=
  match first.outcome with
  | .ok result => ⟨first.events ++ (next result).events, (next result).outcome⟩
  | .error diagnosis => ⟨first.events, .error diagnosis⟩

instance : Monad Checked where
  pure := value
  bind := andThen

@[simp] theorem outcome_pure (result : α) : (pure result : Checked α).outcome = .ok result := rfl

@[simp] theorem outcome_fail (diagnosis : Diagnosis) :
    (fail diagnosis : Checked α).outcome = .error diagnosis := rfl

@[simp] theorem outcome_note (event : Event) : (note event).outcome = .ok () := rfl

@[simp] theorem outcome_silent (outcome : Except Diagnosis α) :
    (silent outcome).outcome = outcome := rfl

@[simp] theorem outcome_bind (first : Checked α) (next : α → Checked β) :
    (first >>= next).outcome = first.outcome >>= fun result => (next result).outcome := by
  show (first.andThen next).outcome = _
  unfold andThen
  cases first.outcome <;> rfl

end Checked

end TypeInType
