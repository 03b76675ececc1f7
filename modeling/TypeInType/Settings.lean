/-!
What a user may choose. Left alone, substitution captures, a context question
without a rule is an error, and the step behind every substitution is skipped.
-/

namespace TypeInType

structure Settings where
  /-- Rename binders instead of capturing. -/
  captureAvoiding : Bool := false
  /-- Use the generic context rule where no special one applies. -/
  contextFallthrough : Bool := false
  /-- Skip the first step behind every substitution. -/
  skipAfterSubstitution : Bool := true
  /-- Synthesize a type for a bare expression step. -/
  checkExpressionSteps : Bool := false
  /-- Stop at the first step that fails. -/
  haltOnError : Bool := true
  /-- How many contractions one reduction may take. -/
  maxReductionSteps : Int := 10000
  /-- The form of the output, `text` or `json`. -/
  format : String := "text"
  logLevel : String := "WARNING"
  deriving DecidableEq, Repr

end TypeInType
