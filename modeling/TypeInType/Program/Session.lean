import TypeInType.Program.Run

/-!
A session of elaboration: steps are elaborated on demand, and the warnings of
their statements pile up until a whole program is run.
-/

namespace TypeInType

structure Session where
  settings : Settings
  warnings : List Diagnosis

namespace Session

def start (settings : Settings) : Session := ⟨settings, []⟩

def elaborate (session : Session) (step : Step) (rest : Program) : Elaborated × Session :=
  let done := elaborateStep session.settings step rest
  (done, { session with warnings := session.warnings ++ done.warnings })

def run (session : Session) (program : Program) : Run × Session :=
  let run := program.run session.settings
  (run, { session with warnings := run.warnings })

end Session

end TypeInType
