import TypeInType.CommandLine.Arguments
import TypeInType.Program.Run
import TypeInType.Settings.Read

/-!
The commands: `check` runs the program in a file and reports the outcome, and
`synth` shows the type of a closed expression. What the checker reports on the
way goes to the log, from the level on that the settings name.
-/

namespace TypeInType

inductive CommandFault where
  | settings (fault : SettingsFault)
  | unknownLevel
  | notALevel
  | isDirectory
  deriving DecidableEq, Repr

inductive Reply where
  | usage (code : Nat)
  | misuse
  | report (code : Nat) (output : String) (log : String)
  deriving DecidableEq, Repr

namespace Command

def versionText : String := "pitype 0.1.0"

def line (text : String) : String :=
  text ++ "\n"

/-- The rank of a log level. A name that is no level means the one for warnings;
two names are reserved. -/
def threshold (level : String) : Except CommandFault Nat :=
  match level with
  | "NOTSET" => .ok 0
  | "DEBUG" => .ok 10
  | "INFO" => .ok 20
  | "WARN" | "WARNING" => .ok 30
  | "ERROR" => .ok 40
  | "FATAL" | "CRITICAL" => .ok 50
  | "BASIC_FORMAT" => .error .unknownLevel
  | "_STYLES" => .error .notALevel
  | _ => .ok 30

def logText (threshold : Nat) (events : List Event) : String :=
  String.join ((events.filter fun event => threshold ≤ event.severity.rank).map
    fun event => line event.line)

def summary (run : Run) : String :=
  let warnings := run.warnings.map fun warning => line ("warning: " ++ warning.text)
  let errors := run.errors.map fun error => line ("error: " ++ error.text)
  let status := if run.ok then "ok" else "failed"
  let skipped := match run.skipped with
    | [] => ""
    | skipped => ", skipped " ++ ", ".intercalate skipped
  String.join (warnings ++ errors)
    ++ line (status ++ ": elaborated " ++ toString run.elaborated.length ++ " step(s)" ++ skipped)

def typeOfText (settings : Settings) (source : String) : Checked (Term × Term) := do
  let expression ← Checked.silent (parseExpression source Location.standardInput)
  let type ← typeOf settings expression
  pure (expression, type)

def paths (workingDirectory : Route) (arguments : List String) : List String :=
  match Request.ofArguments arguments with
  | .ok (.check file options) =>
      file :: Settings.reached options.config.join (Route.ofPath workingDirectory file).tail
  | .ok (.synth _ options) => Settings.reached options.config.join workingDirectory
  | .error _ => []

section Commands

variable [YamlReader]

def settingsFromFile (files : Files) (options : Options) (start : Route) :
    Except SettingsFault Settings :=
  match options.config with
  | none => Settings.load files none start
  | some (some path) => Settings.load files (some path) start
  | some none => .error .noPath

def settingsFor (files : Files) (options : Options) (start : Route) :
    Except SettingsFault Settings :=
  (settingsFromFile files options start).map fun settings =>
    { settings with
      captureAvoiding := settings.captureAvoiding || options.captureAvoiding
      contextFallthrough := settings.contextFallthrough || options.contextFallthrough
      haltOnError := settings.haltOnError && !options.keepGoing
      format := options.format.getD settings.format
      logLevel := if options.verbose then "DEBUG" else settings.logLevel }

def prepare (files : Files) (options : Options) (start : Route) :
    Except CommandFault (Settings × Nat) :=
  match settingsFor files options start with
  | .error fault => .error (.settings fault)
  | .ok settings => (threshold settings.logLevel).map fun rank => (settings, rank)

def check (files : Files) (file : String) (options : Options) : Except CommandFault Reply :=
  match files.status file with
  | .missing =>
      let report := Document.record [("error", .text ("File not found: " ++ file))]
      .ok (.report 1 (line (report.json .oneLine)) "")
  | status =>
      match prepare files options (Route.ofPath files.workingDirectory file).tail with
      | .error fault => .error fault
      | .ok (settings, rank) =>
          match status with
          | .file content =>
              let run := checkSource settings (Files.readable content) file
              let output :=
                if settings.format = "json" then line (run.document.json (.lines 2))
                else summary run
              .ok (.report (if run.ok then 0 else 1) output (logText rank run.events))
          | .locked => .error (.settings (.locked file))
          | .undecodable => .error (.settings (.undecodable file))
          | _ => .error .isDirectory

def synth (files : Files) (source : String) (options : Options) : Except CommandFault Reply :=
  match prepare files options files.workingDirectory with
  | .error fault => .error fault
  | .ok (settings, rank) =>
      let typed := typeOfText settings source
      let log := logText rank typed.events
      match typed.outcome with
      | .ok (expression, type) =>
          let output :=
            if settings.format = "json" then
              (Document.record
                [("expr", .text expression.text), ("type", .text type.text)]).json .oneLine
            else type.text
          .ok (.report 0 (line output) log)
      | .error diagnosis =>
          let output :=
            if settings.format = "json" then (Diagnosis.documents [diagnosis]).json (.lines 2)
            else "error: " ++ diagnosis.text
          .ok (.report 1 (line output) log)

def run (files : Files) (arguments : List String) : Except CommandFault Reply :=
  match Request.ofArguments arguments with
  | .error (.help code) => .ok (.usage code)
  | .error .version => .ok (.report 0 (line versionText) "")
  | .error .misuse => .ok .misuse
  | .ok (.check file options) => check files file options
  | .ok (.synth source options) => synth files source options

theorem prepare_eq_of_agree (left right : Files) (options : Options) (start : Route)
    (agree : left.Agree right (Settings.reached options.config.join start)) :
    prepare left options start = prepare right options start := by
  have same : settingsFromFile left options start = settingsFromFile right options start := by
    unfold settingsFromFile
    split
    next absent =>
      rw [absent] at agree
      exact Settings.load_eq_of_agree left right none start agree
    next path named =>
      rw [named] at agree
      exact Settings.load_eq_of_agree left right (some path) start agree
    next => rfl
  simp only [prepare, settingsFor, same]

theorem run_eq_of_agree (left right : Files) (arguments : List String)
    (same : left.workingDirectory = right.workingDirectory)
    (agree : left.Agree right (paths left.workingDirectory arguments)) :
    run left arguments = run right arguments := by
  unfold run
  unfold paths at agree
  split
  · rfl
  · rfl
  · rfl
  next file options request =>
    rw [request] at agree
    have here := agree file (by simp)
    have prepared := prepare_eq_of_agree left right options
      (Route.ofPath left.workingDirectory file).tail
      fun path member => agree path (List.mem_cons_of_mem _ member)
    simp only [check, here, same] at prepared ⊢
    rw [prepared]
  next source options request =>
    rw [request] at agree
    have prepared := prepare_eq_of_agree left right options left.workingDirectory agree
    simp only [synth, same] at prepared ⊢
    rw [prepared]

end Commands

end Command

end TypeInType
