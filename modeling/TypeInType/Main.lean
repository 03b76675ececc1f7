import TypeInType.CommandLine.Command
import TypeInType.Datum.Flat

/-!
The program: reads the files that its arguments may ask for, runs the command
and shows what it leaves behind.
-/

namespace TypeInType

def usageText : String :=
  "usage: pitype [-h] [--version] check FILE [option ...]\n"
    ++ "       pitype [-h] [--version] synth EXPRESSION [option ...]\n"
    ++ "options: --config FILE, --format text|json, --verbose, --capture-avoiding,\n"
    ++ "         --context-fallthrough, and for check also --keep-going\n"

def CommandFault.text : CommandFault → String
  | .settings (.locked path) => path ++ " cannot be opened"
  | .settings (.undecodable path) => path ++ " holds no text"
  | .settings fault => fault.message?.getD "a setting has a value of the wrong type"
  | .unknownLevel => "the log level is unknown"
  | .notALevel => "the log level is no level"
  | .isDirectory => "the program file is a directory"

def statusOf (path : String) : IO FileStatus := do
  try
    return .file (← IO.FS.readFile path)
  catch
    | .noFileOrDirectory _ _ _ => return .missing
    -- Under this name a file stands where a directory should. A directory is opened, and
    -- refuses to be read without a name.
    | .inappropriateType (some _) _ _ => return .missing
    | .inappropriateType none _ _ => return .directory
    | .userError _ => return .undecodable
    | _ => return .locked

def filesAt (workingDirectory : Route) (paths : List String) : IO Files := do
  let found ← paths.mapM fun path => return (path, ← statusOf path)
  return ⟨workingDirectory, fun path => (found.lookup path).getD .missing⟩

def execute (arguments : List String) : IO UInt32 := do
  let output ← IO.getStdout
  let log ← IO.getStderr
  let workingDirectory := Route.ofPath [] (toString (← IO.currentDir))
  let files ← filesAt workingDirectory (Command.paths workingDirectory arguments)
  match Command.run files arguments with
  | .ok (.usage code) =>
      output.putStr usageText
      return code.toUInt32
  | .ok .misuse =>
      log.putStr usageText
      return 2
  | .ok (.report code text events) =>
      log.putStr events
      output.putStr text
      return code.toUInt32
  | .error fault =>
      log.putStrLn fault.text
      return 1

end TypeInType

def main (arguments : List String) : IO UInt32 :=
  TypeInType.execute arguments
