import TypeInType.Text.Numeral

/-!
The arguments of the command line. A name that starts with a dash is an option
and may be cut short while only one option starts like it; a value follows its
option or is attached with `=`. Short flags may share one dash. After `--` nothing
is an option. Options stand before or after the operand.
-/

namespace TypeInType

inductive OptionKey where
  | help
  | version
  | config
  | format
  | verbose
  | captureAvoiding
  | contextFallthrough
  | keepGoing
  deriving DecidableEq, Repr

def OptionKey.takesValue : OptionKey → Bool
  | .config => true
  | .format => true
  | _ => false

abbrev OptionNames := List (String × OptionKey)

def generalNames : OptionNames :=
  [("-h", .help), ("--help", .help), ("--version", .version)]

def synthNames : OptionNames :=
  [("-h", .help), ("--help", .help), ("--config", .config), ("--format", .format),
    ("--verbose", .verbose), ("-v", .verbose), ("--capture-avoiding", .captureAvoiding),
    ("--context-fallthrough", .contextFallthrough)]

def checkNames : OptionNames :=
  synthNames ++ [("--keep-going", .keepGoing)]

inductive Stop where
  | help (code : Nat)
  | version
  | misuse
  deriving DecidableEq, Repr

/-- An option comes with the characters that hang on its name, if there are any. -/
inductive Argument where
  | operand (text : String)
  | separator
  | unknown
  | option (name : String) (key : OptionKey) (attached : Option (List Char))

namespace Argument

/-- Is the text a negative number? Such an argument is no option. A newline may
end it. -/
def isNegativeNumber (chars : List Char) : Bool :=
  let isDigit (char : Char) : Bool := (decimalDigit? char).isSome
  let areDigits (chars : List Char) : Bool :=
    chars.head?.any isDigit && [[], ['\n']].contains (chars.dropWhile isDigit)
  match chars with
  | '-' :: rest =>
      areDigits rest ||
        match rest.dropWhile isDigit with
        | '.' :: fraction => areDigits fraction
        | _ => false
  | _ => false

def splitEquals (chars : List Char) : List Char × Option (List Char) :=
  match chars.dropWhile (· ≠ '=') with
  | [] => (chars, none)
  | _ :: value => (chars.takeWhile (· ≠ '='), some value)

def readings (names : OptionNames) (chars : List Char) : List Argument :=
  match chars with
  | '-' :: '-' :: _ =>
      let (front, attached) := splitEquals chars
      (names.filter fun entry => front.isPrefixOf entry.1.toList).map fun (name, key) =>
        .option name key attached
  | '-' :: flag :: rest =>
      (names.filter fun entry => entry.1.toList = ['-', flag]).map fun (name, key) =>
        .option name key (some rest)
  | _ => []

def classify (names : OptionNames) (text : String) : Except Stop Argument :=
  let chars := text.toList
  if chars.head? ≠ some '-' then .ok (.operand text)
  else
    match names.lookup text with
    | some key => .ok (.option text key none)
    | none =>
        if chars = ['-'] then .ok (.operand text)
        else
          let (front, attached) := splitEquals chars
          let name := String.ofList front
          match attached, names.lookup name with
          | some attached, some key => .ok (.option name key (some attached))
          | _, _ =>
              match readings names chars with
              | [argument] => .ok argument
              | _ :: _ :: _ => .error .misuse
              | [] =>
                  if isNegativeNumber chars || chars.contains ' ' then .ok (.operand text)
                  else .ok .unknown

def classifyAll (names : OptionNames) : List String → Except Stop (List (Argument × String))
  | [] => .ok []
  | text :: rest =>
      if text = "--" then
        .ok ((.separator, text) :: rest.map fun text => (.operand text, text))
      else
        match classify names text, classifyAll names rest with
        | .ok argument, .ok arguments => .ok ((argument, text) :: arguments)
        | .error stop, _ => .error stop
        | _, .error stop => .error stop

end Argument

structure Options where
  config : Option (Option String) := none
  format : Option String := none
  verbose : Bool := false
  captureAvoiding : Bool := false
  contextFallthrough : Bool := false
  keepGoing : Bool := false
  deriving DecidableEq, Repr

def formats : List String := ["text", "json"]

abbrev Choice := OptionKey × Option String

def Options.set (options : Options) (choice : Choice) : Except Stop Options :=
  match choice with
  | (.help, _) => .error (.help 0)
  | (.version, _) => .error .version
  | (.config, path) => .ok { options with config := some path }
  | (.format, none) => .ok { options with format := none }
  | (.format, some value) =>
      if formats.contains value then .ok { options with format := some value }
      else .error .misuse
  | (.verbose, _) => .ok { options with verbose := true }
  | (.captureAvoiding, _) => .ok { options with captureAvoiding := true }
  | (.contextFallthrough, _) => .ok { options with contextFallthrough := true }
  | (.keepGoing, _) => .ok { options with keepGoing := true }

/-- A value that is attached to its option. A `--` separates even there, and
leaves the option without a value. -/
def attachedValue (chars : List Char) : Option String :=
  if chars = ['-', '-'] then none else some (String.ofList chars)

def attachedChoices (names : OptionNames) :
    String → OptionKey → List Char → Except Stop (List Choice)
  | _, key, [] => if key.takesValue then .ok [(key, attachedValue [])] else .error .misuse
  | name, key, flag :: rest =>
      if key.takesValue then .ok [(key, attachedValue (flag :: rest))]
      else if "--".toList.isPrefixOf name.toList then .error .misuse
      else
        let next := String.ofList ['-', flag]
        match names.lookup next with
        | none => .error .misuse
        | some nextKey =>
            if !rest.isEmpty then
              (attachedChoices names next nextKey rest).map ((key, none) :: ·)
            else if nextKey.takesValue then .error .misuse
            else .ok [(key, none), (nextKey, none)]

def Options.setAll (options : Options) (choices : List Choice) : Except Stop Options :=
  choices.foldlM Options.set options

structure Gathered where
  options : Options
  operand : Option String
  leftover : Bool

/-- Goes through the arguments of a command with one operand. A `--` right before
or right behind the operand belongs to it. -/
def gather (names : OptionNames) (gathered : Gathered) :
    List (Argument × String) → Except Stop Gathered
  | [] => .ok gathered
  | (.option name key (some chars), _) :: rest =>
      match attachedChoices names name key chars with
      | .error stop => .error stop
      | .ok choices =>
          match gathered.options.setAll choices with
          | .error stop => .error stop
          | .ok options => gather names { gathered with options } rest
  | (.option _ key none, _) :: rest =>
      if key.takesValue then
        match rest with
        | (.operand value, _) :: rest =>
            match gathered.options.set (key, some value) with
            | .error stop => .error stop
            | .ok options => gather names { gathered with options } rest
        | _ => .error .misuse
      else
        match gathered.options.set (key, none) with
        | .error stop => .error stop
        | .ok options => gather names { gathered with options } rest
  | (.unknown, _) :: rest => gather names { gathered with leftover := true } rest
  | (.operand text, _) :: rest =>
      match gathered.operand with
      | some _ => gather names { gathered with leftover := true } rest
      | none =>
          match rest with
          | (.separator, _) :: rest => gather names { gathered with operand := some text } rest
          | rest => gather names { gathered with operand := some text } rest
  | (.separator, _) :: rest =>
      match gathered.operand, rest with
      | none, (.operand text, _) :: rest => gather names { gathered with operand := some text } rest
      | _, rest => gather names { gathered with leftover := true } rest

inductive Request where
  | check (file : String) (options : Options)
  | synth (expression : String) (options : Options)
  deriving DecidableEq, Repr

def commandArguments (names : OptionNames) (texts : List String) (leftover : Bool) :
    Except Stop (String × Options) := do
  let arguments ← Argument.classifyAll names texts
  let gathered ← gather names ⟨{}, none, false⟩ arguments
  match gathered.operand with
  | some operand =>
      if gathered.leftover || leftover then .error .misuse
      else .ok (operand, gathered.options)
  | none => .error .misuse

def findCommand (leftover : Bool) : List (Argument × String) → Except Stop Request
  | [] => .error (if leftover then .misuse else .help 1)
  | (.option name key (some chars), _) :: rest =>
      match attachedChoices generalNames name key chars with
      | .error stop => .error stop
      | .ok choices =>
          match Options.setAll {} choices with
          | .error stop => .error stop
          | .ok _ => findCommand leftover rest
  | (.option _ key none, _) :: rest =>
      match Options.set {} (key, none) with
      | .error stop => .error stop
      | .ok _ => findCommand leftover rest
  | (.unknown, _) :: rest => findCommand true rest
  | (.separator, _) :: _ => .error .misuse
  | (.operand command, _) :: rest =>
      if command = "check" then
        (commandArguments checkNames (rest.map Prod.snd) leftover).map fun (file, options) =>
          .check file options
      else if command = "synth" then
        (commandArguments synthNames (rest.map Prod.snd) leftover).map
          fun (expression, options) => .synth expression options
      else .error .misuse

def Request.ofArguments (texts : List String) : Except Stop Request := do
  findCommand false (← Argument.classifyAll generalNames texts)

end TypeInType
