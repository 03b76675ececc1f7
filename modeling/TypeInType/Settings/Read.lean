import TypeInType.Datum.Display
import TypeInType.Datum.Json
import TypeInType.Files
import TypeInType.Settings
import TypeInType.Text.Uppercase

/-!
Settings from a file. The nearest file of a known name counts, from a directory
upwards. A file that cannot be read or is not a record leaves all settings as
they are, and so does every key that is missing; unknown keys are ignored. A
value is taken for what its key needs, and it may be refused if its key needs a
whole number, or a text and it is a number with too many digits.
-/

namespace TypeInType

inductive SettingsFault where
  | noPath
  | impossiblePath
  | locked (path : String)
  | undecodable (path : String)
  | unreadable (fault : DatumFault)
  | notWhole (value : LooseText)
  | notANumber
  | infinite
  | wrongType
  | refusedBy (message : Option String)
  | tooLongToShow
  deriving DecidableEq, Repr

namespace SettingsFault

def shownLength : Nat := 200

def message? : SettingsFault → Option String
  | .noPath => none
  | .impossiblePath => some "embedded null byte"
  | .locked _ => none
  | .undecodable _ => none
  | .unreadable fault => fault.message?
  | .notWhole value =>
      let shown := String.ofList (value.literal.toList.take shownLength)
      some ("invalid literal for int() with base 10: " ++ shown)
  | .notANumber => some "cannot convert float NaN to integer"
  | .infinite => none
  | .wrongType => none
  | .refusedBy message => message
  | .tooLongToShow =>
      some ("Exceeds the limit (4300 digits) for integer string conversion; "
        ++ "use sys.set_int_max_str_digits() to increase the limit")

end SettingsFault

namespace Datum

/-- A datum as a whole number; a fraction is cut off. -/
def whole : Datum → Except SettingsFault Int
  | .boolean value => .ok (if value then 1 else 0)
  | .integer value => .ok value
  | .decimal (.finite negative mantissa exponent) =>
      .ok (Binary64.truncated negative mantissa exponent)
  | .decimal (.infinite _) => .error .infinite
  | .decimal .nan => .error .notANumber
  | .text value =>
      match Whole.ofText value with
      | .ok whole => .ok whole
      | .error .malformed => .error (.notWhole value)
      | .error (.tooLong digits) => .error (.unreadable (.tooLong digits))
  | .foreign value => value.whole.mapError .refusedBy
  | _ => .error .wrongType

def display (value : Datum) : Except SettingsFault String :=
  match value.display? with
  | some shown => .ok shown
  | none => .error .tooLongToShow

end Datum

namespace Settings

def fileNames : List String :=
  [".pityperc.yml", ".pityperc.yaml", ".pityperc.json", "pitype.config.yml",
    "pitype.config.json"]

def candidates (start : Route) : List Route :=
  start.upward.flatMap fun directory => fileNames.map fun name => name :: directory

def find? (files : Files) (start : Route) : Option Route :=
  (candidates start).find? fun route => files.isFile route.text

def entryOr {α : Type} (entries : List (LooseText × Datum)) (key : String)
    (take : Datum → Except SettingsFault α) (preset : α) : Except SettingsFault α :=
  match Datum.get? entries (.ofString key) with
  | some value => take value
  | none => .ok preset

def ofRecord (entries : List (LooseText × Datum)) : Except SettingsFault Settings := do
  let preset : Settings := {}
  let flag (key : String) (otherwise : Bool) : Except SettingsFault Bool :=
    entryOr entries key (fun value => .ok value.isTruthy) otherwise
  return {
    captureAvoiding := ← flag "capture_avoiding" preset.captureAvoiding
    contextFallthrough := ← flag "context_fallthrough" preset.contextFallthrough
    skipAfterSubstitution := ← flag "skip_after_substitution" preset.skipAfterSubstitution
    checkExpressionSteps := ← flag "check_expr_steps" preset.checkExpressionSteps
    haltOnError := ← flag "halt_on_error" preset.haltOnError
    maxReductionSteps :=
      ← entryOr entries "max_reduction_steps" Datum.whole preset.maxReductionSteps
    format := ← entryOr entries "format" Datum.display preset.format
    logLevel :=
      ← entryOr entries "log_level" (fun value => value.display.map uppercase) preset.logLevel }

def ofDatum : Except DatumFault Datum → Except SettingsFault Settings
  | .ok (.record entries) => ofRecord entries
  | .ok _ => .ok {}
  | .error .malformed => .ok {}
  | .error fault => .error (.unreadable fault)

def isJsonName (path : String) : Bool :=
  ".json".toList.isSuffixOf path.toList

def reached (path : Option String) (start : Route) : List String :=
  path.toList ++ (candidates start).map Route.text

theorem find?_eq_of_agree (left right : Files) (start : Route)
    (agree : left.Agree right ((candidates start).map Route.text)) :
    find? left start = find? right start := by
  unfold find?
  revert agree
  induction candidates start with
  | nil => exact fun _ => rfl
  | cons route rest ih =>
      intro agree
      have first := agree route.text (by simp)
      have others := ih fun path member => agree path (List.mem_cons_of_mem _ member)
      simp only [List.find?_cons, Files.isFile, first] at others ⊢
      rw [others]

section Load

variable [YamlReader]

def datumOf (path content : String) : Except DatumFault Datum :=
  if isJsonName path then Datum.ofJson (Files.readable content)
  else YamlReader.read (Files.readable content)

/-- Settings from a given file. A file that cannot be opened counts for nothing, but bytes that
are no text are a fault. -/
def ofFile (files : Files) (path : String) : Except SettingsFault Settings :=
  if path.toList.contains (Char.ofNat 0) then .error .impossiblePath
  else
    match files.status path with
    | .file content => ofDatum (datumOf path content)
    | .undecodable => .error (.undecodable path)
    | .missing | .directory | .locked => .ok {}

def load (files : Files) (path : Option String) (start : Route) :
    Except SettingsFault Settings :=
  match path.or ((find? files start).map Route.text) with
  | some path => ofFile files path
  | none => .ok {}

theorem ofFile_eq_of_agree (left right : Files) (path : String)
    (agree : left.status path = right.status path) : ofFile left path = ofFile right path := by
  simp only [ofFile, agree]

theorem load_eq_of_agree (left right : Files) (path : Option String) (start : Route)
    (agree : left.Agree right (reached path start)) :
    load left path start = load right path start := by
  have found := find?_eq_of_agree left right start fun candidate member =>
    agree candidate (List.mem_append_right _ member)
  unfold load
  rw [found]
  split
  next chosen choice =>
    apply ofFile_eq_of_agree
    apply agree
    cases path with
    | some given =>
        obtain rfl : given = chosen := by simpa using choice
        simp [reached]
    | none =>
        simp only [Option.none_or, Option.map_eq_some_iff] at choice
        obtain ⟨route, hit, rfl⟩ := choice
        exact List.mem_append_right _ (List.mem_map_of_mem (List.mem_of_find?_eq_some hit))
  next => rfl

end Load

end Settings

end TypeInType
