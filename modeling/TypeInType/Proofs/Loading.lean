import Mathlib
import TypeInType.Datum.Flat
import TypeInType.Diagnosis
import TypeInType.Proofs.Numerals
import TypeInType.Settings.Read

/-!
When settings can be loaded, whatever reader of YAML there is. A file that is not there, cannot be
opened or holds no record leaves all settings as they are. A record is loaded where its limit
counts as a whole number and its texts can be written down; any other value under one of these
keys is handed on as a fault, and not replaced by what the setting is without it. So are bytes
that are no text.
-/

namespace TypeInType

def Binary64.CutsTo (negative : Bool) (mantissa : Nat) (exponent number : Int) : Prop :=
  ∃ magnitude : Nat, number = Whole.withSign negative magnitude ∧
    magnitude * powerOf 2 (-exponent) ≤ mantissa * powerOf 2 exponent ∧
      mantissa * powerOf 2 exponent < (magnitude + 1) * powerOf 2 (-exponent)

theorem Binary64.truncated_eq_iff (negative : Bool) (mantissa : Nat) (exponent number : Int) :
    truncated negative mantissa exponent = number ↔ CutsTo negative mantissa exponent number := by
  have unit : 0 < powerOf 2 (-exponent) := Nat.pow_pos (by decide)
  constructor
  · rintro rfl
    refine ⟨mantissa * powerOf 2 exponent / powerOf 2 (-exponent), rfl, ?_, ?_⟩
    · exact Nat.div_mul_le_self _ _
    · exact (Nat.div_lt_iff_lt_mul unit).mp (Nat.lt_succ_self _)
  · rintro ⟨magnitude, rfl, least, less⟩
    have same : mantissa * powerOf 2 exponent / powerOf 2 (-exponent) = magnitude :=
      Nat.div_eq_of_lt_le least less
    rw [truncated, same]
    rfl

namespace Datum

def CountsAs : Datum → Int → Prop
  | .boolean value, number => number = if value then 1 else 0
  | .integer value, number => number = value
  | .decimal (.finite negative mantissa exponent), number =>
      Binary64.CutsTo negative mantissa exponent number
  | .text value, number => Whole.Numeral value number
  | .foreign value, number => value.whole = .ok number
  | _, _ => False

theorem whole_eq_ok_iff (value : Datum) (number : Int) :
    value.whole = .ok number ↔ value.CountsAs number := by
  cases value with
  | null => simp [whole, CountsAs]
  | boolean value => simp [whole, CountsAs, eq_comm]
  | integer value => simp [whole, CountsAs, eq_comm]
  | decimal value =>
      cases value with
      | finite negative mantissa exponent =>
          rw [whole, Except.ok.injEq, Binary64.truncated_eq_iff, CountsAs]
      | infinite negative => simp [whole, CountsAs]
      | nan => simp [whole, CountsAs]
  | text value =>
      rw [whole, CountsAs, ← Whole.ofText_eq_ok_iff]
      cases Whole.ofText value with
      | ok number => simp
      | error fault => cases fault <;> simp
  | list items => simp [whole, CountsAs]
  | record entries => simp [whole, CountsAs]
  | foreign value =>
      rw [whole, CountsAs]
      cases value.whole <;> simp [Except.mapError]

def FlagIs (value : Datum) (flag : Bool) : Prop :=
  flag = value.isTruthy

/-- The datum can be written down, and so. What a text stands for is the text itself. -/
def TextIs (value : Datum) (shown : String) : Prop :=
  match value with
  | .text value => shown = value.shown
  | .foreign value => value.text? = some shown
  | value => value.hasFewDigits = true ∧ shown = value.literal

def LevelIs (value : Datum) (level : String) : Prop :=
  ∃ text, value.TextIs text ∧ level = uppercase text

theorem flag_eq_ok_iff (value : Datum) (flag : Bool) :
    (.ok value.isTruthy : Except SettingsFault Bool) = .ok flag ↔ value.FlagIs flag := by
  rw [Except.ok.injEq, eq_comm, FlagIs]

theorem display_eq_ok_iff (value : Datum) (text : String) :
    value.display = .ok text ↔ value.TextIs text := by
  have shown : value.display = .ok text ↔ value.display? = some text := by
    rw [display]
    cases value.display? <;> simp
  have unlessLong (few : Bool) (literal : String) :
      (if few then some literal else none) = some text ↔ few = true ∧ text = literal := by
    cases few <;> simp [eq_comm]
  rw [shown]
  cases value with
  | text value => rw [display?, TextIs, Option.some.injEq, eq_comm]
  | foreign value => exact Iff.rfl
  | _ =>
      rw [display?, TextIs]
      · exact unlessLong _ _
      all_goals simp

theorem level_eq_ok_iff (value : Datum) (level : String) :
    value.display.map uppercase = .ok level ↔ value.LevelIs level := by
  have mapped : value.display.map uppercase = .ok level ↔
      ∃ text, value.display = .ok text ∧ level = uppercase text := by
    cases value.display <;> simp [Except.map, eq_comm]
  rw [mapped, LevelIs]
  simp only [display_eq_ok_iff]

end Datum

namespace Settings

def Tells {α : Type} (entries : List (LooseText × Datum)) (key : String)
    (means : Datum → α → Prop) (preset setting : α) : Prop :=
  match Datum.get? entries (.ofString key) with
  | some value => means value setting
  | none => setting = preset

theorem entryOr_eq_ok_iff {α : Type} {take : Datum → Except SettingsFault α}
    {means : Datum → α → Prop}
    (taken : ∀ value setting, take value = .ok setting ↔ means value setting)
    (entries : List (LooseText × Datum)) (key : String) (preset setting : α) :
    entryOr entries key take preset = .ok setting ↔ Tells entries key means preset setting := by
  rw [entryOr, Tells]
  cases Datum.get? entries (.ofString key) with
  | none => simp [eq_comm]
  | some value => exact taken value setting

structure Reflects (entries : List (LooseText × Datum)) (settings : Settings) : Prop where
  captureAvoiding : Tells entries "capture_avoiding" Datum.FlagIs
    ({} : Settings).captureAvoiding settings.captureAvoiding
  contextFallthrough : Tells entries "context_fallthrough" Datum.FlagIs
    ({} : Settings).contextFallthrough settings.contextFallthrough
  skipAfterSubstitution : Tells entries "skip_after_substitution" Datum.FlagIs
    ({} : Settings).skipAfterSubstitution settings.skipAfterSubstitution
  checkExpressionSteps : Tells entries "check_expr_steps" Datum.FlagIs
    ({} : Settings).checkExpressionSteps settings.checkExpressionSteps
  haltOnError : Tells entries "halt_on_error" Datum.FlagIs
    ({} : Settings).haltOnError settings.haltOnError
  maxReductionSteps : Tells entries "max_reduction_steps" Datum.CountsAs
    ({} : Settings).maxReductionSteps settings.maxReductionSteps
  format : Tells entries "format" Datum.TextIs ({} : Settings).format settings.format
  logLevel : Tells entries "log_level" Datum.LevelIs ({} : Settings).logLevel settings.logLevel

theorem ofRecord_eq_ok_iff (entries : List (LooseText × Datum)) (settings : Settings) :
    ofRecord entries = .ok settings ↔ Reflects entries settings := by
  simp only [ofRecord, bind_eq_ok_iff, entryOr_eq_ok_iff Datum.flag_eq_ok_iff,
    entryOr_eq_ok_iff Datum.whole_eq_ok_iff, entryOr_eq_ok_iff Datum.display_eq_ok_iff,
    entryOr_eq_ok_iff Datum.level_eq_ok_iff]
  constructor
  · rintro ⟨avoiding, isAvoiding, through, isThrough, skips, isSkips, checks, isChecks, halts,
      isHalts, limit, isLimit, format, isFormat, level, isLevel, same⟩
    obtain rfl := Except.ok.inj same
    exact ⟨isAvoiding, isThrough, isSkips, isChecks, isHalts, isLimit, isFormat, isLevel⟩
  · intro reflects
    exact ⟨_, reflects.captureAvoiding, _, reflects.contextFallthrough, _,
      reflects.skipAfterSubstitution, _, reflects.checkExpressionSteps, _, reflects.haltOnError, _,
      reflects.maxReductionSteps, _, reflects.format, _, reflects.logLevel, rfl⟩

/-! ## Entries that can be used -/

def keys : List String :=
  ["capture_avoiding", "context_fallthrough", "skip_after_substitution", "check_expr_steps",
    "halt_on_error", "max_reduction_steps", "format", "log_level"]

section Tells

variable {α : Type} {entries other : List (LooseText × Datum)} {key : String}
  {means : Datum → α → Prop} {preset setting : α}

theorem Tells.congr (tells : Tells entries key means preset setting)
    (same : Datum.get? entries (.ofString key) = Datum.get? other (.ofString key)) :
    Tells other key means preset setting := by
  rw [Tells, same] at tells
  exact tells

theorem Tells.of_entry (tells : Tells entries key means preset setting) {value : Datum}
    (found : Datum.get? entries (.ofString key) = some value) : means value setting := by
  rw [Tells, found] at tells
  exact tells

theorem exists_tells (entries : List (LooseText × Datum)) (key : String) (preset : α)
    (usable : ∀ value, Datum.get? entries (.ofString key) = some value →
      ∃ setting, means value setting) :
    ∃ setting, Tells entries key means preset setting := by
  unfold Tells
  cases found : Datum.get? entries (.ofString key) with
  | none => exact ⟨preset, rfl⟩
  | some value => exact usable value found

end Tells

theorem Reflects.congr {entries other : List (LooseText × Datum)} {settings : Settings}
    (reflects : Reflects entries settings)
    (agree : ∀ key ∈ keys,
      Datum.get? entries (.ofString key) = Datum.get? other (.ofString key)) :
    Reflects other settings where
  captureAvoiding := reflects.captureAvoiding.congr (agree _ (by decide))
  contextFallthrough := reflects.contextFallthrough.congr (agree _ (by decide))
  skipAfterSubstitution := reflects.skipAfterSubstitution.congr (agree _ (by decide))
  checkExpressionSteps := reflects.checkExpressionSteps.congr (agree _ (by decide))
  haltOnError := reflects.haltOnError.congr (agree _ (by decide))
  maxReductionSteps := reflects.maxReductionSteps.congr (agree _ (by decide))
  format := reflects.format.congr (agree _ (by decide))
  logLevel := reflects.logLevel.congr (agree _ (by decide))

/-- Every datum counts as true or false, so only the limit and the texts can be wrong. -/
structure Usable (entries : List (LooseText × Datum)) : Prop where
  limit : ∀ value, Datum.get? entries (.ofString "max_reduction_steps") = some value →
    ∃ number, value.CountsAs number
  texts : ∀ key ∈ ["format", "log_level"], ∀ value,
    Datum.get? entries (.ofString key) = some value → ∃ text, value.TextIs text

theorem exists_reflects_iff (entries : List (LooseText × Datum)) :
    (∃ settings, Reflects entries settings) ↔ Usable entries := by
  constructor
  · rintro ⟨settings, reflects⟩
    constructor
    · intro value found
      exact ⟨_, reflects.maxReductionSteps.of_entry found⟩
    · intro key isText value found
      rw [List.mem_cons, List.mem_singleton] at isText
      rcases isText with rfl | rfl
      · exact ⟨_, reflects.format.of_entry found⟩
      · obtain ⟨text, isText, _⟩ := reflects.logLevel.of_entry found
        exact ⟨text, isText⟩
  · rintro ⟨limit, texts⟩
    have flag (key : String) (preset : Bool) :
        ∃ setting, Tells entries key Datum.FlagIs preset setting :=
      exists_tells entries key preset fun value _ => ⟨value.isTruthy, rfl⟩
    have isLevel (value : Datum) (shown : ∃ text, value.TextIs text) :
        ∃ level, value.LevelIs level := by
      obtain ⟨text, isText⟩ := shown
      exact ⟨uppercase text, text, isText, rfl⟩
    obtain ⟨avoiding, tellsAvoiding⟩ := flag "capture_avoiding" ({} : Settings).captureAvoiding
    obtain ⟨through, tellsThrough⟩ := flag "context_fallthrough" ({} : Settings).contextFallthrough
    obtain ⟨skips, tellsSkips⟩ :=
      flag "skip_after_substitution" ({} : Settings).skipAfterSubstitution
    obtain ⟨checks, tellsChecks⟩ := flag "check_expr_steps" ({} : Settings).checkExpressionSteps
    obtain ⟨halts, tellsHalts⟩ := flag "halt_on_error" ({} : Settings).haltOnError
    obtain ⟨steps, tellsSteps⟩ := exists_tells entries "max_reduction_steps"
      ({} : Settings).maxReductionSteps limit
    obtain ⟨format, tellsFormat⟩ := exists_tells entries "format" ({} : Settings).format
      (texts "format" (by decide))
    obtain ⟨level, tellsLevel⟩ := exists_tells entries "log_level" ({} : Settings).logLevel
      fun value found => isLevel value (texts "log_level" (by decide) value found)
    exact ⟨⟨avoiding, through, skips, checks, halts, steps, format, level⟩, tellsAvoiding,
      tellsThrough, tellsSkips, tellsChecks, tellsHalts, tellsSteps, tellsFormat, tellsLevel⟩

/-! ## Files -/

def chosen? (files : Files) (path : Option String) (start : Route) : Option String :=
  path.or ((find? files start).map Route.text)

/-- There is a way to the content of the chosen file: its path can be that of a file, and its
bytes are a text. -/
structure Readable (files : Files) (path : Option String) (start : Route) : Prop where
  possible : ∀ chosen ∈ chosen? files path start, Char.ofNat 0 ∉ chosen.toList
  decodes : ∀ chosen ∈ chosen? files path start, files.status chosen ≠ .undecodable

section Load

variable [YamlReader]

def found? (files : Files) (path : Option String) (start : Route) :
    Option (Except DatumFault Datum) :=
  (chosen? files path start).bind fun chosen =>
    match files.status chosen with
    | .file content => some (datumOf chosen content)
    | _ => none

variable {files : Files} {path : Option String} {start : Route} {settings : Settings}

theorem load_of_choice {chosen : String} (choice : chosen? files path start = some chosen) :
    load files path start = ofFile files chosen := by
  rw [load, ← chosen?, choice]

theorem load_eq (readable : Readable files path start) :
    load files path start = (found? files path start).elim (.ok {}) ofDatum := by
  cases choice : chosen? files path start with
  | none =>
      rw [load, ← chosen?, found?, choice]
      rfl
  | some chosen =>
      have plain : ¬chosen.toList.contains (Char.ofNat 0) = true := by
        rw [List.contains_eq_mem, decide_eq_true_eq]
        exact readable.possible chosen choice
      have decodes := readable.decodes chosen choice
      rw [load_of_choice choice, ofFile, if_neg plain, found?, choice, Option.bind_some]
      cases status : files.status chosen with
      | undecodable => exact absurd status decodes
      | _ => rfl

theorem readable_of_load (loaded : load files path start = .ok settings) :
    Readable files path start where
  possible := by
    intro chosen choice impossible
    have refused : chosen.toList.contains (Char.ofNat 0) = true := by
      rw [List.contains_eq_mem, decide_eq_true_eq]
      exact impossible
    rw [load_of_choice choice, ofFile, if_pos refused] at loaded
    cases loaded
  decodes := by
    intro chosen choice undecodable
    rw [load_of_choice choice, ofFile] at loaded
    split at loaded
    · cases loaded
    · rw [undecodable] at loaded
      cases loaded

/-- Nothing stands in the way: the content is read as a datum or refused as malformed, and a
record has a limit and texts that can be used. -/
structure Loadable (files : Files) (path : Option String) (start : Route) : Prop
    extends Readable files path start where
  parses : ∀ fault, found? files path start = some (.error fault) → fault = .malformed
  usable : ∀ entries, found? files path start = some (.ok (.record entries)) → Usable entries

theorem Loadable.of_load (loaded : load files path start = .ok settings) :
    Loadable files path start where
  toReadable := readable_of_load loaded
  parses := by
    intro fault refused
    rw [load_eq (readable_of_load loaded), refused, Option.elim_some] at loaded
    cases fault with
    | malformed => rfl
    | tooLong | noDigits | noCodePoint | other => cases loaded
  usable := by
    intro entries found
    rw [load_eq (readable_of_load loaded), found, Option.elim_some] at loaded
    exact (exists_reflects_iff entries).mp ⟨settings, (ofRecord_eq_ok_iff _ _).mp loaded⟩

theorem load_of_record (loadable : Loadable files path start)
    {entries : List (LooseText × Datum)}
    (found : found? files path start = some (.ok (.record entries))) (settings : Settings) :
    load files path start = .ok settings ↔ Reflects entries settings := by
  rw [load_eq loadable.toReadable, found]
  exact ofRecord_eq_ok_iff entries settings

theorem load_without_record (loadable : Loadable files path start)
    (noRecord : ∀ entries, found? files path start ≠ some (.ok (.record entries))) :
    load files path start = .ok {} := by
  rw [load_eq loadable.toReadable]
  cases found : found? files path start with
  | none => rfl
  | some read =>
      cases read with
      | error fault =>
          obtain rfl := loadable.parses fault found
          rfl
      | ok datum =>
          cases datum with
          | record entries => exact absurd found (noRecord entries)
          | _ => rfl

end Load

/-- Settings are loaded unless the path is impossible, the bytes are no text, the text is refused
in another way than as malformed, or a record has a limit or a text that cannot be used. They are
what the record tells; without a record all are left alone, and unknown keys make no difference. -/
theorem loading_fails_only_on_unusable_values [YamlReader] (files : Files) (path : Option String)
    (start : Route) :
    ((∃ settings, load files path start = .ok settings) ↔ Loadable files path start) ∧
    (Loadable files path start →
      (∀ entries, found? files path start = some (.ok (.record entries)) →
        ∀ settings, load files path start = .ok settings ↔ Reflects entries settings) ∧
      ((∀ entries, found? files path start ≠ some (.ok (.record entries))) →
        load files path start = .ok {})) ∧
    ∀ entries other : List (LooseText × Datum),
      (∀ key ∈ keys, Datum.get? entries (.ofString key) = Datum.get? other (.ofString key)) →
        ∀ settings, Reflects entries settings ↔ Reflects other settings := by
  refine ⟨⟨?_, ?_⟩, ?_, ?_⟩
  · rintro ⟨settings, loaded⟩
    exact .of_load loaded
  · intro loadable
    by_cases isRecord : ∃ entries, found? files path start = some (.ok (.record entries))
    · obtain ⟨entries, found⟩ := isRecord
      have usable := loadable.usable entries found
      obtain ⟨settings, reflects⟩ := (exists_reflects_iff entries).mpr usable
      exact ⟨settings, (load_of_record loadable found settings).mpr reflects⟩
    · exact ⟨{}, load_without_record loadable fun entries found => isRecord ⟨entries, found⟩⟩
  · intro loadable
    exact ⟨fun entries found => load_of_record loadable found, load_without_record loadable⟩
  · intro entries other agree settings
    exact ⟨fun reflects => reflects.congr agree,
      fun reflects => reflects.congr fun key known => (agree key known).symm⟩

/-- The level is written small, and nobody asks for a colour. -/
theorem small_level_is_loaded :
    let content := "log_level: info\ncolour: red\n"
    let files : Files := ⟨[], fun path =>
      if path = "/.pityperc.yml" then .file content else .missing⟩
    Loadable files none [] ∧ load files none [] = .ok { logLevel := "INFO" } := by
  intro content files
  let entries : List (LooseText × Datum) :=
    [(.ofString "log_level", .text (.ofString "info")),
      (.ofString "colour", .text (.ofString "red"))]
  have chosen : chosen? files none [] = some "/.pityperc.yml" := by
    cbv
  have notJson : isJsonName "/.pityperc.yml" = false := by
    cbv
  have plain : Files.readable "log_level: info\ncolour: red\n" = content := by
    cbv
  have read : Datum.ofFlat "log_level: info\ncolour: red\n" = .ok (.record
      [(.ofString "log_level", .text (.ofString "info")),
        (.ofString "colour", .text (.ofString "red"))]) := by
    cbv
  have found : found? files none [] = some (.ok (.record entries)) := by
    show (chosen? files none []).bind _ = _
    rw [chosen, Option.bind_some]
    show some (datumOf "/.pityperc.yml" content) = _
    rw [datumOf, notJson, plain, if_neg Bool.false_ne_true]
    exact congrArg some read
  have reflects : Reflects entries { logLevel := "INFO" } := by
    rw [← ofRecord_eq_ok_iff]
    cbv
  have loadable : Loadable files none [] := by
    refine ⟨⟨?_, ?_⟩, ?_, ?_⟩
    · rw [chosen]
      rintro path ⟨⟩
      decide
    · rw [chosen]
      rintro path ⟨⟩
      simp [files]
    · rw [found]
      rintro fault ⟨⟩
    · rw [found]
      rintro others ⟨⟩
      exact (exists_reflects_iff entries).mp ⟨_, reflects⟩
  obtain ⟨_, loads, _⟩ := loading_fails_only_on_unusable_values files none []
  exact ⟨loadable, ((loads loadable).1 entries found _).mpr reflects⟩

/-- A limit that is nothing is no number, and not replaced by the usual limit either. -/
theorem null_limit_fails :
    let files : Files := ⟨[], fun path =>
      if path = "/.pityperc.json" then .file "\x7b\"max_reduction_steps\": null\x7d"
      else .missing⟩
    found? files none [] = some (.ok (.record [(.ofString "max_reduction_steps", .null)])) ∧
      load files none [] = .error .wrongType := by
  intro files
  have found : found? files none [] =
      some (.ok (.record [(.ofString "max_reduction_steps", .null)])) := by
    cbv
  have chosen : chosen? files none [] = some "/.pityperc.json" := by
    cbv
  have readable : Readable files none [] := by
    constructor
    · rw [chosen]
      rintro path ⟨⟩
      decide
    · rw [chosen]
      rintro path ⟨⟩
      simp [files]
  rw [load_eq readable, found]
  exact ⟨rfl, rfl⟩

end Settings

end TypeInType
