/-
Where the configuration of a run comes from.

There are three layers, each applied over the one before: a configuration to start from,
a settings file, and the environment.  The file is the one that was asked for, or else
one of the usual name in the working directory.  What its text says is for the reader of
its format to tell.  Its settings may stand at the top or in a section named for the rule.
-/
import DocLint.Config.Configuration
import DocLint.Config.Content
import DocLint.Files.Tree
import DocLint.Log

namespace DocLint

/-- Why a configuration is rejected. -/
inductive ConfigError where
  | setting (error : SettingError)
  | fileNotFound (path : Path)
  | unreadableFile (path : Path) (error : FileError)
  | unsupportedFormat (suffix : Text)
  | invalidFile (path : Path)
  | notAMapping (path : Path)

def ConfigError.message : ConfigError → Text
  | .setting error => error.message
  | .fileNotFound path => "Configuration file not found: ".toList ++ path.text
  | .unreadableFile path error =>
    "Cannot read configuration file ".toList ++ path.text ++ ": ".toList ++ error.message path
  | .unsupportedFormat suffix => "Unsupported configuration format: ".toList ++ suffix
  | .invalidFile path => "Invalid configuration file ".toList ++ path.text
  | .notAMapping path =>
    "Configuration file ".toList ++ path.text ++ " must contain a mapping".toList

/-- Why there is no configuration. -/
inductive LoadError where
  | rejected (error : ConfigError)
  /-- The file keeps to its format, and there is something in it of which no value can be made. -/
  | faulty (fault : Value.Fault)
  | unreadable (path : Path) (error : FileError)

/-- Why the values in a message cannot be shown, where so many may stand one within another. -/
def SettingError.showFault? (depth : Nat) (error : SettingError) : Option Value.Fault :=
  error.shownValues.findSome? (Value.showFault? (depth + 1))

/-- The error about a setting.  Its message shows a value, and that may be impossible: then there is
another error in its place, which is no rejection. -/
def LoadError.ofSetting (depth : Nat) (error : SettingError) : LoadError :=
  match error.showFault? depth with
  | none => .rejected (.setting error)
  | some fault => .faulty fault

/-- The error about a settings file that cannot be read.  What the system says is a reason to reject
the configuration; a null character in the path and a file that is not UTF-8 are none. -/
def LoadError.ofFile (path : Path) : FileError → LoadError
  | .nullCharacter => .unreadable path .nullCharacter
  | .badEncoding => .unreadable path .badEncoding
  | error => .rejected (.unreadableFile path error)

def LoadError.message : LoadError → Text
  | .rejected error => error.message
  | .faulty fault => fault.message
  | .unreadable path error => error.message path

/-- A configuration or why there is none, and what there is to say about the way to it. -/
structure LoadedConfig where
  result : Except LoadError Configuration
  log : List LogEntry := []

namespace Configuration

/-! ### The file -/

/-- The names of settings files, the first choice first. -/
def fileNames : List Text :=
  [".structdoc.yml".toList, ".structdoc.yaml".toList, ".structdoc.json".toList]

/-- The name of the section with the settings of the rule. -/
def sectionName : Text := "structured_function_doc".toList

/-- Where a settings file may be in the working directory. -/
def usualPlaces (tree : FileTree) : List Path :=
  fileNames.map fun name => ⟨1, tree.workingDirectory ++ [name]⟩

/-- The settings file in the working directory. -/
def usualFile? (tree : FileTree) : Option Path := (usualPlaces tree).find? tree.isFile

/-- Why it cannot be told which is the settings file in the working directory. -/
def usualFailure? (tree : FileTree) : Option (Path × FileError) :=
  ((usualPlaces tree).takeWhile fun p => !tree.isFile p).findSome? fun p =>
    (tree.lookupFailure? p).map (p, ·)

/-- The settings file of a run, if there is to be one. -/
def chosenFile (tree : FileTree) (path : Option Path) : Except LoadError (Option Path) :=
  match path with
  | none =>
    match usualFailure? tree with
    | some (path, error) => .error (.unreadable path error)
    | none => .ok (usualFile? tree)
  | some path =>
    match tree.lookupFailure? path with
    | some error => .error (.unreadable path error)
    | none =>
      if tree.isFile path then .ok (some path) else .error (.rejected (.fileNotFound path))

section Reading

variable {δ : Type} (readers : Readers δ)

/-- The entries at the top of a settings file, from its text. -/
def parse (path : Path) (t : Text) : Except LoadError (List (Value × δ)) :=
  match ConfigFormat.ofSuffix? path.suffix with
  | none => .error (.rejected (.unsupportedFormat (Text.lower path.suffix)))
  | some format =>
    match readers.top? format t with
    | .ok (some top) => .ok top
    | .ok none => .error (.rejected (.notAMapping path))
    | .error .malformed => .error (.rejected (.invalidFile path))
    | .error fault => .error (.faulty fault)

/-- The settings of the rule: those of its section, or all where there is none. -/
def ruleSection (top : List (Value × δ)) : Value :=
  match top.find? fun e => e.1.sameKey (.text sectionName) with
  | some part => readers.settings part.2
  | none => .map (readers.values top)

def fileSettings (tree : FileTree) (path : Path) : Except LoadError Value := do
  let t ← (tree.readText path).mapError (.ofFile path)
  return ruleSection readers (← parse readers path t)

end Reading

/-! ### The environment -/

/-- How the names of variables that count begin. -/
def variablePrefix : Text := "STRUCTDOC_".toList

/-- The setting that a variable is for, its name being in upper or lower case. -/
def variableSetting? (name : Text) : Option Setting :=
  if variablePrefix.isPrefixOf name then
    Setting.ofName? (Text.lower (name.drop variablePrefix.length))
  else none

/-- The value of a variable: an integer where it reads as one. -/
def variableValue (t : Text) : Value :=
  match Text.toInt? t with
  | some n => .int n
  | none => .text (Text.trim t)

/-- The settings in the environment. -/
def overrides (environment : List (Text × Text)) : List (Value × Value) :=
  environment.foldl (fun seen v => match variableSetting? v.1 with
    | some setting => Value.put (.text setting.name) (variableValue v.2) seen
    | none => seen) []

/-- What there is to say about settings in the environment. -/
def overridesEntry (pairs : List (Value × Value)) : LogEntry :=
  let names := (pairs.map (·.1.plain)).mergeSort Text.atMost
  ⟨.debug, .config,
    "Applying environment overrides: ".toList ++ (Value.list (names.map .text)).shown⟩

/-! ### Loading -/

/-- The configuration with the settings in the environment taken over. -/
def withEnvironment (c : Configuration) (depth : Nat) (environment : List (Text × Text)) :
    LoadedConfig :=
  match overrides environment with
  | [] => ⟨.ok c, []⟩
  | pairs => ⟨(c.applyPairs pairs).mapError (.ofSetting depth), [overridesEntry pairs]⟩

/-- The configuration of a run, from a configuration to start from. -/
def load {δ : Type} (readers : Readers δ) (tree : FileTree) (path : Option Path)
    (environment : List (Text × Text)) (base : Configuration) : LoadedConfig :=
  match chosenFile tree path with
  | .error error => ⟨.error error, []⟩
  | .ok none => base.withEnvironment readers.shownDepth environment
  | .ok (some path) =>
    match fileSettings readers tree path with
    | .error error => ⟨.error error, []⟩
    | .ok settings =>
      let log : List LogEntry :=
        [⟨.debug, .config, "Loaded configuration from ".toList ++ path.text⟩]
      match base.apply settings with
      | .error error => ⟨.error (.ofSetting readers.shownDepth error), log⟩
      | .ok c =>
        let rest := c.withEnvironment readers.shownDepth environment
        { rest with log := log ++ rest.log }

end Configuration

end DocLint
