/-
The configuration of the rule: three settings, each checked before it is taken over.

A configuration holds only values that make sense: a grade and two counts that cannot be
negative.  Values from outside come as a mapping (`Configuration.apply`); its pairs are
taken in order, the first bad one is the error, and then nothing is changed.
-/
import DocLint.Severity
import DocLint.Text.LowerCase
import DocLint.Value.Fault

namespace DocLint

/-! ### Settings -/

/-- The names of the settings. -/
inductive Setting where
  | severity
  | maxSummaryLineCount
  | minimalNumberOfParameters
  deriving Repr, DecidableEq

namespace Setting

/-- All settings, in the order in which they are shown. -/
def all : List Setting := [.severity, .maxSummaryLineCount, .minimalNumberOfParameters]

def name : Setting → Text
  | .severity => "severity".toList
  | .maxSummaryLineCount => "max_summary_line_count".toList
  | .minimalNumberOfParameters => "minimal_number_of_parameters".toList

def ofName? (t : Text) : Option Setting := all.find? fun s => s.name == t

/-- The setting of a key of a mapping; only texts name settings. -/
def ofKey? : Value → Option Setting
  | .text t => ofName? t
  | _ => none

end Setting

/-- Why a value is not taken over. -/
inductive SettingError where
  | notAMapping (value : Value)
  | unknownSetting (key : Value)
  | noSuchSeverity (value : Value)
  | notAnInteger (setting : Setting) (value : Value)
  | negative (setting : Setting) (count : Int)

def SettingError.shownValues : SettingError → List Value
  | .notAMapping _ => []
  | .unknownSetting key => [key]
  | .noSuchSeverity value => [value]
  | .notAnInteger _ value => [value]
  | .negative _ count => [.int count]

def SettingError.message : SettingError → Text
  | .notAMapping value => "Rule configuration must be a mapping, got ".toList ++ value.kind
  | .unknownSetting key => "Unknown configuration: ".toList ++ key.plain
  | .noSuchSeverity value =>
    "severity must be one of: ".toList ++ Value.commaList (Severity.all.map Severity.name)
      ++ ", got ".toList ++ value.shown
  | .notAnInteger setting value => setting.name ++ " must be an integer, got ".toList ++ value.shown
  | .negative setting count => setting.name ++ " must be >= 0, got ".toList ++ Text.ofInt count

/-- A count has to be an integer that is not negative; a truth value is no integer. -/
def readCount (setting : Setting) : Value → Except SettingError Nat
  | .int (.ofNat n) => .ok n
  | .int n => .error (.negative setting n)
  | value => .error (.notAnInteger setting value)

/-- A grade is given by its name, in upper or lower case. -/
def readSeverity (value : Value) : Except SettingError Severity :=
  match Severity.ofName? (Text.lower value.plain) with
  | some severity => .ok severity
  | none => .error (.noSuchSeverity value)

/-! ### Configurations -/

/-- The settings of the rule. -/
structure Configuration where
  /-- The grade of the findings. -/
  severity : Severity := .warning
  /-- The most lines of a summary; zero sets no limit. -/
  maxSummaryLineCount : Nat := 1
  /-- Functions with fewer parameters are exempt. -/
  minimalNumberOfParameters : Nat := 3
  deriving Repr, DecidableEq

namespace Configuration

def set (c : Configuration) (setting : Setting) (value : Value) :
    Except SettingError Configuration :=
  match setting with
  | .severity => (readSeverity value).map fun s => { c with severity := s }
  | .maxSummaryLineCount =>
    (readCount setting value).map fun n => { c with maxSummaryLineCount := n }
  | .minimalNumberOfParameters =>
    (readCount setting value).map fun n => { c with minimalNumberOfParameters := n }

/-- The configuration with a pair of a mapping taken over. -/
def applyPair (c : Configuration) (pair : Value × Value) : Except SettingError Configuration :=
  match Setting.ofKey? pair.1 with
  | some setting => c.set setting pair.2
  | none => .error (.unknownSetting pair.1)

/-- The configuration with the pairs of a mapping taken over, one after the other. -/
def applyPairs (c : Configuration) (pairs : List (Value × Value)) :
    Except SettingError Configuration :=
  pairs.foldlM applyPair c

/-- The configuration with a mapping taken over.  The error says what is wrong and which values its
message is to show.  Whether they can be shown is not asked here, but when the message is needed
(`LoadError.ofSetting`). -/
def apply (c : Configuration) : Value → Except SettingError Configuration
  | .map pairs => c.applyPairs pairs
  | value => .error (.notAMapping value)

/-- A configuration from those settings that are given, the others as they are by default. -/
def ofSettings (given : Setting → Option Value) : Except SettingError Configuration :=
  Setting.all.foldlM (fun c s => match given s with
    | some value => c.set s value
    | none => .ok c) {}

/-- The settings as a mapping. -/
def toValue (c : Configuration) : Value :=
  .record [(Setting.severity.name, .text c.severity.name),
    (Setting.maxSummaryLineCount.name, .int c.maxSummaryLineCount),
    (Setting.minimalNumberOfParameters.name, .int c.minimalNumberOfParameters)]

/-- Do the counts have few enough digits to be written? -/
def isWritable (c : Configuration) : Bool :=
  Value.isWritableInt c.maxSummaryLineCount && Value.isWritableInt c.minimalNumberOfParameters

/-- The settings on one line. -/
def description (c : Configuration) : Text :=
  Setting.severity.name ++ ": ".toList ++ c.severity.name ++ ", ".toList
    ++ Setting.maxSummaryLineCount.name ++ ": ".toList ++ Text.ofNat c.maxSummaryLineCount
    ++ ", ".toList ++ Setting.minimalNumberOfParameters.name ++ ": ".toList
    ++ Text.ofNat c.minimalNumberOfParameters

end Configuration

end DocLint
