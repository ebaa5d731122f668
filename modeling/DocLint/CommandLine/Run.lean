/-
What a command line does.

A run is a function of what is asked for, the environment and the files.  It says what is
printed, which file is written, and how the run ends; nothing is done here.  Of several
things that are wrong the first counts: a path that leads nowhere, the format, the
configuration, the bound of the grade.

How arguments are taken apart, how a settings file is read and how a console shows a report
is not decided here: a run is given the request, the readers and the console.
-/
import DocLint.CommandLine.Request
import DocLint.Config.Load
import DocLint.Lint.Run
import DocLint.Report.Console

namespace DocLint

/-! ### Endings -/

/-- What can go wrong beyond what a run checks for. -/
inductive Failure where
  /-- A path cannot be one of a file, or no report can be written to it. -/
  | badPath (path : Path) (error : FileError)
  /-- The settings file is no text, or there is a fault in it. -/
  | badSettings (error : LoadError)
  /-- The console cannot show the report. -/
  | badMarkup (error : MarkupError)

def Failure.message : Failure → Text
  | .badPath path error => error.message path
  | .badSettings error => error.message
  | .badMarkup error => "The report cannot be shown: ".toList ++ error.message

/-- How a run ends. -/
inductive Ending where
  | done
  /-- There are findings, and there should be none. -/
  | violations
  | misused
  | pathNotFound (path : Path)
  | unknownFormat (name : Text)
  | rejectedConfig (error : ConfigError)
  | unknownSeverity (name : Text)
  | failed (failure : Failure)

namespace Ending

def exitCode : Ending → Nat
  | done => 0
  | violations => 1
  | misused => 2
  | pathNotFound _ => 1
  | unknownFormat _ => 2
  | rejectedConfig _ => 2
  | unknownSeverity _ => 2
  | failed _ => 1

/-- What is wrong, if it is one of the things that a run checks for. -/
def error? : Ending → Option Text
  | pathNotFound path => some ("Path not found: ".toList ++ path.text)
  | unknownFormat name => some ("Unknown format: ".toList ++ name)
  | rejectedConfig error => some error.message
  | unknownSeverity name => some ("Unknown severity: ".toList ++ name)
  | _ => none

end Ending

/-- What a run prints and writes, and how it ends. -/
structure RunResult where
  ending : Ending
  output : Text := []
  /-- The entries of the log that are shown. -/
  log : List LogEntry := []
  /-- The file that is written, and what is written to it. -/
  written : Option (List Text × Text) := none

namespace RunResult

/-- The result with entries of the log before its own. -/
def after (log : List LogEntry) (r : RunResult) : RunResult := { r with log := log ++ r.log }

/-- What is printed beside the output: the log, and what is wrong. -/
def messages (r : RunResult) : Text :=
  Report.printed (r.log.map LogEntry.text
    ++ (r.ending.error?.map fun error => "Error: ".toList ++ error).toList)

end RunResult

/-! ### Formats -/

inductive ReportFormat where
  | console
  | json
  | xcode
  deriving Repr, DecidableEq

def ReportFormat.ofName? (name : Text) : Option ReportFormat :=
  if name = "console".toList then some .console
  else if name = "json".toList then some .json
  else if name = "xcode".toList then some .xcode
  else none

/-- A report as a text for other programs. -/
def Report.document (r : Report) : ReportFormat → Text
  | .json => r.toJson
  | _ => r.toXcode

namespace CommandLine

variable {δ : Type} (readers : Readers δ) (renderer : Renderer)

/-! ### Checking files -/

/-- The bound of the grade that a name stands for; an empty name sets none. -/
def bound? (name : Text) : Option (Option Severity) :=
  if name.isEmpty then some none else (Severity.ofName? (Text.lower name)).map some

/-- A report with nothing below a bound. -/
def bounded (bound : Option Severity) (r : Report) : Report :=
  match bound with
  | none => r
  | some severity => r.atLeast severity

/-- The ending of a check that has come to a report. -/
def verdict (isStrict : Bool) (r : Report) : Ending :=
  if isStrict && r.hasViolations then .violations else .done

def showReport (isStrict : Bool) (r : Report) : RunResult :=
  let shown := r.console renderer
  match shown.failure with
  | some error => { ending := .failed (.badMarkup error), output := shown.text }
  | none => { ending := verdict isStrict r, output := shown.text }

def saveReport (tree : FileTree) (isStrict : Bool) (r : Report) (document : Text) (path : Path) :
    RunResult :=
  match tree.writablePlace path with
  | .error error => { ending := .failed (.badPath path error) }
  | .ok place =>
    { ending := verdict isStrict r
      output := Report.printed ["Report written to ".toList ++ path.text]
      written := some (place, document ++ ['\n']) }

/-- Hands a report over in the way that is asked for.  The console takes no notice of a file. -/
def deliver (tree : FileTree) (options : LintOptions) (format : ReportFormat) (r : Report) :
    RunResult :=
  match format, options.output with
  | .console, _ => showReport renderer options.isStrict r
  | format, some path => saveReport tree options.isStrict r (r.document format) path
  | format, none =>
    let document := r.document format
    { ending := verdict options.isStrict r
      output := if document.isEmpty then [] else Report.printed [document] }

/-- The entries of a log that the options ask to be shown. -/
def shownLog (options : LintOptions) (log : List LogEntry) : List LogEntry :=
  log.filter fun entry => options.logLevel.rank ≤ entry.level.rank

/-- Checks files under a configuration. -/
def lintWith (tree : FileTree) (options : LintOptions) (format : ReportFormat)
    (config : Configuration) : RunResult :=
  match bound? options.minSeverity with
  | none => { ending := .unknownSeverity options.minSeverity }
  | some bound =>
    let rules := Registry.builtIn.allRules config
    let report := bounded bound (lintPaths tree rules options.paths)
    (deliver renderer tree options format report).after
      (shownLog options (lintLog tree rules options.paths))

/-- What is wrong with the paths of the files to check. -/
def pathProblem? (tree : FileTree) (paths : List Path) : Option Ending :=
  let failure := paths.findSome? fun p =>
    (tree.lookupFailure? p).map fun error => Ending.failed (.badPath p error)
  failure.or ((paths.find? fun p => !tree.leadsSomewhere p).map .pathNotFound)

/-- Checks files. -/
def lint (tree : FileTree) (environment : List (Text × Text)) (options : LintOptions) :
    RunResult :=
  match pathProblem? tree options.paths with
  | some ending => { ending }
  | none =>
    match ReportFormat.ofName? options.format with
    | none => { ending := .unknownFormat options.format }
    | some format =>
      let loaded := Configuration.load readers tree options.config environment {}
      let result : RunResult := match loaded.result with
        | .error (.rejected error) => { ending := .rejectedConfig error }
        | .error error => { ending := .failed (.badSettings error) }
        | .ok config => lintWith renderer tree options format config
      result.after (shownLog options loaded.log)

/-! ### Listing rules -/

def ruleLines (entry : Text × RuleDescription) : List Text :=
  let (identifier, rule) := entry
  [identifier ++ " (".toList ++ rule.kind.name ++ ")".toList,
    "  ".toList ++ rule.name ++ ": ".toList ++ rule.purpose]

/-- Lists rules, and under each the configuration that it works under.  If that cannot be written
the list ends at it. -/
def listRules (config : Configuration) (entries : List (Text × RuleDescription)) : RunResult :=
  let settings := "  ".toList ++ config.description
  if config.isWritable then
    { ending := .done
      output := Report.printed (entries.flatMap fun entry => ruleLines entry ++ [settings]) }
  else
    { ending := .failed (.badSettings (.faulty .unwritable))
      output := Report.printed ((entries.take 1).flatMap ruleLines) }

def rules (tree : FileTree) (environment : List (Text × Text)) (path : Option Path) : RunResult :=
  match (Configuration.load readers tree path environment {}).result with
  | .error (.rejected error) => { ending := .rejectedConfig error }
  | .error error => { ending := .failed (.badSettings error) }
  | .ok config => listRules config Registry.builtIn.entries

/-! ### Runs -/

/-- How the program is used. -/
def usage : List Text :=
  ["Usage: structdoc lint [OPTIONS] PATHS...".toList,
    "       structdoc rules [OPTIONS]".toList,
    "Options: --config, -c FILE; --format, -f console|json|xcode; --output, -o FILE;".toList,
    "  --min-severity, -s warning|error; --strict; --jobs, -j N; --verbose, -v; --debug".toList]

/-- Does what is asked for, or says why nothing is. -/
def run (tree : FileTree) (environment : List (Text × Text))
    (request : Except ArgumentFault Request) : RunResult :=
  match request with
  | .error .misuse => { ending := .misused }
  | .error (.nullCharacter path) => { ending := .failed (.badPath path .nullCharacter) }
  | .ok .help => { ending := .done, output := Report.printed usage }
  | .ok (.lint options) => lint readers renderer tree environment options
  | .ok (.rules path) => rules readers tree environment path

end CommandLine

end DocLint
