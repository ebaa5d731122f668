/-
What a command line can ask for.
-/
import DocLint.Files.Path
import DocLint.Log

namespace DocLint

/-- What a check of files is asked to do. -/
structure LintOptions where
  paths : List Path
  config : Option Path := none
  format : Text := "console".toList
  output : Option Path := none
  /-- The name of the least grade to report; an empty one sets no bound. -/
  minSeverity : Text := []
  /-- How many files may be done at a time. -/
  jobs : Nat := 1
  isStrict : Bool := false
  isVerbose : Bool := false
  isDebug : Bool := false
  deriving Repr, DecidableEq

/-- The least level of the log entries to show. -/
def LintOptions.logLevel (o : LintOptions) : LogLevel :=
  if o.isDebug then .debug else if o.isVerbose then .info else .warning

/-- What a command line asks for. -/
inductive Request where
  | lint (options : LintOptions)
  | rules (config : Option Path)
  | help
  deriving Repr, DecidableEq

/-- Why nothing is asked for. -/
inductive ArgumentFault where
  /-- An option or a command is unknown, or something lacks or is too much. -/
  | misuse
  /-- There is a null character in a path. -/
  | nullCharacter (path : Path)
  deriving Repr, DecidableEq

end DocLint
