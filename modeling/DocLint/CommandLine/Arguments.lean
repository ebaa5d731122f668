/-
What the arguments of a command line ask for.

Options and paths may stand in any order; two hyphens alone end the options.  A value
follows its option, or is joined to it: with an equals sign to a long name, with nothing
between to a letter.  Letters may share one hyphen.  Of an option that is given several
times the last value counts.
-/
import DocLint.CommandLine.Request
import DocLint.Text.Integer

namespace DocLint

/-! ### Options -/

/-- The options. -/
inductive Flag where
  | config
  | format
  | output
  | minSeverity
  | jobs
  | strict
  | verbose
  | debug
  | help
  deriving Repr, DecidableEq

namespace Flag

/-- The name behind two hyphens. -/
def longName : Flag → Text
  | config => "config".toList
  | format => "format".toList
  | output => "output".toList
  | minSeverity => "min-severity".toList
  | jobs => "jobs".toList
  | strict => "strict".toList
  | verbose => "verbose".toList
  | debug => "debug".toList
  | help => "help".toList

/-- The letter behind one hyphen. -/
def letter? : Flag → Option Char
  | config => some 'c'
  | format => some 'f'
  | output => some 'o'
  | minSeverity => some 's'
  | jobs => some 'j'
  | verbose => some 'v'
  | strict => none
  | debug => none
  | help => none

/-- Does the option have a value? -/
def hasValue : Flag → Bool
  | config => true
  | format => true
  | output => true
  | minSeverity => true
  | jobs => true
  | strict => false
  | verbose => false
  | debug => false
  | help => false

/-- The options of the command that checks files. -/
def ofLint : List Flag :=
  [config, format, output, minSeverity, jobs, strict, verbose, debug, help]

/-- The options of the command that lists the rules. -/
def ofRules : List Flag := [config, help]

end Flag

/-- Is the argument an option?  A hyphen alone is none. -/
def isOption (argument : Text) : Bool := argument.head? == some '-' && 1 < argument.length

/-- The options in one argument, and the one whose value is in the next argument. -/
structure OptionGroup where
  given : List (Flag × Text) := []
  pending : Option Flag := none

namespace OptionGroup

def ofLong? (flags : List Flag) (body : Text) : Option OptionGroup := do
  let flag ← flags.find? fun f => f.longName == Text.beforeChar '=' body
  match flag.hasValue, body.drop flag.longName.length with
  | true, _ :: value => return ⟨[(flag, value)], none⟩
  | true, [] => return ⟨[], some flag⟩
  | false, [] => return ⟨[(flag, [])], none⟩
  | false, _ :: _ => none

def ofLetters? (flags : List Flag) : Text → Option OptionGroup
  | [] => some {}
  | c :: r => do
    let flag ← flags.find? fun f => f.letter? == some c
    if flag.hasValue then
      return if r.isEmpty then ⟨[], some flag⟩ else ⟨[(flag, r)], none⟩
    else
      let more ← ofLetters? flags r
      return { more with given := (flag, []) :: more.given }

def ofArgument? (flags : List Flag) : Text → Option OptionGroup
  | '-' :: '-' :: body => ofLong? flags body
  | _ :: letters => ofLetters? flags letters
  | [] => none

end OptionGroup

/-- Arguments, taken apart. -/
structure Arguments where
  /-- The options with their values, in order. -/
  given : List (Flag × Text) := []
  /-- All that is no option. -/
  operands : List Text := []

namespace Arguments

def withOptions (a : Arguments) (given : List (Flag × Text)) : Arguments :=
  { a with given := given ++ a.given }

/-- Takes arguments apart, unless an option is unknown or lacks its value. -/
def ofTexts? (flags : List Flag) : List Text → Option Arguments
  | [] => some {}
  | argument :: more =>
    if argument = "--".toList then some { operands := more }
    else if isOption argument then
      match OptionGroup.ofArgument? flags argument with
      | none => none
      | some ⟨given, none⟩ => (ofTexts? flags more).map fun a => a.withOptions given
      | some ⟨given, some flag⟩ =>
        match more with
        | [] => none
        | value :: more =>
          (ofTexts? flags more).map fun a => a.withOptions (given ++ [(flag, value)])
    else (ofTexts? flags more).map fun a => { a with operands := argument :: a.operands }

/-- The value of an option: the last one given. -/
def value? (a : Arguments) (flag : Flag) : Option Text :=
  (a.given.reverse.find? fun g => g.1 == flag).map (·.2)

/-- Is an option given? -/
def has (a : Arguments) (flag : Flag) : Bool := (a.value? flag).isSome

def path? (a : Arguments) (flag : Flag) : Option Path := (a.value? flag).map Path.ofText

end Arguments

/-! ### Requests -/

/-- A path, as arguments may give it. -/
def checkPath (t : Text) : Except ArgumentFault Path :=
  let path := Path.ofText t
  if path.hasNull then .error (.nullCharacter path) else .ok path

namespace Arguments

/-- What is wrong with the value of an option. -/
def checkValue (a : Arguments) (flag : Flag) : Except ArgumentFault Unit :=
  match flag, a.value? flag with
  | .jobs, some value => if (Text.count? value).isSome then .ok () else .error .misuse
  | .config, some value => (checkPath value).map fun _ => ()
  | .output, some value => (checkPath value).map fun _ => ()
  | _, _ => .ok ()

/-- Checks the values of the options, in the order in which these are given. -/
def checkValues (a : Arguments) : Except ArgumentFault Unit := a.given.forM fun g => a.checkValue g.1

end Arguments

namespace Request

/-- A request to check files; at least one path has to be given. -/
def ofLint (a : Arguments) : Except ArgumentFault Request :=
  if a.has .help then .ok .help
  else do
    a.checkValues
    if a.operands.isEmpty then throw .misuse
    return .lint {
      paths := ← a.operands.mapM checkPath
      config := a.path? .config
      format := (a.value? .format).getD "console".toList
      output := a.path? .output
      minSeverity := (a.value? .minSeverity).getD []
      jobs := ((a.value? .jobs).bind Text.count?).getD 1
      isStrict := a.has .strict
      isVerbose := a.has .verbose
      isDebug := a.has .debug }

/-- A request to list the rules; there is nothing to name. -/
def ofRules (a : Arguments) : Except ArgumentFault Request :=
  if a.has .help then .ok .help
  else do
    a.checkValues
    if a.operands.isEmpty then return .rules (a.path? .config) else throw .misuse

def ofCommand : List Text → Except ArgumentFault Request
  | [] => .error .misuse
  | command :: arguments =>
    let takenApart := fun (flags : List Flag) => match Arguments.ofTexts? flags arguments with
      | some a => Except.ok a
      | none => .error ArgumentFault.misuse
    if command = "lint".toList then takenApart Flag.ofLint >>= ofLint
    else if command = "rules".toList then takenApart Flag.ofRules >>= ofRules
    else .error .misuse

/-- The request that arguments stand for, if they stand for one.  Before the command only help can
be asked for. -/
def ofArguments (arguments : List Text) : Except ArgumentFault Request :=
  let (helps, rest) := arguments.span fun a => a == "--help".toList
  match rest with
  | [] => if helps.isEmpty then .error .misuse else .ok .help
  | first :: more =>
    let endsOptions := first = "--".toList
    if isOption first && !endsOptions then .error .misuse
    else if !helps.isEmpty then .ok .help
    else ofCommand (if endsOptions then more else rest)

end Request

end DocLint
