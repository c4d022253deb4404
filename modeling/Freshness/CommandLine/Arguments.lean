import Freshness.CommandLine.Invocation

/-!
# Reading arguments

Arguments are read from the first to the last.  Options before the name of the command belong to
the program and those after it to the command.  An option is written out, as `--remote 1.0.0` or
`--remote=1.0.0`, or by its letter, as `-r 1.0.0`, `-r1.0.0` or `-r=1.0.0`.  An argument that starts
with a hyphen is never the value of the option before it; after `--` it is an operand.  Asking for
help or for the version of the program ends the reading at once, as does the first misuse.
-/

namespace Freshness.CommandLine

inductive Opt
  | config
  | remote
  | current
  | includePrereleases
  | help
  | version
  deriving DecidableEq, Repr

namespace Opt

def name : Opt → String
  | config => "config"
  | remote => "remote"
  | current => "current"
  | includePrereleases => "include-prereleases"
  | help => "help"
  | version => "version"

def letter? : Opt → Option Char
  | config => some 'c'
  | remote => some 'r'
  | help => some 'h'
  | version => some 'V'
  | current | includePrereleases => none

def takesValue : Opt → Bool
  | config | remote | current => true
  | includePrereleases | help | version => false

end Opt

inductive CommandName
  | compare
  | parse
  | check
  | help
  deriving DecidableEq, Repr

namespace CommandName

def ofString? (name : String) : Option CommandName :=
  if name = "compare" then some compare
  else if name = "parse" then some parse
  else if name = "check" then some check
  else if name = "help" then some help
  else none

def options : CommandName → List Opt
  | compare | parse => [.config, .help]
  | check => [.remote, .current, .includePrereleases, .config, .help]
  | help => []

def arity : CommandName → Nat
  | compare => 2
  | parse => 1
  | check => 0
  | help => 1

end CommandName

/-- The options that stand before the name of a command. -/
def programOptions : List Opt := [.config, .help, .version]

/-- Options and their values; a flag has the empty value. -/
abbrev Given := List (Opt × String)

/-- What has been read so far. -/
structure Reading where
  /-- The command, once its name has been read. -/
  command : Option CommandName := none
  /-- The options before the name of the command. -/
  outer : Given := []
  /-- The options after it. -/
  inner : Given := []
  /-- The operands of the command. -/
  operands : List String := []
  /-- The option whose value comes next. -/
  awaiting : Option Opt := none
  /-- Whether all that follows are operands. -/
  operandsOnly : Bool := false

/-- What ends the reading before the last argument. -/
inductive Interruption
  | help
  | version
  | misuse (cause : Misuse)
  deriving DecidableEq, Repr

namespace Reading

def accepted (reading : Reading) : List Opt :=
  match reading.command with
  | some command => command.options
  | none => programOptions

/-- The options given so far on the present side of the name of the command. -/
def given (reading : Reading) : Given :=
  match reading.command with
  | some _ => reading.inner
  | none => reading.outer

def record (reading : Reading) (option : Opt) (value : String) : Except Interruption Reading :=
  if option = .help then .error .help
  else if option = .version then .error .version
  else if (reading.given.lookup option).isSome then
    .error (.misuse (.repeatedOption option.name))
  else if reading.command.isSome then
    .ok { reading with inner := (option, value) :: reading.inner, awaiting := none }
  else .ok { reading with outer := (option, value) :: reading.outer, awaiting := none }

/-- Takes an operand; the first one is the name of the command. -/
def addOperand (reading : Reading) (argument : String) : Except Interruption Reading :=
  match reading.command with
  | some command =>
    if reading.operands.length < command.arity then
      .ok { reading with operands := reading.operands ++ [argument] }
    else .error (.misuse (.unexpectedOperand argument))
  | none =>
    if reading.operandsOnly then .error (.misuse (.unexpectedOperand argument))
    else
      match CommandName.ofString? argument with
      | some command =>
        .ok { reading with command := some command, operandsOnly := command = .help }
      | none => .error (.misuse (.unknownCommand argument))

/-- Takes an option that is written out, without its hyphens. -/
def addLong (reading : Reading) (text : List Char) : Except Interruption Reading :=
  let (name, rest) := text.span (· ≠ '=')
  match reading.accepted.find? (·.name.toList = name) with
  | none => .error (.misuse (.unknownOption ("--" ++ String.ofList name)))
  | some option =>
    match option.takesValue, rest with
    | true, [] => .ok { reading with awaiting := some option }
    | true, _ :: value => reading.record option (String.ofList value)
    | false, [] => reading.record option ""
    | false, _ :: _ => .error (.misuse (.unexpectedValue option.name))

/-- The value that is written behind the letter of an option. -/
def attachedValue : List Char → String
  | '=' :: value => String.ofList value
  | value => String.ofList value

def addLetters (reading : Reading) : List Char → Except Interruption Reading
  | [] => .ok reading
  | letter :: rest =>
    match reading.accepted.find? (·.letter? = some letter) with
    | none => .error (.misuse (.unknownOption ("-" ++ letter.toString)))
    | some option =>
      if !option.takesValue then do
        let reading ← reading.record option ""
        reading.addLetters rest
      else if rest.isEmpty then .ok { reading with awaiting := some option }
      else reading.record option (attachedValue rest)

def looksLikeOption (argument : String) : Bool :=
  argument.toList.head? = some '-' && argument ≠ "-"

def add (reading : Reading) (argument : String) : Except Interruption Reading :=
  match reading.awaiting with
  | some option =>
    if looksLikeOption argument then .error (.misuse (.missingValue option.name))
    else reading.record option argument
  | none =>
    if reading.operandsOnly || !looksLikeOption argument then reading.addOperand argument
    else
      match argument.toList with
      | '-' :: '-' :: [] => .ok { reading with operandsOnly := true }
      | '-' :: '-' :: text => reading.addLong text
      | _ => reading.addLetters argument.toList.tail

def command? (reading : Reading) : Except Interruption Command :=
  match reading.command, reading.operands with
  | some .compare, [candidate, baseline] => .ok (.compare candidate baseline)
  | some .parse, [input] => .ok (.parse input)
  | some .check, [] =>
    match reading.inner.lookup .remote with
    | some remote =>
      .ok (.check remote (reading.inner.lookup .current)
        (reading.inner.lookup .includePrereleases).isSome)
    | none => .error (.misuse (.missingOption Opt.remote.name))
  | some .help, [] => .error .help
  | some .help, name :: _ =>
    match CommandName.ofString? name with
    | some _ => .error .help
    | none => .error (.misuse (.unknownCommand name))
  | some _, _ => .error (.misuse .missingOperand)
  | none, _ => .error (.misuse .missingCommand)

/-- The invocation that has been read.  A settings file named after the command is preferred to one
named before it. -/
def finish (reading : Reading) : Except Interruption Invocation :=
  match reading.awaiting with
  | some option => .error (.misuse (.missingValue option.name))
  | none => do
    let command ← reading.command?
    let settingsPath := reading.inner.lookup .config <|> reading.outer.lookup .config
    return { settingsPath, command }

end Reading

def Request.ofArguments (arguments : List String) : Except Misuse Request :=
  match arguments.foldlM Reading.add {} >>= Reading.finish with
  | .ok invocation => .ok (.run invocation)
  | .error .help => .ok .help
  | .error .version => .ok .version
  | .error (.misuse cause) => .error cause

end Freshness.CommandLine
