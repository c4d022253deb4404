/-!
# Invocations

What a user asks the program for, and the ways in which the arguments can fail to say it.
-/

namespace Freshness.CommandLine

inductive Command
  | compare (candidate baseline : String)
  | parse (input : String)
  | check (remote : String) (current : Option String) (includePrereleases : Bool)
  deriving DecidableEq, Repr

/-- A command and the settings file that is asked for. -/
structure Invocation where
  settingsPath : Option String
  command : Command
  deriving DecidableEq, Repr

inductive Request
  | run (invocation : Invocation)
  | help
  | version
  deriving DecidableEq, Repr

/-- Why arguments ask for nothing. -/
inductive Misuse
  | missingCommand
  | unknownCommand (name : String)
  | unknownOption (argument : String)
  | missingValue (option : String)
  | unexpectedValue (option : String)
  | repeatedOption (option : String)
  | missingOption (option : String)
  | missingOperand
  | unexpectedOperand (argument : String)
  deriving DecidableEq, Repr

def Misuse.message : Misuse → String
  | missingCommand => "no command is given"
  | unknownCommand name => "there is no command '" ++ name ++ "'"
  | unknownOption argument => "there is no option '" ++ argument ++ "' here"
  | missingValue option => "option '--" ++ option ++ "' needs a value"
  | unexpectedValue option => "option '--" ++ option ++ "' takes no value"
  | repeatedOption option => "option '--" ++ option ++ "' is given twice"
  | missingOption option => "option '--" ++ option ++ "' is required"
  | missingOperand => "an argument is missing"
  | unexpectedOperand argument => "argument '" ++ argument ++ "' is one too many"

end Freshness.CommandLine
