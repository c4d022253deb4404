/-!
# Terminal output

What a run of the program leaves behind: an exit status and two streams of text.  Parts of a line
may be styled; without styling they are written as they are.
-/

namespace Freshness.CommandLine

inductive Style
  | red
  | green
  | yellow
  | bold
  deriving DecidableEq, Repr

/-- The control sequence that turns a style on. -/
def Style.code : Style → String
  | red => "\x1b[31m"
  | green => "\x1b[32m"
  | yellow => "\x1b[33m"
  | bold => "\x1b[1m"

/-- The control sequence that turns every style off. -/
def resetCode : String := "\x1b[0m"

/-- A text in some styles, if styling is on. -/
def styled (styling : Bool) (styles : List Style) (text : String) : String :=
  if styling then String.join (styles.map Style.code) ++ text ++ resetCode else text

structure Outcome where
  exitCode : UInt8
  stdout : String := ""
  stderr : String := ""
  deriving DecidableEq, Repr

def line (text : String) : String :=
  text ++ "\n"

def successLine (styling : Bool) (message : String) : String :=
  line (styled styling [.green] "✓" ++ " " ++ message)

/-- A line that reports a state of affairs. -/
def statusLine (styling : Bool) (message : String) : String :=
  line (styled styling [.yellow] "→" ++ " " ++ message)

/-- A line that asks for attention. -/
def warningLine (styling : Bool) (message : String) : String :=
  line (styled styling [.yellow, .bold] "⚠" ++ " " ++ styled styling [.bold] message)

def errorLine (styling : Bool) (message : String) : String :=
  line (styled styling [.red] "ERROR:" ++ " " ++ message)

end Freshness.CommandLine
