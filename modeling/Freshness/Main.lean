import Freshness.CommandLine.Program

/-!
# The command

Looks at the files that the arguments make relevant and runs the program on what is there.
-/

namespace Freshness

open Storage CommandLine

def entryAt (path : String) : IO Entry := do
  match ← (IO.FS.readBinFile path).toBaseIO with
  | .ok content => return .file content
  | .error (.noFileOrDirectory ..) => return .absent
  | .error (.inappropriateType _ code _) =>
    return if code = 20 ∨ code = -20 then .blocked else .directory
  | .error (.permissionDenied _ code details) =>
    return .unreadable (details ++ " (os error " ++ toString code ++ ")")
  | .error other => return .unreadable (toString other)

def findSettingsDirectory : IO (Option String) := do
  match ← IO.getEnv "XDG_CONFIG_HOME" with
  | some directory =>
    if directory.toList.head? = some '/' then return some directory
  | none => pure ()
  return (← IO.getEnv "HOME").map (· ++ "/.config")

/-- The surroundings in which a request may look at some paths. -/
def lookAround (settingsDirectory : Option String) (paths : List String) : IO Surroundings := do
  let entries ← paths.mapM fun path => return (path, ← entryAt path)
  return { entry := fun path => (entries.lookup path).getD .absent, settingsDirectory }

/-- Whether output is styled: when that is forced, or when it goes to a terminal and is not
turned off. -/
def wantsStyling : IO Bool := do
  let forced := (← IO.getEnv "CLICOLOR_FORCE").any (· ≠ "0")
  let refused := (← IO.getEnv "CLICOLOR") = some "0" || (← IO.getEnv "NO_COLOR").isSome
  return forced || (!refused && (← (← IO.getStdout).isTty))

def runProgram (arguments : List String) : IO UInt32 := do
  let settingsDirectory ← findSettingsDirectory
  let paths :=
    match Request.ofArguments arguments with
    | .ok request => request.paths settingsDirectory
    | .error _ => []
  let outcome :=
    program (← lookAround settingsDirectory paths) (← wantsStyling) arguments
  (← IO.getStdout).putStr outcome.stdout
  (← IO.getStderr).putStr outcome.stderr
  return outcome.exitCode.toUInt32

end Freshness

def main (arguments : List String) : IO UInt32 :=
  Freshness.runProgram arguments
