import Freshness.CommandLine.Arguments
import Freshness.CommandLine.Run

/-!
# The program

From arguments to the outcome of a run.
-/

namespace Freshness.CommandLine

def programVersion : String := "client-version 0.1.0"

def usage : String :=
  "Compare client versions and detect outdated installs\n" ++
  "\n" ++
  "Usage: client-version [--config FILE] COMMAND\n" ++
  "\n" ++
  "Commands:\n" ++
  "  compare CANDIDATE BASELINE   Report whether CANDIDATE is newer than or equal to BASELINE\n" ++
  "  parse INPUT                  Show how a version string is parsed\n" ++
  "  check --remote VERSION       Check whether an advertised version supersedes the local one\n" ++
  "\n" ++
  "Options:\n" ++
  "  -c, --config FILE            Custom configuration file path\n" ++
  "  -r, --remote VERSION         Version advertised by the remote side (check)\n" ++
  "      --current VERSION        Local version, overrides the configuration (check)\n" ++
  "      --include-prereleases    Treat dev/alpha/beta/rc versions as updates (check)\n" ++
  "  -h, --help                   Print help\n" ++
  "  -V, --version                Print version\n"

/-- The paths that a request may look at. -/
def Request.paths (settingsDirectory : Option String) : Request → List String
  | .run ⟨settingsPath, .check ..⟩ =>
    settingsPath.toList ++ Settings.localFile :: (settingsDirectory.map Settings.userPath).toList
  | _ => []

def program (around : Surroundings) (styling : Bool) (arguments : List String) : Outcome :=
  match Request.ofArguments arguments with
  | .ok (.run invocation) => run around styling invocation
  | .ok .help => { exitCode := 0, stdout := usage }
  | .ok .version => { exitCode := 0, stdout := line programVersion }
  | .error misuse => { exitCode := 2, stderr := line ("error: " ++ misuse.message) ++ usage }

end Freshness.CommandLine
