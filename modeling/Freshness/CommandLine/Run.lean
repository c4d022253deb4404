import Freshness.CommandLine.Invocation
import Freshness.CommandLine.Terminal
import Freshness.Settings.Lookup
import Freshness.Verdict

/-!
# Running commands

`compare` exits with 0 if the candidate has reached the baseline, `parse` if the input is a version
and `check` unless an update is available.  Only `check` looks at settings; when they cannot be
loaded it fails before anything is compared.  A version that is parsed is listed by its fields, one
per line, with their values in one column.
-/

namespace Freshness

namespace Version

/-- What the listing shows for a tag; an empty one is shown as that of a formal release. -/
def shownTag (tag : String) : String :=
  if tag = "" then "(release)" else tag

def listing (version : Version) : List String :=
  ["major:     " ++ toString version.major,
   "minor:     " ++ toString version.minor,
   "patch:     " ++ toString version.patch,
   "tag:       " ++ shownTag version.stage.channel.tag,
   "priority:  " ++ toString version.stage.channel.rank,
   "iteration: " ++ toString version.stage.iteration]

end Version

namespace CommandLine

def exitCode (success : Bool) : UInt8 :=
  if success then 0 else 1

def runCompare (styling : Bool) (candidate baseline : String) : Outcome :=
  let reached := hasReached (some candidate) (some baseline)
  let message := comparisonMessage candidate baseline reached
  { exitCode := exitCode reached
    stdout := if reached then successLine styling message else statusLine styling message }

/-- A version under a heading, with its fields below. -/
def shownVersion (styling : Bool) (version : Version) : String :=
  line "" ++ line (styled styling [.bold] version.text) ++
    String.join (version.listing.map fun field => line ("  " ++ field))

def runParse (styling : Bool) (input : String) : Outcome :=
  match Version.read input with
  | .ok version => { exitCode := 0, stdout := shownVersion styling version }
  | .error malformed => { exitCode := 1, stderr := errorLine styling malformed.message }

/-- Reports a verdict; one that is unknown is reported as an error. -/
def report (styling : Bool) (verdict : Verdict) : Outcome :=
  let exitCode := exitCode !verdict.isOutdated
  match verdict with
  | .upToDate .. => { exitCode, stdout := successLine styling verdict.message }
  | .updateAvailable .. => { exitCode, stdout := warningLine styling verdict.message }
  | .prereleaseIgnored .. => { exitCode, stdout := statusLine styling verdict.message }
  | .unknown .. => { exitCode, stderr := errorLine styling verdict.message }

/-- Checks for an update under some settings, which arguments override. -/
def checkUnder (settings : Settings) (remote : String) (current : Option String)
    (includePrereleases : Bool) : Verdict :=
  Verdict.check (current <|> settings.currentVersion) (some remote)
    (includePrereleases || settings.includePrereleases)

def runCheck (around : Surroundings) (styling : Bool) (settingsPath : Option String)
    (remote : String) (current : Option String) (includePrereleases : Bool) : Outcome :=
  match Settings.load around settingsPath with
  | .ok settings => report styling (checkUnder settings remote current includePrereleases)
  | .error failure =>
    { exitCode := 1, stderr := errorLine styling ("Error loading config: " ++ failure.message) }

def run (around : Surroundings) (styling : Bool) (invocation : Invocation) : Outcome :=
  match invocation.command with
  | .compare candidate baseline => runCompare styling candidate baseline
  | .parse input => runParse styling input
  | .check remote current includePrereleases =>
    runCheck around styling invocation.settingsPath remote current includePrereleases

end CommandLine

end Freshness
