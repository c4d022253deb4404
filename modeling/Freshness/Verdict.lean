import Freshness.Comparison

/-!
# Update verdicts

A client that runs one version learns that another is advertised.  The verdict says whether the
client is out of date.  A newer version on a known prerelease channel counts as an update only if
prereleases are included.
-/

namespace Freshness

inductive Obstacle
  | noCurrentVersion
  | noAdvertisedVersion
  | malformed (cause : Malformed)
  deriving DecidableEq, Repr

def Obstacle.message : Obstacle → String
  | noCurrentVersion => "no current version"
  | noAdvertisedVersion => "no advertised version"
  | malformed cause => cause.message

/-- The outcome of an update check.  Versions are reported in their written form. -/
inductive Verdict
  | upToDate (current : String)
  | updateAvailable (current advertised : String)
  | prereleaseIgnored (advertised : String)
  | unknown (obstacle : Obstacle)
  deriving DecidableEq, Repr

namespace Verdict

def isOutdated : Verdict → Bool
  | updateAvailable .. => true
  | _ => false

def message : Verdict → String
  | upToDate current => "Client version " ++ current ++ " is up to date"
  | updateAvailable current advertised =>
    "Update available: " ++ current ++ " -> " ++ advertised
  | prereleaseIgnored advertised =>
    "Newer prerelease " ++ advertised ++ " ignored (prereleases disabled)"
  | unknown obstacle => "Cannot determine update status: " ++ obstacle.message

def ofVersions (current advertised : Version) (includePrereleases : Bool) : Verdict :=
  if advertised ≤ current then upToDate current.text
  else if advertised.isPrerelease && !includePrereleases then prereleaseIgnored advertised.text
  else updateAvailable current.text advertised.text

/-- The two versions of a check.  The current one is looked for, and read, before the advertised
one. -/
def versions (current advertised : Option String) : Except Obstacle (Version × Version) := do
  let some current := given? current | throw .noCurrentVersion
  let some advertised := given? advertised | throw .noAdvertisedVersion
  let current ← (Version.read current).mapError .malformed
  let advertised ← (Version.read advertised).mapError .malformed
  return (current, advertised)

/-- The verdict on a client that runs `current` when `advertised` is on offer. -/
def check (current advertised : Option String) (includePrereleases : Bool) : Verdict :=
  match versions current advertised with
  | .ok (current, advertised) => ofVersions current advertised includePrereleases
  | .error obstacle => unknown obstacle

end Verdict

end Freshness
