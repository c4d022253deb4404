/-!
# Malformed versions

Why a text is no version, and the wording of each cause.
-/

namespace Freshness

/-- One of the three numbers that every version has. -/
inductive Component
  | major
  | minor
  | patch
  deriving DecidableEq, Repr

def Component.name : Component → String
  | major => "major"
  | minor => "minor"
  | patch => "patch"

namespace Malformed

/-- What is wrong with a text that is no version.  The quoted parts are in lower case. -/
inductive Reason
  /-- There are not three components. -/
  | tooFewComponents
  /-- A component is empty or holds something else than digits. -/
  | notANumeral (component : Component) (text : String)
  /-- A component does not fit into 32 bits. -/
  | outOfRange (component : Component) (digits : String)
  /-- The iteration of a channel does not fit into 63 bits. -/
  | iterationOutOfRange (digits : String)
  deriving DecidableEq, Repr

def Reason.message : Reason → String
  | tooFewComponents => "expected at least major.minor.patch"
  | notANumeral component text => "invalid " ++ component.name ++ " component '" ++ text ++ "'"
  | outOfRange component digits => component.name ++ " component '" ++ digits ++ "' out of range"
  | iterationOutOfRange digits => "invalid prerelease iteration '" ++ digits ++ "'"

end Malformed

/-- A text that is no version, as it was given, and the reason. -/
structure Malformed where
  input : String
  reason : Malformed.Reason
  deriving DecidableEq, Repr

/-- The message for a malformed version quotes the text as it was given. -/
def Malformed.message (malformed : Malformed) : String :=
  "Malformed version '" ++ malformed.input ++ "': " ++ malformed.reason.message

end Freshness
