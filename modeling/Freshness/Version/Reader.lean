import Freshness.Unicode.Lowercase
import Freshness.Version.Basic

/-!
# Reading versions

A version is read in a normal form: its first hyphen counts as a dot, letters are in lower case,
and a leading `v` is dropped.  The normal form is cut at its dots.  The first three components
are numbers, the fourth one, if there is any, is the token of a stage, and what follows is ignored.
-/

namespace Freshness.Version

open Text Unicode

def dotFirstHyphen : List Char → List Char
  | [] => []
  | c :: rest => if c = '-' then '.' :: rest else c :: dotFirstHyphen rest

/-- The text without the one `v` that may stand at its start. -/
def dropMark : List Char → List Char
  | [] => []
  | c :: rest => if c = 'v' then rest else c :: rest

/-- The components of a version, in lower case. -/
def components (input : List Char) : List (List Char) :=
  (dropMark (lowercase (dotFirstHyphen input))).splitOn '.'

def number (component : Component) (text : List Char) : Except Malformed.Reason UInt32 :=
  if !Numeral.isNumeral text then .error (.notANumeral component (String.ofList text))
  else if Numeral.value text < UInt32.size then .ok (.ofNat (Numeral.value text))
  else .error (.outOfRange component (String.ofList text))

def stageOf : List (List Char) → Except Malformed.Reason Stage
  | [] => .ok .formal
  | token :: _ => Stage.ofToken token

/-- The version that some components spell.  They are checked from the first to the last. -/
def ofComponents : List (List Char) → Except Malformed.Reason Version
  | major :: minor :: patch :: rest => do
    let major ← number .major major
    let minor ← number .minor minor
    let patch ← number .patch patch
    let stage ← stageOf rest
    return { major, minor, patch, stage }
  | _ => .error .tooFewComponents

/-- Reads a version; a failure quotes the text as it was given. -/
def read (input : String) : Except Malformed Version :=
  (ofComponents (components input.toList)).mapError (⟨input, ·⟩)

end Freshness.Version
