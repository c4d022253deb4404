import Freshness.Version.Reader

/-!
# Comparing written versions

Two texts are compared as the versions they spell.  A comparison that only asks whether a candidate
has reached a baseline treats a missing or malformed version as one that has not.
-/

namespace Freshness

def compareFields (a b : Version) : Ordering :=
  compare a b

/-- How two written versions compare; of two malformed ones the first is reported. -/
def compareWritten (a b : String) : Except Malformed Ordering := do
  let a ← Version.read a
  let b ← Version.read b
  return compareFields a b

/-- A text that is there and not empty. -/
def given? (text : Option String) : Option String :=
  text.filter (· ≠ "")

/-- Whether the candidate is newer than or equal to the baseline. -/
def hasReached (candidate baseline : Option String) : Bool :=
  match given? candidate, given? baseline with
  | some candidate, some baseline =>
    match compareWritten candidate baseline with
    | .ok ordering => ordering.isGE
    | .error _ => false
  | _, _ => false

def comparisonMessage (candidate baseline : String) (reached : Bool) : String :=
  if reached then "'" ++ candidate ++ "' is newer than or equal to '" ++ baseline ++ "'"
  else "'" ++ candidate ++ "' is not newer than '" ++ baseline ++ "'"

end Freshness
