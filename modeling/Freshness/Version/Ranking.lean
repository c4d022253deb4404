import Freshness.Version.Basic

/-!
# Ranking versions

A list of versions is ranked from the oldest to the newest.  Each version is known by its place in
the list, and versions that compare as equal keep the order of their places.
-/

namespace Freshness.Version

/-- A version with its place in a list. -/
abbrev Placed := Version × Nat

def Placed.notNewer (a b : Placed) : Bool :=
  (compare a.1 b.1).isLE

def ranking (versions : List Placed) : List Placed :=
  versions.mergeSort Placed.notNewer

/-- The ranking cut into groups of equal versions. -/
def groups (versions : List Placed) : List (List Placed) :=
  (ranking versions).splitBy fun a b => a.1 == b.1

/-- The newest version; of equal ones the last in the list. -/
def newest? (versions : List Placed) : Option Placed :=
  (ranking versions).getLast?

/-- The oldest version; of equal ones the first in the list. -/
def oldest? (versions : List Placed) : Option Placed :=
  (ranking versions).head?

end Freshness.Version
