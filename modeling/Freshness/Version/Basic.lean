import Freshness.Version.Stage

/-!
# Versions

A version has three numbers and a stage.  Versions are compared number by number and then by
stage.  Two versions that compare as equal need not be the same: the tags of channels that nobody
recognizes are not compared.  `==` is this coarser equality and `=` the finer one.
-/

namespace Freshness

open Text

structure Version where
  major : UInt32
  minor : UInt32
  patch : UInt32
  stage : Stage := .formal
  deriving DecidableEq, Repr

namespace Version

/-- The formal release of the same three numbers. -/
def release (version : Version) : Version :=
  { version with stage := .formal }

def isPrerelease (version : Version) : Bool :=
  version.stage.isPrerelease

def sortKey (version : Version) : UInt32 × UInt32 × UInt32 × Nat × Int64 :=
  (version.major, version.minor, version.patch, version.stage.channel.rank,
    version.stage.iteration)

/-- Versions are equal up to the tags of unrecognized channels. -/
instance : BEq Version where
  beq a b := a.sortKey == b.sortKey

/-- Versions are ordered by their numbers, then by their stages. -/
instance : Ord Version where
  compare a b :=
    (compare a.major b.major).then <| (compare a.minor b.minor).then <|
      (compare a.patch b.patch).then (compare a.stage b.stage)

/-- The order as a partial one; no two versions are incomparable. -/
def partialCompare (a b : Version) : Option Ordering :=
  some (compare a b)

instance : LT Version := ltOfOrd

instance : LE Version := leOfOrd

/-- A version as it is written: `major.minor.patch` and the suffix of its stage. -/
def chars (version : Version) : List Char :=
  Numeral.ofNat version.major.toNat ++ '.' :: Numeral.ofNat version.minor.toNat ++
    '.' :: Numeral.ofNat version.patch.toNat ++ version.stage.suffix

def text (version : Version) : String :=
  String.ofList version.chars

instance : ToString Version := ⟨text⟩

end Version

end Freshness
