import Freshness.Channel
import Freshness.Text.Numeral
import Freshness.Text.Segment
import Freshness.Version.Malformed

/-!
# Stages

The stage of a version is its channel together with an iteration.  In a version it is written as
one token, such as `rc2`.  A token that is a single numbered run gives both parts; any other token
gives a channel without an iteration, named by the first piece of the token.
-/

namespace Freshness

open Text

structure Stage where
  channel : Channel
  iteration : Int64
  deriving DecidableEq, Repr

namespace Stage

/-- The iteration that stands for none. -/
def noIteration : Int64 := -1

/-- The least number that is too large for an iteration, two to the power of 63. -/
def iterationLimit : Nat := 0x8000000000000000

def formal : Stage := ⟨.release, 0⟩

/-- The channel that some text names, without an iteration. -/
def unnumbered (tag : List Char) : Stage :=
  ⟨.ofTag (String.ofList tag), noIteration⟩

/-- The stage that a token spells.  An empty token names a channel that nobody recognizes. -/
def ofToken (token : List Char) : Except Malformed.Reason Stage :=
  match segments token with
  | [] => .ok ⟨.unrecognized "", noIteration⟩
  | [.numbered letters digits] =>
    if Numeral.value digits < iterationLimit then
      .ok ⟨.ofTag (String.ofList letters), .ofNat (Numeral.value digits)⟩
    else .error (.iterationOutOfRange (String.ofList digits))
  | .numbered letters _ :: _ => .ok (unnumbered letters)
  | .plain text :: _ => .ok (unnumbered text)

/-- The stage that a token spells; a failure quotes the text that the token comes from. -/
def read (input token : String) : Except Malformed Stage :=
  (ofToken token.toList).mapError (⟨input, ·⟩)

/-- What a stage adds to the numbers of a version: nothing for a formal release, else a hyphen,
the tag and the iteration, if there is one. -/
def suffix (stage : Stage) : List Char :=
  if stage.channel = .release then []
  else '-' :: stage.channel.tag.toList ++
    if stage.iteration = noIteration then [] else Numeral.ofInt stage.iteration.toInt

def isPrerelease (stage : Stage) : Bool :=
  stage.channel.isPrerelease

/-- Stages are ordered by the rank of the channel, then by the iteration. -/
instance : Ord Stage where
  compare a b := (compare a.channel.rank b.channel.rank).then (compare a.iteration b.iteration)

end Stage

end Freshness
