/-!
# Release channels

A version is either a formal release or tagged with the channel it was published on.  Four
channels are known as prereleases and are ranked by maturity, all of them below a formal release.
A tag that nobody recognizes is kept as it is written and ranks above everything else.
-/

namespace Freshness

/-- The channel a version was published on. -/
inductive Channel
  | dev
  | alpha
  | beta
  | releaseCandidate
  | release
  | unrecognized (tag : String)
  deriving DecidableEq, Repr

namespace Channel

/-- The channel that a tag in lower case names; the empty tag names a formal release. -/
def ofTag (tag : String) : Channel :=
  if tag = "dev" then dev
  else if tag = "alpha" then alpha
  else if tag = "beta" then beta
  else if tag = "rc" then releaseCandidate
  else if tag = "" then release
  else unrecognized tag

def tag : Channel → String
  | dev => "dev"
  | alpha => "alpha"
  | beta => "beta"
  | releaseCandidate => "rc"
  | release => ""
  | unrecognized tag => tag

/-- The maturity of a channel, from the least mature up. -/
def rank : Channel → Nat
  | dev => 0
  | alpha => 1
  | beta => 2
  | releaseCandidate => 3
  | release => 4
  | unrecognized _ => 5

def isPrerelease (channel : Channel) : Bool :=
  channel.rank < release.rank

@[simp]
theorem tag_ofTag (tag : String) : (ofTag tag).tag = tag := by
  unfold ofTag
  repeat' split
  all_goals simp_all [Channel.tag]

/-- Channels of one rank are the same, unless nobody recognizes either. -/
theorem rank_eq_iff {a b : Channel} :
    a.rank = b.rank ↔ a = b ∨ ∃ s t, a = unrecognized s ∧ b = unrecognized t := by
  cases a <;> cases b <;> simp [rank]

end Channel

end Freshness
