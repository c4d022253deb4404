import Freshness.CommandLine.Run
import Freshness.Proofs.Maturity

/-!
# The tag in a listing

A listing shows a formal release by a word in parentheses and every other tag by its text.  The
reader never names the formal release by a token, so being one is the same as having no fourth
component (`release_iff_no_token`).  The word itself is not reserved, though: a token is free to
spell it, and then the listing shows just that text.
-/

namespace Freshness

namespace Version

variable {version : Version}

theorem tagLine_eq (version : Version) :
    version.listing[3]? = some ("tag:       " ++ shownTag version.stage.channel.tag) := rfl

theorem tagLine_of_release (hrelease : version.stage.channel = .release) :
    version.listing[3]? = some "tag:       (release)" := by
  rw [tagLine_eq, hrelease]
  rfl

theorem tagLine_of_tag (htag : version.stage.channel.tag ≠ "") :
    version.listing[3]? = some ("tag:       " ++ version.stage.channel.tag) := by
  rw [tagLine_eq, shownTag, if_neg htag]

/-- Only a tag that spells the word for a formal release is shown like one. -/
theorem tagLine_eq_release_iff (htag : version.stage.channel.tag ≠ "") :
    version.listing[3]? = some "tag:       (release)" ↔
      version.stage.channel.tag = "(release)" := by
  have hline : "tag:       (release)" = "tag:       " ++ "(release)" := rfl
  rw [tagLine_of_tag htag, Option.some.injEq, hline, String.append_right_inj]

theorem stageOf_eq_formal_iff {rest : List (List Char)} {stage : Stage}
    (hstage : stageOf rest = .ok stage) : stage.channel = .release ↔ rest = [] := by
  cases rest with
  | nil =>
      rw [← Except.ok.inj hstage]
      exact iff_of_true rfl rfl
  | cons token rest =>
      exact iff_of_false (Stage.channel_ne_release_of_ofToken hstage) (List.cons_ne_nil token rest)

/-- A formal release is a version that is written without a token. -/
theorem release_iff_no_token {input : String} (hread : read input = .ok version) :
    version.stage.channel = .release ↔ (components input.toList)[3]? = none := by
  obtain ⟨major, minor, patch, rest, hcomponents, -, -, -, hstage⟩ :=
    ofComponents_eq_ok_iff.mp (read_eq_ok_iff.mp hread)
  rw [stageOf_eq_formal_iff hstage, hcomponents]
  cases rest <;> simp

end Version

namespace Channel

variable {channel : Channel}

theorem tag_eq_empty_iff : channel.tag = "" ↔ channel = release ∨ channel = unrecognized "" := by
  cases channel <;> simp [tag]

theorem tag_eq_release_word_iff :
    channel.tag = "(release)" ↔ channel = unrecognized "(release)" := by
  cases channel <;> simp [tag]

end Channel

/-- A version that is read is a formal release just when it has no fourth component, which is to say
that it is equal to the release of its numbers, and the listing then shows it as one.  Of every
other version the listing shows the text of the tag, if there is any, so it shows a second kind of
version as a formal release: one whose tag is that very word in parentheses. -/
theorem listing_tells_release (input : String) (version : Version)
    (hread : Version.read input = .ok version) :
    (version.stage.channel = .release ↔ (Version.components input.toList)[3]? = none) ∧
    (version.stage.channel = .release ↔ (version == version.release) = true) ∧
    (version.stage.channel = .release → version.listing[3]? = some "tag:       (release)") ∧
    (version.stage.channel ≠ .unrecognized "" →
      (version.listing[3]? = some "tag:       (release)" ↔
        version.stage.channel = .release ∨ version.stage.channel = .unrecognized "(release)") ∧
      (version.stage.channel ≠ .release →
        version.listing[3]? = some ("tag:       " ++ version.stage.channel.tag))) := by
  have hcanonical := Version.isCanonical_of_read hread
  refine ⟨Version.release_iff_no_token hread, hcanonical.beq_release_iff.symm,
    Version.tagLine_of_release, ?_⟩
  intro hnamed
  have htag : version.stage.channel ≠ .release → version.stage.channel.tag ≠ "" := by
    intro hother hempty
    exact (Channel.tag_eq_empty_iff.mp hempty).elim hother hnamed
  refine ⟨?_, fun hother => Version.tagLine_of_tag (htag hother)⟩
  by_cases hrelease : version.stage.channel = .release
  · exact iff_of_true (Version.tagLine_of_release hrelease) (Or.inl hrelease)
  · rw [or_iff_right hrelease, ← Channel.tag_eq_release_word_iff]
    exact Version.tagLine_eq_release_iff (htag hrelease)

/-- A release with a mark, and a candidate. -/
theorem listing_tells_release_from_candidate :
    Version.read "v01.2.3" = .ok ⟨1, 2, 3, .formal⟩ ∧
      (⟨1, 2, 3, .formal⟩ : Version).listing[3]? = some "tag:       (release)" ∧
      Version.read "1.2-3.RC7" = .ok ⟨1, 2, 3, ⟨.releaseCandidate, 7⟩⟩ ∧
      (⟨1, 2, 3, ⟨.releaseCandidate, 7⟩⟩ : Version).listing[3]? = some "tag:       rc" := by
  have hrelease : Version.read "v01.2.3" = .ok ⟨1, 2, 3, .formal⟩ := rfl
  have hcandidate : Version.read "1.2-3.RC7" = .ok ⟨1, 2, 3, ⟨.releaseCandidate, 7⟩⟩ := rfl
  obtain ⟨-, -, hshown, -⟩ := listing_tells_release _ _ hrelease
  obtain ⟨-, -, -, hnamed⟩ := listing_tells_release _ _ hcandidate
  exact ⟨hrelease, hshown rfl, hcandidate, (hnamed (by decide)).2 (by decide)⟩

/-- The word for a formal release does not tell one: a tag may spell the word, and the empty tag
behind a separator that nothing follows is shown by it too. -/
theorem listing_shows_tags_as_release :
    Version.read "1.2.3-(release)" = .ok ⟨1, 2, 3, ⟨.unrecognized "(release)", -1⟩⟩ ∧
      (⟨1, 2, 3, ⟨.unrecognized "(release)", -1⟩⟩ : Version).listing[3]? =
        some "tag:       (release)" ∧
      Version.read "1.2.3." = .ok ⟨1, 2, 3, ⟨.unrecognized "", -1⟩⟩ ∧
      (⟨1, 2, 3, ⟨.unrecognized "", -1⟩⟩ : Version).listing[3]? = some "tag:       (release)" ∧
      ¬∀ input version, Version.read input = .ok version →
        (version.listing[3]? = some "tag:       (release)" ↔
          version.stage.channel = .release) := by
  have hword : Version.read "1.2.3-(release)" =
      .ok ⟨1, 2, 3, ⟨.unrecognized "(release)", -1⟩⟩ := rfl
  have hempty : Version.read "1.2.3." = .ok ⟨1, 2, 3, ⟨.unrecognized "", -1⟩⟩ := rfl
  refine ⟨hword, rfl, hempty, rfl, ?_⟩
  intro htells
  exact absurd ((htells _ _ hword).mp rfl) (by decide)

end Freshness
