import Freshness.Proofs.Agreement

/-!
# Maturity and the order

Every version that is read compares to the release of its numbers as its channel ranks against that
of a formal release (`IsCanonical.compare_release`).  So the prereleases are the versions before
their release, and the versions behind it are those with a tag that nobody recognizes.  This is so
because a formal release that is read has no iteration of its own: the order would tell one with an
iteration from the release, though the channels are the same.
-/

namespace Freshness

namespace Channel

variable {channel : Channel}

theorem rank_eq_release_iff : channel.rank = release.rank ↔ channel = release := by
  cases channel <;> simp [rank]

/-- Only channels that nobody recognizes come after the release. -/
theorem release_lt_rank_iff : release.rank < channel.rank ↔ ∃ tag, channel = unrecognized tag := by
  cases channel <;> simp [rank]

end Channel

namespace Version

variable {version : Version}

/-- Of versions with the same numbers only the stages are compared. -/
theorem compare_release_eq :
    compare version version.release =
      (compare version.stage.channel.rank Channel.release.rank).then
        (compare version.stage.iteration 0) := by
  change (compare version.major version.major).then ((compare version.minor version.minor).then
    ((compare version.patch version.patch).then (compare version.stage .formal))) = _
  simp only [Std.compare_self, Ordering.eq_then]
  rfl

/-- A canonical version compares to its release as its channel does. -/
theorem IsCanonical.compare_release (hcanonical : version.IsCanonical) :
    compare version version.release =
      compare version.stage.channel.rank Channel.release.rank := by
  rw [compare_release_eq]
  by_cases hrelease : version.stage.channel = .release
  · have hstage : version.stage = .formal := Stage.IsCanonical.eq_formal hcanonical hrelease
    rw [hstage]
    rfl
  · have hrank : compare version.stage.channel.rank Channel.release.rank ≠ .eq :=
      fun heq => hrelease (Channel.rank_eq_release_iff.mp (Std.compare_eq_iff_eq.mp heq))
    cases hcompare : compare version.stage.channel.rank Channel.release.rank with
    | eq => exact absurd hcompare hrank
    | lt => rfl
    | gt => rfl

/-- The known prereleases come before the release of the same numbers. -/
theorem IsCanonical.lt_release_iff (hcanonical : version.IsCanonical) :
    version < version.release ↔ version.stage.channel ∈ Channel.known := by
  rw [lt_iff, hcanonical.compare_release, Nat.compare_eq_lt, ← isPrerelease_iff]
  exact decide_eq_true_iff.symm

/-- Of the versions that are read only the release itself is equal to it. -/
theorem IsCanonical.beq_release_iff (hcanonical : version.IsCanonical) :
    (version == version.release) = true ↔ version.stage.channel = .release := by
  rw [← Std.compare_eq_iff_beq, hcanonical.compare_release, Nat.compare_eq_eq,
    Channel.rank_eq_release_iff]

/-- Versions on a channel that nobody recognizes come after the release of the same numbers. -/
theorem IsCanonical.release_lt_iff (hcanonical : version.IsCanonical) :
    version.release < version ↔ ∃ tag, version.stage.channel = .unrecognized tag := by
  rw [gt_iff, hcanonical.compare_release, Nat.compare_eq_gt, Channel.release_lt_rank_iff]

theorem spells_release (version : Version) :
    Spells (some version.release.text) version.release :=
  spells_some_iff.mpr read_text_formal

end Version

/-! ## A version and its release on offer -/

namespace Verdict

section

variable {input : String} {version : Version} {includePrereleases : Bool}

/-- The release is an update of a prerelease. -/
theorem check_release_of_known (hread : Version.read input = .ok version)
    (hknown : version.stage.channel ∈ Channel.known) :
    check (some input) (some version.release.text) includePrereleases =
      updateAvailable version.text version.release.text := by
  have hbefore : version < version.release :=
    (Version.isCanonical_of_read hread).lt_release_iff.mpr hknown
  have hincluded : version.release.isPrerelease = true → includePrereleases = true :=
    fun hprerelease => absurd hprerelease Bool.false_ne_true
  exact check_eq_updateAvailable_iff.mpr ⟨version, version.release, spells_some_iff.mpr hread,
    version.spells_release, hbefore, hincluded, rfl, rfl⟩

theorem check_release_of_not_known (hread : Version.read input = .ok version)
    (hknown : version.stage.channel ∉ Channel.known) :
    check (some input) (some version.release.text) includePrereleases = upToDate version.text := by
  have hreached : version.release ≤ version := by
    rwa [← Version.not_lt, (Version.isCanonical_of_read hread).lt_release_iff]
  exact check_eq_upToDate_iff.mpr ⟨version, version.release, spells_some_iff.mpr hread,
    version.spells_release, hreached, rfl⟩

/-- A version with a tag that nobody recognizes is an update of its release. -/
theorem check_from_release_of_unrecognized (hread : Version.read input = .ok version)
    (hunrecognized : ∃ tag, version.stage.channel = .unrecognized tag) :
    check (some version.release.text) (some input) includePrereleases =
      updateAvailable version.release.text version.text := by
  have hbehind : version.release < version :=
    (Version.isCanonical_of_read hread).release_lt_iff.mpr hunrecognized
  have hincluded : version.isPrerelease = true → includePrereleases = true := by
    obtain ⟨tag, htag⟩ := hunrecognized
    rw [Version.isPrerelease_iff, htag]
    simp [Channel.known]
  exact check_eq_updateAvailable_iff.mpr ⟨version.release, version,
    version.spells_release, spells_some_iff.mpr hread, hbehind, hincluded,
    rfl, rfl⟩

theorem check_from_release_of_not_unrecognized (hread : Version.read input = .ok version)
    (hunrecognized : ¬∃ tag, version.stage.channel = .unrecognized tag) :
    check (some version.release.text) (some input) includePrereleases =
      upToDate version.release.text := by
  have hreached : version ≤ version.release := by
    rwa [← Version.not_lt, (Version.isCanonical_of_read hread).release_lt_iff]
  exact check_eq_upToDate_iff.mpr ⟨version.release, version,
    version.spells_release, spells_some_iff.mpr hread, hreached, rfl⟩

end

end Verdict

/-- The prereleases are the versions before their release.  A version that is read comes before the
release of its numbers when it is on a known channel, is equal to it when it is a formal release,
and comes behind it when nobody recognizes its tag.  The release is therefore an update of just the
prereleases, and only a version with a tag that nobody recognizes is an update of its release,
which is never ignored. -/
theorem maturity_agrees_with_order (input : String) (version : Version)
    (hread : Version.read input = .ok version) :
    (version.isPrerelease = true ↔ version < version.release) ∧
    (version.stage.channel = .release ↔ (version == version.release) = true) ∧
    ((∃ tag, version.stage.channel = .unrecognized tag) ↔ version > version.release) ∧
    ∀ includePrereleases : Bool,
      let release := version.release.text
      let onward := Verdict.check (some input) (some release) includePrereleases
      let back := Verdict.check (some release) (some input) includePrereleases
      (version.stage.channel ∈ Channel.known →
        onward = .updateAvailable version.text release) ∧
      (version.stage.channel ∉ Channel.known → onward = .upToDate version.text) ∧
      ((∃ tag, version.stage.channel = .unrecognized tag) →
        back = .updateAvailable release version.text) ∧
      ((¬∃ tag, version.stage.channel = .unrecognized tag) → back = .upToDate release) ∧
      ∀ offered, onward ≠ .prereleaseIgnored offered ∧ back ≠ .prereleaseIgnored offered := by
  have hcanonical := Version.isCanonical_of_read hread
  refine ⟨?_, hcanonical.beq_release_iff.symm, hcanonical.release_lt_iff.symm, ?_⟩
  · rw [Version.isPrerelease_iff, hcanonical.lt_release_iff]
  · intro includePrereleases release onward back
    have hknown : version.stage.channel ∈ Channel.known →
        onward = .updateAvailable version.text release := Verdict.check_release_of_known hread
    have hnotKnown : version.stage.channel ∉ Channel.known → onward = .upToDate version.text :=
      Verdict.check_release_of_not_known hread
    have hunrecognized : (∃ tag, version.stage.channel = .unrecognized tag) →
        back = .updateAvailable release version.text :=
      Verdict.check_from_release_of_unrecognized hread
    have hrecognized : (¬∃ tag, version.stage.channel = .unrecognized tag) →
        back = .upToDate release := Verdict.check_from_release_of_not_unrecognized hread
    refine ⟨hknown, hnotKnown, hunrecognized, hrecognized, fun offered => ⟨?_, ?_⟩⟩
    · by_cases hchannel : version.stage.channel ∈ Channel.known
      · simp [hknown hchannel]
      · simp [hnotKnown hchannel]
    · by_cases hchannel : ∃ tag, version.stage.channel = .unrecognized tag
      · simp [hunrecognized hchannel]
      · simp [hrecognized hchannel]

/-- A candidate, and a version whose tag is empty, for nothing follows its separator. -/
theorem maturity_agrees_around_release :
    Version.read "v1.2.3-RC2" = .ok ⟨1, 2, 3, ⟨.releaseCandidate, 2⟩⟩ ∧
      (⟨1, 2, 3, ⟨.releaseCandidate, 2⟩⟩ : Version) < ⟨1, 2, 3, .formal⟩ ∧
      Verdict.check (some "v1.2.3-RC2") (some "1.2.3") false =
        .updateAvailable "1.2.3-rc2" "1.2.3" ∧
      Version.read "1.2.3-" = .ok ⟨1, 2, 3, ⟨.unrecognized "", -1⟩⟩ ∧
      (⟨1, 2, 3, ⟨.unrecognized "", -1⟩⟩ : Version) > ⟨1, 2, 3, .formal⟩ ∧
      Verdict.check (some "1.2.3") (some "1.2.3-") false = .updateAvailable "1.2.3" "1.2.3-" := by
  have hcandidate : Version.read "v1.2.3-RC2" = .ok ⟨1, 2, 3, ⟨.releaseCandidate, 2⟩⟩ := rfl
  have hempty : Version.read "1.2.3-" = .ok ⟨1, 2, 3, ⟨.unrecognized "", -1⟩⟩ := rfl
  obtain ⟨hbefore, -, -, honward⟩ := maturity_agrees_with_order _ _ hcandidate
  obtain ⟨-, -, hbehind, hback⟩ := maturity_agrees_with_order _ _ hempty
  exact ⟨hcandidate, hbefore.mp rfl, (honward false).1 (by decide), hempty,
    hbehind.mp ⟨"", rfl⟩, (hback false).2.2.1 ⟨"", rfl⟩⟩

end Freshness
