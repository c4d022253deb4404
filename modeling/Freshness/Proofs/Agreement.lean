import Freshness.Proofs.Canonical
import Freshness.Proofs.Given

/-!
# The update check and the comparison

The update check has its own way of looking past missing texts and of comparing versions.  It
agrees with the comparison of the two texts all the same: the verdict is decided by whether the
current version has reached the advertised one, by the channel of the advertised version, and by
nothing else.
-/

namespace Freshness

theorem Version.isPrerelease_iff {version : Version} :
    version.isPrerelease = true ↔ version.stage.channel ∈ Channel.known :=
  Channel.isPrerelease_iff

/-- A version that some text spells is also spelled by its written form. -/
theorem Spells.read_text {text : Option String} {version : Version}
    (hversion : Spells text version) : Version.read version.text = .ok version := by
  obtain ⟨input, -, hread⟩ := hversion
  exact (Version.isCanonical_of_read hread).read_text

namespace Verdict

/-- The versions that the verdict shows are written as the given ones. -/
def Reports (current advertised : String) : Verdict → Prop
  | upToDate shown => shown = current
  | updateAvailable shown offered => shown = current ∧ offered = advertised
  | prereleaseIgnored offered => offered = advertised
  | unknown _ => True

theorem isOutdated_iff {verdict : Verdict} :
    verdict.isOutdated = true ↔ ∃ shown offered, verdict = updateAvailable shown offered := by
  cases verdict <;> simp [isOutdated]

/-- The verdict on two versions: a version that is not newer is no update, and neither is a
prerelease when prereleases are left out. -/
theorem ofVersions_cases (current advertised : Version) (includePrereleases : Bool) :
    (advertised ≤ current ∧
      ofVersions current advertised includePrereleases = upToDate current.text) ∨
    (¬advertised ≤ current ∧
      (advertised.stage.channel ∈ Channel.known ∧ includePrereleases = false) ∧
      ofVersions current advertised includePrereleases = prereleaseIgnored advertised.text) ∨
    (¬advertised ≤ current ∧
      ¬(advertised.stage.channel ∈ Channel.known ∧ includePrereleases = false) ∧
      ofVersions current advertised includePrereleases =
        updateAvailable current.text advertised.text) := by
  have hignored : (advertised.isPrerelease && !includePrereleases) = true ↔
      advertised.stage.channel ∈ Channel.known ∧ includePrereleases = false := by
    rw [Bool.and_eq_true, Bool.not_eq_true', Version.isPrerelease_iff]
  rw [ofVersions]
  split
  · next hle => exact Or.inl ⟨hle, rfl⟩
  · next hle =>
      split
      · next hprerelease => exact Or.inr (Or.inl ⟨hle, hignored.mp hprerelease, rfl⟩)
      · next hprerelease => exact Or.inr (Or.inr ⟨hle, mt hignored.mpr hprerelease, rfl⟩)

/-! ## Each verdict -/

section

variable {current advertised : Option String} {includePrereleases : Bool} {v w : Version}
variable {shown offered : String}

/-- A verdict that is not unknown is the one on the versions that the texts spell. -/
theorem check_eq_iff {verdict : Verdict} (hknown : ∀ obstacle, verdict ≠ unknown obstacle) :
    check current advertised includePrereleases = verdict ↔
      ∃ v w, Spells current v ∧ Spells advertised w ∧
        ofVersions v w includePrereleases = verdict := by
  constructor
  · intro hcheck
    rw [check] at hcheck
    split at hcheck
    · next v w hversions =>
        obtain ⟨hv, hw⟩ := versions_eq_ok_iff.mp hversions
        exact ⟨v, w, hv, hw, hcheck⟩
    · next obstacle _ => exact absurd hcheck.symm (hknown obstacle)
  · rintro ⟨v, w, hv, hw, hverdict⟩
    rwa [check_of_spells hv hw]

/-- A client is up to date just when it has reached what is on offer, whatever the flag says. -/
theorem ofVersions_eq_upToDate_iff :
    ofVersions v w includePrereleases = upToDate shown ↔ w ≤ v ∧ shown = v.text := by
  obtain ⟨hle, hcase⟩ | ⟨hle, -, hcase⟩ | ⟨hle, -, hcase⟩ := ofVersions_cases v w includePrereleases
  all_goals simp [hcase, hle, eq_comm]

/-- Only a newer version on a known prerelease channel is ignored, and only if prereleases are left
out. -/
theorem ofVersions_eq_prereleaseIgnored_iff :
    ofVersions v w includePrereleases = prereleaseIgnored offered ↔
      v < w ∧ (w.isPrerelease = true ∧ includePrereleases = false) ∧ offered = w.text := by
  rw [← Version.not_le, Version.isPrerelease_iff]
  obtain ⟨hle, hcase⟩ | ⟨hle, hignored, hcase⟩ | ⟨hle, hincluded, hcase⟩ :=
    ofVersions_cases v w includePrereleases
  · simp [hcase, hle]
  · rw [hcase]
    simp [hle, hignored, eq_comm]
  · simp [hcase, hincluded]

/-- An update is newer, and not on a known prerelease channel unless prereleases are included. -/
theorem ofVersions_eq_updateAvailable_iff :
    ofVersions v w includePrereleases = updateAvailable shown offered ↔
      v < w ∧ (w.isPrerelease = true → includePrereleases = true) ∧ shown = v.text ∧
        offered = w.text := by
  rw [← Version.not_le, Version.isPrerelease_iff, ← Bool.not_eq_false, ← not_and]
  obtain ⟨hle, hcase⟩ | ⟨hle, hignored, hcase⟩ | ⟨hle, hincluded, hcase⟩ :=
    ofVersions_cases v w includePrereleases
  · simp [hcase, hle]
  · rw [hcase]
    simp [hignored]
  · simp only [hcase, hle, hincluded, updateAvailable.injEq, not_false_eq_true, true_and]
    rw [eq_comm, @eq_comm _ w.text]

/-- A client is up to date when the advertised version is not newer. -/
theorem check_eq_upToDate_iff :
    check current advertised includePrereleases = upToDate shown ↔
      ∃ v w, Spells current v ∧ Spells advertised w ∧ w ≤ v ∧ shown = v.text := by
  rw [check_eq_iff (by simp)]
  simp only [ofVersions_eq_upToDate_iff]

/-- An offer is ignored when it is newer, a prerelease, and those are left out. -/
theorem check_eq_prereleaseIgnored_iff :
    check current advertised includePrereleases = prereleaseIgnored offered ↔
      ∃ v w, Spells current v ∧ Spells advertised w ∧ v < w ∧
        (w.isPrerelease = true ∧ includePrereleases = false) ∧ offered = w.text := by
  rw [check_eq_iff (by simp)]
  simp only [ofVersions_eq_prereleaseIgnored_iff]

/-- An update is reported when both texts spell a version, the advertised one is newer, and it is
no prerelease unless prereleases are included. -/
theorem check_eq_updateAvailable_iff :
    check current advertised includePrereleases = updateAvailable shown offered ↔
      ∃ v w, Spells current v ∧ Spells advertised w ∧ v < w ∧
        (w.isPrerelease = true → includePrereleases = true) ∧
        shown = v.text ∧ offered = w.text := by
  rw [check_eq_iff (by simp)]
  simp only [ofVersions_eq_updateAvailable_iff]

end

/-! ## The verdict and the comparison -/

/-- What the comparison of two texts, which spell the versions `v` and `w`, says about the verdict
on them. -/
structure Follows (current advertised : Option String) (includePrereleases : Bool)
    (v w : Version) (verdict : Verdict) : Prop where
  upToDate : (∃ shown, verdict = .upToDate shown) ↔ hasReached current advertised = true
  prereleaseIgnored : (∃ offered, verdict = .prereleaseIgnored offered) ↔
    hasReached current advertised = false ∧
      (w.stage.channel ∈ Channel.known ∧ includePrereleases = false)
  updateAvailable : (∃ shown offered, verdict = .updateAvailable shown offered) ↔
    hasReached current advertised = false ∧
      ¬(w.stage.channel ∈ Channel.known ∧ includePrereleases = false)
  reached_back : verdict.isOutdated = true → hasReached advertised current = true
  reports : verdict.Reports v.text w.text

/-- The verdict on two versions agrees with their comparison in both directions. -/
theorem follows_ofVersions {current advertised : Option String} {v w : Version}
    (hv : Spells current v) (hw : Spells advertised w) (includePrereleases : Bool) :
    (ofVersions v w includePrereleases).Follows current advertised includePrereleases v w := by
  have hreached : hasReached current advertised = true ↔ w ≤ v := hasReached_of_spells hv hw
  have hnot : hasReached current advertised = false ↔ ¬w ≤ v := by
    rw [← Bool.not_eq_true, hreached]
  have hback : hasReached advertised current = true ↔ v ≤ w := hasReached_of_spells hw hv
  obtain ⟨hle, hcase⟩ | ⟨hle, hignored, hcase⟩ | ⟨hle, hincluded, hcase⟩ :=
    ofVersions_cases v w includePrereleases
  · rw [hcase]
    exact
      { upToDate := by simp [hreached, hle]
        prereleaseIgnored := by simp [hnot, hle]
        updateAvailable := by simp [hnot, hle]
        reached_back := by simp [isOutdated]
        reports := rfl }
  · rw [hcase]
    exact
      { upToDate := by simp [hreached, hle]
        prereleaseIgnored := by simp [hnot, hle, hignored]
        updateAvailable := by simp [hignored]
        reached_back := by simp [isOutdated]
        reports := rfl }
  · rw [hcase]
    exact
      { upToDate := by simp [hreached, hle]
        prereleaseIgnored := by simp [hincluded]
        updateAvailable := by simp [hnot, hle, hincluded]
        reached_back := fun _ => hback.mpr ((Version.le_total w v).resolve_left hle)
        reports := ⟨rfl, rfl⟩ }

/-- The update check reaches no verdict exactly when one of the texts is missing, empty or
malformed, which is to say that it has not even reached itself.  Otherwise the verdict follows from
the comparison of the texts, and the versions that it shows can be read again. -/
theorem check_agrees_with_hasReached (current advertised : Option String)
    (includePrereleases : Bool) :
    ((∃ obstacle, check current advertised includePrereleases = .unknown obstacle) ↔
      Unreadable current ∨ Unreadable advertised) ∧
    (Unreadable current ↔ hasReached current current = false) ∧
    (Unreadable advertised ↔ hasReached advertised advertised = false) ∧
    ((check current advertised includePrereleases).isOutdated = true ↔
      ∃ shown offered,
        check current advertised includePrereleases = .updateAvailable shown offered) ∧
    (¬Unreadable current → ¬Unreadable advertised →
      ∃ v w, Spells current v ∧ Spells advertised w ∧
        (check current advertised includePrereleases).Follows current advertised
          includePrereleases v w ∧
        Version.read v.text = .ok v ∧ Version.read w.text = .ok w) := by
  refine ⟨exists_check_eq_unknown_iff includePrereleases, unreadable_iff_hasReached_self,
    unreadable_iff_hasReached_self, isOutdated_iff, ?_⟩
  intro hcurrent hadvertised
  rw [unreadable_iff, not_not] at hcurrent hadvertised
  obtain ⟨v, hv⟩ := hcurrent
  obtain ⟨w, hw⟩ := hadvertised
  refine ⟨v, w, hv, hw, ?_, hv.read_text, hw.read_text⟩
  rw [check_of_spells hv hw]
  exact follows_ofVersions hv hw includePrereleases

/-- A release candidate is out of date once its release is on offer. -/
theorem check_agrees_on_candidate_and_release :
    ¬Unreadable (some "1.2.3-rc2") ∧ ¬Unreadable (some "v01.2.3") ∧
      (check (some "1.2.3-rc2") (some "v01.2.3") false).isOutdated = true ∧
      hasReached (some "v01.2.3") (some "1.2.3-rc2") = true := by
  have hcurrent : ¬Unreadable (some "1.2.3-rc2") := by
    rw [unreadable_iff_hasReached_self]
    decide
  have hadvertised : ¬Unreadable (some "v01.2.3") := by
    rw [unreadable_iff_hasReached_self]
    decide
  obtain ⟨-, -, -, houtdated, hagrees⟩ :=
    check_agrees_with_hasReached (some "1.2.3-rc2") (some "v01.2.3") false
  obtain ⟨v, w, -, hw, hfollows, -⟩ := hagrees hcurrent hadvertised
  have hrelease : w.stage.channel ∉ Channel.known := by
    rw [hw.unique (w := ⟨1, 2, 3, .formal⟩) ⟨"v01.2.3", rfl, rfl⟩]
    decide
  have hverdict := houtdated.mpr
    (hfollows.updateAvailable.mpr ⟨by decide, fun hignored => hrelease hignored.1⟩)
  exact ⟨hcurrent, hadvertised, hverdict, hfollows.reached_back hverdict⟩

end Verdict

end Freshness
