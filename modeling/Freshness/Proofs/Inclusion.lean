import Freshness.Proofs.Agreement

/-!
# Including prereleases

A client may include prereleases or leave them out.  The choice is looked at last, when both texts
have been read and the advertised version is newer, so it makes a difference to one verdict only: a
prerelease that would be ignored becomes an update.  What that verdict shows can be read again, and
then still has the channel and the place in the order on which the verdict was based.
-/

namespace Freshness

namespace Verdict

section

variable {current advertised : Option String}

/-- A prerelease that is ignored becomes an update once prereleases are included. -/
theorem check_true_of_ignored {offered : String}
    (hignored : check current advertised false = prereleaseIgnored offered) :
    ∃ v, Spells current v ∧ check current advertised true = updateAvailable v.text offered := by
  obtain ⟨v, w, hv, hw, hnewer, -, rfl⟩ := check_eq_prereleaseIgnored_iff.mp hignored
  exact ⟨v, hv, check_eq_updateAvailable_iff.mpr ⟨v, w, hv, hw, hnewer, fun _ => rfl, rfl, rfl⟩⟩

/-- No other verdict depends on whether prereleases are included. -/
theorem check_true_of_not_ignored
    (hkept : ∀ offered, check current advertised false ≠ prereleaseIgnored offered) :
    check current advertised true = check current advertised false := by
  cases hcheck : check current advertised false with
  | upToDate shown =>
      obtain ⟨v, w, hv, hw, hle, rfl⟩ := check_eq_upToDate_iff.mp hcheck
      exact check_eq_upToDate_iff.mpr ⟨v, w, hv, hw, hle, rfl⟩
  | updateAvailable shown offered =>
      obtain ⟨v, w, hv, hw, hnewer, -, rfl, rfl⟩ := check_eq_updateAvailable_iff.mp hcheck
      exact check_eq_updateAvailable_iff.mpr ⟨v, w, hv, hw, hnewer, fun _ => rfl, rfl, rfl⟩
  | prereleaseIgnored offered => exact absurd hcheck (hkept offered)
  | unknown obstacle => exact check_eq_unknown_iff.mpr (check_eq_unknown_iff.mp hcheck)

theorem check_true_ne_ignored (offered : String) :
    check current advertised true ≠ prereleaseIgnored offered := by
  intro hignored
  obtain ⟨-, -, -, -, -, ⟨-, hexcluded⟩, -⟩ := check_eq_prereleaseIgnored_iff.mp hignored
  contradiction

/-- While prereleases are left out no update is one. -/
theorem exists_read_of_updateAvailable {shown offered : String}
    (hcheck : check current advertised false = updateAvailable shown offered) :
    ∃ w, Version.read offered = .ok w ∧ w.stage.channel ∉ Channel.known := by
  obtain ⟨v, w, -, hw, -, hincluded, -, rfl⟩ := check_eq_updateAvailable_iff.mp hcheck
  rw [Version.isPrerelease_iff] at hincluded
  exact ⟨w, hw.read_text, fun hknown => absurd (hincluded hknown) Bool.false_ne_true⟩

/-- What is ignored is a prerelease that is newer than the current version. -/
theorem exists_read_of_prereleaseIgnored {includePrereleases : Bool} {offered : String}
    (hcheck : check current advertised includePrereleases = prereleaseIgnored offered) :
    ∃ w, Version.read offered = .ok w ∧ w.stage.channel ∈ Channel.known ∧
      hasReached (some offered) current = true ∧ hasReached current (some offered) = false := by
  obtain ⟨v, w, hv, hw, hnewer, ⟨hprerelease, -⟩, rfl⟩ := check_eq_prereleaseIgnored_iff.mp hcheck
  have hoffered : Spells (some w.text) w := spells_some_iff.mpr hw.read_text
  refine ⟨w, hw.read_text, Version.isPrerelease_iff.mp hprerelease, ?_, ?_⟩
  · exact (hasReached_of_spells hoffered hv).mpr (Version.le_of_lt hnewer)
  · rw [← Bool.not_eq_true, hasReached_of_spells hv hoffered]
    exact Version.not_le.mpr hnewer

end

end Verdict

/-- Including prereleases does no more than to turn an ignored prerelease into an update.  Every
other verdict is the same with them and without, in all that it shows, and with them none is
ignored.  Without them an update is never a prerelease, and what is ignored is a prerelease that the
client has not reached. -/
theorem inclusion_only_lifts_ignored (current advertised : Option String) :
    (∀ offered, Verdict.check current advertised false = .prereleaseIgnored offered →
      ∃ v, Spells current v ∧
        Verdict.check current advertised true = .updateAvailable v.text offered) ∧
    ((∀ offered, Verdict.check current advertised false ≠ .prereleaseIgnored offered) →
      Verdict.check current advertised true = Verdict.check current advertised false) ∧
    (∀ offered, Verdict.check current advertised true ≠ .prereleaseIgnored offered) ∧
    (∀ shown offered, Verdict.check current advertised false = .updateAvailable shown offered →
      ∃ w, Version.read offered = .ok w ∧ w.stage.channel ∉ Channel.known) ∧
    ∀ offered, Verdict.check current advertised false = .prereleaseIgnored offered →
      ∃ w, Version.read offered = .ok w ∧ w.stage.channel ∈ Channel.known ∧
        hasReached (some offered) current = true ∧ hasReached current (some offered) = false :=
  ⟨fun _ => Verdict.check_true_of_ignored, Verdict.check_true_of_not_ignored,
    Verdict.check_true_ne_ignored, fun _ _ => Verdict.exists_read_of_updateAvailable,
    fun _ => Verdict.exists_read_of_prereleaseIgnored⟩

/-- A candidate for the next release, that release itself, and a text that is missing. -/
theorem inclusion_lifts_candidate :
    Verdict.check (some "v1.2.3") (some "1.2.4-RC1") false = .prereleaseIgnored "1.2.4-rc1" ∧
      (∃ v, Spells (some "v1.2.3") v ∧ Verdict.check (some "v1.2.3") (some "1.2.4-RC1") true =
        .updateAvailable v.text "1.2.4-rc1") ∧
      hasReached (some "v1.2.3") (some "1.2.4-rc1") = false ∧
      Verdict.check (some "v1.2.3") (some "1.2.4") false = .updateAvailable "1.2.3" "1.2.4" ∧
      (∃ w, Version.read "1.2.4" = .ok w ∧ w.stage.channel ∉ Channel.known) ∧
      Verdict.check none (some "1.2.4-RC1") true = Verdict.check none (some "1.2.4-RC1") false := by
  have hignored : Verdict.check (some "v1.2.3") (some "1.2.4-RC1") false =
      .prereleaseIgnored "1.2.4-rc1" := by decide
  have hupdate : Verdict.check (some "v1.2.3") (some "1.2.4") false =
      .updateAvailable "1.2.3" "1.2.4" := by decide
  have hmissing : Verdict.check none (some "1.2.4-RC1") false = .unknown .noCurrentVersion := rfl
  obtain ⟨hlifted, -, -, -, hnewer⟩ :=
    inclusion_only_lifts_ignored (some "v1.2.3") (some "1.2.4-RC1")
  obtain ⟨-, -, -, hrelease, -⟩ := inclusion_only_lifts_ignored (some "v1.2.3") (some "1.2.4")
  obtain ⟨-, hkept, -⟩ := inclusion_only_lifts_ignored none (some "1.2.4-RC1")
  obtain ⟨-, -, -, -, hbehind⟩ := hnewer _ hignored
  exact ⟨hignored, hlifted _ hignored, hbehind, hupdate, hrelease _ _ hupdate,
    hkept fun offered => by simp [hmissing]⟩

end Freshness
