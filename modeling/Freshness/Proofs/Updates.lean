import Freshness.Proofs.Agreement

/-!
# Runs of updates

A client adopts one offer after another, each of them an update of the version that it runs at
that time, and may change its mind about prereleases from step to step.  An update is always a
newer version, so a run leads ever upwards: its last offer is also an update of the version that
it began with (`UpdateRun.outdated_getLast`).  A version that was reported as an update is up to
date once it is adopted.
-/

namespace Freshness

/-! ## One update -/

/-- A client that runs `current` is out of date when `advertised` is on offer. -/
def Outdated (includePrereleases : Bool) (current advertised : String) : Prop :=
  (Verdict.check (some current) (some advertised) includePrereleases).isOutdated = true

theorem outdated_iff {includePrereleases : Bool} {current advertised : String} :
    Outdated includePrereleases current advertised ↔
      ∃ v w, Version.read current = .ok v ∧ Version.read advertised = .ok w ∧ v < w ∧
        (w.isPrerelease = true → includePrereleases = true) := by
  rw [Outdated, Verdict.isOutdated_iff]
  simp only [Verdict.check_eq_updateAvailable_iff, spells_some_iff]
  constructor
  · rintro ⟨-, -, v, w, hv, hw, hnewer, hincluded, -, -⟩
    exact ⟨v, w, hv, hw, hnewer, hincluded⟩
  · rintro ⟨v, w, hv, hw, hnewer, hincluded⟩
    exact ⟨v.text, w.text, v, w, hv, hw, hnewer, hincluded, rfl, rfl⟩

/-- With prereleases included, a client is out of date when the advertised version has reached the
current one and has not been reached by it. -/
theorem outdated_true_iff {current advertised : String} :
    Outdated true current advertised ↔
      hasReached (some advertised) (some current) = true ∧
        hasReached (some current) (some advertised) = false := by
  rw [outdated_iff]
  constructor
  · rintro ⟨v, w, hv, hw, hnewer, -⟩
    rw [← spells_some_iff] at hv hw
    rw [← Bool.not_eq_true, hasReached_of_spells hw hv, hasReached_of_spells hv hw]
    exact ⟨Version.le_of_lt hnewer, Version.not_le.mpr hnewer⟩
  · rintro ⟨hreached, hnot⟩
    obtain ⟨w, v, hw, hv, -⟩ := hasReached_iff.mp hreached
    rw [← Bool.not_eq_true, hasReached_of_spells hv hw] at hnot
    exact ⟨v, w, spells_some_iff.mp hv, spells_some_iff.mp hw, Version.not_le.mp hnot,
      fun _ => rfl⟩

namespace Outdated

variable {includePrereleases : Bool} {current advertised : String}

/-- Including prereleases takes no update away. -/
theorem include_prereleases (houtdated : Outdated includePrereleases current advertised) :
    Outdated true current advertised := by
  obtain ⟨v, w, hv, hw, hnewer, -⟩ := outdated_iff.mp houtdated
  exact outdated_iff.mpr ⟨v, w, hv, hw, hnewer, fun _ => rfl⟩

theorem not_hasReached (houtdated : Outdated includePrereleases current advertised) :
    hasReached (some current) (some advertised) = false :=
  (outdated_true_iff.mp houtdated.include_prereleases).2

/-- A client that is no newer is out of date as well. -/
theorem of_older {older : String} (houtdated : Outdated includePrereleases current advertised)
    (hreached : hasReached (some current) (some older) = true) :
    Outdated includePrereleases older advertised := by
  obtain ⟨v, w, hv, hw, hnewer, hincluded⟩ := outdated_iff.mp houtdated
  obtain ⟨v', u, hv', hu, hle⟩ := hasReached_iff.mp hreached
  obtain rfl := hv'.unique (spells_some_iff.mpr hv)
  exact outdated_iff.mpr
    ⟨u, w, spells_some_iff.mp hu, hw, Version.lt_of_le_of_lt hle hnewer, hincluded⟩

/-- An offer that is no older makes the client out of date as well, unless it is a prerelease and
those are left out. -/
theorem of_newer {newer : String} (houtdated : Outdated includePrereleases current advertised)
    (hreached : hasReached (some newer) (some advertised) = true)
    (hincluded : includePrereleases = true ∨
      ¬∃ version, Version.read newer = .ok version ∧ version.isPrerelease = true) :
    Outdated includePrereleases current newer := by
  obtain ⟨v, w, hv, hw, hnewer, -⟩ := outdated_iff.mp houtdated
  obtain ⟨u, w', hu, hw', hle⟩ := hasReached_iff.mp hreached
  obtain rfl := hw'.unique (spells_some_iff.mpr hw)
  rw [spells_some_iff] at hu
  refine outdated_iff.mpr ⟨v, u, hv, hu, Version.lt_of_lt_of_le hnewer hle, ?_⟩
  intro hprerelease
  exact hincluded.resolve_right fun hnone => hnone ⟨u, hu, hprerelease⟩

/-- Two updates in a row make one, on the terms of the second. -/
theorem trans {includedFirst : Bool} {middle : String}
    (hfirst : Outdated includedFirst current middle)
    (hsecond : Outdated includePrereleases middle advertised) :
    Outdated includePrereleases current advertised := by
  obtain ⟨u, v, hu, hv, hnewer, -⟩ := outdated_iff.mp hfirst
  obtain ⟨v', w, hv', hw, hnewer', hincluded⟩ := outdated_iff.mp hsecond
  rw [hv, Except.ok.injEq] at hv'
  subst hv'
  exact outdated_iff.mpr ⟨u, w, hu, hw, Version.lt_trans hnewer hnewer', hincluded⟩

end Outdated

/-- What is reported as an update can be read again, and then nothing newer is on offer. -/
theorem Verdict.check_adopted {current advertised : Option String} {shown offered : String}
    {includePrereleases : Bool}
    (hcheck : check current advertised includePrereleases = updateAvailable shown offered)
    (includedThen : Bool) :
    check (some offered) advertised includedThen = upToDate offered := by
  obtain ⟨v, w, -, hw, -, -, -, rfl⟩ := check_eq_updateAvailable_iff.mp hcheck
  have hadopted : Spells (some w.text) w := spells_some_iff.mpr hw.read_text
  exact check_eq_upToDate_iff.mpr ⟨w, w, hadopted, hw, Version.le_refl w, rfl⟩

/-! ## Runs -/

/-- A version on offer, and whether the client includes prereleases when it learns of it. -/
structure Offer where
  advertised : String
  includePrereleases : Bool

/-- A client that begins with `current` adopts the offers one after another, and each of them is
an update of the one before. -/
inductive UpdateRun : String → List Offer → Prop
  | nil (current : String) : UpdateRun current []
  | cons {current : String} {offer : Offer} {offers : List Offer}
      (houtdated : Outdated offer.includePrereleases current offer.advertised)
      (hrest : UpdateRun offer.advertised offers) : UpdateRun current (offer :: offers)

/-- The last offer of a run is an update of the version that the run began with. -/
theorem UpdateRun.outdated_getLast {current : String} {offers : List Offer}
    (hrun : UpdateRun current offers) (hne : offers ≠ []) :
    Outdated (offers.getLast hne).includePrereleases current (offers.getLast hne).advertised := by
  induction hrun with
  | nil => contradiction
  | @cons current offer offers houtdated hrest ih =>
      cases offers with
      | nil => exact houtdated
      | cons next offers =>
          rw [List.getLast_cons (List.cons_ne_nil next offers)]
          exact houtdated.trans (ih (List.cons_ne_nil next offers))

/-- Updates lead upwards.  The last offer of a run, of any length and with prereleases included or
not at each step, is an update of the version that the run began with, which has not reached it.  A
client that is no newer is out of date as well, and so is one that gets an offer which is no older,
unless that is a prerelease and those are left out.  A client that adopts what was reported is up to
date. -/
theorem updates_lead_upwards :
    (∀ (current : String) (offers : List Offer) (hne : offers ≠ []), UpdateRun current offers →
      Outdated (offers.getLast hne).includePrereleases current (offers.getLast hne).advertised ∧
      Outdated true current (offers.getLast hne).advertised ∧
      hasReached (some current) (some (offers.getLast hne).advertised) = false) ∧
    (∀ (included : Bool) (current older advertised : String),
      Outdated included current advertised → hasReached (some current) (some older) = true →
        Outdated included older advertised) ∧
    (∀ (included : Bool) (current advertised newer : String),
      Outdated included current advertised → hasReached (some newer) (some advertised) = true →
        (included = true ∨
          ¬∃ version, Version.read newer = .ok version ∧ version.isPrerelease = true) →
        Outdated included current newer) ∧
    ∀ (included includedThen : Bool) (current advertised shown offered : String),
      Verdict.check (some current) (some advertised) included =
          .updateAvailable shown offered →
        Verdict.check (some offered) (some advertised) includedThen = .upToDate offered := by
  refine ⟨?_, ?_, ?_, ?_⟩
  · intro current offers hne hrun
    have houtdated := hrun.outdated_getLast hne
    exact ⟨houtdated, houtdated.include_prereleases, houtdated.not_hasReached⟩
  · exact fun included current older advertised => Outdated.of_older
  · exact fun included current advertised newer => Outdated.of_newer
  · intro included includedThen current advertised shown offered hcheck
    exact Verdict.check_adopted hcheck includedThen

/-- A beta that is accepted, its release, and a version with a tag that nobody recognizes. -/
theorem updates_lead_from_alpha_past_release :
    let offers : List Offer := [⟨"1.2.3-Beta2", true⟩, ⟨"v1.2.3", false⟩, ⟨"1.2.3.zeta", false⟩]
    UpdateRun "1.2.3-alpha" offers ∧ hasReached (some "1.2.3-alpha") (some "1.2.3.zeta") = false ∧
      hasReached (some "1.2.3-alpha") (some "1.2.3-dev") = true ∧
      Outdated true "1.2.3-dev" "1.2.3-Beta2" ∧
      hasReached (some "1.2.3-rc") (some "1.2.3-Beta2") = true ∧
      Outdated true "1.2.3-alpha" "1.2.3-rc" ∧
      Verdict.check (some "1.2.3-alpha") (some "1.2.3-Beta2") true =
        .updateAvailable "1.2.3-alpha" "1.2.3-beta2" ∧
      Verdict.check (some "1.2.3-beta2") (some "1.2.3-Beta2") false = .upToDate "1.2.3-beta2" := by
  intro offers
  have hbeta : Outdated true "1.2.3-alpha" "1.2.3-Beta2" := rfl
  have hrun : UpdateRun "1.2.3-alpha" offers := .cons hbeta (.cons rfl (.cons rfl (.nil _)))
  have holder : hasReached (some "1.2.3-alpha") (some "1.2.3-dev") = true := by decide
  have hnewer : hasReached (some "1.2.3-rc") (some "1.2.3-Beta2") = true := by decide
  have hcheck : Verdict.check (some "1.2.3-alpha") (some "1.2.3-Beta2") true =
      .updateAvailable "1.2.3-alpha" "1.2.3-beta2" := by decide
  obtain ⟨hlast, holderOutdated, hnewerOutdated, hadopted⟩ := updates_lead_upwards
  exact ⟨hrun, (hlast _ offers (List.cons_ne_nil _ _) hrun).2.2, holder,
    holderOutdated _ _ _ _ hbeta holder, hnewer,
    hnewerOutdated _ _ _ _ hbeta hnewer (Or.inl rfl), hcheck, hadopted _ _ _ _ _ _ hcheck⟩

end Freshness
