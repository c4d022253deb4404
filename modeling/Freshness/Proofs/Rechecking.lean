import Freshness.Proofs.Interchange

/-!
# Checking again

The update check sees of its texts only the versions that they spell.  Other spellings of the very
same versions get the same verdict, word for word, and so does the written form of a version, which
is what a verdict shows.  A client can therefore check again what was reported to it.  Spellings of
versions that are merely equal get a verdict of the same kind, for the kind is decided by the order
of versions and by whether the advertised one is a prerelease, and neither tells equal versions
apart.
-/

namespace Freshness

/-- Texts that spell equal versions may stand for each other. -/
theorem spellAlike_of_beq {a b : Option String} {v w : Version} (ha : Spells a v) (hb : Spells b w)
    (hequal : (v == w) = true) : SpellAlike a b := by
  constructor
  · intro v' hv'
    rw [hv'.unique ha]
    exact ⟨w, hb, hequal⟩
  · intro w' hw'
    rw [hw'.unique hb]
    exact ⟨v, ha, Version.beq_symm hequal⟩

namespace Verdict

/-- Whether a verdict says that the client is out of date depends on its kind alone. -/
theorem isOutdated_eq_of_kind_eq {a b : Verdict} (hkind : a.kind = b.kind) :
    a.isOutdated = b.isOutdated := by
  have hdecided : ∀ verdict : Verdict,
      verdict.isOutdated = decide (verdict.kind = .updateAvailable) := by
    intro verdict
    cases verdict <;> rfl
  rw [hdecided, hdecided, hkind]

/-- The current version may be spelled in another way. -/
theorem check_congr_current {a b : Option String} {v : Version} (ha : Spells a v)
    (hb : Spells b v) (advertised : Option String) (includePrereleases : Bool) :
    check a advertised includePrereleases = check b advertised includePrereleases := by
  obtain ⟨a', ha', hreadA⟩ := spells_iff_given.mp ha
  obtain ⟨b', hb', hreadB⟩ := spells_iff_given.mp hb
  have hversions : versions a advertised = versions b advertised := by
    cases hadvertised : given? advertised with
    | none =>
        rw [versions_of_no_advertised ha' hadvertised, versions_of_no_advertised hb' hadvertised]
    | some offered =>
        rw [versions_of_given ha' hadvertised, versions_of_given hb' hadvertised, hreadA, hreadB]
  rw [check, check, hversions]

/-- The advertised version may be spelled in another way. -/
theorem check_congr_advertised {a b : Option String} {w : Version} (ha : Spells a w)
    (hb : Spells b w) (current : Option String) (includePrereleases : Bool) :
    check current a includePrereleases = check current b includePrereleases := by
  obtain ⟨a', ha', hreadA⟩ := spells_iff_given.mp ha
  obtain ⟨b', hb', hreadB⟩ := spells_iff_given.mp hb
  have hversions : versions current a = versions current b := by
    cases hcurrent : given? current with
    | none => rw [versions_of_no_current hcurrent, versions_of_no_current hcurrent]
    | some installed =>
        rw [versions_of_given hcurrent ha', versions_of_given hcurrent hb', hreadA, hreadB]
  rw [check, check, hversions]

/-- The written form of the current version may stand for any spelling of it. -/
theorem check_text_current {current : Option String} {v : Version} (hv : Spells current v)
    (advertised : Option String) (includePrereleases : Bool) :
    check (some v.text) advertised includePrereleases =
      check current advertised includePrereleases :=
  check_congr_current (spells_some_iff.mpr hv.read_text) hv advertised includePrereleases

/-- The written form of the advertised version may stand for any spelling of it. -/
theorem check_text_advertised {advertised : Option String} {w : Version}
    (hw : Spells advertised w) (current : Option String) (includePrereleases : Bool) :
    check current (some w.text) includePrereleases =
      check current advertised includePrereleases :=
  check_congr_advertised (spells_some_iff.mpr hw.read_text) hw current includePrereleases

/-- An update that was reported is reported again for the versions that were shown. -/
theorem check_reported {current advertised : Option String} {includePrereleases : Bool}
    {shown offered : String}
    (hcheck : check current advertised includePrereleases = updateAvailable shown offered) :
    check (some shown) (some offered) includePrereleases = updateAvailable shown offered := by
  obtain ⟨v, w, hv, hw, -, -, rfl, rfl⟩ := check_eq_updateAvailable_iff.mp hcheck
  calc
    check (some v.text) (some w.text) includePrereleases =
        check current (some w.text) includePrereleases := check_text_current hv _ _
    _ = check current advertised includePrereleases := check_text_advertised hw _ _
    _ = updateAvailable v.text w.text := hcheck

end Verdict

/-- The update check sees of its texts only the versions that they spell.  Texts that spell equal
versions get verdicts of the same kind, which agree on whether the client is out of date.  The
written form of a version may stand for the text that spells it, on either side or on both, and the
verdict is the same in all that it shows.  An update that was reported is reported again for the
versions that were shown. -/
theorem check_sees_only_versions (includePrereleases : Bool) :
    (∀ (current current' advertised advertised' : String) (v v' w w' : Version),
      Version.read current = .ok v → Version.read current' = .ok v' →
      Version.read advertised = .ok w → Version.read advertised' = .ok w' →
      (v == v') = true → (w == w') = true →
        let verdict := Verdict.check (some current) (some advertised) includePrereleases
        let verdict' := Verdict.check (some current') (some advertised') includePrereleases
        verdict.kind = verdict'.kind ∧ verdict.isOutdated = verdict'.isOutdated) ∧
    (∀ (current advertised : String) (v w : Version),
      Version.read current = .ok v → Version.read advertised = .ok w →
        let verdict := Verdict.check (some current) (some advertised) includePrereleases
        Verdict.check (some v.text) (some advertised) includePrereleases = verdict ∧
        Verdict.check (some current) (some w.text) includePrereleases = verdict ∧
        Verdict.check (some v.text) (some w.text) includePrereleases = verdict) ∧
    ∀ (current advertised : Option String) (shown offered : String),
      Verdict.check current advertised includePrereleases = .updateAvailable shown offered →
        Verdict.check (some shown) (some offered) includePrereleases =
          .updateAvailable shown offered := by
  simp only [← spells_some_iff]
  refine ⟨?_, ?_, fun current advertised shown offered => Verdict.check_reported⟩
  · intro current current' advertised advertised' v v' w w' hv hv' hw hw' hequal hequal'
    have hkind := Verdict.kind_check_congr (spellAlike_of_beq hv hv' hequal)
      (spellAlike_of_beq hw hw' hequal') includePrereleases
    exact ⟨hkind, Verdict.isOutdated_eq_of_kind_eq hkind⟩
  · intro current advertised v w hv hw
    have hcurrent := Verdict.check_text_current hv (some advertised) includePrereleases
    have hadvertised := Verdict.check_text_advertised hw (some current) includePrereleases
    have hboth := Verdict.check_text_current hv (some w.text) includePrereleases
    exact ⟨hcurrent, hadvertised, hboth.trans hadvertised⟩

/-- Two tags that nobody recognizes, two spellings of a candidate, and a check of what was shown. -/
theorem check_sees_zeta_as_eta :
    (Verdict.check (some "1.2.3-Zeta") (some "v01.2.4-RC1") false).kind =
      (Verdict.check (some "V1.2.3.eta") (some "1.2.4.rc01") false).kind ∧
    Verdict.check (some "1.2.3-zeta") (some "1.2.4-rc1") false =
      Verdict.check (some "1.2.3-Zeta") (some "v01.2.4-RC1") false ∧
    Verdict.check (some "1.2.3-Zeta") (some "v01.2.4-RC1") true =
      .updateAvailable "1.2.3-zeta" "1.2.4-rc1" ∧
    Verdict.check (some "1.2.3-zeta") (some "1.2.4-rc1") true =
      .updateAvailable "1.2.3-zeta" "1.2.4-rc1" := by
  obtain ⟨hkind, hwritten, -⟩ := check_sees_only_versions false
  obtain ⟨-, -, hreported⟩ := check_sees_only_versions true
  have hzeta : Version.read "1.2.3-Zeta" = .ok ⟨1, 2, 3, ⟨.unrecognized "zeta", -1⟩⟩ := rfl
  have heta : Version.read "V1.2.3.eta" = .ok ⟨1, 2, 3, ⟨.unrecognized "eta", -1⟩⟩ := rfl
  have hcandidate : Version.read "v01.2.4-RC1" = .ok ⟨1, 2, 4, ⟨.releaseCandidate, 1⟩⟩ := rfl
  have hpadded : Version.read "1.2.4.rc01" = .ok ⟨1, 2, 4, ⟨.releaseCandidate, 1⟩⟩ := rfl
  have hcheck : Verdict.check (some "1.2.3-Zeta") (some "v01.2.4-RC1") true =
      .updateAvailable "1.2.3-zeta" "1.2.4-rc1" := by decide
  exact ⟨(hkind _ _ _ _ _ _ _ _ hzeta heta hcandidate hpadded (by decide) (by decide)).1,
    (hwritten _ _ _ _ hzeta hcandidate).2.2, hcheck, hreported _ _ _ _ hcheck⟩

end Freshness
