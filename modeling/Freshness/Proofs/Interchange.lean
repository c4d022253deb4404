import Freshness.Proofs.Agreement

/-!
# Texts that spell equal versions

The comparison and the update check see of a text only the version that it spells, and of that
version only what `==` compares.  A text may therefore be replaced by any other that spells an equal
version, on either side and wherever the other text is missing or malformed: the comparison comes
out the same, and so does the kind of the verdict.
-/

namespace Freshness

/-- Which of the four verdicts it is, whatever it reports. -/
inductive Verdict.Kind
  | upToDate
  | updateAvailable
  | prereleaseIgnored
  | unknown
  deriving DecidableEq, Repr

def Verdict.kind : Verdict → Verdict.Kind
  | upToDate _ => .upToDate
  | updateAvailable _ _ => .updateAvailable
  | prereleaseIgnored _ => .prereleaseIgnored
  | unknown _ => .unknown

/-- Whatever version one of the texts spells, the other spells an equal one. -/
def SpellAlike (a b : Option String) : Prop :=
  (∀ v, Spells a v → ∃ w, Spells b w ∧ (v == w) = true) ∧
    ∀ w, Spells b w → ∃ v, Spells a v ∧ (w == v) = true

namespace SpellAlike

variable {a b c d : Option String}

theorem refl (a : Option String) : SpellAlike a a :=
  ⟨fun v hv => ⟨v, hv, Version.beq_refl v⟩, fun v hv => ⟨v, hv, Version.beq_refl v⟩⟩

theorem symm (hab : SpellAlike a b) : SpellAlike b a :=
  ⟨hab.2, hab.1⟩

theorem reached (hab : SpellAlike a b) (hcd : SpellAlike c d) (hreached : hasReached a c = true) :
    hasReached b d = true := by
  obtain ⟨v, w, hv, hw, hle⟩ := hasReached_iff.mp hreached
  obtain ⟨v', hv', hequal⟩ := hab.1 v hv
  obtain ⟨w', hw', hequal'⟩ := hcd.1 w hw
  exact hasReached_iff.mpr ⟨v', w', hv', hw', (Version.le_congr hequal' hequal).mp hle⟩

/-- Texts that spell equal versions have reached the same baselines. -/
theorem hasReached_eq (hab : SpellAlike a b) (hcd : SpellAlike c d) :
    hasReached a c = hasReached b d := by
  rw [Bool.eq_iff_iff]
  exact ⟨hab.reached hcd, hab.symm.reached hcd.symm⟩

theorem compared {a b c d : String} (hab : SpellAlike (some a) (some b))
    (hcd : SpellAlike (some c) (some d)) {ordering : Ordering}
    (hcompare : compareWritten a c = .ok ordering) : compareWritten b d = .ok ordering := by
  obtain ⟨v, w, hv, hw, rfl⟩ := compareWritten_eq_ok_iff.mp hcompare
  obtain ⟨v', hv', hequal⟩ := hab.1 v (spells_some_iff.mpr hv)
  obtain ⟨w', hw', hequal'⟩ := hcd.1 w (spells_some_iff.mpr hw)
  rw [spells_some_iff] at hv' hw'
  refine compareWritten_eq_ok_iff.mpr ⟨v', w', hv', hw', ?_⟩
  rw [(Version.compare_congr hequal w).1, (Version.compare_congr hequal' v').2.1]

/-- Texts that spell equal versions compare in the same way. -/
theorem compareWritten_iff {a b c d : String} (hab : SpellAlike (some a) (some b))
    (hcd : SpellAlike (some c) (some d)) (ordering : Ordering) :
    compareWritten a c = .ok ordering ↔ compareWritten b d = .ok ordering :=
  ⟨hab.compared hcd, hab.symm.compared hcd.symm⟩

theorem unreadable (hab : SpellAlike a b) (ha : Unreadable a) : Unreadable b := by
  rw [unreadable_iff] at ha ⊢
  rintro ⟨w, hw⟩
  obtain ⟨v, hv, -⟩ := hab.2 w hw
  exact ha ⟨v, hv⟩

end SpellAlike

namespace Verdict

/-- Equal versions lead to the same kind of verdict, though it may report them differently. -/
theorem kind_ofVersions_congr {v v' w w' : Version} (hv : (v == v') = true) (hw : (w == w') = true)
    (includePrereleases : Bool) :
    (ofVersions v w includePrereleases).kind = (ofVersions v' w' includePrereleases).kind := by
  have hle : w ≤ v ↔ w' ≤ v' := Version.le_congr hw hv
  rw [ofVersions, ofVersions, Version.isPrerelease_congr hw]
  split
  · next hreached =>
      rw [if_pos (hle.mp hreached)]
      simp only [kind]
  · next hnewer =>
      rw [if_neg (mt hle.mpr hnewer)]
      split <;> simp only [kind]

theorem kind_check_of_unreadable {a c : Option String} (hunreadable : Unreadable a ∨ Unreadable c)
    (includePrereleases : Bool) : (check a c includePrereleases).kind = .unknown := by
  obtain ⟨obstacle, hcheck⟩ := (exists_check_eq_unknown_iff includePrereleases).mpr hunreadable
  rw [hcheck]
  rfl

/-- The kind of the verdict does not depend on how the versions are spelled. -/
theorem kind_check_congr {a b c d : Option String} (hab : SpellAlike a b) (hcd : SpellAlike c d)
    (includePrereleases : Bool) :
    (check a c includePrereleases).kind = (check b d includePrereleases).kind := by
  by_cases hunreadable : Unreadable a ∨ Unreadable c
  · rw [kind_check_of_unreadable hunreadable,
      kind_check_of_unreadable (hunreadable.imp hab.unreadable hcd.unreadable)]
  · rw [not_or, unreadable_iff, unreadable_iff, not_not, not_not] at hunreadable
    obtain ⟨⟨v, hv⟩, w, hw⟩ := hunreadable
    obtain ⟨v', hv', hequal⟩ := hab.1 v hv
    obtain ⟨w', hw', hequal'⟩ := hcd.1 w hw
    rw [check_of_spells hv hw, check_of_spells hv' hw']
    exact kind_ofVersions_congr hequal hequal' includePrereleases

end Verdict

end Freshness
