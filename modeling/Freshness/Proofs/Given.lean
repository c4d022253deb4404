import Freshness.Proofs.Ordering
import Freshness.Proofs.Reading
import Freshness.Verdict

/-!
# Given texts

The comparison of two given texts and the update check both look past texts that are missing,
empty or malformed, each in its own way.  Here both are reduced to the same thing: the versions
that the texts spell (`hasReached_iff`, `versions_eq_ok_iff`).
-/

namespace Freshness

/-- The text is there and spells the version. -/
def Spells (text : Option String) (version : Version) : Prop :=
  ∃ input, text = some input ∧ Version.read input = .ok version

/-- The text is missing, empty or malformed. -/
def Unreadable (text : Option String) : Prop :=
  text = none ∨ text = some "" ∨
    ∃ input cause, text = some input ∧ Version.read input = .error cause

theorem spells_some_iff {input : String} {version : Version} :
    Spells (some input) version ↔ Version.read input = .ok version := by
  simp [Spells]

theorem Spells.unique {text : Option String} {v w : Version} (hv : Spells text v)
    (hw : Spells text w) : v = w := by
  obtain ⟨input, rfl, hread⟩ := hv
  obtain ⟨input', hinput, hread'⟩ := hw
  rw [Option.some.injEq] at hinput
  subst hinput
  rwa [hread, Except.ok.injEq] at hread'

theorem read_empty_ne_ok (version : Version) : Version.read "" ≠ .ok version := by
  intro hread
  have hempty : Version.read "" = .error ⟨"", .tooFewComponents⟩ := rfl
  rw [hempty] at hread
  contradiction

theorem unreadable_iff {text : Option String} :
    Unreadable text ↔ ¬∃ version, Spells text version := by
  constructor
  · rintro (rfl | rfl | ⟨input, cause, rfl, herror⟩) ⟨version, input', hinput, hread⟩
    · contradiction
    · rw [Option.some.injEq] at hinput
      subst hinput
      exact read_empty_ne_ok version hread
    · rw [Option.some.injEq] at hinput
      subst hinput
      rw [herror] at hread
      contradiction
  · intro hnone
    cases text with
    | none => exact Or.inl rfl
    | some input =>
        cases hread : Version.read input with
        | ok version => exact absurd ⟨version, input, rfl, hread⟩ hnone
        | error cause => exact Or.inr (Or.inr ⟨input, cause, rfl, hread⟩)

/-- The empty text spells nothing, so leaving it out makes no difference. -/
theorem spells_iff_given {text : Option String} {version : Version} :
    Spells text version ↔
      ∃ input, given? text = some input ∧ Version.read input = .ok version := by
  constructor
  · rintro ⟨input, rfl, hread⟩
    refine ⟨input, ?_, hread⟩
    have hne : input ≠ "" := by
      rintro rfl
      exact read_empty_ne_ok version hread
    simp [given?, hne]
  · rintro ⟨input, hinput, hread⟩
    rw [given?, Option.filter_eq_some_iff] at hinput
    exact ⟨input, hinput.1, hread⟩

/-! ## The comparison -/

/-- Two texts compare as the versions they spell. -/
theorem compareWritten_eq_ok_iff {a b : String} {ordering : Ordering} :
    compareWritten a b = .ok ordering ↔
      ∃ v w, Version.read a = .ok v ∧ Version.read b = .ok w ∧ compare v w = ordering := by
  rw [compareWritten]
  simp only [bind_eq_ok_iff]
  constructor
  · rintro ⟨v, hv, w, hw, hordering⟩
    exact ⟨v, w, hv, hw, Except.ok.inj hordering⟩
  · rintro ⟨v, w, hv, hw, hordering⟩
    exact ⟨v, hv, w, hw, congrArg Except.ok hordering⟩

/-- A candidate has reached a baseline when both spell versions and that of the baseline is not
newer. -/
theorem hasReached_iff {candidate baseline : Option String} :
    hasReached candidate baseline = true ↔
      ∃ v w, Spells candidate v ∧ Spells baseline w ∧ w ≤ v := by
  simp only [spells_iff_given]
  rw [hasReached]
  split
  · next a b ha hb =>
      split
      · next ordering hordering =>
          obtain ⟨v, w, hv, hw, rfl⟩ := compareWritten_eq_ok_iff.mp hordering
          rw [← Version.le_iff_isGE]
          constructor
          · intro hle
            exact ⟨v, w, ⟨a, ha, hv⟩, ⟨b, hb, hw⟩, hle⟩
          · rintro ⟨v', w', ⟨a', ha', hv'⟩, ⟨b', hb', hw'⟩, hle⟩
            simp_all
      · next herror =>
          simp only [Bool.false_eq_true, false_iff]
          rintro ⟨v, w, ⟨a', ha', hv⟩, ⟨b', hb', hw⟩, -⟩
          have hok : compareWritten a' b' = .ok (compare v w) :=
            compareWritten_eq_ok_iff.mpr ⟨v, w, hv, hw, rfl⟩
          simp_all
  · next hmissing =>
      simp only [Bool.false_eq_true, false_iff]
      rintro ⟨v, w, ⟨a, ha, -⟩, ⟨b, hb, -⟩, -⟩
      exact hmissing a b ha hb

variable {current advertised : Option String} {v w : Version}

/-- A text has reached another one if its version is the same or newer. -/
theorem hasReached_of_spells (hv : Spells current v) (hw : Spells advertised w) :
    hasReached current advertised = true ↔ w ≤ v := by
  rw [hasReached_iff]
  constructor
  · rintro ⟨v', w', hv', hw', hle⟩
    rwa [hv.unique hv', hw.unique hw']
  · intro hle
    exact ⟨v, w, hv, hw, hle⟩

/-- A text reaches itself when it spells a version at all. -/
theorem hasReached_self_iff {text : Option String} :
    hasReached text text = true ↔ ∃ version, Spells text version := by
  rw [hasReached_iff]
  constructor
  · rintro ⟨version, -, hversion, -, -⟩
    exact ⟨version, hversion⟩
  · rintro ⟨version, hversion⟩
    exact ⟨version, version, hversion, hversion, Version.le_refl version⟩

theorem unreadable_iff_hasReached_self {text : Option String} :
    Unreadable text ↔ hasReached text text = false := by
  rw [unreadable_iff, ← hasReached_self_iff, Bool.not_eq_true]

/-! ## The update check -/

namespace Verdict

/-! The texts are looked for one after the other, and then read one after the other. -/

theorem versions_of_no_current (hcurrent : given? current = none) :
    versions current advertised = .error .noCurrentVersion := by
  rw [versions, hcurrent]
  rfl

theorem versions_of_no_advertised {a : String} (hcurrent : given? current = some a)
    (hadvertised : given? advertised = none) :
    versions current advertised = .error .noAdvertisedVersion := by
  rw [versions, hcurrent, hadvertised]
  rfl

theorem versions_of_given {a b : String} (hcurrent : given? current = some a)
    (hadvertised : given? advertised = some b) :
    versions current advertised =
      (Version.read a).mapError .malformed >>= fun v =>
        (Version.read b).mapError .malformed >>= fun w => .ok (v, w) := by
  rw [versions, hcurrent, hadvertised]
  rfl

/-- A check has its two versions just when both texts are there and spell them. -/
theorem versions_eq_ok_iff :
    versions current advertised = .ok (v, w) ↔ Spells current v ∧ Spells advertised w := by
  simp only [spells_iff_given]
  cases hcurrent : given? current with
  | none => simp [versions_of_no_current hcurrent]
  | some a =>
      cases hadvertised : given? advertised with
      | none => simp [versions_of_no_advertised hcurrent hadvertised]
      | some b =>
          simp only [versions_of_given hcurrent hadvertised, bind_eq_ok_iff, mapError_eq_ok_iff,
            Option.some.injEq, exists_eq_left']
          constructor
          · rintro ⟨v', hv, w', hw, hpair⟩
            obtain ⟨rfl, rfl⟩ := Prod.mk.inj (Except.ok.inj hpair)
            exact ⟨hv, hw⟩
          · rintro ⟨hv, hw⟩
            exact ⟨v, hv, w, hw, rfl⟩

/-- Where both texts spell versions, the verdict is that on the versions. -/
theorem check_of_spells (hv : Spells current v) (hw : Spells advertised w)
    (includePrereleases : Bool) :
    check current advertised includePrereleases = ofVersions v w includePrereleases := by
  rw [check]
  rw [versions_eq_ok_iff.mpr ⟨hv, hw⟩]

theorem ofVersions_ne_unknown (v w : Version) (includePrereleases : Bool) (obstacle : Obstacle) :
    ofVersions v w includePrereleases ≠ unknown obstacle := by
  rw [ofVersions]
  repeat' split
  all_goals simp

/-- Whether prereleases are included makes no difference to an obstacle. -/
theorem check_eq_unknown_iff {includePrereleases : Bool} {obstacle : Obstacle} :
    check current advertised includePrereleases = unknown obstacle ↔
      versions current advertised = .error obstacle := by
  rw [check]
  cases versions current advertised with
  | ok pair => simp [ofVersions_ne_unknown]
  | error cause => simp

/-- No verdict is reached exactly when one of the texts spells no version. -/
theorem exists_check_eq_unknown_iff (includePrereleases : Bool) :
    (∃ obstacle, check current advertised includePrereleases = unknown obstacle) ↔
      Unreadable current ∨ Unreadable advertised := by
  rw [unreadable_iff, unreadable_iff, ← not_and_or]
  constructor
  · rintro ⟨obstacle, hunknown⟩ ⟨⟨v, hv⟩, w, hw⟩
    rw [check_of_spells hv hw] at hunknown
    exact ofVersions_ne_unknown v w includePrereleases obstacle hunknown
  · intro hnone
    rw [check]
    split
    · next v w hversions =>
        obtain ⟨hv, hw⟩ := versions_eq_ok_iff.mp hversions
        exact absurd ⟨⟨v, hv⟩, w, hw⟩ hnone
    · next obstacle _ => exact ⟨obstacle, rfl⟩

end Verdict

end Freshness
