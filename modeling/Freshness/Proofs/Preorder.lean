import Freshness.Proofs.Given

/-!
# The comparison as a preorder

A candidate falls short of a baseline for one of two reasons: it is older, or one of the texts
spells no version.  The two never mix.  On the texts that spell a version the comparison is a total
preorder, and every other text is related to nothing, not even to itself.
-/

namespace Freshness

/-- What has reached a version has reached all that this one has. -/
theorem hasReached_trans {a b c : Option String} (hab : hasReached a b = true)
    (hbc : hasReached b c = true) : hasReached a c = true := by
  obtain ⟨u, v, hu, hv, hvu⟩ := hasReached_iff.mp hab
  obtain ⟨v', w, hv', hw, hwv⟩ := hasReached_iff.mp hbc
  obtain rfl := hv.unique hv'
  exact hasReached_iff.mpr ⟨u, w, hu, hw, Version.le_trans hwv hvu⟩

theorem hasReached_total {a b : Option String} (ha : ∃ version, Spells a version)
    (hb : ∃ version, Spells b version) : hasReached a b = true ∨ hasReached b a = true := by
  obtain ⟨v, hv⟩ := ha
  obtain ⟨w, hw⟩ := hb
  rw [hasReached_of_spells hv hw, hasReached_of_spells hw hv]
  exact Version.le_total w v

theorem hasReached_of_unreadable {a b : Option String} (hnone : Unreadable a ∨ Unreadable b) :
    hasReached a b = false := by
  rw [unreadable_iff, unreadable_iff, ← not_and_or] at hnone
  rw [← Bool.not_eq_true, hasReached_iff]
  rintro ⟨v, w, hv, hw, -⟩
  exact hnone ⟨⟨v, hv⟩, w, hw⟩

theorem compareWritten_swap {a b : String} {ordering : Ordering}
    (hcompare : compareWritten a b = .ok ordering) :
    compareWritten b a = .ok ordering.swap := by
  obtain ⟨v, w, hv, hw, rfl⟩ := compareWritten_eq_ok_iff.mp hcompare
  exact compareWritten_eq_ok_iff.mpr ⟨w, v, hw, hv, Std.OrientedCmp.eq_swap⟩

/-- Leaving out the empty text makes no difference to the comparison of two texts. -/
theorem hasReached_iff_compareWritten {a b : String} :
    hasReached (some a) (some b) = true ↔
      compareWritten a b = .ok .gt ∨ compareWritten a b = .ok .eq := by
  rw [hasReached_iff]
  simp only [spells_some_iff, compareWritten_eq_ok_iff]
  constructor
  · rintro ⟨v, w, hv, hw, hle⟩
    rw [Version.le_iff_isGE, Ordering.isGE_iff_eq_gt_or_eq_eq] at hle
    exact hle.imp (fun hgt => ⟨v, w, hv, hw, hgt⟩) fun heq => ⟨v, w, hv, hw, heq⟩
  · rintro (⟨v, w, hv, hw, hordering⟩ | ⟨v, w, hv, hw, hordering⟩)
    all_goals
      refine ⟨v, w, hv, hw, ?_⟩
      rw [Version.le_iff_isGE, hordering]
      rfl

/-- On the texts that spell a version the comparison is reflexive, transitive and total, and it
relates no other text to anything.  Two texts compare the other way round in reverse, and the
candidate has reached the baseline exactly when they compare as greater or equal. -/
theorem hasReached_total_preorder :
    (∀ a, hasReached a a = true ↔ ∃ version, Spells a version) ∧
    (∀ a b c, hasReached a b = true → hasReached b c = true → hasReached a c = true) ∧
    (∀ a b, (∃ version, Spells a version) → (∃ version, Spells b version) →
      hasReached a b = true ∨ hasReached b a = true) ∧
    (∀ a b, Unreadable a ∨ Unreadable b →
      hasReached a b = false ∧ hasReached b a = false) ∧
    ∀ a b : String,
      (∀ ordering,
        compareWritten a b = .ok ordering ↔ compareWritten b a = .ok ordering.swap) ∧
      (hasReached (some a) (some b) = true ↔
        compareWritten a b = .ok .gt ∨ compareWritten a b = .ok .eq) := by
  refine ⟨fun a => hasReached_self_iff, fun a b c => hasReached_trans,
    fun a b => hasReached_total, ?_, ?_⟩
  · intro a b hnone
    exact ⟨hasReached_of_unreadable hnone, hasReached_of_unreadable hnone.symm⟩
  · intro a b
    refine ⟨fun ordering => ⟨compareWritten_swap, ?_⟩, hasReached_iff_compareWritten⟩
    intro hback
    rw [← Ordering.swap_swap (o := ordering)]
    exact compareWritten_swap hback

/-- A version with a tag that nobody recognizes, its release and a candidate of that; and a text
with two components, which is related to nothing. -/
theorem hasReached_down_from_unrecognized :
    hasReached (some "1.2.3-zeta") (some "v1.2.3-RC2") = true ∧
      (hasReached (some "1.2.3.7") (some "1.2.3-zeta") = true ∨
        hasReached (some "1.2.3-zeta") (some "1.2.3.7") = true) ∧
      hasReached (some "1.2") (some "1.2.3") = false ∧
      hasReached (some "1.2.3") (some "1.2") = false := by
  obtain ⟨-, htrans, htotal, hnone, -⟩ := hasReached_total_preorder
  have hzeta : hasReached (some "1.2.3-zeta") (some "1.2.3") = true := by decide
  have hrelease : hasReached (some "1.2.3") (some "v1.2.3-RC2") = true := by decide
  have hmalformed : Unreadable (some "1.2") := Or.inr (Or.inr ⟨"1.2", _, rfl, rfl⟩)
  exact ⟨htrans _ _ _ hzeta hrelease, htotal _ _ ⟨_, _, rfl, rfl⟩ ⟨_, _, rfl, rfl⟩,
    hnone _ _ (Or.inl hmalformed)⟩

end Freshness
