import Freshness.Comparison

/-!
# The order of versions

Two versions compare as the lists of five integers that `precedence` gives: the three numbers, the
rank of the channel and the iteration.  The order is that of such lists, so it is total and
transitive.  The lists forget the tags of unrecognized channels, and nothing else of a version.
Equality is decided by a key of its own, which keeps just as much (`beq_iff_precedence`), so the
order is one up to `==`, on all versions and not only on those that some text spells.
-/

namespace Freshness

theorem compareOfLessAndEq_congr {A B : Type} [LT A] [LT B] [DecidableLT A] [DecidableLT B]
    [DecidableEq A] [DecidableEq B] {a b : A} {c d : B} (hlt : a < b ↔ c < d)
    (heq : a = b ↔ c = d) : compareOfLessAndEq a b = compareOfLessAndEq c d := by
  simp only [compareOfLessAndEq, hlt, heq]

theorem compare_toNat (a b : UInt32) : compare a b = compare (a.toNat : Int) b.toNat := by
  apply compareOfLessAndEq_congr
  · rw [UInt32.lt_iff_toNat_lt, Int.ofNat_lt]
  · rw [← UInt32.toNat_inj, Int.ofNat_inj]

theorem compare_toInt (a b : Int64) : compare a b = compare a.toInt b.toInt := by
  apply compareOfLessAndEq_congr
  · exact Int64.lt_iff_toInt_lt
  · exact Int64.toInt_inj.symm

theorem compare_natCast (a b : Nat) : compare a b = compare (a : Int) b := by
  apply compareOfLessAndEq_congr
  · exact Int.ofNat_lt.symm
  · exact Int.ofNat_inj.symm

namespace Version

/-- What the order of versions looks at, as integers. -/
def precedence (version : Version) : List Int :=
  [version.major.toNat, version.minor.toNat, version.patch.toNat, version.stage.channel.rank,
    version.stage.iteration.toInt]

/-- The comparison field by field is that of the lists of integers, read from the left. -/
theorem compare_eq_compare_precedence (a b : Version) :
    compare a b = compare a.precedence b.precedence := by
  have hstage : compare a.stage b.stage =
      (compare a.stage.channel.rank b.stage.channel.rank).then
        (compare a.stage.iteration b.stage.iteration) := rfl
  change (compare a.major b.major).then ((compare a.minor b.minor).then
    ((compare a.patch b.patch).then (compare a.stage b.stage))) = _
  simp only [precedence, List.compare_cons_cons, List.compare_nil_nil, hstage, compare_toNat,
    compare_natCast, compare_toInt, Ordering.then_eq]

instance : Std.TransOrd Version where
  eq_swap {a b} := by
    rw [compare_eq_compare_precedence, compare_eq_compare_precedence]
    exact Std.OrientedCmp.eq_swap
  isLE_trans {a b c} hab hbc := by
    rw [compare_eq_compare_precedence] at hab hbc ⊢
    exact Std.TransCmp.isLE_trans hab hbc

theorem le_iff_isLE {a b : Version} : a ≤ b ↔ (compare a b).isLE = true :=
  Iff.rfl

theorem le_iff_isGE {a b : Version} : a ≤ b ↔ (compare b a).isGE = true := by
  rw [le_iff_isLE, Std.OrientedCmp.isGE_iff_isLE]

theorem le_refl (a : Version) : a ≤ a :=
  Std.ReflCmp.isLE_rfl

theorem le_total (a b : Version) : a ≤ b ∨ b ≤ a := by
  rw [le_iff_isLE, @le_iff_isGE b a]
  cases compare a b <;> decide

theorem le_trans {a b c : Version} (hab : a ≤ b) (hbc : b ≤ c) : a ≤ c :=
  Std.TransCmp.isLE_trans hab hbc

theorem lt_iff {a b : Version} : a < b ↔ compare a b = .lt :=
  Iff.rfl

theorem gt_iff {a b : Version} : b < a ↔ compare a b = .gt :=
  Std.OrientedCmp.gt_iff_lt.symm

theorem not_le {a b : Version} : ¬a ≤ b ↔ b < a := by
  rw [le_iff_isLE, gt_iff, Ordering.isLE_iff_ne_gt, Decidable.not_not]

theorem not_lt {a b : Version} : ¬a < b ↔ b ≤ a := by
  rw [← not_le, Decidable.not_not]

theorem le_of_lt {a b : Version} (hab : a < b) : a ≤ b :=
  (le_total a b).resolve_right (not_le.mpr hab)

theorem lt_of_lt_of_le {a b c : Version} (hab : a < b) (hbc : b ≤ c) : a < c :=
  Std.TransCmp.lt_of_lt_of_isLE hab hbc

theorem lt_of_le_of_lt {a b c : Version} (hab : a ≤ b) (hbc : b < c) : a < c :=
  Std.TransCmp.lt_of_isLE_of_lt hab hbc

theorem lt_trans {a b c : Version} (hab : a < b) (hbc : b < c) : a < c :=
  Std.TransCmp.lt_trans hab hbc

/-- Of two versions with the same numbers the one on the less mature channel comes first. -/
theorem lt_of_rank_lt {major minor patch : UInt32} {a b : Stage}
    (hrank : a.channel.rank < b.channel.rank) :
    (⟨major, minor, patch, a⟩ : Version) < ⟨major, minor, patch, b⟩ := by
  have hless : compare (a.channel.rank : Int) b.channel.rank = .lt :=
    Int.compare_eq_lt.mpr (Int.ofNat_lt.mpr hrank)
  rw [lt_iff, compare_eq_compare_precedence]
  simp only [precedence, List.compare_cons_cons, Std.compare_self, hless, Ordering.then_eq,
    Ordering.eq_then, Ordering.lt_then]

/-! ## Equality up to tags -/

/-- Equality is decided by another key than the order, but the two keys keep the same. -/
theorem beq_iff_precedence {a b : Version} : (a == b) = true ↔ a.precedence = b.precedence := by
  change (a.sortKey == b.sortKey) = true ↔ _
  simp only [sortKey, precedence, beq_iff_eq, Prod.mk.injEq, List.cons.injEq, Int.ofNat_inj,
    UInt32.toNat_inj, Int64.toInt_inj, and_true]

instance : Std.LawfulBEqOrd Version where
  compare_eq_iff_beq {a b} := by
    rw [compare_eq_compare_precedence, Std.compare_eq_iff_eq, beq_iff_precedence]

theorem beq_refl (a : Version) : (a == a) = true :=
  beq_iff_precedence.mpr rfl

theorem beq_symm {a b : Version} (hab : (a == b) = true) : (b == a) = true :=
  beq_iff_precedence.mpr (beq_iff_precedence.mp hab).symm

/-- Versions are equal when neither is newer than the other. -/
theorem beq_iff_le_and_le {a b : Version} : (a == b) = true ↔ a ≤ b ∧ b ≤ a := by
  rw [← Std.compare_eq_iff_beq, le_iff_isLE, @le_iff_isGE b a]
  cases compare a b <;> decide

theorem lt_iff_le_and_not_beq {a b : Version} : a < b ↔ a ≤ b ∧ ¬(a == b) = true := by
  rw [← Std.compare_eq_iff_beq, lt_iff, le_iff_isLE]
  cases compare a b <;> decide

theorem not_beq_of_lt {a b : Version} (hab : a < b) : ¬(a == b) = true :=
  (lt_iff_le_and_not_beq.mp hab).2

/-- Equal versions differ at most in the tags of channels that nobody recognizes. -/
theorem beq_iff {a b : Version} :
    (a == b) = true ↔
      a.major = b.major ∧ a.minor = b.minor ∧ a.patch = b.patch ∧
        a.stage.iteration = b.stage.iteration ∧
        (a.stage.channel = b.stage.channel ∨
          ∃ s t, a.stage.channel = .unrecognized s ∧ b.stage.channel = .unrecognized t) := by
  change (a.sortKey == b.sortKey) = true ↔ _
  simp only [sortKey, beq_iff_eq, Prod.mk.injEq, Channel.rank_eq_iff]
  constructor
  · rintro ⟨hmajor, hminor, hpatch, hchannel, hiteration⟩
    exact ⟨hmajor, hminor, hpatch, hiteration, hchannel⟩
  · rintro ⟨hmajor, hminor, hpatch, hiteration, hchannel⟩
    exact ⟨hmajor, hminor, hpatch, hchannel, hiteration⟩

/-- Equal versions are both on a known prerelease channel, or neither is. -/
theorem isPrerelease_congr {a b : Version} (hab : (a == b) = true) :
    a.isPrerelease = b.isPrerelease := by
  obtain ⟨-, -, -, -, hchannel⟩ := beq_iff.mp hab
  have hrank : a.stage.channel.rank = b.stage.channel.rank := Channel.rank_eq_iff.mpr hchannel
  change decide (a.stage.channel.rank < _) = decide (b.stage.channel.rank < _)
  rw [hrank]

/-- Equal versions compare in the same way to every other one. -/
theorem compare_congr {a b : Version} (hab : (a == b) = true) (c : Version) :
    compare a c = compare b c ∧ compare c a = compare c b ∧ (a == c) = (b == c) := by
  have hequal : compare a b = .eq := Std.compare_eq_iff_beq.mpr hab
  have hleft : compare a c = compare b c := Std.TransCmp.congr_left hequal
  refine ⟨hleft, Std.TransCmp.congr_right hequal, ?_⟩
  rw [Bool.eq_iff_iff, ← Std.compare_eq_iff_beq, ← Std.compare_eq_iff_beq, hleft]

/-- The order looks at versions up to `==`. -/
theorem le_congr {a a' b b' : Version} (ha : (a == a') = true) (hb : (b == b') = true) :
    a ≤ b ↔ a' ≤ b' := by
  rw [le_iff_isLE, le_iff_isLE, (compare_congr ha b).1, (compare_congr hb a').2.1]

/-- Of three versions, what makes their order a total one up to `==`.  The comparison, the partial
comparison and the comparison of fields are one, and the signs of order and equality follow it. -/
structure TotallyOrdered (a b c : Version) : Prop where
  compare_eq_iff_beq : compare a b = .eq ↔ (a == b) = true
  partialCompare_eq : partialCompare a b = some (compare a b)
  compareFields_eq : compareFields a b = compare a b
  lt_iff_partialCompare : a < b ↔ partialCompare a b = some .lt
  gt_iff_partialCompare : a > b ↔ partialCompare a b = some .gt
  le_iff_partialCompare : a ≤ b ↔ partialCompare a b = some .lt ∨ partialCompare a b = some .eq
  exactly_one : (a < b ∧ (a == b) = false ∧ ¬a > b) ∨ (¬a < b ∧ (a == b) = true ∧ ¬a > b) ∨
    (¬a < b ∧ (a == b) = false ∧ a > b)
  compare_swap : compare b a = (compare a b).swap
  lt_transitive : a < b → b < c → a < c
  le_transitive : a ≤ b → b ≤ c → a ≤ c
  substitutive : ∀ a', (a' == a) = true →
    (compare a' c = compare a c ∧ compare c a' = compare c a ∧ (a' == c) = (a == c)) ∧
      a'.isPrerelease = a.isPrerelease
  beq_iff_fields : (a == b) = true ↔
    a.major = b.major ∧ a.minor = b.minor ∧ a.patch = b.patch ∧
      a.stage.iteration = b.stage.iteration ∧
      (a.stage.channel = b.stage.channel ∨
        ∃ s t, a.stage.channel = .unrecognized s ∧ b.stage.channel = .unrecognized t)

/-- All versions are totally ordered up to `==`, whatever their channel and iteration. -/
theorem totallyOrdered (a b c : Version) : TotallyOrdered a b c where
  compare_eq_iff_beq := Std.compare_eq_iff_beq
  partialCompare_eq := rfl
  compareFields_eq := rfl
  lt_iff_partialCompare := by rw [partialCompare, Option.some.injEq, lt_iff]
  gt_iff_partialCompare := by rw [partialCompare, Option.some.injEq, gt_iff_lt, gt_iff]
  le_iff_partialCompare := by
    rw [le_iff_isLE, partialCompare, Option.some.injEq, Option.some.injEq]
    cases compare a b <;> decide
  exactly_one := by
    have hless : a < b ↔ compare a b = .lt := lt_iff
    have hgreater : a > b ↔ compare a b = .gt := gt_iff
    have hequal : (a == b) = true ↔ compare a b = .eq := Std.compare_eq_iff_beq.symm
    rw [← Bool.not_eq_true, hless, hgreater, hequal]
    cases compare a b <;> decide
  compare_swap := Std.OrientedCmp.eq_swap
  lt_transitive := lt_trans
  le_transitive := le_trans
  substitutive _ hequal := ⟨compare_congr hequal c, isPrerelease_congr hequal⟩
  beq_iff_fields := beq_iff

/-- A release with an iteration, and a channel whose tag is that of a known one but that is not
known: neither is ever read, and both have their place. -/
theorem totallyOrdered_unread :
    let release : Version := ⟨1, 2, 3, ⟨.release, 0⟩⟩
    let numbered : Version := ⟨1, 2, 3, ⟨.release, 5⟩⟩
    let candidate : Version := ⟨1, 2, 3, ⟨.unrecognized "rc", -7⟩⟩
    let zeta : Version := ⟨1, 2, 3, ⟨.unrecognized "zeta", -7⟩⟩
    release < numbered ∧ numbered < candidate ∧ release < candidate ∧
      (zeta == candidate) = true ∧ compare zeta release = compare candidate release := by
  intro release numbered candidate zeta
  have hfirst : release < numbered := by decide
  have hsecond : numbered < candidate := by decide
  have hequal : (zeta == candidate) = true := by decide
  exact ⟨hfirst, hsecond, (totallyOrdered release numbered candidate).lt_transitive hfirst hsecond,
    hequal, ((totallyOrdered candidate numbered release).substitutive zeta hequal).1.1⟩

end Version

end Freshness
