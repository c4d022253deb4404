import Mathlib
import Freshness.Version.Reader

/-!
# When reading succeeds

A version is read from its components one after another, and the first check that fails ends the
reading.  The statements below turn this around: they say what must hold of the components when a
version is read from them, and that nothing more is needed.
-/

namespace Freshness

theorem bind_eq_ok_iff {ε A B : Type} {first : Except ε A} {next : A → Except ε B} {b : B} :
    first >>= next = .ok b ↔ ∃ a, first = .ok a ∧ next a = .ok b := by
  cases first with
  | error reason =>
      constructor
      · intro hbind
        contradiction
      · rintro ⟨a, ha, _⟩
        contradiction
  | ok a =>
      constructor
      · intro hbind
        exact ⟨a, rfl, hbind⟩
      · rintro ⟨a', ha, hnext⟩
        rw [Except.ok.injEq] at ha
        subst ha
        exact hnext

theorem mapError_eq_ok_iff {ε ε' A : Type} {f : ε → ε'} {result : Except ε A} {a : A} :
    result.mapError f = .ok a ↔ result = .ok a := by
  cases result <;> simp [Except.mapError]

theorem mapError_eq_error_iff {ε ε' A : Type} {f : ε → ε'} {result : Except ε A} {cause : ε'} :
    result.mapError f = .error cause ↔ ∃ reason, result = .error reason ∧ f reason = cause := by
  cases result <;> simp [Except.mapError]

namespace Version

open Text

/-- A component is read when it is a numeral of at most 32 bits. -/
theorem number_eq_ok_iff {component : Component} {text : List Char} {n : UInt32} :
    number component text = .ok n ↔
      Numeral.isNumeral text = true ∧ n.toNat = Numeral.value text := by
  rw [number]
  split
  · next hnumeral =>
      rw [Bool.not_eq_true'] at hnumeral
      simp [hnumeral]
  · next hnumeral =>
      rw [Bool.not_eq_true', Bool.not_eq_false] at hnumeral
      split
      · next hsize =>
          rw [Except.ok.injEq, ← UInt32.toNat_inj, UInt32.toNat_ofNat_of_lt' hsize]
          simp [hnumeral, eq_comm]
      · next hsize =>
          simp only [reduceCtorEq, hnumeral, true_and, false_iff]
          intro hvalue
          exact hsize (hvalue ▸ n.toNat_lt_size)

/-- A version is read when three numbers and a stage are. -/
theorem ofComponents_eq_ok_iff {components : List (List Char)} {version : Version} :
    ofComponents components = .ok version ↔
      ∃ major minor patch rest, components = major :: minor :: patch :: rest ∧
        number .major major = .ok version.major ∧ number .minor minor = .ok version.minor ∧
        number .patch patch = .ok version.patch ∧ stageOf rest = .ok version.stage := by
  constructor
  · intro hread
    unfold ofComponents at hread
    split at hread
    · next major minor patch rest =>
        simp only [bind_eq_ok_iff] at hread
        obtain ⟨a, ha, b, hb, c, hc, stage, hstage, hversion⟩ := hread
        change Except.ok _ = Except.ok _ at hversion
        rw [Except.ok.injEq] at hversion
        subst hversion
        exact ⟨major, minor, patch, rest, rfl, ha, hb, hc, hstage⟩
    · contradiction
  · rintro ⟨major, minor, patch, rest, rfl, ha, hb, hc, hstage⟩
    simp only [ofComponents, bind_eq_ok_iff]
    exact ⟨_, ha, _, hb, _, hc, _, hstage, rfl⟩

theorem read_eq_ok_iff {input : String} {version : Version} :
    read input = .ok version ↔ ofComponents (components input.toList) = .ok version := by
  rw [read]
  exact mapError_eq_ok_iff

/-- Both texts are read as the same version, or neither is read, for the same reason. -/
def ReadAlike (a b : String) : Prop :=
  (∃ version, read a = .ok version ∧ read b = .ok version) ∨
    ∃ reason, read a = .error ⟨a, reason⟩ ∧ read b = .error ⟨b, reason⟩

theorem readAlike_of_ofComponents_eq {a b : String}
    (hsame : ofComponents (components a.toList) = ofComponents (components b.toList)) :
    ReadAlike a b := by
  rw [ReadAlike, read, read, hsame]
  cases ofComponents (components b.toList) with
  | ok version => exact Or.inl ⟨version, rfl, rfl⟩
  | error reason => exact Or.inr ⟨reason, rfl, rfl⟩

/-- Of a text nothing but its components is read. -/
theorem readAlike_of_components_eq {a b : String}
    (hcomponents : components a.toList = components b.toList) : ReadAlike a b :=
  readAlike_of_ofComponents_eq (congrArg ofComponents hcomponents)

end Version

end Freshness
