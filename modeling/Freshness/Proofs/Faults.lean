import Freshness.Proofs.Given
import Freshness.Proofs.Tokens

/-!
# Faults

A text that is no version may have several things wrong with it at once.  Its components are checked
in a fixed order, and what is reported is the fault that the first failing check finds
(`refused_iff_firstFault`), together with the text as it was given.  The comparison of two texts and
the update check read one text after the other, so they report what is wrong with the first of them
that is no version.
-/

namespace Freshness

open Text

/-- Where a component stands among those of a version. -/
def Component.place : Component → Nat
  | major => 0
  | minor => 1
  | patch => 2

/-- What is checked of the components of a text. -/
inductive Check
  | count
  | number (component : Component)
  | iteration

def Check.inOrder : List Check :=
  [count, number .major, number .minor, number .patch, iteration]

/-- The check fails on the components, and the wording says what it finds. -/
inductive Fault (components : List (List Char)) : Check → String → Prop
  | tooFew (hfew : components.length < 3) :
      Fault components .count "expected at least major.minor.patch"
  | invalid {component : Component} {text : List Char}
      (htext : components[component.place]? = some text)
      (hinvalid : text = [] ∨ ∃ c ∈ text, c.isDigit = false) :
      Fault components (.number component)
        ("invalid " ++ component.name ++ " component '" ++ String.ofList text ++ "'")
  | outOfRange {component : Component} {digits : List Char}
      (hdigits : components[component.place]? = some digits)
      (hall : ∀ c ∈ digits, c.isDigit = true) (hlarge : 0xFFFFFFFF < Numeral.value digits) :
      Fault components (.number component)
        (component.name ++ " component '" ++ String.ofList digits ++ "' out of range")
  | iterationOutOfRange {letters digits : List Char}
      (htoken : components[3]? = some (letters ++ digits)) (hrun : IsNumberedRun letters digits)
      (hlarge : 0x7FFFFFFFFFFFFFFF < Numeral.value digits) :
      Fault components .iteration ("invalid prerelease iteration '" ++ String.ofList digits ++ "'")

/-- Of the checks in this order the first one that fails has a fault of this wording. -/
def FirstFault (components : List (List Char)) (checks : List Check) (wording : String) : Prop :=
  ∃ before check after, checks = before ++ check :: after ∧
    (∀ passed ∈ before, ∀ other, ¬Fault components passed other) ∧ Fault components check wording

section

variable {components : List (List Char)} {check : Check} {checks : List Check} {wording : String}

theorem not_firstFault_nil : ¬FirstFault components [] wording := by
  rintro ⟨before, check, after, hchecks, -, -⟩
  exact List.append_ne_nil_of_right_ne_nil before (List.cons_ne_nil check after) hchecks.symm

/-- The first fault is that of the first check or, if that passes, the first one of the others. -/
theorem firstFault_cons_iff :
    FirstFault components (check :: checks) wording ↔
      Fault components check wording ∨
        (∀ other, ¬Fault components check other) ∧ FirstFault components checks wording := by
  constructor
  · rintro ⟨before, failing, after, hchecks, hpassed, hfault⟩
    cases before with
    | nil =>
        obtain ⟨rfl, -⟩ := List.cons.inj hchecks
        exact Or.inl hfault
    | cons first before =>
        obtain ⟨rfl, hrest⟩ := List.cons.inj hchecks
        rw [List.forall_mem_cons] at hpassed
        exact Or.inr ⟨hpassed.1, before, failing, after, hrest, hpassed.2, hfault⟩
  · rintro (hfault | ⟨hpassed, before, failing, after, rfl, hrest, hfault⟩)
    · exact ⟨[], check, checks, rfl, by simp, hfault⟩
    · exact ⟨check :: before, failing, after, rfl, List.forall_mem_cons.mpr ⟨hpassed, hrest⟩,
        hfault⟩

end

/-! ## Results that fail -/

/-- The result is a failure whose reason has this wording. -/
def FailsWith {A : Type} (result : Except Malformed.Reason A) (wording : String) : Prop :=
  ∃ reason, result = .error reason ∧ reason.message = wording

theorem not_failsWith_ok {A : Type} {a : A} {wording : String} :
    ¬FailsWith (.ok a) wording := by
  rintro ⟨reason, hreason, -⟩
  contradiction

theorem failsWith_error_iff {A : Type} {reason : Malformed.Reason} {wording : String} :
    FailsWith (.error reason : Except Malformed.Reason A) wording ↔ reason.message = wording := by
  constructor
  · rintro ⟨reason', hreason, hwording⟩
    rw [Except.error.injEq] at hreason
    exact hreason ▸ hwording
  · intro hwording
    exact ⟨reason, rfl, hwording⟩

/-- Of two steps the first one fails, or it does not and the second one does.  Whether the second
one fails must not depend on what the first one gives. -/
theorem failsWith_bind_iff {A B : Type} {first : Except Malformed.Reason A}
    {next : A → Except Malformed.Reason B} {wording : String} {P : Prop}
    (hnext : ∀ a, FailsWith (next a) wording ↔ P) :
    FailsWith (first >>= next) wording ↔
      FailsWith first wording ∨ (∀ other, ¬FailsWith first other) ∧ P := by
  cases first with
  | error reason =>
      have hfails : ¬∀ other, ¬reason.message = other := fun hnone => hnone _ rfl
      change FailsWith (.error reason : Except _ B) wording ↔ _
      simp only [failsWith_error_iff, iff_false_intro hfails, false_and, or_false]
  | ok a =>
      change FailsWith (next a) wording ↔ _
      simp only [hnext, not_failsWith_ok, not_false_eq_true, implies_true, true_and, false_or]

/-! ## The check of each component -/

theorem Text.Numeral.isNumeral_eq_false_iff {text : List Char} :
    isNumeral text = false ↔ text = [] ∨ ∃ c ∈ text, c.isDigit = false := by
  rw [← Bool.not_eq_true, isNumeral_iff]
  simp only [ne_eq, not_and_or, not_not, not_forall, Bool.not_eq_true, exists_prop]

namespace Version

section

variable {components : List (List Char)} {wording : String}

/-- A component is refused if it is no numeral, or else if its number has more than 32 bits. -/
theorem number_eq_error_iff {component : Component} {text : List Char}
    {reason : Malformed.Reason} :
    number component text = .error reason ↔
      (Numeral.isNumeral text = false ∧ reason = .notANumeral component (String.ofList text)) ∨
      (Numeral.isNumeral text = true ∧ 0xFFFFFFFF < Numeral.value text ∧
        reason = .outOfRange component (String.ofList text)) := by
  rw [number]
  cases hnumeral : Numeral.isNumeral text with
  | false => simp [eq_comm]
  | true =>
      by_cases hsize : Numeral.value text < UInt32.size
      · have hsmall : ¬0xFFFFFFFF < Numeral.value text := Nat.not_lt.mpr (Nat.le_of_lt_succ hsize)
        simp [hsize, hsmall]
      · have hlarge : 0xFFFFFFFF < Numeral.value text := Nat.lt_of_succ_le (Nat.not_lt.mp hsize)
        simp [hsize, hlarge, eq_comm]

/-- A number has a fault when it is not read. -/
theorem fault_number_iff {component : Component} {text : List Char}
    (htext : components[component.place]? = some text) :
    Fault components (.number component) wording ↔ FailsWith (number component text) wording := by
  simp only [FailsWith, number_eq_error_iff]
  constructor
  · intro hfault
    cases hfault with
    | @invalid _ text' htext' hinvalid =>
        obtain rfl : text = text' := Option.some.inj (htext.symm.trans htext')
        exact ⟨_, Or.inl ⟨Numeral.isNumeral_eq_false_iff.mpr hinvalid, rfl⟩, rfl⟩
    | @outOfRange _ digits hdigits hall hlarge =>
        obtain rfl : text = digits := Option.some.inj (htext.symm.trans hdigits)
        have hne : text ≠ [] := by
          rintro rfl
          exact absurd hlarge (Nat.not_lt.mpr (Nat.zero_le _))
        exact ⟨_, Or.inr ⟨Numeral.isNumeral_iff.mpr ⟨hne, hall⟩, hlarge, rfl⟩, rfl⟩
  · rintro ⟨reason, ⟨hnone, rfl⟩ | ⟨hnumeral, hlarge, rfl⟩, rfl⟩
    · exact .invalid htext (Numeral.isNumeral_eq_false_iff.mp hnone)
    · exact .outOfRange htext (Numeral.isNumeral_iff.mp hnumeral).2 hlarge

/-- The iteration has a fault when the stage is not read. -/
theorem fault_iteration_iff {rest : List (List Char)} (hrest : components[3]? = rest.head?) :
    Fault components .iteration wording ↔ FailsWith (stageOf rest) wording := by
  cases rest with
  | nil =>
      constructor
      · intro hfault
        cases hfault with
        | iterationOutOfRange htoken =>
            rw [hrest] at htoken
            contradiction
      · intro hfails
        exact absurd hfails not_failsWith_ok
  | cons token rest =>
      simp only [FailsWith, stageOf, Stage.ofToken_eq_error_iff]
      constructor
      · intro hfault
        cases hfault with
        | iterationOutOfRange htoken hrun hlarge =>
            obtain rfl := Option.some.inj (hrest.symm.trans htoken)
            exact ⟨_, ⟨_, _, hrun, rfl, hlarge, rfl⟩, rfl⟩
      · rintro ⟨reason, ⟨letters, digits, hrun, rfl, hlarge, rfl⟩, rfl⟩
        exact .iterationOutOfRange hrest hrun hlarge

theorem fault_count_iff :
    Fault components .count wording ↔
      components.length < 3 ∧ wording = "expected at least major.minor.patch" := by
  constructor
  · intro hfault
    cases hfault with
    | tooFew hfew => exact ⟨hfew, rfl⟩
  · rintro ⟨hfew, rfl⟩
    exact .tooFew hfew

/-! ## The first fault -/

/-- With fewer than three components the count is the first check that fails. -/
theorem failsWith_ofComponents_of_few (hfew : components.length < 3) :
    FailsWith (ofComponents components) wording ↔
      FirstFault components Check.inOrder wording := by
  have hcount : FirstFault components Check.inOrder wording ↔
      wording = "expected at least major.minor.patch" := by
    have hfault : ¬∀ other, ¬Fault components .count other := fun hnone => hnone _ (.tooFew hfew)
    rw [Check.inOrder, firstFault_cons_iff, fault_count_iff, iff_false_intro hfault, false_and,
      or_false, and_iff_right hfew]
  have hread : ofComponents components = .error .tooFewComponents := by
    unfold ofComponents
    split
    · exact absurd hfew (by simp)
    · rfl
  rw [hcount, hread, failsWith_error_iff]
  exact eq_comm

/-- With three components or more, each check fails or leaves the next one to fail, whatever number
it has read. -/
theorem failsWith_ofComponents_of_three {major minor patch : List Char} {rest : List (List Char)} :
    FailsWith (ofComponents (major :: minor :: patch :: rest)) wording ↔
      FirstFault (major :: minor :: patch :: rest) Check.inOrder wording := by
  have hstage : ∀ next : Stage → Version,
      FailsWith (stageOf rest >>= fun stage => .ok (next stage)) wording ↔
        FailsWith (stageOf rest) wording := by
    intro next
    rw [failsWith_bind_iff fun _ => iff_false_intro not_failsWith_ok, and_false, or_false]
  have hcount : ∀ other, ¬Fault (major :: minor :: patch :: rest) .count other := by
    simp [fault_count_iff]
  have hmajor := fun other => @fault_number_iff (major :: minor :: patch :: rest) other .major _ rfl
  have hminor := fun other => @fault_number_iff (major :: minor :: patch :: rest) other .minor _ rfl
  have hpatch := fun other => @fault_number_iff (major :: minor :: patch :: rest) other .patch _ rfl
  have hiteration := fun other => @fault_iteration_iff (major :: minor :: patch :: rest) other rest
      List.head?_eq_getElem?.symm
  simp only [Check.inOrder, firstFault_cons_iff, not_firstFault_nil, hcount, hmajor, hminor, hpatch,
    hiteration, not_false_eq_true, implies_true, true_and, false_or, and_false, or_false]
  exact failsWith_bind_iff fun _ => failsWith_bind_iff fun _ => failsWith_bind_iff fun _ =>
    hstage _

/-- No version is read from components with a fault, and the first fault is the reason. -/
theorem failsWith_ofComponents_iff :
    FailsWith (ofComponents components) wording ↔
      FirstFault components Check.inOrder wording := by
  match components with
  | major :: minor :: patch :: rest => exact failsWith_ofComponents_of_three
  | [] | [_] | [_, _] => exact failsWith_ofComponents_of_few (by simp)

end

/-- A failure quotes the text as it was given and has the reason of its components. -/
theorem read_eq_error_iff {input : String} {cause : Malformed} :
    read input = .error cause ↔
      cause.input = input ∧ ofComponents (components input.toList) = .error cause.reason := by
  rw [read, mapError_eq_error_iff]
  constructor
  · rintro ⟨reason, hreason, rfl⟩
    exact ⟨rfl, hreason⟩
  · rintro ⟨rfl, hreason⟩
    exact ⟨cause.reason, hreason, rfl⟩

/-- A text is refused for the first fault of its components. -/
theorem refused_iff_firstFault {input wording : String} :
    (∃ cause, read input = .error cause ∧ cause.reason.message = wording) ↔
      FirstFault (components input.toList) Check.inOrder wording := by
  rw [← failsWith_ofComponents_iff]
  constructor
  · rintro ⟨cause, hread, hwording⟩
    exact ⟨cause.reason, (read_eq_error_iff.mp hread).2, hwording⟩
  · rintro ⟨reason, hreason, hwording⟩
    exact ⟨⟨input, reason⟩, read_eq_error_iff.mpr ⟨rfl, hreason⟩, hwording⟩

end Version

/-! ## Two texts -/

section

variable {a b : String} {v : Version} {cause : Malformed}

/-- Two texts compare just when both are versions. -/
theorem exists_compareWritten_iff :
    (∃ ordering, compareWritten a b = .ok ordering) ↔
      (∃ v, Version.read a = .ok v) ∧ ∃ w, Version.read b = .ok w := by
  simp only [compareWritten_eq_ok_iff]
  constructor
  · rintro ⟨-, v, w, hv, hw, -⟩
    exact ⟨⟨v, hv⟩, w, hw⟩
  · rintro ⟨⟨v, hv⟩, w, hw⟩
    exact ⟨compare v w, v, w, hv, hw, rfl⟩

theorem compareWritten_of_first_refused (ha : Version.read a = .error cause) :
    compareWritten a b = .error cause := by
  rw [compareWritten, ha]
  rfl

theorem compareWritten_of_second_refused (ha : Version.read a = .ok v)
    (hb : Version.read b = .error cause) : compareWritten a b = .error cause := by
  rw [compareWritten, ha, hb]
  rfl

end

def Missing (text : Option String) : Prop :=
  text = none ∨ text = some ""

theorem given?_of_missing {text : Option String} (hmissing : Missing text) :
    given? text = none := by
  rcases hmissing with rfl | rfl <;> rfl

theorem given?_of_not_missing {text : Option String} (hgiven : ¬Missing text) :
    given? text = text := by
  cases text with
  | none => rfl
  | some input =>
      have hne : input ≠ "" := fun hempty => hgiven (Or.inr (congrArg some hempty))
      simp [given?, hne]

namespace Verdict

/-- No verdict is reached, for a reason of this wording. -/
def UnknownFor (verdict : Verdict) (wording : String) : Prop :=
  ∃ obstacle, verdict = unknown obstacle ∧ obstacle.message = wording

variable {current advertised : Option String} {includePrereleases : Bool}

theorem unknownFor_of_versions {obstacle : Obstacle}
    (hversions : versions current advertised = .error obstacle) :
    (check current advertised includePrereleases).UnknownFor obstacle.message :=
  ⟨obstacle, check_eq_unknown_iff.mpr hversions, rfl⟩

theorem unknownFor_of_missing_current (hcurrent : Missing current) :
    (check current advertised includePrereleases).UnknownFor "no current version" :=
  unknownFor_of_versions (versions_of_no_current (given?_of_missing hcurrent))

theorem unknownFor_of_missing_advertised {a : String} (hcurrent : given? current = some a)
    (hadvertised : Missing advertised) :
    (check current advertised includePrereleases).UnknownFor "no advertised version" :=
  unknownFor_of_versions (versions_of_no_advertised hcurrent (given?_of_missing hadvertised))

variable {a b : String} {v : Version} {cause : Malformed}

theorem unknownFor_of_first_refused (hcurrent : given? current = some a)
    (hadvertised : given? advertised = some b) (ha : Version.read a = .error cause) :
    (check current advertised includePrereleases).UnknownFor cause.message := by
  have hversions : versions current advertised = .error (.malformed cause) := by
    rw [versions_of_given hcurrent hadvertised, ha]
    rfl
  exact unknownFor_of_versions hversions

/-- The advertised version is to blame only where the current one is read. -/
theorem unknownFor_of_second_refused (hcurrent : given? current = some a)
    (hadvertised : given? advertised = some b) (ha : Version.read a = .ok v)
    (hb : Version.read b = .error cause) :
    (check current advertised includePrereleases).UnknownFor cause.message := by
  have hversions : versions current advertised = .error (.malformed cause) := by
    rw [versions_of_given hcurrent hadvertised, ha, hb]
    rfl
  exact unknownFor_of_versions hversions

/-- Two versions always get a verdict. -/
theorem not_unknownFor_of_spells {w : Version} {wording : String} (hv : Spells current v)
    (hw : Spells advertised w) :
    ¬(check current advertised includePrereleases).UnknownFor wording := by
  rintro ⟨obstacle, hunknown, -⟩
  rw [check_of_spells hv hw] at hunknown
  exact ofVersions_ne_unknown v w includePrereleases obstacle hunknown

end Verdict

/-- What is wrong is reported in order.  A text is refused for the first fault of its components,
and the report quotes it as it was given.  Two texts are compared when both are read, and otherwise
it is reported what is wrong with the first, or else with the second.  The update check says what is
missing, the current version before the advertised one, and then what is wrong, in the same order;
it has a verdict on any two versions. -/
theorem faults_reported_in_order :
    (∀ input wording : String,
      (∃ cause, Version.read input = .error cause ∧ cause.reason.message = wording) ↔
        FirstFault (Version.components input.toList) Check.inOrder wording) ∧
    (∀ (input : String) (cause : Malformed), Version.read input = .error cause →
      cause.input = input ∧
        cause.message = "Malformed version '" ++ input ++ "': " ++ cause.reason.message) ∧
    (∀ a b : String,
      ((∃ ordering, compareWritten a b = .ok ordering) ↔
        (∃ v, Version.read a = .ok v) ∧ ∃ w, Version.read b = .ok w) ∧
      (∀ cause, Version.read a = .error cause → compareWritten a b = .error cause) ∧
      ∀ v cause, Version.read a = .ok v → Version.read b = .error cause →
        compareWritten a b = .error cause) ∧
    ∀ (current advertised : Option String) (includePrereleases : Bool),
      let verdict := Verdict.check current advertised includePrereleases
      (Missing current → verdict.UnknownFor "no current version") ∧
      (¬Missing current → Missing advertised → verdict.UnknownFor "no advertised version") ∧
      ∀ a b : String, current = some a → advertised = some b → ¬Missing current →
        ¬Missing advertised →
          (∀ cause, Version.read a = .error cause → verdict.UnknownFor cause.message) ∧
          (∀ v cause, Version.read a = .ok v → Version.read b = .error cause →
            verdict.UnknownFor cause.message) ∧
          ∀ v w, Version.read a = .ok v → Version.read b = .ok w →
            ∀ wording, ¬verdict.UnknownFor wording := by
  refine ⟨fun input wording => Version.refused_iff_firstFault, ?_, ?_, ?_⟩
  · intro input cause hread
    obtain ⟨rfl, -⟩ := Version.read_eq_error_iff.mp hread
    exact ⟨rfl, rfl⟩
  · intro a b
    exact ⟨exists_compareWritten_iff, fun cause => compareWritten_of_first_refused,
      fun v cause => compareWritten_of_second_refused⟩
  · intro current advertised includePrereleases verdict
    refine ⟨fun hcurrent => Verdict.unknownFor_of_missing_current hcurrent, ?_, ?_⟩
    · intro hcurrent hadvertised
      obtain ⟨a, rfl⟩ := Option.ne_none_iff_exists'.mp fun hnone => hcurrent (Or.inl hnone)
      exact Verdict.unknownFor_of_missing_advertised (given?_of_not_missing hcurrent) hadvertised
    · rintro a b rfl rfl hcurrent hadvertised
      have ha := given?_of_not_missing hcurrent
      have hb := given?_of_not_missing hadvertised
      refine ⟨fun cause => Verdict.unknownFor_of_first_refused ha hb,
        fun v cause => Verdict.unknownFor_of_second_refused ha hb, ?_⟩
      intro v w hv hw wording
      exact Verdict.not_unknownFor_of_spells (spells_some_iff.mpr hv) (spells_some_iff.mpr hw)

/-- A text with three faults, before and behind one with too few components, and beside texts that
are missing. -/
theorem faults_reported_of_several :
    let several := "v1-B.4294967296.RC9223372036854775808"
    FirstFault (Version.components several.toList) Check.inOrder "invalid minor component 'b'" ∧
      (⟨several, .notANumeral .minor "b"⟩ : Malformed).message =
        "Malformed version 'v1-B.4294967296.RC9223372036854775808': invalid minor component 'b'" ∧
      compareWritten several "1.2" = .error ⟨several, .notANumeral .minor "b"⟩ ∧
      compareWritten "1.2.3" "1.2" = .error ⟨"1.2", .tooFewComponents⟩ ∧
      (Verdict.check (some "") none true).UnknownFor "no current version" ∧
      (Verdict.check (some several) (some "") false).UnknownFor "no advertised version" ∧
      (Verdict.check (some "1.2") (some several) false).UnknownFor
        "Malformed version '1.2': expected at least major.minor.patch" := by
  intro several
  obtain ⟨hfirst, hverbatim, hcompare, hcheck⟩ := faults_reported_in_order
  have hseveral : Version.read several = .error ⟨several, .notANumeral .minor "b"⟩ := by decide
  have hfew : Version.read "1.2" = .error ⟨"1.2", .tooFewComponents⟩ := rfl
  have hread : Version.read "1.2.3" = .ok ⟨1, 2, 3, .formal⟩ := rfl
  have hgiven : ¬Missing (some several) := by simp [Missing, several]
  have hgiven' : ¬Missing (some "1.2") := by simp [Missing]
  exact ⟨(hfirst _ _).mp ⟨_, hseveral, rfl⟩, (hverbatim _ _ hseveral).2,
    (hcompare _ _).2.1 _ hseveral, (hcompare _ _).2.2 _ _ hread hfew,
    (hcheck _ _ _).1 (Or.inr rfl), (hcheck _ _ _).2.1 hgiven (Or.inr rfl),
    ((hcheck _ _ _).2.2 _ _ rfl rfl hgiven' hgiven).1 _ hfew⟩

end Freshness
