import Freshness.Proofs.Outcomes
import Freshness.Proofs.Preorder
import Freshness.Proofs.Updates

/-!
# The commands side by side

The exit statuses of the commands follow different conventions: a comparison succeeds when the
candidate has reached the baseline, and a check when no update is available, which includes that
nothing is known.  They say the same about two versions all the same.  Only the check looks at
settings, so the other commands end in the same way wherever they run.
-/

namespace Freshness.CommandLine

variable {around around' : Surroundings} {styling : Bool} {a b : String}
variable {arguments arguments' : List String} {settingsPath settingsPath' : Option String}

theorem exitCode_program_compare (hasks : Asks arguments settingsPath (.compare a b)) :
    (program around styling arguments).exitCode = exitCode (hasReached (some a) (some b)) := by
  rw [hasks.program_eq]
  rfl

theorem exitCode_program_parse_iff (hasks : Asks arguments settingsPath (.parse a)) :
    (program around styling arguments).exitCode = 0 ↔
      ∃ version, Version.read a = .ok version := by
  rw [hasks.program_eq]
  simp only [run, runParse]
  cases Version.read a with
  | ok version => simp
  | error malformed => simp

/-- Settings are looked at only by the check command. -/
theorem program_congr {command : Command} (hasks : Asks arguments settingsPath command)
    (hasks' : Asks arguments' settingsPath' command)
    (hcommand : ∀ remote current includePrereleases,
      command ≠ .check remote current includePrereleases) :
    program around styling arguments = program around' styling arguments' := by
  rw [hasks.program_eq, hasks'.program_eq]
  cases command with
  | compare candidate baseline => rfl
  | parse input => rfl
  | check remote current includePrereleases => exact absurd rfl (hcommand _ _ _)

theorem exitCode_program_check_iff
    (hasks : Asks arguments settingsPath (.check a (some b) true)) {settings : Settings}
    (hload : Settings.load around settingsPath = .ok settings) :
    (program around styling arguments).exitCode = 1 ↔ Outdated true b a := by
  rw [program_check_of_load hasks hload, exitCode_report, exitCode_eq_one_iff, checkUnder_eq,
    Option.some_or, Bool.true_or, Bool.not_eq_false', Outdated]

/-- Arguments can ask for every command.  A comparison succeeds exactly when the candidate has
reached the baseline, and parsing exactly when the text is a version, which is when it compares with
itself successfully.  Neither depends on what the program runs in or on the settings file that is
asked for.  A check that includes prereleases and is given the current version finds an update
exactly when the remote one compares with it successfully and not the other way round. -/
theorem commands_agree (a b : String) (around : Surroundings) (styling : Bool) :
    (∀ settingsPath command, ∃ arguments, Asks arguments settingsPath command) ∧
    (∀ arguments settingsPath, Asks arguments settingsPath (.compare a b) →
      (program around styling arguments).exitCode =
        if hasReached (some a) (some b) then 0 else 1) ∧
    (∀ parsing parsingPath, Asks parsing parsingPath (.parse a) →
      ((program around styling parsing).exitCode = 0 ↔
        ∃ version, Version.read a = .ok version) ∧
      ∀ comparing comparingPath, Asks comparing comparingPath (.compare a a) →
        ((program around styling parsing).exitCode = 0 ↔
          (program around styling comparing).exitCode = 0)) ∧
    (∀ command, command = .compare a b ∨ command = .parse a →
      ∀ around' arguments settingsPath arguments' settingsPath',
        Asks arguments settingsPath command → Asks arguments' settingsPath' command →
          program around styling arguments = program around' styling arguments') ∧
    ∀ checking checkingPath comparing comparingPath back backPath settings,
      Asks checking checkingPath (.check a (some b) true) →
      Asks comparing comparingPath (.compare a b) → Asks back backPath (.compare b a) →
      Settings.load around checkingPath = .ok settings →
        ((program around styling checking).exitCode = 1 ↔
          (program around styling comparing).exitCode = 0 ∧
            (program around styling back).exitCode = 1) := by
  refine ⟨fun settingsPath command => ⟨_, asks_arguments settingsPath command⟩,
    fun arguments settingsPath => exitCode_program_compare, ?_, ?_, ?_⟩
  · intro parsing parsingPath hparsing
    refine ⟨exitCode_program_parse_iff hparsing, ?_⟩
    intro comparing comparingPath hcomparing
    rw [exitCode_program_parse_iff hparsing, exitCode_program_compare hcomparing,
      exitCode_eq_zero_iff, hasReached_self_iff]
    simp only [spells_some_iff]
  · intro command hcommand around' arguments settingsPath arguments' settingsPath' hasks hasks'
    refine program_congr hasks hasks' ?_
    rintro remote current includePrereleases rfl
    simp at hcommand
  · intro checking checkingPath comparing comparingPath back backPath settings hchecking hcomparing
      hback hload
    rw [exitCode_program_check_iff hchecking hload, outdated_true_iff,
      exitCode_program_compare hcomparing, exitCode_eq_zero_iff, exitCode_program_compare hback,
      exitCode_eq_one_iff]

/-- A release and a candidate of it, in empty surroundings and where every path is a directory. -/
theorem commands_agree_on_release_and_candidate :
    let absent : Surroundings := ⟨fun _ => .absent, none⟩
    let directory : Surroundings := ⟨fun _ => .directory, none⟩
    let parsing := ["parse", "v1.2.0"]
    let itself := ["compare", "v1.2.0", "v1.2.0", "-cmissing.toml"]
    let comparing := ["compare", "v1.2.0", "1.2.0-RC1"]
    let elsewhere := ["--config", ".", "compare", "--", "v1.2.0", "1.2.0-RC1"]
    let back := ["compare", "1.2.0-RC1", "v1.2.0"]
    let checking := ["check", "--include-prereleases", "-rv1.2.0", "--current=1.2.0-RC1"]
    (program absent false comparing).exitCode = 0 ∧ (program absent false back).exitCode = 1 ∧
      (program absent false parsing).exitCode = 0 ∧ (program absent false itself).exitCode = 0 ∧
      program absent false comparing = program directory false elsewhere ∧
      (program absent false checking).exitCode = 1 := by
  intro absent directory parsing itself comparing elsewhere back checking
  have hcomparing : Asks comparing none (.compare "v1.2.0" "1.2.0-RC1") := rfl
  have hback : Asks back none (.compare "1.2.0-RC1" "v1.2.0") := rfl
  obtain ⟨-, hcompare, hparse, hsame, hcheck⟩ := commands_agree "v1.2.0" "1.2.0-RC1" absent false
  obtain ⟨-, hcompareBack, -⟩ := commands_agree "1.2.0-RC1" "v1.2.0" absent false
  have hreached : (program absent false comparing).exitCode = 0 :=
    (hcompare _ _ hcomparing).trans (by decide)
  have hnot : (program absent false back).exitCode = 1 :=
    (hcompareBack _ _ hback).trans (by decide)
  obtain ⟨hparsed, hself⟩ := hparse parsing none rfl
  have hversion : (program absent false parsing).exitCode = 0 := hparsed.mpr ⟨_, rfl⟩
  exact ⟨hreached, hnot, hversion, (hself itself _ rfl).mp hversion,
    hsame _ (Or.inl rfl) directory _ _ elsewhere _ hcomparing rfl,
    (hcheck checking none _ _ _ _ _ rfl hcomparing hback rfl).mpr ⟨hreached, hnot⟩⟩

end Freshness.CommandLine
