import Freshness.Proofs.Agreement
import Freshness.Proofs.Asking

/-!
# Outcomes of a check

A check loads the settings, lets the arguments override them and reports the verdict.  When the
settings cannot be loaded nothing is compared.  Otherwise the exit status tells an update from
everything else, and the stream tells a verdict that is unknown from every other.  On it stands the
message of the verdict, which is never empty, behind the mark of its kind (`report_conveys`).  What
an argument overrides makes no difference to the outcome.
-/

namespace Freshness.CommandLine

/-- The message stands in the stream. -/
def Shows (stream message : String) : Prop :=
  ∃ before after, stream = before ++ message ++ after

/-- What a verdict reports: versions in their written form, or what stands in the way. -/
def reported : Verdict → List String
  | .upToDate current => [current]
  | .updateAvailable current advertised => [current, advertised]
  | .prereleaseIgnored advertised => [advertised]
  | .unknown obstacle => [obstacle.message]

/-- How a run ends that has come to a verdict.  The message is never empty and shows all that the
verdict reports, and it is all that is written, behind the mark of its kind and to one stream. -/
structure Outcome.Conveys (outcome : Outcome) (styling : Bool) (verdict : Verdict) : Prop where
  exitCode_one : outcome.exitCode = 1 ↔
    ∃ shown offered, verdict = .updateAvailable shown offered
  exitCode_zero : outcome.exitCode = 0 ↔
    ¬∃ shown offered, verdict = .updateAvailable shown offered
  message_ne_empty : verdict.message ≠ ""
  message_shows : ∀ text ∈ reported verdict, Shows verdict.message text
  unknown : (∃ obstacle, verdict = .unknown obstacle) →
    outcome.stdout = "" ∧ Shows outcome.stderr verdict.message ∧
      outcome.stderr = errorLine styling verdict.message
  known : (¬∃ obstacle, verdict = .unknown obstacle) →
    outcome.stderr = "" ∧ Shows outcome.stdout verdict.message
  upToDate : (∃ shown, verdict = .upToDate shown) →
    outcome.stdout = successLine styling verdict.message
  updateAvailable : (∃ shown offered, verdict = .updateAvailable shown offered) →
    outcome.stdout = warningLine styling verdict.message
  prereleaseIgnored : (∃ offered, verdict = .prereleaseIgnored offered) →
    outcome.stdout = statusLine styling verdict.message

theorem exitCode_eq_zero_iff {success : Bool} : exitCode success = 0 ↔ success = true := by
  cases success <;> decide

theorem exitCode_eq_one_iff {success : Bool} : exitCode success = 1 ↔ success = false := by
  cases success <;> decide

/-! ## Lines -/

theorem shows_self (message : String) : Shows message message :=
  ⟨"", "", by simp⟩

/-- Styling puts control sequences around a text and leaves it as it is. -/
theorem shows_styled (styling : Bool) (styles : List Style) (message : String) :
    Shows (styled styling styles message) message := by
  cases styling with
  | false => exact shows_self message
  | true => exact ⟨_, resetCode, rfl⟩

/-- A line shows what the text at its end shows. -/
theorem shows_line {text message : String} (htext : Shows text message) (before : String) :
    Shows (line (before ++ text)) message := by
  obtain ⟨start, after, rfl⟩ := htext
  refine ⟨before ++ start, after ++ "\n", ?_⟩
  simp only [line, String.append_assoc]

/-! ## Verdicts -/

theorem append_ne_empty {before : String} (hbefore : before ≠ "") (after : String) :
    before ++ after ≠ "" := by
  rw [Ne, String.append_eq_empty_iff]
  exact fun hempty => hbefore hempty.1

/-- Every message begins with words of its own, so none is empty. -/
theorem message_ne_empty (verdict : Verdict) : verdict.message ≠ "" := by
  cases verdict with
  | upToDate current => exact append_ne_empty (append_ne_empty (by decide) _) _
  | updateAvailable current advertised =>
      exact append_ne_empty (append_ne_empty (append_ne_empty (by decide) _) _) _
  | prereleaseIgnored advertised => exact append_ne_empty (append_ne_empty (by decide) _) _
  | unknown obstacle => exact append_ne_empty (by decide) _

/-- No message leaves out what its verdict reports. -/
theorem message_shows_reported (verdict : Verdict) :
    ∀ text ∈ reported verdict, Shows verdict.message text := by
  cases verdict with
  | upToDate current => exact List.forall_mem_singleton.mpr ⟨_, _, rfl⟩
  | updateAvailable current advertised =>
      refine List.forall_mem_cons.mpr ⟨?_, List.forall_mem_singleton.mpr ?_⟩
      · exact ⟨"Update available: ", " -> " ++ advertised, String.append_assoc⟩
      · exact ⟨_, "", String.append_empty.symm⟩
  | prereleaseIgnored advertised => exact List.forall_mem_singleton.mpr ⟨_, _, rfl⟩
  | unknown obstacle => exact List.forall_mem_singleton.mpr ⟨_, "", String.append_empty.symm⟩

/-- Only an update makes a report exit with failure. -/
theorem exitCode_report (styling : Bool) (verdict : Verdict) :
    (report styling verdict).exitCode = exitCode !verdict.isOutdated := by
  cases verdict <;> rfl

/-- A report conveys the verdict that it is about. -/
theorem report_conveys (styling : Bool) (verdict : Verdict) :
    (report styling verdict).Conveys styling verdict where
  exitCode_one := by
    rw [exitCode_report, exitCode_eq_one_iff, Bool.not_eq_false', Verdict.isOutdated_iff]
  exitCode_zero := by
    rw [exitCode_report, exitCode_eq_zero_iff, Bool.not_eq_true', ← Verdict.isOutdated_iff,
      Bool.not_eq_true]
  message_ne_empty := message_ne_empty verdict
  message_shows := message_shows_reported verdict
  unknown := by
    rintro ⟨obstacle, rfl⟩
    exact ⟨rfl, shows_line (shows_self _) _, rfl⟩
  known := by
    intro hknown
    cases verdict with
    | upToDate current => exact ⟨rfl, shows_line (shows_self _) _⟩
    | updateAvailable current advertised => exact ⟨rfl, shows_line (shows_styled styling _ _) _⟩
    | prereleaseIgnored advertised => exact ⟨rfl, shows_line (shows_self _) _⟩
    | unknown obstacle => exact absurd ⟨obstacle, rfl⟩ hknown
  upToDate := by
    rintro ⟨shown, rfl⟩
    rfl
  updateAvailable := by
    rintro ⟨shown, offered, rfl⟩
    rfl
  prereleaseIgnored := by
    rintro ⟨offered, rfl⟩
    rfl

/-! ## The check command -/

section Check

variable {around : Surroundings} {settings settings' : Settings} {arguments : List String}
variable {settingsPath current : Option String} {remote : String} {includePrereleases : Bool}

/-- The current version in the arguments, even an empty one, comes before that in the settings;
either may include prereleases. -/
theorem checkUnder_eq :
    checkUnder settings remote current includePrereleases =
      Verdict.check (current.or settings.currentVersion) (some remote)
        (includePrereleases || settings.includePrereleases) := by
  cases current <;> rfl

/-- A current version that is given makes the one in the settings irrelevant. -/
theorem checkUnder_congr_of_current (hcurrent : current.isSome = true)
    (hinclude : settings.includePrereleases = settings'.includePrereleases) :
    checkUnder settings remote current includePrereleases =
      checkUnder settings' remote current includePrereleases := by
  obtain ⟨version, rfl⟩ := Option.isSome_iff_exists.mp hcurrent
  rw [checkUnder_eq, checkUnder_eq, hinclude, Option.some_or, Option.some_or]

/-- Including prereleases makes what the settings say about them irrelevant. -/
theorem checkUnder_congr_of_include
    (hcurrent : settings.currentVersion = settings'.currentVersion) :
    checkUnder settings remote current true = checkUnder settings' remote current true := by
  rw [checkUnder_eq, checkUnder_eq, hcurrent, Bool.true_or, Bool.true_or]

/-- Once the settings are loaded, a check reports the verdict under them. -/
theorem program_check_of_load
    (hasks : Asks arguments settingsPath (.check remote current includePrereleases))
    (hload : Settings.load around settingsPath = .ok settings) (styling : Bool) :
    program around styling arguments =
      report styling (checkUnder settings remote current includePrereleases) := by
  rw [hasks.program_eq]
  simp only [run, runCheck, hload]

/-- Where settings cannot be loaded nothing is compared. -/
theorem program_check_of_loadFailure {failure : Settings.LoadFailure}
    (hasks : Asks arguments settingsPath (.check remote current includePrereleases))
    (hload : Settings.load around settingsPath = .error failure) (styling : Bool) :
    program around styling arguments =
      { exitCode := 1
        stderr := errorLine styling ("Error loading config: " ++ failure.message) } := by
  rw [hasks.program_eq]
  simp only [run, runCheck, hload]

end Check

/-- The check command fails when the settings cannot be loaded, whatever else it is given, and
otherwise conveys the verdict on the current version, which the arguments or else the settings give,
when the remote one is on offer.  A current version in the arguments makes the one in the settings
irrelevant, and the flag for prereleases makes what the settings say about them irrelevant. -/
theorem check_conveys_verdict (around : Surroundings) (styling : Bool) (arguments : List String)
    (settingsPath : Option String) (remote : String) (current : Option String)
    (includePrereleases : Bool)
    (hasks : Asks arguments settingsPath (.check remote current includePrereleases)) :
    (∀ failure, Settings.load around settingsPath = .error failure →
      (program around styling arguments).exitCode = 1 ∧
        (program around styling arguments).stdout = "" ∧
        (program around styling arguments).stderr =
          styled styling [.red] "ERROR:" ++ " Error loading config: " ++ failure.message ++ "\n") ∧
    (∀ settings, Settings.load around settingsPath = .ok settings →
      (program around styling arguments).Conveys styling
        (Verdict.check (current.or settings.currentVersion) (some remote)
          (includePrereleases || settings.includePrereleases))) ∧
    ∀ (around' : Surroundings) (arguments' : List String) (settingsPath' : Option String)
      (settings settings' : Settings),
      Asks arguments' settingsPath' (.check remote current includePrereleases) →
      Settings.load around settingsPath = .ok settings →
      Settings.load around' settingsPath' = .ok settings' →
        (current.isSome = true → settings.includePrereleases = settings'.includePrereleases →
          program around styling arguments = program around' styling arguments') ∧
        (includePrereleases = true → settings.currentVersion = settings'.currentVersion →
          program around styling arguments = program around' styling arguments') := by
  refine ⟨?_, ?_, ?_⟩
  · intro failure hload
    rw [program_check_of_loadFailure hasks hload]
    have hspace : " Error loading config: " = " " ++ "Error loading config: " := rfl
    refine ⟨rfl, rfl, ?_⟩
    simp only [errorLine, line, hspace, String.append_assoc]
  · intro settings hload
    rw [program_check_of_load hasks hload, checkUnder_eq]
    exact report_conveys styling _
  · intro around' arguments' settingsPath' settings settings' hasks' hload hload'
    rw [program_check_of_load hasks hload, program_check_of_load hasks' hload']
    constructor
    · intro hcurrent hinclude
      rw [checkUnder_congr_of_current hcurrent hinclude]
    · rintro rfl hcurrent
      rw [checkUnder_congr_of_include hcurrent]

/-- A directory in place of the settings; settings that name a current version; and two that differ
from them in one thing each, when the arguments name a version, an empty one, and set the flag. -/
theorem check_conveys_beside_settings :
    let directory : Surroundings := ⟨fun _ => .directory, none⟩
    let older : Surroundings := ⟨fun _ => .file "client.current_version = '1.0.0'".toUTF8, none⟩
    let newer : Surroundings := ⟨fun _ => .file "client.current_version = '2.0.0'".toUTF8, none⟩
    let eager : Surroundings := ⟨fun _ => .file
      "client.current_version = '1.0.0'\nbehavior.include_prereleases = true".toUTF8, none⟩
    let plain := ["check", "--remote", "1.1.0"]
    let full := ["check", "-r", "1.1.0", "--current=", "--include-prereleases", "-c", "a.toml"]
    (program directory false full).exitCode = 1 ∧
      (program older false plain).Conveys false
        (Verdict.check (some "1.0.0") (some "1.1.0") false) ∧
      program older false full = program newer false full ∧
      program older false full = program eager false full := by
  intro directory older newer eager plain full
  have hplain : Asks plain none (.check "1.1.0" none false) := rfl
  have hfull : Asks full (some "a.toml") (.check "1.1.0" (some "") true) := rfl
  have hload : ∀ text settings path, Settings.ofText text = .ok settings →
      Settings.load ⟨fun _ => .file text.toUTF8, none⟩ path = .ok settings := by
    intro text settings path hsettings
    have hentry : Settings.ofEntry (.file text.toUTF8) = .ok settings := by
      rw [Settings.ofEntry_toUTF8, hsettings]
      rfl
    cases path <;> exact hentry
  have holder : ∀ path, Settings.load older path = .ok ⟨some "1.0.0", false⟩ :=
    fun path => hload _ _ path (by cbv)
  have hnewer : Settings.load newer (some "a.toml") = .ok ⟨some "2.0.0", false⟩ :=
    hload _ _ _ (by cbv)
  have heager : Settings.load eager (some "a.toml") = .ok ⟨some "1.0.0", true⟩ :=
    hload _ _ _ (by cbv)
  obtain ⟨hfails, -, -⟩ := check_conveys_verdict directory false _ _ _ _ _ hfull
  obtain ⟨-, hconveys, -⟩ := check_conveys_verdict older false _ _ _ _ _ hplain
  obtain ⟨-, -, hsame⟩ := check_conveys_verdict older false _ _ _ _ _ hfull
  exact ⟨(hfails (.storage .isADirectory) rfl).1, hconveys _ (holder none),
    (hsame newer _ _ _ _ hfull (holder _) hnewer).1 rfl rfl,
    (hsame eager _ _ _ _ hfull (holder _) heager).2 rfl rfl⟩

end Freshness.CommandLine
