import Mathlib
import Freshness.CommandLine.Program

/-!
# Arguments that ask for a command

A run of the program depends on its arguments only through the command, and the settings file, that
they ask for.  Each command can be asked for, whatever its operands and values are: an operand that
begins with a hyphen stands behind `--`, and such a value is joined to the name of its option
(`asks_arguments`).
-/

namespace Freshness.CommandLine

/-- The arguments ask for a command, and for a settings file or none. -/
def Asks (arguments : List String) (settingsPath : Option String) (command : Command) : Prop :=
  Request.ofArguments arguments = .ok (.run ⟨settingsPath, command⟩)

theorem Asks.program_eq {arguments : List String} {settingsPath : Option String}
    {command : Command} (hasks : Asks arguments settingsPath command) (around : Surroundings)
    (styling : Bool) :
    program around styling arguments = run around styling ⟨settingsPath, command⟩ := by
  rw [program, hasks]

/-- An option that is written out together with its value. -/
def Opt.written (option : Opt) (value : String) : String :=
  String.ofList ('-' :: '-' :: option.name.toList ++ '=' :: value.toList)

def Command.arguments : Command → List String
  | compare candidate baseline => ["compare", "--", candidate, baseline]
  | parse input => ["parse", "--", input]
  | check remote current includePrereleases =>
    "check" :: Opt.remote.written remote :: ((current.map Opt.current.written).toList ++
      if includePrereleases then ["--include-prereleases"] else [])

def Invocation.arguments (invocation : Invocation) : List String :=
  (invocation.settingsPath.map Opt.config.written).toList ++ invocation.command.arguments

namespace Reading

variable {reading : Reading} {option : Opt}

theorem find?_name {options : List Opt} (hoption : option ∈ options) :
    options.find? (fun other => decide (other.name.toList = option.name.toList)) =
      some option := by
  have hname : ∀ other : Opt, other.name.toList = option.name.toList ↔ other = option := by
    intro other
    cases other <;> cases option <;> decide
  induction options with
  | nil => contradiction
  | cons other options ih =>
      rw [List.find?_cons]
      by_cases hother : other = option
      · simp [hother]
      · have hrest : option ∈ options := (List.mem_cons.mp hoption).resolve_left (Ne.symm hother)
        simp only [hname, hother, decide_false]
        simpa only [hname] using ih hrest

theorem addLong_value (haccepted : option ∈ reading.accepted) (hvalue : option.takesValue = true)
    (value : String) :
    reading.addLong (option.name.toList ++ '=' :: value.toList) = reading.record option value := by
  have hequals : ∀ c ∈ option.name.toList, decide (c ≠ '=') = true := by
    cases option <;> simp [Opt.name]
  have hspan : (option.name.toList ++ '=' :: value.toList).span (· ≠ '=') =
      (option.name.toList, '=' :: value.toList) := by
    rw [List.span_eq_takeWhile_dropWhile, List.takeWhile_append_of_pos hequals,
      List.dropWhile_append_of_pos hequals]
    simp
  rw [addLong, hspan]
  simp only [find?_name haccepted, hvalue, String.ofList_toList]

/-- An option that is accepted here is taken with the value that is joined to its name, even if the
value is empty or begins with a hyphen. -/
theorem add_written (hawaiting : reading.awaiting = none) (hoperands : reading.operandsOnly = false)
    (haccepted : option ∈ reading.accepted) (hvalue : option.takesValue = true) (value : String) :
    reading.add (option.written value) = reading.record option value := by
  obtain ⟨c, name, hname⟩ : ∃ c name, option.name.toList = c :: name := by
    cases option <;> exact ⟨_, _, rfl⟩
  have hchars : (option.written value).toList =
      '-' :: '-' :: c :: (name ++ '=' :: value.toList) := by
    simp [Opt.written, hname]
  have hlooks : looksLikeOption (option.written value) = true := by
    have hhyphen : option.written value ≠ "-" := by
      intro heq
      rw [heq] at hchars
      simp at hchars
    simp [looksLikeOption, hchars, hhyphen]
  rw [← addLong_value haccepted hvalue, hname, add, hawaiting]
  simp only [hoperands, hlooks, hchars]
  rfl

theorem foldlM_add_cons {next : Reading} {argument : String}
    (hadd : reading.add argument = .ok next) (arguments : List String) :
    (argument :: arguments).foldlM add reading = arguments.foldlM add next := by
  rw [List.foldlM_cons, hadd]
  rfl

/-- What has been read before the name of the command. -/
theorem foldlM_add_settingsPath (settingsPath : Option String) (arguments : List String) :
    ((settingsPath.map Opt.config.written).toList ++ arguments).foldlM add {} =
      arguments.foldlM add { outer := (settingsPath.map (Opt.config, ·)).toList } := by
  cases settingsPath with
  | none => rfl
  | some path =>
      exact foldlM_add_cons (add_written rfl rfl (by decide) rfl path) arguments

/-- The arguments for a command are read as the command, whatever has been read before its name. -/
theorem exists_foldlM_add_arguments (outer : Given) (command : Command) :
    ∃ reading, command.arguments.foldlM add { outer } = .ok reading ∧
      reading.finish = .ok ⟨outer.lookup .config, command⟩ := by
  cases command with
  | compare candidate baseline => exact ⟨_, rfl, rfl⟩
  | parse input => exact ⟨_, rfl, rfl⟩
  | check remote current includePrereleases =>
      have hcheck : ({ outer } : Reading).add "check" = .ok { command := some .check, outer } := rfl
      have hremote : ({ command := some .check, outer } : Reading).add (Opt.remote.written remote) =
          .ok { command := some .check, outer, inner := [(.remote, remote)] } :=
        add_written rfl rfl List.mem_cons_self rfl remote
      have hcurrent : ∀ value,
          ({ command := some .check, outer, inner := [(.remote, remote)] } : Reading).add
              (Opt.current.written value) =
            .ok { command := some .check, outer,
                  inner := [(.current, value), (.remote, remote)] } :=
        fun value => add_written rfl rfl (List.mem_cons_of_mem _ List.mem_cons_self) rfl value
      rw [Command.arguments, foldlM_add_cons hcheck, foldlM_add_cons hremote]
      cases current with
      | none => cases includePrereleases <;> exact ⟨_, rfl, rfl⟩
      | some value =>
          have hcons : (Option.map Opt.current.written (some value)).toList =
              [Opt.current.written value] := rfl
          rw [hcons, List.singleton_append, foldlM_add_cons (hcurrent value)]
          cases includePrereleases <;> exact ⟨_, rfl, rfl⟩

end Reading

/-- Every command can be asked for, with any settings file or none. -/
theorem asks_arguments (settingsPath : Option String) (command : Command) :
    Asks (Invocation.arguments ⟨settingsPath, command⟩) settingsPath command := by
  obtain ⟨reading, hreading, hfinish⟩ := Reading.exists_foldlM_add_arguments
    (settingsPath.map (Opt.config, ·)).toList command
  have hpath : (settingsPath.map (Opt.config, ·)).toList.lookup .config = settingsPath := by
    cases settingsPath <;> rfl
  rw [hpath] at hfinish
  have hread : ((Invocation.arguments ⟨settingsPath, command⟩).foldlM Reading.add {} >>=
      Reading.finish) = .ok ⟨settingsPath, command⟩ := by
    rw [Invocation.arguments, Reading.foldlM_add_settingsPath, hreading]
    exact hfinish
  rw [Asks, Request.ofArguments, hread]

end Freshness.CommandLine
