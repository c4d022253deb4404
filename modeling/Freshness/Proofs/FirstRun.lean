import Freshness.Proofs.Canonical

/-!
# The first run of a token

What a token spells can be said without cutting it into segments.  A token that is empty, or one
numbered run, or plain text, is read as a whole.  Any other token has a first run of letters that a
digit follows, and what comes first names the channel: the text before that run or, if there is
none, the letters of the run.  Text before a run never ends with a letter, so it names no channel
that anybody recognizes.
-/

namespace Freshness

namespace Text

def IsWholeRun (token : List Char) : Prop :=
  ∃ letters digits, IsNumberedRun letters digits ∧ token = letters ++ digits

/-- Of the longest runs of letters in `before ++ letters ++ after`, `letters` is the first one that
a digit follows. -/
structure IsFirstRun (before letters after : List Char) : Prop where
  letters_ne_nil : letters ≠ []
  isLower : ∀ c ∈ letters, c.isLower = true
  maximal : ∀ c ∈ before.getLast?, c.isLower = false
  isDigit : ∃ c ∈ after.head?, c.isDigit = true
  first : IsPlain before

/-- Text that is not plain has a first run.  In front of text that begins with one a letter makes
the run longer, and anything else is the text before it. -/
theorem exists_isFirstRun {token : List Char} (htoken : ¬IsPlain token) :
    ∃ before letters after, IsFirstRun before letters after ∧
      token = before ++ letters ++ after := by
  induction token with
  | nil => exact absurd List.isChain_nil htoken
  | cons c rest ih =>
      by_cases hbegins : c.isLower = true ∧ ∃ d ∈ rest.head?, d.isDigit = true
      · refine ⟨[], [c], rest, ?_, rfl⟩
        exact
          { letters_ne_nil := List.cons_ne_nil c []
            isLower := by simpa using hbegins.1
            maximal := by simp
            isDigit := hbegins.2
            first := List.isChain_nil }
      · have hpair : ∀ d ∈ rest.head?, ¬(c.isLower = true ∧ d.isDigit = true) :=
          fun d hd hpair => hbegins ⟨hpair.1, d, hd, hpair.2⟩
        have hrest : ¬IsPlain rest := fun hplain => htoken (List.isChain_cons.mpr ⟨hpair, hplain⟩)
        obtain ⟨before, letters, after, hfirst, rfl⟩ := ih hrest
        cases before with
        | nil =>
            cases hc : c.isLower with
            | true =>
                refine ⟨[], c :: letters, after, { hfirst with
                  letters_ne_nil := List.cons_ne_nil c letters
                  isLower := List.forall_mem_cons.mpr ⟨hc, hfirst.isLower⟩ }, rfl⟩
            | false =>
                refine ⟨[c], letters, after, { hfirst with
                  maximal := by simpa using hc
                  first := List.isChain_singleton c }, rfl⟩
        | cons d before =>
            refine ⟨c :: d :: before, letters, after, { hfirst with
              maximal := by simpa using hfirst.maximal
              first := List.isChain_cons.mpr ⟨hpair, hfirst.first⟩ }, rfl⟩

/-- The digits behind a first run make it a numbered one, and they can be taken up to where no digit
follows. -/
theorem IsFirstRun.exists_digits {before letters after : List Char}
    (hfirst : IsFirstRun before letters after) :
    ∃ digits rest, IsNumberedRun letters digits ∧ after = digits ++ rest ∧
      ∀ c ∈ rest.head?, c.isDigit = false := by
  have hnumeral : Numeral.isNumeral (after.takeWhile Char.isDigit) = true := by
    obtain ⟨c, hc, hdigit⟩ := hfirst.isDigit
    rw [Numeral.isNumeral_iff]
    refine ⟨?_, fun d hd => List.mem_takeWhile_imp hd⟩
    cases after with
    | nil => contradiction
    | cons d after =>
        obtain rfl : d = c := by simpa using hc
        simp [hdigit]
  have hrest : ∀ c ∈ (after.dropWhile Char.isDigit).head?, c.isDigit = false := by
    intro c hc
    have hdropped := List.head?_dropWhile_not Char.isDigit after
    rw [Option.mem_def.mp hc] at hdropped
    exact hdropped
  exact ⟨_, _, ⟨hfirst.letters_ne_nil, hfirst.isLower, hnumeral⟩,
    List.takeWhile_append_dropWhile.symm, hrest⟩

/-- The first run, with the digits behind it, is a segment. -/
theorem IsFirstRun.exists_segments {before letters after : List Char}
    (hfirst : IsFirstRun before letters after) :
    ∃ digits rest, IsNumberedRun letters digits ∧ after = digits ++ rest ∧
      segments (letters ++ after) = .numbered letters digits :: segments rest := by
  obtain ⟨digits, rest, hrun, rfl, hrest⟩ := hfirst.exists_digits
  exact ⟨digits, rest, hrun, rfl, segments_numbered_append hrun hrest⟩

theorem IsWholeRun.length_segments {token : List Char} (hwhole : IsWholeRun token) :
    (segments token).length = 1 := by
  obtain ⟨letters, digits, hrun, rfl⟩ := hwhole
  rw [segments_numbered hrun]
  rfl

theorem segments_ne_nil {token : List Char} (hne : token ≠ []) : segments token ≠ [] := by
  intro hnil
  have hchars := flatMap_chars_segments token
  rw [hnil] at hchars
  exact hne hchars.symm

end Text

namespace Stage

open Text

variable {before letters after : List Char}

/-- A channel that is named by the text before a run is one that nobody recognizes. -/
theorem unnumbered_before (hfirst : IsFirstRun before letters after) (hne : before ≠ []) :
    unnumbered before = ⟨.unrecognized (String.ofList before), noIteration⟩ := by
  rw [unnumbered, Channel.ofTag_unrecognized]
  · simpa using hne
  · intro hknown
    have hlower := Channel.isLower_of_mem_knownTags hknown (before.getLast hne) (by simp)
    rw [hfirst.maximal _ (List.getLast?_eq_some_getLast hne)] at hlower
    contradiction

/-- A token that is more than its first run is named by the text before the run or, if there is
none, by the letters of the run. -/
theorem ofToken_of_isFirstRun (hfirst : IsFirstRun before letters after)
    (hmore : ¬IsWholeRun (before ++ letters ++ after)) :
    ofToken (before ++ letters ++ after) =
      .ok ⟨if before = [] then .ofTag (String.ofList letters)
        else .unrecognized (String.ofList before), noIteration⟩ := by
  obtain ⟨digits, rest, hrun, hafter, hsegments⟩ := hfirst.exists_segments
  rw [List.append_assoc] at hmore ⊢
  split
  · next hnil =>
      subst hnil
      rw [List.nil_append] at hmore ⊢
      have hne : rest ≠ [] := by
        rintro rfl
        exact hmore ⟨letters, digits, hrun, by rw [hafter, List.append_nil]⟩
      obtain ⟨segment, others, hothers⟩ := List.exists_cons_of_ne_nil (segments_ne_nil hne)
      rw [ofToken, hsegments, hothers]
      rfl
  · next hne =>
      rw [ofToken, segments_plain_append hne hfirst.first hfirst.maximal hsegments,
        ← unnumbered_before hfirst hne]

/-- What a token spells, by its shape.  A whole run spells a channel and an iteration, and it is the
only token that can be refused, which it is when the number is too large.  Plain text names a
channel as a whole, and any other token names one by what comes first of the text before its first
run and the letters of the run.  No token spells a formal release. -/
theorem read_token_by_shape (input token : String) :
    (token = "" → read input token = .ok ⟨.unrecognized "", -1⟩) ∧
    (∀ letters digits, IsNumberedRun letters digits → token.toList = letters ++ digits →
      (Numeral.value digits ≤ 0x7FFFFFFFFFFFFFFF →
        ∃ iteration : Int64, iteration.toInt = Numeral.value digits ∧
          read input token = .ok ⟨.ofTag (String.ofList letters), iteration⟩) ∧
      (0x7FFFFFFFFFFFFFFF < Numeral.value digits →
        read input token = .error ⟨input, .iterationOutOfRange (String.ofList digits)⟩)) ∧
    (∀ cause, read input token = .error cause →
      ∃ letters digits, IsNumberedRun letters digits ∧ token.toList = letters ++ digits ∧
        0x7FFFFFFFFFFFFFFF < Numeral.value digits) ∧
    (token ≠ "" → IsPlain token.toList → read input token = .ok ⟨.ofTag token, -1⟩) ∧
    (¬IsPlain token.toList →
      ∃ before letters after, IsFirstRun before letters after ∧
        token.toList = before ++ letters ++ after) ∧
    (∀ before letters after, IsFirstRun before letters after →
      token.toList = before ++ letters ++ after → ¬IsWholeRun token.toList →
        read input token =
          .ok ⟨if before = [] then .ofTag (String.ofList letters)
            else .unrecognized (String.ofList before), -1⟩) ∧
    ∀ stage, read input token = .ok stage → stage.channel ≠ .release := by
  refine ⟨?_, ?_, ?_, ?_, exists_isFirstRun, ?_, ?_⟩
  · rintro rfl
    rfl
  · intro letters digits hrun htoken
    rw [read, htoken, ofToken_numbered hrun]
    constructor
    · intro hsmall
      have hlimit : Numeral.value digits < iterationLimit := Nat.lt_succ_of_le hsmall
      rw [if_pos hlimit]
      exact ⟨_, Int64.toInt_ofNat_of_lt hlimit, rfl⟩
    · intro hlarge
      have hlimit : ¬Numeral.value digits < iterationLimit := Nat.not_lt.mpr hlarge
      rw [if_neg hlimit]
      rfl
  · intro cause hcause
    rw [read, mapError_eq_error_iff] at hcause
    obtain ⟨reason, hreason, -⟩ := hcause
    obtain ⟨letters, digits, hrun, htoken, hlarge, -⟩ := ofToken_eq_error_iff.mp hreason
    exact ⟨letters, digits, hrun, htoken, hlarge⟩
  · intro hne hplain
    rw [read, ofToken_of_isPlain (by simpa using hne) hplain, unnumbered, String.ofList_toList]
    rfl
  · intro before letters after hfirst htoken hmore
    rw [htoken] at hmore
    rw [read, htoken, ofToken_of_isFirstRun hfirst hmore]
    rfl
  · intro stage hstage
    rw [read, mapError_eq_ok_iff] at hstage
    exact channel_ne_release_of_ofToken hstage

/-- Nothing, leading zeros, a number that is too large, and a run with more before or behind it. -/
theorem read_token_around_candidates :
    read "1.0.0-" "" = .ok ⟨.unrecognized "", -1⟩ ∧
    (∃ iteration : Int64, iteration.toInt = 7 ∧
      read "1.0.0-RC007" "rc007" = .ok ⟨.releaseCandidate, iteration⟩) ∧
    read "1.0.0-RC9223372036854775808" "rc9223372036854775808" =
      .error ⟨"1.0.0-RC9223372036854775808", .iterationOutOfRange "9223372036854775808"⟩ ∧
    read "1.0.0-rc" "rc" = .ok ⟨.releaseCandidate, -1⟩ ∧
    read "1.0.0-rc2x3" "rc2x3" = .ok ⟨.releaseCandidate, -1⟩ ∧
    read "1.0.0-1rc2" "1rc2" = .ok ⟨.unrecognized "1", -1⟩ := by
  obtain ⟨hempty, -⟩ := read_token_by_shape "1.0.0-" ""
  obtain ⟨-, hnumbered, -⟩ := read_token_by_shape "1.0.0-RC007" "rc007"
  obtain ⟨-, hrefused, -⟩ :=
    read_token_by_shape "1.0.0-RC9223372036854775808" "rc9223372036854775808"
  obtain ⟨-, -, -, hwhole, -⟩ := read_token_by_shape "1.0.0-rc" "rc"
  obtain ⟨-, -, -, -, -, hletters, -⟩ := read_token_by_shape "1.0.0-rc2x3" "rc2x3"
  obtain ⟨-, -, -, -, -, hbefore, -⟩ := read_token_by_shape "1.0.0-1rc2" "1rc2"
  have hrun : IsNumberedRun ['r', 'c'] ['0', '0', '7'] := ⟨by decide, by simp, rfl⟩
  have hlarge : IsNumberedRun ['r', 'c'] "9223372036854775808".toList := ⟨by decide, by simp, rfl⟩
  have hplain : IsPlain "rc".toList := isPlain_of_forall_not_isDigit (by simp)
  have hfirst : IsFirstRun [] ['r', 'c'] ['2', 'x', '3'] :=
    ⟨by decide, by simp, by simp, ⟨'2', rfl, rfl⟩, List.isChain_nil⟩
  have hsecond : IsFirstRun ['1'] ['r', 'c'] ['2'] :=
    ⟨by decide, by simp, by simp, ⟨'2', rfl, rfl⟩, List.isChain_singleton '1'⟩
  exact ⟨hempty rfl, (hnumbered _ _ hrun rfl).1 (by decide),
    (hrefused _ _ hlarge rfl).2 (by decide), hwhole (by decide) hplain,
    hletters _ _ _ hfirst rfl fun hwhole => absurd hwhole.length_segments (by decide),
    hbefore _ _ _ hsecond rfl fun hwhole => absurd hwhole.length_segments (by decide)⟩

end Stage

end Freshness
