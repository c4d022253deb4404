import Mathlib
import Freshness.Version.Stage

/-!
# Tokens of stages

A token is cut at its numbered runs.  Each segment is what it claims to be: a numbered run has
letters and digits, and the text between two runs has no letter that a digit follows
(`wellFormed_of_mem_segments`).  A run, and plain text before a run, is a segment of its own
whatever follows (`segments_numbered_append`, `segments_plain_append`).  A token that is one run, or
that holds none, is therefore read as a whole, and the only token that spells no stage is one run
with too large a number (`ofToken_eq_error_iff`).
-/

namespace Freshness

namespace Text

/-- No letter of the text has a digit right behind it, so the text holds no numbered run. -/
def IsPlain (text : List Char) : Prop :=
  text.IsChain fun c d => ¬(c.isLower = true ∧ d.isDigit = true)

/-- Letters `a` to `z` and a numeral: together they are one numbered run. -/
structure IsNumberedRun (letters digits : List Char) : Prop where
  letters_ne_nil : letters ≠ []
  isLower : ∀ c ∈ letters, c.isLower = true
  isNumeral : Numeral.isNumeral digits = true

theorem isLower_iff_toNat {c : Char} : c.isLower = true ↔ 97 ≤ c.toNat ∧ c.toNat ≤ 122 := by
  simp [Char.isLower, UInt32.le_iff_toNat_le]

theorem not_isLower_of_isDigit {c : Char} (hc : c.isDigit = true) : c.isLower = false := by
  rw [Char.isDigit_iff_toNat] at hc
  change 48 ≤ c.toNat ∧ c.toNat ≤ 57 at hc
  rw [← Bool.not_eq_true, isLower_iff_toNat]
  omega

theorem not_isDigit_of_isLower {c : Char} (hc : c.isLower = true) : c.isDigit = false := by
  rw [← Bool.not_eq_true]
  intro hdigit
  rw [not_isLower_of_isDigit hdigit] at hc
  contradiction

theorem ascii_of_isLower {c : Char} (hc : c.isLower = true) : c.toNat < 0x80 := by
  have hrange := isLower_iff_toNat.mp hc
  omega

theorem ascii_of_isDigit {c : Char} (hc : c.isDigit = true) : c.toNat < 0x80 := by
  have hrange := Char.isDigit_iff_toNat.mp hc
  change 48 ≤ c.toNat ∧ c.toNat ≤ 57 at hrange
  omega

theorem IsNumberedRun.ascii {letters digits : List Char} (hrun : IsNumberedRun letters digits) :
    ∀ c ∈ letters ++ digits, c.toNat < 0x80 := by
  intro c hc
  rcases List.mem_append.mp hc with hletter | hdigit
  · exact ascii_of_isLower (hrun.isLower c hletter)
  · exact ascii_of_isDigit ((Numeral.isNumeral_iff.mp hrun.isNumeral).2 c hdigit)

theorem isPlain_of_forall_not_isDigit {text : List Char}
    (htext : ∀ c ∈ text, c.isDigit = false) : IsPlain text := by
  induction text with
  | nil => exact List.isChain_nil
  | cons c text ih =>
      rw [IsPlain, List.isChain_cons]
      refine ⟨?_, ih fun d hd => htext d (List.mem_cons_of_mem c hd)⟩
      intro d hd hrun
      rw [htext d (List.mem_cons_of_mem c (List.mem_of_mem_head? hd))] at hrun
      exact absurd hrun.2 (by decide)

/-! ## Segments are what they claim to be -/

/-- Plain text is not empty and holds no numbered run; a numbered run is one. -/
def Segment.WellFormed : Segment → Prop
  | plain text => text ≠ [] ∧ IsPlain text
  | numbered letters digits => IsNumberedRun letters digits

theorem Segment.wellFormed_consPlain {text : List Char} {rest : List Segment}
    (htext : IsPlain text) (hrest : ∀ segment ∈ rest, segment.WellFormed) :
    ∀ segment ∈ consPlain text rest, segment.WellFormed := by
  rw [consPlain]
  split
  · exact hrest
  · next hne =>
      intro segment hsegment
      rcases List.mem_cons.mp hsegment with rfl | htail
      · exact ⟨by simpa using hne, htext⟩
      · exact hrest segment htail

/-- A character put in front keeps all segments well-formed.  On its own it is plain text; in front
of a numbered run a letter joins the letters, and in front of plain text it begins a run with the
digits at the start. -/
theorem Segment.wellFormed_cons {c : Char} {rest : List Segment}
    (hrest : ∀ segment ∈ rest, segment.WellFormed) :
    ∀ segment ∈ cons c rest, segment.WellFormed := by
  unfold cons
  split
  · simp [WellFormed, IsPlain]
  · next letters digits rest =>
      have hrun : IsNumberedRun letters digits := hrest _ List.mem_cons_self
      split
      · next hlower =>
          intro segment hsegment
          rcases List.mem_cons.mp hsegment with rfl | htail
          · refine ⟨List.cons_ne_nil c letters, ?_, hrun.isNumeral⟩
            simpa [hlower] using hrun.isLower
          · exact hrest segment (List.mem_cons_of_mem _ htail)
      · intro segment hsegment
        rcases List.mem_cons.mp hsegment with rfl | htail
        · simp [WellFormed, IsPlain]
        · exact hrest segment htail
  · next text rest =>
      have hplain : text ≠ [] ∧ IsPlain text := hrest _ List.mem_cons_self
      split
      · next hbegins =>
          rw [Bool.and_eq_true] at hbegins
          intro segment hsegment
          rcases List.mem_cons.mp hsegment with rfl | htail
          · refine ⟨by simp, by simpa using hbegins.1, ?_⟩
            rw [Numeral.isNumeral_iff]
            constructor
            · cases text with
              | nil => simp at hbegins
              | cons d text => simpa using hbegins.2
            · exact fun d hd => List.mem_takeWhile_imp hd
          · refine wellFormed_consPlain ?_ (fun s hs => hrest s (List.mem_cons_of_mem _ hs)) _ htail
            exact hplain.2.suffix (List.dropWhile_suffix _)
      · next hbegins =>
          intro segment hsegment
          rcases List.mem_cons.mp hsegment with rfl | htail
          · refine ⟨List.cons_ne_nil c text, ?_⟩
            rw [IsPlain, List.isChain_cons]
            refine ⟨?_, hplain.2⟩
            intro d hd hrun
            apply hbegins
            simp [hrun.1, hrun.2, Option.mem_def.mp hd]
          · exact hrest segment (List.mem_cons_of_mem _ htail)

theorem wellFormed_of_mem_segments {token : List Char} {segment : Segment}
    (hsegment : segment ∈ segments token) : segment.WellFormed := by
  induction token generalizing segment with
  | nil => simp at hsegment
  | cons c rest ih => exact Segment.wellFormed_cons (fun _ => ih) segment hsegment

/-! ## Tokens of one segment -/

theorem segments_of_isPlain {text : List Char} (hne : text ≠ []) (hplain : IsPlain text) :
    segments text = [.plain text] := by
  induction text with
  | nil => contradiction
  | cons c text ih =>
      rw [IsPlain, List.isChain_cons] at hplain
      obtain ⟨hhead, htail⟩ := hplain
      cases text with
      | nil => rfl
      | cons d text =>
          have hpair : ¬(c.isLower = true ∧ d.isDigit = true) := hhead d rfl
          rw [segments_cons, ih (List.cons_ne_nil d text) htail, Segment.cons,
            if_neg (by simpa using hpair)]

/-! ## Runs in front of other text -/

/-- Text without letters joins the plain text that it is put in front of, if there is any. -/
theorem exists_segments_append {text : List Char} (hne : text ≠ [])
    (htext : ∀ c ∈ text, c.isLower = false) (rest : List Char) :
    ∃ more others, segments (text ++ rest) = .plain (text ++ more) :: others ∧
      segments rest = Segment.consPlain more others := by
  induction text with
  | nil => contradiction
  | cons c text ih =>
      rw [List.forall_mem_cons] at htext
      obtain ⟨hc, htext⟩ := htext
      cases text with
      | nil =>
          rw [List.singleton_append, segments_cons]
          cases hrest : segments rest with
          | nil => exact ⟨[], [], rfl, rfl⟩
          | cons segment others =>
              cases segment with
              | numbered letters digits =>
                  exact ⟨[], .numbered letters digits :: others, by simp [Segment.cons, hc], rfl⟩
              | plain more =>
                  have hwellFormed : (Segment.plain more).WellFormed :=
                    wellFormed_of_mem_segments (hrest ▸ List.mem_cons_self)
                  refine ⟨more, others, by simp [Segment.cons, hc], ?_⟩
                  simp [Segment.consPlain, hwellFormed.1]
      | cons d text =>
          obtain ⟨more, others, hsegments, hrest⟩ := ih (List.cons_ne_nil d text) htext
          refine ⟨more, others, ?_, hrest⟩
          rw [List.cons_append, segments_cons, hsegments]
          simp [Segment.cons, hc]

/-- A numbered run that no digit follows is a segment of its own in front of all others.  Its last
letter cuts the plain text that begins with the digits behind them. -/
theorem segments_numbered_append {letters digits rest : List Char}
    (hrun : IsNumberedRun letters digits) (hrest : ∀ c ∈ rest.head?, c.isDigit = false) :
    segments (letters ++ (digits ++ rest)) = .numbered letters digits :: segments rest := by
  obtain ⟨hne, hlower, hnumeral⟩ := hrun
  obtain ⟨hdigits, hisDigit⟩ := Numeral.isNumeral_iff.mp hnumeral
  induction letters with
  | nil => contradiction
  | cons c letters ih =>
      rw [List.forall_mem_cons] at hlower
      obtain ⟨hc, hlower⟩ := hlower
      cases letters with
      | nil =>
          obtain ⟨more, others, hsegments, hothers⟩ := exists_segments_append hdigits
            (fun d hd => not_isLower_of_isDigit (hisDigit d hd)) rest
          have hmore : more.takeWhile Char.isDigit = [] ∧ more.dropWhile Char.isDigit = more := by
            cases more with
            | nil => exact ⟨rfl, rfl⟩
            | cons d more =>
                have hchars := flatMap_chars_segments rest
                rw [hothers, Segment.flatMap_chars_consPlain] at hchars
                have hd : d.isDigit = false := hrest d (by simp [← hchars])
                simp [hd]
          have hhead : (digits ++ more).head?.any Char.isDigit = true := by
            cases digits with
            | nil => exact absurd rfl hdigits
            | cons d digits => simpa using hisDigit d List.mem_cons_self
          rw [List.singleton_append, segments_cons, hsegments, Segment.cons, hc, hhead,
            Bool.and_self, if_pos rfl, List.takeWhile_append_of_pos hisDigit,
            List.dropWhile_append_of_pos hisDigit, hmore.1, hmore.2, List.append_nil, hothers]
      | cons d letters =>
          rw [List.cons_append, segments_cons, ih (List.cons_ne_nil d letters) hlower,
            Segment.cons, if_pos hc]

theorem segments_numbered {letters digits : List Char} (hrun : IsNumberedRun letters digits) :
    segments (letters ++ digits) = [.numbered letters digits] := by
  have hsegments := @segments_numbered_append letters digits [] hrun (by simp)
  rwa [List.append_nil] at hsegments

/-- Plain text that does not end with a letter is a segment of its own in front of a numbered
run. -/
theorem segments_plain_append {text rest : List Char} (hne : text ≠ []) (hplain : IsPlain text)
    (hend : ∀ c ∈ text.getLast?, c.isLower = false) {letters digits : List Char}
    {others : List Segment} (hrest : segments rest = .numbered letters digits :: others) :
    segments (text ++ rest) = .plain text :: segments rest := by
  induction text with
  | nil => contradiction
  | cons c text ih =>
      rw [IsPlain, List.isChain_cons] at hplain
      obtain ⟨hhead, htail⟩ := hplain
      cases text with
      | nil =>
          have hc : c.isLower = false := hend c rfl
          rw [List.singleton_append, segments_cons, hrest]
          simp [Segment.cons, hc]
      | cons d text =>
          have hpair : ¬(c.isLower = true ∧ d.isDigit = true) := hhead d rfl
          rw [List.getLast?_cons_cons] at hend
          rw [List.cons_append, segments_cons, ih (List.cons_ne_nil d text) htail hend,
            Segment.cons, if_neg (by simpa using hpair)]

end Text

/-! ## Reading a token -/

namespace Stage

open Text

theorem ofToken_nil : ofToken [] = .ok ⟨.unrecognized "", noIteration⟩ := rfl

theorem ofToken_of_isPlain {text : List Char} (hne : text ≠ []) (hplain : IsPlain text) :
    ofToken text = .ok (unnumbered text) := by
  rw [ofToken]
  rw [segments_of_isPlain hne hplain]

theorem ofToken_numbered {letters digits : List Char} (hrun : IsNumberedRun letters digits) :
    ofToken (letters ++ digits) =
      if Numeral.value digits < iterationLimit then
        .ok ⟨.ofTag (String.ofList letters), .ofNat (Numeral.value digits)⟩
      else .error (.iterationOutOfRange (String.ofList digits)) := by
  rw [ofToken]
  rw [segments_numbered hrun]

/-- What a token spells: nothing, a single numbered run, or a channel that is named by the first
piece of the token. -/
theorem ofToken_cases (token : List Char) :
    token = [] ∨
      (∃ letters digits, IsNumberedRun letters digits ∧ token = letters ++ digits) ∨
      ∃ tag rest, tag ≠ [] ∧ IsPlain tag ∧ token = tag ++ rest ∧
        ofToken token = .ok (unnumbered tag) := by
  have hchars := flatMap_chars_segments token
  have hwellFormed := fun segment => @wellFormed_of_mem_segments token segment
  rw [ofToken]
  split
  · next hsegments =>
      left
      rw [← hchars, hsegments]
      rfl
  · next letters digits hsegments =>
      right
      left
      refine ⟨letters, digits, hwellFormed (.numbered letters digits) (by simp [hsegments]), ?_⟩
      rw [← hchars, hsegments]
      simp [Segment.chars]
  · next letters digits others hothers hsegments =>
      right
      right
      have hrun : IsNumberedRun letters digits :=
        hwellFormed (.numbered letters digits) (by simp [hsegments])
      refine ⟨letters, digits ++ others.flatMap Segment.chars, hrun.letters_ne_nil, ?_, ?_, rfl⟩
      · exact isPlain_of_forall_not_isDigit fun c hc => not_isDigit_of_isLower (hrun.isLower c hc)
      · rw [← hchars, hsegments]
        simp [Segment.chars]
  · next text others hsegments =>
      right
      right
      have hplain : text ≠ [] ∧ IsPlain text := hwellFormed (.plain text) (by simp [hsegments])
      refine ⟨text, others.flatMap Segment.chars, hplain.1, hplain.2, ?_, rfl⟩
      rw [← hchars, hsegments]
      simp [Segment.chars]

/-- The only token that spells no stage is a numbered run with too large a number. -/
theorem ofToken_eq_error_iff {token : List Char} {reason : Malformed.Reason} :
    ofToken token = .error reason ↔
      ∃ letters digits, IsNumberedRun letters digits ∧ token = letters ++ digits ∧
        iterationLimit ≤ Numeral.value digits ∧
        reason = .iterationOutOfRange (String.ofList digits) := by
  constructor
  · intro herror
    rcases ofToken_cases token with rfl | ⟨letters, digits, hrun, rfl⟩ | ⟨tag, rest, _, _, _, hok⟩
    · rw [ofToken_nil] at herror
      contradiction
    · rw [ofToken_numbered hrun] at herror
      split at herror
      · contradiction
      · next hlarge =>
          rw [Except.error.injEq] at herror
          exact ⟨letters, digits, hrun, rfl, not_lt.mp hlarge, herror.symm⟩
    · rw [hok] at herror
      contradiction
  · rintro ⟨letters, digits, hrun, rfl, hlarge, rfl⟩
    rw [ofToken_numbered hrun, if_neg (not_lt.mpr hlarge)]

theorem ofTag_ne_release {tag : List Char} (hne : tag ≠ []) :
    Channel.ofTag (String.ofList tag) ≠ .release := by
  intro hrelease
  have htag := Channel.tag_ofTag (String.ofList tag)
  rw [hrelease] at htag
  apply hne
  rw [← String.toList_ofList (l := tag), ← htag]
  rfl

/-- No token spells a formal release. -/
theorem channel_ne_release_of_ofToken {token : List Char} {stage : Stage}
    (hstage : ofToken token = .ok stage) : stage.channel ≠ .release := by
  rcases ofToken_cases token with rfl | ⟨letters, digits, hrun, rfl⟩ | ⟨tag, rest, hne, _, _, hok⟩
  · rw [ofToken_nil, Except.ok.injEq] at hstage
    subst hstage
    simp
  · rw [ofToken_numbered hrun] at hstage
    split at hstage
    · rw [Except.ok.injEq] at hstage
      subst hstage
      exact ofTag_ne_release hrun.letters_ne_nil
    · contradiction
  · rw [hok, Except.ok.injEq] at hstage
    subst hstage
    exact ofTag_ne_release hne

end Stage

end Freshness
