import Freshness.Proofs.FirstRun

/-!
# The layout of a token

Read from the front, a token is plain text, or it has a first numbered run with plain text before it
and a rest that is laid out in the same way.  The run cannot be made longer on either side, and no
other run begins before it (`exists_gap_append`), so the layout finds every such run.  The segments
of a token are the parts of its layout (`layout_segments`), and what the reader of stages makes of a
token depends on its pieces alone (`ofToken_eq_ofPieces`).
-/

namespace Freshness

namespace Text

/-- A numbered run that the text around it does not make longer. -/
structure IsMaximalRun (before letters digits after : List Char) : Prop
    extends IsNumberedRun letters digits where
  not_isLower : ∀ c ∈ before.getLast?, c.isLower = false
  not_isDigit : ∀ c ∈ after.head?, c.isDigit = false

/-- A run stays maximal behind more text, unless that text lends it a letter. -/
theorem IsMaximalRun.append_left {gap letters digits rest : List Char}
    (hrun : IsMaximalRun gap letters digits rest) {before : List Char}
    (hbefore : ∀ c ∈ before.getLast?, c.isLower = false) :
    IsMaximalRun (before ++ gap) letters digits rest :=
  { hrun with
    not_isLower := by
      intro c hc
      rw [List.getLast?_append, Option.mem_def, Option.or_eq_some_iff] at hc
      rcases hc with hgap | ⟨-, hlast⟩
      · exact hrun.not_isLower c hgap
      · exact hbefore c hlast }

theorem IsNumberedRun.not_isLower_getLast? {letters digits : List Char}
    (hrun : IsNumberedRun letters digits) (before : List Char) :
    ∀ c ∈ (before ++ (letters ++ digits)).getLast?, c.isLower = false := by
  intro c hc
  obtain ⟨hne, hisDigit⟩ := Numeral.isNumeral_iff.mp hrun.isNumeral
  rw [← List.append_assoc, List.getLast?_append, List.getLast?_eq_some_getLast hne] at hc
  obtain rfl := Option.some.inj hc
  exact not_isLower_of_isDigit (hisDigit _ (List.getLast_mem hne))

/-- How a token is laid out in segments. -/
inductive Layout : List Char → List Segment → Prop
  | plain {text : List Char} (hplain : IsPlain text) : Layout text (Segment.consPlain text [])
  | run {gap letters digits rest : List Char} {others : List Segment} (hgap : IsPlain gap)
      (hrun : IsMaximalRun gap letters digits rest) (hrest : Layout rest others) :
      Layout (gap ++ (letters ++ (digits ++ rest)))
        (Segment.consPlain gap (.numbered letters digits :: others))

theorem segments_gap {gap letters digits rest : List Char} (hgap : IsPlain gap)
    (hrun : IsMaximalRun gap letters digits rest) :
    segments (gap ++ (letters ++ (digits ++ rest))) =
      Segment.consPlain gap (.numbered letters digits :: segments rest) := by
  have hsegments := segments_numbered_append hrun.toIsNumberedRun hrun.not_isDigit
  by_cases hne : gap = []
  · subst hne
    exact hsegments
  · rw [segments_plain_append hne hgap hrun.not_isLower hsegments, hsegments, Segment.consPlain,
      if_neg (by simpa using hne)]

/-- The segments of a token are the parts of its layout.  The induction is on the length of the
token, which each run makes shorter. -/
theorem layout_segments (token : List Char) : Layout token (segments token) := by
  by_cases hplain : IsPlain token
  · have hsegments : segments token = Segment.consPlain token [] := by
      by_cases hne : token = []
      · subst hne
        rfl
      · rw [segments_of_isPlain hne hplain, Segment.consPlain, if_neg (by simpa using hne)]
    rw [hsegments]
    exact .plain hplain
  · obtain ⟨gap, letters, after, hfirst, htoken⟩ := exists_isFirstRun hplain
    obtain ⟨digits, rest, hrun, rfl, hrest⟩ := hfirst.exists_digits
    have hmaximal : IsMaximalRun gap letters digits rest :=
      { hrun with
        not_isLower := hfirst.maximal
        not_isDigit := hrest }
    have hshorter : rest.length < token.length := by
      have hpositive := List.length_pos_iff.mpr hfirst.letters_ne_nil
      simp only [htoken, List.length_append]
      omega
    rw [htoken, List.append_assoc, segments_gap hfirst.first hmaximal]
    exact .run hfirst.first hmaximal (layout_segments rest)
termination_by token.length

/-! ## Runs that overlap -/

section Overlap

variable {gap letters digits rest before word number after : List Char}

/-- Text that holds a numbered run is not plain. -/
theorem IsNumberedRun.not_isPlain (hrun : IsNumberedRun letters digits) (before after : List Char) :
    ¬IsPlain (before ++ (letters ++ (digits ++ after))) := by
  intro hplain
  obtain ⟨hne, hisDigit⟩ := Numeral.isNumeral_iff.mp hrun.isNumeral
  obtain ⟨d, digits, rfl⟩ := List.exists_cons_of_ne_nil hne
  have htail : IsPlain (letters ++ (d :: digits ++ after)) :=
    hplain.suffix (List.suffix_append _ _)
  have hadjacent := (List.isChain_append.mp htail).2.2 _
    (List.getLast?_eq_some_getLast hrun.letters_ne_nil) d rfl
  exact hadjacent ⟨hrun.isLower _ (List.getLast_mem _), hisDigit d List.mem_cons_self⟩

/-- Plain text that does not end with a letter has no run beginning in it: the last letter of the
run and its first digit would stand side by side in plain text. -/
theorem eq_nil_of_run_eq_append (hgap : IsPlain gap) (hend : ∀ c ∈ gap.getLast?, c.isLower = false)
    (hrun : IsNumberedRun word number) (heq : word ++ (number ++ after) = gap ++ rest) :
    gap = [] := by
  by_contra hne
  have hlast : (gap.getLast hne).isLower = false := hend _ (List.getLast?_eq_some_getLast hne)
  rcases List.append_eq_append_iff.mp heq with ⟨tail, rfl, htail⟩ | ⟨tail, rfl, -⟩
  · cases tail with
    | nil =>
        rw [hrun.isLower _ (by simp)] at hlast
        contradiction
    | cons d tail =>
        obtain ⟨hdigits, hisDigit⟩ := Numeral.isNumeral_iff.mp hrun.isNumeral
        obtain ⟨c, number, rfl⟩ := List.exists_cons_of_ne_nil hdigits
        obtain ⟨rfl, -⟩ : c = d ∧ _ := by simpa using htail
        have hshort : IsNumberedRun word [c] :=
          { hrun with
            isNumeral := Numeral.isNumeral_iff.mpr
              ⟨List.cons_ne_nil c [], by simpa using hisDigit c List.mem_cons_self⟩ }
        exact hshort.not_isPlain [] tail hgap
  · rw [hrun.isLower _ (List.mem_append_left _ (List.getLast_mem hne))] at hlast
    contradiction

/-- No run begins before the first one of a layout. -/
theorem exists_gap_append (hgap : IsPlain gap) (hfirst : IsMaximalRun gap letters digits rest)
    (hrun : IsNumberedRun word number)
    (heq : gap ++ (letters ++ (digits ++ rest)) = before ++ (word ++ (number ++ after))) :
    ∃ between, before = gap ++ between ∧
      letters ++ (digits ++ rest) = between ++ (word ++ (number ++ after)) := by
  rcases List.append_eq_append_iff.mp heq with hlater | ⟨between, rfl, hword⟩
  · exact hlater
  · have hplain : IsPlain between := hgap.suffix (List.suffix_append before between)
    have hend : ∀ c ∈ between.getLast?, c.isLower = false := by
      intro c hc
      apply hfirst.not_isLower
      rw [List.getLast?_append, Option.mem_def.mp hc]
      rfl
    obtain rfl := eq_nil_of_run_eq_append hplain hend hrun hword
    exact ⟨[], by simp, by simpa using hword.symm⟩

theorem takeWhile_isLower_append (hrun : IsNumberedRun letters digits) (rest : List Char) :
    (letters ++ (digits ++ rest)).takeWhile Char.isLower = letters := by
  obtain ⟨hdigits, hisDigit⟩ := Numeral.isNumeral_iff.mp hrun.isNumeral
  rw [List.takeWhile_append_of_pos hrun.isLower]
  cases digits with
  | nil => contradiction
  | cons d digits =>
      have hd : d.isLower = false := not_isLower_of_isDigit (hisDigit d List.mem_cons_self)
      simp [hd]

/-- Of two runs that begin together the letters are the same, and the one that cannot be made longer
has all digits of the other. -/
theorem exists_digits_append (hfirst : IsMaximalRun gap letters digits rest)
    (hrun : IsNumberedRun word number)
    (heq : letters ++ (digits ++ rest) = word ++ (number ++ after)) :
    word = letters ∧ ∃ more, digits = number ++ more ∧ after = more ++ rest := by
  have hword : word = letters := by
    rw [← takeWhile_isLower_append hrun after, ← heq,
      takeWhile_isLower_append hfirst.toIsNumberedRun]
  subst hword
  refine ⟨rfl, ?_⟩
  rcases List.append_eq_append_iff.mp (List.append_cancel_left heq) with
    ⟨more, rfl, rfl⟩ | ⟨more, rfl, hafter⟩
  · cases more with
    | nil => exact ⟨[], by simp, by simp⟩
    | cons d more =>
        have hd := (Numeral.isNumeral_iff.mp hrun.isNumeral).2 d (by simp)
        rw [hfirst.not_isDigit d rfl] at hd
        contradiction
  · exact ⟨more, rfl, hafter⟩

/-- Two runs that begin together are the same if neither can be made longer. -/
theorem eq_of_run_eq_append (hfirst : IsMaximalRun gap letters digits rest)
    (hrun : IsMaximalRun before word number after)
    (heq : letters ++ (digits ++ rest) = word ++ (number ++ after)) :
    word = letters ∧ number = digits := by
  obtain ⟨hword, more, hdigits, -⟩ := exists_digits_append hfirst hrun.toIsNumberedRun heq
  obtain ⟨-, others, hnumber, -⟩ := exists_digits_append hrun hfirst.toIsNumberedRun heq.symm
  have hle : number <+: digits := ⟨more, hdigits.symm⟩
  have hge : digits <+: number := ⟨others, hnumber.symm⟩
  exact ⟨hword, hle.eq_of_length_le hge.length_le⟩

/-- A run that the text around it does not make longer begins together with the first one or behind
it. -/
theorem exists_run_append (hfirst : IsMaximalRun gap letters digits rest)
    {between : List Char} (hne : between ≠ [])
    (hrun : IsMaximalRun (before ++ between) word number after)
    (heq : letters ++ (digits ++ rest) = between ++ (word ++ (number ++ after))) :
    ∃ more, between = letters ++ (digits ++ more) ∧ rest = more ++ (word ++ (number ++ after)) := by
  have hlast : (between.getLast hne).isLower = false := by
    apply hrun.not_isLower
    rw [List.getLast?_append, List.getLast?_eq_some_getLast hne]
    rfl
  rcases List.append_eq_append_iff.mp heq with ⟨middle, rfl, hmiddle⟩ | ⟨middle, rfl, -⟩
  · rcases List.append_eq_append_iff.mp hmiddle with ⟨more, rfl, hrest⟩ | ⟨more, rfl, hword⟩
    · exact ⟨more, rfl, hrest⟩
    · cases more with
      | nil => exact ⟨[], by simp, by simpa using hword.symm⟩
      | cons d more =>
          have hdigit : d.isDigit = true :=
            (Numeral.isNumeral_iff.mp hfirst.isNumeral).2 d (by simp)
          obtain ⟨c, word, rfl⟩ := List.exists_cons_of_ne_nil hrun.letters_ne_nil
          obtain ⟨rfl, -⟩ : c = d ∧ _ := by simpa using hword
          have hletter : c.isLower = true := hrun.isLower c List.mem_cons_self
          rw [not_isDigit_of_isLower hletter] at hdigit
          contradiction
  · rw [hfirst.isLower _ (List.mem_append_left _ (List.getLast_mem hne))] at hlast
    contradiction

end Overlap

/-! ## Pieces -/

theorem Segment.flatMap_pieces_consPlain (text : List Char) (others : List Segment) :
    (consPlain text others).flatMap pieces =
      (if text = [] then [] else [text]) ++ others.flatMap pieces := by
  rw [consPlain]
  split
  · next hnil => simp [List.isEmpty_iff.mp hnil]
  · next hne => simp [pieces, show text ≠ [] by simpa using hne]

theorem Layout.flatMap_chars {text : List Char} {parts : List Segment}
    (hlayout : Layout text parts) : parts.flatMap Segment.chars = text := by
  induction hlayout with
  | plain hplain => simp
  | run hgap hrun hrest ih => simp [Segment.chars, ih]

theorem flatten_flatMap_pieces (parts : List Segment) :
    (parts.flatMap Segment.pieces).flatten = parts.flatMap Segment.chars := by
  induction parts with
  | nil => rfl
  | cons segment parts ih => cases segment <;> simp [Segment.pieces, Segment.chars, ih]

/-- Nothing of a token is lost or moved when it is cut into pieces. -/
theorem flatten_pieces (token : List Char) : (pieces token).flatten = token := by
  rw [pieces, flatten_flatMap_pieces, flatMap_chars_segments]

theorem Layout.isWholeRun {text : List Char} {parts : List Segment} (hlayout : Layout text parts)
    (htwo : (parts.flatMap Segment.pieces).length = 2) : IsWholeRun text := by
  cases hlayout with
  | plain hplain =>
      rw [Segment.flatMap_pieces_consPlain] at htwo
      split at htwo <;> simp at htwo
  | @run gap letters digits rest others hgap hrun hrest =>
      rw [Segment.flatMap_pieces_consPlain, List.flatMap_cons, Segment.pieces] at htwo
      split at htwo
      · next hnil =>
          have hothers : others.flatMap Segment.pieces = [] := by
            simp only [List.nil_append, List.length_append, List.length_cons,
              List.length_nil] at htwo
            exact List.length_eq_zero_iff.mp (by omega)
          have hempty : rest = [] := by
            rw [← hrest.flatMap_chars, ← flatten_flatMap_pieces, hothers, List.flatten_nil]
          exact ⟨letters, digits, hrun.toIsNumberedRun, by rw [hnil, hempty]; simp⟩
      · simp at htwo

/-- There are two pieces exactly when the token is a single numbered run. -/
theorem length_pieces_eq_two_iff {token : List Char} :
    (pieces token).length = 2 ↔ IsWholeRun token := by
  constructor
  · exact (layout_segments token).isWholeRun
  · rintro ⟨letters, digits, hrun, rfl⟩
    rw [pieces, segments_numbered hrun]
    rfl

theorem pieces_of_isPlain {text : List Char} (hne : text ≠ []) (hplain : IsPlain text) :
    pieces text = [text] := by
  rw [pieces, segments_of_isPlain hne hplain]
  rfl

end Text

namespace Stage

open Text

/-- The stage that the pieces of a token spell: if there are two, they are a tag and an iteration,
and otherwise the first one is a tag without an iteration. -/
def ofPieces : List (List Char) → Except Malformed.Reason Stage
  | [] => .ok ⟨.unrecognized "", noIteration⟩
  | [tag, digits] =>
    if Numeral.value digits < iterationLimit then
      .ok ⟨.ofTag (String.ofList tag), .ofNat (Numeral.value digits)⟩
    else .error (.iterationOutOfRange (String.ofList digits))
  | tag :: _ => .ok (unnumbered tag)

theorem ofPieces_cons {tag : List Char} {others : List (List Char)}
    (hnottwo : (tag :: others).length ≠ 2) : ofPieces (tag :: others) = .ok (unnumbered tag) := by
  cases others with
  | nil => rfl
  | cons second others =>
      cases others with
      | nil => exact absurd rfl hnottwo
      | cons third others => rfl

/-- The reader of stages goes by the pieces of a token and their number. -/
theorem ofToken_eq_ofPieces (token : List Char) : ofToken token = ofPieces (pieces token) := by
  by_cases hwhole : IsWholeRun token
  · obtain ⟨letters, digits, hrun, rfl⟩ := hwhole
    have hpieces : pieces (letters ++ digits) = [letters, digits] := by
      rw [pieces, segments_numbered hrun]
      rfl
    rw [hpieces, ofToken_numbered hrun]
    rfl
  · have hnottwo : (pieces token).length ≠ 2 := mt length_pieces_eq_two_iff.mp hwhole
    rw [pieces] at hnottwo ⊢
    rw [ofToken]
    split
    · next hsegments => rw [hsegments]; rfl
    · next letters digits hsegments =>
        rw [hsegments] at hnottwo
        exact absurd rfl hnottwo
    · next letters digits others _ hsegments =>
        rw [hsegments] at hnottwo ⊢
        exact (ofPieces_cons hnottwo).symm
    · next text others hsegments =>
        rw [hsegments] at hnottwo ⊢
        exact (ofPieces_cons hnottwo).symm

end Stage

end Freshness
