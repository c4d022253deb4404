import Freshness.Proofs.Layout
import Freshness.Text.Cutting

/-!
# Cutting a token at its runs

The cutter relies on a search that goes through a token from the front: from where the last run
ended it finds the first place at which letters and digits stand, and there the most letters and
then the most digits that it can.  Such a search finds the runs of the layout and nothing else
(`FindsRuns.eq_runs`).  So the cutter never has to take a piece backwards or across a character, its
pieces are those of the token, and what it takes from between the runs holds no run any more.
-/

namespace Freshness.Text

namespace RunSpan

/-- Letters and digits stand at this place in the token. -/
def OccursIn (run : RunSpan) (token : String) : Prop :=
  ∃ before letters digits after, token.toList = before ++ (letters ++ (digits ++ after)) ∧
    IsNumberedRun letters digits ∧ run = of before letters digits

/-- These letters and digits stand at this place in the token, and neither can be made longer. -/
def IsMaximalIn (run : RunSpan) (token : String) (letters digits : List Char) : Prop :=
  ∃ before after, token.toList = before ++ (letters ++ (digits ++ after)) ∧
    IsMaximalRun before letters digits after ∧ run = of before letters digits

/-- The first of two places is preferred, and of two that begin together the one with more letters,
or with as many letters and more digits. -/
def Preferred (a b : RunSpan) : Prop :=
  a.start < b.start ∨
    a.start = b.start ∧ (b.middle < a.middle ∨ b.middle = a.middle ∧ b.stop ≤ a.stop)

/-- What a search from an offset on finds. -/
structure IsNext (token : String) (origin : String.Pos.Raw) (run : RunSpan) : Prop where
  occurs : run.OccursIn token
  origin_le : origin ≤ run.start
  preferred : ∀ other : RunSpan, other.OccursIn token → origin ≤ other.start → run.Preferred other

end RunSpan

/-- What is found from an offset on by one search after another, each from the end of what the one
before it has found. -/
inductive Finds (token : String) : String.Pos.Raw → List RunSpan → Prop
  | nothing {origin : String.Pos.Raw}
      (hnothing : ∀ run : RunSpan, run.OccursIn token → ¬origin ≤ run.start) :
      Finds token origin []
  | next {origin : String.Pos.Raw} {run : RunSpan} {others : List RunSpan}
      (hnext : run.IsNext token origin) (hothers : Finds token run.stop others) :
      Finds token origin (run :: others)

/-- The search goes through every token from its beginning on. -/
def FindsRuns (search : String → List RunSpan) : Prop :=
  ∀ token, Finds token 0 (search token)

/-! ## The search finds one list of places -/

theorem RunSpan.eq_of_preferred {a b : RunSpan} (hab : a.Preferred b) (hba : b.Preferred a) :
    a = b := by
  obtain ⟨astart, amiddle, astop⟩ := a
  obtain ⟨bstart, bmiddle, bstop⟩ := b
  simp only [RunSpan.Preferred] at hab hba
  grind

theorem RunSpan.IsNext.unique {token : String} {origin : String.Pos.Raw} {a b : RunSpan}
    (ha : a.IsNext token origin) (hb : b.IsNext token origin) : a = b :=
  eq_of_preferred (ha.preferred b hb.occurs hb.origin_le) (hb.preferred a ha.occurs ha.origin_le)

theorem Finds.unique {token : String} {origin : String.Pos.Raw} {found others : List RunSpan}
    (hfound : Finds token origin found) (hothers : Finds token origin others) : found = others := by
  induction hfound generalizing others with
  | nothing hnothing =>
      cases hothers with
      | nothing _ => rfl
      | next hnext _ => exact absurd hnext.origin_le (hnothing _ hnext.occurs)
  | next hnext _ ih =>
      cases hothers with
      | nothing hnothing => exact absurd hnext.origin_le (hnothing _ hnext.occurs)
      | next hnext' hothers' =>
          obtain rfl := hnext.unique hnext'
          rw [ih hothers']

/-! ## The places of the runs of a layout -/

namespace RunSpan

theorem ofSegments_consPlain (before text : List Char) (others : List Segment) :
    ofSegments before (Segment.consPlain text others) = ofSegments (before ++ text) others := by
  rw [Segment.consPlain]
  split
  · next hnil => rw [List.isEmpty_iff.mp hnil, List.append_nil]
  · rfl

/-- Letters and digits that stand behind some text of a token stand in the rest of it. -/
theorem OccursIn.exists_between {before text : List Char} {run : RunSpan}
    (hrun : run.OccursIn (String.ofList (before ++ text))) (hle : offset before ≤ run.start) :
    ∃ between letters digits after, text = between ++ (letters ++ (digits ++ after)) ∧
      IsNumberedRun letters digits ∧ run = of (before ++ between) letters digits := by
  obtain ⟨front, letters, digits, after, htoken, hnumbered, rfl⟩ := hrun
  rw [String.toList_ofList] at htoken
  obtain ⟨between, rfl, htext⟩ := exists_append_of_offset_le htoken hle
  exact ⟨between, letters, digits, after, htext, hnumbered, rfl⟩

/-- The first run of a layout is what a search from before it finds. -/
theorem isNext_of {gap letters digits rest : List Char} (hgap : IsPlain gap)
    (hfirst : IsMaximalRun gap letters digits rest) (before : List Char) :
    (of (before ++ gap) letters digits).IsNext
      (String.ofList (before ++ (gap ++ (letters ++ (digits ++ rest))))) (offset before) where
  occurs := ⟨before ++ gap, letters, digits, rest, by simp, hfirst.toIsNumberedRun, rfl⟩
  origin_le := offset_le_append before gap
  preferred := by
    intro other hother hle
    obtain ⟨between, word, number, after, htext, hnumbered, rfl⟩ := hother.exists_between hle
    obtain ⟨later, rfl, hlater⟩ := exists_gap_append hgap hfirst hnumbered htext
    by_cases hne : later = []
    · subst hne
      obtain ⟨rfl, more, rfl, -⟩ := exists_digits_append hfirst hnumbered hlater
      have hstop := offset_le_append (before ++ gap ++ (word ++ number)) more
      refine Or.inr ⟨by simp [of], Or.inr ⟨by simp [of], ?_⟩⟩
      simpa [of] using hstop
    · have hstart := offset_lt_append (before ++ gap) hne
      rw [List.append_assoc] at hstart
      exact Or.inl hstart

end RunSpan

open RunSpan

/-- A search from before a layout finds the runs of the layout. -/
theorem Layout.finds {text : List Char} {parts : List Segment} (hlayout : Layout text parts)
    (before : List Char) :
    Finds (String.ofList (before ++ text)) (offset before) (ofSegments before parts) := by
  induction hlayout generalizing before with
  | plain hplain =>
      rw [ofSegments_consPlain]
      apply Finds.nothing
      intro run hrun hle
      obtain ⟨between, letters, digits, after, rfl, hnumbered, -⟩ := hrun.exists_between hle
      exact hnumbered.not_isPlain between after hplain
  | @run gap letters digits rest others hgap hrun hrest ih =>
      have hothers := ih (before ++ gap ++ (letters ++ digits))
      rw [ofSegments_consPlain, ofSegments]
      refine .next (isNext_of hgap hrun before) ?_
      simpa [of] using hothers

theorem findsRuns_runs : FindsRuns runs := by
  intro token
  have hfinds := (layout_segments token.toList).finds []
  rwa [List.nil_append, String.ofList_toList] at hfinds

theorem FindsRuns.eq_runs {search : String → List RunSpan} (hsearch : FindsRuns search) :
    search = runs := by
  funext token
  exact (hsearch token).unique (findsRuns_runs token)

/-! ## The runs of a layout are the maximal ones, in order -/

theorem start_lt_stop_of_isMaximalIn {run : RunSpan} {token : String} {letters digits : List Char}
    (hrun : run.IsMaximalIn token letters digits) : run.start < run.stop := by
  obtain ⟨before, after, -, hmaximal, rfl⟩ := hrun
  exact offset_lt_append before (by simp [hmaximal.letters_ne_nil])

theorem offset_le_start_of_mem {before : List Char} {parts : List Segment} {run : RunSpan}
    (hrun : run ∈ ofSegments before parts) : offset before ≤ run.start := by
  induction parts generalizing before with
  | nil => contradiction
  | cons segment parts ih =>
      cases segment with
      | plain text => exact String.Pos.Raw.le_trans (offset_le_append before text) (ih hrun)
      | numbered letters digits =>
          rcases List.mem_cons.mp hrun with rfl | hothers
          · exact String.Pos.Raw.le_refl
          · exact String.Pos.Raw.le_trans (offset_le_append before _) (ih hothers)

theorem pairwise_ofSegments (before : List Char) (parts : List Segment) :
    (ofSegments before parts).Pairwise fun a b => a.stop ≤ b.start := by
  induction parts generalizing before with
  | nil => exact List.Pairwise.nil
  | cons segment parts ih =>
      cases segment with
      | plain text => exact ih (before ++ text)
      | numbered letters digits =>
          exact List.pairwise_cons.mpr ⟨fun _ => offset_le_start_of_mem, ih _⟩

/-- A run that the text around it does not make longer is one of the layout: it begins with the
first one, which it then is, or behind it. -/
theorem Layout.mem_ofSegments {text : List Char} {parts : List Segment}
    (hlayout : Layout text parts) (before : List Char) {between word number after : List Char}
    (hrun : IsMaximalRun (before ++ between) word number after)
    (htext : text = between ++ (word ++ (number ++ after))) :
    of (before ++ between) word number ∈ ofSegments before parts := by
  induction hlayout generalizing before between with
  | plain hplain =>
      subst htext
      exact absurd hplain (hrun.toIsNumberedRun.not_isPlain between after)
  | @run gap letters digits rest others hgap hfirst hrest ih =>
      rw [ofSegments_consPlain, ofSegments]
      obtain ⟨later, rfl, hlater⟩ := exists_gap_append hgap hfirst hrun.toIsNumberedRun htext
      rw [show before ++ (gap ++ later) = before ++ gap ++ later by simp] at hrun ⊢
      by_cases hne : later = []
      · subst hne
        obtain ⟨rfl, rfl⟩ := eq_of_run_eq_append hfirst hrun hlater
        simp
      · obtain ⟨more, rfl, hmore⟩ := exists_run_append hfirst hne hrun hlater
        rw [show before ++ gap ++ (letters ++ (digits ++ more)) =
          before ++ gap ++ (letters ++ digits) ++ more by simp] at hrun ⊢
        exact List.mem_cons_of_mem _ (ih _ hrun hmore)

/-! ## The pass of the cutter -/

/-- What the cutter does at a run: it has not gone past the run, there is no run in the text that it
takes from before this one, and the letters and digits that it takes cannot be made longer. -/
structure Cutter.Takes (token : String) (cutter : Cutter) (run : RunSpan)
    (gap letters digits : List Char) : Prop where
  last_le : cutter.last ≤ run.start
  step_eq : cutter.step token run =
    some ⟨run.stop, cutter.pieces ++
      [String.ofList gap, String.ofList letters, String.ofList digits]⟩
  isPlain : IsPlain gap
  isMaximal : run.IsMaximalIn token letters digits

/-- The cutter takes the text before a run, its letters and its digits. -/
theorem step_of (before gap letters digits rest : List Char) (taken : List String) :
    Cutter.step (String.ofList (before ++ (gap ++ (letters ++ (digits ++ rest)))))
        ⟨offset before, taken⟩ (of (before ++ gap) letters digits) =
      some ⟨offset (before ++ gap ++ (letters ++ digits)),
        taken ++ [String.ofList gap, String.ofList letters, String.ofList digits]⟩ := by
  have hgap := subtext?_append before gap (letters ++ (digits ++ rest))
  have hletters := subtext?_append (before ++ gap) letters (digits ++ rest)
  have hdigits := subtext?_append (before ++ gap ++ letters) digits rest
  simp only [List.append_assoc] at hgap hletters hdigits ⊢
  simp only [Cutter.step, of, List.append_assoc, hgap, hletters, hdigits, Option.bind_eq_bind,
    Option.bind_some, Option.pure_def]

/-- The cutter comes to every run of a layout and takes it.  The text before the layout must not end
with a letter, which would make the first run longer. -/
theorem Layout.exists_takes {text : List Char} {parts : List Segment}
    (hlayout : Layout text parts) (before : List Char)
    (hbefore : ∀ c ∈ before.getLast?, c.isLower = false) (taken : List String)
    {done more : List RunSpan} {run : RunSpan}
    (hruns : ofSegments before parts = done ++ run :: more) :
    ∃ cutter gap letters digits,
      done.foldlM (Cutter.step (String.ofList (before ++ text))) ⟨offset before, taken⟩ =
        some cutter ∧
      cutter.Takes (String.ofList (before ++ text)) run gap letters digits := by
  induction hlayout generalizing before taken done with
  | plain hplain =>
      rw [ofSegments_consPlain] at hruns
      exact absurd hruns.symm (by simp [ofSegments])
  | @run gap letters digits rest others hgap hfirst hrest ih =>
      rw [ofSegments_consPlain, ofSegments] at hruns
      have hstep := step_of before gap letters digits rest taken
      cases done with
      | nil =>
          obtain ⟨rfl, -⟩ := List.cons.inj hruns
          refine ⟨⟨offset before, taken⟩, gap, letters, digits, rfl, ?_⟩
          exact
            { last_le := offset_le_append before gap
              step_eq := hstep
              isPlain := hgap
              isMaximal := ⟨before ++ gap, rest, by simp, hfirst.append_left hbefore, rfl⟩ }
      | cons first done =>
          obtain ⟨rfl, hothers⟩ := List.cons.inj hruns
          have htoken : before ++ (gap ++ (letters ++ (digits ++ rest))) =
              before ++ gap ++ (letters ++ digits) ++ rest := by simp
          rw [List.foldlM_cons, hstep, htoken]
          exact ih _ (hfirst.not_isLower_getLast? (before ++ gap)) _ hothers

/-- Behind the last run of a layout the cutter takes plain text, and what it has taken then are the
pieces of the layout. -/
theorem Layout.exists_rest {text : List Char} {parts : List Segment} (hlayout : Layout text parts)
    (before : List Char) (taken : List String) :
    ∃ cutter rest,
      (ofSegments before parts).foldlM (Cutter.step (String.ofList (before ++ text)))
        ⟨offset before, taken⟩ = some cutter ∧
      subtext? (String.ofList (before ++ text)) cutter.last
        (String.ofList (before ++ text)).rawEndPos = some (String.ofList rest) ∧
      IsPlain rest ∧
      (cutter.pieces ++ [String.ofList rest]).filter (fun piece => piece ≠ "") =
        taken.filter (fun piece => piece ≠ "") ++
          (parts.flatMap Segment.pieces).map String.ofList := by
  induction hlayout generalizing before taken with
  | @plain text hplain =>
      rw [ofSegments_consPlain]
      have hrest := subtext?_append before text []
      rw [List.append_nil] at hrest
      refine ⟨⟨offset before, taken⟩, text, rfl, hrest, hplain, ?_⟩
      rw [Segment.flatMap_pieces_consPlain]
      by_cases hne : text = [] <;> simp [hne]
  | @run gap letters digits rest others hgap hfirst hrest ih =>
      have htoken : before ++ (gap ++ (letters ++ (digits ++ rest))) =
          before ++ gap ++ (letters ++ digits) ++ rest := by simp
      rw [ofSegments_consPlain, ofSegments, List.foldlM_cons, step_of, htoken]
      obtain ⟨cutter, last, hfold, hlast, hplain, hpieces⟩ :=
        ih (before ++ gap ++ (letters ++ digits))
          (taken ++ [String.ofList gap, String.ofList letters, String.ofList digits])
      refine ⟨cutter, last, hfold, hlast, hplain, ?_⟩
      rw [hpieces, Segment.flatMap_pieces_consPlain]
      have hdigits := (Numeral.isNumeral_iff.mp hfirst.isNumeral).1
      by_cases hne : gap = [] <;> simp [hne, hfirst.letters_ne_nil, hdigits, Segment.pieces]

/-! ## The pieces of a token -/

theorem join_map_ofList (parts : List (List Char)) :
    String.join (parts.map String.ofList) = String.ofList parts.flatten := by
  induction parts with
  | nil => rfl
  | cons part parts ih =>
      rw [List.map_cons, String.join_cons, ih, List.flatten_cons, String.ofList_append]

/-- The cutter comes to every run of a token and takes it. -/
theorem exists_takes_runs {token : String} {done more : List RunSpan} {run : RunSpan}
    (hruns : runs token = done ++ run :: more) :
    ∃ cutter gap letters digits, done.foldlM (Cutter.step token) {} = some cutter ∧
      cutter.Takes token run gap letters digits := by
  have htakes := (layout_segments token.toList).exists_takes [] (by simp) [] hruns
  rwa [List.nil_append, String.ofList_toList] at htakes

/-- The cutter comes to the end of a token and has then taken its pieces. -/
theorem exists_rest_runs (token : String) :
    ∃ cutter rest, (runs token).foldlM (Cutter.step token) {} = some cutter ∧
      subtext? token cutter.last token.rawEndPos = some (String.ofList rest) ∧ IsPlain rest ∧
      (cutter.pieces ++ [String.ofList rest]).filter (fun piece => piece ≠ "") =
        (pieces token.toList).map String.ofList := by
  have hrest := (layout_segments token.toList).exists_rest [] []
  rwa [List.nil_append, String.ofList_toList] at hrest

theorem cut_runs (token : String) :
    cut runs token = some ((pieces token.toList).map String.ofList) := by
  obtain ⟨cutter, rest, hfold, hrest, -, hpieces⟩ := exists_rest_runs token
  calc
    cut runs token = cutter.finish token := by rw [cut, hfold]; rfl
    _ = some ((cutter.pieces ++ [String.ofList rest]).filter fun piece => piece ≠ "") := by
      rw [Cutter.finish, hrest]
      rfl
    _ = some ((pieces token.toList).map String.ofList) := congrArg some hpieces

/-- Plain text is one piece. -/
theorem cut_runs_of_isPlain {text : List Char} (hplain : IsPlain text) (hne : text ≠ []) :
    cut runs (String.ofList text) = some [String.ofList text] := by
  rw [cut_runs, String.toList_ofList, pieces_of_isPlain hne hplain]
  rfl

/-- How a token is cut into parts by a cutter that is told the places of the runs. -/
structure CutAtRuns (search : String → List RunSpan) (token : String) (parts : List String) :
    Prop where
  eq_pieces : parts = (pieces token.toList).map String.ofList
  /-- A stage is read from the parts and their number. -/
  ofToken_eq : Stage.ofToken token.toList = Stage.ofPieces (parts.map String.toList)
  ne_empty : ∀ part ∈ parts, part ≠ ""
  join_eq : String.join parts = token
  /-- The runs are those that the text around them does not make longer, each of them once. -/
  mem_iff : ∀ run, run ∈ search token ↔ ∃ letters digits, run.IsMaximalIn token letters digits
  nodup : (search token).Nodup
  in_order : (search token).Pairwise fun a b => a.stop ≤ b.start
  /-- At each run the cutter has not gone past it, and what it takes from before it is one piece. -/
  at_run : ∀ done run more, search token = done ++ run :: more →
    ∃ cutter gap letters digits, done.foldlM (Cutter.step token) {} = some cutter ∧
      cutter.Takes token run gap letters digits ∧
      (gap ≠ [] → cut search (String.ofList gap) = some [String.ofList gap])
  /-- What the cutter takes from behind the last run is one piece, too. -/
  at_end : ∃ cutter rest, (search token).foldlM (Cutter.step token) {} = some cutter ∧
    subtext? token cutter.last token.rawEndPos = some (String.ofList rest) ∧
    parts = (cutter.pieces ++ [String.ofList rest]).filter (fun piece => piece ≠ "") ∧
    IsPlain rest ∧ (rest ≠ [] → cut search (String.ofList rest) = some [String.ofList rest])
  length_eq_two_iff : parts.length = 2 ↔ IsWholeRun token.toList

theorem mem_runs_iff {token : String} {run : RunSpan} :
    run ∈ runs token ↔ ∃ letters digits, run.IsMaximalIn token letters digits := by
  constructor
  · intro hrun
    obtain ⟨done, more, hruns⟩ := List.append_of_mem hrun
    obtain ⟨cutter, gap, letters, digits, -, htakes⟩ := exists_takes_runs hruns
    exact ⟨letters, digits, htakes.isMaximal⟩
  · rintro ⟨letters, digits, before, after, htoken, hmaximal, rfl⟩
    exact (layout_segments token.toList).mem_ofSegments [] hmaximal htoken

theorem nodup_runs (token : String) : (runs token).Nodup := by
  have hordered := pairwise_ofSegments [] (segments token.toList)
  refine hordered.imp_of_mem fun {a b} ha _ hle heq => ?_
  obtain ⟨letters, digits, hmaximal⟩ := mem_runs_iff.mp ha
  have hlt := String.Pos.Raw.lt_of_lt_of_le (start_lt_stop_of_isMaximalIn hmaximal) hle
  rw [heq] at hlt
  exact String.Pos.Raw.ne_of_lt hlt rfl

/-- With any search that finds runs from the front, cutting a token always has a result: its pieces
in order, with nothing lost.  The cutter comes to each maximal run of letters with its digits once,
takes it as two pieces, and never has to go back.  What it takes beside the runs holds none, and
stays whole when it is cut again.  There are two pieces just when the token is one run. -/
theorem cut_at_maximal_runs {search : String → List RunSpan} (hsearch : FindsRuns search)
    (token : String) : ∃ parts, cut search token = some parts ∧ CutAtRuns search token parts := by
  obtain rfl := hsearch.eq_runs
  obtain ⟨cutter, rest, hfold, hrest, hplain, hpieces⟩ := exists_rest_runs token
  refine ⟨_, cut_runs token, ?_⟩
  exact
    { eq_pieces := rfl
      ofToken_eq := by simpa using Stage.ofToken_eq_ofPieces token.toList
      ne_empty := by
        intro part hpart
        rw [← hpieces, List.mem_filter] at hpart
        simpa using hpart.2
      join_eq := by rw [join_map_ofList, flatten_pieces, String.ofList_toList]
      mem_iff := fun run => mem_runs_iff
      nodup := nodup_runs token
      in_order := pairwise_ofSegments [] (segments token.toList)
      at_run := by
        intro done run more hruns
        obtain ⟨cutter, gap, letters, digits, hdone, htakes⟩ := exists_takes_runs hruns
        exact ⟨cutter, gap, letters, digits, hdone, htakes, cut_runs_of_isPlain htakes.isPlain⟩
      at_end := ⟨cutter, rest, hfold, hrest, hpieces.symm, hplain, cut_runs_of_isPlain hplain⟩
      length_eq_two_iff := by rw [List.length_map, length_pieces_eq_two_iff] }

/-- Two runs beside characters of more than one byte, and a token that is one run. -/
theorem cut_at_maximal_runs_beside_accents :
    FindsRuns runs ∧ cut runs "1é-bc34dé5x6" = some ["1é-", "bc", "34", "dé5", "x", "6"] ∧
      String.join ["1é-", "bc", "34", "dé5", "x", "6"] = "1é-bc34dé5x6" ∧
      cut runs "rc2" = some ["rc", "2"] ∧ IsWholeRun "rc2".toList := by
  obtain ⟨parts, hcut, hparts⟩ := cut_at_maximal_runs findsRuns_runs "1é-bc34dé5x6"
  obtain ⟨run, hrun, hwhole⟩ := cut_at_maximal_runs findsRuns_runs "rc2"
  have hpieces : parts = ["1é-", "bc", "34", "dé5", "x", "6"] := hparts.eq_pieces
  have htwo : run = ["rc", "2"] := hwhole.eq_pieces
  subst hpieces htwo
  exact ⟨findsRuns_runs, hcut, hparts.join_eq, hrun, hwhole.length_eq_two_iff.mp rfl⟩

end Freshness.Text
