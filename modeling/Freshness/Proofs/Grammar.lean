import Freshness.Proofs.Components
import Freshness.Proofs.Reading
import Freshness.Proofs.Tokens

/-!
# The grammar of written versions

A written version is a mark, three numerals with separators between them, and perhaps a tail that
begins with one more separator.  A separator is a dot, or once in the whole text a hyphen.  The
grammar is stated on the text as it is written.  A text of this shape is read as what its parts
say (`read_chars_eq_ok_iff`), and every text that is read has this shape
(`exists_spelling_of_read`).
-/

namespace Freshness

open Text Unicode Version

/-- What may follow the three numbers: a separator, the token of a stage, and text that is
ignored. -/
structure Spelling.Tail where
  separator : Char
  token : List Char
  ignored : List Char

/-- A text cut into the parts of a written version. -/
structure Spelling where
  mark : List Char
  major : List Char
  first : Char
  minor : List Char
  second : Char
  patch : List Char
  tail : Option Spelling.Tail

namespace Spelling

def chars (spelling : Spelling) : List Char :=
  spelling.mark ++ spelling.major ++ spelling.first :: spelling.minor ++
    spelling.second :: spelling.patch ++
    match spelling.tail with
    | none => []
    | some tail => tail.separator :: tail.token ++ tail.ignored

def separators (spelling : Spelling) : List Char :=
  spelling.first :: spelling.second :: (spelling.tail.map Tail.separator).toList

/-- Whether a hyphen behind the separators counts as a dot: none of them is a hyphen. -/
def hyphenCounts (spelling : Spelling) : Bool :=
  spelling.separators.all (· != '-')

/-- The parts are what the grammar asks for.  The token reaches up to the next dot, or up to the
next hyphen if that comes first and no separator is a hyphen. -/
structure Shaped (spelling : Spelling) : Prop where
  isMark : IsMark spelling.mark
  major : Numeral.isNumeral spelling.major = true
  minor : Numeral.isNumeral spelling.minor = true
  patch : Numeral.isNumeral spelling.patch = true
  dot_or_hyphen : ∀ c ∈ spelling.separators, c = '.' ∨ c = '-'
  one_hyphen : spelling.separators.count '-' ≤ 1
  token : ∀ tail ∈ spelling.tail, ∀ c ∈ tail.token, ¬IsSeparator spelling.hyphenCounts c
  longest : ∀ tail ∈ spelling.tail, ∀ c ∈ tail.ignored.head?,
    IsSeparator spelling.hyphenCounts c

/-- In lower case the token is a numbered run with a number of more than 63 bits. -/
def Tail.Overflows (tail : Tail) : Prop :=
  ∃ letters digits, IsNumberedRun letters digits ∧ lowercase tail.token = letters ++ digits ∧
    0x7FFFFFFFFFFFFFFF < Numeral.value digits

/-- The numbers of the spelling are not too large. -/
structure InRange (spelling : Spelling) : Prop where
  major : Numeral.value spelling.major ≤ 0xFFFFFFFF
  minor : Numeral.value spelling.minor ≤ 0xFFFFFFFF
  patch : Numeral.value spelling.patch ≤ 0xFFFFFFFF
  iteration : ∀ tail ∈ spelling.tail, ¬tail.Overflows

/-- The numbers of the spelling with dots as separators. -/
def numbers (spelling : Spelling) : List Char :=
  spelling.mark ++ spelling.major ++ '.' :: spelling.minor ++ '.' :: spelling.patch

/-- The token of a tail in lower case, converted in its place. -/
def stageToken (spelling : Spelling) (tail : Tail) : List Char :=
  lowercaseBetween (spelling.numbers ++ ['.']) tail.token
    (dotHyphen spelling.hyphenCounts tail.ignored)

/-- The stage that the tail spells; without a tail it is that of a formal release. -/
def stage (spelling : Spelling) : Except Malformed.Reason Stage :=
  match spelling.tail with
  | none => .ok .formal
  | some tail => Stage.ofToken (spelling.stageToken tail)

variable {spelling : Spelling}

/-! ## The parts are what is read -/

/-- With at most one hyphen among them, each separator counts where it stands. -/
theorem Shaped.isSeparator (hshaped : spelling.Shaped) :
    IsSeparator true spelling.first ∧
      IsSeparator (true && spelling.first != '-') spelling.second ∧
      ∀ tail ∈ spelling.tail,
        IsSeparator ((true && spelling.first != '-') && spelling.second != '-')
          tail.separator := by
  have hseparators := hshaped.dot_or_hyphen
  have hhyphens := hshaped.one_hyphen
  unfold separators at hseparators hhyphens
  cases htail : spelling.tail with
  | none =>
      rw [htail] at hseparators hhyphens
      simp only [Option.map_none, Option.toList_none, List.forall_mem_cons] at hseparators
      rcases hseparators with ⟨hfirst | hfirst, hsecond | hsecond, -⟩ <;>
        simp_all [IsSeparator]
  | some tail =>
      rw [htail] at hseparators hhyphens
      simp only [Option.map_some, Option.toList_some, List.forall_mem_cons] at hseparators
      rcases hseparators with ⟨hfirst | hfirst, hsecond | hsecond, hthird | hthird, -⟩ <;>
        simp_all [IsSeparator]

/-- The text up to the tail, and the tail, with dots as separators. -/
theorem Shaped.dotFirstHyphen_chars (hshaped : spelling.Shaped) :
    dotFirstHyphen spelling.chars =
      spelling.numbers ++
        match spelling.tail with
        | none => []
        | some tail => '.' :: tail.token ++ dotHyphen spelling.hyphenCounts tail.ignored := by
  obtain ⟨hfirst, hsecond, hthird⟩ := hshaped.isSeparator
  have hmajor := not_separator_of_marked hshaped.isMark hshaped.major
  have hminor := not_separator_of_isNumeral hshaped.minor
  have hpatch := not_separator_of_isNumeral hshaped.patch
  have hcounts : dotFirstHyphen spelling.chars = dotHyphen true spelling.chars := rfl
  rw [hcounts, chars, numbers]
  simp only [List.append_assoc, List.cons_append]
  rw [← List.append_assoc, ← List.append_assoc spelling.mark,
    dotHyphen_append fun _ hmem => (hmajor _ hmem).2 rfl, dotHyphen_separator hfirst,
    dotHyphen_append fun _ hmem => (hminor _ hmem).2 rfl, dotHyphen_separator hsecond,
    dotHyphen_append fun _ hmem => (hpatch _ hmem).2 rfl]
  cases htail : spelling.tail with
  | none => rw [dotHyphen_of_not_mem List.not_mem_nil]
  | some tail =>
      have hcounts : ((true && spelling.first != '-') && spelling.second != '-' &&
          tail.separator != '-') = spelling.hyphenCounts := by
        simp [hyphenCounts, separators, htail, Bool.and_assoc]
      have htoken : spelling.hyphenCounts = true → '-' ∉ tail.token :=
        fun hyphen hmem => hshaped.token tail htail _ hmem (Or.inr ⟨rfl, hyphen⟩)
      rw [dotHyphen_separator (hthird tail htail), hcounts, dotHyphen_append htoken]

/-- The token stands behind a numeral and a dot, where no sigma takes its final form on account
of what comes before. -/
theorem Shaped.stageToken_eq (hshaped : spelling.Shaped) (tail : Tail) :
    spelling.stageToken tail =
      lowercasePart false (dotHyphen spelling.hyphenCounts tail.ignored) tail.token := by
  obtain ⟨hne, hdigits⟩ := Numeral.isNumeral_iff.mp hshaped.patch
  simp only [stageToken, lowercaseBetween, numbers, List.foldl_append, List.foldl_cons,
    List.foldl_nil, endsCased_dot]
  rw [foldl_endsCased_of_digits hne hdigits]

theorem stage_of_tail_eq_none (htail : spelling.tail = none) : spelling.stage = .ok .formal := by
  rw [stage, htail]

theorem Shaped.stage_of_tail_eq_some (hshaped : spelling.Shaped) {tail : Tail}
    (htail : spelling.tail = some tail) :
    spelling.stage =
      Stage.ofToken
        (lowercasePart false (dotHyphen spelling.hyphenCounts tail.ignored) tail.token) := by
  rw [stage, htail, ← hshaped.stageToken_eq]

/-- The components of a shaped text are its numerals, the token and what is ignored. -/
theorem Shaped.components_chars (hshaped : spelling.Shaped) :
    ∃ ignored, components spelling.chars =
        spelling.major :: spelling.minor :: spelling.patch ::
          ((spelling.tail.map spelling.stageToken).toList ++ ignored) ∧
      (spelling.tail = none → ignored = []) := by
  have hmajor := not_separator_of_marked hshaped.isMark hshaped.major
  have hminor := not_separator_of_isNumeral hshaped.minor
  have hpatch := not_separator_of_isNumeral hshaped.patch
  obtain ⟨hne, hdigits⟩ := Numeral.isNumeral_iff.mp hshaped.patch
  have hdotted := hshaped.dotFirstHyphen_chars
  rw [numbers] at hdotted
  simp only [List.append_assoc, List.cons_append] at hdotted
  rw [← List.append_assoc] at hdotted
  rw [components_of_dotted (fun hmem => (hmajor _ hmem).1 rfl) hdotted,
    dropMark_lowercasePart hshaped.isMark hshaped.major,
    splitOn_lowercaseAfter fun hmem => (hminor _ hmem).1 rfl,
    lowercasePart_of_isNumeral hshaped.minor]
  cases htail : spelling.tail with
  | none =>
      refine ⟨[], ?_, fun _ => rfl⟩
      rw [List.append_nil,
        splitOn_lowercaseAfter_of_not_mem (fun hmem => (hpatch _ hmem).1 rfl),
        lowercasePart_of_isNumeral hshaped.patch]
      rfl
  | some tail =>
      have htoken : '.' ∉ tail.token :=
        fun hmem => hshaped.token tail htail _ hmem (Or.inl rfl)
      have hlongest := hshaped.longest tail htail
      rw [splitOn_lowercaseAfter (fun hmem => (hpatch _ hmem).1 rfl),
        lowercasePart_of_isNumeral hshaped.patch, foldl_endsCased_of_digits hne hdigits]
      simp only [Option.map_some, Option.toList_some, List.singleton_append, reduceCtorEq,
        false_implies, and_true, hshaped.stageToken_eq]
      cases hignored : tail.ignored with
      | nil =>
          refine ⟨[], ?_⟩
          rw [dotHyphen_of_not_mem List.not_mem_nil, List.append_nil,
            splitOn_lowercaseAfter_of_not_mem htoken]
      | cons separator ignored =>
          have hseparator : IsSeparator spelling.hyphenCounts separator :=
            hlongest separator (by rw [hignored]; rfl)
          rw [dotHyphen_separator hseparator, splitOn_lowercaseAfter htoken]
          exact ⟨_, rfl⟩

/-- A shaped text is read as what its parts say. -/
theorem Shaped.read_chars_eq_ok_iff (hshaped : spelling.Shaped) {input : String}
    (hinput : spelling.chars = input.toList) {version : Version} :
    Version.read input = .ok version ↔
      version.major.toNat = Numeral.value spelling.major ∧
      version.minor.toNat = Numeral.value spelling.minor ∧
      version.patch.toNat = Numeral.value spelling.patch ∧
      spelling.stage = .ok version.stage := by
  obtain ⟨ignored, hcomponents, hignored⟩ := hshaped.components_chars
  have hstage : stageOf ((spelling.tail.map spelling.stageToken).toList ++ ignored) =
      spelling.stage := by
    rw [stage]
    cases htail : spelling.tail with
    | none =>
        rw [hignored htail]
        rfl
    | some tail => rfl
  rw [read_eq_ok_iff, ← hinput, hcomponents, ofComponents_eq_ok_iff]
  constructor
  · rintro ⟨major, minor, patch, rest, hparts, hmajor, hminor, hpatch, hrest⟩
    simp only [List.cons.injEq] at hparts
    obtain ⟨rfl, rfl, rfl, rfl⟩ := hparts
    rw [hstage] at hrest
    exact ⟨(number_eq_ok_iff.mp hmajor).2, (number_eq_ok_iff.mp hminor).2,
      (number_eq_ok_iff.mp hpatch).2, hrest⟩
  · rintro ⟨hmajor, hminor, hpatch, hrest⟩
    exact ⟨_, _, _, _, rfl, number_eq_ok_iff.mpr ⟨hshaped.major, hmajor⟩,
      number_eq_ok_iff.mpr ⟨hshaped.minor, hminor⟩,
      number_eq_ok_iff.mpr ⟨hshaped.patch, hpatch⟩, hstage.trans hrest⟩

/-- Numerals with dots between them have the shape with any tail whose token is as long as it can
be.  A hyphen may stand in the token once the tail begins with one. -/
theorem shaped_of_dots (hmark : IsMark spelling.mark)
    (hmajor : Numeral.isNumeral spelling.major = true) (hfirst : spelling.first = '.')
    (hminor : Numeral.isNumeral spelling.minor = true) (hsecond : spelling.second = '.')
    (hpatch : Numeral.isNumeral spelling.patch = true)
    (hseparator : ∀ tail ∈ spelling.tail, tail.separator = '.' ∨ tail.separator = '-')
    (htoken : ∀ tail ∈ spelling.tail, ∀ c ∈ tail.token, ¬IsSeparator (tail.separator != '-') c)
    (hlongest : ∀ tail ∈ spelling.tail, ∀ c ∈ tail.ignored.head?,
      IsSeparator (tail.separator != '-') c) : spelling.Shaped := by
  have hcounts : ∀ tail ∈ spelling.tail, spelling.hyphenCounts = (tail.separator != '-') := by
    intro tail htail
    rw [Option.mem_def] at htail
    simp [hyphenCounts, separators, hfirst, hsecond, htail]
  refine
    { isMark := hmark, major := hmajor, minor := hminor, patch := hpatch
      dot_or_hyphen := ?_, one_hyphen := ?_, token := ?_, longest := ?_ }
  · cases htail : spelling.tail with
    | none => simp [separators, hfirst, hsecond, htail]
    | some tail => simpa [separators, hfirst, hsecond, htail] using hseparator tail htail
  · cases htail : spelling.tail with
    | none => simp [separators, hfirst, hsecond, htail]
    | some tail =>
        rcases hseparator tail htail with hdot | hhyphen
        · simp [separators, hfirst, hsecond, htail, hdot]
        · simp [separators, hfirst, hsecond, htail, hhyphen]
  · intro tail htail c hc
    rw [hcounts tail htail]
    exact htoken tail htail c hc
  · intro tail htail c hc
    rw [hcounts tail htail]
    exact hlongest tail htail c hc

/-! ## Every text that is read has the shape -/

/-- Separators that count where they stand are dots and at most one hyphen. -/
theorem count_hyphen_le_one {first second : Char} (rest : Option Char)
    (hfirst : IsSeparator true first) (hsecond : IsSeparator (true && first != '-') second)
    (hrest : ∀ c ∈ rest, IsSeparator ((true && first != '-') && second != '-') c) :
    (∀ c ∈ first :: second :: rest.toList, c = '.' ∨ c = '-') ∧
      (first :: second :: rest.toList).count '-' ≤ 1 := by
  rcases hfirst with rfl | ⟨rfl, -⟩ <;> rcases hsecond with rfl | ⟨rfl, hsecond⟩ <;>
    cases rest with
    | none => simp_all
    | some third =>
        rcases hrest third rfl with rfl | ⟨rfl, hthird⟩ <;> simp_all

/-- The tail whose token is the longest stretch of a text without a separator that counts. -/
def Tail.ofText (counts : Bool) (separator : Char) (text : List Char) : Tail where
  separator := separator
  token := text.takeWhile fun c => !decide (IsSeparator counts c)
  ignored := text.dropWhile fun c => !decide (IsSeparator counts c)

theorem Tail.token_ofText {counts : Bool} {separator c : Char} {text : List Char}
    (hc : c ∈ (ofText counts separator text).token) : ¬IsSeparator counts c := by
  simpa using List.mem_takeWhile_imp hc

theorem Tail.ignored_ofText {counts : Bool} {separator c : Char} {text : List Char}
    (hc : c ∈ (ofText counts separator text).ignored.head?) : IsSeparator counts c := by
  have hhead := List.head?_dropWhile_not (fun c => !decide (IsSeparator counts c)) text
  rw [ofText, Option.mem_def] at hc
  rw [hc] at hhead
  simpa using hhead

theorem exists_spelling_of_read {input : String} {version : Version}
    (hread : Version.read input = .ok version) :
    ∃ spelling : Spelling, spelling.chars = input.toList ∧ spelling.Shaped := by
  rw [read_eq_ok_iff, ofComponents_eq_ok_iff] at hread
  obtain ⟨major, minor, patch, others, hcomponents, hmajor, hminor, hpatch, -⟩ := hread
  replace hmajor := (number_eq_ok_iff.mp hmajor).1
  replace hminor := (number_eq_ok_iff.mp hminor).1
  replace hpatch := (number_eq_ok_iff.mp hpatch).1
  obtain ⟨mark, first, rest, hmark, hinput, hfirst, hrest⟩ :=
    exists_of_components_eq_cons hcomponents (List.cons_ne_nil _ _) hmajor
  obtain ⟨-, hothers⟩ | ⟨second, rest', rfl, hsecond, hrest'⟩ :=
    exists_of_splitOn_eq_cons hrest hminor
  · exact absurd hothers (List.cons_ne_nil _ _)
  obtain ⟨hlast, -⟩ | ⟨third, rest'', rfl, hthird, -⟩ := exists_of_splitOn_eq_cons hrest' hpatch
  · obtain ⟨hdots, hone⟩ := count_hyphen_le_one none hfirst hsecond (by simp)
    refine ⟨⟨mark, major, first, minor, second, patch, none⟩, ?_, ?_⟩
    · simp [chars, hinput, hlast]
    · exact
        { isMark := hmark, major := hmajor, minor := hminor, patch := hpatch
          dot_or_hyphen := hdots, one_hyphen := hone
          token := by simp, longest := by simp }
  · obtain ⟨hdots, hone⟩ :=
      count_hyphen_le_one (some third) hfirst hsecond (by simpa using hthird)
    let counts := [first, second, third].all (· != '-')
    refine ⟨⟨mark, major, first, minor, second, patch, some (.ofText counts third rest'')⟩, ?_, ?_⟩
    · simp [chars, Tail.ofText, hinput]
    · refine
        { isMark := hmark, major := hmajor, minor := hminor, patch := hpatch
          dot_or_hyphen := hdots, one_hyphen := hone
          token := ?_, longest := ?_ }
      · intro tail htail c hc
        rw [Option.mem_some_iff] at htail
        subst htail
        exact Tail.token_ofText hc
      · intro tail htail c hc
        rw [Option.mem_some_iff] at htail
        subst htail
        exact Tail.ignored_ofText hc

/-! ## The range of the numbers -/

/-- Whether a token overflows does not depend on where it is converted. -/
theorem Shaped.ofToken_stageToken (hshaped : spelling.Shaped) (tail : Tail) :
    (∃ stage, Stage.ofToken (spelling.stageToken tail) = .ok stage) ↔ ¬tail.Overflows := by
  have hplace := hshaped.stageToken_eq tail
  rw [← not_iff_not, not_not]
  constructor
  · intro hnone
    cases hresult : Stage.ofToken (spelling.stageToken tail) with
    | ok stage => exact absurd ⟨stage, hresult⟩ hnone
    | error reason =>
        obtain ⟨letters, digits, hrun, htoken, hlarge, -⟩ :=
          Stage.ofToken_eq_error_iff.mp hresult
        refine ⟨letters, digits, hrun, ?_, hlarge⟩
        rw [← htoken, hplace, lowercase, ← lowercasePart_nil]
        apply lowercasePart_eq_of_ascii
        rw [← hplace, htoken]
        exact hrun.ascii
  · rintro ⟨letters, digits, hrun, htoken, hlarge⟩ ⟨stage, hstage⟩
    have hsame : spelling.stageToken tail = letters ++ digits := by
      rw [hplace, ← htoken, lowercase, ← lowercasePart_nil]
      apply lowercasePart_eq_of_ascii
      rw [lowercasePart_nil, ← lowercase, htoken]
      exact hrun.ascii
    have herror : Stage.ofToken (spelling.stageToken tail) =
        .error (.iterationOutOfRange (String.ofList digits)) :=
      Stage.ofToken_eq_error_iff.mpr ⟨letters, digits, hrun, hsame, hlarge, rfl⟩
    rw [herror] at hstage
    contradiction

theorem Shaped.exists_stage_iff (hshaped : spelling.Shaped) :
    (∃ stage, spelling.stage = .ok stage) ↔ ∀ tail ∈ spelling.tail, ¬tail.Overflows := by
  rw [stage]
  cases htail : spelling.tail with
  | none => simp
  | some tail =>
      simp only [Option.mem_some_iff, forall_eq']
      exact hshaped.ofToken_stageToken tail

/-- Of the shaped texts those are read whose numbers are not too large. -/
theorem Shaped.exists_read_iff_inRange (hshaped : spelling.Shaped) {input : String}
    (hinput : spelling.chars = input.toList) :
    (∃ version, Version.read input = .ok version) ↔ spelling.InRange := by
  constructor
  · rintro ⟨version, hread⟩
    obtain ⟨hmajor, hminor, hpatch, hstage⟩ :=
      (hshaped.read_chars_eq_ok_iff hinput).mp hread
    have hsize : ∀ n : UInt32, n.toNat ≤ 0xFFFFFFFF := fun n => Nat.le_of_lt_succ n.toNat_lt_size
    exact
      { major := hmajor ▸ hsize version.major
        minor := hminor ▸ hsize version.minor
        patch := hpatch ▸ hsize version.patch
        iteration := hshaped.exists_stage_iff.mp ⟨version.stage, hstage⟩ }
  · intro hrange
    obtain ⟨stage, hstage⟩ := hshaped.exists_stage_iff.mpr hrange.iteration
    refine ⟨⟨.ofNat (Numeral.value spelling.major), .ofNat (Numeral.value spelling.minor),
      .ofNat (Numeral.value spelling.patch), stage⟩, ?_⟩
    rw [hshaped.read_chars_eq_ok_iff hinput]
    exact ⟨UInt32.toNat_ofNat_of_lt' (Nat.lt_succ_of_le hrange.major),
      UInt32.toNat_ofNat_of_lt' (Nat.lt_succ_of_le hrange.minor),
      UInt32.toNat_ofNat_of_lt' (Nat.lt_succ_of_le hrange.patch), hstage⟩

end Spelling

/-! ## What is read -/

/-- A text is read exactly when it is a spelling with numbers in range.  Its numbers are then those
of the numerals, it is a formal release exactly without a tail, and with a tail its stage is that
of the fourth component, which is the token converted to lower case in its place. -/
theorem read_iff_spelling (input : String) :
    ((∃ version, Version.read input = .ok version) ↔
      ∃ spelling : Spelling, spelling.chars = input.toList ∧ spelling.Shaped ∧
        spelling.InRange) ∧
    ∀ (spelling : Spelling) (version : Version), spelling.chars = input.toList →
      spelling.Shaped → Version.read input = .ok version →
        version.major.toNat = Numeral.value spelling.major ∧
        version.minor.toNat = Numeral.value spelling.minor ∧
        version.patch.toNat = Numeral.value spelling.patch ∧
        (version.stage = .formal ↔ spelling.tail = none) ∧
        (version.stage.channel = .release ↔ spelling.tail = none) ∧
        ∀ tail ∈ spelling.tail,
          (components input.toList)[3]? = some (spelling.stageToken tail) ∧
          Stage.ofToken (spelling.stageToken tail) = .ok version.stage := by
  constructor
  · constructor
    · rintro ⟨version, hread⟩
      obtain ⟨spelling, hchars, hshaped⟩ := Spelling.exists_spelling_of_read hread
      exact ⟨spelling, hchars, hshaped,
        (hshaped.exists_read_iff_inRange hchars).mp ⟨version, hread⟩⟩
    · rintro ⟨spelling, hchars, hshaped, hrange⟩
      exact (hshaped.exists_read_iff_inRange hchars).mpr hrange
  · intro spelling version hchars hshaped hread
    obtain ⟨hmajor, hminor, hpatch, hstage⟩ := (hshaped.read_chars_eq_ok_iff hchars).mp hread
    refine ⟨hmajor, hminor, hpatch, ?_⟩
    rw [Spelling.stage] at hstage
    cases htail : spelling.tail with
    | none =>
        rw [htail, Except.ok.injEq] at hstage
        simp [← hstage, Stage.formal]
    | some tail =>
        rw [htail] at hstage
        have hchannel : version.stage.channel ≠ .release :=
          Stage.channel_ne_release_of_ofToken hstage
        have hformal : version.stage ≠ .formal :=
          fun hformal => hchannel (congrArg Stage.channel hformal)
        obtain ⟨ignored, hcomponents, -⟩ := hshaped.components_chars
        rw [htail, hchars] at hcomponents
        simp [hchannel, hformal, hstage, hcomponents]

/-- A mark, a leading zero, an early hyphen, capitals and text that is ignored. -/
theorem read_marked_candidate :
    Version.read "V01-2.3.RC07.x" = .ok ⟨1, 2, 3, ⟨.releaseCandidate, 7⟩⟩ ∧
      ∃ spelling : Spelling, spelling.chars = "V01-2.3.RC07.x".toList ∧ spelling.Shaped ∧
        Numeral.value spelling.major = 1 ∧ spelling.tail ≠ none := by
  have hread : Version.read "V01-2.3.RC07.x" = .ok ⟨1, 2, 3, ⟨.releaseCandidate, 7⟩⟩ := rfl
  let spelling : Spelling :=
    { mark := ['V'], major := ['0', '1'], first := '-', minor := ['2'], second := '.'
      patch := ['3'], tail := some ⟨'.', ['R', 'C', '0', '7'], ['.', 'x']⟩ }
  have hchars : spelling.chars = "V01-2.3.RC07.x".toList := rfl
  have hshaped : spelling.Shaped :=
    { isMark := Or.inr (Or.inr rfl), major := rfl, minor := rfl, patch := rfl
      dot_or_hyphen := by simp [Spelling.separators, spelling]
      one_hyphen := by decide
      token := by simp [IsSeparator, Spelling.hyphenCounts, Spelling.separators, spelling]
      longest := by simp [IsSeparator, spelling] }
  obtain ⟨-, hparts⟩ := read_iff_spelling "V01-2.3.RC07.x"
  obtain ⟨hmajor, -, -, hformal, -⟩ := hparts spelling _ hchars hshaped hread
  exact ⟨hread, spelling, hchars, hshaped, hmajor.symm, mt hformal.mpr (by decide)⟩

end Freshness
