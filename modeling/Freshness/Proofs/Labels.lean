import Freshness.Proofs.Given
import Freshness.Proofs.Grammar

/-!
# Labels

A label is a version in its usual spelling: three numbers with dots between them and, behind a dot
or a hyphen, a word with a number or without one.  Whatever letter case, leading zeros and
separator a label has, it compares as the five integers that it shows.  They are stated on the
label alone and proved to be those of the version that is read (`precedence_version`).
-/

namespace Freshness

open Text Unicode Version

structure BoundedNumeral (bound : Nat) where
  digits : List Char
  isNumeral : Numeral.isNumeral digits = true
  value_le : Numeral.value digits ≤ bound

def BoundedNumeral.value {bound : Nat} (number : BoundedNumeral bound) : Nat :=
  Numeral.value number.digits

/-- What stands behind the three numbers of a prerelease: a word in any letter case and perhaps a
number of at most 63 bits. -/
structure Label.Suffix where
  separator : Char
  letters : List Char
  number : Option (BoundedNumeral 0x7FFFFFFFFFFFFFFF)
  dot_or_hyphen : separator = '.' ∨ separator = '-'
  letters_ne_nil : letters ≠ []
  isAlpha : ∀ c ∈ letters, c.isAlpha = true

/-- A version in its usual spelling. -/
structure Label where
  mark : List Char
  major : BoundedNumeral 0xFFFFFFFF
  minor : BoundedNumeral 0xFFFFFFFF
  patch : BoundedNumeral 0xFFFFFFFF
  suffix : Option Label.Suffix
  isMark : IsMark mark

namespace Label

/-! ## What a label shows -/

def Suffix.token (suffix : Suffix) : List Char :=
  suffix.letters ++ suffix.number.elim [] BoundedNumeral.digits

def text (label : Label) : String :=
  String.ofList <|
    label.mark ++ label.major.digits ++ '.' :: label.minor.digits ++ '.' :: label.patch.digits ++
      match label.suffix with
      | none => []
      | some suffix => suffix.separator :: suffix.token

/-- The word of a suffix in lower case. -/
def Suffix.word (suffix : Suffix) : String :=
  String.ofList (suffix.letters.map Char.toLower)

/-- The place of a word among the four known ones; any other word comes after a release. -/
def Suffix.rank (suffix : Suffix) : Int :=
  if suffix.word = "dev" then 0
  else if suffix.word = "alpha" then 1
  else if suffix.word = "beta" then 2
  else if suffix.word = "rc" then 3
  else 5

/-- The number of a suffix; a word without one comes before all numbered ones. -/
def Suffix.iteration (suffix : Suffix) : Int :=
  match suffix.number with
  | none => -1
  | some number => number.value

/-- The five integers that a label shows.  Without a suffix it is a release, of rank 4. -/
def precedence (label : Label) : List Int :=
  [label.major.value, label.minor.value, label.patch.value,
    label.suffix.elim 4 Suffix.rank, label.suffix.elim 0 Suffix.iteration]

/-! ## What is read from a label -/

def Suffix.stage (suffix : Suffix) : Stage where
  channel := .ofTag suffix.word
  iteration :=
    match suffix.number with
    | none => Stage.noIteration
    | some number => .ofNat number.value

def version (label : Label) : Version where
  major := .ofNat label.major.value
  minor := .ofNat label.minor.value
  patch := .ofNat label.patch.value
  stage := label.suffix.elim .formal Suffix.stage

/-- A label is a spelling in which nothing is ignored. -/
def spelling (label : Label) : Spelling where
  mark := label.mark
  major := label.major.digits
  first := '.'
  minor := label.minor.digits
  second := '.'
  patch := label.patch.digits
  tail := label.suffix.map fun suffix => ⟨suffix.separator, suffix.token, []⟩

theorem chars_spelling (label : Label) : label.spelling.chars = label.text.toList := by
  rw [text, String.toList_ofList, Spelling.chars, spelling]
  cases label.suffix with
  | none => rfl
  | some suffix => simp

theorem Suffix.isAlpha_or_isDigit {suffix : Suffix} {c : Char} (hc : c ∈ suffix.token) :
    c.isAlpha = true ∨ c.isDigit = true := by
  rw [token, List.mem_append] at hc
  rcases hc with hletter | hdigit
  · exact Or.inl (suffix.isAlpha c hletter)
  · cases hnumber : suffix.number with
    | none => simp [hnumber] at hdigit
    | some number =>
        rw [hnumber] at hdigit
        exact Or.inr ((Numeral.isNumeral_iff.mp number.isNumeral).2 c hdigit)

theorem Suffix.ascii {suffix : Suffix} {c : Char} (hc : c ∈ suffix.token) : c.toNat < 0x80 := by
  rcases isAlpha_or_isDigit hc with halpha | hdigit
  · simp only [Char.isAlpha, Char.isUpper, Char.isLower, Bool.or_eq_true, Bool.and_eq_true,
      decide_eq_true_eq, ge_iff_le, UInt32.le_iff_toNat_le] at halpha
    change 65 ≤ c.toNat ∧ c.toNat ≤ 90 ∨ 97 ≤ c.toNat ∧ c.toNat ≤ 122 at halpha
    omega
  · exact (caseless_of_isDigit hdigit).1

theorem Suffix.not_isSeparator {suffix : Suffix} {c : Char} (hc : c ∈ suffix.token)
    (counts : Bool) : ¬IsSeparator counts c := by
  have hne := isAlpha_or_isDigit hc
  rintro (rfl | ⟨rfl, -⟩)
  · exact absurd hne (by decide)
  · exact absurd hne (by decide)

theorem exists_of_mem_tail_spelling {label : Label} {tail : Spelling.Tail}
    (htail : tail ∈ label.spelling.tail) :
    ∃ suffix ∈ label.suffix, tail = ⟨suffix.separator, suffix.token, []⟩ := by
  rw [spelling, Option.mem_def, Option.map_eq_some_iff] at htail
  obtain ⟨suffix, hsuffix, rfl⟩ := htail
  exact ⟨suffix, hsuffix, rfl⟩

/-- A label has the shape that the reader asks for. -/
theorem shaped (label : Label) : label.spelling.Shaped := by
  apply Spelling.shaped_of_dots label.isMark label.major.isNumeral rfl label.minor.isNumeral rfl
    label.patch.isNumeral
  · intro tail htail
    obtain ⟨suffix, -, rfl⟩ := exists_of_mem_tail_spelling htail
    exact suffix.dot_or_hyphen
  · intro tail htail c hc
    obtain ⟨suffix, -, rfl⟩ := exists_of_mem_tail_spelling htail
    exact suffix.not_isSeparator hc _
  · intro tail htail c hc
    obtain ⟨suffix, -, rfl⟩ := exists_of_mem_tail_spelling htail
    contradiction

/-- The letters of a suffix, converted to lower case. -/
theorem Suffix.isLower_of_mem {suffix : Suffix} {c : Char}
    (hc : c ∈ suffix.letters.map Char.toLower) : c.isLower = true := by
  obtain ⟨d, hd, rfl⟩ := List.mem_map.mp hc
  rw [Char.isLower_toLower_eq_isAlpha]
  exact suffix.isAlpha d hd

/-- The token of a suffix spells its word and its number. -/
theorem Suffix.ofToken_token (suffix : Suffix) :
    Stage.ofToken (suffix.token.map Char.toLower) = .ok suffix.stage := by
  have hne : suffix.letters.map Char.toLower ≠ [] := by simpa using suffix.letters_ne_nil
  have hlower : ∀ c ∈ suffix.letters.map Char.toLower, c.isLower = true :=
    fun _ => isLower_of_mem
  unfold token stage
  rw [List.map_append]
  cases suffix.number with
  | none =>
      have hplain : IsPlain (suffix.letters.map Char.toLower) :=
        isPlain_of_forall_not_isDigit fun c hc => not_isDigit_of_isLower (hlower c hc)
      rw [Option.elim_none, List.map_nil, List.append_nil, Stage.ofToken_of_isPlain hne hplain]
      rfl
  | some number =>
      have hrun : IsNumberedRun (suffix.letters.map Char.toLower) number.digits :=
        ⟨hne, hlower, number.isNumeral⟩
      have hlimit : Numeral.value number.digits < Stage.iterationLimit :=
        Nat.lt_succ_of_le number.value_le
      rw [Option.elim_some, map_toLower_of_isNumeral number.isNumeral, Stage.ofToken_numbered hrun,
        if_pos hlimit]
      rfl

theorem stage_spelling (label : Label) : label.spelling.stage = .ok label.version.stage := by
  rw [version]
  cases hsuffix : label.suffix with
  | none =>
      have htail : label.spelling.tail = none := by rw [spelling, hsuffix, Option.map_none]
      exact Spelling.stage_of_tail_eq_none htail
  | some suffix =>
      have htail : label.spelling.tail = some ⟨suffix.separator, suffix.token, []⟩ := by
        rw [spelling, hsuffix, Option.map_some]
      rw [label.shaped.stage_of_tail_eq_some htail,
        lowercasePart_of_ascii fun c hc => suffix.ascii hc]
      exact suffix.ofToken_token

theorem toNat_ofNat_value (number : BoundedNumeral 0xFFFFFFFF) :
    (UInt32.ofNat number.value).toNat = number.value :=
  UInt32.toNat_ofNat_of_lt' (Nat.lt_succ_of_le number.value_le)

/-- Every label is read, as the version that it shows. -/
theorem read_text (label : Label) : Version.read label.text = .ok label.version := by
  rw [label.shaped.read_chars_eq_ok_iff label.chars_spelling]
  exact ⟨toNat_ofNat_value label.major, toNat_ofNat_value label.minor,
    toNat_ofNat_value label.patch, label.stage_spelling⟩

/-! ## How labels compare -/

/-- The rank that a suffix shows is that of the channel it names. -/
theorem Suffix.rank_channel (suffix : Suffix) : suffix.stage.channel.rank = suffix.rank := by
  have hne : suffix.word ≠ "" := by
    simpa [word] using suffix.letters_ne_nil
  simp only [stage, rank, Channel.ofTag, if_neg hne]
  repeat' split
  all_goals rfl

theorem Suffix.toInt_iteration (suffix : Suffix) :
    suffix.stage.iteration.toInt = suffix.iteration := by
  unfold stage iteration
  cases suffix.number with
  | none => rfl
  | some number => exact Int64.toInt_ofNat_of_lt (Nat.lt_succ_of_le number.value_le)

/-- The integers that a label shows are those that its version is ordered by. -/
theorem precedence_version (label : Label) : label.version.precedence = label.precedence := by
  unfold Version.precedence precedence version
  simp only [toNat_ofNat_value]
  cases label.suffix with
  | none => rfl
  | some suffix =>
      simp only [Option.elim_some, suffix.rank_channel, suffix.toInt_iteration]

end Label

/-- Two labels compare as the integers that they show, number by number. -/
theorem compareWritten_label (a b : Label) :
    compareWritten a.text b.text = .ok (compare a.precedence b.precedence) ∧
      (hasReached (some a.text) (some b.text) = true ↔
        compare a.precedence b.precedence ≠ .lt) := by
  have hcompare : compare a.version b.version = compare a.precedence b.precedence := by
    calc
      compare a.version b.version = compare a.version.precedence b.version.precedence :=
        compare_eq_compare_precedence a.version b.version
      _ = compare a.precedence b.precedence := by
        rw [a.precedence_version, b.precedence_version]
  rw [← hcompare]
  constructor
  · exact compareWritten_eq_ok_iff.mpr ⟨a.version, b.version, a.read_text, b.read_text, rfl⟩
  · rw [hasReached_of_spells ⟨a.text, rfl, a.read_text⟩ ⟨b.text, rfl, b.read_text⟩, le_iff_isGE]
    exact Ordering.isGE_iff_ne_lt

/-- A numbered candidate is newer than a beta, whatever the case and the separator. -/
theorem compareWritten_candidate_beta : compareWritten "v1.02.3-RC7" "1.2.3.Beta" = .ok .gt := by
  let candidate : Label :=
    { mark := ['v']
      major := ⟨['1'], rfl, by decide⟩
      minor := ⟨['0', '2'], rfl, by decide⟩
      patch := ⟨['3'], rfl, by decide⟩
      suffix := some
        { separator := '-'
          letters := ['R', 'C']
          number := some ⟨['7'], rfl, by decide⟩
          dot_or_hyphen := by decide
          letters_ne_nil := by decide
          isAlpha := by simp }
      isMark := Or.inr (Or.inl rfl) }
  let beta : Label :=
    { mark := []
      major := ⟨['1'], rfl, by decide⟩
      minor := ⟨['2'], rfl, by decide⟩
      patch := ⟨['3'], rfl, by decide⟩
      suffix := some
        { separator := '.'
          letters := ['B', 'e', 't', 'a']
          number := none
          dot_or_hyphen := by decide
          letters_ne_nil := by decide
          isAlpha := by simp }
      isMark := Or.inl rfl }
  exact (compareWritten_label candidate beta).1

end Freshness
