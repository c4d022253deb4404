import Freshness.Proofs.Grammar

/-!
# Canonical versions

Reading and writing are inverse to each other on the canonical versions and on no others.  Which
versions these are is a matter of the stage alone: the written form has to show the channel and
the iteration, and reading it has to find them again.  A formal release has no iteration of its
own, a tag with an iteration consists of letters, and a tag without one must not be taken for a
known channel or for a numbered run.
-/

namespace Freshness

open Text Unicode Version

namespace Channel

def knownTags : List String :=
  ["dev", "alpha", "beta", "rc"]

def known : List Channel :=
  [dev, alpha, beta, releaseCandidate]

theorem isPrerelease_iff {channel : Channel} :
    channel.isPrerelease = true ↔ channel ∈ known := by
  cases channel <;> simp [isPrerelease, rank, known]

/-- A tag names the formal release, a known channel, or one that nobody recognizes and that keeps
it. -/
theorem ofTag_cases (tag : String) :
    tag = "" ∧ ofTag tag = release ∨ ofTag tag ∈ known ∨
      tag ≠ "" ∧ tag ∉ knownTags ∧ ofTag tag = unrecognized tag := by
  rw [ofTag]
  repeat' split
  all_goals simp_all [known, knownTags]

theorem ofTag_unrecognized {tag : String} (hne : tag ≠ "") (hunknown : tag ∉ knownTags) :
    ofTag tag = unrecognized tag := by
  rcases ofTag_cases tag with ⟨hempty, _⟩ | hknown | ⟨_, _, htag⟩
  · contradiction
  · simp only [knownTags, List.mem_cons, List.not_mem_nil, or_false, not_or] at hunknown
    simp [ofTag, hunknown, hne]
  · exact htag

theorem isLower_of_mem_knownTags {tag : String} (htag : tag ∈ knownTags) :
    ∀ c ∈ tag.toList, c.isLower = true := by
  simp only [knownTags, List.mem_cons, List.not_mem_nil, or_false] at htag
  rcases htag with rfl | rfl | rfl | rfl <;> simp

/-- The tag of a known channel is a word of small letters that names it. -/
theorem tag_of_known {channel : Channel} (hknown : channel ∈ known) :
    channel.tag.toList ≠ [] ∧ (∀ c ∈ channel.tag.toList, c.isLower = true) ∧
      ofTag channel.tag = channel := by
  simp only [known, List.mem_cons, List.not_mem_nil, or_false] at hknown
  rcases hknown with rfl | rfl | rfl | rfl <;> simp [tag, ofTag]

end Channel

namespace Stage

/-- The stages whose written form is read as the stage itself. -/
inductive IsCanonical : Stage → Prop
  | formal : IsCanonical ⟨.release, 0⟩
  | known {channel : Channel} {iteration : Int64} (hknown : channel ∈ Channel.known)
      (hiteration : -1 ≤ iteration.toInt) : IsCanonical ⟨channel, iteration⟩
  | named {tag : String} (hdot : '.' ∉ tag.toList) (hlower : lowercase tag.toList = tag.toList)
      (hunknown : tag ∉ Channel.knownTags) (hplain : IsPlain tag.toList) :
      IsCanonical ⟨.unrecognized tag, -1⟩
  | numbered {tag : String} {iteration : Int64} (hne : tag ≠ "")
      (hletters : ∀ c ∈ tag.toList, c.isLower = true) (hunknown : tag ∉ Channel.knownTags)
      (hiteration : 0 ≤ iteration.toInt) : IsCanonical ⟨.unrecognized tag, iteration⟩

/-! ## What is read is canonical -/

/-- Plain text that the conversion to lower case leaves alone names a channel that is read back. -/
theorem isCanonical_unnumbered {tag : List Char} (hne : tag ≠ []) (hdot : '.' ∉ tag)
    (hsettled : ∀ c ∈ tag, Settled c) (hplain : IsPlain tag) : (unnumbered tag).IsCanonical := by
  rw [unnumbered]
  rcases Channel.ofTag_cases (String.ofList tag) with ⟨hempty, _⟩ | hknown | ⟨_, hunknown, htag⟩
  · exact absurd (by simpa using hempty) hne
  · exact .known hknown (by decide)
  · rw [htag]
    refine .named ?_ ?_ hunknown ?_
    · rwa [String.toList_ofList]
    · rw [String.toList_ofList]
      exact lowercase_eq_self_iff.mpr hsettled
    · rwa [String.toList_ofList]

/-- Small letters with an iteration that is not negative are read back. -/
theorem isCanonical_numbered {letters : List Char} (hne : letters ≠ [])
    (hlower : ∀ c ∈ letters, c.isLower = true) {iteration : Int64}
    (hiteration : 0 ≤ iteration.toInt) :
    IsCanonical ⟨.ofTag (String.ofList letters), iteration⟩ := by
  rcases Channel.ofTag_cases (String.ofList letters) with
    ⟨hempty, _⟩ | hknown | ⟨hne', hunknown, htag⟩
  · exact absurd (by simpa using hempty) hne
  · exact .known hknown (by omega)
  · rw [htag]
    refine .numbered hne' ?_ hunknown hiteration
    rwa [String.toList_ofList]

/-- A token in lower case and without dots spells a canonical stage. -/
theorem isCanonical_of_ofToken {token : List Char} {stage : Stage} (hdot : '.' ∉ token)
    (hsettled : ∀ c ∈ token, Settled c) (hstage : ofToken token = .ok stage) :
    stage.IsCanonical := by
  rcases ofToken_cases token with
    rfl | ⟨letters, digits, hrun, rfl⟩ | ⟨tag, rest, hne, hplain, rfl, hok⟩
  · rw [ofToken_nil, Except.ok.injEq] at hstage
    subst hstage
    exact .named (by decide) (by decide) (by decide) List.isChain_nil
  · rw [ofToken_numbered hrun] at hstage
    split at hstage
    · next hlimit =>
        rw [Except.ok.injEq] at hstage
        subst hstage
        apply isCanonical_numbered hrun.letters_ne_nil hrun.isLower
        rw [Int64.toInt_ofNat_of_lt hlimit]
        exact Int.natCast_nonneg _
    · contradiction
  · rw [hok, Except.ok.injEq] at hstage
    subst hstage
    exact isCanonical_unnumbered hne (fun hmem => hdot (List.mem_append_left rest hmem))
      (fun c hc => hsettled c (List.mem_append_left rest hc)) hplain

/-! ## What is canonical is read again -/

/-- The token of a stage: its tag and its iteration, if there is one. -/
def token (stage : Stage) : List Char :=
  stage.channel.tag.toList ++
    if stage.iteration = noIteration then [] else Numeral.ofInt stage.iteration.toInt

/-- Letters, with an iteration behind them or none, are read as just that. -/
theorem ofToken_token_of_letters (stage : Stage) (hne : stage.channel.tag.toList ≠ [])
    (hlower : ∀ c ∈ stage.channel.tag.toList, c.isLower = true)
    (hiteration : -1 ≤ stage.iteration.toInt) :
    ofToken stage.token = .ok ⟨.ofTag stage.channel.tag, stage.iteration⟩ := by
  rw [token]
  split
  · next hnone =>
      have hplain : IsPlain stage.channel.tag.toList :=
        isPlain_of_forall_not_isDigit fun c hc => not_isDigit_of_isLower (hlower c hc)
      rw [List.append_nil, ofToken_of_isPlain hne hplain, unnumbered, String.ofList_toList, hnone]
  · next hsome =>
      have hne' : stage.iteration.toInt ≠ -1 := fun h => hsome (Int64.toInt_inj.mp h)
      obtain ⟨n, hn⟩ := Int.eq_ofNat_of_zero_le (show 0 ≤ stage.iteration.toInt by omega)
      have hlimit : n < iterationLimit := by
        have hlt := stage.iteration.toInt_lt
        rw [hn] at hlt
        exact_mod_cast hlt
      have hrun : IsNumberedRun stage.channel.tag.toList (Numeral.ofNat n) :=
        ⟨hne, hlower, Numeral.isNumeral_ofNat n⟩
      have hsame : Int64.ofNat n = stage.iteration := by
        apply Int64.toInt_inj.mp
        rw [Int64.toInt_ofNat_of_lt hlimit, hn]
      have hdigits : Numeral.ofInt stage.iteration.toInt = Numeral.ofNat n := by
        rw [hn]
        rfl
      rw [hdigits, ofToken_numbered hrun, Numeral.value_ofNat, if_pos hlimit,
        String.ofList_toList, hsame]

/-- The token of a canonical stage spells that stage. -/
theorem IsCanonical.ofToken_token {stage : Stage} (hcanonical : stage.IsCanonical)
    (hrelease : stage.channel ≠ .release) : ofToken stage.token = .ok stage := by
  cases hcanonical with
  | formal => contradiction
  | @known channel iteration hknown hiteration =>
      obtain ⟨hne, hlower, htag⟩ := Channel.tag_of_known hknown
      rw [ofToken_token_of_letters ⟨channel, iteration⟩ hne hlower hiteration, htag]
  | @named tag hdot hlower hunknown hplain =>
      have htoken : token ⟨.unrecognized tag, -1⟩ = tag.toList := List.append_nil _
      rw [htoken]
      by_cases hempty : tag = ""
      · subst hempty
        rfl
      · have hne : tag.toList ≠ [] := by simpa using hempty
        rw [ofToken_of_isPlain hne hplain, unnumbered, String.ofList_toList,
          Channel.ofTag_unrecognized hempty hunknown]
        rfl
  | @numbered tag iteration hne hletters hunknown hiteration =>
      have hread := ofToken_token_of_letters ⟨.unrecognized tag, iteration⟩
        (by simpa [Channel.tag] using hne) hletters (show -1 ≤ iteration.toInt by omega)
      rw [hread, Channel.tag, Channel.ofTag_unrecognized hne hunknown]

theorem settled_of_isLower {c : Char} (hc : c.isLower = true) : Settled c ∧ c ≠ '.' := by
  refine ⟨settled_of_ascii (ascii_of_isLower hc) (Char.not_isUpper_of_isLower hc), ?_⟩
  rintro rfl
  exact absurd hc (by decide)

theorem settled_of_mem_ofInt {n : Int} {c : Char} (hn : 0 ≤ n) (hc : c ∈ Numeral.ofInt n) :
    Settled c ∧ c ≠ '.' := by
  obtain ⟨n, rfl⟩ := Int.eq_ofNat_of_zero_le hn
  have hnumeral := Numeral.isNumeral_ofNat n
  exact ⟨(caseless_of_isNumeral hnumeral c hc).settled,
    (not_separator_of_isNumeral hnumeral c hc).1⟩

/-- The formal release is canonical only without an iteration. -/
theorem IsCanonical.eq_formal {stage : Stage} (hcanonical : stage.IsCanonical)
    (hrelease : stage.channel = .release) : stage = .formal := by
  cases hcanonical with
  | formal => rfl
  | @known channel iteration hknown =>
      rw [show channel = .release from hrelease] at hknown
      exact absurd hknown (by decide)
  | named => contradiction
  | numbered => contradiction

/-- A canonical iteration is minus one, for none, or not negative. -/
theorem IsCanonical.iteration_nonneg {stage : Stage} (hcanonical : stage.IsCanonical)
    (hsome : stage.iteration ≠ noIteration) : 0 ≤ stage.iteration.toInt := by
  have hne : stage.iteration.toInt ≠ -1 := fun h => hsome (Int64.toInt_inj.mp h)
  cases hcanonical with
  | formal => decide
  | known _ hiteration => exact lt_of_le_of_ne hiteration hne.symm
  | named => contradiction
  | numbered _ _ _ hiteration => exact hiteration

/-- A canonical tag holds neither a dot nor a letter that the conversion changes. -/
theorem IsCanonical.settled_of_mem_tag {stage : Stage} (hcanonical : stage.IsCanonical)
    {c : Char} (hc : c ∈ stage.channel.tag.toList) : Settled c ∧ c ≠ '.' := by
  cases hcanonical with
  | formal => simp [Channel.tag] at hc
  | known hknown => exact settled_of_isLower ((Channel.tag_of_known hknown).2.1 c hc)
  | named hdot hlower =>
      refine ⟨lowercase_eq_self_iff.mp hlower c hc, ?_⟩
      rintro rfl
      exact hdot hc
  | numbered _ hletters => exact settled_of_isLower (hletters c hc)

/-- The token of a canonical stage is in lower case and has no dots. -/
theorem IsCanonical.settled_of_mem_token {stage : Stage} (hcanonical : stage.IsCanonical)
    {c : Char} (hc : c ∈ stage.token) : Settled c ∧ c ≠ '.' := by
  rw [token, List.mem_append] at hc
  rcases hc with htag | hnumber
  · exact hcanonical.settled_of_mem_tag htag
  · split at hnumber
    · contradiction
    · next hsome => exact settled_of_mem_ofInt (hcanonical.iteration_nonneg hsome) hnumber

end Stage

namespace Version

/-- The versions whose written form is read as the version itself. -/
def IsCanonical (version : Version) : Prop :=
  version.stage.IsCanonical

/-- Every version that is read is canonical. -/
theorem isCanonical_of_read {input : String} {version : Version}
    (hread : read input = .ok version) : version.IsCanonical := by
  obtain ⟨spelling, hchars, hshaped⟩ := Spelling.exists_spelling_of_read hread
  obtain ⟨-, -, -, hstage⟩ := (hshaped.read_chars_eq_ok_iff hchars).mp hread
  rw [Spelling.stage] at hstage
  cases htail : spelling.tail with
  | none =>
      rw [htail, Except.ok.injEq] at hstage
      rw [IsCanonical, ← hstage]
      exact .formal
  | some tail =>
      rw [htail] at hstage
      refine Stage.isCanonical_of_ofToken ?_ ?_ hstage
      · rw [hshaped.stageToken_eq]
        apply dot_not_mem_lowercasePart
        exact fun hmem => hshaped.token tail htail _ hmem (Or.inl rfl)
      · rw [hshaped.stageToken_eq]
        exact fun c hc => settled_of_mem_lowercasePart hc

/-- How a version is written. -/
def spelling (version : Version) : Spelling where
  mark := []
  major := Numeral.ofNat version.major.toNat
  first := '.'
  minor := Numeral.ofNat version.minor.toNat
  second := '.'
  patch := Numeral.ofNat version.patch.toNat
  tail := if version.stage.channel = .release then none else some ⟨'-', version.stage.token, []⟩

theorem spelling_chars (version : Version) : version.spelling.chars = version.text.toList := by
  rw [text, String.toList_ofList, chars, Stage.suffix, Spelling.chars, spelling]
  by_cases hrelease : version.stage.channel = .release
  · simp [hrelease]
  · simp [hrelease, Stage.token]

theorem tail_spelling {version : Version} (hrelease : version.stage.channel ≠ .release) :
    version.spelling.tail = some ⟨'-', version.stage.token, []⟩ :=
  if_neg hrelease

theorem eq_of_mem_tail_spelling {version : Version} {tail : Spelling.Tail}
    (htail : tail ∈ version.spelling.tail) : tail = ⟨'-', version.stage.token, []⟩ := by
  rw [spelling, Option.mem_def] at htail
  split at htail
  · contradiction
  · exact (Option.some.inj htail).symm

/-- What is written for a canonical version has the shape that the reader asks for. -/
theorem IsCanonical.shaped {version : Version} (hcanonical : version.IsCanonical) :
    version.spelling.Shaped := by
  apply Spelling.shaped_of_dots (Or.inl rfl) (Numeral.isNumeral_ofNat _) rfl
    (Numeral.isNumeral_ofNat _) rfl (Numeral.isNumeral_ofNat _)
  · intro tail htail
    rw [eq_of_mem_tail_spelling htail]
    exact Or.inr rfl
  · intro tail htail c hc
    rw [eq_of_mem_tail_spelling htail] at hc ⊢
    simp [IsSeparator, (hcanonical.settled_of_mem_token hc).2]
  · intro tail htail c hc
    rw [eq_of_mem_tail_spelling htail] at hc
    contradiction

theorem IsCanonical.stage_spelling {version : Version} (hcanonical : version.IsCanonical) :
    version.spelling.stage = .ok version.stage := by
  by_cases hrelease : version.stage.channel = .release
  · have htail : version.spelling.tail = none := if_pos hrelease
    rw [Spelling.stage_of_tail_eq_none htail,
      Stage.IsCanonical.eq_formal hcanonical hrelease]
  · rw [hcanonical.shaped.stage_of_tail_eq_some (tail_spelling hrelease),
      lowercasePart_of_settled fun c hc => (hcanonical.settled_of_mem_token hc).1]
    exact Stage.IsCanonical.ofToken_token hcanonical hrelease

/-- A canonical version is found again in its written form. -/
theorem IsCanonical.read_text {version : Version} (hcanonical : version.IsCanonical) :
    read version.text = .ok version := by
  rw [hcanonical.shaped.read_chars_eq_ok_iff version.spelling_chars]
  exact ⟨(Numeral.value_ofNat _).symm, (Numeral.value_ofNat _).symm,
    (Numeral.value_ofNat _).symm, hcanonical.stage_spelling⟩

theorem read_text_formal {major minor patch : UInt32} :
    read (text ⟨major, minor, patch, .formal⟩) = .ok ⟨major, minor, patch, .formal⟩ :=
  IsCanonical.read_text Stage.IsCanonical.formal

end Version

/-- Everything that is read is canonical, and a version is read from its written form as it is
exactly when it is canonical. -/
theorem read_text_iff_isCanonical :
    (∀ (input : String) (version : Version), Version.read input = .ok version →
      version.IsCanonical) ∧
    ∀ version : Version, Version.read version.text = .ok version ↔ version.IsCanonical :=
  ⟨fun _ _ => Version.isCanonical_of_read,
    fun _ => ⟨Version.isCanonical_of_read, Version.IsCanonical.read_text⟩⟩

/-- A candidate that is read is canonical, and a formal release with an iteration is not, since it
is written without one. -/
theorem isCanonical_candidate_not_numbered_release :
    Version.read "v1.2.3-RC7" = .ok ⟨1, 2, 3, ⟨.releaseCandidate, 7⟩⟩ ∧
      Version.IsCanonical ⟨1, 2, 3, ⟨.releaseCandidate, 7⟩⟩ ∧
      ¬Version.IsCanonical ⟨1, 2, 3, ⟨.release, 5⟩⟩ := by
  obtain ⟨hcanonical, hiff⟩ := read_text_iff_isCanonical
  have hread : Version.read "v1.2.3-RC7" = .ok ⟨1, 2, 3, ⟨.releaseCandidate, 7⟩⟩ := rfl
  refine ⟨hread, hcanonical _ _ hread, ?_⟩
  rw [← hiff]
  decide

end Freshness
