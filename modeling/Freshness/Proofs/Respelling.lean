import Freshness.Proofs.Canonical
import Freshness.Proofs.Given

/-!
# Spellings that are interchangeable

A mark may be put in front of a version that has none, and the hyphen of a version may be exchanged
for a dot, as long as the same hyphen is the first one on both sides.  A hyphen that is left over
shows where this ends: behind a dot the first hyphen cuts the token off, and behind a hyphen the
second one stays in the token, which then names no known channel.
-/

namespace Freshness

open Text Unicode Version

/-! ## Marks -/

def BeginsWithMark (text : String) : Prop :=
  text.toList.head? = some 'v' ∨ text.toList.head? = some 'V'

namespace Spelling

variable {spelling : Spelling} {mark : List Char}

/-- The spelling with another mark or none. -/
def withMark (spelling : Spelling) (mark : List Char) : Spelling :=
  { spelling with mark := mark }

theorem chars_eq_mark_append (spelling : Spelling) :
    spelling.chars = spelling.mark ++ (spelling.withMark []).chars := by
  simp [chars, withMark]

theorem chars_withMark (spelling : Spelling) (mark : List Char) :
    (spelling.withMark mark).chars = mark ++ (spelling.withMark []).chars :=
  (spelling.withMark mark).chars_eq_mark_append

theorem Shaped.withMark (hshaped : spelling.Shaped) (hmark : IsMark mark) :
    (spelling.withMark mark).Shaped where
  isMark := hmark
  major := hshaped.major
  minor := hshaped.minor
  patch := hshaped.patch
  dot_or_hyphen := hshaped.dot_or_hyphen
  one_hyphen := hshaped.one_hyphen
  token := hshaped.token
  longest := hshaped.longest

theorem Shaped.stage_withMark (hshaped : spelling.Shaped) (hmark : IsMark mark) :
    (spelling.withMark mark).stage = spelling.stage := by
  cases htail : spelling.tail with
  | none =>
      rw [stage_of_tail_eq_none htail]
      exact stage_of_tail_eq_none htail
  | some tail =>
      rw [hshaped.stage_of_tail_eq_some htail]
      exact (hshaped.withMark hmark).stage_of_tail_eq_some htail

/-- The mark is not read. -/
theorem Shaped.read_withMark_iff (hshaped : spelling.Shaped) (hmark : IsMark mark)
    {input marked : String} (hinput : spelling.chars = input.toList)
    (hmarked : (spelling.withMark mark).chars = marked.toList) {version : Version} :
    Version.read marked = .ok version ↔ Version.read input = .ok version := by
  rw [hshaped.read_chars_eq_ok_iff hinput,
    (hshaped.withMark hmark).read_chars_eq_ok_iff hmarked, hshaped.stage_withMark hmark]
  exact Iff.rfl

/-- Behind the mark a digit comes first. -/
theorem Shaped.isDigit_of_mem_head? (hshaped : spelling.Shaped) {c : Char}
    (hc : c ∈ (spelling.withMark []).chars.head?) : c.isDigit = true := by
  obtain ⟨hne, hdigits⟩ := Numeral.isNumeral_iff.mp hshaped.major
  obtain ⟨d, major, hmajor⟩ := List.exists_cons_of_ne_nil hne
  have hhead : (spelling.withMark []).chars.head? = some d := by
    simp [chars, Spelling.withMark, hmajor]
  rw [hhead, Option.mem_some_iff] at hc
  subst hc
  exact hdigits d (by rw [hmajor]; exact List.mem_cons_self)

/-- A digit is no mark, so what begins a text is the mark of its spelling. -/
theorem Shaped.beginsWithMark_iff (hshaped : spelling.Shaped) {input : String}
    (hinput : spelling.chars = input.toList) : BeginsWithMark input ↔ spelling.mark ≠ [] := by
  rw [BeginsWithMark, ← hinput, spelling.chars_eq_mark_append]
  rcases hshaped.isMark with hmark | hmark | hmark
  · have hdigit := fun c => @Shaped.isDigit_of_mem_head? spelling hshaped c
    rw [hmark, List.nil_append]
    constructor
    · rintro (hbegins | hbegins)
      · exact absurd (hdigit 'v' hbegins) (by decide)
      · exact absurd (hdigit 'V' hbegins) (by decide)
    · exact fun hne => absurd rfl hne
  · simp [hmark]
  · simp [hmark]

end Spelling

/-- A text with a mark put in front is read exactly when it has none yet, and then as before. -/
theorem read_marked_iff {mark : Char} (hmark : mark = 'v' ∨ mark = 'V') {input marked : String}
    (hmarked : marked.toList = mark :: input.toList) {version : Version} :
    Version.read marked = .ok version ↔
      ¬BeginsWithMark input ∧ Version.read input = .ok version := by
  have hbegins : BeginsWithMark marked := by
    rw [BeginsWithMark, hmarked, List.head?_cons, Option.some.injEq, Option.some.injEq]
    exact hmark
  have hismark : IsMark [mark] := by
    rcases hmark with rfl | rfl
    · exact Or.inr (Or.inl rfl)
    · exact Or.inr (Or.inr rfl)
  constructor
  · intro hread
    obtain ⟨spelling, hchars, hshaped⟩ := Spelling.exists_spelling_of_read hread
    have hunmarked := hshaped.withMark (Or.inl rfl)
    have hne := (hshaped.beginsWithMark_iff hchars).mp hbegins
    obtain ⟨c, hc⟩ : ∃ c, spelling.mark = [c] := by
      rcases hshaped.isMark with hnone | hone | hone
      · exact absurd hnone hne
      · exact ⟨'v', hone⟩
      · exact ⟨'V', hone⟩
    have hinput : (spelling.withMark []).chars = input.toList := by
      rw [spelling.chars_eq_mark_append, hc, hmarked] at hchars
      exact (List.cons.inj hchars).2
    refine ⟨?_, (hshaped.read_withMark_iff (Or.inl rfl) hchars hinput).mpr hread⟩
    rw [hunmarked.beginsWithMark_iff hinput]
    exact fun hne => hne rfl
  · rintro ⟨hnone, hread⟩
    obtain ⟨spelling, hchars, hshaped⟩ := Spelling.exists_spelling_of_read hread
    have hempty : spelling.mark = [] := by
      rwa [hshaped.beginsWithMark_iff hchars, not_not] at hnone
    have hmarked' : (spelling.withMark [mark]).chars = marked.toList := by
      rw [spelling.chars_withMark, hmarked, ← hchars, spelling.chars_eq_mark_append, hempty]
      rfl
    exact (hshaped.read_withMark_iff hismark hchars hmarked').mpr hread

/-! ## Separators -/

theorem dotFirstHyphen_hyphen {before : List Char} (hbefore : '-' ∉ before) (after : List Char) :
    dotFirstHyphen (before ++ '-' :: after) = before ++ '.' :: after := by
  rw [dotFirstHyphen_append hbefore]
  rfl

theorem readAlike_of_dotFirstHyphen_eq {a b : String}
    (hsame : dotFirstHyphen a.toList = dotFirstHyphen b.toList) : ReadAlike a b := by
  apply readAlike_of_components_eq
  rw [components, components, hsame]

/-- The one hyphen of a text may be exchanged for a dot. -/
theorem readAlike_hyphen_dot {before after : String} (hbefore : '-' ∉ before.toList)
    (hafter : '-' ∉ after.toList) :
    ReadAlike (before ++ "-" ++ after) (before ++ "." ++ after) := by
  have hnone : '-' ∉ before.toList ++ '.' :: after.toList := by
    simp [hbefore, hafter]
  have hdotted := dotFirstHyphen_of_not_mem hnone
  apply readAlike_of_dotFirstHyphen_eq
  simp only [String.toList_append, List.append_assoc]
  exact (dotFirstHyphen_hyphen hbefore after.toList).trans hdotted.symm

/-- The first hyphen of a text may change places with a dot. -/
theorem readAlike_dot_hyphen {before between after : String} (hbefore : '-' ∉ before.toList)
    (hbetween : '-' ∉ between.toList) :
    ReadAlike (before ++ "." ++ between ++ "-" ++ after)
      (before ++ "-" ++ between ++ "." ++ after) := by
  have hnone : '-' ∉ before.toList ++ '.' :: between.toList := by
    simp [hbefore, hbetween]
  have hlate := dotFirstHyphen_hyphen hnone after.toList
  have hearly := dotFirstHyphen_hyphen hbefore (between.toList ++ '.' :: after.toList)
  apply readAlike_of_dotFirstHyphen_eq
  simp only [String.toList_append, List.append_assoc] at hlate hearly ⊢
  exact hlate.trans hearly.symm

/-! ## A second hyphen -/

/-- The segment that ends with letters and a hyphen begins with them. -/
theorem Text.segments_append_hyphen {letters : List Char}
    (hletters : ∀ c ∈ letters, c.isDigit = false) (rest : List Char) :
    ∃ more others, segments (letters ++ '-' :: rest) =
      .plain (letters ++ '-' :: more) :: others := by
  induction letters with
  | nil =>
      obtain ⟨more, others, hsegments, -⟩ :=
        exists_segments_append (List.cons_ne_nil '-' []) (by simp) rest
      exact ⟨more, others, hsegments⟩
  | cons c letters ih =>
      rw [List.forall_mem_cons] at hletters
      obtain ⟨more, others, hsegments⟩ := ih hletters.2
      have hhead : (letters ++ '-' :: more).head?.any Char.isDigit = false := by
        cases letters with
        | nil => rfl
        | cons d letters => simpa using hletters.2 d List.mem_cons_self
      refine ⟨more, others, ?_⟩
      rw [List.cons_append, segments_cons, hsegments, Segment.cons, hhead, Bool.and_false,
        if_neg Bool.false_ne_true, List.cons_append]

/-- A token of letters and a hyphen spells a channel that nobody recognizes, whatever follows. -/
theorem Stage.ofToken_append_hyphen {letters : List Char}
    (hletters : ∀ c ∈ letters, c.isDigit = false) (rest : List Char) :
    ∃ more, ofToken (letters ++ '-' :: rest) =
        .ok ⟨.unrecognized (String.ofList (letters ++ '-' :: more)), noIteration⟩ ∧
      (pieces (letters ++ '-' :: rest)).head? = some (letters ++ '-' :: more) := by
  obtain ⟨more, others, hsegments⟩ := segments_append_hyphen hletters rest
  have hhyphen : '-' ∈ (String.ofList (letters ++ '-' :: more)).toList := by simp
  have hchannel : Channel.ofTag (String.ofList (letters ++ '-' :: more)) =
      .unrecognized (String.ofList (letters ++ '-' :: more)) := by
    apply Channel.ofTag_unrecognized
    · intro hempty
      rw [hempty] at hhyphen
      contradiction
    · exact fun hknown => absurd (Channel.isLower_of_mem_knownTags hknown '-' hhyphen) (by decide)
  refine ⟨more, ?_, ?_⟩
  · rw [← hchannel, ofToken, hsegments]
    rfl
  · rw [pieces, hsegments]
    rfl

namespace Version

variable {major minor patch : UInt32}

/-- Three numbers in decimal with a tail behind them. -/
def tailed (major minor patch : UInt32) (tail : Spelling.Tail) : Spelling :=
  { spelling ⟨major, minor, patch, .formal⟩ with tail := some tail }

theorem chars_tailed (tail : Spelling.Tail) :
    (tailed major minor patch tail).chars =
      (text ⟨major, minor, patch, .formal⟩).toList ++ tail.separator :: tail.token ++
        tail.ignored := by
  rw [← spelling_chars]
  simp [Spelling.chars, tailed, spelling, Stage.formal]

theorem shaped_tailed {tail : Spelling.Tail}
    (hseparator : tail.separator = '.' ∨ tail.separator = '-')
    (htoken : ∀ c ∈ tail.token, ¬IsSeparator (tail.separator != '-') c)
    (hlongest : ∀ c ∈ tail.ignored.head?, IsSeparator (tail.separator != '-') c) :
    (tailed major minor patch tail).Shaped := by
  apply Spelling.shaped_of_dots (Or.inl rfl) (Numeral.isNumeral_ofNat _) rfl
    (Numeral.isNumeral_ofNat _) rfl (Numeral.isNumeral_ofNat _)
  · simpa [tailed] using hseparator
  · simpa [tailed] using htoken
  · simpa [tailed] using hlongest

/-- What is read from three numbers in decimal and a tail. -/
theorem read_tailed (tail : Spelling.Tail) (hshaped : (tailed major minor patch tail).Shaped)
    {input : String} (hinput : (tailed major minor patch tail).chars = input.toList)
    {stage : Stage}
    (hstage : Stage.ofToken (lowercasePart false
      (dotHyphen (tailed major minor patch tail).hyphenCounts tail.ignored) tail.token) =
        .ok stage) :
    read input = .ok ⟨major, minor, patch, stage⟩ := by
  rw [hshaped.read_chars_eq_ok_iff hinput, hshaped.stage_of_tail_eq_some rfl]
  exact ⟨(Numeral.value_ofNat _).symm, (Numeral.value_ofNat _).symm,
    (Numeral.value_ofNat _).symm, hstage⟩

variable {channel : Channel} {tag : String}

/-- Only letters are converted to the tag of a known channel. -/
theorem not_separator_of_known (hknown : channel ∈ Channel.known)
    (htag : lowercase tag.toList = channel.tag.toList) :
    ∀ c ∈ tag.toList, c ≠ '.' ∧ c ≠ '-' := by
  have hnone : ∀ d, Caseless d → d ∉ tag.toList := by
    intro d hd hmem
    have himage : d ∈ lowercasePart false [] tag.toList :=
      (mem_lowercasePart_iff_of_caseless hd).mpr hmem
    rw [lowercasePart_nil, ← lowercase, htag] at himage
    have hlower := (Channel.tag_of_known hknown).2.1 d himage
    have halpha := hd.2
    rw [Char.isAlpha, hlower, Bool.or_true] at halpha
    contradiction
  intro c hc
  constructor
  · rintro rfl
    exact hnone '.' (by decide) hc
  · rintro rfl
    exact hnone '-' (by decide) hc

/-- A word that is a known tag in lower case is converted to it wherever it stands. -/
theorem lowercasePart_of_known (hknown : channel ∈ Channel.known)
    (htag : lowercase tag.toList = channel.tag.toList) (afterCased : Bool) (rest : List Char) :
    lowercasePart afterCased rest tag.toList = channel.tag.toList := by
  have hplace : lowercasePart false [] tag.toList = channel.tag.toList := by
    rw [lowercasePart_nil, ← lowercase, htag]
  rw [← hplace]
  apply lowercasePart_eq_of_ascii
  intro d hd
  rw [hplace] at hd
  exact ascii_of_isLower ((Channel.tag_of_known hknown).2.1 d hd)

/-- Behind a dot the first hyphen ends the token. -/
theorem read_dot_hyphen (hknown : channel ∈ Channel.known)
    (htag : lowercase tag.toList = channel.tag.toList) (after : String) :
    read (text ⟨major, minor, patch, .formal⟩ ++ "." ++ tag ++ "-" ++ after) =
      .ok ⟨major, minor, patch, ⟨channel, Stage.noIteration⟩⟩ := by
  obtain ⟨hne, hlower, hofTag⟩ := Channel.tag_of_known hknown
  have hseparator := not_separator_of_known hknown htag
  apply read_tailed ⟨'.', tag.toList, '-' :: after.toList⟩
  · apply shaped_tailed (Or.inl rfl)
    · intro c hc
      simp [IsSeparator, hseparator c hc]
    · intro c hc
      rw [List.head?_cons, Option.mem_some_iff] at hc
      exact Or.inr ⟨hc.symm, rfl⟩
  · rw [chars_tailed]
    simp
  · have hplain : IsPlain channel.tag.toList :=
      isPlain_of_forall_not_isDigit fun c hc => not_isDigit_of_isLower (hlower c hc)
    rw [lowercasePart_of_known hknown htag, Stage.ofToken_of_isPlain hne hplain, Stage.unnumbered,
      String.ofList_toList, hofTag]

/-- Behind a hyphen the next one belongs to the token, and the channel is not known any more. -/
theorem read_hyphen_hyphen (major minor patch : UInt32) (hknown : channel ∈ Channel.known)
    (htag : lowercase tag.toList = channel.tag.toList) {after : String}
    (hafter : '.' ∉ after.toList) :
    ∃ more,
      read (text ⟨major, minor, patch, .formal⟩ ++ "-" ++ tag ++ "-" ++ after) =
        .ok ⟨major, minor, patch,
          ⟨.unrecognized (String.ofList (channel.tag.toList ++ '-' :: more)),
            Stage.noIteration⟩⟩ ∧
      (pieces (lowercase (tag ++ "-" ++ after).toList)).head? =
        some (channel.tag.toList ++ '-' :: more) := by
  obtain ⟨-, hlower, -⟩ := Channel.tag_of_known hknown
  have htoken : (tag ++ "-" ++ after).toList = tag.toList ++ '-' :: after.toList := by simp
  have himage : lowercase (tag.toList ++ '-' :: after.toList) =
      channel.tag.toList ++ '-' :: lowercaseAfter false after.toList := by
    have hhyphen : Settled '-' := Caseless.settled (by decide)
    have hends : ∀ afterCased, endsCased afterCased '-' = false := by decide
    rw [lowercase, lowercaseAfter_append, lowercasePart_of_known hknown htag, lowercaseAfter_cons,
      lowered_of_settled hhyphen, hends, List.singleton_append]
  obtain ⟨more, hstage, hpiece⟩ :=
    Stage.ofToken_append_hyphen (fun c hc => not_isDigit_of_isLower (hlower c hc))
      (lowercaseAfter false after.toList)
  rw [← himage] at hstage hpiece
  refine ⟨more, ?_, htoken ▸ hpiece⟩
  apply read_tailed ⟨'-', tag.toList ++ '-' :: after.toList, []⟩
  · apply shaped_tailed (Or.inr rfl)
    · intro c hc
      have hdot : c ≠ '.' := by
        rintro rfl
        rcases List.mem_append.mp hc with htagged | hrest
        · exact (not_separator_of_known hknown htag '.' htagged).1 rfl
        · exact hafter ((List.mem_cons.mp hrest).resolve_left (by decide))
      simp [IsSeparator, hdot]
    · intro c hc
      contradiction
  · rw [chars_tailed]
    simp
  · rw [dotHyphen_of_not_mem List.not_mem_nil, lowercasePart_nil]
    exact hstage

theorem rank_lt_of_known (hknown : channel ∈ Channel.known) :
    channel.rank < Channel.release.rank :=
  of_decide_eq_true (Channel.isPrerelease_iff.mpr hknown)

end Version

/-- What may be exchanged in the spelling of a version, and what may not.  A mark can be put in
front of a text that has none.  The only hyphen of a text can be a dot, and its first hyphen can
change places with a dot.  Where a second hyphen follows the tag of a known channel, the dotted text
spells that channel and comes before the release, and the hyphenated one spells a channel that
nobody recognizes, named by the first piece of all that follows, and comes after the release. -/
theorem read_respelled :
    (∀ mark input : String, mark = "v" ∨ mark = "V" →
      (BeginsWithMark input → ∃ malformed, Version.read (mark ++ input) = .error malformed) ∧
      (¬BeginsWithMark input → ∀ version,
        Version.read (mark ++ input) = .ok version ↔ Version.read input = .ok version)) ∧
    (∀ before after : String, '-' ∉ before.toList → '-' ∉ after.toList →
      ReadAlike (before ++ "-" ++ after) (before ++ "." ++ after)) ∧
    (∀ before between after : String, '-' ∉ before.toList → '-' ∉ between.toList →
      ReadAlike (before ++ "." ++ between ++ "-" ++ after)
        (before ++ "-" ++ between ++ "." ++ after)) ∧
    ∀ (major minor patch : UInt32) (channel : Channel) (tag after : String),
      channel ∈ Channel.known → lowercase tag.toList = channel.tag.toList → '.' ∉ after.toList →
        let release : Version := ⟨major, minor, patch, .formal⟩
        let dotted : String := release.text ++ "." ++ tag ++ "-" ++ after
        let hyphenated : String := release.text ++ "-" ++ tag ++ "-" ++ after
        Version.read dotted = .ok ⟨major, minor, patch, ⟨channel, -1⟩⟩ ∧
        compareWritten dotted release.text = .ok .lt ∧
        compareWritten hyphenated release.text = .ok .gt ∧
        compareWritten dotted hyphenated = .ok .lt ∧
        ∃ name : String,
          Version.read hyphenated = .ok ⟨major, minor, patch, ⟨.unrecognized name, -1⟩⟩ ∧
          (pieces (lowercase (tag ++ "-" ++ after).toList)).head? = some name.toList ∧
          (channel.tag ++ "-").toList <+: name.toList := by
  refine ⟨?_, ?_, ?_, ?_⟩
  · intro mark input hmark
    have hmarked : ∃ c, (c = 'v' ∨ c = 'V') ∧ (mark ++ input).toList = c :: input.toList := by
      rcases hmark with rfl | rfl
      · exact ⟨'v', Or.inl rfl, String.toList_append⟩
      · exact ⟨'V', Or.inr rfl, String.toList_append⟩
    obtain ⟨c, hc, hchars⟩ := hmarked
    constructor
    · intro hbegins
      cases hread : Version.read (mark ++ input) with
      | ok version => exact absurd hbegins ((read_marked_iff hc hchars).mp hread).1
      | error malformed => exact ⟨malformed, rfl⟩
    · intro hbegins version
      rw [read_marked_iff hc hchars]
      exact and_iff_right hbegins
  · exact fun before after => readAlike_hyphen_dot
  · exact fun before between after => readAlike_dot_hyphen
  · intro major minor patch channel tag after hknown htag hafter release dotted hyphenated
    have hrelease : Version.read release.text = .ok release := read_text_formal
    have hdotted : Version.read dotted = .ok ⟨major, minor, patch, ⟨channel, -1⟩⟩ :=
      read_dot_hyphen hknown htag after
    obtain ⟨more, hhyphenated, hpiece⟩ :=
      read_hyphen_hyphen major minor patch hknown htag hafter
    have hbelow : (⟨major, minor, patch, ⟨channel, -1⟩⟩ : Version) < release :=
      lt_of_rank_lt (rank_lt_of_known hknown)
    have habove : release < ⟨major, minor, patch,
        ⟨.unrecognized (String.ofList (channel.tag.toList ++ '-' :: more)), -1⟩⟩ :=
      lt_of_rank_lt (show Channel.release.rank < 5 by decide)
    refine ⟨hdotted, ?_, ?_, ?_, _, hhyphenated, ?_, ?_⟩
    · exact compareWritten_eq_ok_iff.mpr ⟨_, _, hdotted, hrelease, hbelow⟩
    · exact compareWritten_eq_ok_iff.mpr ⟨_, _, hhyphenated, hrelease, gt_iff.mp habove⟩
    · exact compareWritten_eq_ok_iff.mpr ⟨_, _, hdotted, hhyphenated, lt_trans hbelow habove⟩
    · rw [String.toList_ofList]
      exact hpiece
    · rw [String.toList_ofList, String.toList_append]
      exact ⟨more, by simp⟩

/-- A mark in front, the one hyphen as a dot, the first of two hyphens before a dot, and a second
hyphen behind the tag of a beta. -/
theorem read_respelled_beta :
    BeginsWithMark "v1.2.3" ∧ (∃ malformed, Version.read "Vv1.2.3" = .error malformed) ∧
      ¬BeginsWithMark "1.2-3.Beta" ∧
      Version.read "v1.2-3.Beta" = .ok ⟨1, 2, 3, ⟨.beta, -1⟩⟩ ∧
      ReadAlike "1.2-3.Beta" "1.2.3.Beta" ∧ ReadAlike "1.2.3-Beta-rc2" "1.2-3.Beta-rc2" ∧
      Version.read "1.2.3.Beta-rc2" = .ok ⟨1, 2, 3, ⟨.beta, -1⟩⟩ ∧
      Version.read "1.2.3-Beta-rc2" = .ok ⟨1, 2, 3, ⟨.unrecognized "beta-", -1⟩⟩ ∧
      compareWritten "1.2.3.Beta-rc2" "1.2.3-Beta-rc2" = .ok .lt := by
  obtain ⟨hmark, hone, hfirst, hsecond⟩ := read_respelled
  have hbegins : BeginsWithMark "v1.2.3" := Or.inl rfl
  have hunmarked : ¬BeginsWithMark "1.2-3.Beta" := by
    rintro (hbegins | hbegins) <;> exact absurd hbegins (by decide)
  have hread : Version.read "1.2-3.Beta" = .ok ⟨1, 2, 3, ⟨.beta, -1⟩⟩ := rfl
  obtain ⟨hdotted, -, -, hless, name, hhyphenated, hpiece, -⟩ :=
    hsecond 1 2 3 .beta "Beta" "rc2" (by decide) (by decide) (by decide)
  have hname : name = "beta-" := by
    have hfirstPiece : (pieces (lowercase "Beta-rc2".toList)).head? = some "beta-".toList := by
      decide
    exact String.toList_inj.mp (Option.some.inj (hpiece.symm.trans hfirstPiece))
  rw [hname] at hhyphenated
  exact ⟨hbegins, (hmark "V" "v1.2.3" (Or.inr rfl)).1 hbegins, hunmarked,
    ((hmark "v" "1.2-3.Beta" (Or.inl rfl)).2 hunmarked _).mpr hread,
    hone "1.2" "3.Beta" (by decide) (by decide),
    hfirst "1.2" "3" "Beta-rc2" (by decide) (by decide),
    hdotted, hhyphenated, hless⟩

end Freshness
