import Freshness.Proofs.Components
import Freshness.Proofs.Interchange
import Freshness.Proofs.Renaming

/-!
# Letter case

Texts with the same lower-case image are read as equal versions.  Their normal forms need not be the
same: the first hyphen is turned into a dot before the conversion, a dot is case-ignorable and a
hyphen is not, so a capital sigma in front of it may take another form than the small one that
stands in the other text.  Up to the form of a sigma, however, the image of a text is made character
by character (`map_plainSigma_lowercaseAfter`), and this form is not read.  Texts that differ in the
case of ASCII letters only do have the same normal form, since such a letter is cased in both cases
(`lowercaseAfter_map_toLower`).
-/

namespace Freshness

namespace Unicode

/-! ## The form of a sigma -/

/-- The character, with a final sigma in its plain form. -/
def plainSigma (c : Char) : Char :=
  if c = 'ς' then 'σ' else c

theorem keepsAscii_plainSigma : Text.KeepsAscii plainSigma := by
  intro c d hd
  rw [plainSigma]
  split
  · next hfinal =>
      subst hfinal
      constructor
      · rintro rfl
        exact absurd hd (by decide)
      · rintro rfl
        exact absurd hd (by decide)
  · exact Iff.rfl

/-- The lower-case image of a character up to the form of a sigma, which does not depend on the
place. -/
def plainImage (c : Char) : List Char :=
  (lowered false c []).map plainSigma

theorem map_plainSigma_lowered (afterCased : Bool) (c : Char) (rest : List Char) :
    (lowered afterCased c rest).map plainSigma = plainImage c := by
  by_cases hsigma : c = 'Σ'
  · subst hsigma
    rw [lowered, if_pos rfl]
    split <;> rfl
  · rw [plainImage, lowered_of_ne_sigma hsigma]

theorem map_plainSigma_lowercasePart (afterCased : Bool) (rest text : List Char) :
    (lowercasePart afterCased rest text).map plainSigma = text.flatMap plainImage := by
  induction text generalizing afterCased with
  | nil => rfl
  | cons c text ih =>
      rw [lowercasePart_cons, List.map_append, map_plainSigma_lowered, ih, List.flatMap_cons]

/-- Up to the form of a sigma a text is converted character by character. -/
theorem map_plainSigma_lowercaseAfter (afterCased : Bool) (text : List Char) :
    (lowercaseAfter afterCased text).map plainSigma = text.flatMap plainImage := by
  rw [← lowercasePart_nil, map_plainSigma_lowercasePart]

theorem mem_plainImage_iff_of_caseless {c d : Char} (hd : Caseless d) :
    d ∈ plainImage c ↔ c = d := by
  have hmem : d ∈ plainImage c ↔ ∃ e ∈ lowered false c [], plainSigma e = d := by
    rw [plainImage, List.mem_map]
  rw [hmem]
  simp only [keepsAscii_plainSigma _ d hd.1, exists_eq_right]
  exact mem_lowered_iff_of_caseless hd

theorem plainImage_of_caseless {c : Char} (hc : Caseless c) : plainImage c = [c] := by
  rw [plainImage, lowered_of_settled hc.settled, List.map_singleton,
    (keepsAscii_plainSigma c c hc.1).mpr rfl]

/-! ## ASCII letters -/

theorem toLower_eq_iff {c d : Char} (hd : d.isAlpha = false) : c.toLower = d ↔ c = d := by
  by_cases hupper : c.isUpper = true
  · have halpha : c.isAlpha = true := by rw [Char.isAlpha, hupper, Bool.true_or]
    constructor
    · rintro rfl
      rw [Char.isAlpha_toLower_eq_isAlpha, halpha] at hd
      contradiction
    · rintro rfl
      rw [halpha] at hd
      contradiction
  · rw [Char.toLower_eq_of_not_isUpper hupper]

/-- A set that holds both cases of each letter or neither. -/
theorem inRanges_toLower {ranges : List (Nat × Nat)}
    (hletters : ∀ n < 26, inRanges (n + 0x61) ranges = inRanges (n + 0x41) ranges) (c : Char) :
    inRanges c.toLower.toNat ranges = inRanges c.toNat ranges := by
  by_cases hupper : c.isUpper = true
  · have hrange := isUpper_iff_toNat.mp hupper
    have hcode := hletters (c.toNat - 0x41) (by omega)
    rw [Nat.sub_add_cancel hrange.1] at hcode
    rw [toNat_toLower_of_isUpper hupper, ← hcode]
    congr 1
    omega
  · rw [Char.toLower_eq_of_not_isUpper hupper]

/-- The ASCII case of a letter does not decide whether it is cased. -/
theorem isCased_toLower (c : Char) : isCased c.toLower = isCased c :=
  inRanges_toLower (by decide) c

theorem isCaseIgnorable_toLower (c : Char) : isCaseIgnorable c.toLower = isCaseIgnorable c :=
  inRanges_toLower (by decide) c

theorem endsCased_toLower (afterCased : Bool) (c : Char) :
    endsCased afterCased c.toLower = endsCased afterCased c := by
  rw [endsCased, endsCased, isCaseIgnorable_toLower, isCased_toLower]

theorem startsCased_map_toLower (text : List Char) :
    startsCased (text.map Char.toLower) = startsCased text := by
  induction text with
  | nil => rfl
  | cons c text ih =>
      rw [List.map_cons, startsCased, startsCased, isCaseIgnorable_toLower, isCased_toLower, ih]

theorem lowercaseChar_toLower (c : Char) : lowercaseChar c.toLower = lowercaseChar c := by
  by_cases hupper : c.isUpper = true
  · have hrange := isUpper_iff_toNat.mp hupper
    have hlower := toNat_toLower_of_isUpper hupper
    have hsame : ¬c.toLower.isUpper = true := by
      rw [isUpper_iff_toNat]
      omega
    rw [lowercaseChar_of_ascii (by omega), lowercaseChar_of_ascii (by omega),
      Char.toLower_eq_of_not_isUpper hsame]
  · rw [Char.toLower_eq_of_not_isUpper hupper]

theorem lowered_map_toLower (afterCased : Bool) (c : Char) (rest : List Char) :
    lowered afterCased c.toLower (rest.map Char.toLower) = lowered afterCased c rest := by
  have hsigma : c.toLower = 'Σ' ↔ c = 'Σ' := toLower_eq_iff (by decide)
  have hdotted : c.toLower = 'İ' ↔ c = 'İ' := toLower_eq_iff (by decide)
  simp only [lowered, hsigma, hdotted, startsCased_map_toLower, lowercaseChar_toLower]

/-- An ASCII letter has the same image in both cases, and so has all that stands around it. -/
theorem lowercaseAfter_map_toLower (afterCased : Bool) (text : List Char) :
    lowercaseAfter afterCased (text.map Char.toLower) = lowercaseAfter afterCased text := by
  induction text generalizing afterCased with
  | nil => rfl
  | cons c text ih =>
      rw [List.map_cons, lowercaseAfter_cons, lowercaseAfter_cons, lowered_map_toLower,
        endsCased_toLower, ih]

end Unicode

open Unicode

namespace Version

/-! ## The components of texts that differ in letter case -/

/-- The first hyphen keeps its place when the text is converted. -/
theorem flatMap_dotFirstHyphen (text : List Char) :
    (dotFirstHyphen text).flatMap plainImage = dotFirstHyphen (text.flatMap plainImage) := by
  induction text with
  | nil => rfl
  | cons c text ih =>
      rw [dotFirstHyphen]
      split
      · next hhyphen =>
          subst hhyphen
          rw [List.flatMap_cons, List.flatMap_cons, plainImage_of_caseless (by decide),
            plainImage_of_caseless (by decide)]
          rfl
      · next hother =>
          have himage : '-' ∉ plainImage c :=
            fun hmem => hother ((mem_plainImage_iff_of_caseless (by decide)).mp hmem)
          rw [List.flatMap_cons, List.flatMap_cons, ih, dotFirstHyphen_append himage]

/-- The components of a text are determined by its lower-case image up to the form of sigmas. -/
theorem map_plainSigma_components {a b : List Char} (hsame : lowercase a = lowercase b) :
    (components a).map (List.map plainSigma) = (components b).map (List.map plainSigma) := by
  have himage : ∀ text, (lowercase (dotFirstHyphen text)).map plainSigma =
      dotFirstHyphen ((lowercase text).map plainSigma) := by
    intro text
    rw [lowercase, lowercase, map_plainSigma_lowercaseAfter, map_plainSigma_lowercaseAfter,
      flatMap_dotFirstHyphen]
  have hkeeps := keepsAscii_plainSigma
  rw [components, components, ← splitOn_map hkeeps, ← splitOn_map hkeeps, ← dropMark_map hkeeps,
    ← dropMark_map hkeeps, himage, himage, hsame]

theorem dotFirstHyphen_map_toLower (text : List Char) :
    dotFirstHyphen (text.map Char.toLower) = (dotFirstHyphen text).map Char.toLower := by
  induction text with
  | nil => rfl
  | cons c text ih =>
      have hhyphen : c.toLower = '-' ↔ c = '-' := toLower_eq_iff (by decide)
      simp only [List.map_cons, dotFirstHyphen, hhyphen, ih]
      split <;> rfl

/-- The components of a text do not depend on the case of its ASCII letters. -/
theorem components_map_toLower (text : List Char) :
    components (text.map Char.toLower) = components text := by
  rw [components, components, dotFirstHyphen_map_toLower, lowercase, lowercaseAfter_map_toLower,
    ← lowercase]

/-! ## Reading them -/

/-- What is read from texts with the same lower-case image differs in the form of sigmas only. -/
theorem renamed_ofComponents_eq {a b : List Char} (hsame : lowercase a = lowercase b) :
    renamed (Version.map plainSigma) plainSigma (ofComponents (components a)) =
      renamed (Version.map plainSigma) plainSigma (ofComponents (components b)) := by
  rw [← ofComponents_map keepsAscii_plainSigma, ← ofComponents_map keepsAscii_plainSigma,
    map_plainSigma_components hsame]

/-- Texts with the same lower-case image spell equal versions. -/
theorem exists_read_of_lowercase_eq {a b : String}
    (hsame : lowercase a.toList = lowercase b.toList) {v : Version} (hv : read a = .ok v) :
    ∃ w, read b = .ok w ∧ (v == w) = true :=
  exists_read_of_renamed_eq (renamed_ofComponents_eq hsame) hv

end Version

theorem spellAlike_of_lowercase_eq {a b : String}
    (hsame : lowercase a.toList = lowercase b.toList) : SpellAlike (some a) (some b) := by
  simp only [SpellAlike, spells_some_iff]
  exact ⟨fun _ => Version.exists_read_of_lowercase_eq hsame,
    fun _ => Version.exists_read_of_lowercase_eq hsame.symm⟩

/-- The case of letters does not matter.  Of two texts with the same lower-case image one is read
when the other is, as an equal version with the same kind of tag and the same iteration, and each
may stand for the other in comparisons and update checks.  Texts that differ only in the case of
ASCII letters are read as the very same version, or fail for the same reason. -/
theorem read_ignores_letter_case :
    (∀ a b : String, lowercase a.toList = lowercase b.toList →
      ((∃ v, Version.read a = .ok v) ↔ ∃ w, Version.read b = .ok w) ∧
      (∀ v w, Version.read a = .ok v → Version.read b = .ok w →
        (v == w) = true ∧ v.stage.iteration = w.stage.iteration ∧
          (v.stage.channel = w.stage.channel ∨
            ∃ s t, v.stage.channel = .unrecognized s ∧ w.stage.channel = .unrecognized t)) ∧
      (∀ (other : String) (ordering : Ordering),
        (compareWritten a other = .ok ordering ↔ compareWritten b other = .ok ordering) ∧
        (compareWritten other a = .ok ordering ↔ compareWritten other b = .ok ordering)) ∧
      (∀ other : Option String, hasReached (some a) other = hasReached (some b) other ∧
        hasReached other (some a) = hasReached other (some b)) ∧
      ∀ (other : Option String) (includePrereleases : Bool),
        (Verdict.check (some a) other includePrereleases).kind =
          (Verdict.check (some b) other includePrereleases).kind ∧
        (Verdict.check other (some a) includePrereleases).kind =
          (Verdict.check other (some b) includePrereleases).kind) ∧
    ∀ a b : String, a.toList.map Char.toLower = b.toList.map Char.toLower →
      Version.ReadAlike a b := by
  constructor
  · intro a b hsame
    have halike := spellAlike_of_lowercase_eq hsame
    refine ⟨?_, ?_, ?_, ?_, ?_⟩
    · constructor
      · rintro ⟨v, hv⟩
        obtain ⟨w, hw, -⟩ := Version.exists_read_of_lowercase_eq hsame hv
        exact ⟨w, hw⟩
      · rintro ⟨w, hw⟩
        obtain ⟨v, hv, -⟩ := Version.exists_read_of_lowercase_eq hsame.symm hw
        exact ⟨v, hv⟩
    · intro v w hv hw
      obtain ⟨w', hw', hequal⟩ := Version.exists_read_of_lowercase_eq hsame hv
      rw [hw, Except.ok.injEq] at hw'
      subst hw'
      obtain ⟨-, -, -, hiteration, hchannel⟩ := Version.beq_iff.mp hequal
      exact ⟨hequal, hiteration, hchannel⟩
    · intro other ordering
      have hother := SpellAlike.refl (some other)
      exact ⟨halike.compareWritten_iff hother ordering,
        hother.compareWritten_iff halike ordering⟩
    · intro other
      have hother := SpellAlike.refl other
      exact ⟨halike.hasReached_eq hother, hother.hasReached_eq halike⟩
    · intro other includePrereleases
      have hother := SpellAlike.refl other
      exact ⟨Verdict.kind_check_congr halike hother includePrereleases,
        Verdict.kind_check_congr hother halike includePrereleases⟩
  · intro a b hsame
    apply Version.readAlike_of_components_eq
    rw [← Version.components_map_toLower, hsame, Version.components_map_toLower]

/-- The tags of these two texts end in sigmas of different forms, for the hyphen behind the capital
one is turned into a dot before the conversion. -/
theorem read_ignores_letter_case_of_sigma :
    lowercase "1.2.3.aΣ-B".toList = lowercase "1.2.3.Aς-b".toList ∧
      Version.read "1.2.3.aΣ-B" = .ok ⟨1, 2, 3, ⟨.unrecognized "aσ", -1⟩⟩ ∧
      Version.read "1.2.3.Aς-b" = .ok ⟨1, 2, 3, ⟨.unrecognized "aς", -1⟩⟩ ∧
      ((⟨1, 2, 3, ⟨.unrecognized "aσ", -1⟩⟩ : Version) ==
        ⟨1, 2, 3, ⟨.unrecognized "aς", -1⟩⟩) = true ∧
      hasReached (some "1.2.3.aΣ-B") (some "1.2.3") =
        hasReached (some "1.2.3.Aς-b") (some "1.2.3") ∧
      "V1.2-3.RC7".toList.map Char.toLower = "v1.2-3.rC7".toList.map Char.toLower ∧
      Version.ReadAlike "V1.2-3.RC7" "v1.2-3.rC7" := by
  obtain ⟨hunicode, hascii⟩ := read_ignores_letter_case
  have hsame : lowercase "1.2.3.aΣ-B".toList = lowercase "1.2.3.Aς-b".toList := by decide
  have hplain : Version.read "1.2.3.aΣ-B" = .ok ⟨1, 2, 3, ⟨.unrecognized "aσ", -1⟩⟩ := rfl
  have hfinal : Version.read "1.2.3.Aς-b" = .ok ⟨1, 2, 3, ⟨.unrecognized "aς", -1⟩⟩ := rfl
  have hletters : "V1.2-3.RC7".toList.map Char.toLower = "v1.2-3.rC7".toList.map Char.toLower := by
    decide
  obtain ⟨-, hequal, -, hreached, -⟩ := hunicode _ _ hsame
  exact ⟨hsame, hplain, hfinal, (hequal _ _ hplain hfinal).1, (hreached _).1, hletters,
    hascii _ _ hletters⟩

end Freshness
