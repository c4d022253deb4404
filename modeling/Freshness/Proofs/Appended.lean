import Freshness.Proofs.LetterCase
import Freshness.Proofs.Rechecking

/-!
# What follows the token

A version has three numbers and at most one token, and nothing behind the separator after the token
is read.  A text that is appended there still has an effect on what stands in front of it.  It may
hold the first hyphen of the whole, and it may take its final form from a sigma at the end of the
token.  The hyphen is then turned into a dot where it stands, so the front keeps its dots
(`exists_dotFirstHyphen_append`), and the form of a sigma is not read
(`renamed_ofComponents_append`).
-/

namespace Freshness

open Text Unicode

/-- The conversion to lower case neither makes nor removes digits, dots or hyphens. -/
theorem Unicode.count_lowered {d : Char} (hd : Caseless d) (afterCased : Bool) (c : Char)
    (rest : List Char) : (lowered afterCased c rest).count d = [c].count d := by
  by_cases hc : c = d
  · subst hc
    rw [lowered_of_settled hd.settled]
  · rw [List.count_eq_zero_of_not_mem (mt (mem_lowered_iff_of_caseless hd).mp hc)]
    exact (List.count_eq_zero_of_not_mem (by simpa using Ne.symm hc)).symm

/-- The conversion keeps the number of each character without case. -/
theorem Unicode.count_lowercaseAfter {d : Char} (hd : Caseless d) (afterCased : Bool)
    (text : List Char) : (lowercaseAfter afterCased text).count d = text.count d := by
  induction text generalizing afterCased with
  | nil => rfl
  | cons c text ih =>
      rw [lowercaseAfter_cons, List.count_append, count_lowered hd, ih, ← List.count_append]
      rfl

namespace Version

/-! ## The number of components -/

/-- Every separator makes one more part. -/
theorem length_splitOn (c : Char) (text : List Char) :
    (text.splitOn c).length = text.count c + 1 := by
  induction text with
  | nil => rfl
  | cons d text ih =>
      rw [List.splitOn_cons_eq_if_modifyHead, List.count_cons]
      split <;> simp [ih]

theorem count_dropMark (text : List Char) : (dropMark text).count '.' = text.count '.' := by
  cases text with
  | nil => rfl
  | cons c text =>
      rw [dropMark]
      split
      · next hmark => simp [hmark]
      · rfl

theorem count_dotFirstHyphen (text : List Char) :
    (dotFirstHyphen text).count '.' = text.count '.' + if '-' ∈ text then 1 else 0 := by
  induction text with
  | nil => rfl
  | cons c text ih =>
      rw [dotFirstHyphen]
      split
      · next hhyphen => simp [hhyphen]
      · next hother =>
          rw [List.count_cons, List.count_cons, ih]
          simp only [List.mem_cons, Ne.symm hother, false_or]
          omega

/-- A text has one component more than it has dots, among which the first hyphen counts. -/
theorem length_components (text : List Char) :
    (components text).length = text.count '.' + (if '-' ∈ text then 1 else 0) + 1 := by
  rw [components, length_splitOn, count_dropMark, lowercase, count_lowercaseAfter (by decide),
    count_dotFirstHyphen]

/-! ## An appended text -/

theorem mem_of_mem_dotFirstHyphen {c : Char} {text : List Char} (hc : c ∈ dotFirstHyphen text) :
    c = '.' ∨ c ∈ text := by
  induction text with
  | nil => contradiction
  | cons d text ih =>
      rw [dotFirstHyphen] at hc
      split at hc
      · exact (List.mem_cons.mp hc).imp_right (List.mem_cons_of_mem d)
      · rcases List.mem_cons.mp hc with rfl | htail
        · exact Or.inr List.mem_cons_self
        · exact (ih htail).imp_right (List.mem_cons_of_mem d)

/-- The dot in front of an appended text is kept, as is the front. -/
theorem exists_dotFirstHyphen_append (text rest : List Char) :
    ∃ rest', dotFirstHyphen (text ++ '.' :: rest) = dotFirstHyphen text ++ '.' :: rest' := by
  induction text with
  | nil => exact ⟨dotFirstHyphen rest, rfl⟩
  | cons c text ih =>
      rw [List.cons_append, dotFirstHyphen, dotFirstHyphen]
      split
      · exact ⟨rest, rfl⟩
      · obtain ⟨rest', hrest'⟩ := ih
        exact ⟨rest', by rw [hrest', List.cons_append]⟩

/-- The components of the front come first, as they are converted in their place. -/
theorem exists_components_append (text rest : List Char) :
    ∃ after others, components (text ++ '.' :: rest) =
      (dropMark (lowercasePart false after (dotFirstHyphen text))).splitOn '.' ++ others := by
  obtain ⟨rest', hrest'⟩ := exists_dotFirstHyphen_append text rest
  have hdot : Settled '.' := Caseless.settled (by decide)
  let afterCased := endsCased ((dotFirstHyphen text).foldl endsCased false) '.'
  refine ⟨'.' :: rest', (lowercaseAfter afterCased rest').splitOn '.', ?_⟩
  rw [components, hrest', lowercase, lowercaseAfter_append, lowercaseAfter_cons,
    lowered_of_settled hdot, List.singleton_append, dropMark_append_dot,
    List.splitOn_append_cons_self]

/-- Nothing is read behind the fourth component. -/
theorem ofComponents_append {front : List (List Char)} (hfour : 4 ≤ front.length)
    (others : List (List Char)) : ofComponents (front ++ others) = ofComponents front := by
  match front, hfour with
  | _ :: _ :: _ :: _ :: _, _ => rfl

/-- Up to the form of sigmas, the front is converted as if it stood alone. -/
theorem map_plainSigma_splitOn (after text : List Char) :
    ((dropMark (lowercasePart false after (dotFirstHyphen text))).splitOn '.').map
        (List.map plainSigma) =
      (components text).map (List.map plainSigma) := by
  have hkeeps := keepsAscii_plainSigma
  rw [components, ← splitOn_map hkeeps, ← splitOn_map hkeeps, ← dropMark_map hkeeps,
    ← dropMark_map hkeeps, lowercase, map_plainSigma_lowercasePart, map_plainSigma_lowercaseAfter]

/-- Up to the form of a sigma, text behind a fourth component does not change what is read. -/
theorem renamed_ofComponents_append {text : List Char} (hfour : 4 ≤ (components text).length)
    (rest : List Char) :
    renamed (Version.map plainSigma) plainSigma (ofComponents (components (text ++ '.' :: rest))) =
      renamed (Version.map plainSigma) plainSigma (ofComponents (components text)) := by
  obtain ⟨after, others, hcomponents⟩ := exists_components_append text rest
  have hfront := map_plainSigma_splitOn after text
  have hlength := congrArg List.length hfront
  rw [List.length_map, List.length_map] at hlength
  rw [hcomponents, ofComponents_append (hlength ▸ hfour),
    ← ofComponents_map keepsAscii_plainSigma, hfront, ofComponents_map keepsAscii_plainSigma]

/-- Without a sigma the front is read just as if it stood alone. -/
theorem ofComponents_append_of_no_sigma {text : List Char} (hfour : 4 ≤ (components text).length)
    (hsigma : 'Σ' ∉ text) (rest : List Char) :
    ofComponents (components (text ++ '.' :: rest)) = ofComponents (components text) := by
  obtain ⟨after, others, hcomponents⟩ := exists_components_append text rest
  have hdotted : 'Σ' ∉ dotFirstHyphen text :=
    fun hmem => hsigma ((mem_of_mem_dotFirstHyphen hmem).resolve_left (by decide))
  have hfront : (dropMark (lowercasePart false after (dotFirstHyphen text))).splitOn '.' =
      components text := by
    rw [lowercasePart_congr hdotted false false after [], lowercasePart_nil]
    rfl
  rw [hcomponents, hfront, ofComponents_append hfour]

section

variable {front whole : String} {rest : List Char}

/-- What is read in front of a further component is still read once the component is there. -/
theorem exists_read_of_front (hfour : 4 ≤ (components front.toList).length)
    (hwhole : whole.toList = front.toList ++ '.' :: rest) {v : Version}
    (hv : read front = .ok v) : ∃ w, read whole = .ok w ∧ (v == w) = true := by
  have hsame := renamed_ofComponents_append hfour rest
  rw [← hwhole] at hsame
  exact exists_read_of_renamed_eq hsame.symm hv

/-- A text with a further component is read only if it is read without it. -/
theorem exists_read_of_whole (hfour : 4 ≤ (components front.toList).length)
    (hwhole : whole.toList = front.toList ++ '.' :: rest) {w : Version}
    (hw : read whole = .ok w) : ∃ v, read front = .ok v ∧ (w == v) = true := by
  have hsame := renamed_ofComponents_append hfour rest
  rw [← hwhole] at hsame
  exact exists_read_of_renamed_eq hsame hw

end

end Version

/-! ## Equal versions -/

theorem compareWritten_of_beq {a b : String} {v w : Version} (ha : Version.read a = .ok v)
    (hb : Version.read b = .ok w) (hequal : (v == w) = true) : compareWritten a b = .ok .eq :=
  compareWritten_eq_ok_iff.mpr ⟨v, w, ha, hb, Std.compare_eq_iff_beq.mpr hequal⟩

/-- A client is up to date with every version that is equal to its own. -/
theorem Verdict.check_of_beq {a b : Option String} {v w : Version} (ha : Spells a v)
    (hb : Spells b w) (hequal : (v == w) = true) (includePrereleases : Bool) :
    check a b includePrereleases = upToDate v.text := by
  have hreached : w ≤ v :=
    (Version.le_congr (Version.beq_symm hequal) (Version.beq_refl v)).mpr (Version.le_refl v)
  exact check_eq_upToDate_iff.mpr ⟨v, w, ha, hb, hreached, rfl⟩

/-- Whatever stands behind the fourth component is not read, be it a dot, a hyphen or a letter that
changes a sigma in front of it.  A text of four components or more and the same text with another
one behind a further dot are read as equal versions, or neither is read.  In ASCII they are read as
the very same version, or fail for the same reason.  Neither is ever an update of the other. -/
theorem read_ignores_appended (front rest whole : String) (hwhole : whole = front ++ "." ++ rest)
    (hfour : 3 ≤ front.toList.count '.' + if '-' ∈ front.toList then 1 else 0) :
    ((∃ w, Version.read whole = .ok w) ↔ ∃ v, Version.read front = .ok v) ∧
    ((∀ c ∈ front.toList, c.toNat < 0x80) → Version.ReadAlike front whole) ∧
    ∀ v, Version.read front = .ok v →
      ∃ w, Version.read whole = .ok w ∧ (v == w) = true ∧
        (v.major = w.major ∧ v.minor = w.minor ∧ v.patch = w.patch ∧
          v.stage.iteration = w.stage.iteration ∧
          (v.stage.channel = w.stage.channel ∨
            ∃ s t, v.stage.channel = .unrecognized s ∧ w.stage.channel = .unrecognized t)) ∧
        compareWritten front whole = .ok .eq ∧ compareWritten whole front = .ok .eq ∧
        ∀ includePrereleases : Bool,
          Verdict.check (some front) (some whole) includePrereleases = .upToDate v.text ∧
          Verdict.check (some whole) (some front) includePrereleases = .upToDate w.text := by
  have hchars : whole.toList = front.toList ++ '.' :: rest.toList := by
    simp [hwhole, String.toList_append]
  have hcount : 4 ≤ (Version.components front.toList).length := by
    rw [Version.length_components]
    exact Nat.succ_le_succ hfour
  refine ⟨?_, ?_, ?_⟩
  · constructor
    · rintro ⟨w, hw⟩
      obtain ⟨v, hv, -⟩ := Version.exists_read_of_whole hcount hchars hw
      exact ⟨v, hv⟩
    · rintro ⟨v, hv⟩
      obtain ⟨w, hw, -⟩ := Version.exists_read_of_front hcount hchars hv
      exact ⟨w, hw⟩
  · intro hascii
    have hsigma : 'Σ' ∉ front.toList := fun hmem => absurd (hascii _ hmem) (by decide)
    apply Version.readAlike_of_ofComponents_eq
    rw [hchars, Version.ofComponents_append_of_no_sigma hcount hsigma]
  · intro v hv
    obtain ⟨w, hw, hequal⟩ := Version.exists_read_of_front hcount hchars hv
    have hback := Version.beq_symm hequal
    refine ⟨w, hw, hequal, Version.beq_iff.mp hequal, compareWritten_of_beq hv hw hequal,
      compareWritten_of_beq hw hv hback, fun includePrereleases => ⟨?_, ?_⟩⟩
    · exact Verdict.check_of_beq (spells_some_iff.mpr hv) (spells_some_iff.mpr hw) hequal _
    · exact Verdict.check_of_beq (spells_some_iff.mpr hw) (spells_some_iff.mpr hv) hback _

/-- A text that is appended holds the first hyphen and gives the sigma in front of it its plain
form; one behind a candidate changes nothing at all. -/
theorem read_ignores_appended_to_sigma :
    3 ≤ "1.2.3.aΣ".toList.count '.' + (if '-' ∈ "1.2.3.aΣ".toList then 1 else 0) ∧
      Version.read "1.2.3.aΣ" = .ok ⟨1, 2, 3, ⟨.unrecognized "aς", -1⟩⟩ ∧
      Version.read "1.2.3.aΣ.b-4" = .ok ⟨1, 2, 3, ⟨.unrecognized "aσ", -1⟩⟩ ∧
      compareWritten "1.2.3.aΣ" "1.2.3.aΣ.b-4" = .ok .eq ∧
      3 ≤ "v1.2-3.RC7".toList.count '.' + (if '-' ∈ "v1.2-3.RC7".toList then 1 else 0) ∧
      Version.ReadAlike "v1.2-3.RC7" "v1.2-3.RC7.İ-Σ" := by
  have hsigma : 3 ≤ "1.2.3.aΣ".toList.count '.' + if '-' ∈ "1.2.3.aΣ".toList then 1 else 0 := by
    decide
  have hcandidate :
      3 ≤ "v1.2-3.RC7".toList.count '.' + if '-' ∈ "v1.2-3.RC7".toList then 1 else 0 := by
    decide
  have hfinal : Version.read "1.2.3.aΣ" = .ok ⟨1, 2, 3, ⟨.unrecognized "aς", -1⟩⟩ := rfl
  have hplain : Version.read "1.2.3.aΣ.b-4" = .ok ⟨1, 2, 3, ⟨.unrecognized "aσ", -1⟩⟩ := rfl
  obtain ⟨-, -, hread⟩ := read_ignores_appended "1.2.3.aΣ" "b-4" _ rfl hsigma
  obtain ⟨-, hascii, -⟩ := read_ignores_appended "v1.2-3.RC7" "İ-Σ" _ rfl hcandidate
  obtain ⟨w, -, -, -, hcompare, -⟩ := hread _ hfinal
  exact ⟨hsigma, hfinal, hplain, hcompare, hcandidate, hascii (by simp)⟩

end Freshness
