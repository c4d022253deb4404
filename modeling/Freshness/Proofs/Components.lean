import Freshness.Proofs.LowercaseInPlace
import Freshness.Version.Reader

/-!
# Components of a text

The normal form of a text is cut at its dots.  The conversion to lower case neither makes nor
removes a dot, so the components are the parts between the dots of the text itself, each converted
in its place (`splitOn_lowercaseAfter`).  A component that is a numeral was one before the
conversion.  The first hyphen, which counts as a dot, is followed from part to part by a flag that
says whether a hyphen still counts (`dotHyphen`).
-/

namespace Freshness.Version

open Text Unicode

/-! ## The hyphen that counts as a dot -/

/-- The text with its first hyphen turned into a dot, if a hyphen still counts as one. -/
def dotHyphen (counts : Bool) (text : List Char) : List Char :=
  if counts then dotFirstHyphen text else text

theorem dotFirstHyphen_append {text : List Char} (htext : '-' ∉ text) (rest : List Char) :
    dotFirstHyphen (text ++ rest) = text ++ dotFirstHyphen rest := by
  induction text with
  | nil => rfl
  | cons c text ih =>
      rw [List.mem_cons, not_or] at htext
      rw [List.cons_append, dotFirstHyphen, if_neg (Ne.symm htext.1), ih htext.2]
      rfl

theorem dotFirstHyphen_of_not_mem {text : List Char} (htext : '-' ∉ text) :
    dotFirstHyphen text = text := by
  have happend := dotFirstHyphen_append htext []
  rw [List.append_nil] at happend
  exact happend.trans (List.append_nil text)

theorem dotHyphen_of_not_mem {counts : Bool} {text : List Char} (htext : '-' ∉ text) :
    dotHyphen counts text = text := by
  cases counts with
  | false => rfl
  | true => exact dotFirstHyphen_of_not_mem htext

/-- A hyphen is looked for behind text that holds none. -/
theorem dotHyphen_append {counts : Bool} {text : List Char}
    (htext : counts = true → '-' ∉ text) (rest : List Char) :
    dotHyphen counts (text ++ rest) = text ++ dotHyphen counts rest := by
  cases counts with
  | false => rfl
  | true => exact dotFirstHyphen_append (htext rfl) rest

/-- A separator is a dot, or a hyphen that counts as one. -/
def IsSeparator (counts : Bool) (c : Char) : Prop :=
  c = '.' ∨ c = '-' ∧ counts = true

instance (counts : Bool) : DecidablePred (IsSeparator counts) := fun c =>
  inferInstanceAs (Decidable (c = '.' ∨ c = '-' ∧ counts = true))

/-- A separator becomes a dot, and behind a hyphen no other hyphen counts. -/
theorem dotHyphen_separator {counts : Bool} {c : Char} (hc : IsSeparator counts c)
    (rest : List Char) :
    dotHyphen counts (c :: rest) = '.' :: dotHyphen (counts && c != '-') rest := by
  rcases hc with rfl | ⟨rfl, rfl⟩
  · cases counts <;> rfl
  · rfl

/-- A dot of the normal form comes from a separator. -/
theorem exists_separator_of_dotHyphen (counts : Bool) {input text rest : List Char}
    (htext : ∀ c ∈ text, c ≠ '.' ∧ c ≠ '-')
    (hinput : dotHyphen counts input = text ++ '.' :: rest) :
    ∃ separator input', input = text ++ separator :: input' ∧ IsSeparator counts separator ∧
      dotHyphen (counts && separator != '-') input' = rest := by
  cases counts with
  | false => exact ⟨'.', rest, hinput, Or.inl rfl, rfl⟩
  | true =>
      simp only [dotHyphen, if_true] at hinput
      induction text generalizing input with
      | nil =>
          cases input with
          | nil => simp [dotFirstHyphen] at hinput
          | cons c input =>
              rw [dotFirstHyphen, List.nil_append] at hinput
              split at hinput
              · next hc =>
                  rw [List.cons.injEq] at hinput
                  exact ⟨c, input, rfl, Or.inr ⟨hc, rfl⟩, by simp [dotHyphen, hc, hinput.2]⟩
              · next hc =>
                  rw [List.cons.injEq] at hinput
                  exact ⟨c, input, rfl, Or.inl hinput.1, by simp [dotHyphen, hc, hinput.2]⟩
      | cons d text ih =>
          obtain ⟨hdot, hhyphen⟩ := htext d List.mem_cons_self
          cases input with
          | nil => simp [dotFirstHyphen] at hinput
          | cons c input =>
              rw [dotFirstHyphen, List.cons_append] at hinput
              split at hinput
              · rw [List.cons.injEq] at hinput
                exact absurd hinput.1.symm hdot
              · rw [List.cons.injEq] at hinput
                obtain ⟨rfl, hrest⟩ := hinput
                obtain ⟨separator, input', rfl, hseparator, hrest'⟩ :=
                  ih (fun e he => htext e (List.mem_cons_of_mem c he)) hrest
                exact ⟨separator, input', rfl, hseparator, hrest'⟩

theorem eq_of_dotHyphen {counts : Bool} {input text : List Char} (htext : '.' ∉ text)
    (hinput : dotHyphen counts input = text) : input = text := by
  by_cases hhyphen : '-' ∈ input
  · cases counts with
    | false => exact hinput
    | true =>
        obtain ⟨before, after, rfl, hbefore⟩ := List.eq_append_cons_of_mem hhyphen
        rw [dotHyphen_append (fun _ => hbefore), dotHyphen_separator (Or.inr ⟨rfl, rfl⟩)] at hinput
        exact absurd (by simp [← hinput]) htext
  · rw [← hinput, dotHyphen_of_not_mem hhyphen]

/-! ## Cutting at dots -/

theorem dot_not_mem_lowercasePart {afterCased : Bool} {rest part : List Char}
    (hpart : '.' ∉ part) : '.' ∉ lowercasePart afterCased rest part := by
  rwa [mem_lowercasePart_iff_of_caseless (by decide)]

/-- A text is cut before its conversion as well as after it. -/
theorem splitOn_lowercaseAfter {part : List Char} (hpart : '.' ∉ part) (afterCased : Bool)
    (rest : List Char) :
    (lowercaseAfter afterCased (part ++ '.' :: rest)).splitOn '.' =
      lowercasePart afterCased ('.' :: rest) part ::
        (lowercaseAfter (part.foldl endsCased afterCased) rest).splitOn '.' := by
  have hdot : Settled '.' := Caseless.settled (by decide)
  rw [lowercaseAfter_append, lowercaseAfter_cons, lowered_of_settled hdot, endsCased_dot,
    List.singleton_append,
    List.splitOn_append_cons_self_of_not_mem (dot_not_mem_lowercasePart hpart)]

/-- A text without a dot is one component. -/
theorem splitOn_lowercaseAfter_of_not_mem {part : List Char} (hpart : '.' ∉ part)
    (afterCased : Bool) :
    (lowercaseAfter afterCased part).splitOn '.' = [lowercasePart afterCased [] part] := by
  rw [← lowercasePart_nil, List.splitOn_eq_singleton (dot_not_mem_lowercasePart hpart)]

theorem dropMark_append_dot (text rest : List Char) :
    dropMark (text ++ '.' :: rest) = dropMark text ++ '.' :: rest := by
  cases text with
  | nil => rfl
  | cons c text =>
      simp only [List.cons_append, dropMark]
      split <;> rfl

theorem mem_of_mem_dropMark {c : Char} {text : List Char} (hc : c ∈ dropMark text) : c ∈ text := by
  cases text with
  | nil => exact hc
  | cons d text =>
      rw [dropMark] at hc
      split at hc
      · exact List.mem_cons_of_mem d hc
      · exact hc

/-- The mark belongs to the first component. -/
theorem components_of_dotted {input part rest : List Char} (hpart : '.' ∉ part)
    (hinput : dotFirstHyphen input = part ++ '.' :: rest) :
    components input =
      dropMark (lowercasePart false ('.' :: rest) part) ::
        (lowercaseAfter (part.foldl endsCased false) rest).splitOn '.' := by
  have hdot : Settled '.' := Caseless.settled (by decide)
  have hmark : '.' ∉ dropMark (lowercasePart false ('.' :: rest) part) :=
    fun hmem => dot_not_mem_lowercasePart hpart (mem_of_mem_dropMark hmem)
  rw [components, hinput, lowercase, lowercaseAfter_append, lowercaseAfter_cons,
    lowered_of_settled hdot, endsCased_dot, List.singleton_append, dropMark_append_dot,
    List.splitOn_append_cons_self_of_not_mem hmark]

/-! ## Numerals -/

theorem caseless_of_isNumeral {digits : List Char} (hdigits : Numeral.isNumeral digits = true) :
    ∀ c ∈ digits, Caseless c :=
  fun c hc => caseless_of_isDigit ((Numeral.isNumeral_iff.mp hdigits).2 c hc)

theorem lowercasePart_of_isNumeral {digits : List Char}
    (hdigits : Numeral.isNumeral digits = true) (afterCased : Bool) (rest : List Char) :
    lowercasePart afterCased rest digits = digits :=
  lowercasePart_of_settled (fun c hc => (caseless_of_isNumeral hdigits c hc).settled)
    afterCased rest

theorem map_toLower_of_isNumeral {digits : List Char} (hdigits : Numeral.isNumeral digits = true) :
    digits.map Char.toLower = digits := by
  calc
    digits.map Char.toLower = lowercasePart false [] digits :=
      (lowercasePart_of_ascii (fun c hc => (caseless_of_isNumeral hdigits c hc).1) false []).symm
    _ = digits := lowercasePart_of_isNumeral hdigits false []

/-- Only a text without letters has an image without letters. -/
theorem lowercasePart_eq_of_caseless {afterCased : Bool} {rest part : List Char}
    (himage : ∀ d ∈ lowercasePart afterCased rest part, Caseless d) :
    lowercasePart afterCased rest part = part := by
  apply lowercasePart_of_settled
  induction part generalizing afterCased with
  | nil => simp
  | cons c part ih =>
      simp only [lowercasePart_cons, List.mem_append] at himage
      intro d hd
      rcases List.mem_cons.mp hd with rfl | htail
      · obtain ⟨e, he⟩ := List.exists_mem_of_ne_nil _ (lowered_ne_nil afterCased d (part ++ rest))
        have hcaseless := himage e (Or.inl he)
        rw [(mem_lowered_iff_of_caseless hcaseless).mp he]
        exact hcaseless.settled
      · exact ih (fun e he => himage e (Or.inr he)) d htail

/-- No text but a numeral becomes one in lower case. -/
theorem lowercasePart_eq_of_isNumeral {afterCased : Bool} {rest part : List Char}
    (himage : Numeral.isNumeral (lowercasePart afterCased rest part) = true) :
    lowercasePart afterCased rest part = part :=
  lowercasePart_eq_of_caseless (caseless_of_isNumeral himage)

/-- A mark that may stand before the numbers. -/
def IsMark (mark : List Char) : Prop :=
  mark = [] ∨ mark = ['v'] ∨ mark = ['V']

theorem not_separator_of_isNumeral {digits : List Char}
    (hdigits : Numeral.isNumeral digits = true) : ∀ c ∈ digits, c ≠ '.' ∧ c ≠ '-' := by
  intro c hc
  have hdigit := (Numeral.isNumeral_iff.mp hdigits).2 c hc
  constructor
  · rintro rfl
    exact absurd hdigit (by decide)
  · rintro rfl
    exact absurd hdigit (by decide)

theorem not_separator_of_marked {mark digits : List Char} (hmark : IsMark mark)
    (hdigits : Numeral.isNumeral digits = true) : ∀ c ∈ mark ++ digits, c ≠ '.' ∧ c ≠ '-' := by
  intro c hc
  rcases List.mem_append.mp hc with hc | hc
  · rcases hmark with rfl | rfl | rfl
    · contradiction
    · rw [List.mem_singleton.mp hc]
      decide
    · rw [List.mem_singleton.mp hc]
      decide
  · exact not_separator_of_isNumeral hdigits c hc

/-- Without its mark the first component is its numeral. -/
theorem dropMark_lowercasePart {mark digits : List Char} (hmark : IsMark mark)
    (hdigits : Numeral.isNumeral digits = true) (afterCased : Bool) (rest : List Char) :
    dropMark (lowercasePart afterCased rest (mark ++ digits)) = digits := by
  have hascii : ∀ c ∈ mark ++ digits, c.toNat < 0x80 := by
    intro c hc
    rcases List.mem_append.mp hc with hc | hc
    · rcases hmark with rfl | rfl | rfl
      · contradiction
      · rw [List.mem_singleton.mp hc]
        decide
      · rw [List.mem_singleton.mp hc]
        decide
    · exact (caseless_of_isNumeral hdigits c hc).1
  rw [lowercasePart_of_ascii hascii, List.map_append, map_toLower_of_isNumeral hdigits]
  rcases hmark with rfl | rfl | rfl
  · cases digits with
    | nil => rfl
    | cons c digits =>
        have hc : c ≠ 'v' := by
          rintro rfl
          exact absurd (caseless_of_isNumeral hdigits 'v' List.mem_cons_self) (by decide)
        rw [List.map_nil, List.nil_append, dropMark, if_neg hc]
  · rfl
  · rfl

/-- Only the two letters that are marks give a mark in lower case. -/
theorem lowered_eq_v {afterCased : Bool} {c : Char} {rest image : List Char}
    (himage : lowered afterCased c rest = 'v' :: image) : (c = 'v' ∨ c = 'V') ∧ image = [] := by
  rw [lowered] at himage
  split at himage
  · rw [List.cons.injEq] at himage
    split at himage <;> exact absurd himage.1 (by decide)
  · split at himage
    · rw [List.cons.injEq] at himage
      exact absurd himage.1 (by decide)
    · rw [List.cons.injEq] at himage
      exact ⟨lowercaseChar_eq_v_iff.mp himage.1, himage.2.symm⟩

/-- A first component that is a numeral was one before, behind a mark or none. -/
theorem exists_mark_of_isNumeral {afterCased : Bool} {rest part digits : List Char}
    (hdigits : Numeral.isNumeral digits = true)
    (hpart : dropMark (lowercasePart afterCased rest part) = digits) :
    ∃ mark, IsMark mark ∧ part = mark ++ digits := by
  cases part with
  | nil =>
      rw [← hpart] at hdigits
      contradiction
  | cons c part =>
      rw [lowercasePart_cons] at hpart
      obtain ⟨d, image, himage⟩ :=
        List.exists_cons_of_ne_nil (lowered_ne_nil afterCased c (part ++ rest))
      rw [himage, List.cons_append, dropMark] at hpart
      split at hpart
      · next hd =>
          rw [hd] at himage
          obtain ⟨hc, rfl⟩ := lowered_eq_v himage
          rw [List.nil_append] at hpart
          rw [← hpart] at hdigits
          have hsame := lowercasePart_eq_of_isNumeral hdigits
          refine ⟨[c], ?_, ?_⟩
          · rcases hc with rfl | rfl
            · exact Or.inr (Or.inl rfl)
            · exact Or.inr (Or.inr rfl)
          · rw [← hpart, hsame]
            rfl
      · have himage' : lowercasePart afterCased rest (c :: part) = digits := by
          rw [lowercasePart_cons, himage, List.cons_append]
          exact hpart
        refine ⟨[], Or.inl rfl, ?_⟩
        rw [← himage'] at hdigits
        rw [List.nil_append, ← himage', lowercasePart_eq_of_isNumeral hdigits]

/-! ## From components back to the text -/

/-- A first component that is a numeral stands in the text as it is, behind a mark or none and
before a separator. -/
theorem exists_of_components_eq_cons {input digits : List Char} {others : List (List Char)}
    (hcomponents : components input = digits :: others) (hothers : others ≠ [])
    (hdigits : Numeral.isNumeral digits = true) :
    ∃ mark separator rest, IsMark mark ∧ input = mark ++ digits ++ separator :: rest ∧
      IsSeparator true separator ∧
      (lowercaseAfter false (dotHyphen (true && separator != '-') rest)).splitOn '.' = others := by
  by_cases hdot : '.' ∈ dotFirstHyphen input
  · obtain ⟨part, rest, hinput, hpart⟩ := List.eq_append_cons_of_mem hdot
    rw [components_of_dotted hpart hinput, List.cons.injEq] at hcomponents
    obtain ⟨hfirst, hrest⟩ := hcomponents
    obtain ⟨mark, hmark, rfl⟩ := exists_mark_of_isNumeral hdigits hfirst
    obtain ⟨separator, rest', hinput', hseparator, hrest'⟩ :=
      exists_separator_of_dotHyphen true (not_separator_of_marked hmark hdigits) hinput
    obtain ⟨hne, hall⟩ := Numeral.isNumeral_iff.mp hdigits
    rw [List.foldl_append, foldl_endsCased_of_digits hne hall, ← hrest'] at hrest
    exact ⟨mark, separator, rest', hmark, hinput', hseparator, hrest⟩
  · have hsingle : components input =
        [dropMark (lowercasePart false [] (dotFirstHyphen input))] := by
      rw [components, lowercase, ← lowercasePart_nil]
      exact List.splitOn_eq_singleton
        fun hmem => dot_not_mem_lowercasePart hdot (mem_of_mem_dropMark hmem)
    rw [hsingle, List.cons.injEq] at hcomponents
    exact absurd hcomponents.2.symm hothers

/-- A later component that is a numeral stands in the text as it is, at the end of the text or
before a separator. -/
theorem exists_of_splitOn_eq_cons {counts : Bool} {input digits : List Char}
    {others : List (List Char)}
    (hcomponents : (lowercaseAfter false (dotHyphen counts input)).splitOn '.' = digits :: others)
    (hdigits : Numeral.isNumeral digits = true) :
    (input = digits ∧ others = []) ∨
      ∃ separator rest, input = digits ++ separator :: rest ∧ IsSeparator counts separator ∧
        (lowercaseAfter false (dotHyphen (counts && separator != '-') rest)).splitOn '.' =
          others := by
  by_cases hdot : '.' ∈ dotHyphen counts input
  · right
    obtain ⟨part, rest, hinput, hpart⟩ := List.eq_append_cons_of_mem hdot
    rw [hinput, splitOn_lowercaseAfter hpart, List.cons.injEq] at hcomponents
    obtain ⟨rfl, hrest⟩ := hcomponents
    have hsame := lowercasePart_eq_of_isNumeral hdigits
    rw [hsame] at hdigits ⊢
    obtain ⟨separator, rest', hinput', hseparator, hrest'⟩ :=
      exists_separator_of_dotHyphen counts (not_separator_of_isNumeral hdigits) hinput
    obtain ⟨hne, hall⟩ := Numeral.isNumeral_iff.mp hdigits
    rw [foldl_endsCased_of_digits hne hall, ← hrest'] at hrest
    exact ⟨separator, rest', hinput', hseparator, hrest⟩
  · left
    rw [splitOn_lowercaseAfter_of_not_mem hdot, List.cons.injEq] at hcomponents
    obtain ⟨rfl, hothers⟩ := hcomponents
    rw [lowercasePart_eq_of_isNumeral hdigits]
    exact ⟨eq_of_dotHyphen hdot rfl, hothers.symm⟩

end Freshness.Version
