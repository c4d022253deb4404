import Freshness.Proofs.LowercaseImages

/-!
# Lower case in place

A part of a text is converted in its place: what stands before it and what follows it decide the
form of a sigma.  Two texts put together are converted part by part (`lowercaseAfter_append`), so
a text can be cut before or after the conversion.  A part without a capital sigma is converted in
the same way everywhere (`lowercasePart_congr`).
-/

namespace Freshness.Unicode

/-- The lower-case image of a text that stands after a cased letter or not and before `rest`. -/
def lowercasePart (afterCased : Bool) (rest : List Char) : List Char → List Char
  | [] => []
  | c :: text =>
      lowered afterCased c (text ++ rest) ++ lowercasePart (endsCased afterCased c) rest text

/-- The lower-case image of `text` where it stands between two other texts. -/
def lowercaseBetween (before text rest : List Char) : List Char :=
  lowercasePart (before.foldl endsCased false) rest text

theorem lowercaseAfter_cons (afterCased : Bool) (c : Char) (text : List Char) :
    lowercaseAfter afterCased (c :: text) =
      lowered afterCased c text ++ lowercaseAfter (endsCased afterCased c) text := rfl

theorem lowercasePart_cons (afterCased : Bool) (rest : List Char) (c : Char) (text : List Char) :
    lowercasePart afterCased rest (c :: text) =
      lowered afterCased c (text ++ rest) ++
        lowercasePart (endsCased afterCased c) rest text := rfl

/-- A text is converted part by part, each in its place between the others. -/
theorem lowercaseAfter_append (afterCased : Bool) (text rest : List Char) :
    lowercaseAfter afterCased (text ++ rest) =
      lowercasePart afterCased rest text ++
        lowercaseAfter (text.foldl endsCased afterCased) rest := by
  induction text generalizing afterCased with
  | nil => rfl
  | cons c text ih =>
      rw [List.cons_append, lowercaseAfter_cons, lowercasePart_cons, List.foldl_cons, ih,
        List.append_assoc]

@[simp]
theorem lowercasePart_nil (afterCased : Bool) (text : List Char) :
    lowercasePart afterCased [] text = lowercaseAfter afterCased text := by
  have happend := lowercaseAfter_append afterCased text []
  rw [List.append_nil] at happend
  exact (happend.trans (List.append_nil _)).symm

/-- A text is converted part by part, each part in its place. -/
theorem lowercase_append_append (before text rest : List Char) :
    lowercase (before ++ text ++ rest) =
      lowercaseBetween [] before (text ++ rest) ++ lowercaseBetween before text rest ++
        lowercaseBetween (before ++ text) rest [] := by
  simp only [lowercase, lowercaseBetween, List.append_assoc, lowercaseAfter_append,
    lowercasePart_nil, List.foldl_nil, List.foldl_append]

/-! ## The characters of an image -/

/-- What is in lower case stays as it is. -/
theorem settled_of_mem_lowercasePart {afterCased : Bool} {rest text : List Char} {d : Char}
    (hd : d ∈ lowercasePart afterCased rest text) : Settled d := by
  induction text generalizing afterCased with
  | nil => exact absurd hd List.not_mem_nil
  | cons c text ih =>
      rw [lowercasePart_cons, List.mem_append] at hd
      rcases hd with hhead | htail
      · exact settled_of_mem_lowered hhead
      · exact ih htail

theorem mem_lowercasePart_iff_of_caseless {afterCased : Bool} {rest text : List Char} {d : Char}
    (hd : Caseless d) : d ∈ lowercasePart afterCased rest text ↔ d ∈ text := by
  induction text generalizing afterCased with
  | nil => exact Iff.rfl
  | cons c text ih =>
      rw [lowercasePart_cons, List.mem_append, mem_lowered_iff_of_caseless hd, ih, List.mem_cons,
        eq_comm]

theorem lowercasePart_of_settled {text : List Char} (htext : ∀ c ∈ text, Settled c)
    (afterCased : Bool) (rest : List Char) : lowercasePart afterCased rest text = text := by
  induction text generalizing afterCased with
  | nil => rfl
  | cons c text ih =>
      rw [lowercasePart_cons, lowered_of_settled (htext c List.mem_cons_self),
        ih fun d hd => htext d (List.mem_cons_of_mem c hd)]
      rfl

/-- A text is in lower case when all its characters are, since none of them is a capital sigma. -/
theorem lowercase_eq_self_iff {text : List Char} :
    lowercase text = text ↔ ∀ c ∈ text, Settled c := by
  constructor
  · intro hsame c hc
    rw [← hsame, lowercase, ← lowercasePart_nil] at hc
    exact settled_of_mem_lowercasePart hc
  · intro htext
    rw [lowercase, ← lowercasePart_nil]
    exact lowercasePart_of_settled htext false []

/-! ## Parts that are converted in the same way everywhere -/

/-- Without a capital sigma the place of a text makes no difference. -/
theorem lowercasePart_congr {text : List Char} (hsigma : 'Σ' ∉ text)
    (afterCased afterCased' : Bool) (rest rest' : List Char) :
    lowercasePart afterCased rest text = lowercasePart afterCased' rest' text := by
  induction text generalizing afterCased afterCased' with
  | nil => rfl
  | cons c text ih =>
      rw [List.mem_cons, not_or] at hsigma
      rw [lowercasePart_cons, lowercasePart_cons,
        lowered_of_ne_sigma (Ne.symm hsigma.1) afterCased afterCased' _ (text ++ rest'),
        ih hsigma.2]

theorem sigma_mem_lowercasePart {text : List Char} (hsigma : 'Σ' ∈ text) (afterCased : Bool)
    (rest : List Char) :
    'σ' ∈ lowercasePart afterCased rest text ∨ 'ς' ∈ lowercasePart afterCased rest text := by
  induction text generalizing afterCased with
  | nil => contradiction
  | cons c text ih =>
      simp only [lowercasePart_cons, List.mem_append]
      rcases List.mem_cons.mp hsigma with rfl | htail
      · rw [lowered, if_pos rfl]
        split <;> simp
      · rcases ih htail (endsCased afterCased c) with hsmall | hfinal
        · exact Or.inl (Or.inr hsmall)
        · exact Or.inr (Or.inr hfinal)

/-- An image that is all ASCII does not depend on the place. -/
theorem lowercasePart_eq_of_ascii {afterCased : Bool} {rest text : List Char}
    (hascii : ∀ d ∈ lowercasePart afterCased rest text, d.toNat < 0x80)
    (afterCased' : Bool) (rest' : List Char) :
    lowercasePart afterCased' rest' text = lowercasePart afterCased rest text := by
  apply lowercasePart_congr
  intro hsigma
  rcases sigma_mem_lowercasePart hsigma afterCased rest with hsmall | hfinal
  · exact absurd (hascii _ hsmall) (by decide)
  · exact absurd (hascii _ hfinal) (by decide)

/-- ASCII text is converted letter by letter. -/
theorem lowercasePart_of_ascii {text : List Char} (hascii : ∀ c ∈ text, c.toNat < 0x80)
    (afterCased : Bool) (rest : List Char) :
    lowercasePart afterCased rest text = text.map Char.toLower := by
  induction text generalizing afterCased with
  | nil => rfl
  | cons c text ih =>
      have hc := hascii c List.mem_cons_self
      have hsigma : c ≠ 'Σ' := by
        rintro rfl
        exact absurd hc (by decide)
      have hdotted : c ≠ 'İ' := by
        rintro rfl
        exact absurd hc (by decide)
      rw [lowercasePart_cons, lowered, if_neg hsigma, if_neg hdotted, lowercaseChar_of_ascii hc,
        ih fun d hd => hascii d (List.mem_cons_of_mem c hd)]
      rfl

/-! ## What stands before a part -/

theorem endsCased_of_isDigit {c : Char} (hc : c.isDigit = true) (afterCased : Bool) :
    endsCased afterCased c = false := by
  have hdigits : ∀ n < 10, inRanges (n + 48) caseIgnorableRanges = false ∧
      inRanges (n + 48) casedRanges = false := by decide
  rw [Char.isDigit_iff_toNat] at hc
  change 48 ≤ c.toNat ∧ c.toNat ≤ 57 at hc
  have hcode := hdigits (c.toNat - 48) (by omega)
  rw [Nat.sub_add_cancel hc.1] at hcode
  simp [endsCased, isCaseIgnorable, isCased, hcode.1, hcode.2]

@[simp]
theorem endsCased_dot (afterCased : Bool) : endsCased afterCased '.' = afterCased := by
  cases afterCased <;> decide

/-- No cased letter stands before what follows a numeral. -/
theorem foldl_endsCased_of_digits {digits : List Char} (hne : digits ≠ [])
    (hdigits : ∀ c ∈ digits, c.isDigit = true) (afterCased : Bool) :
    digits.foldl endsCased afterCased = false := by
  obtain ⟨front, last, rfl⟩ := (List.eq_nil_or_concat' digits).resolve_left hne
  rw [List.foldl_append, List.foldl_cons, List.foldl_nil]
  exact endsCased_of_isDigit (hdigits last (by simp)) _

end Freshness.Unicode
