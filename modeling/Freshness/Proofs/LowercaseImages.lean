import Mathlib
import Freshness.Unicode.Lowercase

/-!
# Lower-case images of characters

The case conversion reads a table of runs.  Everything proved about converted text rests on three
facts about that table, which are checked by evaluation (`lowercaseRuns_checked`): nothing that
the conversion makes is changed by it, the images are characters, and hardly any image is ASCII.
From the first it follows that a converted character is not changed by another conversion
(`settled_of_mem_lowered`), and from the last that digits, dots and hyphens stay where they are and
that no others appear (`mem_lowered_iff_of_caseless`).
-/

namespace Freshness.Unicode

/-! ## The table -/

/-- The union of sets of numbers, each of which is kept as the bits of one number. -/
def bitUnion {A : Type} (set : A → Nat) (indices : List A) : Nat :=
  indices.foldr (fun a bits => set a ||| bits) 0

/-- The first `count` multiples of the stride. -/
def stepBits (stride : Nat) : Nat → Nat
  | 0 => 0
  | count + 1 => 1 ||| stepBits stride count <<< stride

/-- The code points of the run, or their images, depending on where they start. -/
def LowercaseRun.bits (run : LowercaseRun) (start : Nat) : Nat :=
  stepBits run.stride ((run.last - run.first) / run.stride + 1) <<< start

def charBits (chars : List Char) : Nat :=
  bitUnion (fun c => 1 <<< c.toNat) chars

/-- The code points that the conversion changes: those of the runs, and the two capitals that it
treats on its own. -/
def changedBits : Nat :=
  bitUnion (fun run => run.bits run.first) lowercaseRuns ||| charBits ['Σ', 'İ']

/-- The code points that the conversion makes: the images, the final sigma, and the dot above. -/
def madeBits : Nat :=
  bitUnion (fun run => run.bits run.image) lowercaseRuns ||| charBits ['ς', '\u0307']

/-- What is checked of the table: nothing that the conversion makes is changed by it, the small
sigma is an image, all images are characters, and ASCII has one run of its own, apart from which
only the Kelvin sign has an ASCII image. -/
theorem lowercaseRuns_checked :
    changedBits &&& madeBits = 0 ∧ madeBits.testBit 'σ'.toNat = true ∧
      ∀ run ∈ lowercaseRuns,
        (run.image + (run.last - run.first) < 0xD800 ∨
          0xDFFF < run.image ∧ run.image + (run.last - run.first) < 0x110000) ∧
        ((run.first = 0x41 ∧ run.last = 0x5A ∧ run.image = 0x61) ∨
          (run.first = 0x212A ∧ run.last = 0x212A ∧ run.image = 0x6B) ∨
          0x80 ≤ run.first ∧ 0x80 ≤ run.image) := by
  decide +kernel

theorem LowercaseRun.holds_iff {run : LowercaseRun} {code : Nat} :
    run.holds code = true ↔
      run.first ≤ code ∧ code ≤ run.last ∧ (code - run.first) % run.stride = 0 := by
  simp [LowercaseRun.holds, and_assoc]

theorem testBit_bitUnion {A : Type} {set : A → Nat} {indices : List A} {i : Nat} :
    (bitUnion set indices).testBit i = true ↔ ∃ a ∈ indices, (set a).testBit i = true := by
  induction indices with
  | nil => simp [bitUnion]
  | cons a indices ih =>
      rw [bitUnion, List.foldr_cons, Nat.testBit_or, Bool.or_eq_true, List.exists_mem_cons_iff,
        ← ih]
      rfl

theorem testBit_stepBits {stride count k : Nat} (hk : k < count) :
    (stepBits stride count).testBit (k * stride) = true := by
  induction count generalizing k with
  | zero => contradiction
  | succ count ih =>
      rw [stepBits, Nat.testBit_or, Bool.or_eq_true]
      cases k with
      | zero =>
          left
          rw [Nat.zero_mul]
          rfl
      | succ k =>
          right
          have hbit := ih (Nat.lt_of_succ_lt_succ hk)
          rw [Nat.testBit_shiftLeft, Nat.succ_mul, Nat.add_sub_cancel, hbit]
          simp

/-- The bits of a run hold what the run holds, moved to where they start. -/
theorem LowercaseRun.testBit_bits {run : LowercaseRun} {code : Nat}
    (hholds : run.holds code = true) (start : Nat) :
    (run.bits start).testBit (start + (code - run.first)) = true := by
  obtain ⟨-, hlast, hstride⟩ := holds_iff.mp hholds
  have hsteps : (code - run.first) / run.stride * run.stride = code - run.first :=
    Nat.div_mul_cancel (Nat.dvd_of_mod_eq_zero hstride)
  have hcount : (code - run.first) / run.stride < (run.last - run.first) / run.stride + 1 :=
    Nat.lt_succ_of_le (Nat.div_le_div_right (Nat.sub_le_sub_right hlast run.first))
  have hbit := @testBit_stepBits run.stride _ _ hcount
  rw [hsteps] at hbit
  simp [bits, Nat.testBit_shiftLeft, hbit]

theorem testBit_charBits {c : Char} {chars : List Char} (hc : c ∈ chars) :
    (charBits chars).testBit c.toNat = true :=
  testBit_bitUnion.mpr ⟨c, hc, by simp⟩

theorem changed_of_holds {run : LowercaseRun} {code : Nat} (hrun : run ∈ lowercaseRuns)
    (hholds : run.holds code = true) : changedBits.testBit code = true := by
  have hbit : (run.bits run.first).testBit code = true := by
    have hbits := LowercaseRun.testBit_bits hholds run.first
    rwa [Nat.add_sub_of_le (LowercaseRun.holds_iff.mp hholds).1] at hbits
  have hunion : (bitUnion (fun run => run.bits run.first) lowercaseRuns).testBit code = true :=
    testBit_bitUnion.mpr ⟨run, hrun, hbit⟩
  rw [changedBits, Nat.testBit_or, hunion, Bool.true_or]

theorem changed_of_mem {c : Char} (hc : c ∈ ['Σ', 'İ']) : changedBits.testBit c.toNat = true := by
  rw [changedBits, Nat.testBit_or, testBit_charBits hc, Bool.or_true]

theorem made_of_holds {run : LowercaseRun} {code : Nat} (hrun : run ∈ lowercaseRuns)
    (hholds : run.holds code = true) :
    madeBits.testBit (run.image + (code - run.first)) = true := by
  have hunion : (bitUnion (fun run => run.bits run.image) lowercaseRuns).testBit
      (run.image + (code - run.first)) = true :=
    testBit_bitUnion.mpr ⟨run, hrun, LowercaseRun.testBit_bits hholds run.image⟩
  rw [madeBits, Nat.testBit_or, hunion, Bool.true_or]

theorem made_of_mem {c : Char} (hc : c ∈ ['ς', '\u0307']) : madeBits.testBit c.toNat = true := by
  rw [madeBits, Nat.testBit_or, testBit_charBits hc, Bool.or_true]

/-- No code point that the conversion makes is one that it changes. -/
theorem not_changed_of_made {code : Nat} (hmade : madeBits.testBit code = true) :
    changedBits.testBit code = false := by
  have hboth : (changedBits &&& madeBits).testBit code = false := by
    rw [lowercaseRuns_checked.1, Nat.zero_testBit]
  rwa [Nat.testBit_and, hmade, Bool.and_true] at hboth

/-- The image of a code point is itself, or is given by a run. -/
theorem lowercaseCode_cases (code : Nat) :
    (lowercaseCode code = code ∧ ∀ run ∈ lowercaseRuns, run.holds code = false) ∨
      ∃ run ∈ lowercaseRuns, run.holds code = true ∧
        lowercaseCode code = run.image + (code - run.first) := by
  rw [lowercaseCode]
  cases hfind : lowercaseRuns.find? (·.holds code) with
  | none =>
      left
      simpa using hfind
  | some run =>
      right
      exact ⟨run, List.mem_of_find?_eq_some hfind, by simpa using List.find?_some hfind, rfl⟩

/-- Outside the runs a code point is its own image. -/
theorem lowercaseCode_of_not_holds {code : Nat}
    (hnone : ∀ run ∈ lowercaseRuns, run.holds code = false) : lowercaseCode code = code := by
  rcases lowercaseCode_cases code with ⟨hcode, _⟩ | ⟨run, hrun, hholds, _⟩
  · exact hcode
  · rw [hnone run hrun] at hholds
    contradiction

theorem isValidChar_lowercaseCode {code : Nat} (hcode : code.isValidChar) :
    (lowercaseCode code).isValidChar := by
  rcases lowercaseCode_cases code with ⟨hsame, _⟩ | ⟨run, hrun, hholds, himage⟩
  · rw [hsame]
    exact hcode
  · rw [himage]
    rw [LowercaseRun.holds_iff] at hholds
    obtain ⟨hvalid, -⟩ := lowercaseRuns_checked.2.2 run hrun
    rw [Nat.isValidChar]
    omega

@[simp]
theorem toNat_lowercaseChar (c : Char) : (lowercaseChar c).toNat = lowercaseCode c.toNat := by
  have hvalid : (lowercaseCode c.toNat).isValidChar := isValidChar_lowercaseCode c.valid
  rw [lowercaseChar]
  rw [Char.toNat_ofNat, if_pos hvalid]

/-- What the conversion makes has itself as its image. -/
theorem lowercaseChar_of_made {c : Char} (hmade : madeBits.testBit c.toNat = true) :
    lowercaseChar c = c := by
  apply Char.toNat_inj.mp
  rw [toNat_lowercaseChar]
  apply lowercaseCode_of_not_holds
  intro run hrun
  rw [← Bool.not_eq_true]
  intro hholds
  have hchanged := changed_of_holds hrun hholds
  rw [not_changed_of_made hmade] at hchanged
  contradiction

/-! ## ASCII -/

/-- Among ASCII characters only capitals are changed, to the small letter. -/
theorem lowercaseCode_of_ascii {code : Nat} (hcode : code < 0x80) :
    lowercaseCode code = if 0x41 ≤ code ∧ code ≤ 0x5A then code + 0x20 else code := by
  rcases lowercaseCode_cases code with ⟨hsame, hnone⟩ | ⟨run, hrun, hholds, himage⟩
  · have hletter := hnone ⟨0x41, 0x5A, 1, 0x61⟩ (by unfold lowercaseRuns; exact List.mem_cons_self)
    rw [← Bool.not_eq_true, LowercaseRun.holds_iff] at hletter
    rw [hsame, if_neg (by simpa [Nat.mod_one] using hletter)]
  · rw [LowercaseRun.holds_iff] at hholds
    obtain ⟨-, hascii⟩ := lowercaseRuns_checked.2.2 run hrun
    rw [himage, if_pos (by omega)]
    omega

theorem isUpper_iff_toNat {c : Char} : c.isUpper = true ↔ 0x41 ≤ c.toNat ∧ c.toNat ≤ 0x5A := by
  simp [Char.isUpper, UInt32.le_iff_toNat_le]

theorem toNat_toLower_of_isUpper {c : Char} (hupper : c.isUpper = true) :
    c.toLower.toNat = c.toNat + 0x20 := by
  have hrange := isUpper_iff_toNat.mp hupper
  have hvalid : (c.toNat + 0x20).isValidChar := by
    rw [Nat.isValidChar]
    omega
  rw [Char.toLower_eq_of_isUpper hupper, Char.toNat_ofNat, if_pos hvalid]

/-- On ASCII the conversion changes the letters `A` to `Z` only. -/
theorem lowercaseChar_of_ascii {c : Char} (hc : c.toNat < 0x80) : lowercaseChar c = c.toLower := by
  apply Char.toNat_inj.mp
  rw [toNat_lowercaseChar, lowercaseCode_of_ascii hc]
  split
  · next hrange => rw [toNat_toLower_of_isUpper (isUpper_iff_toNat.mpr hrange)]
  · next hrange => rw [Char.toLower_eq_of_not_isUpper (mt isUpper_iff_toNat.mp hrange)]

/-- A character that is not ASCII has no single ASCII image but `k`, which is that of the Kelvin
sign. -/
theorem ascii_of_lowercaseChar {c : Char} (hc : (lowercaseChar c).toNat < 0x80) :
    c.toNat < 0x80 ∨ lowercaseChar c = 'k' := by
  rw [toNat_lowercaseChar] at hc
  rcases lowercaseCode_cases c.toNat with ⟨hsame, _⟩ | ⟨run, hrun, hholds, himage⟩
  · left
    rwa [hsame] at hc
  · rw [LowercaseRun.holds_iff] at hholds
    rw [himage] at hc
    obtain ⟨-, hletters | hkelvin | hother⟩ := lowercaseRuns_checked.2.2 run hrun
    · left
      omega
    · right
      apply Char.toNat_inj.mp
      rw [toNat_lowercaseChar, himage]
      change _ = 0x6B
      omega
    · omega

/-- An ASCII character that is no letter, such as a digit, a dot or a hyphen. -/
def Caseless (c : Char) : Prop :=
  c.toNat < 0x80 ∧ c.isAlpha = false

instance : DecidablePred Caseless := fun c =>
  inferInstanceAs (Decidable (c.toNat < 0x80 ∧ c.isAlpha = false))

theorem caseless_of_isDigit {c : Char} (hc : c.isDigit = true) : Caseless c := by
  rw [Char.isDigit_iff_toNat] at hc
  change 48 ≤ c.toNat ∧ c.toNat ≤ 57 at hc
  constructor
  · omega
  · simp only [Char.isAlpha, Char.isUpper, Char.isLower, Bool.or_eq_false_iff,
      Bool.and_eq_false_iff, decide_eq_false_iff_not, ge_iff_le, UInt32.le_iff_toNat_le]
    change ¬(65 ≤ c.toNat ∧ c.toNat ≤ 90) ∧ (¬97 ≤ c.toNat ∨ ¬c.toNat ≤ 122)
    omega

theorem Caseless.not_isUpper {c : Char} (hc : Caseless c) : ¬c.isUpper = true := by
  have halpha := hc.2
  simp only [Char.isAlpha, Bool.or_eq_false_iff] at halpha
  simp [halpha.1]

/-- Digits, dots and hyphens are the image of nothing but themselves. -/
theorem lowercaseChar_eq_iff_of_caseless {c d : Char} (hd : Caseless d) :
    lowercaseChar c = d ↔ c = d := by
  constructor
  · rintro rfl
    rcases ascii_of_lowercaseChar hd.1 with hc | hkelvin
    · have hcaseless : Caseless c := by
        refine ⟨hc, ?_⟩
        rw [← Char.isAlpha_toLower_eq_isAlpha, ← lowercaseChar_of_ascii hc]
        exact hd.2
      rw [lowercaseChar_of_ascii hc, Char.toLower_eq_of_not_isUpper hcaseless.not_isUpper]
    · rw [hkelvin] at hd
      exact absurd hd (by decide)
  · rintro rfl
    rw [lowercaseChar_of_ascii hd.1, Char.toLower_eq_of_not_isUpper hd.not_isUpper]

theorem lowercaseChar_eq_v_iff {c : Char} : lowercaseChar c = 'v' ↔ c = 'v' ∨ c = 'V' := by
  constructor
  · intro hc
    rcases ascii_of_lowercaseChar (c := c) (by rw [hc]; decide) with hascii | hkelvin
    · rw [lowercaseChar_of_ascii hascii] at hc
      by_cases hupper : c.isUpper = true
      · right
        have hcode := congrArg Char.toNat hc
        rw [toNat_toLower_of_isUpper hupper] at hcode
        apply Char.toNat_inj.mp
        change c.toNat + 0x20 = 118 at hcode
        change c.toNat = 86
        omega
      · left
        rwa [Char.toLower_eq_of_not_isUpper hupper] at hc
    · rw [hkelvin] at hc
      exact absurd hc (by decide)
  · rintro (rfl | rfl) <;> rfl

/-! ## Characters that stay as they are -/

/-- The conversion leaves the character as it is, wherever it stands. -/
def Settled (c : Char) : Prop :=
  c ≠ 'Σ' ∧ c ≠ 'İ' ∧ lowercaseChar c = c

theorem lowered_of_settled {c : Char} (hc : Settled c) (afterCased : Bool) (rest : List Char) :
    lowered afterCased c rest = [c] := by
  obtain ⟨hsigma, hdotted, hsame⟩ := hc
  rw [lowered, if_neg hsigma, if_neg hdotted, hsame]

theorem settled_of_ascii {c : Char} (hascii : c.toNat < 0x80) (hupper : ¬c.isUpper = true) :
    Settled c := by
  refine ⟨?_, ?_, ?_⟩
  · rintro rfl
    exact absurd hascii (by decide)
  · rintro rfl
    exact absurd hascii (by decide)
  · rw [lowercaseChar_of_ascii hascii, Char.toLower_eq_of_not_isUpper hupper]

/-- What the conversion makes it leaves alone. -/
theorem settled_of_made {c : Char} (hmade : madeBits.testBit c.toNat = true) : Settled c := by
  have hcapital : c ∉ ['Σ', 'İ'] := by
    intro hc
    have hchanged := changed_of_mem hc
    rw [not_changed_of_made hmade] at hchanged
    contradiction
  simp only [List.mem_cons, List.not_mem_nil, or_false, not_or] at hcapital
  exact ⟨hcapital.1, hcapital.2, lowercaseChar_of_made hmade⟩

theorem settled_lowercaseChar {c : Char} (hsigma : c ≠ 'Σ') (hdotted : c ≠ 'İ') :
    Settled (lowercaseChar c) := by
  rcases lowercaseCode_cases c.toNat with ⟨hsame, _⟩ | ⟨run, hrun, hholds, himage⟩
  · have hchar : lowercaseChar c = c := by
      apply Char.toNat_inj.mp
      rw [toNat_lowercaseChar, hsame]
    rw [hchar]
    exact ⟨hsigma, hdotted, hchar⟩
  · apply settled_of_made
    rw [toNat_lowercaseChar, himage]
    exact made_of_holds hrun hholds

/-- A converted character is not changed by another conversion. -/
theorem settled_of_mem_lowered {afterCased : Bool} {c d : Char} {rest : List Char}
    (hd : d ∈ lowered afterCased c rest) : Settled d := by
  rw [lowered] at hd
  split at hd
  · rw [List.mem_singleton] at hd
    subst hd
    split
    · exact settled_of_made (made_of_mem (by simp))
    · exact settled_of_made lowercaseRuns_checked.2.1
  · split at hd
    · simp only [List.mem_cons, List.not_mem_nil, or_false] at hd
      rcases hd with rfl | rfl
      · exact settled_of_ascii (by decide) (by decide)
      · exact settled_of_made (made_of_mem (by simp))
    · rw [List.mem_singleton] at hd
      subst hd
      exact settled_lowercaseChar ‹_› ‹_›

theorem Caseless.settled {c : Char} (hc : Caseless c) : Settled c :=
  settled_of_ascii hc.1 hc.not_isUpper

/-- Digits, dots and hyphens are the images of themselves and of nothing else. -/
theorem mem_lowered_iff_of_caseless {afterCased : Bool} {c d : Char} {rest : List Char}
    (hd : Caseless d) : d ∈ lowered afterCased c rest ↔ c = d := by
  rw [lowered]
  split
  · next hsigma =>
      subst hsigma
      rw [List.mem_singleton]
      constructor
      · rintro rfl
        split at hd <;> exact absurd hd (by decide)
      · rintro rfl
        exact absurd hd (by decide)
  · split
    · next hdotted =>
        subst hdotted
        simp only [List.mem_cons, List.not_mem_nil, or_false]
        constructor
        · rintro (rfl | rfl) <;> exact absurd hd (by decide)
        · rintro rfl
          exact absurd hd (by decide)
    · rw [List.mem_singleton, eq_comm]
      exact lowercaseChar_eq_iff_of_caseless hd

theorem lowered_ne_nil (afterCased : Bool) (c : Char) (rest : List Char) :
    lowered afterCased c rest ≠ [] := by
  rw [lowered]
  split
  · simp
  · split <;> simp

end Freshness.Unicode
