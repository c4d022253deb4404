/-!
# Decimal numerals

A numeral is a non-empty run of the digits `0` to `9`; leading zeros are allowed and do not change
its value.  Numbers are written without them, so reading back what was written gives the number
again (`value_ofNat`).
-/

namespace Freshness.Text.Numeral

def isNumeral (text : List Char) : Bool :=
  !text.isEmpty && text.all Char.isDigit

def value (digits : List Char) : Nat :=
  Nat.ofDigitChars 10 digits 0

def ofNat (n : Nat) : List Char :=
  Nat.toDigits 10 n

/-- An integer in decimal digits, with a minus sign in front of a negative one. -/
def ofInt : Int → List Char
  | .ofNat n => ofNat n
  | .negSucc n => '-' :: ofNat (n + 1)

@[simp]
theorem value_ofNat (n : Nat) : value (ofNat n) = n :=
  Nat.ofDigitChars_ten_toDigits

theorem isNumeral_iff {text : List Char} :
    isNumeral text = true ↔ text ≠ [] ∧ ∀ c ∈ text, c.isDigit = true := by
  simp [isNumeral]

theorem isNumeral_ofNat (n : Nat) : isNumeral (ofNat n) = true := by
  have h : ofNat n ≠ [] := Nat.toDigits_ne_nil
  simp only [isNumeral, Bool.and_eq_true, List.all_eq_true]
  exact ⟨by simp [h], fun c hc => Nat.isDigit_of_mem_toDigits (by decide) (by decide) hc⟩

end Freshness.Text.Numeral
