import Freshness.Unicode.LowercaseMapping
import Freshness.Unicode.CaseProperties

/-!
# Conversion to lower case

A text is lowered character by character, with two exceptions to the one-to-one rule.  The
capital `İ` becomes `i` with a dot above, and a capital sigma takes its final form `ς` at the end
of a word: where a cased letter comes before it and none after it, case-ignorable characters being
passed over on both sides.  All else depends on the character alone, so the neighbours of a
character matter only for a sigma (`lowered_of_ne_sigma`).
-/

namespace Freshness.Unicode

/-- Whether the first character that is not case-ignorable is a cased letter. -/
def startsCased : List Char → Bool
  | [] => false
  | c :: rest => if isCaseIgnorable c then startsCased rest else isCased c

/-- Whether a text ends in a cased letter once `c` is written after it, where `afterCased` says
so of the text before. -/
def endsCased (afterCased : Bool) (c : Char) : Bool :=
  if isCaseIgnorable c then afterCased else isCased c

/-- The lower-case image of `c`, which stands after a cased letter or not and before `rest`. -/
def lowered (afterCased : Bool) (c : Char) (rest : List Char) : List Char :=
  if c = 'Σ' then [if afterCased && !startsCased rest then 'ς' else 'σ']
  else if c = 'İ' then ['i', '\u0307']
  else [lowercaseChar c]

/-- The lower-case image of a text that stands after a cased letter or not. -/
def lowercaseAfter (afterCased : Bool) : List Char → List Char
  | [] => []
  | c :: rest => lowered afterCased c rest ++ lowercaseAfter (endsCased afterCased c) rest

def lowercase (text : List Char) : List Char :=
  lowercaseAfter false text

theorem lowered_of_ne_sigma {c : Char} (h : c ≠ 'Σ') (before before' : Bool)
    (rest rest' : List Char) : lowered before c rest = lowered before' c rest' := by
  simp [lowered, h]

@[simp]
theorem lowercase_nil : lowercase [] = [] := rfl

end Freshness.Unicode
