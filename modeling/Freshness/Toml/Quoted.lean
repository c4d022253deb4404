import Freshness.Toml.Text

/-!
# Quoted strings

A string stands between quotes of one of two kinds.  Between double quotes a backslash starts an
escape; between single quotes every character stands for itself.  Three quotes open a string that
may run over several lines: a line break after the opening quotes is dropped, every other one is
kept as a line feed, and a backslash at the end of a line joins it to the next one.
-/

namespace Freshness.Toml

structure Quoting where
  quote : Char
  escapes : Bool

namespace Quoting

/-- Double quotes, with escapes. -/
def basic : Quoting := ⟨'"', true⟩

/-- Single quotes, without escapes. -/
def literal : Quoting := ⟨'\'', false⟩

end Quoting

def hexDigit? (c : Char) : Option Nat :=
  if c.isDigit then some (c.toNat - '0'.toNat)
  else if 'a' ≤ c && c ≤ 'f' then some (c.toNat - 'a'.toNat + 10)
  else if 'A' ≤ c && c ≤ 'F' then some (c.toNat - 'A'.toNat + 10)
  else none

/-- The character whose code is given by the first `count` characters, in hexadecimal. -/
def codePoint? (count : Nat) (text : List Char) : Option (Char × List Char) := do
  let digits ← (text.take count).mapM hexDigit?
  let code := digits.foldl (fun value digit => 16 * value + digit) 0
  if digits.length = count ∧ code.isValidChar then some (Char.ofNat code, text.drop count)
  else none

/-- The character that an escape stands for, read after its backslash. -/
def escape? : List Char → Option (Char × List Char)
  | 'b' :: rest => some ('\x08', rest)
  | 't' :: rest => some ('\t', rest)
  | 'n' :: rest => some ('\n', rest)
  | 'f' :: rest => some ('\x0c', rest)
  | 'r' :: rest => some ('\r', rest)
  | '"' :: rest => some ('"', rest)
  | '\\' :: rest => some ('\\', rest)
  | 'u' :: rest => codePoint? 4 rest
  | 'U' :: rest => codePoint? 8 rest
  | _ => none

theorem length_of_codePoint? {count : Nat} {text rest : List Char} {c : Char}
    (h : codePoint? count text = some (c, rest)) : rest.length ≤ text.length := by
  simp only [codePoint?, Option.bind_eq_bind, Option.bind_eq_some_iff,
    Option.ite_none_right_eq_some, Option.some.injEq, Prod.mk.injEq] at h
  obtain ⟨_, _, _, _, rfl⟩ := h
  simp

theorem length_of_escape? {text rest : List Char} {c : Char}
    (h : escape? text = some (c, rest)) : rest.length < text.length := by
  unfold escape? at h
  split at h
  case h_8 | h_9 => exact Nat.lt_succ_of_le (length_of_codePoint? h)
  all_goals simp_all

/-- The text after a line break that blanks may precede, and after the blanks and line breaks that
follow it. -/
def joinLines? (text : List Char) : Option (List Char) :=
  (newline? (skipBlanks text)).map skipBreaks

theorem length_of_joinLines? {text rest : List Char} (h : joinLines? text = some rest) :
    rest.length < text.length := by
  obtain ⟨after, hafter, rfl⟩ := Option.map_eq_some_iff.1 h
  have := length_of_newline? hafter
  have := length_skipBlanks_le text
  have := length_skipBreaks_le after
  omega

/-- Reads a string of one line, after its opening quote. -/
def readLineString (quoting : Quoting) (text : List Char) : Option (List Char × List Char) :=
  match text with
  | [] => none
  | c :: rest =>
    if c = quoting.quote then some ([], rest)
    else if quoting.escapes && c = '\\' then
      match _h : escape? rest with
      | some (escaped, rest) =>
        (readLineString quoting rest).map (Prod.map (escaped :: ·) id)
      | none => none
    else if isTextChar c then
      (readLineString quoting rest).map (Prod.map (c :: ·) id)
    else none
termination_by text.length
decreasing_by
  · have := length_of_escape? _h
    simp
    omega
  · simp

/-- Reads a string of several lines, after its opening quotes.  Of the quotes at its end the last
three close it; at most two more may stand before them. -/
def readBlockString (quoting : Quoting) (text : List Char) :
    Option (List Char × List Char) :=
  match text with
  | [] => none
  | c :: rest =>
    if c = quoting.quote && (c :: rest).take 3 == List.replicate 3 c then
      let quotes := (c :: rest).takeWhile (· == c)
      if quotes.length ≤ 5 then some (quotes.drop 3, (c :: rest).drop quotes.length) else none
    else if quoting.escapes && c = '\\' then
      match _h : joinLines? rest with
      | some rest => readBlockString quoting rest
      | none =>
        match _h : escape? rest with
        | some (escaped, rest) =>
          (readBlockString quoting rest).map (Prod.map (escaped :: ·) id)
        | none => none
    else
      match _h : newline? (c :: rest) with
      | some rest => (readBlockString quoting rest).map (Prod.map ('\n' :: ·) id)
      | none =>
        if isTextChar c then
          (readBlockString quoting rest).map (Prod.map (c :: ·) id)
        else none
termination_by text.length
decreasing_by
  · have := length_of_joinLines? _h
    simp
    omega
  · have := length_of_escape? _h
    simp
    omega
  · have := length_of_newline? _h
    simp_all
  · simp

/-- The text after the line break that it starts with, or all of it. -/
def dropNewline (text : List Char) : List Char :=
  (newline? text).getD text

/-- Reads a string in one kind of quotes, from its opening quote on. -/
def readQuoted (quoting : Quoting) (text : List Char) : Option (String × List Char) := do
  let (content, rest) ←
    if text.take 3 == List.replicate 3 quoting.quote then
      readBlockString quoting (dropNewline (text.drop 3))
    else expect quoting.quote text >>= readLineString quoting
  return (String.ofList content, rest)

end Freshness.Toml
