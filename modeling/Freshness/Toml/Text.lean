/-!
# Characters and lines of TOML

What may stand in a comment or a string, what counts as blank and where a line ends.  A line ends
with a line feed, which a carriage return may precede; a carriage return alone ends nothing.
Text is read from its start, and what is left of it is read by the next reader.
-/

namespace Freshness.Toml

/-- A reader takes what it reads from the start of a text and leaves the rest. -/
abbrev Reader (α : Type) := List Char → Option (α × List Char)

/-- Whether a character may stand in a comment or a string: a tab or no control character of
ASCII. -/
def isTextChar (c : Char) : Bool :=
  c = '\t' || (0x20 ≤ c.toNat && c.toNat ≠ 0x7F)

def isBlank (c : Char) : Bool :=
  c = ' ' || c = '\t'

def skipBlanks (text : List Char) : List Char :=
  text.dropWhile isBlank

/-- The text after the character `c`, if it starts with it. -/
def expect (c : Char) : List Char → Option (List Char)
  | [] => none
  | d :: rest => if d = c then some rest else none

/-- The text after the line break that it starts with, if it does. -/
def newline? : List Char → Option (List Char)
  | '\n' :: rest => some rest
  | '\r' :: '\n' :: rest => some rest
  | _ => none

def skipBreaks : List Char → List Char
  | [] => []
  | '\r' :: '\n' :: rest => skipBreaks rest
  | c :: rest => if isBlank c || c = '\n' then skipBreaks rest else c :: rest

/-- The text after its leading blanks, line breaks and comments.  The flag tells whether the text
starts inside a comment. -/
def skipGaps (inComment : Bool) : List Char → List Char
  | [] => []
  | '\r' :: '\n' :: rest => skipGaps false rest
  | c :: rest =>
    if c = '\n' then skipGaps false rest
    else if isBlank c || (inComment && isTextChar c) then skipGaps inComment rest
    else if c = '#' then skipGaps true rest
    else c :: rest

def skipComment (text : List Char) : List Char :=
  match text with
  | '#' :: rest => rest.dropWhile isTextChar
  | _ => text

/-- The text after the end of the line, before which there may be blanks and a comment. -/
def endLine? (text : List Char) : Option (List Char) :=
  match skipComment (skipBlanks text) with
  | [] => some []
  | rest => newline? rest

theorem length_skipBlanks_le (text : List Char) : (skipBlanks text).length ≤ text.length :=
  (List.dropWhile_sublist isBlank).length_le

theorem length_of_newline? {text rest : List Char} (h : newline? text = some rest) :
    rest.length < text.length := by
  unfold newline? at h
  split at h
  · exact Option.some.inj h ▸ Nat.lt_succ_self _
  · exact Option.some.inj h ▸ Nat.lt_succ_of_lt (Nat.lt_succ_self _)
  · contradiction

theorem length_skipBreaks_le (text : List Char) : (skipBreaks text).length ≤ text.length := by
  fun_induction skipBreaks text <;> simp_all <;> omega

end Freshness.Toml
