/-!
# Numbered runs in a token

A numbered run is a maximal run of the letters `a` to `z` that a digit follows, together with the
maximal run of digits after it, as in `rc2`.  A token is cut into its numbered runs and the text
between them.  The cut is made from the end of the token: a character put in front changes the
first segment only (`Segment.cons`).
-/

namespace Freshness.Text

/-- A stretch of a token: a numbered run, or text that holds none. -/
inductive Segment
  | plain (text : List Char)
  | numbered (letters digits : List Char)
  deriving DecidableEq, Repr

namespace Segment

def chars : Segment → List Char
  | plain text => text
  | numbered letters digits => letters ++ digits

/-- The pieces of a segment: the letters and the digits of a numbered run are one each. -/
def pieces : Segment → List (List Char)
  | plain text => [text]
  | numbered letters digits => [letters, digits]

/-- Puts plain text, unless it is empty, in front of segments. -/
def consPlain (text : List Char) (segments : List Segment) : List Segment :=
  if text.isEmpty then segments else plain text :: segments

/-- Puts a character in front of segments.  A letter joins the letters of a numbered run, or
begins one with the digits at the start of plain text. -/
def cons (c : Char) : List Segment → List Segment
  | [] => [plain [c]]
  | numbered letters digits :: rest =>
    if c.isLower then numbered (c :: letters) digits :: rest
    else plain [c] :: numbered letters digits :: rest
  | plain text :: rest =>
    if c.isLower && text.head?.any Char.isDigit then
      numbered [c] (text.takeWhile Char.isDigit)
        :: consPlain (text.dropWhile Char.isDigit) rest
    else plain (c :: text) :: rest

end Segment

def segments (token : List Char) : List Segment :=
  token.foldr Segment.cons []

def pieces (token : List Char) : List (List Char) :=
  (segments token).flatMap Segment.pieces

@[simp]
theorem segments_nil : segments [] = [] := rfl

@[simp]
theorem segments_cons (c : Char) (rest : List Char) :
    segments (c :: rest) = Segment.cons c (segments rest) := rfl

@[simp]
theorem Segment.flatMap_chars_consPlain (text : List Char) (rest : List Segment) :
    (consPlain text rest).flatMap chars = text ++ rest.flatMap chars := by
  unfold consPlain
  split <;> simp_all [chars]

@[simp]
theorem Segment.flatMap_chars_cons (c : Char) (rest : List Segment) :
    (cons c rest).flatMap chars = c :: rest.flatMap chars := by
  unfold cons
  split
  · rfl
  · split <;> simp [chars]
  · split
    · simp only [List.flatMap_cons, flatMap_chars_consPlain, chars, List.cons_append,
        List.nil_append]
      rw [← List.append_assoc, List.takeWhile_append_dropWhile]
    · simp [chars]

/-- Nothing of a token is lost or moved. -/
theorem flatMap_chars_segments (token : List Char) :
    (segments token).flatMap Segment.chars = token := by
  induction token with
  | nil => rfl
  | cons c rest ih => simp [ih]

end Freshness.Text
