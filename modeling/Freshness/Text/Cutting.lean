import Freshness.Text.Segment

/-!
# Cutting a token in one pass

A token is cut from the front, from one numbered run to the next.  The cutter keeps the offset at
which the last run ended.  The text from there to the next run is a piece, and so are the letters
and the digits of that run; empty pieces are dropped in the end.  Offsets count bytes, so a piece
can be taken only between two boundaries of characters that are in order.  Where the runs stand is
asked of a search, which is a parameter here.
-/

namespace Freshness.Text

/-! ## Offsets -/

/-- The offset behind some text at the start of a token. -/
def offset (text : List Char) : String.Pos.Raw :=
  (String.ofList text).rawEndPos

/-- The text between two offsets, if they are in order and at boundaries of characters. -/
def subtext? (text : String) (start stop : String.Pos.Raw) : Option String := do
  let start ← text.pos? start
  let stop ← text.pos? stop
  let slice ← text.slice? start stop
  return slice.copy

theorem offset_lt_append (text : List Char) {more : List Char} (hmore : more ≠ []) :
    offset text < offset (text ++ more) := by
  have hsize : (String.ofList more).utf8ByteSize ≠ 0 := by simpa using hmore
  rw [offset, offset, String.ofList_append, String.Pos.Raw.lt_iff, String.byteIdx_rawEndPos,
    String.byteIdx_rawEndPos, String.utf8ByteSize_append]
  omega

theorem offset_le_append (text more : List Char) : offset text ≤ offset (text ++ more) := by
  rw [offset, offset, String.ofList_append, String.Pos.Raw.le_iff, String.byteIdx_rawEndPos,
    String.byteIdx_rawEndPos, String.utf8ByteSize_append]
  omega

/-- Of two texts at the start of a token, the one with the smaller offset is part of the other. -/
theorem exists_append_of_offset_le {text more before after : List Char}
    (heq : text ++ more = before ++ after) (hle : offset text ≤ offset before) :
    ∃ between, before = text ++ between ∧ more = between ++ after := by
  rcases List.append_eq_append_iff.mp heq with hlonger | ⟨between, rfl, rfl⟩
  · exact hlonger
  · cases between with
    | nil => exact ⟨[], by simp, by simp⟩
    | cons c between =>
        have hlt := offset_lt_append before (List.cons_ne_nil c between)
        exact absurd (String.Pos.Raw.lt_of_lt_of_le hlt hle) (by simp [String.Pos.Raw.lt_iff])

theorem pos?_eq_some_iff {text : String} {offset : String.Pos.Raw} {pos : text.Pos} :
    text.pos? offset = some pos ↔ pos.offset = offset := by
  rw [String.pos?, String.Slice.pos?]
  split
  · rw [Option.map_some, Option.some.injEq, String.Pos.ext_iff, eq_comm]
    rfl
  · next hinvalid =>
      rw [String.Pos.Raw.isValidForSlice_eq_true_iff] at hinvalid
      constructor
      · simp
      · rintro rfl
        exact absurd pos.isValid.toSlice hinvalid

theorem slice?_eq_some_iff {text : String} {start stop : text.Pos} {slice : String.Slice} :
    text.slice? start stop = some slice ↔ ∃ hle, text.slice start stop hle = slice := by
  rw [String.slice?]
  split
  · next hle => simp [hle]
  · next hle => simp [hle]

/-- A part of a text can be taken just between the offsets at which it begins and ends. -/
theorem subtext?_eq_some_iff {text part : String} {start stop : String.Pos.Raw} :
    subtext? text start stop = some part ↔
      ∃ before after, text = before ++ (part ++ after) ∧ start = before.rawEndPos ∧
        stop = (before ++ part).rawEndPos := by
  simp only [subtext?, Option.bind_eq_bind, Option.bind_eq_some_iff, pos?_eq_some_iff,
    slice?_eq_some_iff, Option.pure_def, Option.some.injEq]
  constructor
  · rintro ⟨first, rfl, second, rfl, _, ⟨hle, rfl⟩, hpart⟩
    obtain ⟨before, after, hfirst, hsecond⟩ := String.copy_slice_eq_iff_splits.mp ⟨hle, hpart⟩
    exact ⟨before, after, hfirst.eq_append, hfirst.offset_eq_rawEndPos,
      hsecond.offset_eq_rawEndPos⟩
  · rintro ⟨before, after, htext, rfl, rfl⟩
    have hfirst := String.Pos.splits_ofEqAppend htext
    have hsecond := String.Pos.splits_ofEqAppend (htext.trans String.append_assoc.symm)
    obtain ⟨hle, hcopy⟩ := String.copy_slice_eq_iff_splits.mpr ⟨before, after, hfirst, hsecond⟩
    exact ⟨_, hfirst.offset_eq_rawEndPos, _, hsecond.offset_eq_rawEndPos, _, ⟨hle, rfl⟩, hcopy⟩

theorem subtext?_append (before part after : List Char) :
    subtext? (String.ofList (before ++ (part ++ after))) (offset before) (offset (before ++ part)) =
      some (String.ofList part) := by
  rw [subtext?_eq_some_iff]
  refine ⟨String.ofList before, String.ofList after, ?_, rfl, ?_⟩
  · rw [String.ofList_append, String.ofList_append]
  · rw [offset, String.ofList_append]

/-! ## Runs and the cutter -/

/-- Where a numbered run stands in a token: the offsets at which its letters begin, at which its
digits begin, and at which it ends. -/
structure RunSpan where
  start : String.Pos.Raw
  middle : String.Pos.Raw
  stop : String.Pos.Raw
  deriving DecidableEq, Repr

namespace RunSpan

def of (before letters digits : List Char) : RunSpan where
  start := offset before
  middle := offset (before ++ letters)
  stop := offset (before ++ (letters ++ digits))

def ofSegments (before : List Char) : List Segment → List RunSpan
  | [] => []
  | .plain text :: rest => ofSegments (before ++ text) rest
  | .numbered letters digits :: rest =>
    of before letters digits :: ofSegments (before ++ (letters ++ digits)) rest

end RunSpan

def runs (token : String) : List RunSpan :=
  RunSpan.ofSegments [] (segments token.toList)

/-- A cutter: the offset at which the last run ended, and the pieces taken so far. -/
structure Cutter where
  last : String.Pos.Raw := 0
  pieces : List String := []
  deriving DecidableEq, Repr

namespace Cutter

/-- Takes the text before a run, and the letters and the digits of the run. -/
def step (token : String) (cutter : Cutter) (run : RunSpan) : Option Cutter := do
  let gap ← subtext? token cutter.last run.start
  let letters ← subtext? token run.start run.middle
  let digits ← subtext? token run.middle run.stop
  return { last := run.stop, pieces := cutter.pieces ++ [gap, letters, digits] }

/-- Takes the text behind the last run, and drops the empty pieces. -/
def finish (token : String) (cutter : Cutter) : Option (List String) := do
  let rest ← subtext? token cutter.last token.rawEndPos
  return (cutter.pieces ++ [rest]).filter fun piece => piece ≠ ""

end Cutter

/-- Cuts a token at the runs that a search finds in it.  There is no result where a piece cannot be
taken. -/
def cut (search : String → List RunSpan) (token : String) : Option (List String) := do
  (← (search token).foldlM (Cutter.step token) {}).finish token

end Freshness.Text
